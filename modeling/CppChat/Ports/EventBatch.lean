import CppChat.Ports.ConnectionFrame

/-!
# Stale events in a batch

`epoll_wait` returns a batch of events, each with a socket number and nothing
else.  While the batch is processed, a wake event may close connections and a
listen event may accept new ones, and the kernel may give a new connection the
number of one that was just closed.  An event later in the batch then names a
socket that belongs to somebody else, or to nobody.

A client event is confined when all it does, it does to the connection that
owned the socket when `epoll_wait` returned.  This holds exactly when the
socket still belongs to that connection, or when the event does nothing at
all: `Harmless` says when.

## Main results

* `processEvent_inv`: an event keeps the invariant of the reactor.
* `clientEvent_confined_iff`: when a client event of a batch is confined.
* `staleHangup_closesOther`: a batch in which a stale hang-up closes a connection that
  has just been accepted.
-/

namespace CppChat.Ports.Network

open CppChat.Verified
open CppChat.Verified.Transition
open CppChat.Ports.PacketCodec

/-! ## A batch -/

/-- Every socket `accept4` returns is closed at that moment. -/
def TcpServer.acceptsFree : TcpServer → List Accepted → Bool
  | _, [] => true
  | srv, accepted :: rest =>
      (srv.connectionByFd.lookup accepted.fd).isNone && accepted.fd != srv.listenFd &&
        accepted.fd != srv.wakeFd && (srv.acceptConnection accepted).acceptsFree rest

/-- The next event of a batch, with a kernel that accepts only closed sockets. -/
def eventStep (config : ServerConfig) (srv : TcpServer) (item : EpollEvent × EventIo) :
    Option TcpServer :=
  if item.1.fd = srv.listenFd ∧
      (item.2.pushed.foldl (TcpServer.pushResult config) srv).acceptsFree item.2.accepts =
        false then none
  else some (srv.processEvent config item.1 item.2)

/-- All that happens between two states is done to the connection that owned
the socket at the start, and that connection is open; every other connection
stays as it is. -/
structure Confined (start before after : TcpServer) (fd : Nat) : Prop where
  effects : Emits (fun effect => ∃ i, start.connectionByFd.lookup fd = some i ∧
    (before.connections.lookup i).isSome ∧ effect.owner = some i) before after
  others : ∀ j, start.connectionByFd.lookup fd ≠ some j →
    after.connections.lookup j = before.connections.lookup j

/-- The socket still belongs to the connection that owned it at the start. -/
def StillOwned (start before : TcpServer) (fd : Nat) : Prop :=
  ∃ i, start.connectionByFd.lookup fd = some i ∧ before.connectionByFd.lookup fd = some i

/-- An event that finds nothing to do: no error or hang-up, and the socket
belongs to nobody, or to a connection that is neither read, because it is
closing, nor written, because nothing waits. -/
def Harmless (before : TcpServer) (event : EpollEvent) : Prop :=
  (event.error || event.hangup || event.readHangup) = false ∧
  ∀ i connection, before.findConnectionByFd event.fd = some (i, connection) →
    (event.readable → connection.closing) ∧ (event.writable → connection.writeBuffer = [])

/-! ## Events keep the invariant -/

theorem changes_acceptConnections (accepts : List Accepted) :
    ∀ srv : TcpServer, srv.acceptsFree accepts → Changes srv (srv.acceptConnections accepts) := by
  induction accepts with
  | nil => exact fun srv _ => .refl
  | cons accepted rest ih =>
      intro srv hFree
      simp only [TcpServer.acceptsFree, Bool.and_eq_true, Option.isNone_iff_eq_none] at hFree
      have hAccept : Changes srv (srv.acceptConnection accepted) :=
        .single (.accept accepted hFree.1.1.1)
      exact hAccept.trans (ih _ hFree.2)

/-- Delivering replies as a chain of changes. -/
theorem changes_deliverAll (config : ServerConfig) (responses : List QueuedResponse) :
    ∀ (ios : List SendIo) (srv : TcpServer),
      Changes srv (TcpServer.deliverAll config responses ios srv) := by
  induction responses with
  | nil => exact fun ios srv => .refl
  | cons response rest ih =>
      intro ios srv
      exact (changes_deliver config srv response _).trans (ih _ _)

/-- A drain as a chain of changes. -/
theorem changes_drainResponses (config : ServerConfig) (srv : TcpServer) (io : DrainIo) :
    Changes srv (srv.drainResponses config io) := by
  have hSwap : ∀ srv : TcpServer, Changes srv { srv with responseQueue := [] } :=
    fun srv => .single (.neutral [] (by simp) rfl rfl rfl rfl (List.append_nil _).symm)
  have hDrained := changes_drainCloseRequests srv
  have hPushed := hDrained.trans (changes_foldl (changes_pushResult config) io.beforeSwap _)
  unfold TcpServer.drainResponses
  dsimp only
  generalize io.beforeSwap.foldl (TcpServer.pushResult config) srv.drainCloseRequests = pushed
    at hPushed
  have hDelivered := (hPushed.trans (hSwap pushed)).trans
    (changes_deliverAll config pushed.responseQueue io.sends _)
  exact (hDelivered.trans (changes_foldl (changes_pushResult config) io.beforeCloses _)).trans
    (changes_drainCloseRequests _)

/-- The event of a client keeps the invariant. -/
theorem processClient_inv {config : ServerConfig} {srv : TcpServer} (h : ReactorInv srv)
    (event : EpollEvent) (io : EventIo) :
    ReactorInv (srv.processClient config event io) := by
  unfold TcpServer.processClient
  split
  · exact (changes_closeClient srv event.fd).inv h
  · have hRead : ReactorInv (if event.readable then
        srv.handleClientRead config event.fd io.read else srv) := by
      split
      · exact (changes_handleClientRead config srv event.fd io.read).inv h
      · exact h
    dsimp only
    split
    · exact (changes_flushWriteBuffer hRead.toInverse event.fd io.flush).inv hRead
    · exact hRead

/-- Processing an event keeps the invariant. -/
theorem processEvent_inv {config : ServerConfig} (srv : TcpServer)
    (item : EpollEvent × EventIo) (srv' : TcpServer) (h : ReactorInv srv)
    (hStep : eventStep config srv item = some srv') : ReactorInv srv' := by
  have hPushed : ReactorInv (item.2.pushed.foldl (TcpServer.pushResult config) srv) :=
    (changes_foldl (changes_pushResult config) item.2.pushed srv).inv h
  unfold eventStep at hStep
  split at hStep
  · contradiction
  · rename_i hFree
    injection hStep with hEq
    rw [← hEq, TcpServer.processEvent]
    split
    · rename_i hListen
      have hAccepts : (item.2.pushed.foldl (TcpServer.pushResult config) srv).acceptsFree
          item.2.accepts = true := by
        cases hValue : (item.2.pushed.foldl (TcpServer.pushResult config) srv).acceptsFree
            item.2.accepts with
        | true => rfl
        | false => exact absurd ⟨hListen, hValue⟩ hFree
      exact (changes_acceptConnections _ _ hAccepts).inv hPushed
    · split
      · exact (changes_drainResponses config _ item.2.drain).inv hPushed
      · exact processClient_inv hPushed item.1 item.2

/-! ## An event that finds its connection -/

/-- What an event does after the read, it does to the owner the socket had
before. -/
theorem onlyFor_flush_after {srv read : TcpServer} {fd i : Nat} (hRead : Inverse read)
    (hMapped : srv.connectionByFd.lookup fd = some i) (hOnly : OnlyFor i fd srv read)
    (writable : Bool) (io : SendIo) :
    OnlyFor i fd read (if writable then read.flushWriteBuffer fd io else read) := by
  split
  · apply onlyFor_flushWriteBuffer hRead hOnly.socket
    intro j hj
    have hOld := hOnly.mapped fd j hj
    rw [hMapped] at hOld
    exact (Option.some.inj hOld).symm
  · exact .refl hOnly.socket

/-- The event of a client is about the owner of the socket. -/
theorem onlyFor_processClient {config : ServerConfig} {srv : TcpServer} (h : ReactorInv srv)
    {event : EpollEvent} {i : Nat} (hMapped : srv.connectionByFd.lookup event.fd = some i)
    (io : EventIo) : OnlyFor i event.fd srv (srv.processClient config event io) := by
  obtain ⟨connection, hFind⟩ := h.toInverse.findConnectionByFd hMapped
  have hSocket := socket_of_lookup (findConnectionByFd_eq_some hFind).2
  rw [h.toInverse.findConnectionByFd_fd hFind] at hSocket
  have hStay : OnlyFor i event.fd srv srv := .refl hSocket
  unfold TcpServer.processClient
  split
  · exact hStay.closeClient hMapped
  · have hRead : OnlyFor i event.fd srv (if event.readable then
        srv.handleClientRead config event.fd io.read else srv) ∧
        Inverse (if event.readable then
          srv.handleClientRead config event.fd io.read else srv) := by
      split
      · exact ⟨onlyFor_handleClientRead h.toInverse hMapped io.read,
          ((changes_handleClientRead config srv event.fd io.read).inv h).toInverse⟩
      · exact ⟨hStay, h.toInverse⟩
    exact hRead.1.trans
      (onlyFor_flush_after hRead.2 hMapped hRead.1 event.writable io.flush)

/-! ## An event that acts -/

/-- The event does something, and does it to the owner of the socket, or to
nobody. -/
def ActsOnOwner (srv srv' : TcpServer) (fd : Nat) : Prop :=
  ∃ effect rest, srv'.log = srv.log ++ effect :: rest ∧
    effect.owner = srv.connectionByFd.lookup fd

theorem actsOnOwner_of_onlyFor {srv middle srv' : TcpServer} {fd i : Nat} {effect : Effect}
    (hLog : middle.log = srv.log ++ [effect]) (hOnly : OnlyFor i fd middle srv')
    (hOwner : effect.owner = srv.connectionByFd.lookup fd) : ActsOnOwner srv srv' fd := by
  obtain ⟨rest, hRest, _⟩ := hOnly.effects
  refine ⟨effect, rest, ?_, hOwner⟩
  rw [hRest, hLog, List.append_assoc]
  rfl

theorem closeClient_acts {srv : TcpServer} (h : Inverse srv) (fd : Nat) :
    ActsOnOwner srv (srv.closeClient fd) fd := by
  unfold TcpServer.closeClient
  cases hMapped : srv.connectionByFd.lookup fd with
  | none => exact ⟨.close none fd, [], rfl, hMapped.symm⟩
  | some i =>
      obtain ⟨connection, hLookup, _⟩ := (h.fd_iff fd i).mp hMapped
      dsimp only
      rw [closeConnection_of_some hLookup]
      exact ⟨.handleDisconnect i, _, rfl, hMapped.symm⟩

/-- An event that is not harmless and carries no error finds a connection to
read from or to write to. -/
theorem exists_of_not_harmless {srv : TcpServer} {event : EpollEvent}
    (hFlags : (event.error || event.hangup || event.readHangup) = false)
    (hActs : ¬ Harmless srv event) :
    ∃ i connection, srv.findConnectionByFd event.fd = some (i, connection) ∧
      (event.readable = true ∧ connection.closing = false ∨
        event.writable = true ∧ connection.writeBuffer ≠ []) := by
  by_contra hNone
  apply hActs
  refine ⟨hFlags, fun i connection hFind => ⟨?_, ?_⟩⟩
  · intro hReadable
    cases hClosing : connection.closing with
    | true => rfl
    | false => exact absurd ⟨i, connection, hFind, .inl ⟨hReadable, hClosing⟩⟩ hNone
  · intro hWritable
    by_contra hBuffer
    exact hNone ⟨i, connection, hFind, .inr ⟨hWritable, hBuffer⟩⟩

/-- A client event that is not harmless acts. -/
theorem processClient_acts {config : ServerConfig} {srv : TcpServer} (h : ReactorInv srv)
    {event : EpollEvent} (hActs : ¬ Harmless srv event) (io : EventIo) :
    ActsOnOwner srv (srv.processClient config event io) event.fd := by
  unfold TcpServer.processClient
  cases hFlags : event.error || event.hangup || event.readHangup with
  | true => exact closeClient_acts h.toInverse event.fd
  | false =>
      rw [if_neg nofun]
      obtain ⟨i, connection, hFind, hWork⟩ := exists_of_not_harmless hFlags hActs
      have hMapped := (findConnectionByFd_eq_some hFind).1
      by_cases hReads : event.readable = true ∧ connection.closing = false
      · -- The read is the first effect, whatever the flush adds.
        obtain ⟨received, hLog, hRecv, hRest⟩ :=
          @handleClientRead_recv config srv event.fd i connection h.toInverse hFind hReads.2
            io.read
        have hInv := ((changes_handleClientRead config srv event.fd io.read).inv h).toInverse
        have hFlush := onlyFor_flush_after hInv hMapped (hRecv.trans hRest) event.writable
          io.flush
        rw [if_pos hReads.1]
        exact actsOnOwner_of_onlyFor hLog (hRest.trans hFlush) hMapped.symm
      · -- Nothing is read, so the flush is the first effect.
        have hSkip : (if event.readable then
            srv.handleClientRead config event.fd io.read else srv) = srv := by
          split
          · rename_i hReadable
            apply handleClientRead_of_closing
            intro j other hOther
            rw [found_eq hFind hOther]
            cases hClosing : connection.closing with
            | true => rfl
            | false => exact absurd ⟨hReadable, hClosing⟩ hReads
          · rfl
        obtain ⟨hWritable, hWaiting⟩ := hWork.resolve_left hReads
        obtain ⟨sent, bytes, hLog, _, hRest⟩ :=
          flushWriteBuffer_send h.toInverse hFind hWaiting io.flush
        rw [hSkip]
        dsimp only
        rw [if_pos hWritable]
        exact actsOnOwner_of_onlyFor hLog hRest hMapped.symm

/-- A harmless event is ignored. -/
theorem processClient_of_harmless {config : ServerConfig} {srv : TcpServer}
    {event : EpollEvent} (h : Harmless srv event) (io : EventIo) :
    srv.processClient config event io = srv := by
  obtain ⟨hFlags, hIdle⟩ := h
  have hSkip : (if event.readable then
      srv.handleClientRead config event.fd io.read else srv) = srv := by
    split
    · rename_i hReadable
      exact handleClientRead_of_closing (fun i connection hFind =>
        (hIdle i connection hFind).1 hReadable) io.read
    · rfl
  rw [TcpServer.processClient, hFlags, if_neg nofun, hSkip]
  dsimp only
  split
  · rename_i hWritable
    exact flushWriteBuffer_of_empty (fun i connection hFind =>
      (hIdle i connection hFind).2 hWritable) io.flush
  · rfl

/-! ## Client events of a batch -/

theorem pushResult_eq (config : ServerConfig) (srv : TcpServer) (result : WorkerResult) :
    (srv.pushResult config result).log = srv.log ∧
    (srv.pushResult config result).connections = srv.connections ∧
    (srv.pushResult config result).connectionByFd = srv.connectionByFd := by
  obtain ⟨_, _, hPushed⟩ := srv.pushResult_queues config result
  rw [hPushed]
  exact ⟨rfl, rfl, rfl⟩

/-- Pushes of the workers touch the queues only. -/
theorem pushResults_eq (config : ServerConfig) (results : List WorkerResult) :
    ∀ srv : TcpServer,
      (results.foldl (TcpServer.pushResult config) srv).log = srv.log ∧
      (results.foldl (TcpServer.pushResult config) srv).connections = srv.connections ∧
      (results.foldl (TcpServer.pushResult config) srv).connectionByFd =
        srv.connectionByFd := by
  induction results with
  | nil => exact fun srv => ⟨rfl, rfl, rfl⟩
  | cons result rest ih =>
      intro srv
      obtain ⟨hLog, hConnections, hFds⟩ := ih (srv.pushResult config result)
      obtain ⟨hLog', hConnections', hFds'⟩ := pushResult_eq config srv result
      exact ⟨hLog.trans hLog', hConnections.trans hConnections', hFds.trans hFds'⟩

/-- What is known of all effects holds for the first. -/
theorem Emits.head {p : Effect → Prop} {srv srv' : TcpServer} (h : Emits p srv srv')
    {effect : Effect} {rest : List Effect} (hLog : srv'.log = srv.log ++ effect :: rest) :
    p effect := by
  obtain ⟨effects, hEffects, hAll⟩ := h
  have hSame : effects = effect :: rest := List.append_cancel_left (hEffects.symm.trans hLog)
  apply hAll
  rw [hSame]
  exact List.mem_cons_self

/-- In every reachable state, for every batch and every client event in it: the
event is confined to the connection that owned the socket when `epoll_wait`
returned exactly when that connection still owns it, or the event is harmless. -/
theorem clientEvent_confined_iff (config : ServerConfig) (listenFd wakeFd : Nat)
    (acts : List Action) (r : Reactor)
    (hRun : run (Reactor.step config) { server := { listenFd := listenFd, wakeFd := wakeFd } }
      acts = some r)
    (batch : List (EpollEvent × EventIo)) (srv : TcpServer)
    (hBatch : run (eventStep config) r.server batch = some srv)
    (event : EpollEvent) (io : EventIo)
    (hListen : event.fd ≠ srv.listenFd) (hWake : event.fd ≠ srv.wakeFd) :
    Confined r.server srv (srv.processEvent config event io) event.fd ↔
      StillOwned r.server srv event.fd ∨ Harmless srv event := by
  have hInv : ReactorInv srv := run_invariant processEvent_inv (run_reactorInv hRun) hBatch
  rw [TcpServer.processEvent, if_neg hListen, if_neg hWake]
  obtain ⟨hLog, hConnections, hFds⟩ := pushResults_eq config io.pushed srv
  have hPushedInv := (changes_foldl (changes_pushResult config) io.pushed srv).inv hInv
  generalize io.pushed.foldl (TcpServer.pushResult config) srv = pushed at *
  have hHarmless : Harmless pushed event ↔ Harmless srv event := by
    simp only [Harmless, TcpServer.findConnectionByFd, TcpServer.findConnection, hConnections,
      hFds]
  constructor
  · intro hConfined
    by_cases hIdle : Harmless srv event
    · exact .inr hIdle
    · have hNot : ¬ Harmless pushed event := fun h => hIdle (hHarmless.mp h)
      have hActs : ActsOnOwner pushed (pushed.processClient config event io) event.fd :=
        processClient_acts hPushedInv hNot io
      obtain ⟨effect, rest, hGrown, hOwner⟩ := hActs
      rw [hLog] at hGrown
      rw [hFds] at hOwner
      obtain ⟨i, hStart, _, hOwner'⟩ := hConfined.effects.head hGrown
      exact .inl ⟨i, hStart, hOwner.symm.trans hOwner'⟩
  · rintro (⟨i, hStart, hStill⟩ | hIdle)
    · have hMapped : pushed.connectionByFd.lookup event.fd = some i := by rw [hFds, hStill]
      have hOnly : OnlyFor i event.fd pushed (pushed.processClient config event io) :=
        onlyFor_processClient hPushedInv hMapped io
      obtain ⟨connection, hOpen, _⟩ := (hInv.fd_iff event.fd i).mp hStill
      have hQuiet : Emits (fun effect => effect.owner = some i) srv pushed := .of_log_eq hLog
      refine ⟨(hQuiet.trans hOnly.effects).mono ?_, ?_⟩
      · intro effect hOwner
        exact ⟨i, hStart, by rw [hOpen]; rfl, hOwner⟩
      · intro j hj
        rw [← hConnections]
        apply hOnly.others
        intro hEq
        rw [hEq] at hj
        exact hj hStart
    · rw [processClient_of_harmless (hHarmless.mpr hIdle)]
      exact ⟨.of_log_eq hLog, fun j _ => by rw [hConnections]⟩

/-- A wake event that drains a reply to connection 1, whose `send` fails. -/
def failedReply : EpollEvent × EventIo :=
  ({ fd := 4, readable := true },
    { pushed := [{ connectionId := 1, generation := 1,
                   messages := [{ connectionId := 1, data := ascii "hi" }] }]
      drain := { sends := [{ script := [.error 32] }] } })

/-- Connection 2 was on socket 8 when the batch was returned, and still is when
its event is processed. -/
theorem clientEvent_confined_iff_otherSocket :
    ∃ r srv, run (Reactor.step {}) { server := { listenFd := 3, wakeFd := 4 } }
        [.accept { fd := 7 }, .accept { fd := 8 }] = some r ∧
      run (eventStep {}) r.server [failedReply] = some srv ∧
      srv.connectionByFd.lookup 7 = none ∧
      Confined r.server srv (srv.processEvent {} { fd := 8, hangup := true } {}) 8 := by
  obtain ⟨r, hRun, hView⟩ := Option.bind_eq_some_iff.mp
    (show ((run (Reactor.step {}) { server := { listenFd := 3, wakeFd := 4 } }
      [.accept { fd := 7 }, .accept { fd := 8 }]).bind fun r =>
        (run (eventStep {}) r.server [failedReply]).map fun srv =>
          (srv.listenFd, srv.wakeFd, srv.connectionByFd.lookup 7,
            r.server.connectionByFd.lookup 8, srv.connectionByFd.lookup 8)) =
        some (3, 4, none, some 2, some 2) by
      decide +kernel)
  obtain ⟨srv, hBatch, hState⟩ := Option.map_eq_some_iff.mp hView
  injection hState with hListen hState
  injection hState with hWake hState
  injection hState with hClosed hState
  injection hState with hStart hStill
  refine ⟨r, srv, hRun, hBatch, hClosed, ?_⟩
  apply (clientEvent_confined_iff {} 3 4 _ r hRun _ srv hBatch _ {} ?_ ?_).mpr
  · exact .inl ⟨2, hStart, hStill⟩
  · rw [hListen]
    decide
  · rw [hWake]
    decide

/-- The reply to connection 1 fails and closes it, the next connection is
accepted on the same socket, and the hang-up that was meant for connection 1
closes it. -/
theorem staleHangup_closesOther :
    ∃ r srv, run (Reactor.step {}) { server := { listenFd := 3, wakeFd := 4 } }
        [.accept { fd := 7 }] = some r ∧
      run (eventStep {}) r.server
        [failedReply, ({ fd := 3, readable := true }, { accepts := [{ fd := 7 }] })] =
          some srv ∧
      srv.listenFd = 3 ∧ srv.wakeFd = 4 ∧
      r.server.connectionByFd.lookup 7 = some 1 ∧ srv.connectionByFd.lookup 7 = some 2 ∧
      (srv.processEvent {} { fd := 7, hangup := true } {}).log =
        srv.log ++ [.handleDisconnect 2, .close (some 2) 7] ∧
      ¬ Confined r.server srv (srv.processEvent {} { fd := 7, hangup := true } {}) 7 := by
  obtain ⟨r, hRun, hView⟩ := Option.bind_eq_some_iff.mp
    (show ((run (Reactor.step {}) { server := { listenFd := 3, wakeFd := 4 } }
      [.accept { fd := 7 }]).bind fun r =>
        (run (eventStep {}) r.server
          [failedReply, ({ fd := 3, readable := true }, { accepts := [{ fd := 7 }] })]).map
        fun srv =>
          (srv.listenFd, srv.wakeFd, r.server.connectionByFd.lookup 7,
            srv.connectionByFd.lookup 7,
            decide ((srv.processEvent {} { fd := 7, hangup := true } {}).log =
              srv.log ++ [.handleDisconnect 2, .close (some 2) 7]))) =
        some (3, 4, some 1, some 2, true) by
      decide +kernel)
  obtain ⟨srv, hBatch, hState⟩ := Option.map_eq_some_iff.mp hView
  injection hState with hListen hState
  injection hState with hWake hState
  injection hState with hStart hState
  injection hState with hNow hLog
  have hClosed := of_decide_eq_true hLog
  refine ⟨r, srv, hRun, hBatch, hListen, hWake, hStart, hNow, hClosed, ?_⟩
  intro hConfined
  obtain ⟨i, hOwner, _, hSame⟩ := hConfined.effects.head hClosed
  rw [hStart] at hOwner
  rw [← Option.some.inj hOwner] at hSame
  exact absurd hSame (by decide)

end CppChat.Ports.Network
