import CppChat.Ports.ClientLink

/-!
# Both directions of a connection

A client sends packets, and the thread pool is given their payloads; the service answers,
and the client reads what it answered.  In between are two streams of bytes that arrive in
pieces, a read buffer and a write buffer, and a reactor that serves everybody else at the
same time and may close the connection whenever something goes wrong.  In no interleaving
is a payload lost from the middle, doubled, reordered, merged with another or changed.

## Main results

* `step_keepsReading`: what is no read of a connection leaves its read side as it is.
* `handleClientRead_reads`: a read submits the payloads it completes, or closes.
* `step_linked`: every step keeps both directions.
* `link_faithful`: what both sides have got of each other, in every run.
-/

namespace CppChat.Ports.Network

open CppChat.Verified
open CppChat.Verified.Transition
open CppChat.Verified.Framing
open CppChat.Ports.PacketCodec

variable {srv srv' : TcpServer} {i : Nat} {connection : ConnectionState}

/-! ## The way to the server -/

/-- The payloads of one connection that the thread pool has been given. -/
def submittedBy (log : List Effect) (i : Nat) : List Bytes :=
  log.flatMap fun effect => match effect with
    | .enqueue j _ payloads => if j = i then payloads else []
    | _ => []

theorem submittedBy_append (log effects : List Effect) (i : Nat) :
    submittedBy (log ++ effects) i = submittedBy log i ++ submittedBy effects i :=
  List.flatMap_append

/-- The read side of a connection is as it was, or the connection is new or closed. -/
structure KeepsReading (i : Nat) (srv srv' : TcpServer) : Prop where
  opened : ∀ connection', srv'.connections.lookup i = some connection' →
    (∃ connection, srv.connections.lookup i = some connection ∧
      connection'.readBuffer = connection.readBuffer) ∨
    (srv.nextConnectionId ≤ i ∧ connection'.readBuffer = [])
  submitted : submittedBy srv'.log i = submittedBy srv.log i
  counter : srv.nextConnectionId ≤ srv'.nextConnectionId

namespace KeepsReading

variable {srv'' : TcpServer} {j : Nat}

theorem refl (i : Nat) (srv : TcpServer) : KeepsReading i srv srv where
  opened := fun connection hLookup => .inl ⟨connection, hLookup, rfl⟩
  submitted := rfl
  counter := Nat.le_refl _

theorem trans (h : KeepsReading i srv srv') (h' : KeepsReading i srv' srv'') :
    KeepsReading i srv srv'' where
  opened := by
    intro connection'' hLookup
    rcases h'.opened connection'' hLookup with ⟨connection', hLookup', hSame'⟩ | ⟨hNew, hEmpty⟩
    · rcases h.opened connection' hLookup' with ⟨connection, hOld, hSame⟩ | ⟨hNew, hEmpty⟩
      · exact .inl ⟨connection, hOld, hSame'.trans hSame⟩
      · exact .inr ⟨hNew, hSame'.trans hEmpty⟩
    · exact .inr ⟨h.counter.trans hNew, hEmpty⟩
  submitted := h'.submitted.trans h.submitted
  counter := h.counter.trans h'.counter

/-- Changes elsewhere. -/
theorem congr (h : KeepsReading i srv srv') (hConnections : srv''.connections = srv'.connections)
    (hLog : srv''.log = srv'.log) (hId : srv''.nextConnectionId = srv'.nextConnectionId) :
    KeepsReading i srv srv'' where
  opened := by
    rw [hConnections]
    exact h.opened
  submitted := by
    rw [hLog]
    exact h.submitted
  counter := by
    rw [hId]
    exact h.counter

theorem emit (h : KeepsReading i srv srv') {effect : Effect}
    (hNot : ∀ g payloads, effect ≠ .enqueue i g payloads) :
    KeepsReading i srv (srv'.emit [effect]) where
  opened := h.opened
  submitted := by
    have hNothing : submittedBy [effect] i = [] := by
      cases effect with
      | enqueue k g payloads =>
          have hk : k ≠ i := fun hEq => hNot g payloads (by rw [hEq])
          simp [submittedBy, hk]
      | _ => rfl
    show submittedBy (srv'.log ++ [effect]) i = _
    rw [submittedBy_append, hNothing, List.append_nil]
    exact h.submitted
  counter := h.counter

/-- A connection is written back with its read buffer. -/
theorem setConnection (h : KeepsReading i srv srv') {connection connection' : ConnectionState}
    (hLookup : srv'.connections.lookup j = some connection)
    (hBuffer : connection'.readBuffer = connection.readBuffer) :
    KeepsReading i srv (srv'.setConnection j connection') := by
  refine h.trans ⟨?_, rfl, Nat.le_refl _⟩
  intro stored hStored
  rw [setConnection_lookup] at hStored
  split at hStored
  · rename_i hEq
    rw [hEq]
    exact .inl ⟨connection, hLookup, by rw [← Option.some.inj hStored, hBuffer]⟩
  · exact .inl ⟨stored, hStored, rfl⟩

theorem closeConnection (h : KeepsReading i srv srv') (j : Nat) :
    KeepsReading i srv (srv'.closeConnection j) := by
  cases hLookup : srv'.connections.lookup j with
  | none =>
      rw [closeConnection_of_none hLookup]
      exact h
  | some connection =>
      refine h.trans ⟨?_, ?_, ?_⟩
      · intro stored hStored
        rw [closeConnection_lookup] at hStored
        split at hStored
        · contradiction
        · exact .inl ⟨stored, hStored, rfl⟩
      · rw [closeConnection_of_some hLookup]
        show submittedBy (srv'.log ++ _) i = _
        rw [submittedBy_append]
        exact List.append_nil _
      · rw [closeConnection_of_some hLookup]

theorem closeClient (h : KeepsReading i srv srv') (fd : Nat) :
    KeepsReading i srv (srv'.closeClient fd) := by
  unfold TcpServer.closeClient
  split
  · have hClosed : KeepsReading i srv (srv'.emit [.close none fd]) := h.emit (by simp)
    exact hClosed.congr rfl rfl rfl
  · exact h.closeConnection _

/-- What is done for another connection does not matter. -/
theorem of_onlyFor {fd : Nat} (h : OnlyFor j fd srv srv') (hj : j ≠ i) :
    KeepsReading i srv srv' where
  opened := fun connection hLookup =>
    .inl ⟨connection, (h.others i hj.symm).symm.trans hLookup, rfl⟩
  submitted := by
    obtain ⟨effects, hLog, hOwner⟩ := h.effects
    have hNothing : submittedBy effects i = [] := by
      apply List.flatMap_eq_nil_iff.mpr
      intro effect hMem
      cases effect with
      | enqueue k g payloads =>
          have hk : k = j := Option.some.inj (hOwner _ hMem)
          simp [hk, hj]
      | _ => rfl
    rw [hLog, submittedBy_append, hNothing, List.append_nil]
  counter := Nat.le_of_eq h.counter.symm

end KeepsReading

theorem keepsReading_sendToClient (config : ServerConfig) {j : Nat} (data : Bytes) (io : SendIo)
    (hLookup : srv.connections.lookup j = some connection) :
    KeepsReading i srv (srv.sendToClient config j connection data io).2 := by
  have hStay := KeepsReading.refl i srv
  have hSent : ∀ bytes, KeepsReading i srv (srv.afterSend connection.fd j bytes) :=
    fun bytes => hStay.emit (by simp)
  have hBlocked : ∀ bytes rest, KeepsReading i srv
      ((srv.afterSend connection.fd j bytes).withRest j connection rest) :=
    fun bytes rest => (hSent bytes).setConnection hLookup rfl
  have hDone : ∀ {after}, KeepsReading i srv after →
      KeepsReading i srv (after.emit [.sendDone j data]) :=
    fun hKeeps => hKeeps.emit (by simp)
  have hCase := sendToClient_case config srv j connection data io
  generalize srv.sendToClient config j connection data io = result at hCase ⊢
  cases hCase with
  | invalid => exact hStay
  | overflow => exact hStay.setConnection hLookup rfl
  | appended => exact hDone (hStay.setConnection hLookup rfl)
  | sent => exact hDone (hSent _)
  | failed => exact hSent _
  | blocked => exact hBlocked _ _
  | waits => exact hDone ((hBlocked _ _).congr rfl rfl rfl)

theorem keepsReading_deliver (config : ServerConfig) (response : QueuedResponse) (io : SendIo) :
    KeepsReading i srv (srv.deliver config response io) := by
  have hSent : ∀ {connection done srv'},
      srv.connections.lookup response.connectionId = some connection →
      srv.sendToClient config response.connectionId connection response.data io =
        (done, srv') → KeepsReading i srv srv' := by
    intro connection done srv' hLookup hSend
    have hKeeps := @keepsReading_sendToClient srv i connection config _ response.data io
      hLookup
    rw [hSend] at hKeeps
    exact hKeeps
  have hCase := deliver_case config srv response io
  generalize srv.deliver config response io = delivered at hCase ⊢
  cases hCase with
  | nothing => exact .refl i srv
  | failed hLookup hSend => exact (hSent hLookup hSend).closeConnection _
  | sent hLookup hSend => exact hSent hLookup hSend
  | finished hLookup hSend => exact (hSent hLookup hSend).closeConnection _
  | marked hLookup hSend hStored => exact (hSent hLookup hSend).setConnection hStored rfl

theorem keepsReading_flushWriteBuffer (fd : Nat) (io : SendIo) :
    KeepsReading i srv (srv.flushWriteBuffer fd io) := by
  have hSent : ∀ j bytes, KeepsReading i srv (srv.afterSend fd j bytes) :=
    fun j bytes => (KeepsReading.refl i srv).emit (by simp)
  have hRest : ∀ {j connection}, FlushFrom srv fd j connection → ∀ bytes rest,
      KeepsReading i srv ((srv.afterSend fd j bytes).withRest j connection rest) :=
    fun hFlush bytes rest => (hSent _ bytes).setConnection hFlush.lookup rfl
  have hCase := flushWriteBuffer_case srv fd io
  generalize srv.flushWriteBuffer fd io = srv' at hCase ⊢
  cases hCase with
  | nothing => exact .refl i srv
  | blocked hFlush => exact hRest hFlush _ _
  | failed => exact (hSent _ _).closeConnection _
  | notSwitched hFlush => exact (hRest hFlush _ []).closeConnection _
  | @closed j connection bytes hFlush =>
      have hDone : KeepsReading i srv
          (((srv.afterSend fd j bytes).withRest j connection []).withWriteMode fd false) :=
        (hRest hFlush bytes []).congr rfl rfl rfl
      exact hDone.closeConnection _
  | flushed hFlush => exact (hRest hFlush _ []).congr rfl rfl rfl

theorem keepsReading_acceptConnection (accepted : Accepted) :
    KeepsReading i srv (srv.acceptConnection accepted) := by
  unfold TcpServer.acceptConnection
  dsimp only
  split
  · refine ⟨?_, ?_, Nat.le_succ _⟩
    · intro connection hLookup
      have hInsert : (srv.connections.insert srv.nextConnectionId _).lookup i =
        some connection := hLookup
      rw [UnorderedMap.lookup_insert] at hInsert
      split at hInsert
      · rename_i hNew
        exact .inr ⟨Nat.le_of_eq hNew.symm, by rw [← Option.some.inj hInsert]⟩
      · exact .inl ⟨connection, hInsert, rfl⟩
    · show submittedBy (srv.log ++ _) i = _
      rw [submittedBy_append]
      exact List.append_nil _
  · have hClosed : KeepsReading i srv (srv.emit [.close none accepted.fd]) :=
      (KeepsReading.refl i srv).emit (by simp)
    exact ⟨hClosed.opened, hClosed.submitted, Nat.le_succ _⟩

theorem keepsReading_drainCloseRequests : KeepsReading i srv srv.drainCloseRequests := by
  have hStep : ∀ (after : TcpServer) (request : QueuedClose), True →
      KeepsReading i srv after → KeepsReading i srv (after.closeIfCurrent request) := by
    intro after request _ hKeeps
    unfold TcpServer.closeIfCurrent
    split
    · exact hKeeps.closeConnection _
    · exact hKeeps
  exact foldl_invariant hStep srv.closeQueue { srv with closeQueue := [] } (fun _ _ => trivial)
    ((KeepsReading.refl i srv).congr rfl rfl rfl)

/-- A read of another connection, or none at all. -/
theorem keepsReading_handleClientRead (config : ServerConfig) (hInv : Inverse srv) {fd : Nat}
    (io : ReadIo) (hNot : srv.readsFrom fd ≠ some i) :
    KeepsReading i srv (srv.handleClientRead config fd io) := by
  cases hFind : srv.findConnectionByFd fd with
  | none =>
      rw [TcpServer.handleClientRead, hFind]
      exact .refl i srv
  | some found =>
      obtain ⟨j, connection⟩ := found
      cases hClosing : connection.closing with
      | true =>
          rw [handleClientRead_of_closing]
          · exact .refl i srv
          · intro k other hOther
            rw [found_eq hFind hOther]
            exact hClosing
      | false =>
          have hj : j ≠ i := by
            rw [TcpServer.readsFrom, hFind] at hNot
            simpa [hClosing] using hNot
          have hMapped := (findConnectionByFd_eq_some hFind).1
          exact .of_onlyFor (onlyFor_handleClientRead hInv hMapped io) hj

/-- Whatever is not a read of the connection leaves its read side as it is. -/
theorem step_keepsReading {config : ServerConfig} {r r' : Reactor} {a : Action}
    (hInv : Inverse r.server)
    (hNot : ∀ fd io, a = .read fd io → r.server.readsFrom fd ≠ some i)
    (hStep : r.step config a = some r') : KeepsReading i r.server r'.server := by
  have hStay := KeepsReading.refl i r.server
  cases a with
  | accept accepted =>
      rw [Reactor.step] at hStep
      split at hStep
      · contradiction
      · rw [← Option.some.inj hStep]
        exact keepsReading_acceptConnection accepted
  | close j =>
      rw [← Option.some.inj hStep]
      exact hStay.closeConnection j
  | closeClient fd =>
      rw [← Option.some.inj hStep]
      exact hStay.closeClient fd
  | read fd io =>
      rw [← Option.some.inj hStep]
      exact keepsReading_handleClientRead config hInv io (hNot fd io rfl)
  | flush fd io =>
      rw [← Option.some.inj hStep]
      exact keepsReading_flushWriteBuffer fd io
  | push result =>
      rw [← Option.some.inj hStep]
      show KeepsReading i r.server (r.server.pushResult config result)
      obtain ⟨_, _, hPushed⟩ := r.server.pushResult_queues config result
      rw [hPushed]
      exact hStay.congr rfl rfl rfl
  | drainCloses =>
      rw [← Option.some.inj hStep]
      exact keepsReading_drainCloseRequests
  | swap =>
      rw [Reactor.step] at hStep
      split at hStep
      · rw [← Option.some.inj hStep]
        exact hStay.congr rfl rfl rfl
      · contradiction
  | deliver io =>
      rw [Reactor.step] at hStep
      split at hStep
      · contradiction
      · rw [← Option.some.inj hStep]
        exact keepsReading_deliver config _ io

/-! ## A read of the connection -/

/-- The first loop appends to what was buffered, whatever it was. -/
theorem readLoop_append (script : List RecvOutcome) (buffer : Bytes) :
    ∀ more, readLoop script (buffer ++ more) =
      ((readLoop script more).1, buffer ++ (readLoop script more).2) := by
  induction script with
  | nil => exact fun more => rfl
  | cons outcome rest ih =>
      intro more
      cases outcome with
      | bytes chunk =>
          rw [readLoop, readLoop, List.append_assoc]
          exact ih (more ++ chunk.data)
      | closed => rfl
      | eintr => exact ih more
      | error errno => rfl

/-- A call that does not end the connection decodes what was buffered and what it took. -/
theorem recvPacketsEt_goes {io : ReadIo} {buffer : Bytes} {out : RecvPacketResult × Bytes}
    (hOut : recvPacketsEt io.script buffer kMaxPacketPayloadSize = out)
    (hGoes : ¬EndsConnection out.1) :
    ∃ payloads, Decoded (buffer ++ io.taken) [] out payloads := by
  have hLoop := readLoop_append io.script buffer []
  rw [List.append_nil] at hLoop
  rw [recvPacketsEt, hLoop] at hOut
  cases hEnd : (readLoop io.script []).1 with
  | drained =>
      rw [hEnd] at hOut
      rw [← hOut]
      exact decodeLoop_spec _ _ [] (Nat.le_refl _)
  | closed =>
      rw [hEnd] at hOut
      rw [← hOut] at hGoes
      exact absurd (.inl rfl) hGoes
  | failed errno =>
      rw [hEnd] at hOut
      rw [← hOut] at hGoes
      exact absurd (.inr (.inr rfl)) hGoes

theorem submittedBy_of_emits
    (h : Emits (fun effect => ∀ i g payloads, effect ≠ .enqueue i g payloads) srv srv') (i : Nat) :
    submittedBy srv'.log i = submittedBy srv.log i := by
  obtain ⟨effects, hLog, hNone⟩ := h
  have hNothing : submittedBy effects i = [] := by
    apply List.flatMap_eq_nil_iff.mpr
    intro effect hMem
    cases effect with
    | enqueue j g payloads => exact absurd rfl (hNone _ hMem j g payloads)
    | _ => rfl
  rw [hLog, submittedBy_append, hNothing, List.append_nil]

/-- A read that goes on keeps what is left behind the payloads it submits. -/
def ReadsOn (srv srv' : TcpServer) (i : Nat) (stream : Bytes) : Prop :=
  ∃ payloads rest, Splits packetFormat stream payloads rest ∧
    ¬HoldsFrame packetFormat rest ∧
    submittedBy srv'.log i = submittedBy srv.log i ++ payloads ∧
    ∀ connection', srv'.connections.lookup i = some connection' → connection'.readBuffer = rest

/-- A read submits the payloads it completes, or closes its connection and submits
nothing. -/
theorem handleClientRead_reads (config : ServerConfig) (hInv : Inverse srv) {fd : Nat}
    (io : ReadIo) (hFind : srv.findConnectionByFd fd = some (i, connection))
    (hOpen : connection.closing = false) :
    ReadsOn srv (srv.handleClientRead config fd io) i (connection.readBuffer ++ io.taken) ∨
      (srv.handleClientRead config fd io).connections.lookup i = none ∧
        submittedBy (srv.handleClientRead config fd io).log i = submittedBy srv.log i := by
  obtain ⟨hMapped, hLookup⟩ := findConnectionByFd_eq_some hFind
  have hId := hInv.id_eq i connection hLookup
  have hStopped : ∀ {out : RecvPacketResult × Bytes} {payloads},
      Decoded (connection.readBuffer ++ io.taken) [] out payloads → ¬EndsConnection out.1 →
        ¬HoldsFrame packetFormat out.2 := by
    intro out payloads hDecoded hGoes
    rw [holdsFrame_iff]
    rintro ⟨hFrame, -⟩
    rcases hDecoded.stopped with ⟨hBad, -⟩ | ⟨-, -, hNone⟩
    · exact hGoes (.inr (.inl hBad))
    · exact hNone hFrame
  have hClosed : ∀ received : TcpServer, received.connectionByFd.lookup fd = some i →
      Emits (fun effect => ∀ i g payloads, effect ≠ .enqueue i g payloads) srv received →
        (received.closeClient fd).connections.lookup i = none ∧
          submittedBy (received.closeClient fd).log i = submittedBy srv.log i := by
    intro received hReceived hEmits
    refine ⟨?_, submittedBy_of_emits (hEmits.trans (emits_closeClient received fd
      (fun _ _ _ _ hEq => by contradiction) (fun _ _ _ _ _ hEq => by contradiction))) i⟩
    rw [TcpServer.closeClient, hReceived]
    exact closeConnection_lookup_self received i
  have hRecv : ∀ connection', Emits (fun effect => ∀ i g payloads, effect ≠ .enqueue i g payloads)
      srv ((srv.setConnection i connection').emit [.recv i fd]) :=
    fun connection' => emits_emit (srv.setConnection i connection')
      (fun _ _ _ hEq => by contradiction)
  have hCase := handleClientRead_case config srv fd io
  generalize srv.handleClientRead config fd io = srv' at hCase ⊢
  cases hCase with
  | unread hNone => exact absurd (hNone i connection hFind) (by simp [hOpen])
  | dropped hRead =>
      obtain ⟨rfl, rfl⟩ := hRead.found hFind
      exact .inr (hClosed _ hMapped (hRecv _))
  | @incomplete _ _ out hRead hGoes hLength hNone =>
      obtain ⟨rfl, rfl⟩ := hRead.found hFind
      obtain ⟨payloads, hDecoded⟩ := recvPacketsEt_goes hRead.recv hGoes
      refine .inl ⟨payloads, out.2, hDecoded.splits, hStopped hDecoded hGoes, ?_, ?_⟩
      · have hNothing : payloads = [] := by
          rw [← hDecoded.payloads_eq, RecvPacketResult.payloads, hNone, List.map_nil]
        rw [submittedBy_of_emits (hRecv _), hNothing, List.append_nil]
      · intro connection' hLookup'
        have hStored : (srv.setConnection i { connection with
          readBuffer := out.2 }).connections.lookup i = some connection' := hLookup'
        rw [setConnection_lookup, if_pos rfl] at hStored
        rw [← Option.some.inj hStored]
  | @enqueued _ _ out hRead hGoes =>
      obtain ⟨rfl, rfl⟩ := hRead.found hFind
      obtain ⟨payloads, hDecoded⟩ := recvPacketsEt_goes hRead.recv hGoes
      refine .inl ⟨payloads, out.2, hDecoded.splits, hStopped hDecoded hGoes, ?_, ?_⟩
      · show submittedBy (srv.log ++ [.recv i fd] ++ [.enqueue connection.connectionId
          connection.generation out.1.payloads]) i = _
        rw [hDecoded.payloads_eq, submittedBy_append, submittedBy_append, hId]
        simp [submittedBy]
      · intro connection' hLookup'
        have hStored : (srv.afterPackets fd i connection out.2 io.now).connections.lookup i =
          some connection' := hLookup'
        rw [setConnection_lookup, if_pos rfl] at hStored
        rw [← Option.some.inj hStored]
  | refused hRead =>
      obtain ⟨rfl, rfl⟩ := hRead.found hFind
      exact .inr (hClosed _ hMapped ((hRecv _).trans (.of_log_eq rfl)))

/-! ## What the server has got of a client -/

/-- The frames of the payloads a client has sent. -/
def Client.stream (client : Client) : Bytes := (client.sent.map clientFrame).flatten

/-- The server has read `arrived` from the connection; `payloads` are the frames in it and
`rest` is what is left. -/
structure Uploaded (link : Link) (i : Nat) (arrived : Bytes) (payloads : List Bytes)
    (rest : Bytes) : Prop where
  stream : arrived ++ link.upstream <+: link.client.stream
  whole : link.client.failure ≠ some .send → arrived ++ link.upstream = link.client.stream
  sizes : ∀ payload ∈ link.client.sent, payload.length < 2 ^ 32
  splits : Splits packetFormat arrived payloads rest
  stopped : ¬HoldsFrame packetFormat rest
  handed : submittedBy link.reactor.server.log i <+: payloads
  open_eq : ∀ connection, link.reactor.server.connections.lookup i = some connection →
    submittedBy link.reactor.server.log i = payloads ∧ connection.readBuffer = rest
  fresh : link.reactor.server.nextConnectionId ≤ i → arrived = []

variable {link : Link} {arrived rest : Bytes} {payloads : List Bytes}

/-- What has been submitted begins what has been sent. -/
theorem Uploaded.submitted_initial (h : Uploaded link i arrived payloads rest) :
    submittedBy link.reactor.server.log i <+: link.client.sent := by
  obtain ⟨more, hStream⟩ := h.stream
  have hSent := @Splits.prefix_of_frames _ _ arrived (link.upstream ++ more) rest payloads
    link.client.sent h.splits
    (fun payload hMem tail => readBE32_be32_append (h.sizes payload hMem) tail)
    (by rw [← List.append_assoc, hStream]; rfl)
  exact h.handed.trans hSent

/-- The server does something that is no read of the connection. -/
theorem Uploaded.keepsReading (h : Uploaded link i arrived payloads rest) {reactor : Reactor}
    (hKeeps : KeepsReading i link.reactor.server reactor.server) :
    Uploaded { link with reactor := reactor } i arrived payloads rest where
  stream := h.stream
  whole := h.whole
  sizes := h.sizes
  splits := h.splits
  stopped := h.stopped
  handed := by
    show submittedBy reactor.server.log i <+: payloads
    rw [hKeeps.submitted]
    exact h.handed
  open_eq := by
    intro connection' hLookup
    show submittedBy reactor.server.log i = payloads ∧ _
    rw [hKeeps.submitted]
    rcases hKeeps.opened connection' hLookup with ⟨connection, hOld, hSame⟩ | ⟨hNew, hEmpty⟩
    · rw [hSame]
      exact h.open_eq connection hOld
    · -- nothing has been read under an id that was not given out yet
      have hSplits := h.splits
      rw [h.fresh hNew] at hSplits
      obtain ⟨hPayloads, hRest⟩ :=
        hSplits.unique h.stopped (Splits.refl packetFormat []) not_holdsFrame_nil
      have hHanded := h.handed
      rw [hPayloads, List.prefix_nil] at hHanded
      exact ⟨hHanded.trans hPayloads.symm, hEmpty.trans hRest.symm⟩
  fresh := fun hNew => h.fresh (hKeeps.counter.trans hNew)

/-- The server reads from the connection what the client has written. -/
theorem Uploaded.read (h : Uploaded link i arrived payloads rest) {config : ServerConfig}
    (hInv : Inverse link.reactor.server) {fd : Nat} {io : ReadIo}
    (hFrom : link.reactor.server.readsFrom fd = some i)
    (hPrefix : io.taken <+: link.upstream) :
    ∃ payloads' rest', Uploaded
      { link with
        reactor := { link.reactor with
          server := link.reactor.server.handleClientRead config fd io }
        upstream := link.upstream.drop io.taken.length } i (arrived ++ io.taken)
      payloads' rest' := by
  obtain ⟨connection, hFind, hOpen⟩ : ∃ connection,
      link.reactor.server.findConnectionByFd fd = some (i, connection) ∧
        connection.closing = false := by
    unfold TcpServer.readsFrom at hFrom
    split at hFrom
    · contradiction
    · rename_i j connection hFind
      split at hFrom
      · contradiction
      · rename_i hClosing
        rw [← Option.some.inj hFrom]
        exact ⟨connection, hFind, by simpa using hClosing⟩
  obtain ⟨hMapped, hLookup⟩ := findConnectionByFd_eq_some hFind
  obtain ⟨later, hUpstream⟩ := hPrefix
  have hDrop : link.upstream.drop io.taken.length = later := by
    rw [← hUpstream, List.drop_left]
  have hStream : arrived ++ io.taken ++ link.upstream.drop io.taken.length =
      arrived ++ link.upstream := by
    rw [hDrop, ← hUpstream, List.append_assoc]
  have hFresh : ¬(link.reactor.server.handleClientRead config fd io).nextConnectionId ≤ i := by
    rw [(onlyFor_handleClientRead hInv hMapped io).counter]
    exact Nat.not_le.mpr (hInv.below i connection hLookup).1
  obtain ⟨hHanded, hBuffer⟩ := h.open_eq connection hLookup
  rcases handleClientRead_reads config hInv io hFind hOpen with
    ⟨more, rest', hMore, hStop, hSubmitted, hStored⟩ | ⟨hClosed, hSubmitted⟩
  · rw [hBuffer] at hMore
    refine ⟨payloads ++ more, rest', ?_⟩
    exact
      { stream := hStream ▸ h.stream
        whole := fun hFailure => hStream.trans (h.whole hFailure)
        sizes := h.sizes
        splits := h.splits.append hMore
        stopped := hStop
        handed :=
          have hBoth : submittedBy (link.reactor.server.handleClientRead config fd io).log i =
              payloads ++ more := hSubmitted.trans (by rw [hHanded])
          hBoth ▸ List.prefix_refl _
        open_eq := by
          intro connection' hLookup'
          exact ⟨by rw [hSubmitted, hHanded], hStored connection' hLookup'⟩
        fresh := fun hNew => absurd hNew hFresh }
  · obtain ⟨all, rest', hAll, hStop⟩ := exists_splits packetFormat (arrived ++ io.taken)
    obtain ⟨more, hMore, -⟩ := h.splits.extend hAll hStop
    refine ⟨all, rest', ?_⟩
    exact
      { stream := hStream ▸ h.stream
        whole := fun hFailure => hStream.trans (h.whole hFailure)
        sizes := h.sizes
        splits := hAll
        stopped := hStop
        handed := by
          rw [hSubmitted, hHanded, hMore]
          exact List.prefix_append payloads more
        open_eq := by
          intro connection' hLookup'
          rw [hClosed] at hLookup'
          contradiction
        fresh := fun hNew => absurd hNew hFresh }

/-- The client goes on reading, or gives up. -/
theorem Uploaded.withClient (h : Uploaded link i arrived payloads rest) {client : Client}
    (taken : Nat) (hGoing : link.client.failure = none)
    (hSent : client.sent = link.client.sent) :
    Uploaded { link with client := client, taken := taken } i arrived payloads rest := by
  have hStream : client.stream = link.client.stream := by
    rw [Client.stream, Client.stream, hSent]
  exact
    { stream := by
        show _ <+: client.stream
        rw [hStream]
        exact h.stream
      whole := by
        intro _
        show _ = client.stream
        rw [hStream]
        exact h.whole (by simp [hGoing])
      sizes := by
        show ∀ payload ∈ client.sent, _
        rw [hSent]
        exact h.sizes
      splits := h.splits
      stopped := h.stopped
      handed := h.handed
      open_eq := h.open_eq
      fresh := h.fresh }

theorem Client.receive_sent (client : Client) (chunk : Bytes) :
    (client.receive chunk).sent = client.sent := by
  rw [Client.receive]
  split
  · rfl
  · split
    · split <;> rfl
    · rfl

/-- The client sends a packet, or a part of it. -/
theorem Uploaded.sendPacket (h : Uploaded link i arrived payloads rest) {payload : Bytes}
    (hGoing : link.client.failure = none) (hSize : payload.length < 2 ^ 32) (written : Bytes)
    (failure : Option Failure) (hPrefix : written <+: clientFrame payload)
    (hWhole : failure ≠ some .send → written = clientFrame payload) :
    Uploaded
      { link with
        client := { link.client with sent := link.client.sent ++ [payload], failure := failure }
        upstream := link.upstream ++ written } i arrived payloads rest := by
  have hBefore := h.whole (by simp [hGoing])
  have hStream : ({ link.client with
      sent := link.client.sent ++ [payload], failure := failure } : Client).stream =
        link.client.stream ++ clientFrame payload := by
    simp [Client.stream]
  exact
    { stream := by
        rw [hStream, ← hBefore, ← List.append_assoc]
        exact (List.prefix_append_right_inj _).mpr hPrefix
      whole := by
        intro hFailure
        rw [hStream, ← hBefore, hWhole hFailure, ← List.append_assoc]
      sizes := by
        intro other hMem
        rcases List.mem_append.mp hMem with hOld | hNew
        · exact h.sizes other hOld
        · rw [List.mem_singleton.mp hNew]
          exact hSize
      splits := h.splits
      stopped := h.stopped
      handed := h.handed
      open_eq := h.open_eq
      fresh := h.fresh }

/-! ## All runs -/

/-- Both directions of a connection, and what they rest on. -/
structure Linked (link : Link) (i : Nat) : Prop where
  reactor : ReactorInv link.reactor.server
  written : WriteInv link.reactor.server
  behind : ∀ j, SendsBehind link.reactor.server j
  heard : Heard link i
  uploaded : ∃ arrived payloads rest, Uploaded link i arrived payloads rest

/-- The server takes a step. -/
theorem Linked.server (h : Linked link i) {config : ServerConfig} {a : Action}
    {reactor : Reactor} (hStep : link.reactor.step config a = some reactor) {upstream : Bytes}
    (hUploaded : ∃ arrived payloads rest,
      Uploaded { link with reactor := reactor, upstream := upstream } i arrived payloads rest) :
    Linked { link with reactor := reactor, upstream := upstream } i := by
  obtain ⟨hReactor, hWritten⟩ := step_writeInv _ a reactor ⟨h.reactor, h.written⟩ hStep
  have hLog := (step_changes h.reactor.toInverse hStep).log_extends
  exact
    { reactor := hReactor
      written := hWritten
      behind := step_behind h.written h.behind hStep
      heard := h.heard.of_log_extends hLog rfl rfl rfl rfl h.heard.sane
      uploaded := hUploaded }

/-- The client does something that takes nothing. -/
theorem Linked.withClient (h : Linked link i) {client : Client} {upstream : Bytes}
    (hAwaited : client.awaited = link.client.awaited)
    (hChunks : client.chunks = link.client.chunks)
    (hPackets : client.packets = link.client.packets)
    (hSane : client.failure ≠ some .emptyPayload)
    (hUploaded : ∃ arrived payloads rest,
      Uploaded { link with client := client, upstream := upstream } i arrived payloads rest) :
    Linked { link with client := client, upstream := upstream } i where
  reactor := h.reactor
  written := h.written
  behind := h.behind
  heard := h.heard.of_log_extends (List.prefix_refl _) rfl hAwaited hChunks hPackets hSane
  uploaded := hUploaded

/-- A step of the server that is no read of the connection. -/
theorem Linked.elsewhere (h : Linked link i) {config : ServerConfig} {a : Action}
    {reactor : Reactor} (hStep : link.reactor.step config a = some reactor)
    (hNot : ∀ fd io, a = .read fd io → link.reactor.server.readsFrom fd ≠ some i) :
    Linked { link with reactor := reactor } i := by
  obtain ⟨_, _, _, hUploaded⟩ := h.uploaded
  have hKeeps := step_keepsReading h.reactor.toInverse hNot hStep
  exact h.server hStep ⟨_, _, _, hUploaded.keepsReading hKeeps⟩

/-- A read of the connection. -/
theorem Linked.read (h : Linked link i) {config : ServerConfig} {fd : Nat} {io : ReadIo}
    {reactor : Reactor} (hStep : link.reactor.step config (.read fd io) = some reactor)
    (hFrom : link.reactor.server.readsFrom fd = some i) (hPrefix : io.taken <+: link.upstream) :
    Linked { link with
      reactor := reactor
      upstream := link.upstream.drop io.taken.length } i := by
  obtain ⟨_, _, _, hUploaded⟩ := h.uploaded
  have hRead := @Uploaded.read i link _ _ _ hUploaded config h.reactor.toInverse fd io hFrom hPrefix
  obtain ⟨payloads, rest, hRead⟩ := hRead
  have hReactor := hStep
  rw [Reactor.step] at hReactor
  rw [Option.some.inj hReactor] at hRead
  exact h.server hStep ⟨_, _, _, hRead⟩

/-- The queues, and the responses that have been swapped out, do not matter. -/
theorem Linked.queues (h : Linked link i) {reactor : Reactor}
    {responses : List QueuedResponse} {closes : List QueuedClose}
    (hServer : reactor.server = { link.reactor.server with
      responseQueue := responses, closeQueue := closes }) :
    Linked { link with reactor := reactor } i := by
  have hLog : reactor.server.log = link.reactor.server.log := by rw [hServer]
  have hChange : Change link.reactor.server reactor.server := by
    rw [hServer]
    exact .neutral [] (by simp) rfl rfl rfl rfl (List.append_nil _).symm
  have hKeeps : KeepsReading i link.reactor.server reactor.server := by
    rw [hServer]
    exact (KeepsReading.refl i link.reactor.server).congr rfl rfl rfl
  obtain ⟨_, _, _, hUploaded⟩ := h.uploaded
  exact
    { reactor := hChange.inv h.reactor
      written := by
        rw [hServer]
        exact h.written.congr rfl rfl rfl rfl
      behind := fun j => (h.behind j).of_silent (.of_log_eq hLog)
      heard := h.heard.of_log_extends (hLog ▸ List.prefix_refl _) rfl rfl rfl rfl h.heard.sane
      uploaded := ⟨_, _, _, hUploaded.keepsReading hKeeps⟩ }

/-- Every step keeps both directions. -/
theorem step_linked {config : ServerConfig} (link : Link) (a : LinkAction) (link' : Link)
    (h : Linked link i) (hStep : link.step config i a = some link') : Linked link' i := by
  obtain ⟨arrived, payloads, rest, hUploaded⟩ := h.uploaded
  cases a with
  | server action =>
      obtain ⟨reactor, hReactor, hRest⟩ := Option.bind_eq_some_iff.mp hStep
      cases action with
      | read fd io =>
          dsimp only at hRest
          split at hRest
          · rename_i hFrom
            split at hRest
            · rename_i hPrefix
              rw [← Option.some.inj hRest]
              exact h.read hReactor hFrom (List.isPrefixOf_iff_prefix.mp hPrefix)
            · contradiction
          · rename_i hNot
            rw [← Option.some.inj hRest]
            apply h.elsewhere hReactor
            intro fd' io' hEq
            injection hEq with hFd hIo
            rw [← hFd]
            exact hNot
      | _ =>
          rw [← Option.some.inj hRest]
          exact h.elsewhere hReactor fun _ _ hEq => by cases hEq
  | sendPacket payload written =>
      rw [Link.step] at hStep
      split at hStep
      · contradiction
      · rename_i hGoing
        have hGoing : link.client.failure = none := by simpa using hGoing
        split at hStep
        · rename_i hSize
          dsimp only at hStep
          split at hStep
          · rw [← Option.some.inj hStep]
            refine h.withClient rfl rfl rfl (by simp) ⟨arrived, payloads, rest, ?_⟩
            exact hUploaded.sendPacket hGoing hSize _ _ (List.take_prefix _ _)
              fun hNot => absurd rfl hNot
          · rw [← Option.some.inj hStep]
            refine h.withClient rfl rfl rfl h.heard.sane ⟨arrived, payloads, rest, ?_⟩
            exact hUploaded.sendPacket hGoing hSize _ _ (List.prefix_refl _) fun _ => rfl
        · rw [← Option.some.inj hStep]
          refine h.withClient rfl rfl rfl (by simp) ⟨arrived, payloads, rest, ?_⟩
          exact hUploaded.withClient _ hGoing rfl
  | recv count =>
      rw [Link.step] at hStep
      split at hStep
      · rename_i hEnabled
        obtain ⟨hGoing, _, hWanted, hWaiting⟩ := hEnabled
        have hGoing : link.client.failure = none := by simpa using hGoing
        rw [← Option.some.inj hStep]
        exact
          { reactor := h.reactor
            written := h.written
            behind := h.behind
            heard := h.heard.recv (h.behind i) hWanted hWaiting
            uploaded := ⟨_, _, _, hUploaded.withClient _ hGoing (Client.receive_sent _ _)⟩ }
      · contradiction
  | fail failure =>
      rw [Link.step] at hStep
      split at hStep
      · contradiction
      · rename_i hGoing
        have hGoing : link.client.failure = none := by simpa using hGoing
        rw [← Option.some.inj hStep]
        refine h.withClient rfl rfl rfl (by simp) ⟨arrived, payloads, rest, ?_⟩
        exact hUploaded.withClient _ hGoing rfl

theorem linked_init (listenFd wakeFd i : Nat) :
    Linked { reactor := { server := { listenFd := listenFd, wakeFd := wakeFd } } } i where
  reactor := reactorInv_init listenFd wakeFd
  written := writeInv_init listenFd wakeFd
  behind := fun _ => (Splits.refl packetFormat []).behind validLength_one
  heard :=
    { taken := Nat.le_refl _
      waits := show (0 : Nat) < kPacketHeaderSize by decide
      read := Splits.refl packetFormat []
      sane := by simp }
  uploaded := ⟨[], [], [],
    { stream := List.prefix_refl _
      whole := fun _ => rfl
      sizes := by simp
      splits := Splits.refl packetFormat []
      stopped := not_holdsFrame_nil
      handed := List.prefix_refl _
      open_eq := by simp
      fresh := fun _ => rfl }⟩

/-- What has been submitted of packets the server accepts, when nothing is on the way. -/
theorem Uploaded.submitted_eq (h : Uploaded link i arrived payloads rest)
    (hOpen : link.reactor.server.connections.lookup i = some connection)
    (hArrived : link.upstream = []) (hWritten : link.client.failure ≠ some .send)
    (hValid : ∀ payload ∈ link.client.sent, validLength payload.length = true) :
    submittedBy link.reactor.server.log i = link.client.sent := by
  have hStream := h.whole hWritten
  rw [hArrived, List.append_nil] at hStream
  have hSent : Splits packetFormat arrived link.client.sent [] :=
    { valid := hValid
      joined := by rw [List.append_nil, hStream]; rfl }
  rw [(h.open_eq connection hOpen).1]
  exact (h.splits.unique h.stopped hSent not_holdsFrame_nil).1

/-- What a client has read when it has taken everything, and nothing waits for it. -/
theorem Heard.packets_eq (h : Heard link i) (hWritten : Written link.reactor.server i connection)
    (hNothing : connection.writeBuffer = [])
    (hTaken : link.taken = (sentBytes link.reactor.server.log i).length) :
    link.client.packets = doneMessages link.reactor.server.log i := by
  have hDone := hWritten.splits
  rw [hNothing, List.append_nil] at hDone
  have hRead := h.read
  rw [hTaken, List.take_length] at hRead
  exact (hRead.unique h.waits.not_holdsFrame hDone not_holdsFrame_nil).1

/--
**A connection carries both streams faithfully.**  A client that speaks like the test
scripts is joined to the reactor as connection `i`.  Whatever the order of the steps of the
server and of the client, however the kernel cuts the streams, and whatever happens to this
connection or another:

* the payloads given to the thread pool are the first ones the client has sent, in order
  and unchanged;
* the packets the client has read are the first messages that were reported as done to
  `drain_responses`, also when the connection has been closed in the middle of one;
* the client never finds an empty payload;
* while the connection is open and nothing is on the way, each side has got all that the
  other has sent.
-/
theorem link_faithful (config : ServerConfig) (listenFd wakeFd i : Nat)
    (acts : List LinkAction) (link : Link)
    (hRun : run (Link.step config i)
      { reactor := { server := { listenFd := listenFd, wakeFd := wakeFd } } } acts = some link) :
    submittedBy link.reactor.server.log i <+: link.client.sent ∧
    link.client.packets <+: doneMessages link.reactor.server.log i ∧
    link.client.failure ≠ some .emptyPayload ∧
    ∀ connection, link.reactor.server.connections.lookup i = some connection →
      (link.upstream = [] → link.client.failure ≠ some .send →
        (∀ payload ∈ link.client.sent,
          1 ≤ payload.length ∧ payload.length ≤ kMaxPacketPayloadSize) →
        submittedBy link.reactor.server.log i = link.client.sent) ∧
      (connection.writeBuffer = [] →
        link.taken = (sentBytes link.reactor.server.log i).length →
        link.client.packets = doneMessages link.reactor.server.log i) := by
  have hLinked : Linked link i := run_invariant step_linked (linked_init listenFd wakeFd i) hRun
  obtain ⟨arrived, payloads, rest, hUploaded⟩ := hLinked.uploaded
  have hTaken : sentBytes link.reactor.server.log i =
      (sentBytes link.reactor.server.log i).take link.taken ++
        (sentBytes link.reactor.server.log i).drop link.taken :=
    (List.take_append_drop _ _).symm
  refine ⟨hUploaded.submitted_initial, (hLinked.behind i).initial hTaken hLinked.heard.read,
    hLinked.heard.sane, fun connection hOpen => ⟨?_, ?_⟩⟩
  · intro hArrived hWritten hValid
    exact hUploaded.submitted_eq hOpen hArrived hWritten
      fun payload hMem => (validLength_iff _).mpr (hValid payload hMem)
  · intro hNothing hAll
    exact hLinked.heard.packets_eq (hLinked.written.written i connection hOpen) hNothing hAll

/-! ## A ping and a pong -/

/-- A packet that arrives in two reads, and an answer that goes out in two sends and is
read in three pieces. -/
def pingPong : List LinkAction :=
  [.server (.accept { fd := 7 }), .sendPacket [112, 105] 6,
    .server (.read 7 { script := [.bytes ⟨[0, 0, 0], by decide, by decide⟩] }),
    .server (.read 7 { script := [.eintr, .bytes ⟨[2, 112, 105], by decide, by decide⟩] }),
    .server (.push { connectionId := 1, generation := 1,
                     messages := [{ connectionId := 1, data := [112, 111, 110] }] }),
    .server .swap, .server (.deliver { script := [.sent 5 (by decide)] }), .recv 3, .recv 1,
    .server (.flush 7 { script := [.sent 9 (by decide)] }), .recv 3]

/-- Both sides have got what the other has sent. -/
theorem link_faithful_pingPong :
    ∃ link, run (Link.step {} 1)
        { reactor := { server := { listenFd := 3, wakeFd := 4 } } } pingPong = some link ∧
      submittedBy link.reactor.server.log 1 = [[112, 105]] ∧
      link.client.packets = [[112, 111, 110]] := by
  obtain ⟨link, hRun, hView⟩ := Option.map_eq_some_iff.mp
    (show (run (Link.step {} 1)
      { reactor := { server := { listenFd := 3, wakeFd := 4 } } } pingPong).map
        (fun link => (link.client.sent, doneMessages link.reactor.server.log 1,
          (link.reactor.server.findConnection 1).map (·.writeBuffer),
          decide (link.upstream = [] ∧ link.client.failure = none ∧
            link.taken = (sentBytes link.reactor.server.log 1).length))) =
        some ([[112, 105]], [[112, 111, 110]], some [], true) by
      decide +kernel)
  simp only [Prod.mk.injEq, decide_eq_true_eq] at hView
  obtain ⟨hSent, hDone, hOpen, hUpstream, hFailure, hTaken⟩ := hView
  obtain ⟨connection, hLookup, hNothing⟩ := Option.map_eq_some_iff.mp hOpen
  obtain ⟨-, -, -, hBoth⟩ := link_faithful {} 3 4 1 pingPong link hRun
  obtain ⟨hUp, hDown⟩ := hBoth connection hLookup
  refine ⟨link, hRun, ?_, ?_⟩
  · rw [hUp hUpstream (by simp [hFailure]) (by rw [hSent]; decide), hSent]
  · rw [hDown hNothing hTaken, hDone]

end CppChat.Ports.Network
