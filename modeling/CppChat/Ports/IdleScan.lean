import CppChat.Ports.EachConnection
import CppChat.Ports.Segmentation

/-!
# The event loop and the clock

`run_event_loop` waits in `epoll_wait` for at most the heartbeat interval.  When the wait
times out it looks for idle connections and closes them; when there are events it handles
these, and when a signal interrupts it it waits again.  The idle scan is thus tied to a
wait in which nothing happens for a whole interval, and every event starts a new wait.

The clock counts milliseconds, and `std::time` its seconds.  It moves only while
`epoll_wait` waits: handlers take no time.  The state also records when the idle scan has
last run, which has no influence on the loop.

## Main results

* `checkHeartbeats_activeSince`: what an idle scan leaves.
* `iterate_reaped`: an iteration leaves no connection idle for too long if the scan was not
  due, or would have closed nothing.
* `idle_reaped`: the same for every run.
* `idle_survives`: a run in which one busy client keeps another one alive.
-/

namespace CppChat.Ports.Network

open CppChat.Verified
open CppChat.Verified.Transition
open CppChat.Ports.PacketCodec

/-! ## The loop -/

/-- The settings the event loop reads. -/
structure LoopConfig extends ServerConfig where
  heartbeatIntervalSeconds : Nat := 10

/-- How `epoll_wait` returns. -/
inductive WaitResult where
  | timedOut
  | interrupted
  | ready (batch : List (EpollEvent × EventIo))

/-- One round of the loop: how long `epoll_wait` waits, what the workers push while it
does, how it returns, and the drain at the end. -/
structure Iteration where
  elapsed : Nat
  pushed : List WorkerResult := []
  result : WaitResult
  drain : DrainIo := {}

/-- The server, the clock, and when idle connections were last looked for. -/
structure EventLoop where
  server : TcpServer
  clock : Nat
  lastScan : Nat

/-- The loop at its start. -/
def EventLoop.init (listenFd wakeFd start : Nat) : EventLoop :=
  { server := { listenFd := listenFd, wakeFd := wakeFd }, clock := start, lastScan := start }

/-- `std::time(nullptr)`. -/
def seconds (clock : Nat) : Nat := clock / 1000

/-- All handlers of a round read the same time. -/
def EventIo.at (now : Nat) (io : EventIo) : EventIo :=
  { io with
    accepts := io.accepts.map fun accepted => { accepted with now := now }
    read := { io.read with now := now } }

/-- The timeout handed to `epoll_wait`. -/
def LoopConfig.timeoutMs (config : LoopConfig) : Nat := config.heartbeatIntervalSeconds * 1000

/-- The waits that can happen: events come before the timeout or with it, and a wait that
times out has taken all of it. -/
def Iteration.possible (config : LoopConfig) (it : Iteration) : Bool :=
  match it.result with
  | .timedOut => it.elapsed == config.timeoutMs
  | .interrupted => decide (it.elapsed ≤ config.timeoutMs)
  | .ready batch => decide (it.elapsed ≤ config.timeoutMs) && !batch.isEmpty

/-- The rest of the round, when `epoll_wait` has returned. -/
def EventLoop.handle (config : LoopConfig) (server : TcpServer) (now : Nat) (drain : DrainIo) :
    WaitResult → TcpServer
  | .timedOut =>
      (server.checkHeartbeats config.toServerConfig now).drainResponses config.toServerConfig drain
  | .interrupted => server
  | .ready batch =>
      (server.processEvents config.toServerConfig
        (batch.map fun item => (item.1, item.2.at now))).drainResponses
          config.toServerConfig drain

/-- Idle connections are looked for when `epoll_wait` times out, and only then. -/
def WaitResult.scans : WaitResult → Bool
  | .timedOut => true
  | _ => false

/-- One round of `run_event_loop`: wait, then scan or handle the batch. -/
def EventLoop.iterate (config : LoopConfig) (loop : EventLoop) (it : Iteration) :
    Option EventLoop :=
  if it.possible config then
    let clock := loop.clock + it.elapsed
    let pushed := it.pushed.foldl (TcpServer.pushResult config.toServerConfig) loop.server
    some
      { server := EventLoop.handle config pushed (seconds clock) it.drain it.result
        clock := clock
        lastScan := if it.result.scans then clock else loop.lastScan }
  else none

/-! ## When connections were last active -/

/-- The connection has been active at this time or later. -/
def ActiveSince (time : Nat) (connection : ConnectionState) : Prop :=
  time ≤ connection.lastActiveAt

variable {config : ServerConfig} {srv : TcpServer} {time now : Nat}

theorem EachConnection.deliverAll (h : EachConnection (ActiveSince time) srv)
    (config : ServerConfig) (responses : List QueuedResponse) (ios : List SendIo) :
    EachConnection (ActiveSince time) (TcpServer.deliverAll config responses ios srv) := by
  induction responses generalizing srv ios with
  | nil => exact h
  | cons response rest ih =>
      have hFirst : EachConnection (ActiveSince time)
          (srv.deliver config response (ios.headD {})) :=
        h.deliver (fun _ _ hActive _ => hActive) (fun _ hActive => hActive) response _
      exact ih hFirst ios.tail

theorem EachConnection.pushResults (h : EachConnection (ActiveSince time) srv)
    (config : ServerConfig) (results : List WorkerResult) :
    EachConnection (ActiveSince time)
      (results.foldl (TcpServer.pushResult config) srv) := by
  have hStep : ∀ (srv : TcpServer) (result : WorkerResult), True →
      EachConnection (ActiveSince time) srv →
        EachConnection (ActiveSince time) (srv.pushResult config result) :=
    fun _ result _ hEach => hEach.pushResult config result
  exact foldl_invariant hStep results srv (fun _ _ => trivial) h

theorem EachConnection.drainResponses (h : EachConnection (ActiveSince time) srv)
    (io : DrainIo) : EachConnection (ActiveSince time) (srv.drainResponses config io) := by
  unfold TcpServer.drainResponses
  dsimp only
  have hPushed := h.drainCloseRequests.pushResults config io.beforeSwap
  generalize io.beforeSwap.foldl (TcpServer.pushResult config) srv.drainCloseRequests = pushed
    at hPushed
  have hSwapped : EachConnection (ActiveSince time) { pushed with responseQueue := [] } :=
    hPushed.congr rfl
  have hDelivered := hSwapped.deliverAll config pushed.responseQueue io.sends
  exact (hDelivered.pushResults config io.beforeCloses).drainCloseRequests

/-- An event accepts and reads at the time it is handled. -/
theorem EachConnection.processEvent (h : EachConnection (ActiveSince time) srv)
    (hTime : time ≤ now) (event : EpollEvent) (io : EventIo) :
    EachConnection (ActiveSince time) (srv.processEvent config event (io.at now)) := by
  have hPushed := h.pushResults config io.pushed
  unfold TcpServer.processEvent
  dsimp only [EventIo.at]
  split
  · have hStep : ∀ (srv : TcpServer) (accepted : Accepted), accepted.now = now →
        EachConnection (ActiveSince time) srv →
          EachConnection (ActiveSince time) (srv.acceptConnection accepted) :=
      fun srv accepted hNow hEach => hEach.acceptConnection accepted (hNow ▸ hTime)
    apply foldl_invariant hStep _ _ _ hPushed
    intro accepted hMem
    obtain ⟨original, -, rfl⟩ := List.mem_map.mp hMem
    rfl
  split
  · exact hPushed.drainResponses io.drain
  unfold TcpServer.processClient
  split
  · exact hPushed.closeClient event.fd
  have hRead : EachConnection (ActiveSince time)
      (if event.readable then (io.pushed.foldl (TcpServer.pushResult config) srv).handleClientRead
          config event.fd { io.read with now := now }
        else io.pushed.foldl (TcpServer.pushResult config) srv) := by
    split
    · apply hPushed.handleClientRead
      rintro connection readBuffer lastActiveAt hActive - - (hSame | hNow)
      · exact hSame ▸ hActive
      · exact hNow ▸ hTime
    · exact hPushed
  dsimp only
  split
  · exact hRead.flushWriteBuffer event.fd io.flush (fun _ _ hActive _ => hActive)
  · exact hRead

theorem EachConnection.processEvents (h : EachConnection (ActiveSince time) srv)
    (hTime : time ≤ now) (batch : List (EpollEvent × EventIo)) :
    EachConnection (ActiveSince time)
      (srv.processEvents config (batch.map fun item => (item.1, item.2.at now))) := by
  rw [TcpServer.processEvents, List.foldl_map]
  have hStep : ∀ (srv : TcpServer) (item : EpollEvent × EventIo), True →
      EachConnection (ActiveSince time) srv →
        EachConnection (ActiveSince time) (srv.processEvent config item.1 (item.2.at now)) :=
    fun _ item _ hEach => hEach.processEvent hTime item.1 item.2
  exact foldl_invariant hStep batch srv (fun _ _ => trivial) h

/-! ## The idle scan -/

/-- The connections after several are closed. -/
theorem closeConnections_lookup (ids : List Nat) :
    ∀ (srv : TcpServer) (j : Nat), (ids.foldl TcpServer.closeConnection srv).connections.lookup j =
      if j ∈ ids then none else srv.connections.lookup j := by
  induction ids with
  | nil => exact fun _ _ => rfl
  | cons i rest ih =>
      intro srv j
      rw [List.foldl_cons, ih, closeConnection_lookup]
      by_cases hRest : j ∈ rest
      · rw [if_pos hRest, if_pos (List.mem_cons_of_mem i hRest)]
      · rw [if_neg hRest]
        by_cases hFirst : j = i
        · rw [if_pos hFirst, if_pos (by rw [hFirst]; exact List.mem_cons_self)]
        · rw [if_neg hFirst, if_neg (by simp [hFirst, hRest])]

/-- What an idle scan leaves has been active within the timeout. -/
theorem checkHeartbeats_activeSince (config : ServerConfig) (srv : TcpServer) (now : Nat) :
    EachConnection (ActiveSince (now - config.heartbeatTimeoutSeconds))
      (srv.checkHeartbeats config now) := by
  intro i connection hLookup
  rw [TcpServer.checkHeartbeats, closeConnections_lookup] at hLookup
  split at hLookup
  · contradiction
  · rename_i hKept
    apply Nat.le_of_not_lt
    intro hIdle
    apply hKept
    have hMem : (⟨i, connection⟩ : Sigma fun _ : Nat => ConnectionState) ∈
        srv.connections.entries := AList.mem_lookup_iff.mp hLookup
    have hTimedOut : now - connection.lastActiveAt > config.heartbeatTimeoutSeconds := by omega
    exact List.mem_filterMap.mpr ⟨_, hMem, if_pos hTimedOut⟩

/-! ## A round of the loop -/

/-- Every open connection has been idle for at most the timeout and one interval. -/
def Reaped (config : LoopConfig) (loop : EventLoop) : Prop :=
  ∀ i connection, loop.server.connections.lookup i = some connection →
    seconds loop.clock - connection.lastActiveAt ≤
      config.heartbeatTimeoutSeconds + config.heartbeatIntervalSeconds

/-- If `epoll_wait` returns without a timeout although the last idle scan is more than one
interval ago, then a scan would close nothing now. -/
def ScanMissesNothing (config : LoopConfig) (loop : EventLoop) (it : Iteration) : Prop :=
  it.result.scans = false → loop.clock + it.elapsed - loop.lastScan > config.timeoutMs →
    ∀ i connection, loop.server.connections.lookup i = some connection →
      seconds (loop.clock + it.elapsed) - connection.lastActiveAt ≤
        config.heartbeatTimeoutSeconds

/-- Every open connection has been active since the last scan, or within the timeout
before it. -/
structure Scanned (config : LoopConfig) (loop : EventLoop) : Prop where
  active : EachConnection
    (ActiveSince (seconds loop.lastScan - config.heartbeatTimeoutSeconds)) loop.server
  past : loop.lastScan ≤ loop.clock

variable {config : LoopConfig} {loop loop' : EventLoop} {it : Iteration}

/-- A round without a scan makes no connection look older. -/
theorem handle_activeSince (config : LoopConfig) {server : TcpServer} {time now : Nat}
    (h : EachConnection (ActiveSince time) server) (hTime : time ≤ now) (drain : DrainIo)
    {result : WaitResult} (hResult : result.scans = false) :
    EachConnection (ActiveSince time) (EventLoop.handle config server now drain result) := by
  cases result with
  | timedOut => contradiction
  | interrupted => exact h
  | ready batch => exact (h.processEvents hTime batch).drainResponses drain

/-- A round that times out scans. -/
theorem handle_timedOut (config : LoopConfig) (server : TcpServer) (now : Nat) (drain : DrainIo) :
    EachConnection (ActiveSince (now - config.heartbeatTimeoutSeconds))
      (EventLoop.handle config server now drain .timedOut) :=
  (checkHeartbeats_activeSince config.toServerConfig server now).drainResponses drain

theorem seconds_mono {clock clock' : Nat} (h : clock ≤ clock') : seconds clock ≤ seconds clock' :=
  Nat.div_le_div_right h

/-- One round keeps what is known since the last scan, and leaves no connection idle for
too long unless a due scan has missed one. -/
theorem iterate_reaped (h : Scanned config loop) (hMisses : ScanMissesNothing config loop it)
    (hStep : loop.iterate config it = some loop') :
    Scanned config loop' ∧ Reaped config loop' := by
  have hPast := h.past
  unfold EventLoop.iterate at hStep
  split at hStep
  swap
  · contradiction
  dsimp only at hStep
  rw [← Option.some.inj hStep]
  cases hScans : it.result.scans with
  | true =>
      have hResult : it.result = .timedOut := by
        cases hResult : it.result with
        | timedOut => rfl
        | _ => rw [hResult] at hScans; contradiction
      rw [hResult]
      have hActive := handle_timedOut config
        (it.pushed.foldl (TcpServer.pushResult config.toServerConfig) loop.server)
        (seconds (loop.clock + it.elapsed)) it.drain
      refine ⟨⟨hActive, Nat.le_refl _⟩, fun i connection hLookup => ?_⟩
      have hSince : seconds (loop.clock + it.elapsed) - config.heartbeatTimeoutSeconds ≤
        connection.lastActiveAt := hActive i connection hLookup
      show seconds (loop.clock + it.elapsed) - _ ≤ _
      omega
  | false =>
      have hMono : seconds loop.lastScan ≤ seconds (loop.clock + it.elapsed) :=
        seconds_mono (by omega)
      have hBefore := h.active.pushResults config.toServerConfig it.pushed
      have hAfter := handle_activeSince config hBefore (Nat.sub_le_of_le_add
        (hMono.trans (Nat.le_add_right _ _))) it.drain hScans
      refine ⟨⟨hAfter, hPast.trans (Nat.le_add_right _ _)⟩, fun i connection hLookup => ?_⟩
      by_cases hDue : loop.clock + it.elapsed - loop.lastScan > config.timeoutMs
      · -- the scan is due, but the connections of before are all active enough
        have hNone : EachConnection (ActiveSince
            (seconds (loop.clock + it.elapsed) - config.heartbeatTimeoutSeconds))
            loop.server := by
          intro j other hOther
          have hIdle := hMisses hScans hDue j other hOther
          show _ ≤ other.lastActiveAt
          omega
        have hActive := handle_activeSince config
          (hNone.pushResults config.toServerConfig it.pushed) (Nat.sub_le _ _) it.drain hScans
        have hSince : seconds (loop.clock + it.elapsed) - config.heartbeatTimeoutSeconds ≤
          connection.lastActiveAt := hActive i connection hLookup
        show seconds (loop.clock + it.elapsed) - _ ≤ _
        omega
      · -- the last scan is at most one interval ago
        have hSince : seconds loop.lastScan - config.heartbeatTimeoutSeconds ≤
          connection.lastActiveAt := hAfter i connection hLookup
        have hInterval : seconds (loop.clock + it.elapsed) ≤
            seconds loop.lastScan + config.heartbeatIntervalSeconds := by
          have hClock : loop.clock + it.elapsed ≤ loop.lastScan + config.timeoutMs := by omega
          unfold seconds
          unfold LoopConfig.timeoutMs at hClock
          omega
        show seconds (loop.clock + it.elapsed) - _ ≤ _
        omega

/--
**Idle connections are reaped, as long as no due scan misses one.**  In every run of the
loop in which, whenever `epoll_wait` returns without a timeout more than one heartbeat
interval after the last idle scan, no open connection has been idle for longer than the
timeout, every connection that is open at the end of a round has been idle for at most the
timeout and one interval.
-/
theorem idle_reaped (config : LoopConfig) (listenFd wakeFd start : Nat)
    (its : List Iteration) (loop : EventLoop)
    (hMeet : StepsMeet (EventLoop.iterate config) (ScanMissesNothing config)
      (.init listenFd wakeFd start) its)
    (hRun : run (EventLoop.iterate config) (.init listenFd wakeFd start) its = some loop) :
    Reaped config loop := by
  have hInit : Scanned config (.init listenFd wakeFd start) ∧
      Reaped config (.init listenFd wakeFd start) :=
    ⟨⟨fun _ _ hLookup => by contradiction, Nat.le_refl _⟩,
      fun _ _ hLookup => by contradiction⟩
  have hInvariant := run_invariant_of_stepsMeet
    (fun _ _ _ hBefore hMisses hStep => iterate_reaped (And.left hBefore) hMisses hStep)
    its _ loop hInit hMeet hRun
  exact hInvariant.2

/-! ## Two clients -/

/-- Two clients connect, and the second one sends this many pings, one every five seconds. -/
def oneBusy (pings : Nat) : List Iteration :=
  { elapsed := 0,
    result := .ready
      [({ fd := 3, readable := true }, { accepts := [{ fd := 7 }, { fd := 8 }] })] } ::
    List.replicate pings
      { elapsed := 5000,
        result := .ready [({ fd := 8, readable := true },
          { read := readOfBytes (packetFormat.frame pingPayload) })] }

/-- What a scan misses can be looked up. -/
instance (config : LoopConfig) (loop : EventLoop) (it : Iteration) :
    Decidable (ScanMissesNothing config loop it) :=
  decidable_of_iff
    (it.result.scans = false → loop.clock + it.elapsed - loop.lastScan > config.timeoutMs →
      ∀ entry ∈ loop.server.connections.entries,
        seconds (loop.clock + it.elapsed) - entry.2.lastActiveAt ≤
          config.heartbeatTimeoutSeconds)
    ⟨fun h hScans hDue _ _ hLookup => h hScans hDue _ (AList.mem_lookup_iff.mp hLookup),
      fun h hScans hDue _ hMem => h hScans hDue _ _ (AList.mem_lookup_iff.mpr hMem)⟩

/-- The pings keep the loop from scanning for half a minute, and then it scans three times. -/
def busyThenQuiet : List Iteration :=
  oneBusy 6 ++ List.replicate 3 { elapsed := 10000, result := .timedOut }

/-- Scans were due and did not take place, but they would have closed nothing.  After a minute
the first client is still there; it has been idle for just as long as it may. -/
theorem idle_reaped_busyThenQuiet :
    ∃ loop, run (EventLoop.iterate {}) (.init 3 4 5000) busyThenQuiet = some loop ∧
      ¬StepsMeet (EventLoop.iterate {})
        (fun loop it => it.result.scans = true ∨
          loop.clock + it.elapsed - loop.lastScan ≤ LoopConfig.timeoutMs {})
        (.init 3 4 5000) busyThenQuiet ∧
      (loop.server.connections.lookup 1).isSome ∧ Reaped {} loop := by
  obtain ⟨loop, hRun, hOpen⟩ := Option.map_eq_some_iff.mp
    (show (run (EventLoop.iterate {}) (.init 3 4 5000) busyThenQuiet).map (fun loop =>
      (loop.server.connections.lookup 1).isSome) = some true by decide +kernel)
  have hMeet : StepsMeet (EventLoop.iterate {}) (ScanMissesNothing {}) (.init 3 4 5000)
      busyThenQuiet := by decide +kernel
  exact ⟨loop, hRun, by decide +kernel, hOpen, idle_reaped {} 3 4 5000 _ loop hMeet hRun⟩

/-- The first client is still there after 75 seconds, more than timeout and interval. -/
theorem idle_survives :
    ∃ loop, run (EventLoop.iterate {}) (.init 3 4 5000) (oneBusy 15) = some loop ∧
      ¬Reaped {} loop := by
  obtain ⟨loop, hRun, hView⟩ := Option.map_eq_some_iff.mp
    (show (run (EventLoop.iterate {}) (.init 3 4 5000) (oneBusy 15)).map (fun loop =>
      (loop.server.connections.lookup 1).any fun connection =>
        decide (seconds loop.clock - connection.lastActiveAt > 70)) = some true by decide +kernel)
  obtain ⟨connection, hLookup, hIdle⟩ := (Option.any_eq_true _ _).mp hView
  refine ⟨loop, hRun, fun hReaped => ?_⟩
  exact absurd (hReaped 1 connection hLookup) (Nat.not_le.mpr (of_decide_eq_true hIdle))

end CppChat.Ports.Network
