import CppChat.Verified.EdgeTriggered
import CppChat.Ports.WritePath

/-!
# Draining what an edge announces

All descriptors are watched edge-triggered, so the handler of an event has to go on until
its descriptor has nothing left: `EAGAIN` from `accept4`, `read`, `recv` or `send`, or
all pending output sent, or the descriptor closed.

The four loops have a case split of their own each.  `recv_packets_et`, `send_all` and
`drain_wake_events` call again after `EINTR`; `accept_connections` ends on any failure.
`recv_packets_et` and `send_all` report a failure, and their callers close; for the
listening socket and the eventfd there is no such caller.

As everywhere, a script holds the results of the calls and its end stands for `EAGAIN`.

## Main results

* `acceptLoop_eq`: the sockets that are accepted are those in front of the first failure.
* `handler_drains_iff`: a handler leaves nothing behind, whatever comes in meanwhile, exactly
  where it meets no result that its loop gives up on.
* `not_handler_drains`: an interrupted `accept4` strands the connections behind it.
-/

namespace CppChat.Ports.Network

open CppChat.Verified
open CppChat.Verified.Transition
open CppChat.Verified.EdgeTriggered
open CppChat.Ports.PacketCodec

/-! ## The loops and their calls -/

/-- One `accept4` result other than `EAGAIN`: a socket, or `EINTR`, `ECONNABORTED`,
`EMFILE` or any other error. -/
inductive AcceptOutcome where
  | socket (accepted : Accepted)
  | error (errno : Nat)

/-- The loop of `accept_connections`, with the results of its calls. -/
def acceptLoop : List AcceptOutcome → TcpServer → List CallResult × TcpServer
  | [], srv => ([.eagain], srv)
  | .socket accepted :: rest, srv =>
      let (calls, srv') := acceptLoop rest (srv.acceptConnection accepted)
      (.success :: calls, srv')
  | .error _ :: _, srv => ([.failure], srv)

/-- One result of reading the wake eventfd, other than `EAGAIN`. -/
inductive WakeOutcome where
  | read (count : Nat)
  | eintr
  | error (errno : Nat)
deriving DecidableEq

/-- The loop of `drain_wake_events`, which has no effect but its calls.  A read that is not
of eight bytes ends it. -/
def drainWakeEvents : List WakeOutcome → List CallResult
  | [] => [.eagain]
  | .read count :: rest => .success :: if count = 8 then drainWakeEvents rest else []
  | .eintr :: rest => .failure :: drainWakeEvents rest
  | .error _ :: _ => [.failure]

/-- The calls of `recv_packets_et`. -/
def recvCalls : List RecvOutcome → List CallResult
  | [] => [.eagain]
  | .bytes _ :: rest => .success :: recvCalls rest
  | .closed :: _ => [.failure]
  | .eintr :: rest => .failure :: recvCalls rest
  | .error _ :: _ => [.failure]

/-- The calls of `send_all` from `sent` bytes on. -/
def sendCalls (size : Nat) : List SendOutcome → Nat → List CallResult
  | [], sent => if sent < size then [.eagain] else []
  | outcome :: rest, sent =>
      if sent < size then
        match outcome with
        | .sent count _ => .success :: sendCalls size rest (sent + min count (size - sent))
        | .eintr => .failure :: sendCalls size rest sent
        | .error _ => [.failure]
      else []

/-- The sockets in front of the first failure. -/
def acceptedSockets : List AcceptOutcome → List Accepted
  | .socket accepted :: rest => accepted :: acceptedSockets rest
  | _ => []

theorem acceptLoop_eq (script : List AcceptOutcome) (srv : TcpServer) :
    (acceptLoop script srv).2 = srv.acceptConnections (acceptedSockets script) := by
  induction script generalizing srv with
  | nil => rfl
  | cons outcome rest ih =>
      cases outcome with
      | socket accepted => exact ih (srv.acceptConnection accepted)
      | error errno => rfl

/-! ## The contract -/

/-- The last call is `EAGAIN`, and whatever comes in between the calls and after them,
nothing is left that no event will announce. -/
structure Drained (calls : List CallResult) : Prop where
  last : calls.getLast? = some .eagain
  announced : ∀ source events source', results events = calls →
    run EdgeTriggered.step source events = some source' → ¬source'.Stranded

/-- A handler that stops at `EAGAIN` has drained its descriptor. -/
theorem drained_of_last {calls : List CallResult} (h : calls.getLast? = some .eagain) :
    Drained calls where
  last := h
  announced := by
    intro source events source' hCalls hRun
    rw [← hCalls] at h
    exact not_stranded_of_eagain h hRun

/-- The connection of a socket is gone from all maps and from epoll, and the socket is
closed. -/
def ClosedAndRemoved (srv srv' : TcpServer) (fd : Nat) : Prop :=
  ∃ i, srv.connectionByFd.lookup fd = some i ∧ srv'.connectionByFd.lookup fd = none ∧
    srv'.connections.lookup i = none ∧ srv'.epollOut.lookup fd = none ∧
    srv'.log.getLast? = some (.close (some i) fd)

/-- The kernel has taken all that waited. -/
def AllSent (srv srv' : TcpServer) (fd : Nat) : Prop :=
  ∃ i connection connection', srv.findConnectionByFd fd = some (i, connection) ∧
    srv'.findConnectionByFd fd = some (i, connection') ∧ connection'.writeBuffer = [] ∧
    srv'.log = srv.log ++ [.send i fd connection.writeBuffer]

/-- A handler of an edge-triggered event, and what the kernel answers it. -/
inductive Handler where
  | accept (script : List AcceptOutcome)
  | wake (script : List WakeOutcome)
  | read (fd : Nat) (io : ReadIo)
  | flush (fd : Nat) (io : SendIo)

namespace Handler

/-- A read is for a connection that is not closing, a flush for one with pending output. -/
def Concerns (srv : TcpServer) : Handler → Prop
  | .accept _ | .wake _ => True
  | .read fd _ =>
      ∃ i connection, srv.findConnectionByFd fd = some (i, connection) ∧
        connection.closing = false
  | .flush fd _ =>
      ∃ i connection, srv.findConnectionByFd fd = some (i, connection) ∧
        connection.writeBuffer ≠ []

/-- The calls on the descriptor of the event. -/
def calls (srv : TcpServer) : Handler → List CallResult
  | .accept script => (acceptLoop script srv).1
  | .wake script => drainWakeEvents script
  | .read _ io => recvCalls io.script
  | .flush fd io =>
      match srv.findConnectionByFd fd with
      | none => []
      | some (_, connection) => sendCalls connection.writeBuffer.length io.script 0

/-- The reactor when the handler returns. -/
def returns (config : ServerConfig) (srv : TcpServer) : Handler → TcpServer
  | .accept script => (acceptLoop script srv).2
  | .wake _ => srv
  | .read fd io => srv.handleClientRead config fd io
  | .flush fd io => srv.flushWriteBuffer fd io

/-- What an edge-triggered event asks of its handler. -/
def Contract (config : ServerConfig) (srv : TcpServer) (h : Handler) : Prop :=
  match h with
  | .accept _ | .wake _ => Drained (h.calls srv)
  | .read fd _ => Drained (h.calls srv) ∨ ClosedAndRemoved srv (h.returns config srv) fd
  | .flush fd _ =>
      (Drained (h.calls srv) ∧ (h.returns config srv).epollOut.lookup fd = some true) ∨
        AllSent srv (h.returns config srv) fd ∨
        ClosedAndRemoved srv (h.returns config srv) fd

/-- Every result in front of the first `EAGAIN` is one after which the loop goes on. -/
def GoesOn : Handler → Prop
  | .accept script => ∀ outcome ∈ script, ∃ accepted, outcome = .socket accepted
  | .wake script => ∀ outcome ∈ script, outcome = .read 8 ∨ outcome = .eintr
  | .read _ _ | .flush _ _ => True

end Handler

variable {config : ServerConfig} {srv srv' : TcpServer} {fd i : Nat}

/-! ## When a loop gets to `EAGAIN` -/

/-- The accept loop ends at `EAGAIN` unless `accept4` fails otherwise. -/
theorem acceptLoop_last_iff (script : List AcceptOutcome) (srv : TcpServer) :
    (acceptLoop script srv).1.getLast? = some .eagain ↔
      ∀ outcome ∈ script, ∃ accepted, outcome = .socket accepted := by
  induction script generalizing srv with
  | nil => simp [acceptLoop]
  | cons outcome rest ih =>
      rw [List.forall_mem_cons]
      cases outcome with
      | socket accepted =>
          have hRest := ih (srv.acceptConnection accepted)
          rw [acceptLoop, getLast?_cons_iff (by decide), hRest]
          exact ⟨fun h => ⟨⟨accepted, rfl⟩, h⟩, And.right⟩
      | error errno =>
          constructor
          · exact nofun
          · rintro ⟨⟨accepted, hSocket⟩, -⟩
            contradiction

/-- The loop on the eventfd ends at `EAGAIN` unless a read is short or fails otherwise. -/
theorem drainWakeEvents_last_iff (script : List WakeOutcome) :
    (drainWakeEvents script).getLast? = some .eagain ↔
      ∀ outcome ∈ script, outcome = .read 8 ∨ outcome = .eintr := by
  induction script with
  | nil => simp [drainWakeEvents]
  | cons outcome rest ih =>
      rw [List.forall_mem_cons]
      cases outcome with
      | read count =>
          rw [drainWakeEvents, getLast?_cons_iff (by decide)]
          by_cases hCount : count = 8
          · rw [if_pos hCount, ih, hCount]
            simp
          · rw [if_neg hCount]
            simp [hCount]
      | eintr =>
          rw [drainWakeEvents, getLast?_cons_iff (by decide), ih]
          simp
      | error errno => simp [drainWakeEvents]

theorem recvCalls_last {script : List RecvOutcome} {readBuffer : Bytes}
    (h : (readLoop script readBuffer).1 = .drained) :
    (recvCalls script).getLast? = some .eagain := by
  induction script generalizing readBuffer with
  | nil => rfl
  | cons outcome rest ih =>
      cases outcome with
      | bytes chunk =>
          rw [recvCalls, getLast?_cons_iff (by decide)]
          exact ih h
      | closed => contradiction
      | eintr =>
          rw [recvCalls, getLast?_cons_iff (by decide)]
          exact ih h
      | error errno => contradiction

theorem sendCalls_last {size : Nat} {script : List SendOutcome} {sent : Nat}
    (h : (sendLoop size script sent).status = .wouldBlock) :
    (sendCalls size script sent).getLast? = some .eagain := by
  induction script generalizing sent with
  | nil =>
      by_cases hMore : sent < size
      · rw [sendCalls, if_pos hMore]
        rfl
      · simp [sendLoop, hMore] at h
  | cons outcome rest ih =>
      by_cases hMore : sent < size
      · cases outcome with
        | sent count pos =>
            simp only [sendLoop, hMore, if_true] at h
            simp only [sendCalls, hMore, if_true]
            rw [getLast?_cons_iff (by decide)]
            exact ih h
        | eintr =>
            simp only [sendLoop, hMore, if_true] at h
            simp only [sendCalls, hMore, if_true]
            rw [getLast?_cons_iff (by decide)]
            exact ih h
        | error errno => simp [sendLoop, hMore] at h
      · simp [sendLoop, hMore] at h

/-! ## The clients -/

/-- Closing a connection under its own id and socket. -/
theorem closedAndRemoved_of_close {connection : ConnectionState}
    (hMapped : srv.connectionByFd.lookup fd = some i)
    (hLookup : srv'.connections.lookup i = some connection) (hFd : connection.fd = fd) :
    ClosedAndRemoved srv (srv'.closeConnection i) fd := by
  rw [closeConnection_of_some hLookup, hFd]
  refine ⟨i, hMapped, ?_, ?_, ?_, ?_⟩
  · rw [UnorderedMap.lookup_erase, if_pos rfl]
  · rw [UnorderedMap.lookup_erase, if_pos rfl]
  · rw [UnorderedMap.lookup_erase, if_pos rfl]
  · simp

/-- Closing a socket whose connection has been written back. -/
theorem closedAndRemoved_of_closeClient {connection : ConnectionState}
    (hMapped : srv.connectionByFd.lookup fd = some i)
    (hMapped' : srv'.connectionByFd.lookup fd = some i)
    (hLookup : srv'.connections.lookup i = some connection) (hFd : connection.fd = fd) :
    ClosedAndRemoved srv (srv'.closeClient fd) fd := by
  rw [TcpServer.closeClient, hMapped']
  exact closedAndRemoved_of_close hMapped hLookup hFd

/-- A read that goes on has got to `EAGAIN`. -/
theorem recvCalls_last_of_goes {script : List RecvOutcome} {readBuffer : Bytes}
    (h : ¬EndsConnection (recvPacketsEt script readBuffer kMaxPacketPayloadSize).1) :
    (recvCalls script).getLast? = some .eagain := by
  unfold recvPacketsEt at h
  split at h
  · exact absurd (.inl rfl) h
  · exact absurd (.inr (.inr rfl)) h
  · rename_i hLoop
    exact recvCalls_last (congrArg Prod.fst hLoop)

/-- A read drains the socket or closes the connection. -/
theorem read_contract (hInv : Inverse srv) {connection : ConnectionState} {io : ReadIo}
    (hFind : srv.findConnectionByFd fd = some (i, connection))
    (hReads : connection.closing = false) :
    Drained (recvCalls io.script) ∨
      ClosedAndRemoved srv (srv.handleClientRead config fd io) fd := by
  have hCase := handleClientRead_case config srv fd io
  generalize srv.handleClientRead config fd io = srv' at hCase ⊢
  cases hCase with
  | unread hNone =>
      rw [hNone i connection hFind] at hReads
      contradiction
  | @dropped j other out hRead hBad =>
      have hFd := hInv.findConnectionByFd_fd hRead.find
      have hKept := setConnection_lookup srv j j { other with readBuffer := out.2 }
      rw [if_pos rfl] at hKept
      exact .inr (closedAndRemoved_of_closeClient hRead.mapped hRead.mapped hKept hFd)
  | incomplete hRead hGoes hLength hNone =>
      rw [← hRead.recv] at hGoes
      exact .inl (drained_of_last (recvCalls_last_of_goes hGoes))
  | enqueued hRead hGoes hLength hTaken =>
      rw [← hRead.recv] at hGoes
      exact .inl (drained_of_last (recvCalls_last_of_goes hGoes))
  | @refused j other out hRead hFull =>
      have hFd := hInv.findConnectionByFd_fd hRead.find
      have hKept := setConnection_lookup (srv.afterRecv fd j other out.2) j j
        { other with readBuffer := out.2, lastActiveAt := io.now }
      rw [if_pos rfl] at hKept
      exact .inr (closedAndRemoved_of_closeClient hRead.mapped hRead.mapped hKept hFd)

/-- A flush drains the socket, has sent everything, or closes the connection. -/
theorem flush_contract (hInv : Inverse srv) (hWrite : WriteInv srv)
    {connection : ConnectionState} {io : SendIo}
    (hFind : srv.findConnectionByFd fd = some (i, connection))
    (hWaiting : connection.writeBuffer ≠ []) :
    (Drained (sendCalls connection.writeBuffer.length io.script 0) ∧
        (srv.flushWriteBuffer fd io).epollOut.lookup fd = some true) ∨
      AllSent srv (srv.flushWriteBuffer fd io) fd ∨
      ClosedAndRemoved srv (srv.flushWriteBuffer fd io) fd := by
  have hFd := hInv.findConnectionByFd_fd hFind
  obtain ⟨hMapped, hLookup⟩ := findConnectionByFd_eq_some hFind
  have hId := hInv.id_eq i connection hLookup
  have hCase := flushWriteBuffer_case srv fd io
  generalize srv.flushWriteBuffer fd io = srv' at hCase ⊢
  cases hCase with
  | nothing hNone => exact absurd (hNone i connection hFind) hWaiting
  | blocked hFlush hStatus =>
      obtain ⟨rfl, rfl⟩ := hFlush.found hFind
      have hArmed := (hWrite.written i connection hLookup).armed.mp hWaiting
      rw [hFd] at hArmed
      exact .inl ⟨drained_of_last (sendCalls_last hStatus), hArmed⟩
  | failed hFlush hStatus =>
      obtain ⟨rfl, rfl⟩ := hFlush.found hFind
      rw [hId]
      exact .inr (.inr (closedAndRemoved_of_close hMapped hLookup hFd))
  | notSwitched hFlush hStatus | closed hFlush hStatus =>
      obtain ⟨rfl, rfl⟩ := hFlush.found hFind
      have hKept := setConnection_lookup srv i i { connection with writeBuffer := [] }
      rw [if_pos rfl] at hKept
      rw [hId]
      exact .inr (.inr (closedAndRemoved_of_close hMapped hKept hFd))
  | flushed hFlush hStatus hOpen =>
      obtain ⟨rfl, rfl⟩ := hFlush.found hFind
      rw [take_sendAll hStatus]
      have hFound := findConnectionByFd_setConnection hMapped
        { connection with writeBuffer := [] }
      exact .inr (.inl ⟨i, connection, _, hFind, hFound, rfl, rfl⟩)

/-! ## Every handler -/

/-- In every state the reactor can reach, for every handler of an edge-triggered event and
every sequence of results of its calls: it goes on until `EAGAIN`, or until all is sent,
or closes, so that no connection, wake-up or byte is left without an event to
announce it, exactly where it meets no result that its loop gives up on. -/
theorem handler_drains_iff (config : ServerConfig) (listenFd wakeFd : Nat)
    (acts : List Action) (r : Reactor)
    (hRun : run (Reactor.step config) { server := { listenFd := listenFd, wakeFd := wakeFd } }
      acts = some r)
    (h : Handler) (hConcerns : h.Concerns r.server) :
    h.Contract config r.server ↔ h.GoesOn := by
  have hInv := run_reactorInv hRun
  have hBoth := run_invariant step_writeInv ⟨reactorInv_init listenFd wakeFd,
    writeInv_init listenFd wakeFd⟩ hRun
  cases h with
  | accept script =>
      rw [Handler.GoesOn, ← acceptLoop_last_iff script r.server]
      exact ⟨Drained.last, drained_of_last⟩
  | wake script =>
      rw [Handler.GoesOn, ← drainWakeEvents_last_iff script]
      exact ⟨Drained.last, drained_of_last⟩
  | read fd io =>
      obtain ⟨i, connection, hFind, hReads⟩ := hConcerns
      exact iff_of_true (read_contract hInv.toInverse hFind hReads) trivial
  | flush fd io =>
      obtain ⟨i, connection, hFind, hWaiting⟩ := hConcerns
      refine iff_of_true ?_ trivial
      rw [Handler.Contract, Handler.calls, hFind]
      exact flush_contract hInv.toInverse hBoth.2 hFind hWaiting

/-- An accepted client is read with an interruption. -/
theorem handler_drains_iff_accepted :
    ∃ r, run (Reactor.step {}) { server := { listenFd := 3, wakeFd := 4 } }
        [.accept { fd := 7 }] = some r ∧
      ((Handler.read 7 { script := [.eintr] }).Contract {} r.server ↔
        (Handler.read 7 { script := [.eintr] }).GoesOn) :=
  ⟨_, rfl, handler_drains_iff {} 3 4 [.accept { fd := 7 }] _ rfl
    (.read 7 { script := [.eintr] }) ⟨1, _, rfl, rfl⟩⟩

/-- `accept4` returns a socket and is then interrupted. -/
def interrupted : Handler := .accept [.socket { fd := 7 }, .error 4]

/-- Two connections are queued; after the interrupted handler one of them is, and nothing
will announce it. -/
theorem not_handler_drains :
    ¬∀ (config : ServerConfig) (listenFd wakeFd : Nat) (acts : List Action) (r : Reactor),
        run (Reactor.step config) { server := { listenFd := listenFd, wakeFd := wakeFd } }
          acts = some r →
        ∀ h : Handler, h.Concerns r.server → h.Contract config r.server := by
  intro h
  have hDrained : Drained (interrupted.calls { listenFd := 3, wakeFd := 4 }) :=
    h {} 3 4 [] _ rfl interrupted trivial
  obtain ⟨source, events, source', -, hCalls, hRun, hStranded⟩ :=
    exists_stranded (by decide : CallResult.eagain ∉ interrupted.calls
      { listenFd := 3, wakeFd := 4 })
  exact hDrained.announced source events source' hCalls hRun hStranded

end CppChat.Ports.Network
