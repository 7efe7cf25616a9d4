import CppChat.Verified.EventFd
import CppChat.Ports.ReactorQueues

/-!
# Waking the reactor

A worker queues its replies, or a close request, under the mutex and then writes to the
wake eventfd; these are two steps, and anything can happen between them.  The reactor
sleeps in `epoll_wait`.  When it is told of the eventfd it reads it until `EAGAIN` and
then drains the two queues, and it drains them again when it has gone through all events
of the batch.  A drain takes the close requests, then the responses, then the close
requests once more, each under the mutex.  Every taking, every read and write of the
eventfd and every return of `epoll_wait` is one step here; so is every handler, which
touches neither the queues nor the eventfd.

## Main results

* `stepped`: everything a step can do.
* `step_awake`: a step leaves no queued entry without somebody who will see to it.
* `no_lost_wakeup`: so it is in every reachable state.
* `exists_run_waiting`: the reactor gets back to `epoll_wait` from everywhere.
-/

namespace CppChat.Ports.Wakeup

open CppChat.Verified
open CppChat.Verified.Transition
open CppChat.Ports.Network

/-! ## State -/

/-- Where `drain_responses` is, with what it has taken from a queue. -/
inductive Stage where
  | requested
  | closing (pending : List QueuedClose)
  | delivering (pending : List QueuedResponse)
  | closingAgain (pending : List QueuedClose)

/-- Where `run_event_loop` is: in `epoll_wait`, at an event of a batch, in
`drain_wake_events` or in `drain_responses`, with the events that are left.  The drain at
the end of a round has no events behind it. -/
inductive Point where
  | waiting
  | handling (event : EpollEvent) (batch : List EpollEvent)
  | readingWake (batch : List EpollEvent)
  | draining (stage : Stage) (batch : Option (List EpollEvent))

/-- The next event of the batch, or the drain at its end. -/
def nextEvent : List EpollEvent → Point
  | [] => .draining .requested none
  | event :: batch => .handling event batch

/-- Where the loop goes after a drain: on with its batch, or back to `epoll_wait`. -/
def afterDrain : Option (List EpollEvent) → Point
  | none => .waiting
  | some batch => nextEvent batch

/-- The reactor, the wake eventfd, and the workers that have queued their replies and not
yet written to it. -/
structure EventLoop where
  server : TcpServer
  wake : EventFd := {}
  point : Point := .waiting
  signalling : UnorderedSet Nat := .empty

/-- The two descriptors of the server.  Both are open, so the kernel has given out two
different numbers. -/
structure Descriptors where
  listenFd : Nat
  wakeFd : Nat
  distinct : listenFd ≠ wakeFd

/-- The loop at its start. -/
def EventLoop.init (fds : Descriptors) : EventLoop :=
  { server := { listenFd := fds.listenFd, wakeFd := fds.wakeFd } }

/-! ## Steps -/

/-- What the event loop and the workers can do next. -/
inductive Action where
  /-- The end of `process_packet_async`, up to `wake_event_loop`. -/
  | push (worker : Nat) (result : WorkerResult)
  /-- `wake_event_loop`. -/
  | signal (worker : Nat)
  | timeout (now : Nat)
  | interrupt
  | dropStale
  | ready (event : EpollEvent) (batch : List EpollEvent)
  | event (io : EventIo)
  | readWake
  | takeCloses
  | closeNext
  | takeResponses
  | deliver (io : SendIo)
  | takeClosesAgain
  | endDrain

/-- `epoll_wait` times out or is interrupted only if it has nothing to report; it may
report other events first. -/
def step (config : ServerConfig) (s : EventLoop) : Action → Option EventLoop
  | .push worker result =>
      if s.signalling.contains worker then none
      else
        some { s with
          server := s.server.pushResult config result
          signalling := s.signalling.insert worker }
  | .signal worker =>
      if s.signalling.contains worker then
        some { s with wake := s.wake.write, signalling := s.signalling.erase worker }
      else none
  | .timeout now =>
      match s.point with
      | .waiting =>
          if s.wake.pending then none
          else
            some { s with
              server := s.server.checkHeartbeats config now
              point := .draining .requested none }
      | _ => none
  | .interrupt =>
      match s.point with
      | .waiting => if s.wake.pending then none else some s
      | _ => none
  | .dropStale =>
      match s.point with
      | .waiting => s.wake.dropStale.map fun wake => { s with wake := wake }
      | _ => none
  | .ready event batch =>
      match s.point with
      | .waiting =>
          if (event :: batch).any fun event => event.fd == s.server.wakeFd then
            s.wake.report.map fun wake => { s with wake := wake, point := .handling event batch }
          else some { s with point := .handling event batch }
      | _ => none
  | .event io =>
      match s.point with
      | .handling event batch =>
          if event.fd = s.server.listenFd then
            some { s with
              server := s.server.acceptConnections io.accepts
              point := nextEvent batch }
          else if event.fd = s.server.wakeFd then some { s with point := .readingWake batch }
          else
            some { s with
              server := s.server.processClient config event io
              point := nextEvent batch }
      | _ => none
  | .readWake =>
      match s.point with
      | .readingWake batch =>
          match s.wake.read with
          | some wake => some { s with wake := wake }
          | none => some { s with point := .draining .requested (some batch) }
      | _ => none
  | .takeCloses =>
      match s.point with
      | .draining .requested batch =>
          some { s with
            server := { s.server with closeQueue := [] }
            point := .draining (.closing s.server.closeQueue) batch }
      | _ => none
  | .closeNext =>
      match s.point with
      | .draining (.closing (request :: rest)) batch =>
          some { s with
            server := s.server.closeIfCurrent request
            point := .draining (.closing rest) batch }
      | .draining (.closingAgain (request :: rest)) batch =>
          some { s with
            server := s.server.closeIfCurrent request
            point := .draining (.closingAgain rest) batch }
      | _ => none
  | .takeResponses =>
      match s.point with
      | .draining (.closing []) batch =>
          some { s with
            server := { s.server with responseQueue := [] }
            point := .draining (.delivering s.server.responseQueue) batch }
      | _ => none
  | .deliver io =>
      match s.point with
      | .draining (.delivering (response :: rest)) batch =>
          some { s with
            server := s.server.deliver config response io
            point := .draining (.delivering rest) batch }
      | _ => none
  | .takeClosesAgain =>
      match s.point with
      | .draining (.delivering []) batch =>
          some { s with
            server := { s.server with closeQueue := [] }
            point := .draining (.closingAgain s.server.closeQueue) batch }
      | _ => none
  | .endDrain =>
      match s.point with
      | .draining (.closingAgain []) batch => some { s with point := afterDrain batch }
      | _ => none

/-- Everything a step can do.  A handler leaves the queues and the two sockets alone. -/
inductive Stepped (config : ServerConfig) (s : EventLoop) : Action → EventLoop → Prop
  | push {worker : Nat} (result : WorkerResult) :
      Stepped config s (.push worker result)
        { s with
          server := s.server.pushResult config result
          signalling := s.signalling.insert worker }
  | signal {worker : Nat} :
      Stepped config s (.signal worker)
        { s with wake := s.wake.write, signalling := s.signalling.erase worker }
  | timeout {server : TcpServer} (now : Nat) (hPoint : s.point = .waiting)
      (hServer : Untouched s.server server) :
      Stepped config s (.timeout now)
        { s with server := server, point := .draining .requested none }
  | interrupt (hPoint : s.point = .waiting) : Stepped config s .interrupt s
  | dropStale {wake : EventFd} (hPoint : s.point = .waiting)
      (hWake : s.wake.dropStale = some wake) :
      Stepped config s .dropStale { s with wake := wake }
  | report {event : EpollEvent} {batch : List EpollEvent} {wake : EventFd}
      (hPoint : s.point = .waiting)
      (hListed : (event :: batch).any (fun event => event.fd == s.server.wakeFd) = true) :
      Stepped config s (.ready event batch)
        { s with wake := wake, point := .handling event batch }
  | ready {event : EpollEvent} {batch : List EpollEvent} (hPoint : s.point = .waiting) :
      Stepped config s (.ready event batch) { s with point := .handling event batch }
  | handle {event : EpollEvent} {batch : List EpollEvent} {server : TcpServer} (io : EventIo)
      (hPoint : s.point = .handling event batch) (hServer : Untouched s.server server)
      (hOther : event.fd = s.server.listenFd ∨ event.fd ≠ s.server.wakeFd) :
      Stepped config s (.event io) { s with server := server, point := nextEvent batch }
  | wakeEvent {event : EpollEvent} {batch : List EpollEvent} (io : EventIo)
      (hPoint : s.point = .handling event batch) :
      Stepped config s (.event io) { s with point := .readingWake batch }
  | read {batch : List EpollEvent} {wake : EventFd} (hPoint : s.point = .readingWake batch)
      (hRead : s.wake.read = some wake) : Stepped config s .readWake { s with wake := wake }
  | eagain {batch : List EpollEvent} (hPoint : s.point = .readingWake batch)
      (hRead : s.wake.read = none) :
      Stepped config s .readWake { s with point := .draining .requested (some batch) }
  | takeCloses {batch : Option (List EpollEvent)} (hPoint : s.point = .draining .requested batch) :
      Stepped config s .takeCloses
        { s with
          server := { s.server with closeQueue := [] }
          point := .draining (.closing s.server.closeQueue) batch }
  | closeNext {request : QueuedClose} {rest : List QueuedClose}
      {batch : Option (List EpollEvent)}
      (hPoint : s.point = .draining (.closing (request :: rest)) batch) :
      Stepped config s .closeNext
        { s with
          server := s.server.closeIfCurrent request
          point := .draining (.closing rest) batch }
  | closeNextAgain {request : QueuedClose} {rest : List QueuedClose}
      {batch : Option (List EpollEvent)}
      (hPoint : s.point = .draining (.closingAgain (request :: rest)) batch) :
      Stepped config s .closeNext
        { s with
          server := s.server.closeIfCurrent request
          point := .draining (.closingAgain rest) batch }
  | takeResponses {batch : Option (List EpollEvent)}
      (hPoint : s.point = .draining (.closing []) batch) :
      Stepped config s .takeResponses
        { s with
          server := { s.server with responseQueue := [] }
          point := .draining (.delivering s.server.responseQueue) batch }
  | deliver {response : QueuedResponse} {rest : List QueuedResponse}
      {batch : Option (List EpollEvent)} (io : SendIo)
      (hPoint : s.point = .draining (.delivering (response :: rest)) batch) :
      Stepped config s (.deliver io)
        { s with
          server := s.server.deliver config response io
          point := .draining (.delivering rest) batch }
  | takeClosesAgain {batch : Option (List EpollEvent)}
      (hPoint : s.point = .draining (.delivering []) batch) :
      Stepped config s .takeClosesAgain
        { s with
          server := { s.server with closeQueue := [] }
          point := .draining (.closingAgain s.server.closeQueue) batch }
  | endDrain {batch : Option (List EpollEvent)}
      (hPoint : s.point = .draining (.closingAgain []) batch) :
      Stepped config s .endDrain { s with point := afterDrain batch }

/-! ## Handlers -/

theorem untouched_acceptConnections (srv : TcpServer) (accepts : List Accepted) :
    Untouched srv (srv.acceptConnections accepts) := by
  have hStep : ∀ (now : TcpServer) (accepted : Accepted), True → Untouched srv now →
      Untouched srv (now.acceptConnection accepted) :=
    fun now accepted _ h => h.trans (untouched_acceptConnection now accepted)
  exact foldl_invariant hStep accepts srv (fun _ _ => trivial) (.refl srv)

theorem untouched_checkHeartbeats (config : ServerConfig) (srv : TcpServer) (now : Nat) :
    Untouched srv (srv.checkHeartbeats config now) := by
  have hStep : ∀ (now : TcpServer) (i : Nat), True → Untouched srv now →
      Untouched srv (now.closeConnection i) :=
    fun _ i _ h => h.closeConnection i
  exact foldl_invariant hStep _ srv (fun _ _ => trivial) (.refl srv)

theorem untouched_processClient (config : ServerConfig) (srv : TcpServer) (event : EpollEvent)
    (io : EventIo) : Untouched srv (srv.processClient config event io) := by
  unfold TcpServer.processClient
  split
  · exact (Untouched.refl srv).closeClient event.fd
  have hRead : Untouched srv
      (if event.readable then srv.handleClientRead config event.fd io.read else srv) := by
    split
    · exact untouched_handleClientRead config srv event.fd io.read
    · exact .refl srv
  dsimp only
  split
  · exact hRead.trans (untouched_flushWriteBuffer _ event.fd io.flush)
  · exact hRead

theorem stepped {config : ServerConfig} {s s' : EventLoop} {a : Action}
    (h : step config s a = some s') : Stepped config s a s' := by
  cases a with
  | push worker result =>
      rw [step] at h
      split at h
      · contradiction
      · rw [← Option.some.inj h]
        exact .push result
  | signal worker =>
      rw [step] at h
      split at h
      · rw [← Option.some.inj h]
        exact .signal
      · contradiction
  | timeout now =>
      rw [step] at h
      split at h
      · rename_i hPoint
        split at h
        · contradiction
        · rw [← Option.some.inj h]
          exact .timeout now hPoint (untouched_checkHeartbeats config s.server now)
      · contradiction
  | interrupt =>
      rw [step] at h
      split at h
      · rename_i hPoint
        split at h
        · contradiction
        · rw [← Option.some.inj h]
          exact .interrupt hPoint
      · contradiction
  | dropStale =>
      rw [step] at h
      split at h
      · rename_i hPoint
        obtain ⟨wake, hWake, rfl⟩ := Option.map_eq_some_iff.mp h
        exact .dropStale hPoint hWake
      · contradiction
  | ready event batch =>
      rw [step] at h
      split at h
      · rename_i hPoint
        split at h
        · rename_i hListed
          obtain ⟨wake, -, rfl⟩ := Option.map_eq_some_iff.mp h
          exact .report hPoint hListed
        · rw [← Option.some.inj h]
          exact .ready hPoint
      · contradiction
  | event io =>
      rw [step] at h
      split at h
      · rename_i event batch hPoint
        split at h
        · rename_i hListen
          rw [← Option.some.inj h]
          exact .handle io hPoint (untouched_acceptConnections s.server io.accepts) (.inl hListen)
        split at h
        · rw [← Option.some.inj h]
          exact .wakeEvent io hPoint
        · rename_i hClient
          rw [← Option.some.inj h]
          exact .handle io hPoint (untouched_processClient config s.server event io) (.inr hClient)
      · contradiction
  | readWake =>
      rw [step] at h
      split at h
      · rename_i hPoint
        split at h
        · rename_i hRead
          rw [← Option.some.inj h]
          exact .read hPoint hRead
        · rename_i hRead
          rw [← Option.some.inj h]
          exact .eagain hPoint hRead
      · contradiction
  | takeCloses =>
      rw [step] at h
      split at h
      · rename_i hPoint
        rw [← Option.some.inj h]
        exact .takeCloses hPoint
      · contradiction
  | closeNext =>
      rw [step] at h
      split at h
      · rename_i hPoint
        rw [← Option.some.inj h]
        exact .closeNext hPoint
      · rename_i hPoint
        rw [← Option.some.inj h]
        exact .closeNextAgain hPoint
      · contradiction
  | takeResponses =>
      rw [step] at h
      split at h
      · rename_i hPoint
        rw [← Option.some.inj h]
        exact .takeResponses hPoint
      · contradiction
  | deliver io =>
      rw [step] at h
      split at h
      · rename_i hPoint
        rw [← Option.some.inj h]
        exact .deliver io hPoint
      · contradiction
  | takeClosesAgain =>
      rw [step] at h
      split at h
      · rename_i hPoint
        rw [← Option.some.inj h]
        exact .takeClosesAgain hPoint
      · contradiction
  | endDrain =>
      rw [step] at h
      split at h
      · rename_i hPoint
        rw [← Option.some.inj h]
        exact .endDrain hPoint
      · contradiction

/-! ## What the reactor is about to do -/

/-- The eventfd has been reported, and will be read before the next wait. -/
def Point.reads (wakeFd : Nat) : Point → Bool
  | .waiting => false
  | .handling event batch => (event :: batch).any fun event => event.fd == wakeFd
  | .readingWake _ => true
  | .draining _ batch => (batch.getD []).any fun event => event.fd == wakeFd

/-- The responses will be taken before the next wait. -/
def Point.takesResponses : Point → Bool
  | .waiting => false
  | .draining .requested none | .draining (.closing _) none => true
  | .draining _ none => false
  | _ => true

/-- The close requests will be taken before the next wait. -/
def Point.takesCloses : Point → Bool
  | .waiting => false
  | .draining (.closingAgain _) none => false
  | _ => true

/-- The step takes the close requests. -/
def Action.takesCloses : Action → Bool
  | .takeCloses | .takeClosesAgain => true
  | _ => false

/-- Whatever happens, the reactor takes such a step before it waits again. -/
def TakesBeforeWait (config : ServerConfig) (s : EventLoop) (takes : Action → Prop) : Prop :=
  ∀ acts t, run (step config) s acts = some t → t.point = .waiting → ∃ a ∈ acts, takes a

/-- Nothing is queued that nobody will see to: there is a report for the next wait, or a
worker that is going to write, or the reactor takes the queue before it waits.  The
eventfd is unread only as long as the reactor is going to read it. -/
structure Awake (s : EventLoop) : Prop where
  fds : s.server.listenFd ≠ s.server.wakeFd
  unread : s.wake.Unread → s.point.reads s.server.wakeFd = true
  responses : s.server.responseQueue ≠ [] →
    s.wake.pending = true ∨ (∃ worker, s.signalling.contains worker) ∨
      s.point.takesResponses = true
  closes : s.server.closeQueue ≠ [] →
    s.wake.pending = true ∨ (∃ worker, s.signalling.contains worker) ∨
      s.point.takesCloses = true

variable {config : ServerConfig} {s s' : EventLoop}

/-! ## A step keeps watch -/

theorem reads_nextEvent (wakeFd : Nat) (batch : List EpollEvent) :
    (nextEvent batch).reads wakeFd = batch.any fun event => event.fd == wakeFd := by
  cases batch <;> rfl

theorem takes_nextEvent (batch : List EpollEvent) :
    (nextEvent batch).takesResponses = true ∧ (nextEvent batch).takesCloses = true := by
  cases batch <;> exact ⟨rfl, rfl⟩

/-- Who is going to read the eventfd is going to take both queues. -/
theorem takes_of_reads {point : Point} {wakeFd : Nat} (h : point.reads wakeFd = true) :
    point.takesResponses = true ∧ point.takesCloses = true := by
  cases point with
  | waiting => contradiction
  | handling event batch => exact ⟨rfl, rfl⟩
  | readingWake batch => exact ⟨rfl, rfl⟩
  | draining stage batch =>
      cases batch with
      | none => contradiction
      | some batch => cases stage <;> exact ⟨rfl, rfl⟩

/-- Only the taking itself leaves the points in front of it. -/
theorem Stepped.takesResponses {a : Action} (hStep : Stepped config s a s')
    (h : s.point.takesResponses = true) :
    a = .takeResponses ∨ s'.point.takesResponses = true := by
  cases hStep with
  | push result => exact .inr h
  | signal => exact .inr h
  | timeout now hPoint hServer => exact .inr rfl
  | interrupt hPoint => exact .inr h
  | dropStale hPoint hWake => exact .inr h
  | report hPoint hListed => exact .inr rfl
  | ready hPoint => exact .inr rfl
  | handle io hPoint hServer hOther => exact .inr (takes_nextEvent _).1
  | wakeEvent io hPoint => exact .inr rfl
  | read hPoint hRead => exact .inr h
  | eagain hPoint hRead => exact .inr rfl
  | @takeCloses batch hPoint => cases batch <;> exact .inr rfl
  | @closeNext request rest batch hPoint => cases batch <;> exact .inr rfl
  | takeResponses hPoint => exact .inl rfl
  | @closeNextAgain request rest batch hPoint
  | @deliver response rest batch io hPoint
  | @takeClosesAgain batch hPoint =>
      rw [hPoint] at h
      cases batch with
      | none => contradiction
      | some batch => exact .inr rfl
  | @endDrain batch hPoint =>
      rw [hPoint] at h
      cases batch with
      | none => contradiction
      | some batch => exact .inr (takes_nextEvent batch).1

/-- A loop on its way to the close requests takes them, or stays on its way. -/
theorem Stepped.takesCloses {a : Action} (hStep : Stepped config s a s')
    (h : s.point.takesCloses = true) :
    a.takesCloses = true ∨ s'.point.takesCloses = true := by
  cases hStep with
  | push result => exact .inr h
  | signal => exact .inr h
  | timeout now hPoint hServer => exact .inr rfl
  | interrupt hPoint => exact .inr h
  | dropStale hPoint hWake => exact .inr h
  | report hPoint hListed => exact .inr rfl
  | ready hPoint => exact .inr rfl
  | handle io hPoint hServer hOther => exact .inr (takes_nextEvent _).2
  | wakeEvent io hPoint => exact .inr rfl
  | read hPoint hRead => exact .inr h
  | eagain hPoint hRead => exact .inr rfl
  | takeCloses hPoint => exact .inl rfl
  | takeClosesAgain hPoint => exact .inl rfl
  | @closeNext request rest batch hPoint
  | @takeResponses batch hPoint
  | @deliver response rest batch io hPoint => cases batch <;> exact .inr rfl
  | @closeNextAgain request rest batch hPoint =>
      rw [hPoint] at h
      cases batch with
      | none => contradiction
      | some batch => exact .inr rfl
  | @endDrain batch hPoint =>
      rw [hPoint] at h
      cases batch with
      | none => contradiction
      | some batch => exact .inr (takes_nextEvent batch).2

/-- A reactor that is going to read the eventfd reads it until `EAGAIN`. -/
theorem Stepped.reads {a : Action} (hStep : Stepped config s a s')
    (hFds : s.server.listenFd ≠ s.server.wakeFd)
    (h : s.point.reads s.server.wakeFd = true) :
    a = .readWake ∨ s'.point.reads s.server.wakeFd = true := by
  cases hStep with
  | push result => exact .inr h
  | signal => exact .inr h
  | timeout now hPoint hServer => rw [hPoint] at h; contradiction
  | interrupt hPoint => exact .inr h
  | dropStale hPoint hWake => exact .inr h
  | report hPoint hListed => exact .inr hListed
  | ready hPoint => rw [hPoint] at h; contradiction
  | @handle event batch server io hPoint hServer hOther =>
      -- the event that has been handled was not the one of the eventfd
      have hNot : (event.fd == s.server.wakeFd) = false := by
        rcases hOther with hListen | hClient
        · rw [hListen]
          exact beq_false_of_ne hFds
        · exact beq_false_of_ne hClient
      rw [hPoint, Point.reads, List.any_cons, hNot, Bool.false_or] at h
      exact .inr ((reads_nextEvent _ batch).trans h)
  | wakeEvent io hPoint => exact .inr rfl
  | read hPoint hRead => exact .inl rfl
  | eagain hPoint hRead => exact .inl rfl
  | @endDrain batch hPoint =>
      rw [hPoint] at h
      cases batch with
      | none => contradiction
      | some batch => exact .inr ((reads_nextEvent _ batch).trans h)
  | takeCloses hPoint
  | closeNext hPoint
  | closeNextAgain hPoint
  | takeResponses hPoint
  | deliver io hPoint
  | takeClosesAgain hPoint =>
      rw [hPoint] at h
      exact .inr h

/-- A step of the reactor that leaves the eventfd alone, and the queues except by emptying
them. -/
theorem Awake.move (h : Awake s) {a : Action} (hStep : Stepped config s a s')
    (hFds : s'.server.listenFd = s.server.listenFd ∧ s'.server.wakeFd = s.server.wakeFd)
    (hWake : s'.wake = s.wake) (hSignalling : s'.signalling = s.signalling)
    (hNotRead : a ≠ .readWake)
    (hResponses : s'.server.responseQueue = [] ∨
      s'.server.responseQueue = s.server.responseQueue ∧ a ≠ .takeResponses)
    (hCloses : s'.server.closeQueue = [] ∨
      s'.server.closeQueue = s.server.closeQueue ∧ a.takesCloses = false) : Awake s' where
  fds := by
    rw [hFds.1, hFds.2]
    exact h.fds
  unread := by
    intro hUnread
    rw [hWake] at hUnread
    rw [hFds.2]
    exact (hStep.reads h.fds (h.unread hUnread)).resolve_left hNotRead
  responses := by
    intro hQueue
    rw [hWake, hSignalling]
    rcases hResponses with hEmpty | ⟨hSame, hNotTaken⟩
    · exact absurd hEmpty hQueue
    · rw [hSame] at hQueue
      refine (h.responses hQueue).imp_right (Or.imp_right fun hTakes => ?_)
      exact (hStep.takesResponses hTakes).resolve_left hNotTaken
  closes := by
    intro hQueue
    rw [hWake, hSignalling]
    rcases hCloses with hEmpty | ⟨hSame, hNotTaken⟩
    · exact absurd hEmpty hQueue
    · rw [hSame] at hQueue
      refine (h.closes hQueue).imp_right (Or.imp_right fun hTakes => ?_)
      exact (hStep.takesCloses hTakes).resolve_left (by rw [hNotTaken]; decide)

/-- A report of the eventfd for the next wait is all that is needed. -/
theorem Awake.of_pending (hFds : s.server.listenFd ≠ s.server.wakeFd)
    (hPending : s.wake.pending = true) : Awake s where
  fds := hFds
  unread := fun hUnread => absurd hUnread (EventFd.not_unread_of_pending hPending)
  responses := fun _ => .inl hPending
  closes := fun _ => .inl hPending

/-- So is a reactor that is going to take both queues, if it also reads the eventfd. -/
theorem Awake.of_takes (hFds : s.server.listenFd ≠ s.server.wakeFd)
    (hUnread : s.wake.Unread → s.point.reads s.server.wakeFd = true)
    (hResponses : s.point.takesResponses = true) (hCloses : s.point.takesCloses = true) :
    Awake s :=
  ⟨hFds, hUnread, fun _ => .inr (.inr hResponses), fun _ => .inr (.inr hCloses)⟩

/-- A worker that is going to write is enough as well. -/
theorem Awake.push (h : Awake s) (worker : Nat) (result : WorkerResult) :
    Awake { s with
      server := s.server.pushResult config result
      signalling := s.signalling.insert worker } := by
  have hWorker : ∃ worker', (s.signalling.insert worker).contains worker' = true :=
    ⟨worker, (UnorderedSet.contains_insert _ _ _).mpr (.inl rfl)⟩
  have hFds : (s.server.pushResult config result).listenFd = s.server.listenFd ∧
      (s.server.pushResult config result).wakeFd = s.server.wakeFd := by
    obtain ⟨_, _, hPushed⟩ := s.server.pushResult_queues config result
    rw [hPushed]
    exact ⟨rfl, rfl⟩
  refine ⟨?_, ?_, fun _ => .inr (.inl hWorker), fun _ => .inr (.inl hWorker)⟩
  · rw [hFds.1, hFds.2]
    exact h.fds
  · rw [hFds.2]
    exact h.unread

/-- The write has to be reported, or the reactor has been told before and not read yet. -/
theorem Awake.signal (h : Awake s) (worker : Nat) :
    Awake { s with wake := s.wake.write, signalling := s.signalling.erase worker } := by
  by_cases hUnread : s.wake.Unread
  · have hReads := h.unread hUnread
    obtain ⟨hResponses, hCloses⟩ := takes_of_reads hReads
    exact .of_takes h.fds (fun _ => hReads) hResponses hCloses
  · exact .of_pending h.fds (EventFd.pending_write hUnread)

/-- Every step leaves somebody who will see to what is queued. -/
theorem step_awake (h : Awake s) {a : Action} (hStep : Stepped config s a s') : Awake s' := by
  have hMove := h.move hStep
  cases hStep with
  | push result => exact h.push _ result
  | signal => exact h.signal _
  | interrupt hPoint => exact h
  | dropStale hPoint hWake =>
      obtain ⟨hNothing, hUnread⟩ := EventFd.not_unread_of_dropStale hWake
      have hWaits : ¬s.wake.pending = true := by rw [hNothing]; decide
      exact
        { fds := h.fds
          unread := fun hBad => absurd hBad hUnread
          responses := fun hQueue => .inr ((h.responses hQueue).resolve_left hWaits)
          closes := fun hQueue => .inr ((h.closes hQueue).resolve_left hWaits) }
  | report hPoint hListed => exact .of_takes h.fds (fun _ => hListed) rfl rfl
  | read hPoint hRead =>
      refine .of_takes h.fds (fun hBad => absurd hBad (EventFd.not_unread_of_read hRead)) ?_ ?_
      · show s.point.takesResponses = true
        rw [hPoint]
        rfl
      · show s.point.takesCloses = true
        rw [hPoint]
        rfl
  | eagain hPoint hRead =>
      exact .of_takes h.fds (fun hBad => absurd hBad (EventFd.not_unread_of_eagain hRead)) rfl rfl
  | timeout now hPoint hServer =>
      exact hMove ⟨hServer.listenFd, hServer.wakeFd⟩ rfl rfl nofun
        (.inr ⟨hServer.responses, nofun⟩) (.inr ⟨hServer.closes, rfl⟩)
  | handle io hPoint hServer hOther =>
      exact hMove ⟨hServer.listenFd, hServer.wakeFd⟩ rfl rfl nofun
        (.inr ⟨hServer.responses, nofun⟩) (.inr ⟨hServer.closes, rfl⟩)
  | @closeNext request rest batch hPoint =>
      have hServer := untouched_closeIfCurrent s.server request
      exact hMove ⟨hServer.listenFd, hServer.wakeFd⟩ rfl rfl nofun
        (.inr ⟨hServer.responses, nofun⟩) (.inr ⟨hServer.closes, rfl⟩)
  | @closeNextAgain request rest batch hPoint =>
      have hServer := untouched_closeIfCurrent s.server request
      exact hMove ⟨hServer.listenFd, hServer.wakeFd⟩ rfl rfl nofun
        (.inr ⟨hServer.responses, nofun⟩) (.inr ⟨hServer.closes, rfl⟩)
  | @deliver response rest batch io hPoint =>
      have hServer := untouched_deliver config s.server response io
      exact hMove ⟨hServer.listenFd, hServer.wakeFd⟩ rfl rfl nofun
        (.inr ⟨hServer.responses, nofun⟩) (.inr ⟨hServer.closes, rfl⟩)
  | takeCloses hPoint | takeClosesAgain hPoint =>
      exact hMove ⟨rfl, rfl⟩ rfl rfl nofun (.inr ⟨rfl, nofun⟩) (.inl rfl)
  | takeResponses hPoint =>
      exact hMove ⟨rfl, rfl⟩ rfl rfl nofun (.inl rfl) (.inr ⟨rfl, rfl⟩)
  | ready hPoint | wakeEvent io hPoint | endDrain hPoint =>
      exact hMove ⟨rfl, rfl⟩ rfl rfl nofun (.inr ⟨rfl, nofun⟩) (.inr ⟨rfl, rfl⟩)

/-! ## Every run -/

theorem awake_init (fds : Descriptors) : Awake (.init fds) where
  fds := fds.distinct
  unread := fun hUnread => absurd hUnread (EventFd.not_unread_of_count rfl)
  responses := fun hQueue => absurd rfl hQueue
  closes := fun hQueue => absurd rfl hQueue

/-- A point in front of a taking, and every step that leaves it is that taking: so the
taking comes before the next wait. -/
theorem takesBeforeWait {takes : Action → Prop} {inFront : Point → Bool}
    (hWaiting : inFront .waiting = false)
    (hStep : ∀ s a s', Stepped config s a s' → inFront s.point = true →
      takes a ∨ inFront s'.point = true) :
    ∀ s : EventLoop, inFront s.point = true → TakesBeforeWait config s takes := by
  intro s hFront acts
  induction acts generalizing s with
  | nil =>
      intro t hRun hPoint
      rw [Option.some.inj hRun, hPoint, hWaiting] at hFront
      contradiction
  | cons a rest ih =>
      intro t hRun hPoint
      obtain ⟨s', hFirst, hRest⟩ := run_cons_eq_some hRun
      rcases hStep s a s' (stepped hFirst) hFront with hTakes | hFront'
      · exact ⟨a, List.mem_cons_self, hTakes⟩
      · obtain ⟨a', hMem, hTakes⟩ := ih s' hFront' t hRest hPoint
        exact ⟨a', List.mem_cons_of_mem a hMem, hTakes⟩

/--
**No lost wakeup.**  In every reachable state, if responses are queued, then the eventfd has
a report for the next `epoll_wait`, or some worker has queued its replies and not yet written
to it, or the reactor takes the responses before it waits again; and the same of the close
requests.  In particular, while the reactor waits and no worker is between the two, a wait
can neither time out nor be interrupted as long as something is queued.
-/
theorem no_lost_wakeup (config : ServerConfig) (fds : Descriptors) (acts : List Action)
    (s : EventLoop) (hRun : run (step config) (.init fds) acts = some s) :
    (s.server.responseQueue ≠ [] →
      s.wake.pending = true ∨ (∃ worker, s.signalling.contains worker) ∨
        TakesBeforeWait config s (· = .takeResponses)) ∧
    (s.server.closeQueue ≠ [] →
      s.wake.pending = true ∨ (∃ worker, s.signalling.contains worker) ∨
        TakesBeforeWait config s (·.takesCloses = true)) ∧
    (s.point = .waiting → s.server.responseQueue ≠ [] ∨ s.server.closeQueue ≠ [] →
      (∀ worker, s.signalling.contains worker = false) →
      s.wake.pending = true ∧ step config s .interrupt = none ∧
        ∀ now, step config s (.timeout now) = none) := by
  have hAwake := run_invariant (fun _ _ _ hBefore hStep => step_awake hBefore (stepped hStep))
    (awake_init fds) hRun
  refine ⟨fun hQueue => ?_, fun hQueue => ?_, fun hPoint hQueues hNobody => ?_⟩
  · refine (hAwake.responses hQueue).imp_right (Or.imp_right ?_)
    exact takesBeforeWait rfl (fun _ _ _ hStep => hStep.takesResponses) s
  · refine (hAwake.closes hQueue).imp_right (Or.imp_right ?_)
    exact takesBeforeWait rfl (fun _ _ _ hStep => hStep.takesCloses) s
  · have hNone : ¬∃ worker, s.signalling.contains worker = true := by
      rintro ⟨worker, hWorker⟩
      rw [hNobody worker] at hWorker
      contradiction
    have hPending : s.wake.pending = true := by
      rcases hQueues with hQueue | hQueue
      · have hCases := (hAwake.responses hQueue).imp_right fun h => h.resolve_left hNone
        rw [hPoint] at hCases
        exact hCases.resolve_right nofun
      · have hCases := (hAwake.closes hQueue).imp_right fun h => h.resolve_left hNone
        rw [hPoint] at hCases
        exact hCases.resolve_right nofun
    refine ⟨hPending, ?_, fun now => ?_⟩
    · simp [step, hPoint, hPending]
    · simp [step, hPoint, hPending]

/-- Replies are queued after the last taking, and the eventfd is written before the wait. -/
def lateReplies : List Action :=
  let result : WorkerResult :=
    { connectionId := 1, generation := 1, messages := [{ connectionId := 1, data := [65] }] }
  [.push 0 result, .signal 0, .ready { fd := 4, readable := true } [], .event {}, .readWake,
    .readWake, .takeCloses, .takeResponses, .deliver {}, .takeClosesAgain, .endDrain,
    .takeCloses, .takeResponses, .push 1 result, .takeClosesAgain, .signal 1, .endDrain]

theorem no_lost_wakeup_lateReplies :
    ∃ s, run (step {}) (.init ⟨3, 4, by decide⟩) lateReplies = some s ∧
      s.server.responseQueue.length = 1 ∧ s.wake.pending = true ∧
      ∀ now, step {} s (.timeout now) = none := by
  have hAll := fun s hRun => no_lost_wakeup {} ⟨3, 4, by decide⟩ lateReplies s hRun
  obtain ⟨hPending, -, hBlocks⟩ := (hAll _ rfl).2.2 rfl (.inl (by decide)) (fun _ => rfl)
  exact ⟨_, rfl, rfl, hPending, hBlocks⟩

/-! ## Back to the wait

What is in front of a point is reached: the handlers end, the eventfd is read until `EAGAIN`,
and a drain goes through what it has taken. -/

section Reach

variable {batch : Option (List EpollEvent)}
  (hAfter : ∀ s : EventLoop, s.point = afterDrain batch →
    CanReach (step config) (fun t => t.point = .waiting) s)

include hAfter

theorem reach_closingAgain (pending : List QueuedClose) :
    ∀ s : EventLoop, s.point = .draining (.closingAgain pending) batch →
      CanReach (step config) (fun t => t.point = .waiting) s := by
  induction pending with
  | nil =>
      intro s hPoint
      exact .of_step .endDrain (by rw [step, hPoint]) (hAfter _ rfl)
  | cons request rest ih =>
      intro s hPoint
      exact .of_step .closeNext (by rw [step, hPoint]) (ih _ rfl)

theorem reach_delivering (pending : List QueuedResponse) :
    ∀ s : EventLoop, s.point = .draining (.delivering pending) batch →
      CanReach (step config) (fun t => t.point = .waiting) s := by
  induction pending with
  | nil =>
      intro s hPoint
      exact .of_step .takeClosesAgain (by rw [step, hPoint]) (reach_closingAgain hAfter _ _ rfl)
  | cons response rest ih =>
      intro s hPoint
      exact .of_step (.deliver {}) (by rw [step, hPoint]) (ih _ rfl)

theorem reach_closing (pending : List QueuedClose) :
    ∀ s : EventLoop, s.point = .draining (.closing pending) batch →
      CanReach (step config) (fun t => t.point = .waiting) s := by
  induction pending with
  | nil =>
      intro s hPoint
      exact .of_step .takeResponses (by rw [step, hPoint]) (reach_delivering hAfter _ _ rfl)
  | cons request rest ih =>
      intro s hPoint
      exact .of_step .closeNext (by rw [step, hPoint]) (ih _ rfl)

/-- Every drain comes to an end. -/
theorem reach_draining (stage : Stage) (s : EventLoop) (hPoint : s.point = .draining stage batch) :
    CanReach (step config) (fun t => t.point = .waiting) s := by
  cases stage with
  | requested =>
      exact .of_step .takeCloses (by rw [step, hPoint]) (reach_closing hAfter _ _ rfl)
  | closing pending => exact reach_closing hAfter pending s hPoint
  | delivering pending => exact reach_delivering hAfter pending s hPoint
  | closingAgain pending => exact reach_closingAgain hAfter pending s hPoint

end Reach

theorem reach_readingWake {batch : List EpollEvent}
    (hAfter : ∀ s : EventLoop, s.point = nextEvent batch →
      CanReach (step config) (fun t => t.point = .waiting) s)
    (s : EventLoop) (hPoint : s.point = .readingWake batch) :
    CanReach (step config) (fun t => t.point = .waiting) s := by
  have hDrain : ∀ s : EventLoop, s.point = afterDrain (some batch) →
      CanReach (step config) (fun t => t.point = .waiting) s := hAfter
  have hEagain : ∀ s : EventLoop, s.point = .readingWake batch → s.wake.read = none →
      CanReach (step config) (fun t => t.point = .waiting) s := by
    intro s hPoint hRead
    exact .of_step .readWake (by rw [step, hPoint, hRead])
      (reach_draining hDrain .requested _ rfl)
  cases hRead : s.wake.read with
  | none => exact hEagain s hPoint hRead
  | some wake =>
      have hNone : wake.read = none := EventFd.read_of_read hRead
      exact .of_step .readWake (by rw [step, hPoint, hRead])
        (hEagain { s with wake := wake } hPoint hNone)

/-- Every batch comes to an end.  By induction on the batch. -/
theorem reach_nextEvent (batch : List EpollEvent) :
    ∀ s : EventLoop, s.point = nextEvent batch →
      CanReach (step config) (fun t => t.point = .waiting) s := by
  have hWaits : ∀ s : EventLoop, s.point = afterDrain none →
      CanReach (step config) (fun t => t.point = .waiting) s := fun _ hPoint => .here hPoint
  induction batch with
  | nil => exact fun s hPoint => reach_draining hWaits .requested s hPoint
  | cons event batch ih =>
      intro s hPoint
      have hPoint : s.point = .handling event batch := hPoint
      by_cases hListen : event.fd = s.server.listenFd
      · refine .of_step (.event {}) ?_
          (ih { s with server := s.server.acceptConnections [], point := nextEvent batch } rfl)
        simp [step, hPoint, hListen]
      by_cases hWake : event.fd = s.server.wakeFd
      · refine .of_step (.event {}) ?_
          (reach_readingWake ih { s with point := .readingWake batch } rfl)
        rw [hWake] at hListen
        simp [step, hPoint, hListen, hWake]
      · refine .of_step (.event {}) ?_
          (ih { s with
                server := s.server.processClient config event {}
                point := nextEvent batch } rfl)
        simp [step, hPoint, hListen, hWake]

/-- The reactor gets back to `epoll_wait` from everywhere. -/
theorem exists_run_waiting (config : ServerConfig) (s : EventLoop) :
    CanReach (step config) (fun t => t.point = .waiting) s := by
  have hWaits : ∀ s : EventLoop, s.point = afterDrain none →
      CanReach (step config) (fun t => t.point = .waiting) s := fun _ hPoint => .here hPoint
  cases hPoint : s.point with
  | waiting => exact .here hPoint
  | handling event batch => exact reach_nextEvent (event :: batch) s hPoint
  | readingWake batch => exact reach_readingWake (reach_nextEvent batch) s hPoint
  | draining stage batch =>
      cases batch with
      | none => exact reach_draining hWaits stage s hPoint
      | some batch =>
          have hDrain : ∀ s : EventLoop, s.point = afterDrain (some batch) →
              CanReach (step config) (fun t => t.point = .waiting) s := reach_nextEvent batch
          exact reach_draining hDrain stage s hPoint

end CppChat.Ports.Wakeup
