import CppChat.Verified.EventLog
import CppChat.Ports.ConnectionTeardown
import CppChat.Ports.ReactorQueues

/-!
# The reactor and the workers together

One thread runs the event loop: it accepts, reads batches of packets and hands
each to the thread pool as one task, and drains the response queue.  A drain
takes the close requests and executes them, swaps the response queue, sends what
it has swapped, and takes and executes the close requests once more.  Every
worker takes the oldest task and runs its packets one after the other, each as
the program of atomic calls of `handle_client_line`; the end of
`process_packet_async` queues the replies, or a close request when they do not
fit.  Each access to shared state is one step, and a schedule is a list of steps.

A packet is known by its number in its task and by the number of the task.  The
queue is accompanied by the origins of its entries, and a log records what
happens to packets and replies; neither has an influence on the run.

## Main results

* `stepped`: everything a step can do.
* `step_booked`: every task has one worker, which starts and finishes its packets in
  order.
* `step_wired`: the reactor keeps its invariant, and every queued response its origin.
-/

namespace CppChat.Ports.ServerRuns

open CppChat.Verified
open CppChat.Verified.AtomicProgram
open CppChat.Verified.Transition
open CppChat.Ports.Protocol
open CppChat.Ports.Users
open CppChat.Ports.Chat
open CppChat.Ports.Network
open CppChat.Ports.ConnectionTeardown (PoolConfig)

/-! ## State -/

/-- A packet: the number of its task, and its place in the batch. -/
structure Frame where
  task : Nat
  index : Nat
deriving DecidableEq, Repr

/-- Where a queued response comes from: the packet, and its place among the
replies to it. -/
structure Origin where
  frame : Frame
  position : Nat
deriving DecidableEq, Repr

/-- What the log records. -/
inductive Event where
  /-- A batch is handed to the thread pool. -/
  | read (task connectionId generation : Nat) (payloads : List Bytes)
  /-- A worker calls `process_packet_async`. -/
  | start (frame : Frame)
  /-- The request appends a message. -/
  | stored (frame : Frame) (messageId : Nat)
  /-- The replies are queued, or dropped because they do not fit. -/
  | finish (frame : Frame) (out : List OutboundMessage) (queued : Bool)
  /-- A response is passed to `send_to_client`, with what that returns. -/
  | pass (origin : Origin) (connectionId : Nat) (data : Bytes) (sent : Bool)
deriving DecidableEq, Repr

/-- A queued task. -/
structure Task where
  task : Nat
  connectionId : Nat
  generation : Nat
  payloads : List Bytes

/-- A task a worker is running: the number of its next or current packet, what is
left of the current request, and the payloads behind it. -/
structure Job where
  task : Nat
  connectionId : Nat
  generation : Nat
  index : Nat := 0
  current : Option (Service (List OutboundMessage)) := none
  rest : List Bytes

/-- The packet a worker is at. -/
def Job.frame (job : Job) : Frame := { task := job.task, index := job.index }

/-- A response and its origin. -/
abbrev Item := QueuedResponse × Origin

/-- Where the event loop is: between two drains, or in one of the three parts of
`drain_responses` with what it has taken from a queue. -/
inductive Phase where
  | events
  | closing (pending : List QueuedClose)
  | delivering (pending : List Item)
  | closingAgain (pending : List QueuedClose)

/-- The reactor, the service, the tasks that wait and those the workers have, and
what has happened. -/
structure Server where
  net : TcpServer
  chat : ChatState := {}
  tasks : List Task := []
  running : UnorderedMap Nat Job := ∅
  phase : Phase := .events
  origins : List Origin := []
  nextTask : Nat := 0
  log : List Event := []

/-- The server at its start. -/
def Server.init (listenFd wakeFd : Nat) : Server :=
  { net := { listenFd := listenFd, wakeFd := wakeFd } }

/-! ## The reactor -/

/-- What the reactor has done between two of its states. -/
def newEffects (before after : TcpServer) : List Effect := after.log.drop before.log.length

/-- `handle_disconnect`, for every connection that was closed. -/
def disconnect (crypto : Crypto) (chat : ChatState) : Effect → ChatState
  | .handleDisconnect c => ((handleDisconnect c).run (ServiceCall.exec crypto) chat).2
  | _ => chat

/-- The reactor has moved on. -/
def Server.withNet (crypto : Crypto) (s : Server) (net : TcpServer) : Server :=
  { s with
    net := net
    chat := (newEffects s.net net).foldl (disconnect crypto) s.chat }

/-- The batch a read has handed to the thread pool. -/
def enqueued (effects : List Effect) : Option (Nat × Nat × List Bytes) :=
  effects.findSome? fun effect => match effect with
    | .enqueue c generation payloads => some (c, generation, payloads)
    | _ => none

/-- Only a read hands something to the thread pool. -/
def batchOf (effects : List Effect) : Network.Action → Option (Nat × Nat × List Bytes)
  | .read _ _ => enqueued effects
  | _ => none

/-- The packets of one read become a task. -/
def Server.submit (s : Server) : Option (Nat × Nat × List Bytes) → Server
  | none => s
  | some (c, generation, payloads) =>
      { s with
        tasks := s.tasks ++
          [{ task := s.nextTask, connectionId := c, generation := generation,
             payloads := payloads }]
        nextTask := s.nextTask + 1
        log := s.log ++ [.read s.nextTask c generation payloads] }

/-- What the event loop does outside a drain.  Whether a batch is taken depends
on the length of the task queue. -/
def isEvent (pool : PoolConfig) (s : Server) : Network.Action → Bool
  | .accept _ => true
  | .close _ => true
  | .closeClient _ => true
  | .read _ io => io.enqueued == decide (s.tasks.length < pool.queueBound)
  | .flush _ _ => true
  | _ => false

/-- The next response of a drain is passed to `send_to_client` if its connection
is the one it was made for. -/
def Server.deliver (crypto : Crypto) (config : ServerConfig) (s : Server) (item : Item)
    (rest : List Item) (io : SendIo) : Server :=
  let response := item.1
  let current := s.net.isCurrentConnection response.connectionId response.generation
  let sent := (s.net.findConnection response.connectionId).any fun connection =>
    (s.net.sendToClient config response.connectionId connection response.data io).1
  let s' := s.withNet crypto (s.net.deliver config response io)
  { s' with
    phase := .delivering rest
    log := if current then s.log ++ [.pass item.2 response.connectionId response.data sent]
      else s.log }

/-! ## The workers -/

/-- The replies of a packet as the network layer gets them. -/
def resultOf (job : Job) (out : List OutboundMessage) : WorkerResult :=
  { connectionId := job.connectionId
    generation := job.generation
    messages := out.map fun message =>
      { connectionId := message.connectionId, data := message.data,
        closeAfterSend := message.closeAfterSend } }

/-- The queue has room for the replies. -/
def fits (config : ServerConfig) (s : Server) (out : List OutboundMessage) : Bool :=
  decide (s.net.responseQueue.length + out.length ≤ config.maxResponseQueueSize)

/-- The origins of the replies to a packet. -/
def originsOf (frame : Frame) (out : List OutboundMessage) : List Origin :=
  (List.range out.length).map fun position => { frame := frame, position := position }

/-- The end of `process_packet_async`. -/
def Server.push (config : ServerConfig) (s : Server) (worker : Nat) (job : Job)
    (out : List OutboundMessage) : Server :=
  { s with
    net := s.net.pushResult config (resultOf job out)
    origins := if fits config s out then s.origins ++ originsOf job.frame out else s.origins
    running := s.running.insert worker { job with current := none, index := job.index + 1 }
    log := s.log ++ [.finish job.frame out (fits config s out)] }

/-- The message id of an append. -/
def storedBy (frame : Frame) : (op : ServiceCall) → op.Result → List Event
  | .append _, stored => [.stored frame (Messages.StoredMessage.id stored)]
  | _, _ => []

/-- The next call of the request a worker is in. -/
def Server.call (crypto : Crypto) (s : Server) (worker : Nat) (job : Job) (op : ServiceCall)
    (next : op.Result → Service (List OutboundMessage)) : Server :=
  let result := (op.exec crypto s.chat).1
  { s with
    chat := (op.exec crypto s.chat).2
    running := s.running.insert worker { job with current := some (next result) }
    log := s.log ++ storedBy job.frame op result }

/-- The next step of a worker: the next call, the end of a packet, the next packet
of the batch, or the end of the batch. -/
def Server.work (crypto : Crypto) (config : ServerConfig) (s : Server) (worker : Nat)
    (job : Job) : Server :=
  match job.current with
  | some (.call op next) => s.call crypto worker job op next
  | some (.done out) => s.push config worker job out
  | none =>
      match job.rest with
      | payload :: rest =>
          { s with
            running := s.running.insert worker
              { job with
                current := some (handleClientLine job.connectionId payload)
                rest := rest }
            log := s.log ++ [.start job.frame] }
      | [] => { s with running := s.running.erase worker }

/-! ## Steps -/

/-- What the event loop and the workers can do next. -/
inductive Action where
  | event (action : Network.Action)
  | drain
  | closeNext
  | swap
  | deliver (io : SendIo)
  | drainAgain
  | endDrain
  | take (worker : Nat)
  | work (worker : Nat)

/-- One step of the event loop, or of one worker. -/
def step (crypto : Crypto) (config : ServerConfig) (pool : PoolConfig) (s : Server) :
    Action → Option Server
  | .event action =>
      match s.phase with
      | .events =>
          if isEvent pool s action then
            (Reactor.step config { server := s.net } action).map fun r =>
              (s.withNet crypto r.server).submit (batchOf (newEffects s.net r.server) action)
          else none
      | _ => none
  | .drain =>
      match s.phase with
      | .events =>
          some { s with
            phase := .closing s.net.closeQueue
            net := { s.net with closeQueue := [] } }
      | _ => none
  | .closeNext =>
      match s.phase with
      | .closing (request :: rest) =>
          some { s.withNet crypto (s.net.closeIfCurrent request) with
            phase := .closing rest }
      | .closingAgain (request :: rest) =>
          some { s.withNet crypto (s.net.closeIfCurrent request) with
            phase := .closingAgain rest }
      | _ => none
  | .swap =>
      match s.phase with
      | .closing [] =>
          some { s with
            phase := .delivering (s.net.responseQueue.zip s.origins)
            net := { s.net with responseQueue := [] }
            origins := [] }
      | _ => none
  | .deliver io =>
      match s.phase with
      | .delivering (item :: rest) => some (s.deliver crypto config item rest io)
      | _ => none
  | .drainAgain =>
      match s.phase with
      | .delivering [] =>
          some { s with
            phase := .closingAgain s.net.closeQueue
            net := { s.net with closeQueue := [] } }
      | _ => none
  | .endDrain =>
      match s.phase with
      | .closingAgain [] => some { s with phase := .events }
      | _ => none
  | .take worker =>
      if worker < pool.numThreads ∧ s.running.lookup worker = none then
        match s.tasks with
        | [] => none
        | task :: rest =>
            some { s with
              tasks := rest
              running := s.running.insert worker
                { task := task.task, connectionId := task.connectionId,
                  generation := task.generation, rest := task.payloads } }
      else none
  | .work worker =>
      (s.running.lookup worker).map fun job => s.work crypto config worker job

/-- Everything a step can do. -/
inductive Stepped (crypto : Crypto) (config : ServerConfig) (pool : PoolConfig) (s : Server) :
    Action → Server → Prop
  | event {action : Network.Action} {r : Reactor} (hPhase : s.phase = .events)
      (hEvent : isEvent pool s action = true)
      (hStep : Reactor.step config { server := s.net } action = some r) :
      Stepped crypto config pool s (.event action)
        ((s.withNet crypto r.server).submit (batchOf (newEffects s.net r.server) action))
  | drain (hPhase : s.phase = .events) :
      Stepped crypto config pool s .drain
        { s with
          phase := .closing s.net.closeQueue
          net := { s.net with closeQueue := [] } }
  | closeNext {request : QueuedClose} {rest : List QueuedClose}
      (hPhase : s.phase = .closing (request :: rest)) :
      Stepped crypto config pool s .closeNext
        { s.withNet crypto (s.net.closeIfCurrent request) with phase := .closing rest }
  | closeNextAgain {request : QueuedClose} {rest : List QueuedClose}
      (hPhase : s.phase = .closingAgain (request :: rest)) :
      Stepped crypto config pool s .closeNext
        { s.withNet crypto (s.net.closeIfCurrent request) with phase := .closingAgain rest }
  | swap (hPhase : s.phase = .closing []) :
      Stepped crypto config pool s .swap
        { s with
          phase := .delivering (s.net.responseQueue.zip s.origins)
          net := { s.net with responseQueue := [] }
          origins := [] }
  | deliver {item : Item} {rest : List Item} (io : SendIo)
      (hPhase : s.phase = .delivering (item :: rest)) :
      Stepped crypto config pool s (.deliver io) (s.deliver crypto config item rest io)
  | drainAgain (hPhase : s.phase = .delivering []) :
      Stepped crypto config pool s .drainAgain
        { s with
          phase := .closingAgain s.net.closeQueue
          net := { s.net with closeQueue := [] } }
  | endDrain (hPhase : s.phase = .closingAgain []) :
      Stepped crypto config pool s .endDrain { s with phase := .events }
  | take {worker : Nat} {task : Task} {rest : List Task} (hTasks : s.tasks = task :: rest)
      (hThread : worker < pool.numThreads) (hFree : s.running.lookup worker = none) :
      Stepped crypto config pool s (.take worker)
        { s with
          tasks := rest
          running := s.running.insert worker
            { task := task.task, connectionId := task.connectionId,
              generation := task.generation, rest := task.payloads } }
  | call {worker : Nat} {job : Job} {op : ServiceCall}
      {next : op.Result → Service (List OutboundMessage)}
      (hJob : s.running.lookup worker = some job)
      (hCurrent : job.current = some (.call op next)) :
      Stepped crypto config pool s (.work worker) (s.call crypto worker job op next)
  | push {worker : Nat} {job : Job} {out : List OutboundMessage}
      (hJob : s.running.lookup worker = some job) (hCurrent : job.current = some (.done out)) :
      Stepped crypto config pool s (.work worker) (s.push config worker job out)
  | start {worker : Nat} {job : Job} {payload : Bytes} {rest : List Bytes}
      (hJob : s.running.lookup worker = some job) (hCurrent : job.current = none)
      (hRest : job.rest = payload :: rest) :
      Stepped crypto config pool s (.work worker)
        { s with
          running := s.running.insert worker
            { job with
              current := some (handleClientLine job.connectionId payload)
              rest := rest }
          log := s.log ++ [.start job.frame] }
  | leave {worker : Nat} {job : Job} (hJob : s.running.lookup worker = some job)
      (hCurrent : job.current = none) (hRest : job.rest = []) :
      Stepped crypto config pool s (.work worker)
        { s with running := s.running.erase worker }

/-- The cases of a step. -/
theorem stepped {crypto : Crypto} {config : ServerConfig} {pool : PoolConfig} {s s' : Server}
    {a : Action} (h : step crypto config pool s a = some s') :
    Stepped crypto config pool s a s' := by
  cases a with
  | event action =>
      rw [step] at h
      split at h
      · rename_i hPhase
        split at h
        · rename_i hEvent
          obtain ⟨r, hStep, rfl⟩ := Option.map_eq_some_iff.mp h
          exact .event hPhase hEvent hStep
        · contradiction
      · contradiction
  | drain =>
      rw [step] at h
      split at h
      · rename_i hPhase
        rw [← Option.some.inj h]
        exact .drain hPhase
      · contradiction
  | closeNext =>
      rw [step] at h
      split at h
      · rename_i hPhase
        rw [← Option.some.inj h]
        exact .closeNext hPhase
      · rename_i hPhase
        rw [← Option.some.inj h]
        exact .closeNextAgain hPhase
      · contradiction
  | swap =>
      rw [step] at h
      split at h
      · rename_i hPhase
        rw [← Option.some.inj h]
        exact .swap hPhase
      · contradiction
  | deliver io =>
      rw [step] at h
      split at h
      · rename_i hPhase
        rw [← Option.some.inj h]
        exact .deliver io hPhase
      · contradiction
  | drainAgain =>
      rw [step] at h
      split at h
      · rename_i hPhase
        rw [← Option.some.inj h]
        exact .drainAgain hPhase
      · contradiction
  | endDrain =>
      rw [step] at h
      split at h
      · rename_i hPhase
        rw [← Option.some.inj h]
        exact .endDrain hPhase
      · contradiction
  | take worker =>
      rw [step] at h
      split at h
      · rename_i hWorker
        split at h
        · contradiction
        · rename_i hTasks
          rw [← Option.some.inj h]
          exact .take hTasks hWorker.1 hWorker.2
      · contradiction
  | work worker =>
      obtain ⟨job, hJob, rfl⟩ := Option.map_eq_some_iff.mp h
      unfold Server.work
      split
      · rename_i hCurrent
        exact .call hJob hCurrent
      · rename_i hCurrent
        exact .push hJob hCurrent
      · rename_i hCurrent
        split
        · rename_i hRest
          exact .start hJob hCurrent hRest
        · rename_i hRest
          exact .leave hJob hCurrent hRest

/-! ## Tasks have numbers -/

/-- The task a worker is running. -/
def Server.owned (s : Server) (worker : Nat) : Option Nat :=
  (s.running.lookup worker).map Job.task

/-- No two tasks in flight have the same number, and the next number is free. -/
structure Numbered (s : Server) : Prop where
  worker_unique : ∀ w w' t, s.owned w = some t → s.owned w' = some t → w = w'
  nodup : (s.tasks.map Task.task).Nodup
  apart : ∀ w t, s.owned w = some t → t ∉ s.tasks.map Task.task
  owned_lt : ∀ w t, s.owned w = some t → t < s.nextTask
  task_lt : ∀ t ∈ s.tasks.map Task.task, t < s.nextTask

/-- The log knows of no other packets of a task than its first ones, started and
finished in order. -/
def startedOf (log : List Event) (task : Nat) : List Nat :=
  log.filterMap fun event => match event with
    | .start frame => if frame.task = task then some frame.index else none
    | _ => none

/-- The packets of a task that have been processed, in the order they were. -/
def finishedOf (log : List Event) (task : Nat) : List Nat :=
  log.filterMap fun event => match event with
    | .finish frame _ _ => if frame.task = task then some frame.index else none
    | _ => none

/-- The number of packets a worker has started. -/
def Job.started (job : Job) : Nat := if job.current.isSome then job.index + 1 else job.index

/-- What the log says of the tasks in flight. -/
structure Recorded (s : Server) : Prop where
  started : ∀ w job, s.running.lookup w = some job →
    startedOf s.log job.task = List.range job.started
  finished : ∀ w job, s.running.lookup w = some job →
    finishedOf s.log job.task = List.range job.index
  waiting : ∀ t ∈ s.tasks.map Task.task, startedOf s.log t = [] ∧ finishedOf s.log t = []
  fresh : ∀ t, s.nextTask ≤ t → startedOf s.log t = [] ∧ finishedOf s.log t = []
  inOrder : ∀ t, ∃ n, finishedOf s.log t = List.range n

/-- The bookkeeping of the tasks. -/
structure Booked (s : Server) : Prop extends Numbered s, Recorded s

variable {crypto : Crypto} {config : ServerConfig} {pool : PoolConfig} {s s' : Server}

/-- The packet an event is a part of the work on. -/
def Event.frame : Event → Option Frame
  | .start frame => some frame
  | .stored frame _ => some frame
  | .finish frame _ _ => some frame
  | _ => none

theorem startedOf_concat (log : List Event) (event : Event) (t : Nat) :
    startedOf (log ++ [event]) t = startedOf log t ++ startedOf [event] t :=
  List.filterMap_append

theorem finishedOf_concat (log : List Event) (event : Event) (t : Nat) :
    finishedOf (log ++ [event]) t = finishedOf log t ++ finishedOf [event] t :=
  List.filterMap_append

/-- An event says nothing about other tasks. -/
theorem startedOf_other {event : Event} {t : Nat}
    (h : ∀ frame, event.frame = some frame → frame.task ≠ t) (log : List Event) :
    startedOf (log ++ [event]) t = startedOf log t := by
  rw [startedOf_concat]
  cases event with
  | start frame => simp [startedOf, h frame rfl]
  | _ => simp [startedOf]

theorem finishedOf_other {event : Event} {t : Nat}
    (h : ∀ frame, event.frame = some frame → frame.task ≠ t) (log : List Event) :
    finishedOf (log ++ [event]) t = finishedOf log t := by
  rw [finishedOf_concat]
  cases event with
  | finish frame out queued => simp [finishedOf, h frame rfl]
  | _ => simp [finishedOf]

/-- The bookkeeping depends on the tasks and on two kinds of events. -/
theorem Booked.congr (h : Booked s) (hRunning : s'.running = s.running)
    (hTasks : s'.tasks = s.tasks) (hNext : s'.nextTask = s.nextTask)
    (hStarted : ∀ t, startedOf s'.log t = startedOf s.log t)
    (hFinished : ∀ t, finishedOf s'.log t = finishedOf s.log t) : Booked s' := by
  have hOwned : s'.owned = s.owned := by
    funext w
    rw [Server.owned, hRunning]
    rfl
  constructor
  · constructor
    · rw [hOwned]
      exact h.worker_unique
    · rw [hTasks]
      exact h.nodup
    · rw [hOwned, hTasks]
      exact h.apart
    · rw [hOwned, hNext]
      exact h.owned_lt
    · rw [hTasks, hNext]
      exact h.task_lt
  · constructor
    · intro w job hJob
      rw [hRunning] at hJob
      rw [hStarted, h.started w job hJob]
    · intro w job hJob
      rw [hRunning] at hJob
      rw [hFinished, h.finished w job hJob]
    · intro t ht
      rw [hTasks] at ht
      rw [hStarted, hFinished]
      exact h.waiting t ht
    · intro t ht
      rw [hNext] at ht
      rw [hStarted, hFinished]
      exact h.fresh t ht
    · intro t
      rw [hFinished]
      exact h.inOrder t

theorem owned_eq_some {w : Nat} {job : Job} (hJob : s.running.lookup w = some job) :
    s.owned w = some job.task := by
  rw [Server.owned, hJob]
  rfl

/-- A worker moves on in its task. -/
theorem Booked.update (h : Booked s) {w : Nat} {job job' : Job}
    (hJob : s.running.lookup w = some job)
    (hRunning : s'.running = s.running.insert w job') (hTask : job'.task = job.task)
    (hTasks : s'.tasks = s.tasks) (hNext : s'.nextTask = s.nextTask)
    (hOther : ∀ t, t ≠ job.task →
      startedOf s'.log t = startedOf s.log t ∧ finishedOf s'.log t = finishedOf s.log t)
    (hStarted : startedOf s'.log job.task = List.range job'.started)
    (hFinished : finishedOf s'.log job.task = List.range job'.index) : Booked s' := by
  have hOwned : s'.owned = s.owned := by
    funext v
    rw [Server.owned, hRunning, UnorderedMap.lookup_insert]
    by_cases hv : v = w
    · rw [if_pos hv, hv, owned_eq_some hJob, ← hTask]
      rfl
    · rw [if_neg hv]
      rfl
  have hOwner : s.owned w = some job.task := owned_eq_some hJob
  -- what the log says of another worker's task is unchanged
  have hApart : ∀ v other, v ≠ w → s.running.lookup v = some other →
      startedOf s'.log other.task = startedOf s.log other.task ∧
        finishedOf s'.log other.task = finishedOf s.log other.task := by
    intro v other hv hOther'
    apply hOther
    intro hSame
    have hOwned' := owned_eq_some hOther'
    rw [hSame] at hOwned'
    exact hv (h.worker_unique v w _ hOwned' hOwner)
  constructor
  · constructor
    · rw [hOwned]
      exact h.worker_unique
    · rw [hTasks]
      exact h.nodup
    · rw [hOwned, hTasks]
      exact h.apart
    · rw [hOwned, hNext]
      exact h.owned_lt
    · rw [hTasks, hNext]
      exact h.task_lt
  · constructor
    · intro v other hOther'
      rw [hRunning, UnorderedMap.lookup_insert] at hOther'
      split at hOther'
      · rw [← Option.some.inj hOther', hTask]
        exact hStarted
      · rename_i hv
        rw [(hApart v other hv hOther').1]
        exact h.started v other hOther'
    · intro v other hOther'
      rw [hRunning, UnorderedMap.lookup_insert] at hOther'
      split at hOther'
      · rw [← Option.some.inj hOther', hTask]
        exact hFinished
      · rename_i hv
        rw [(hApart v other hv hOther').2]
        exact h.finished v other hOther'
    · intro t ht
      rw [hTasks] at ht
      have hNe : t ≠ job.task := fun hEq => h.apart w job.task hOwner (hEq ▸ ht)
      rw [(hOther t hNe).1, (hOther t hNe).2]
      exact h.waiting t ht
    · intro t ht
      rw [hNext] at ht
      have hNe : t ≠ job.task := by
        have hLt := h.owned_lt w job.task hOwner
        omega
      rw [(hOther t hNe).1, (hOther t hNe).2]
      exact h.fresh t ht
    · intro t
      by_cases hNe : t = job.task
      · exact ⟨job'.index, by rw [hNe, hFinished]⟩
      · rw [(hOther t hNe).2]
        exact h.inOrder t

/-- A new task gets a new number. -/
theorem Booked.submit (h : Booked s) (batch : Option (Nat × Nat × List Bytes)) :
    Booked (s.submit batch) := by
  cases batch with
  | none => exact h
  | some batch =>
      obtain ⟨c, generation, payloads⟩ := batch
      have hLog : ∀ t, startedOf (s.log ++ [.read s.nextTask c generation payloads]) t =
            startedOf s.log t ∧
          finishedOf (s.log ++ [.read s.nextTask c generation payloads]) t =
            finishedOf s.log t :=
        fun t => ⟨startedOf_other (fun _ h => by contradiction) _,
          finishedOf_other (fun _ h => by contradiction) _⟩
      have hTasks : ((s.submit (some (c, generation, payloads))).tasks.map Task.task) =
          s.tasks.map Task.task ++ [s.nextTask] := by
        simp [Server.submit]
      constructor
      · constructor
        · exact h.worker_unique
        · rw [hTasks, List.nodup_append]
          refine ⟨h.nodup, List.nodup_singleton _, ?_⟩
          intro t ht t' ht'
          rw [List.mem_singleton.mp ht']
          exact Nat.ne_of_lt (h.task_lt t ht)
        · intro w t hOwned
          have hOwned : s.owned w = some t := hOwned
          rw [hTasks, List.mem_append, List.mem_singleton]
          rintro (hMem | rfl)
          · exact h.apart w t hOwned hMem
          · exact absurd (h.owned_lt w _ hOwned) (Nat.lt_irrefl _)
        · intro w t hOwned
          exact Nat.lt_succ_of_lt (h.owned_lt w t hOwned)
        · rw [hTasks]
          intro t ht
          rcases List.mem_append.mp ht with ht | ht
          · exact Nat.lt_succ_of_lt (h.task_lt t ht)
          · rw [List.mem_singleton.mp ht]
            exact Nat.lt_succ_self _
      · constructor
        · intro w job hJob
          exact (hLog job.task).1.trans (h.started w job hJob)
        · intro w job hJob
          exact (hLog job.task).2.trans (h.finished w job hJob)
        · rw [hTasks]
          intro t ht
          have hNone : startedOf s.log t = [] ∧ finishedOf s.log t = [] := by
            rcases List.mem_append.mp ht with ht | ht
            · exact h.waiting t ht
            · exact h.fresh t (by rw [List.mem_singleton.mp ht])
          exact ⟨(hLog t).1.trans hNone.1, (hLog t).2.trans hNone.2⟩
        · intro t ht
          have hNone := h.fresh t (Nat.le_of_succ_le ht)
          exact ⟨(hLog t).1.trans hNone.1, (hLog t).2.trans hNone.2⟩
        · intro t
          obtain ⟨n, hn⟩ := h.inOrder t
          exact ⟨n, (hLog t).2.trans hn⟩

/-- A worker takes the oldest task. -/
theorem Booked.take (h : Booked s) {task : Task} {rest : List Task}
    (hTasks : s.tasks = task :: rest) (w : Nat) :
    Booked { s with
      tasks := rest
      running := s.running.insert w
        { task := task.task, connectionId := task.connectionId,
          generation := task.generation, rest := task.payloads } } := by
  have hMap : s.tasks.map Task.task = task.task :: rest.map Task.task := by rw [hTasks]; rfl
  have hFirst : task.task ∈ s.tasks.map Task.task := by rw [hMap]; exact List.mem_cons_self
  have hRest : ∀ t ∈ rest.map Task.task, t ∈ s.tasks.map Task.task := by
    intro t ht
    rw [hMap]
    exact List.mem_cons_of_mem _ ht
  have hNodup := h.nodup
  rw [hMap, List.nodup_cons] at hNodup
  have hOwned : ∀ v, Server.owned { s with
        tasks := rest
        running := s.running.insert w
          { task := task.task, connectionId := task.connectionId,
            generation := task.generation, rest := task.payloads } } v =
      if v = w then some task.task else s.owned v := by
    intro v
    rw [Server.owned, UnorderedMap.lookup_insert]
    split <;> rfl
  -- nobody else is running the task
  have hNew : ∀ v, s.owned v ≠ some task.task :=
    fun v hOwner => h.apart v task.task hOwner hFirst
  constructor
  · constructor
    · intro v v' t hv hv'
      rw [hOwned] at hv hv'
      split at hv
      · rename_i hvw
        split at hv'
        · rename_i hvw'
          rw [hvw, hvw']
        · rw [← Option.some.inj hv] at hv'
          exact absurd hv' (hNew v')
      · split at hv'
        · rw [← Option.some.inj hv'] at hv
          exact absurd hv (hNew v)
        · exact h.worker_unique v v' t hv hv'
    · exact hNodup.2
    · intro v t hv
      rw [hOwned] at hv
      split at hv
      · rw [← Option.some.inj hv]
        exact hNodup.1
      · exact fun ht => h.apart v t hv (hRest t ht)
    · intro v t hv
      rw [hOwned] at hv
      split at hv
      · rw [← Option.some.inj hv]
        exact h.task_lt _ hFirst
      · exact h.owned_lt v t hv
    · exact fun t ht => h.task_lt t (hRest t ht)
  · constructor
    · intro v job hJob
      rw [UnorderedMap.lookup_insert] at hJob
      split at hJob
      · rw [← Option.some.inj hJob]
        exact (h.waiting _ hFirst).1
      · exact h.started v job hJob
    · intro v job hJob
      rw [UnorderedMap.lookup_insert] at hJob
      split at hJob
      · rw [← Option.some.inj hJob]
        exact (h.waiting _ hFirst).2
      · exact h.finished v job hJob
    · exact fun t ht => h.waiting t (hRest t ht)
    · exact h.fresh
    · exact h.inOrder

/-- A worker is done with its task. -/
theorem Booked.leave (h : Booked s) (w : Nat) :
    Booked { s with running := s.running.erase w } := by
  have hJob : ∀ {v : Nat} {job : Job}, (s.running.erase w).lookup v = some job →
      s.running.lookup v = some job := by
    intro v job hLookup
    rw [UnorderedMap.lookup_erase] at hLookup
    split at hLookup
    · contradiction
    · exact hLookup
  have hOwned : ∀ {v t : Nat}, Server.owned { s with running := s.running.erase w } v = some t →
      s.owned v = some t := by
    intro v t hOwner
    obtain ⟨job, hLookup, rfl⟩ := Option.map_eq_some_iff.mp hOwner
    exact owned_eq_some (hJob hLookup)
  constructor
  · constructor
    · exact fun v v' t hv hv' => h.worker_unique v v' t (hOwned hv) (hOwned hv')
    · exact h.nodup
    · exact fun v t hv => h.apart v t (hOwned hv)
    · exact fun v t hv => h.owned_lt v t (hOwned hv)
    · exact h.task_lt
  · constructor
    · exact fun v job hLookup => h.started v job (hJob hLookup)
    · exact fun v job hLookup => h.finished v job (hJob hLookup)
    · exact h.waiting
    · exact h.fresh
    · exact h.inOrder

/-- What an append leaves in the log starts and finishes nothing. -/
theorem logged_storedBy (log : List Event) (frame : Frame) (op : ServiceCall)
    (result : op.Result) (t : Nat) :
    startedOf (log ++ storedBy frame op result) t = startedOf log t ∧
      finishedOf (log ++ storedBy frame op result) t = finishedOf log t := by
  cases op with
  | append message =>
      simp only [storedBy, startedOf_concat, finishedOf_concat]
      simp [startedOf, finishedOf]
  | _ => simp [storedBy]

/-- A step keeps the bookkeeping. -/
theorem step_booked (h : Booked s) {a : Action} (hStep : Stepped crypto config pool s a s') :
    Booked s' := by
  cases hStep with
  | @event action r hPhase hEvent hNet =>
      have hMoved : Booked (s.withNet crypto r.server) :=
        h.congr rfl rfl rfl (fun _ => rfl) (fun _ => rfl)
      exact hMoved.submit _
  | drain hPhase => exact h.congr rfl rfl rfl (fun _ => rfl) (fun _ => rfl)
  | closeNext hPhase => exact h.congr rfl rfl rfl (fun _ => rfl) (fun _ => rfl)
  | closeNextAgain hPhase => exact h.congr rfl rfl rfl (fun _ => rfl) (fun _ => rfl)
  | swap hPhase => exact h.congr rfl rfl rfl (fun _ => rfl) (fun _ => rfl)
  | deliver io hPhase =>
      refine h.congr rfl rfl rfl ?_ ?_ <;> intro t <;> unfold Server.deliver <;> dsimp only
      · split
        · exact startedOf_other (fun _ h => by contradiction) _
        · rfl
      · split
        · exact finishedOf_other (fun _ h => by contradiction) _
        · rfl
  | drainAgain hPhase => exact h.congr rfl rfl rfl (fun _ => rfl) (fun _ => rfl)
  | endDrain hPhase => exact h.congr rfl rfl rfl (fun _ => rfl) (fun _ => rfl)
  | take hTasks hThread hFree => exact h.take hTasks _
  | @call worker job op next hJob hCurrent =>
      have hLog := logged_storedBy s.log job.frame op (op.exec crypto s.chat).1
      refine h.update hJob rfl rfl rfl rfl (fun t _ => hLog t) ?_ ?_
      · refine (hLog job.task).1.trans ?_
        rw [h.started worker job hJob]
        simp [Job.started, hCurrent]
      · exact (hLog job.task).2.trans (h.finished worker job hJob)
  | @push worker job out hJob hCurrent =>
      refine h.update hJob rfl rfl rfl rfl ?_ ?_ ?_
      · intro t hNe
        have hFrame : ∀ frame, Event.frame (.finish job.frame out (fits config s out)) =
            some frame → frame.task ≠ t := by
          rintro frame hEq
          rw [← Option.some.inj hEq]
          exact hNe.symm
        exact ⟨startedOf_other hFrame _, finishedOf_other hFrame _⟩
      · show startedOf (s.log ++ [_]) job.task = _
        rw [startedOf_concat, h.started worker job hJob]
        simp [startedOf, Job.started, hCurrent]
      · show finishedOf (s.log ++ [_]) job.task = _
        rw [finishedOf_concat, h.finished worker job hJob]
        simp [finishedOf, Job.frame, List.range_succ]
  | @start worker job payload rest hJob hCurrent hRest =>
      refine h.update hJob rfl rfl rfl rfl ?_ ?_ ?_
      · intro t hNe
        have hFrame : ∀ frame, Event.frame (.start job.frame) = some frame →
            frame.task ≠ t := by
          rintro frame hEq
          rw [← Option.some.inj hEq]
          exact hNe.symm
        exact ⟨startedOf_other hFrame _, finishedOf_other hFrame _⟩
      · show startedOf (s.log ++ [_]) job.task = _
        rw [startedOf_concat, h.started worker job hJob]
        simp [startedOf, Job.started, Job.frame, hCurrent, List.range_succ]
      · show finishedOf (s.log ++ [_]) job.task = _
        rw [finishedOf_concat, h.finished worker job hJob]
        simp [finishedOf]
  | leave hJob hCurrent hRest => exact h.leave _

/-! ## The reactor under the workers -/

/-- The queue entries of a packet's replies. -/
def responsesOf (job : Job) (out : List OutboundMessage) : List QueuedResponse :=
  out.map fun message =>
    { connectionId := message.connectionId
      generation := if message.connectionId = job.connectionId then job.generation else 0
      data := message.data
      closeAfterSend := message.closeAfterSend }

/-- Replies that fit are queued. -/
theorem pushResult_of_fits {job : Job} {out : List OutboundMessage}
    (h : fits config s out = true) :
    s.net.pushResult config (resultOf job out) =
      { s.net with responseQueue := s.net.responseQueue ++ responsesOf job out } := by
  have hRoom := of_decide_eq_true h
  unfold TcpServer.pushResult resultOf
  rw [List.length_map, if_neg (Nat.not_lt.mpr hRoom), List.map_map]
  rfl

/-- Replies that do not fit are dropped, and the connection is to be closed. -/
theorem pushResult_of_full {job : Job} {out : List OutboundMessage}
    (h : fits config s out = false) :
    s.net.pushResult config (resultOf job out) =
      { s.net with closeQueue := s.net.closeQueue ++
          [{ connectionId := job.connectionId, generation := job.generation }] } := by
  have hFull := of_decide_eq_false h
  unfold TcpServer.pushResult resultOf
  rw [List.length_map, if_pos (Nat.not_le.mp hFull)]

theorem isEvent_ofEvent {action : Network.Action} (h : isEvent pool s action = true) :
    action.ofEvent = true := by
  cases action <;> first | rfl | contradiction

theorem submit_net (s : Server) (batch : Option (Nat × Nat × List Bytes)) :
    (s.submit batch).net = s.net ∧ (s.submit batch).origins = s.origins ∧
      (s.submit batch).phase = s.phase ∧ (s.submit batch).chat = s.chat := by
  cases batch <;> exact ⟨rfl, rfl, rfl, rfl⟩

/-- The invariant of the reactor, and an origin for every queued response. -/
structure Wired (s : Server) : Prop where
  reactor : ReactorInv s.net
  paired : s.origins.length = s.net.responseQueue.length

/-- The steps that move the reactor are chains of changes. -/
theorem step_changes {a : Action} (h : Inverse s.net)
    (hStep : Stepped crypto config pool s a s') : Changes s.net s'.net := by
  have hNeutral : ∀ (net : TcpServer), net.connectionByFd = s.net.connectionByFd →
      net.connections = s.net.connections → net.nextConnectionId = s.net.nextConnectionId →
      net.nextGeneration = s.net.nextGeneration → net.log = s.net.log →
        Changes s.net net := by
    intro net hFds hConnections hId hGeneration hLog
    exact .single (.neutral [] (by simp) hFds hConnections hId hGeneration (by simp [hLog]))
  cases hStep with
  | event hPhase hEvent hNet =>
      rw [(submit_net _ _).1]
      exact Network.step_changes h hNet
  | drain hPhase => exact hNeutral _ rfl rfl rfl rfl rfl
  | closeNext hPhase => exact changes_closeIfCurrent _ _
  | closeNextAgain hPhase => exact changes_closeIfCurrent _ _
  | swap hPhase => exact hNeutral _ rfl rfl rfl rfl rfl
  | deliver io hPhase => exact changes_deliver config _ _ io
  | drainAgain hPhase => exact hNeutral _ rfl rfl rfl rfl rfl
  | endDrain hPhase => exact .refl
  | take hTasks hThread hFree => exact .refl
  | call hJob hCurrent => exact .refl
  | push hJob hCurrent => exact changes_pushResult config _ _
  | start hJob hCurrent hRest => exact .refl
  | leave hJob hCurrent hRest => exact .refl

/-- A step keeps each queued reply with its origin. -/
theorem step_wired (h : Wired s) {a : Action} (hStep : Stepped crypto config pool s a s') :
    Wired s' := by
  refine ⟨(step_changes h.reactor.toInverse hStep).inv h.reactor, ?_⟩
  cases hStep with
  | event hPhase hEvent hNet =>
      obtain ⟨hNet', hOrigins, -⟩ := submit_net (s.withNet crypto _) (batchOf _ _)
      rw [hNet', hOrigins]
      have hQueues := event_untouched (isEvent_ofEvent hEvent) hNet
      exact h.paired.trans (congrArg List.length hQueues.responses.symm)
  | @closeNext request rest hPhase =>
      have hQueues := untouched_closeIfCurrent s.net request
      exact h.paired.trans (congrArg List.length hQueues.responses.symm)
  | @closeNextAgain request rest hPhase =>
      have hQueues := untouched_closeIfCurrent s.net request
      exact h.paired.trans (congrArg List.length hQueues.responses.symm)
  | swap hPhase => rfl
  | @deliver item rest io hPhase =>
      have hQueues := untouched_deliver config s.net item.1 io
      exact h.paired.trans (congrArg List.length hQueues.responses.symm)
  | @push worker job out hJob hCurrent =>
      unfold Server.push
      cases hFits : fits config s out with
      | true =>
          rw [pushResult_of_fits hFits]
          simp [h.paired, originsOf, responsesOf]
      | false =>
          rw [pushResult_of_full hFits]
          simp [h.paired]
  | _ => exact h.paired

/-! ## Every run -/

theorem booked_init (listenFd wakeFd : Nat) : Booked (Server.init listenFd wakeFd) := by
  constructor
  · constructor <;> simp [Server.init, Server.owned]
  · constructor <;> simp [Server.init, startedOf, finishedOf]

theorem wired_init (listenFd wakeFd : Nat) : Wired (Server.init listenFd wakeFd) :=
  ⟨reactorInv_init listenFd wakeFd, rfl⟩

end CppChat.Ports.ServerRuns
