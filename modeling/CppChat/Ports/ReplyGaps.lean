import CppChat.Verified.LossyQueue
import CppChat.Ports.MessageOrder

/-!
# Gaps in the replies to a batch

When the replies to a packet do not fit into the response queue they are dropped,
and a close request for the connection is queued in the second queue.  The packets
behind it in the batch are processed all the same, and their replies may fit.
`drain_responses` executes the close requests before it swaps the response queue,
so a client usually sees no reply behind a dropped one: its connection is closed
first.  But the two queues are taken under the lock one after the other.  A loss
between the two takings asks for a close that is executed only after the swapped
replies are sent, and replies that are queued behind it before the swap are sent
although the client misses one before them.

## Main results

* `step_submitted`: a task belongs to one connection and one generation.
* `step_flow`: the replies to a batch flow as through a queue that loses batches.
* `replies_gapless`: no gap, in every run in which no reply is queued in between.
* `replies_overtake`: a run with a gap.
-/

namespace CppChat.Ports.ServerRuns

open CppChat.Verified
open CppChat.Verified.EventLog
open CppChat.Verified.LossyQueue
open CppChat.Verified.Transition
open CppChat.Ports.PacketCodec
open CppChat.Ports.Protocol
open CppChat.Ports.Users
open CppChat.Ports.Chat
open CppChat.Ports.Network
open CppChat.Ports.ConnectionTeardown (PoolConfig)

/-! ## The replies to a batch -/

/-- What became of a packet: its place in the batch, what `handle_client_line` returned,
and whether it was queued. -/
structure Answer where
  index : Nat
  out : List OutboundMessage
  queued : Bool

/-- The packets of a task that are finished. -/
def answersOf (log : List Event) (task : Nat) : List Answer :=
  log.filterMap fun event => match event with
    | .finish frame out queued =>
        if frame.task = task then some { index := frame.index, out := out, queued := queued }
        else none
    | _ => none

/-- The messages for a connection among the replies to a packet. -/
def Answer.to (task c : Nat) (answer : Answer) : List (Origin × Bytes) :=
  (answer.out.zip (originsOf { task := task, index := answer.index } answer.out)).filterMap
    fun reply => if reply.1.connectionId = c then some (reply.2, reply.1.data) else none

/-- The connection misses a message. -/
def Answer.isLost (task c : Nat) (answer : Answer) : Bool :=
  !answer.queued && !(answer.to task c).isEmpty

/-- The messages of a batch that `handle_client_line` returned for a connection. -/
def returnedTo (log : List Event) (task c : Nat) : List (Origin × Bytes) :=
  (answersOf log task).flatMap (Answer.to task c)

/-- The messages of a batch that were passed to `send_to_client` for a connection. -/
def passedTo (log : List Event) (task c : Nat) : List (Origin × Bytes) :=
  log.filterMap fun event => match event with
    | .pass origin c' data _ =>
        if origin.frame.task = task ∧ c' = c then some (origin, data) else none
    | _ => none

/-- No gap in the replies of a batch to a connection: its packets are answered in their
order, a prefix of the answers is sent, and nothing behind a dropped answer. -/
structure Gapless (log : List Event) (task c : Nat) : Prop where
  inOrder : ∃ n, (answersOf log task).map Answer.index = List.range n
  sent : passedTo log task c <+: returnedTo log task c
  cut : ∀ answer ∈ answersOf log task, answer.isLost task c = true →
    ∀ message ∈ passedTo log task c, message.1.frame.index < answer.index

/-! ## Overtaking -/

/-- The replies are queued although an earlier packet of the batch has lost its own, the
connection is open, and the drain that will send them does not close it before. -/
def overtakes (config : ServerConfig) (s : Server) (job : Job) (out : List OutboundMessage) :
    Bool :=
  fits config s out &&
    out.any (fun message => message.connectionId == job.connectionId) &&
    (answersOf s.log job.task).any (Answer.isLost job.task job.connectionId) &&
    s.net.isCurrentConnection job.connectionId job.generation &&
    match s.phase with
    | .closing pending =>
        !pending.contains { connectionId := job.connectionId, generation := job.generation }
    | _ => false

/-- The step queues no replies that overtake a close request. -/
def keepsUp (config : ServerConfig) (s : Server) : Action → Bool
  | .work worker =>
      match s.running.lookup worker with
      | some job =>
          match job.current with
          | some (.done out) => !overtakes config s job out
          | _ => true
      | none => true
  | _ => true

/-! ## A task belongs to one connection -/

variable {crypto : Crypto} {config : ServerConfig} {pool : PoolConfig} {s s' : Server}
  {t c g : Nat}

/-- The queued responses with their origins. -/
def Server.queuedItems (s : Server) : List Item := s.net.responseQueue.zip s.origins

theorem queuedItems_of_responses (s : Server) {s' : Server}
    (hResponses : s'.net.responseQueue = s.net.responseQueue)
    (hOrigins : s'.origins = s.origins) : s'.queuedItems = s.queuedItems := by
  rw [Server.queuedItems, hResponses, hOrigins]
  rfl

/-- Whoever has the task runs it for the connection. -/
structure Assigned (s : Server) (t c g : Nat) : Prop where
  number : t < s.nextTask
  job : ∀ w job, s.running.lookup w = some job → job.task = t →
    job.connectionId = c ∧ job.generation = g
  waiting : ∀ task ∈ s.tasks, task.task = t → task.connectionId = c ∧ task.generation = g

/-- The connection has been given out, under no other generation, and its replies are
stamped with it. -/
structure Addressed (s : Server) (t c g : Nat) : Prop where
  old : c < s.net.nextConnectionId
  generation : ∀ g', OpenAt s.net c g' → g' = g
  stamped : ∀ item ∈ s.phase.items ++ s.queuedItems, item.2.frame.task = t →
    item.1.connectionId = c → item.1.generation = g

/-- The task was submitted for this connection. -/
structure Submitted (s : Server) (t c g : Nat) : Prop extends Assigned s t c g, Addressed s t c g

theorem Assigned.of_same (h : Assigned s t c g) (hRunning : s'.running = s.running)
    (hTasks : s'.tasks = s.tasks) (hNext : s'.nextTask = s.nextTask) : Assigned s' t c g := by
  constructor
  · rw [hNext]
    exact h.number
  · rw [hRunning]
    exact h.job
  · rw [hTasks]
    exact h.waiting

/-- A worker goes on with its task. -/
theorem Assigned.update (h : Assigned s t c g) {w : Nat} {job job' : Job}
    (hJob : s.running.lookup w = some job) (hRunning : s'.running = s.running.insert w job')
    (hTask : job'.task = job.task) (hConnection : job'.connectionId = job.connectionId)
    (hGeneration : job'.generation = job.generation) (hTasks : s'.tasks = s.tasks)
    (hNext : s'.nextTask = s.nextTask) : Assigned s' t c g := by
  constructor
  · rw [hNext]
    exact h.number
  · intro v other hOther hIs
    rw [hRunning, UnorderedMap.lookup_insert] at hOther
    split at hOther
    · rw [← Option.some.inj hOther] at hIs ⊢
      rw [hConnection, hGeneration]
      exact h.job w job hJob (hTask.symm.trans hIs)
    · exact h.job v other hOther hIs
  · rw [hTasks]
    exact h.waiting

theorem Assigned.submit (h : Assigned s t c g) (batch : Option (Nat × Nat × List Bytes)) :
    Assigned (s.submit batch) t c g := by
  cases batch with
  | none => exact h
  | some batch =>
      constructor
      · exact Nat.lt_succ_of_lt h.number
      · exact h.job
      · intro task hMem hIs
        rcases List.mem_append.mp hMem with hMem | hMem
        · exact h.waiting task hMem hIs
        · rw [List.mem_singleton.mp hMem] at hIs
          exact absurd hIs (Nat.ne_of_gt h.number)

/-- A task stays with its connection. -/
theorem step_assigned (h : Assigned s t c g) {a : Action}
    (hStep : Stepped crypto config pool s a s') : Assigned s' t c g := by
  cases hStep with
  | @event action r hPhase hEvent hNet =>
      have hMoved : Assigned (s.withNet crypto r.server) t c g := h.of_same rfl rfl rfl
      exact hMoved.submit _
  | @take worker task rest hTasks hThread hFree =>
      constructor
      · exact h.number
      · intro v job hJob hIs
        rw [UnorderedMap.lookup_insert] at hJob
        split at hJob
        · rw [← Option.some.inj hJob] at hIs ⊢
          exact h.waiting task (by rw [hTasks]; exact List.mem_cons_self) hIs
        · exact h.job v job hJob hIs
      · intro other hMem
        exact h.waiting other (by rw [hTasks]; exact List.mem_cons_of_mem _ hMem)
  | call hJob hCurrent => exact h.update hJob rfl rfl rfl rfl rfl rfl
  | push hJob hCurrent => exact h.update hJob rfl rfl rfl rfl rfl rfl
  | start hJob hCurrent hRest => exact h.update hJob rfl rfl rfl rfl rfl rfl
  | @leave worker job hJob hCurrent hRest =>
      constructor
      · exact h.number
      · intro v other hOther hIs
        rw [UnorderedMap.lookup_erase] at hOther
        split at hOther
        · contradiction
        · exact h.job v other hOther hIs
      · exact h.waiting
  | _ => exact h.of_same rfl rfl rfl

/-! ## The queue after a push -/

/-- The replies of a packet are queued behind the others. -/
theorem push_queuedItems_of_fits (h : Wired s) {job : Job} {out : List OutboundMessage}
    (hFits : fits config s out = true) (worker : Nat) :
    (s.push config worker job out).queuedItems =
      s.queuedItems ++ (responsesOf job out).zip (originsOf job.frame out) := by
  unfold Server.queuedItems Server.push
  rw [pushResult_of_fits hFits, if_pos hFits]
  exact List.zip_append h.paired.symm

/-- The replies of a packet do not fit, and none is queued. -/
theorem push_queuedItems_of_full {job : Job} {out : List OutboundMessage}
    (hFull : fits config s out = false) (worker : Nat) :
    (s.push config worker job out).queuedItems = s.queuedItems := by
  unfold Server.queuedItems Server.push
  rw [pushResult_of_full hFull, hFull]
  rfl

theorem frame_of_mem_originsOf {frame : Frame} {out : List OutboundMessage} {origin : Origin}
    (h : origin ∈ originsOf frame out) : origin.frame = frame := by
  obtain ⟨position, -, rfl⟩ := List.mem_map.mp h
  rfl

/-- The new entries are stamped with the generation of the task. -/
theorem generation_of_mem_responsesOf {job : Job} {out : List OutboundMessage}
    {response : QueuedResponse} (h : response ∈ responsesOf job out)
    (hConnection : response.connectionId = job.connectionId) :
    response.generation = job.generation := by
  obtain ⟨message, -, rfl⟩ := List.mem_map.mp h
  exact if_pos hConnection

theorem Addressed.of_items (h : Addressed s t c g) (hNet : ReopensNothing s.net s'.net)
    (hItems : ∀ item ∈ s'.phase.items ++ s'.queuedItems,
      item ∈ s.phase.items ++ s.queuedItems) : Addressed s' t c g where
  old := Nat.lt_of_lt_of_le h.old hNet.1
  generation g' hOpen := h.generation g' (hNet.2 c g' h.old hOpen)
  stamped item hMem := h.stamped item (hItems item hMem)

theorem Addressed.of_responses (h : Addressed s t c g) (hNet : ReopensNothing s.net s'.net)
    (hResponses : s'.net.responseQueue = s.net.responseQueue) (hOrigins : s'.origins = s.origins)
    (hTaken : ∀ item ∈ s'.phase.items, item ∈ s.phase.items) : Addressed s' t c g := by
  refine h.of_items hNet ?_
  rw [queuedItems_of_responses s hResponses hOrigins]
  intro item hMem
  rcases List.mem_append.mp hMem with hMem | hMem
  · exact List.mem_append_left _ (hTaken item hMem)
  · exact List.mem_append_right _ hMem

/-- The replies to a task stay addressed to its connection. -/
theorem step_addressed (hWired : Wired s) (hAssigned : Assigned s t c g)
    (h : Addressed s t c g) {a : Action} (hStep : Stepped crypto config pool s a s') :
    Addressed s' t c g := by
  have hNet := (step_changes hWired.reactor.toInverse hStep).reopensNothing
  cases hStep with
  | @event action r hPhase hEvent hEventNet =>
      obtain ⟨hSame, hOrigins, hSamePhase, -⟩ :=
        submit_net (s.withNet crypto r.server) (batchOf (newEffects s.net r.server) action)
      refine h.of_responses hNet ?_ hOrigins ?_
      · rw [hSame]
        exact (event_untouched (isEvent_ofEvent hEvent) hEventNet).responses
      · rw [hSamePhase]
        exact fun item hMem => hMem
  | drain hPhase =>
      refine h.of_responses hNet rfl rfl ?_
      exact fun item hMem => absurd hMem List.not_mem_nil
  | @closeNext request rest hPhase =>
      refine h.of_responses hNet (untouched_closeIfCurrent s.net request).responses rfl ?_
      exact fun item hMem => absurd hMem List.not_mem_nil
  | @closeNextAgain request rest hPhase =>
      refine h.of_responses hNet (untouched_closeIfCurrent s.net request).responses rfl ?_
      exact fun item hMem => absurd hMem List.not_mem_nil
  | swap hPhase =>
      refine h.of_items hNet ?_
      intro item hMem
      have hQueued : item ∈ s.queuedItems := by simpa [Server.queuedItems, Phase.items] using hMem
      exact List.mem_append_right _ hQueued
  | @deliver item rest io hPhase =>
      refine h.of_responses hNet (untouched_deliver config s.net item.1 io).responses rfl ?_
      rw [hPhase]
      exact fun other hMem => List.mem_cons_of_mem item hMem
  | drainAgain hPhase =>
      refine h.of_responses hNet rfl rfl ?_
      exact fun item hMem => absurd hMem List.not_mem_nil
  | endDrain hPhase =>
      refine h.of_responses hNet rfl rfl ?_
      exact fun item hMem => absurd hMem List.not_mem_nil
  | @push worker job out hJob hCurrent =>
      cases hFits : fits config s out with
      | false =>
          refine h.of_items hNet ?_
          rw [push_queuedItems_of_full hFits]
          exact fun item hMem => hMem
      | true =>
          refine ⟨Nat.lt_of_lt_of_le h.old hNet.1,
            fun g' hOpen => h.generation g' (hNet.2 c g' h.old hOpen), ?_⟩
          rw [push_queuedItems_of_fits hWired hFits, ← List.append_assoc]
          intro item hMem hTask hTo
          rcases List.mem_append.mp hMem with hMem | hNew
          · exact h.stamped item hMem hTask hTo
          · obtain ⟨hResponse, hOrigin⟩ := List.of_mem_zip hNew
            rw [frame_of_mem_originsOf hOrigin] at hTask
            obtain ⟨rfl, rfl⟩ := hAssigned.job worker job hJob hTask
            exact generation_of_mem_responsesOf hResponse hTo
  | _ => exact h.of_items hNet fun item hMem => hMem

theorem step_submitted (hWired : Wired s) (h : Submitted s t c g) {a : Action}
    (hStep : Stepped crypto config pool s a s') : Submitted s' t c g where
  toAssigned := step_assigned h.toAssigned hStep
  toAddressed := step_addressed hWired h.toAssigned h.toAddressed hStep

/-! ## The flow of the replies -/

/-- The messages of a batch for a connection among some responses. -/
def itemsTo (items : List Item) (task c : Nat) : List (Origin × Bytes) :=
  items.filterMap fun item =>
    if item.2.frame.task = task ∧ item.1.connectionId = c then some (item.2, item.1.data)
    else none

/-- The close requests a drain has taken. -/
def Phase.closes : Phase → List QueuedClose
  | .closing pending | .closingAgain pending => pending
  | _ => []

/-- A close request for the connection is on its way. -/
def Server.Asked (s : Server) (c g : Nat) : Prop :=
  { connectionId := c, generation := g } ∈ s.net.closeQueue ++ s.phase.closes

/-- If the response queue is about to be swapped, the connection is closed before. -/
def Server.Coming (s : Server) (c g : Nat) : Prop :=
  ∀ pending, s.phase = .closing pending → { connectionId := c, generation := g } ∈ pending

/-- The replies of a batch to its connection, passed on, swapped out and queued. -/
def Server.Flows (s : Server) (t c g : Nat) : Prop :=
  Flow (Answer.to t c) (Answer.isLost t c) (answersOf s.log t) (passedTo s.log t c)
    (itemsTo s.phase.items t c) (itemsTo s.queuedItems t c) (OpenAt s.net c g)
    (s.Asked c g) (s.Coming c g)

theorem answersOf_append (log more : List Event) (t : Nat) :
    answersOf (log ++ more) t = answersOf log t ++ answersOf more t :=
  List.filterMap_append

theorem passedTo_append (log more : List Event) (t c : Nat) :
    passedTo (log ++ more) t c = passedTo log t c ++ passedTo more t c :=
  List.filterMap_append

theorem itemsTo_append (items more : List Item) (t c : Nat) :
    itemsTo (items ++ more) t c = itemsTo items t c ++ itemsTo more t c :=
  List.filterMap_append

/-- A step that moves no reply of the batch. -/
theorem Server.Flows.of_same (h : s.Flows t c g) {more : List Event}
    (hLog : s'.log = s.log ++ more) (hAnswers : answersOf more t = [])
    (hPassed : passedTo more t c = [])
    (hItems : itemsTo s'.phase.items t c = itemsTo s.phase.items t c)
    (hQueued : itemsTo s'.queuedItems t c = itemsTo s.queuedItems t c)
    (hOpen : OpenAt s'.net c g → OpenAt s.net c g)
    (hAsked : OpenAt s'.net c g → s.Asked c g → s'.Asked c g)
    (hComing : OpenAt s'.net c g → s.Asked c g → s.Coming c g → s'.Coming c g) :
    s'.Flows t c g := by
  unfold Server.Flows
  rw [hLog, answersOf_append, passedTo_append, hAnswers, hPassed, List.append_nil,
    List.append_nil, hItems, hQueued]
  exact h.mono hOpen hAsked hComing

/-- A step that moves no reply at all. -/
theorem Server.Flows.of_quiet (h : s.Flows t c g) (hLog : s'.log = s.log)
    (hItems : s'.phase.items = s.phase.items)
    (hResponses : s'.net.responseQueue = s.net.responseQueue) (hOrigins : s'.origins = s.origins)
    (hOpen : OpenAt s'.net c g → OpenAt s.net c g)
    (hAsked : OpenAt s'.net c g → s.Asked c g → s'.Asked c g)
    (hComing : OpenAt s'.net c g → s.Asked c g → s.Coming c g → s'.Coming c g) :
    s'.Flows t c g := by
  have hNoMore : s'.log = s.log ++ [] := by rw [hLog, List.append_nil]
  refine h.of_same hNoMore rfl rfl (by rw [hItems]) ?_ hOpen hAsked hComing
  rw [queuedItems_of_responses s hResponses hOrigins]

/-- An executed close request closes its connection. -/
theorem not_openAt_closeIfCurrent (srv : TcpServer) (c g : Nat) :
    ¬OpenAt (srv.closeIfCurrent { connectionId := c, generation := g }) c g := by
  unfold TcpServer.closeIfCurrent
  split
  · exact not_openAt_closeConnection srv c g
  · rename_i hNot
    exact fun hOpen => hNot hOpen.isCurrentConnection

/-- The other requests are still there. -/
theorem mem_of_openAt_closeIfCurrent {srv : TcpServer} {request : QueuedClose}
    {rest : List QueuedClose} (hOpen : OpenAt (srv.closeIfCurrent request) c g)
    (hMem : { connectionId := c, generation := g } ∈ request :: rest) :
    { connectionId := c, generation := g } ∈ rest := by
  rcases List.mem_cons.mp hMem with rfl | hRest
  · exact absurd hOpen (not_openAt_closeIfCurrent srv c g)
  · exact hRest

theorem mem_closes_of_openAt {srv : TcpServer} {request : QueuedClose}
    {rest : List QueuedClose} (hOpen : OpenAt (srv.closeIfCurrent request) c g)
    (hMem : { connectionId := c, generation := g } ∈ srv.closeQueue ++ request :: rest) :
    { connectionId := c, generation := g } ∈ (srv.closeIfCurrent request).closeQueue ++ rest := by
  rw [(untouched_closeIfCurrent srv request).closes]
  rcases List.mem_append.mp hMem with hMem | hMem
  · exact List.mem_append_left _ hMem
  · exact List.mem_append_right _ (mem_of_openAt_closeIfCurrent hOpen hMem)

/-- The new entries of the queue are the packet's replies. -/
theorem itemsTo_replies (job : Job) (out : List OutboundMessage) (queued : Bool) (c : Nat) :
    itemsTo ((responsesOf job out).zip (originsOf job.frame out)) job.task c =
      Answer.to job.task c { index := job.index, out := out, queued := queued } := by
  unfold itemsTo Answer.to responsesOf
  rw [List.zip_map_left, List.filterMap_map]
  apply List.filterMap_congr
  rintro ⟨message, origin⟩ hMem
  have hFrame := frame_of_mem_originsOf (List.of_mem_zip hMem).2
  simp [hFrame, Job.frame]

theorem itemsTo_replies_of_ne {job : Job} (h : job.task ≠ t) (out : List OutboundMessage)
    (c : Nat) : itemsTo ((responsesOf job out).zip (originsOf job.frame out)) t c = [] := by
  unfold itemsTo
  rw [List.filterMap_eq_nil_iff]
  rintro ⟨response, origin⟩ hMem
  have hFrame := frame_of_mem_originsOf (List.of_mem_zip hMem).2
  simp [hFrame, Job.frame, h]

theorem answer_to_ne_nil {answer : Answer} (h : answer.to t c ≠ []) :
    answer.out.any (fun message => message.connectionId == c) = true := by
  obtain ⟨reply, hMem⟩ := List.exists_mem_of_ne_nil _ h
  obtain ⟨⟨message, origin⟩, hZip, hSome⟩ := List.mem_filterMap.mp hMem
  split at hSome
  · rename_i hTo
    exact List.any_eq_true.mpr ⟨message, (List.of_mem_zip hZip).1, by simpa using hTo⟩
  · contradiction

/-- A push that keeps up queues nothing of the batch behind a loss before the swap. -/
theorem coming_of_not_overtakes {job : Job} {out : List OutboundMessage} {queued : Bool}
    (hNot : overtakes config s job out = false) (hFits : fits config s out = true)
    (hOpen : OpenAt s.net job.connectionId job.generation)
    (hLost : ∃ answer ∈ answersOf s.log job.task,
      answer.isLost job.task job.connectionId = true)
    (hTo : Answer.to job.task job.connectionId
      { index := job.index, out := out, queued := queued } ≠ []) :
    s.Coming job.connectionId job.generation := by
  intro pending hPhase
  have hAny := answer_to_ne_nil hTo
  have hLost : (answersOf s.log job.task).any (Answer.isLost job.task job.connectionId) = true :=
    List.any_eq_true.mpr hLost
  unfold overtakes at hNot
  rw [hFits, hAny, hLost, hOpen.isCurrentConnection, hPhase] at hNot
  simpa using hNot

/-- A push leaves the connections and the drain alone, and takes no close request back. -/
theorem push_asked (h : s.Asked c g) (worker : Nat) (job : Job) (out : List OutboundMessage) :
    (s.push config worker job out).Asked c g := by
  cases hFits : fits config s out with
  | true =>
      unfold Server.Asked Server.push
      rw [pushResult_of_fits hFits]
      exact h
  | false =>
      unfold Server.Asked Server.push
      rw [pushResult_of_full hFits]
      rcases List.mem_append.mp h with hMem | hMem
      · exact List.mem_append_left _ (List.mem_append_left _ hMem)
      · exact List.mem_append_right _ hMem

theorem openAt_push {worker : Nat} {job : Job} {out : List OutboundMessage}
    (h : OpenAt (s.push config worker job out).net c g) : OpenAt s.net c g := by
  have hSame : (s.push config worker job out).net.connections = s.net.connections := by
    show (s.net.pushResult config (resultOf job out)).connections = _
    obtain ⟨_, _, hPushed⟩ := s.net.pushResult_queues config (resultOf job out)
    rw [hPushed]
  unfold OpenAt at h
  rw [hSame] at h
  exact h

/-- The end of a packet of the batch: its replies are queued behind the others, or lost
with a close request. -/
theorem flows_push (hWired : Wired s) {worker : Nat} {job : Job} {out : List OutboundMessage}
    (hKeepsUp : overtakes config s job out = false)
    (h : s.Flows job.task job.connectionId job.generation) :
    (s.push config worker job out).Flows job.task job.connectionId job.generation := by
  let answer : Answer := { index := job.index, out := out, queued := fits config s out }
  have hAnswers : answersOf (s.push config worker job out).log job.task =
      answersOf s.log job.task ++ [answer] := by
    show answersOf (s.log ++ [_]) job.task = _
    rw [answersOf_append]
    simp [answersOf, Job.frame, answer]
  have hPassed : passedTo (s.push config worker job out).log job.task job.connectionId =
      passedTo s.log job.task job.connectionId := by
    show passedTo (s.log ++ [_]) job.task job.connectionId = _
    rw [passedTo_append]
    exact List.append_nil _
  unfold Server.Flows
  rw [hAnswers, hPassed]
  cases hFits : fits config s out with
  | true =>
      have hKept : answer.isLost job.task job.connectionId = false := by
        simp [Answer.isLost, answer, hFits]
      have hQueue := h.queue hKept fun hOpen hLost hTo =>
        coming_of_not_overtakes hKeepsUp hFits hOpen hLost hTo
      rw [push_queuedItems_of_fits hWired hFits, itemsTo_append, itemsTo_replies _ _ answer.queued]
      exact hQueue.mono openAt_push (fun _ hAsked => push_asked hAsked worker job out)
        (fun _ _ hComing => hComing)
  | false =>
      rw [push_queuedItems_of_full hFits]
      have hAsked : (s.push config worker job out).Asked job.connectionId job.generation := by
        unfold Server.Asked Server.push
        rw [pushResult_of_full hFits]
        exact List.mem_append_left _ (List.mem_append_right _ (List.mem_singleton_self _))
      by_cases hTo : answer.to job.task job.connectionId = []
      · -- the packet had nothing to say to its own connection
        have hKept : answer.isLost job.task job.connectionId = false := by
          simp [Answer.isLost, hTo]
        have hQueue := h.queue hKept fun _ _ hNe => absurd hTo hNe
        rw [hTo, List.append_nil] at hQueue
        exact hQueue.mono openAt_push (fun _ _ => hAsked) (fun _ _ hComing => hComing)
      · have hLost : answer.isLost job.task job.connectionId = true := by
          simp [Answer.isLost, answer, hFits] at hTo ⊢
          exact hTo
        have hLose := h.lose hLost hAsked fun hComing => hComing
        exact hLose.mono openAt_push (fun _ hAsked => hAsked) (fun _ _ hComing => hComing)

/-- A response is passed on, or its connection is closed. -/
theorem flows_deliver (hSubmitted : Submitted s t c g) (h : s.Flows t c g) {item : Item}
    {rest : List Item} (io : SendIo) (hPhase : s.phase = .delivering (item :: rest))
    (hOpen : OpenAt (s.deliver crypto config item rest io).net c g → OpenAt s.net c g) :
    (s.deliver crypto config item rest io).Flows t c g := by
  have hQueues := untouched_deliver config s.net item.1 io
  have hQueued : (s.deliver crypto config item rest io).queuedItems = s.queuedItems :=
    queuedItems_of_responses s hQueues.responses rfl
  have hAsked : s.Asked c g → (s.deliver crypto config item rest io).Asked c g := by
    intro hBefore
    unfold Server.Asked at hBefore
    rw [hPhase, ← hQueues.closes] at hBefore
    exact hBefore
  have hComing : (s.deliver crypto config item rest io).Coming c g :=
    fun pending hEq => by contradiction
  have hTaken : itemsTo s.phase.items t c = itemsTo (item :: rest) t c := by rw [hPhase]; rfl
  unfold Server.Flows at h ⊢
  rw [hTaken] at h
  rw [hQueued]
  cases hCurrent : s.net.isCurrentConnection item.1.connectionId item.1.generation with
  | true =>
      obtain ⟨sent, hLog⟩ : ∃ sent, (s.deliver crypto config item rest io).log =
          s.log ++ [Event.pass item.2 item.1.connectionId item.1.data sent] :=
        ⟨_, if_pos hCurrent⟩
      have hAnswers : answersOf (s.deliver crypto config item rest io).log t =
          answersOf s.log t := by
        rw [hLog, answersOf_append]
        exact List.append_nil _
      rw [hAnswers, hLog, passedTo_append]
      by_cases hOurs : item.2.frame.task = t ∧ item.1.connectionId = c
      · obtain ⟨g', hNow⟩ := openAt_of_isCurrentConnection hCurrent
        rw [hOurs.2] at hNow
        rw [hSubmitted.generation g' hNow] at hNow
        simp only [itemsTo, passedTo, List.filterMap_cons, hOurs, and_self, if_true] at h ⊢
        exact h.pass hNow (fun _ => hAsked) (fun _ _ => hComing)
      · simp only [itemsTo, passedTo, List.filterMap_cons, hOurs, if_false] at h ⊢
        rw [List.filterMap_nil, List.append_nil]
        exact h.mono hOpen (fun _ => hAsked) (fun _ _ _ => hComing)
  | false =>
      have hLog : (s.deliver crypto config item rest io).log = s.log :=
        if_neg (by rw [hCurrent]; exact Bool.false_ne_true)
      rw [hLog]
      by_cases hOurs : item.2.frame.task = t ∧ item.1.connectionId = c
      · have hStamp : item.1.generation = g := by
          refine hSubmitted.stamped item ?_ hOurs.1 hOurs.2
          rw [hPhase]
          exact List.mem_append_left _ List.mem_cons_self
        have hClosed : ¬OpenAt s.net c g := by
          intro hNow
          rw [hOurs.2, hStamp, hNow.isCurrentConnection] at hCurrent
          contradiction
        exact h.skip (fun hNow => hClosed (hOpen hNow)) _ _
      · simp only [itemsTo, List.filterMap_cons, hOurs, if_false] at h
        exact h.mono hOpen (fun _ => hAsked) (fun _ _ _ => hComing)

theorem passedTo_storedBy (frame : Frame) (op : ServiceCall) (chat : ChatState) (t c : Nat) :
    answersOf (storedBy frame op (op.exec crypto chat).1) t = [] ∧
      passedTo (storedBy frame op (op.exec crypto chat).1) t c = [] := by
  rcases @call_stored crypto frame op chat with ⟨hNone, -⟩ | ⟨hOne, -⟩
  · rw [hNone]
    exact ⟨rfl, rfl⟩
  · rw [hOne]
    exact ⟨rfl, rfl⟩

/-- An event touches neither queue. -/
theorem flows_event {action : Network.Action} {r : Reactor}
    (hEvent : isEvent pool s action = true)
    (hNet : Reactor.step config { server := s.net } action = some r) (h : s.Flows t c g)
    (hOpen : OpenAt r.server c g → OpenAt s.net c g) :
    ((s.withNet crypto r.server).submit
      (batchOf (newEffects s.net r.server) action)).Flows t c g := by
  have hQueues := event_untouched (isEvent_ofEvent hEvent) hNet
  have hMoved : (s.withNet crypto r.server).Flows t c g := by
    refine h.of_quiet rfl rfl hQueues.responses rfl hOpen ?_ (fun _ _ hComing => hComing)
    intro _ hAsked
    unfold Server.Asked at hAsked ⊢
    rw [← hQueues.closes] at hAsked
    exact hAsked
  cases batchOf (newEffects s.net r.server) action with
  | none => exact hMoved
  | some batch =>
      exact hMoved.of_same rfl rfl rfl rfl rfl (fun hNow => hNow)
        (fun _ hAsked => hAsked) (fun _ _ hComing => hComing)

/-- The end of a packet of another batch. -/
theorem flows_push_other (hWired : Wired s) {worker : Nat} {job : Job}
    {out : List OutboundMessage} (hTask : job.task ≠ t) (h : s.Flows t c g) :
    (s.push config worker job out).Flows t c g := by
  refine h.of_same rfl ?_ rfl rfl ?_ openAt_push (fun _ hAsked => push_asked hAsked _ _ _)
    (fun _ _ hComing => hComing)
  · simp [answersOf, Job.frame, hTask]
  · cases hFits : fits config s out with
    | true =>
        rw [push_queuedItems_of_fits hWired hFits, itemsTo_append,
          itemsTo_replies_of_ne hTask, List.append_nil]
    | false => rw [push_queuedItems_of_full hFits]

/-- A step moves replies along, in order.  Only an overflow with the connection
still open would break it. -/
theorem step_flow (hWired : Wired s) (hSubmitted : Submitted s t c g) (h : s.Flows t c g)
    {a : Action} (hKeepsUp : keepsUp config s a = true)
    (hStep : Stepped crypto config pool s a s') : s'.Flows t c g := by
  have hNet := (step_changes hWired.reactor.toInverse hStep).reopensNothing
  have hOpen : OpenAt s'.net c g → OpenAt s.net c g := hNet.2 c g hSubmitted.old
  -- what is asked for, in the phase the step starts from
  have hBefore : s.Asked c g →
      { connectionId := c, generation := g } ∈ s.net.closeQueue ++ s.phase.closes := fun h => h
  cases hStep with
  | @event action r hPhase hEvent hEventNet =>
      rw [(submit_net _ _).1] at hOpen
      exact flows_event hEvent hEventNet h hOpen
  | drain hPhase =>
      rw [hPhase] at hBefore
      refine h.of_quiet rfl (by rw [hPhase]; rfl) rfl rfl hOpen ?_ ?_
      · intro _ hAsked
        simpa [Server.Asked, Phase.closes] using hBefore hAsked
      · intro _ hAsked _ pending hEq
        -- the drain takes every request there is
        injection hEq with hEq
        rw [← hEq]
        simpa [Phase.closes] using hBefore hAsked
  | @closeNext request rest hPhase =>
      rw [hPhase] at hBefore
      have hQueues := untouched_closeIfCurrent s.net request
      refine h.of_quiet rfl (by rw [hPhase]; rfl) hQueues.responses rfl hOpen ?_ ?_
      · exact fun hNow hAsked => mem_closes_of_openAt hNow (hBefore hAsked)
      · intro hNow _ hComing pending hEq
        injection hEq with hEq
        rw [← hEq]
        exact mem_of_openAt_closeIfCurrent hNow (hComing _ hPhase)
  | @closeNextAgain request rest hPhase =>
      rw [hPhase] at hBefore
      have hQueues := untouched_closeIfCurrent s.net request
      refine h.of_quiet rfl (by rw [hPhase]; rfl) hQueues.responses rfl hOpen ?_ ?_
      · exact fun hNow hAsked => mem_closes_of_openAt hNow (hBefore hAsked)
      · exact fun _ _ _ pending hEq => by contradiction
  | swap hPhase =>
      rw [hPhase] at hBefore
      have hNot : ¬s.Coming c g := fun hComing => List.not_mem_nil (hComing [] hPhase)
      have hTaken : itemsTo s.phase.items t c = [] := by rw [hPhase]; rfl
      unfold Server.Flows at h
      rw [hTaken] at h
      exact h.take hOpen (fun _ => hBefore) (fun _ => hNot)
  | @deliver item rest io hPhase => exact flows_deliver hSubmitted h io hPhase hOpen
  | drainAgain hPhase =>
      rw [hPhase] at hBefore
      refine h.of_quiet rfl (by rw [hPhase]; rfl) rfl rfl hOpen ?_ ?_
      · intro _ hAsked
        simpa [Server.Asked, Phase.closes] using hBefore hAsked
      · exact fun _ _ _ pending hEq => by contradiction
  | endDrain hPhase =>
      rw [hPhase] at hBefore
      refine h.of_quiet rfl (by rw [hPhase]; rfl) rfl rfl hOpen (fun _ => hBefore) ?_
      exact fun _ _ _ pending hEq => by contradiction
  | @call worker job op next hJob hCurrent =>
      obtain ⟨hAnswers, hPassed⟩ := @passedTo_storedBy crypto job.frame op s.chat t c
      exact h.of_same rfl hAnswers hPassed rfl rfl hOpen
        (fun _ hAsked => hAsked) (fun _ _ hComing => hComing)
  | @push worker job out hJob hCurrent =>
      by_cases hTask : job.task = t
      · obtain ⟨rfl, rfl⟩ := hSubmitted.job worker job hJob hTask
        subst hTask
        have hNot : overtakes config s job out = false := by
          simpa [keepsUp, hJob, hCurrent] using hKeepsUp
        exact flows_push hWired hNot h
      · exact flows_push_other hWired hTask h
  | start hJob hCurrent hRest =>
      exact h.of_same rfl rfl rfl rfl rfl hOpen
        (fun _ hAsked => hAsked) (fun _ _ hComing => hComing)
  | _ =>
      exact h.of_quiet rfl rfl rfl rfl hOpen (fun _ hAsked => hAsked)
        (fun _ _ hComing => hComing)

/-! ## New batches -/

/-- The answers of a task, by the numbers of their packets. -/
theorem map_index_answersOf (log : List Event) (t : Nat) :
    (answersOf log t).map Answer.index = finishedOf log t := by
  unfold answersOf finishedOf
  rw [List.map_filterMap]
  apply List.filterMap_congr
  intro event _
  cases event with
  | finish frame out queued => by_cases hTask : frame.task = t <;> simp [hTask]
  | _ => rfl

/-- A batch is handed over by a read, for an open connection. -/
theorem read_mem_cases (hWired : Wired s) {a : Action}
    (hStep : Stepped crypto config pool s a s') {payloads : List Bytes}
    (hMem : .read t c g payloads ∈ s'.log) :
    .read t c g payloads ∈ s.log ∨
      ∃ net, s' = (s.withNet crypto net).submit (some (c, g, payloads)) ∧ t = s.nextTask ∧
        OpenAt net c g := by
  cases hStep with
  | @event action r hPhase hEvent hNet =>
      cases hBatch : batchOf (newEffects s.net r.server) action with
      | none =>
          rw [hBatch] at hMem
          exact Or.inl hMem
      | some batch =>
          obtain ⟨c', g', payloads'⟩ := batch
          rw [hBatch] at hMem
          rcases mem_concat_iff.mp hMem with hIn | hEq
          · exact Or.inl hIn
          · injection hEq with hTask hConnection hGeneration hPayloads
            subst hTask hConnection hGeneration hPayloads
            refine Or.inr ⟨r.server, rfl, rfl, ?_⟩
            cases action with
            | read fd io =>
                rw [← Option.some.inj hNet] at hBatch ⊢
                obtain ⟨effects, hLog, hOpen⟩ :=
                  handleClientRead_taskOpen config hWired.reactor.toInverse fd io
                have hNew : newEffects s.net (s.net.handleClientRead config fd io) = effects := by
                  rw [newEffects, hLog, List.drop_left]
                have hFound : enqueued effects = some (c, g, payloads) := by
                  rw [← hNew]
                  exact hBatch
                obtain ⟨effect, hEffect, hSome⟩ := List.exists_of_findSome?_eq_some hFound
                split at hSome
                · injection hSome with hSome
                  injection hSome with hc hRest
                  injection hRest with hg hp
                  subst hc hg hp
                  exact hOpen _ _ _ hEffect
                · contradiction
            | _ => contradiction
  | @deliver item rest io hPhase =>
      unfold Server.deliver at hMem
      dsimp only at hMem
      split at hMem
      · exact Or.inl (mem_of_mem_concat hMem fun hEq => by contradiction)
      · exact Or.inl hMem
  | @call worker job op next hJob hCurrent =>
      have hMem : _ ∈ s.log ++ storedBy job.frame op (op.exec crypto s.chat).1 := hMem
      rcases @call_stored crypto job.frame op s.chat with ⟨hNone, -⟩ | ⟨hOne, -⟩
      · rw [hNone, List.append_nil] at hMem
        exact Or.inl hMem
      · rw [hOne] at hMem
        exact Or.inl (mem_of_mem_concat hMem fun hEq => by contradiction)
  | push hJob hCurrent => exact Or.inl (mem_of_mem_concat hMem fun hEq => by contradiction)
  | start hJob hCurrent hRest => exact Or.inl (mem_of_mem_concat hMem fun hEq => by contradiction)
  | _ => exact Or.inl hMem

/-- Of a task that waits there are no replies yet. -/
theorem InOrder.replies_of_waiting (h : InOrder s) (hWaiting : t ∈ s.tasks.map Task.task) :
    answersOf s.log t = [] ∧ passedTo s.log t c = [] ∧
      ∀ item ∈ s.phase.items ++ s.queuedItems, item.2.frame.task ≠ t := by
  have hNone : ∀ f, Finished s.log f → f.task ≠ t := by
    rintro f hFinished rfl
    have hMem := mem_finishedOf.mpr hFinished
    rw [(h.booked.waiting _ hWaiting).2] at hMem
    contradiction
  refine ⟨?_, ?_, ?_⟩
  · rw [← List.map_eq_nil_iff, map_index_answersOf]
    exact (h.booked.waiting t hWaiting).2
  · unfold passedTo
    rw [List.filterMap_eq_nil_iff]
    intro event hMem
    cases event with
    | pass origin c' data sent => simp [hNone _ (h.finished_of_pass hMem)]
    | _ => rfl
  · intro item hMem
    apply hNone
    apply h.laned.finished
    unfold Server.lane
    rcases List.mem_append.mp hMem with hTaken | hQueued
    · refine List.mem_append_left _ (List.mem_append_right _ ?_)
      exact List.mem_map_of_mem hTaken
    · refine List.mem_append_right _ ?_
      exact List.mem_map_of_mem (List.of_mem_zip hQueued).2

theorem itemsTo_eq_nil {items : List Item} (h : ∀ item ∈ items, item.2.frame.task ≠ t) :
    itemsTo items t c = [] := by
  unfold itemsTo
  rw [List.filterMap_eq_nil_iff]
  intro item hMem
  simp [h item hMem]

/-- A new batch belongs to the connection it was read from, and has no replies. -/
theorem submitted_new {net : TcpServer} {payloads : List Bytes} (hBooked : Booked s)
    (hOpen : OpenAt net c g)
    (h : InOrder ((s.withNet crypto net).submit (some (c, g, payloads)))) :
    Submitted ((s.withNet crypto net).submit (some (c, g, payloads))) s.nextTask c g ∧
      ((s.withNet crypto net).submit (some (c, g, payloads))).Flows s.nextTask c g := by
  have hWaiting : s.nextTask ∈
      ((s.withNet crypto net).submit (some (c, g, payloads))).tasks.map Task.task := by
    simp [Server.submit, Server.withNet]
  obtain ⟨hAnswers, hPassed, hItems⟩ := @InOrder.replies_of_waiting _ _ c h hWaiting
  refine ⟨⟨⟨Nat.lt_succ_self _, ?_, ?_⟩, ?_, ?_, ?_⟩, ?_⟩
  · intro w job hJob hIs
    have hLt := hBooked.owned_lt w job.task (owned_eq_some hJob)
    omega
  · intro task hMem hIs
    rcases List.mem_append.mp hMem with hOld | hNew
    · have hLt := hBooked.task_lt task.task (List.mem_map_of_mem hOld)
      omega
    · rw [List.mem_singleton.mp hNew]
      exact ⟨rfl, rfl⟩
  · obtain ⟨connection, hLookup, -⟩ := hOpen
    exact (h.wired.reactor.below c connection hLookup).1
  · exact fun g' hOpen' => hOpen'.generation_eq hOpen
  · exact fun item hMem hTask => absurd hTask (hItems item hMem)
  · unfold Server.Flows
    rw [hAnswers, hPassed,
      itemsTo_eq_nil fun item hMem => hItems item (List.mem_append_left _ hMem),
      itemsTo_eq_nil fun item hMem => hItems item (List.mem_append_right _ hMem)]
    exact Flow.empty _ _ _

/-! ## Every run -/

/-- Every batch flows. -/
structure Flowing (s : Server) : Prop where
  inOrder : InOrder s
  flows : ∀ t c g payloads, .read t c g payloads ∈ s.log → Submitted s t c g ∧ s.Flows t c g

/-- The same for every task. -/
theorem step_flowing (s : Server) (a : Action) (s' : Server) (h : Flowing s)
    (hKeepsUp : keepsUp config s a = true) (hStep : step crypto config pool s a = some s') :
    Flowing s' := by
  have hInOrder := step_inOrder s a s' h.inOrder hStep
  have hWired := h.inOrder.wired
  refine ⟨hInOrder, ?_⟩
  intro t c g payloads hMem
  rcases read_mem_cases hWired (stepped hStep) hMem with hOld | ⟨net, rfl, rfl, hOpen⟩
  · obtain ⟨hSubmitted, hFlows⟩ := h.flows t c g payloads hOld
    exact ⟨step_submitted hWired hSubmitted (stepped hStep),
      step_flow hWired hSubmitted hFlows hKeepsUp (stepped hStep)⟩
  · exact submitted_new h.inOrder.booked hOpen hInOrder

theorem flowing_init (listenFd wakeFd : Nat) : Flowing (Server.init listenFd wakeFd) :=
  ⟨inOrder_init listenFd wakeFd, fun _ _ _ _ hMem => absurd hMem List.not_mem_nil⟩

/-- In every run in which no worker queues replies that overtake a close request, the
replies to a batch reach its connection without a gap. -/
theorem replies_gapless (crypto : Crypto) (config : ServerConfig) (pool : PoolConfig)
    (listenFd wakeFd : Nat) (acts : List Action) (s : Server)
    (hMeet : StepsMeet (step crypto config pool) (fun s a => keepsUp config s a = true)
      (Server.init listenFd wakeFd) acts)
    (hRun : run (step crypto config pool) (Server.init listenFd wakeFd) acts = some s)
    (task c generation : Nat) (payloads : List Bytes)
    (hRead : .read task c generation payloads ∈ s.log) : Gapless s.log task c := by
  have h : Flowing s := run_invariant_of_stepsMeet step_flowing acts _ s
    (flowing_init listenFd wakeFd) hMeet hRun
  obtain ⟨-, hFlows⟩ := h.flows task c generation payloads hRead
  obtain ⟨n, hOrder⟩ := h.inOrder.booked.inOrder task
  have hIndexes : (answersOf s.log task).map Answer.index = List.range n := by
    rw [map_index_answersOf, hOrder]
  have hIncreasing : (answersOf s.log task).Pairwise fun a a' => a.index < a'.index := by
    rw [← List.pairwise_map, hIndexes]
    exact List.pairwise_lt_range
  refine ⟨⟨n, hIndexes⟩, hFlows.passed_prefix_produced, ?_⟩
  intro answer hMem hLost message hMessage
  have hKept := hFlows.kept.subset hMessage
  obtain ⟨earlier, -, hOf, hLt⟩ := mem_untilLoss_lt hIncreasing hKept hMem hLost
  obtain ⟨⟨reply, origin⟩, hZip, hSome⟩ := List.mem_filterMap.mp hOf
  have hFrame := frame_of_mem_originsOf (List.of_mem_zip hZip).2
  split at hSome
  · rw [← Option.some.inj hSome, hFrame]
    exact hLt
  · contradiction

/-! ## Alice misses an ack -/

/-- The payload of a `ping` request. -/
def pingLine : Bytes := ascii "\x7b\"type\":\"ping\"\x7d"

/-- Four replies are queued, and there is room for one more. -/
def roomForOne : ServerConfig := { maxResponseQueueSize := 5 }

/-- A ping, a message to Bob and a ping.  The drain has taken the close requests when
the replies to the message do not fit, nor does the second pong. -/
def lostInDrain : List Action :=
  enterBoth ++ [.event (.read 7 (readOf [pingLine, dmToBob "one", pingLine])), .take 0] ++
  List.replicate 2 (.work 0) ++ [.drain] ++ List.replicate 8 (.work 0) ++ [.swap] ++
  List.replicate 5 (.deliver {}) ++ [.drainAgain, .closeNext, .closeNext, .endDrain]

/-- Alice gets the first pong, and is then disconnected. -/
theorem replies_gapless_lostInDrain :
    ∃ s, run (step sampleCrypto roomForOne ⟨2, 4⟩) (Server.init 3 4) lostInDrain = some s ∧
      .read 2 1 1 [pingLine, dmToBob "one", pingLine] ∈ s.log ∧ Gapless s.log 2 1 ∧
      (passedTo s.log 2 1).length = 1 ∧ (returnedTo s.log 2 1).length = 3 ∧
      s.net.isCurrentConnection 1 1 = false := by
  have hRun : (run (step sampleCrypto roomForOne ⟨2, 4⟩) (Server.init 3 4) lostInDrain).map
        (fun s => decide (.read 2 1 1 [pingLine, dmToBob "one", pingLine] ∈ s.log ∧
          (passedTo s.log 2 1).length = 1 ∧ (returnedTo s.log 2 1).length = 3 ∧
          s.net.isCurrentConnection 1 1 = false)) = some true ∧
      StepsMeet (step sampleCrypto roomForOne ⟨2, 4⟩)
        (fun s a => keepsUp roomForOne s a = true) (Server.init 3 4) lostInDrain := by
    decide +kernel
  obtain ⟨hMapped, hMeet⟩ := hRun
  obtain ⟨s, hRun, hView⟩ := Option.map_eq_some_iff.mp hMapped
  obtain ⟨hRead, hPassed, hReturned, hClosed⟩ := of_decide_eq_true hView
  exact ⟨s, hRun, hRead, replies_gapless sampleCrypto roomForOne ⟨2, 4⟩ 3 4 lostInDrain s hMeet
    hRun 2 1 1 _ hRead, hPassed, hReturned, hClosed⟩

/-- A message to Bob and a ping.  Both are finished after the drain has taken the close
requests and before it swaps the responses. -/
def missedAck : List Action :=
  enterBoth ++ [.event (.read 7 (readOf [dmToBob "one", pingLine])), .take 0] ++
  List.replicate 5 (.work 0) ++ [.drain] ++ List.replicate 3 (.work 0) ++ [.swap] ++
  List.replicate 5 (.deliver {})

/-- The ack does not fit and is dropped; the pong fits and is sent to Alice, who is still
connected. -/
theorem replies_overtake :
    (run (step sampleCrypto roomForOne ⟨2, 4⟩) (Server.init 3 4) missedAck).map (fun s =>
      decide (
        .read 2 1 1 [dmToBob "one", pingLine] ∈ s.log ∧
        ((returnedTo s.log 2 1).map fun message => message.1.frame.index) = [0, 1] ∧
        ((passedTo s.log 2 1).map fun message => message.1.frame.index) = [1] ∧
        ¬((passedTo s.log 2 1).map Prod.snd <+: (returnedTo s.log 2 1).map Prod.snd) ∧
        (answersOf s.log 2).any (fun answer => answer.index == 0 && answer.isLost 2 1) ∧
        s.net.isCurrentConnection 1 1)) = some true := by
  decide +kernel

end CppChat.Ports.ServerRuns
