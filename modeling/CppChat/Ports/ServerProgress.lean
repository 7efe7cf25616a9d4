import CppChat.Verified.WorkPool
import CppChat.Ports.ConcurrentDelivery

/-!
# The work of the server comes to an end

How many calls a request makes depends on what its calls return, and that on what the other
workers do.  Still, whatever the order of the steps, the workers and a drain that has begun
come to their end: no request goes on for ever, and nobody waits for somebody else.  Then
every batch that was read has been processed, each of its packets once and in order.

## Main results

* `step_settling`: a step of a worker takes one item of work and leaves smaller ones.
* `work_ends`: without new reads there is no run without an end.
* `step_accounted`: a batch is waiting, with a worker, or processed.
* `batches_processed`: when nobody can go on, all batches are processed.
-/

namespace CppChat.Ports.ServerRuns

open CppChat.Verified
open CppChat.Verified.AtomicProgram
open CppChat.Verified.Transition
open CppChat.Verified.WorkPool
open CppChat.Ports.Protocol
open CppChat.Ports.Users
open CppChat.Ports.Chat
open CppChat.Ports.Network
open CppChat.Ports.ConnectionTeardown (PoolConfig)

/-! ## Items of work -/

/-- What there is to do: take a task, leave it, start a packet, go on with a request. -/
inductive WorkItem where
  | task
  | job
  | packet (connectionId : Nat) (payload : Bytes)
  | request (rest : Service (List OutboundMessage))

/-- What a worker makes of an item. -/
inductive Smaller : WorkItem → WorkItem → Prop
  | take : Smaller .job .task
  | start (c : Nat) (payload : Bytes) :
      Smaller (.request (handleClientLine c payload)) (.packet c payload)
  | call {rest p : Service (List OutboundMessage)} (h : Prog.After rest p) :
      Smaller (.request rest) (.request p)

theorem wellFounded_smaller : WellFounded Smaller := by
  have hRequest : ∀ p, Acc Smaller (.request p) := by
    intro p
    induction Prog.wellFounded_after.apply p with
    | intro p _ ih =>
        refine ⟨_, fun item h => ?_⟩
        cases h with
        | call hAfter => exact ih _ hAfter
  have hJob : Acc Smaller .job := ⟨_, fun item h => by cases h⟩
  constructor
  intro item
  cases item with
  | task => exact ⟨_, fun item h => by cases h; exact hJob⟩
  | job => exact hJob
  | packet c payload => exact ⟨_, fun item h => by cases h; exact hRequest _⟩
  | request p => exact hRequest p

/-- The work in a task that waits. -/
def Task.items (task : Task) : List WorkItem :=
  .task :: task.payloads.map fun payload => .packet task.connectionId payload

/-- A task as a worker takes it. -/
def Task.job (task : Task) : Job :=
  { task := task.task
    connectionId := task.connectionId
    generation := task.generation
    rest := task.payloads }

/-- The work left in a task that a worker has. -/
def Job.items (job : Job) : List WorkItem :=
  .job :: (job.current.toList.map WorkItem.request ++
    job.rest.map fun payload => .packet job.connectionId payload)

/-- Everything the workers have to do. -/
def Server.todo (s : Server) : Multiset WorkItem :=
  (s.tasks.flatMap Task.items : List WorkItem) + workIn Job.items s.running

/-- What is left of a drain. -/
def Server.drainSize (s : Server) : Nat :=
  match s.phase with
  | .events => 0
  | .closing pending =>
      pending.length + s.net.responseQueue.length + s.net.closeQueue.length + 3
  | .delivering pending => pending.length + s.net.closeQueue.length + 2
  | .closingAgain pending => pending.length + 1

/-- The steps of the workers, and of a drain that has begun. -/
def Action.internal : Action → Prop
  | .event _ => False
  | .drain => False
  | _ => True

/-- The workers have less to do, or as much, and the drain has less. -/
def Settling (s' s : Server) : Prop :=
  Prod.Lex (Relation.CutExpand Smaller) (· < ·)
    (s'.todo, s'.drainSize) (s.todo, s.drainSize)

theorem wellFounded_settling : WellFounded Settling :=
  InvImage.wf (fun s : Server => (s.todo, s.drainSize))
    (wellFounded_smaller.cutExpand.prod_lex Nat.lt_wfRel.wf)

variable {crypto : Crypto} {config : ServerConfig} {pool : PoolConfig} {s s' : Server}

/-- A worker goes on with its task. -/
theorem Settling.update {w : Nat} {job job' : Job} (hJob : s.running.lookup w = some job)
    (hTasks : s'.tasks = s.tasks) (hRunning : s'.running = s.running.insert w job')
    (hLess : Relation.CutExpand Smaller (job'.items : Multiset WorkItem)
      (job.items : Multiset WorkItem)) : Settling s' s := by
  apply Prod.Lex.left
  rw [Server.todo, Server.todo, hTasks, hRunning]
  exact (Relation.cutExpand_add_left _).mpr (cutExpand_insert hJob hLess)

/-- The drain goes on, the workers do not. -/
theorem Settling.drain (hTasks : s'.tasks = s.tasks) (hRunning : s'.running = s.running)
    (hLess : s'.drainSize < s.drainSize) : Settling s' s := by
  have hTodo : s'.todo = s.todo := by rw [Server.todo, Server.todo, hTasks, hRunning]
  unfold Settling
  rw [hTodo]
  exact Prod.Lex.right _ hLess

/-- A step of a worker takes one item of work and leaves smaller ones; a step of a drain
leaves the work alone and brings the drain nearer to its end. -/
theorem step_settling (s : Server) (a : Action) (s' : Server) (hInternal : a.internal)
    (hStep : step crypto config pool s a = some s') : Settling s' s := by
  cases stepped hStep with
  | event hPhase hEvent hNet => exact hInternal.elim
  | drain hPhase => exact hInternal.elim
  | @closeNext request rest hPhase =>
      refine Settling.drain rfl rfl ?_
      have hQueues := untouched_closeIfCurrent s.net request
      simp only [Server.drainSize, hPhase, Server.withNet, hQueues.responses, hQueues.closes,
        List.length_cons]
      omega
  | @closeNextAgain request rest hPhase =>
      refine Settling.drain rfl rfl ?_
      simp [Server.drainSize, hPhase]
  | swap hPhase =>
      refine Settling.drain rfl rfl ?_
      simp only [Server.drainSize, hPhase, List.length_zip, List.length_nil]
      omega
  | @deliver item rest io hPhase =>
      refine Settling.drain rfl rfl ?_
      have hQueues := untouched_deliver config s.net item.1 io
      simp only [Server.drainSize, Server.deliver, hPhase, Server.withNet, hQueues.closes,
        List.length_cons]
      omega
  | drainAgain hPhase =>
      refine Settling.drain rfl rfl ?_
      simp [Server.drainSize, hPhase]
  | endDrain hPhase =>
      refine Settling.drain rfl rfl ?_
      simp [Server.drainSize, hPhase]
  | @take w task rest hTasks hThread hFree =>
      apply Prod.Lex.left
      have hTake : Relation.CutExpand Smaller (task.job.items : Multiset WorkItem)
          (task.items : Multiset WorkItem) :=
        cutExpand_middle [] [WorkItem.job] _ (List.forall_mem_singleton.mpr Smaller.take)
      rw [Server.todo, Server.todo, hTasks, workIn_insert, workIn_of_lookup_none hFree,
        List.flatMap_cons, ← Multiset.coe_add, ← Multiset.add_assoc,
        Multiset.add_comm (rest.flatMap Task.items : Multiset WorkItem)]
      exact (Relation.cutExpand_add_right _).mpr ((Relation.cutExpand_add_right _).mpr hTake)
  | @call w job op next hJob hCurrent =>
      refine Settling.update hJob rfl rfl ?_
      simp only [Job.items, hCurrent]
      have hCall : Smaller (.request (next (op.exec crypto s.chat).1)) (.request (.call op next)) :=
        .call (.next op next _)
      exact cutExpand_middle [.job] [_] _ (List.forall_mem_singleton.mpr hCall)
  | @push w job out hJob hCurrent =>
      refine Settling.update hJob rfl rfl ?_
      simp only [Job.items, hCurrent]
      exact cutExpand_middle [WorkItem.job] [] _ fun b hMem => absurd hMem List.not_mem_nil
  | @start w job payload rest hJob hCurrent hRest =>
      refine Settling.update hJob rfl rfl ?_
      simp only [Job.items, hCurrent, hRest]
      exact cutExpand_middle [.job] [_] _
        (List.forall_mem_singleton.mpr (Smaller.start job.connectionId payload))
  | leave hJob hCurrent hRest =>
      apply Prod.Lex.left
      refine (Relation.cutExpand_add_left _).mpr (cutExpand_erase (a := .job) hJob ?_)
      simp [Job.items, hCurrent, hRest]

theorem settles (s : Server) : Ends (step crypto config pool) Action.internal s :=
  Ends.of_measure wellFounded_settling (fun s => s) step_settling s

/-- There is no infinite run of steps of the workers and of a drain that has begun, from any
state and in any order. -/
theorem work_ends (crypto : Crypto) (config : ServerConfig) (pool : PoolConfig) :
    ¬∃ states : Nat → Server, ∀ n, ∃ a, a.internal ∧
      step crypto config pool (states n) a = some (states (n + 1)) := by
  rintro ⟨states, hSteps⟩
  exact (settles (states 0)).no_infinite ⟨states, rfl, hSteps⟩

/-! ## Batches -/

/-- All packets of a batch have been started and finished, once each and in order. -/
def Processed (log : List Event) (task : Nat) (payloads : List Bytes) : Prop :=
  startedOf log task = List.range payloads.length ∧
    finishedOf log task = List.range payloads.length

/-- A batch is known by the number of its task; it is waiting, or with a worker that has
not started more packets than there are, or it is processed. -/
structure Accounted (s : Server) : Prop where
  fresh : ∀ t c g payloads, .read t c g payloads ∈ s.log → t < s.nextTask
  unique : ∀ t c g payloads c' g' payloads', .read t c g payloads ∈ s.log →
    .read t c' g' payloads' ∈ s.log → payloads = payloads'
  short : ∀ w job, s.running.lookup w = some job → ∀ c g payloads,
    .read job.task c g payloads ∈ s.log → job.started ≤ payloads.length
  accounted : ∀ t c g payloads, .read t c g payloads ∈ s.log →
    t ∈ s.tasks.map Task.task ∨ (∃ w, s.owned w = some t) ∨ Processed s.log t payloads

/-- An event that is not a read and not about the work on a packet. -/
def Event.other : Event → Prop
  | .pass _ _ _ _ => True
  | _ => False

/-- Steps that leave the tasks alone. -/
theorem Accounted.congr (h : Accounted s) {more : List Event} (hLog : s'.log = s.log ++ more)
    (hMore : ∀ event ∈ more, event.other) (hRunning : s'.running = s.running)
    (hTasks : s'.tasks = s.tasks) (hNext : s'.nextTask = s.nextTask) : Accounted s' := by
  have hReads : ∀ {t c g payloads}, .read t c g payloads ∈ s'.log →
      .read t c g payloads ∈ s.log := by
    intro t c g payloads hMem
    rw [hLog] at hMem
    exact (List.mem_append.mp hMem).resolve_right fun hNew => hMore _ hNew
  have hNone : ∀ t, startedOf more t = [] ∧ finishedOf more t = [] := by
    intro t
    constructor <;> refine List.filterMap_eq_nil_iff.mpr fun event hMem => ?_ <;>
      cases event <;> first | rfl | exact (hMore _ hMem).elim
  have hOwned : s'.owned = s.owned := by
    funext w
    rw [Server.owned, hRunning]
    rfl
  constructor
  · intro t c g payloads hMem
    rw [hNext]
    exact h.fresh t c g payloads (hReads hMem)
  · intro t c g payloads c' g' payloads' hMem hMem'
    exact h.unique t c g payloads c' g' payloads' (hReads hMem) (hReads hMem')
  · intro w job hJob c g payloads hMem
    rw [hRunning] at hJob
    exact h.short w job hJob c g payloads (hReads hMem)
  · intro t c g payloads hMem
    rw [hTasks, hOwned]
    refine (h.accounted t c g payloads (hReads hMem)).imp_right fun hRest =>
      hRest.imp_right fun hDone => ?_
    have hStarted : startedOf s'.log t = startedOf s.log t := by
      rw [hLog]
      refine List.filterMap_append.trans ?_
      show startedOf s.log t ++ startedOf more t = _
      rw [(hNone t).1, List.append_nil]
    have hFinished : finishedOf s'.log t = finishedOf s.log t := by
      rw [hLog]
      refine List.filterMap_append.trans ?_
      show finishedOf s.log t ++ finishedOf more t = _
      rw [(hNone t).2, List.append_nil]
    rw [Processed, hStarted, hFinished]
    exact hDone

/-- A worker moves on in its task. -/
theorem Accounted.update (h : Accounted s) {w : Nat} {job job' : Job}
    (hJob : s.running.lookup w = some job)
    (hRunning : s'.running = s.running.insert w job') (hTask : job'.task = job.task)
    (hTasks : s'.tasks = s.tasks) (hNext : s'.nextTask = s.nextTask)
    (hReads : ∀ t c g payloads, .read t c g payloads ∈ s'.log → .read t c g payloads ∈ s.log)
    (hOther : ∀ t, t ≠ job.task →
      startedOf s'.log t = startedOf s.log t ∧ finishedOf s'.log t = finishedOf s.log t)
    (hShort : ∀ c g payloads, .read job.task c g payloads ∈ s.log →
      job'.started ≤ payloads.length) : Accounted s' := by
  have hOwned : ∀ v, s'.owned v = s.owned v := by
    intro v
    rw [Server.owned, hRunning, UnorderedMap.lookup_insert]
    by_cases hv : v = w
    · rw [if_pos hv, hv, owned_eq_some hJob, ← hTask]
      rfl
    · rw [if_neg hv]
      rfl
  constructor
  · intro t c g payloads hMem
    rw [hNext]
    exact h.fresh t c g payloads (hReads t c g payloads hMem)
  · intro t c g payloads c' g' payloads' hMem hMem'
    exact h.unique t c g payloads c' g' payloads' (hReads _ _ _ _ hMem) (hReads _ _ _ _ hMem')
  · intro v other hLookup c g payloads hMem
    rw [hRunning, UnorderedMap.lookup_insert] at hLookup
    split at hLookup
    · cases Option.some.inj hLookup
      rw [hTask] at hMem
      exact hShort c g payloads (hReads _ _ _ _ hMem)
    · exact h.short v other hLookup c g payloads (hReads _ _ _ _ hMem)
  · intro t c g payloads hMem
    rw [hTasks]
    simp only [hOwned]
    refine (h.accounted t c g payloads (hReads _ _ _ _ hMem)).imp_right fun hRest => ?_
    -- the task of the worker is with the worker
    by_cases hSame : t = job.task
    · exact Or.inl ⟨w, by rw [hSame]; exact owned_eq_some hJob⟩
    · refine hRest.imp_right fun hDone => ?_
      rw [Processed, (hOther t hSame).1, (hOther t hSame).2]
      exact hDone

theorem accounted_init (listenFd wakeFd : Nat) : Accounted (Server.init listenFd wakeFd) := by
  constructor <;> simp [Server.init]

/-- A new batch is waiting. -/
theorem Accounted.submit (h : Accounted s) (hLt : ∀ w t, s.owned w = some t → t < s.nextTask)
    (batch : Option (Nat × Nat × List Bytes)) : Accounted (s.submit batch) := by
  cases batch with
  | none => exact h
  | some batch =>
      obtain ⟨c, generation, payloads⟩ := batch
      have hNew : ∀ {t c' g payloads'}, .read t c' g payloads' ∈
            s.log ++ [.read s.nextTask c generation payloads] →
          .read t c' g payloads' ∈ s.log ∨ (t = s.nextTask ∧ payloads' = payloads) := by
        intro t c' g payloads' hMem
        rcases List.mem_append.mp hMem with hOld | hNew
        · exact Or.inl hOld
        · injection List.mem_singleton.mp hNew with hTask _ _ hPayloads
          exact Or.inr ⟨hTask, hPayloads⟩
      have hLog : ∀ t, startedOf (s.log ++ [.read s.nextTask c generation payloads]) t =
            startedOf s.log t ∧
          finishedOf (s.log ++ [.read s.nextTask c generation payloads]) t =
            finishedOf s.log t :=
        fun t => ⟨startedOf_other (fun _ h => by contradiction) _,
          finishedOf_other (fun _ h => by contradiction) _⟩
      constructor
      · intro t c' g payloads' hMem
        show t < s.nextTask + 1
        rcases hNew hMem with hOld | ⟨rfl, -⟩
        · exact Nat.lt_succ_of_lt (h.fresh t c' g payloads' hOld)
        · exact Nat.lt_succ_self _
      · intro t c₁ g₁ payloads₁ c₂ g₂ payloads₂ hMem hMem'
        rcases hNew hMem with hOld | ⟨rfl, rfl⟩
        · rcases hNew hMem' with hOld' | ⟨rfl, -⟩
          · exact h.unique t c₁ g₁ payloads₁ c₂ g₂ payloads₂ hOld hOld'
          · exact absurd (h.fresh _ _ _ _ hOld) (Nat.lt_irrefl _)
        · rcases hNew hMem' with hOld' | ⟨-, rfl⟩
          · exact absurd (h.fresh _ _ _ _ hOld') (Nat.lt_irrefl _)
          · rfl
      · intro w job hJob c' g payloads' hMem
        rcases hNew hMem with hOld | ⟨hTask, rfl⟩
        · exact h.short w job hJob c' g payloads' hOld
        · have hOwned := hLt w _ (owned_eq_some hJob)
          rw [hTask] at hOwned
          exact absurd hOwned (Nat.lt_irrefl _)
      · intro t c' g payloads' hMem
        rcases hNew hMem with hOld | ⟨rfl, rfl⟩
        · refine (h.accounted t c' g payloads' hOld).imp ?_ fun hRest =>
            hRest.imp_right fun hDone => ?_
          · intro hWaiting
            show t ∈ (s.tasks ++ [_]).map Task.task
            rw [List.map_append]
            exact List.mem_append_left _ hWaiting
          · exact ⟨(hLog t).1.trans hDone.1, (hLog t).2.trans hDone.2⟩
        · refine Or.inl ?_
          show s.nextTask ∈ (s.tasks ++ [_]).map Task.task
          rw [List.map_append]
          exact List.mem_append_right _ (List.mem_singleton_self _)

/-- A worker takes the oldest task. -/
theorem Accounted.take (h : Accounted s) {task : Task} {rest : List Task}
    (hTasks : s.tasks = task :: rest) {w : Nat} (hFree : s.running.lookup w = none) :
    Accounted { s with
      tasks := rest
      running := s.running.insert w
        { task := task.task, connectionId := task.connectionId,
          generation := task.generation, rest := task.payloads } } where
  fresh := h.fresh
  unique := h.unique
  short := by
    intro v other hLookup c g payloads hMem
    rw [UnorderedMap.lookup_insert] at hLookup
    split at hLookup
    · rw [← Option.some.inj hLookup]
      exact Nat.zero_le _
    · exact h.short v other hLookup c g payloads hMem
  accounted := by
    intro t c g payloads hMem
    rcases h.accounted t c g payloads hMem with hWaiting | ⟨v, hOwned⟩ | hDone
    · rw [hTasks] at hWaiting
      rcases List.mem_cons.mp hWaiting with rfl | hRest
      · refine Or.inr (Or.inl ⟨w, ?_⟩)
        rw [Server.owned, UnorderedMap.lookup_insert, if_pos rfl]
        rfl
      · exact Or.inl hRest
    · refine Or.inr (Or.inl ⟨v, ?_⟩)
      have hNe : v ≠ w := by
        rintro rfl
        rw [Server.owned, hFree] at hOwned
        contradiction
      rw [Server.owned, UnorderedMap.lookup_insert, if_neg hNe]
      exact hOwned
    · exact Or.inr (Or.inr hDone)

/-- A worker is done with its task. -/
theorem Accounted.leave (h : Accounted s) (hBooked : Booked s) {past : Pasts}
    (hPromised : Promised past s) {w : Nat} {job : Job} (hJob : s.running.lookup w = some job)
    (hCurrent : job.current = none) (hRest : job.rest = []) :
    Accounted { s with running := s.running.erase w } where
  fresh := h.fresh
  unique := h.unique
  short := by
    intro v other hLookup c g payloads hMem
    rw [UnorderedMap.lookup_erase] at hLookup
    split at hLookup
    · contradiction
    · exact h.short v other hLookup c g payloads hMem
  accounted := by
    intro t c g payloads hMem
    rcases h.accounted t c g payloads hMem with hWaiting | ⟨v, hOwned⟩ | hDone
    · exact Or.inl hWaiting
    · by_cases hv : v = w
      · rw [hv, owned_eq_some hJob] at hOwned
        cases Option.some.inj hOwned
        -- it has started all packets, and is in none of them
        obtain ⟨payloads', hRead, hDrop⟩ := (hPromised.jobs w job hJob).batch
        rw [← h.unique _ _ _ _ _ _ _ hMem hRead, hRest] at hDrop
        have hShort := h.short w job hJob c g payloads hMem
        have hLong := List.drop_eq_nil_iff.mp hDrop
        have hAll : job.started = payloads.length := Nat.le_antisymm hShort hLong
        have hIndex : job.index = job.started := by simp [Job.started, hCurrent]
        refine Or.inr (Or.inr ⟨?_, ?_⟩)
        · rw [← hAll]
          exact hBooked.started w job hJob
        · rw [← hAll, ← hIndex]
          exact hBooked.finished w job hJob
      · refine Or.inr (Or.inl ⟨v, ?_⟩)
        rw [Server.owned, UnorderedMap.lookup_erase, if_neg hv]
        exact hOwned
    · exact Or.inr (Or.inr hDone)

theorem step_accounted (h : Accounted s) (hInOrder : InOrder s) {past : Pasts}
    (hPromised : Promised past s) {a : Action} (hStep : Stepped crypto config pool s a s') :
    Accounted s' := by
  have hNoEvent : ∀ event ∈ ([] : List Event), event.other :=
    fun event hMem => absurd hMem List.not_mem_nil
  have hBooked := hInOrder.booked
  cases hStep with
  | @event action r hPhase hEvent hNet =>
      have hMoved : Accounted (s.withNet crypto r.server) :=
        h.congr (List.append_nil _).symm hNoEvent rfl rfl rfl
      exact hMoved.submit hBooked.owned_lt _
  | drain hPhase | swap hPhase | drainAgain hPhase | endDrain hPhase | closeNext hPhase
  | closeNextAgain hPhase => exact h.congr (List.append_nil _).symm hNoEvent rfl rfl rfl
  | @deliver item rest io hPhase =>
      unfold Server.deliver
      dsimp only
      split
      · exact h.congr rfl (List.forall_mem_singleton.mpr trivial) rfl rfl rfl
      · exact h.congr (List.append_nil _).symm hNoEvent rfl rfl rfl
  | take hTasks hThread hFree => exact h.take hTasks hFree
  | @call w job op next hJob hCurrent =>
      refine h.update hJob rfl rfl rfl rfl ?_ (fun t _ => logged_storedBy _ _ _ _ t) ?_
      · intro t c g payloads hMem
        rcases List.mem_append.mp hMem with hOld | hNew
        · exact hOld
        · cases op with
          | append message => exact absurd (List.mem_singleton.mp hNew) (by simp)
          | _ => exact absurd hNew List.not_mem_nil
      · intro c g payloads hMem
        have hShort := h.short w job hJob c g payloads hMem
        rw [Job.started, hCurrent] at hShort
        exact hShort
  | @push w job out hJob hCurrent =>
      refine h.update hJob rfl rfl rfl rfl ?_ ?_ ?_
      · intro t c g payloads hMem
        exact (List.mem_append.mp hMem).resolve_right (by simp)
      · intro t hNe
        have hFrame : ∀ frame, Event.frame (.finish job.frame out (fits config s out)) =
            some frame → frame.task ≠ t := by
          rintro frame hEq
          rw [← Option.some.inj hEq]
          exact hNe.symm
        exact ⟨startedOf_other hFrame _, finishedOf_other hFrame _⟩
      · intro c g payloads hMem
        have hShort := h.short w job hJob c g payloads hMem
        rw [Job.started, hCurrent] at hShort
        exact hShort
  | @start w job payload rest hJob hCurrent hRest =>
      refine h.update hJob rfl rfl rfl rfl ?_ ?_ ?_
      · intro t c g payloads hMem
        exact (List.mem_append.mp hMem).resolve_right (by simp)
      · intro t hNe
        have hFrame : ∀ frame, Event.frame (.start job.frame) = some frame → frame.task ≠ t := by
          rintro frame hEq
          rw [← Option.some.inj hEq]
          exact hNe.symm
        exact ⟨startedOf_other hFrame _, finishedOf_other hFrame _⟩
      · intro c g payloads hMem
        obtain ⟨payloads', hRead, hDrop⟩ := (hPromised.jobs w job hJob).batch
        rw [h.unique _ _ _ _ _ _ _ hMem hRead]
        rw [hRest, Job.started, hCurrent] at hDrop
        have hLt : job.index < payloads'.length := by
          refine Nat.lt_of_not_le fun hLe => ?_
          have hNil := List.drop_eq_nil_of_le hLe
          rw [show payloads'.drop job.index = payload :: rest from hDrop] at hNil
          contradiction
        exact hLt
  | leave hJob hCurrent hRest => exact h.leave hBooked hPromised hJob hCurrent hRest

theorem run_accounted {listenFd wakeFd : Nat} {acts : List Action}
    (hRun : run (step crypto config pool) (Server.init listenFd wakeFd) acts = some s) :
    Accounted s := by
  refine @run_invariant_of_past _ _ _ (fun _ s => Accounted s) _
    (accounted_init listenFd wakeFd) ?_ _ _ hRun
  intro acts t a t' hPrefix h hStep
  obtain ⟨hInOrder, hPromised⟩ := run_promised hPrefix
  exact step_accounted h hInOrder hPromised (stepped hStep)

/-- Nobody can go on. -/
def Stuck (crypto : Crypto) (config : ServerConfig) (pool : PoolConfig) (s : Server) : Prop :=
  ∀ a, Action.internal a → step crypto config pool s a = none

/-- Whoever has a task can go on, and a free worker can take one. -/
theorem idle_of_stuck (hThreads : 0 < pool.numThreads) (h : Stuck crypto config pool s) :
    s.tasks = [] ∧ (∀ w, s.running.lookup w = none) ∧ s.phase = .events := by
  have hRunning : ∀ w, s.running.lookup w = none := by
    intro w
    cases hJob : s.running.lookup w with
    | none => rfl
    | some job =>
        have hWork := h (.work w) trivial
        rw [step, hJob] at hWork
        contradiction
  refine ⟨?_, hRunning, ?_⟩
  · cases hTasks : s.tasks with
    | nil => rfl
    | cons task rest =>
        have hTake := h (.take 0) trivial
        rw [step, if_pos ⟨hThreads, hRunning 0⟩, hTasks] at hTake
        contradiction
  · cases hPhase : s.phase with
    | events => rfl
    | closing pending =>
        cases pending with
        | nil =>
            have hSwap := h .swap trivial
            rw [step, hPhase] at hSwap
            contradiction
        | cons request rest =>
            have hClose := h .closeNext trivial
            rw [step, hPhase] at hClose
            contradiction
    | delivering pending =>
        cases pending with
        | nil =>
            have hAgain := h .drainAgain trivial
            rw [step, hPhase] at hAgain
            contradiction
        | cons item rest =>
            have hDeliver := h (.deliver {}) trivial
            rw [step, hPhase] at hDeliver
            contradiction
    | closingAgain pending =>
        cases pending with
        | nil =>
            have hEnd := h .endDrain trivial
            rw [step, hPhase] at hEnd
            contradiction
        | cons request rest =>
            have hClose := h .closeNext trivial
            rw [step, hPhase] at hClose
            contradiction

/-- From every state that a run can reach, the workers and the drain can come to a state in
which nobody can go on; and in every such state nothing is waiting, and every batch that was
read has been processed, each of its packets once and in order. -/
theorem batches_processed (crypto : Crypto) (config : ServerConfig) (pool : PoolConfig)
    (listenFd wakeFd : Nat) (hThreads : 0 < pool.numThreads) (acts : List Action) (s : Server)
    (hRun : run (step crypto config pool) (Server.init listenFd wakeFd) acts = some s) :
    (∃ more t, (∀ a ∈ more, Action.internal a) ∧
      run (step crypto config pool) s more = some t ∧ Stuck crypto config pool t) ∧
    ∀ more t, run (step crypto config pool) s more = some t → Stuck crypto config pool t →
      t.tasks = [] ∧ (∀ w, t.running.lookup w = none) ∧ t.phase = .events ∧
      ∀ task c g payloads, .read task c g payloads ∈ t.log → Processed t.log task payloads := by
  refine ⟨(settles s).exists_last, fun more t hMore hStuck => ?_⟩
  obtain ⟨hTasks, hRunning, hPhase⟩ := idle_of_stuck hThreads hStuck
  refine ⟨hTasks, hRunning, hPhase, fun task c g payloads hRead => ?_⟩
  have hAll : run (step crypto config pool) (Server.init listenFd wakeFd) (acts ++ more) =
      some t := by
    rw [run_append, hRun]
    exact hMore
  rcases (run_accounted hAll).accounted task c g payloads hRead with hWaiting | ⟨w, hOwned⟩ | hDone
  · rw [hTasks] at hWaiting
    exact absurd hWaiting List.not_mem_nil
  · rw [Server.owned, hRunning w] at hOwned
    contradiction
  · exact hDone

/-- Alice and Bob have logged in and Alice has written. -/
theorem batches_processed_aliceWrites :
    ∃ s, run (step sampleCrypto {} ⟨2, 4⟩) (Server.init 3 4) (enterBoth ++ aliceWrites) = some s ∧
      ∃ more t, (∀ a ∈ more, Action.internal a) ∧
        run (step sampleCrypto {} ⟨2, 4⟩) s more = some t ∧ Stuck sampleCrypto {} ⟨2, 4⟩ t := by
  obtain ⟨s, hRun, -⟩ := run_aliceWrites
  exact ⟨s, hRun, (batches_processed sampleCrypto {} ⟨2, 4⟩ 3 4 (by decide) _ s hRun).1⟩

end CppChat.Ports.ServerRuns
