import Mathlib.Algebra.GroupWithZero.Nat
import CppChat.Verified.Transition

/-!
# The thread pool

`enqueue` puts a task into the queue under the mutex and notifies one worker after it has
given the mutex back.  A worker takes the front task under the mutex and runs it without;
while there is nothing to do it sleeps on the condition variable, from which it may also
wake by itself.  The destructor sets `stop_` under the mutex, notifies all workers and
joins them.  Each of these is a step, any number of threads call `enqueue`, and the steps
come in any order.  Tasks do not throw.

`submitted` and `started` are the history: every call of `enqueue` with its answer, and
every task a worker has begun to run.

## Main results

* `stepped`: everything a step can do.
* `step_inv`: what is queued has been accepted and not started, in order.
* `step_size_lt`: a step of a worker, a notification or the destructor brings the pool
  closer to rest.
* `quiet_queue`: a pool at rest has no task left.
* `runs_accepted_tasks`: the accepted tasks are run, in order, and no others.
-/

namespace CppChat.Ports.Workers

open CppChat.Verified.Transition

variable {τ : Type}

/-! ## The pool -/

/-- The task queue. -/
structure ThreadPool (τ : Type) where
  tasks : List τ := []
  maxQueueSize : Nat
  stop : Bool := false

/-- The constructor: the queue has room for one task at least. -/
def ThreadPool.new (maxQueueSize : Nat) : ThreadPool τ :=
  { maxQueueSize := if maxQueueSize = 0 then 1 else maxQueueSize }

/-- The locked block of `enqueue`. -/
def ThreadPool.enqueue (pool : ThreadPool τ) (task : τ) : Bool × ThreadPool τ :=
  if pool.stop || decide (pool.maxQueueSize ≤ pool.tasks.length) then (false, pool)
  else (true, { pool with tasks := pool.tasks ++ [task] })

/-- How the locked block of the worker loop ends. -/
inductive Turn (τ : Type) where
  | wait
  | exit
  | run (task : τ)

/-- The locked block of the worker loop.  It goes to sleep when the predicate
`stop_ || !tasks_.empty()` does not hold. -/
def ThreadPool.turn (pool : ThreadPool τ) : Turn τ × ThreadPool τ :=
  match pool.tasks with
  | [] => if pool.stop then (.exit, pool) else (.wait, pool)
  | task :: tasks => (.run task, { pool with tasks := tasks })

/-! ## The threads -/

/-- A worker sleeps on the condition variable, is about to lock the mutex, runs a task, or
has returned. -/
inductive Worker (τ : Type) where
  | waiting
  | awake
  | running (task : τ)
  | exited

/-- The worker waits on the condition variable. -/
def Worker.isWaiting : Worker τ → Bool
  | .waiting => true
  | _ => false

/-- The worker is about to look at the queue. -/
def Worker.isAwake : Worker τ → Bool
  | .awake => true
  | _ => false

/-- The worker has returned. -/
def Worker.isExited : Worker τ → Bool
  | .exited => true
  | _ => false

/-- `notify_all`. -/
def Worker.notified : Worker τ → Worker τ
  | .waiting => .awake
  | worker => worker

/-- Where a worker goes from the locked block. -/
def Worker.ofTurn : Turn τ → Worker τ
  | .wait => .waiting
  | .exit => .exited
  | .run task => .running task

/-- How far the destructor has come: `stop_` is set, everybody is notified, everybody is
joined. -/
inductive Destructor where
  | notCalled
  | stopped
  | joining
  | done

/-- The pool and its threads.  `notifying` counts the calls of `enqueue` that have put
their task into the queue and not yet called `notify_one`. -/
structure Threads (τ : Type) where
  pool : ThreadPool τ
  workers : List (Worker τ)
  notifying : Nat := 0
  destructor : Destructor := .notCalled
  submitted : List (τ × Bool) := []
  started : List τ := []

/-- An empty queue, and workers that have just been started. -/
def Threads.start (numThreads maxQueueSize : Nat) : Threads τ :=
  { pool := .new maxQueueSize, workers := List.replicate numThreads .awake }

/-- The tasks for which `enqueue` has returned true. -/
def Threads.accepted (s : Threads τ) : List τ := (s.submitted.filter (·.2)).map (·.1)

/-- Every worker has returned. -/
def Threads.allExited (s : Threads τ) : Bool := s.workers.all Worker.isExited

/-- The tasks a worker begins to run when it goes from the locked block. -/
def Turn.begun : Turn τ → List τ
  | .run task => [task]
  | _ => []

/-- What a caller, a worker or the destructor can do next. -/
inductive Action (τ : Type) where
  | enqueue (task : τ)
  | notifyOne (woken : Nat)
  | wake (worker : Nat)
  | turn (worker : Nat)
  | finish (worker : Nat)
  | stop
  | notifyAll
  | join

/-- `notify_one` wakes one of the sleeping workers, if there is one. -/
def step (s : Threads τ) : Action τ → Option (Threads τ)
  | .enqueue task =>
      match s.destructor with
      | .done => none
      | _ =>
          let answer := s.pool.enqueue task
          some { s with
            pool := answer.2
            notifying := if answer.1 then s.notifying + 1 else s.notifying
            submitted := s.submitted ++ [(task, answer.1)] }
  | .notifyOne woken =>
      match s.notifying, s.workers[woken]? with
      | 0, _ => none
      | notifying + 1, some .waiting =>
          some { s with notifying := notifying, workers := s.workers.set woken .awake }
      | notifying + 1, _ =>
          if s.workers.any Worker.isWaiting then none else some { s with notifying := notifying }
  | .wake worker =>
      match s.workers[worker]? with
      | some .waiting => some { s with workers := s.workers.set worker .awake }
      | _ => none
  | .turn worker =>
      match s.workers[worker]? with
      | some .awake =>
          let turn := s.pool.turn
          some { s with
            pool := turn.2
            workers := s.workers.set worker (.ofTurn turn.1)
            started := s.started ++ turn.1.begun }
      | _ => none
  | .finish worker =>
      match s.workers[worker]? with
      | some (.running _) => some { s with workers := s.workers.set worker .awake }
      | _ => none
  | .stop =>
      match s.destructor with
      | .notCalled =>
          some { s with pool := { s.pool with stop := true }, destructor := .stopped }
      | _ => none
  | .notifyAll =>
      match s.destructor with
      | .stopped =>
          some { s with workers := s.workers.map Worker.notified, destructor := .joining }
      | _ => none
  | .join =>
      match s.destructor with
      | .joining => if s.allExited then some { s with destructor := .done } else none
      | _ => none

/-- A worker sleeps, returns or takes the front task. -/
theorem ThreadPool.turn_cases (pool : ThreadPool τ) :
    (pool.tasks = [] ∧ pool.stop = false ∧ pool.turn = (.wait, pool)) ∨
      (pool.tasks = [] ∧ pool.stop = true ∧ pool.turn = (.exit, pool)) ∨
      ∃ task tasks, pool.tasks = task :: tasks ∧
        pool.turn = (.run task, { pool with tasks := tasks }) := by
  unfold turn
  split
  · rename_i hTasks
    cases hStop : pool.stop with
    | false => exact .inl ⟨hTasks, rfl, rfl⟩
    | true => exact .inr (.inl ⟨hTasks, rfl, rfl⟩)
  · rename_i task tasks hTasks
    exact .inr (.inr ⟨task, tasks, hTasks, rfl⟩)

/-- Everything a step can do. -/
inductive Stepped (s : Threads τ) : Action τ → Threads τ → Prop where
  | enqueue (task : τ) : Stepped s (.enqueue task)
      { s with
        pool := (s.pool.enqueue task).2
        notifying := if (s.pool.enqueue task).1 then s.notifying + 1 else s.notifying
        submitted := s.submitted ++ [(task, (s.pool.enqueue task).1)] }
  | notify {i notifying : Nat} (hNotifying : s.notifying = notifying + 1)
      (hWorker : s.workers[i]? = some .waiting) : Stepped s (.notifyOne i)
      { s with notifying := notifying, workers := s.workers.set i .awake }
  | notifyNobody {i notifying : Nat} (hNotifying : s.notifying = notifying + 1)
      (hNone : s.workers.any Worker.isWaiting = false) : Stepped s (.notifyOne i)
      { s with notifying := notifying }
  | wake {i : Nat} (hWorker : s.workers[i]? = some .waiting) : Stepped s (.wake i)
      { s with workers := s.workers.set i .awake }
  | sleep {i : Nat} (hWorker : s.workers[i]? = some .awake) (hTasks : s.pool.tasks = [])
      (hStop : s.pool.stop = false) : Stepped s (.turn i)
      { s with workers := s.workers.set i .waiting }
  | leave {i : Nat} (hWorker : s.workers[i]? = some .awake) (hTasks : s.pool.tasks = [])
      (hStop : s.pool.stop = true) : Stepped s (.turn i)
      { s with workers := s.workers.set i .exited }
  | take {i : Nat} {task : τ} {tasks : List τ} (hWorker : s.workers[i]? = some .awake)
      (hTasks : s.pool.tasks = task :: tasks) : Stepped s (.turn i)
      { s with
        pool := { s.pool with tasks := tasks }
        workers := s.workers.set i (.running task)
        started := s.started ++ [task] }
  | finish {i : Nat} {task : τ} (hWorker : s.workers[i]? = some (.running task)) :
      Stepped s (.finish i) { s with workers := s.workers.set i .awake }
  | stop (hCalled : s.destructor = .notCalled) : Stepped s .stop
      { s with pool := { s.pool with stop := true }, destructor := .stopped }
  | notifyAll (hStopped : s.destructor = .stopped) : Stepped s .notifyAll
      { s with workers := s.workers.map Worker.notified, destructor := .joining }
  | join (hJoining : s.destructor = .joining) (hAll : s.allExited = true) : Stepped s .join
      { s with destructor := .done }

theorem stepped {s s' : Threads τ} {a : Action τ} (hStep : step s a = some s') :
    Stepped s a s' := by
  cases a <;> simp only [step] at hStep
  case enqueue task =>
    split at hStep
    · contradiction
    · rw [← Option.some.inj hStep]
      exact .enqueue task
  case notifyOne i =>
    split at hStep
    · contradiction
    · rename_i notifying hNotifying hWorker
      rw [← Option.some.inj hStep]
      exact .notify hNotifying hWorker
    · rename_i notifying _ hNotifying _
      split at hStep
      · contradiction
      · rename_i hNone
        rw [← Option.some.inj hStep]
        exact .notifyNobody hNotifying (Bool.eq_false_iff.mpr hNone)
  case wake i =>
    split at hStep
    · rename_i hWorker
      rw [← Option.some.inj hStep]
      exact .wake hWorker
    · contradiction
  case turn i =>
    split at hStep
    · rename_i hWorker
      rw [← Option.some.inj hStep]
      obtain ⟨hTasks, hStop, hTurn⟩ | ⟨hTasks, hStop, hTurn⟩ | ⟨task, tasks, hTasks, hTurn⟩ :=
        s.pool.turn_cases
      · rw [hTurn]
        simpa only [Turn.begun, Worker.ofTurn, List.append_nil] using
          Stepped.sleep hWorker hTasks hStop
      · rw [hTurn]
        simpa only [Turn.begun, Worker.ofTurn, List.append_nil] using
          Stepped.leave hWorker hTasks hStop
      · rw [hTurn]
        exact .take hWorker hTasks
    · contradiction
  case finish i =>
    split at hStep
    · rename_i task hWorker
      rw [← Option.some.inj hStep]
      exact .finish hWorker
    · contradiction
  case stop =>
    split at hStep
    · rename_i hCalled
      rw [← Option.some.inj hStep]
      exact .stop hCalled
    · contradiction
  case notifyAll =>
    split at hStep
    · rename_i hStopped
      rw [← Option.some.inj hStep]
      exact .notifyAll hStopped
    · contradiction
  case join =>
    split at hStep
    · rename_i hJoining
      split at hStep
      · rename_i hAll
        rw [← Option.some.inj hStep]
        exact .join hJoining hAll
      · contradiction
    · contradiction

/-! ## The invariant -/

/-- What a thread pool keeps to. -/
structure Inv (numThreads maxQueueSize : Nat) (s : Threads τ) : Prop where
  size : s.workers.length = numThreads
  limit : s.pool.maxQueueSize = max 1 maxQueueSize
  bound : s.pool.tasks.length ≤ s.pool.maxQueueSize
  history : s.started ++ s.pool.tasks = s.accepted
  stop : s.pool.stop = true ↔ s.destructor ≠ .notCalled
  /-- A worker returns only when there will be nothing to do any more. -/
  exited : 0 < s.workers.countP Worker.isExited → s.pool.stop = true ∧ s.pool.tasks = []
  /-- While somebody sleeps, every task has a notification or a worker coming. -/
  wakes : 0 < s.workers.countP Worker.isWaiting →
    s.pool.tasks.length ≤ s.notifying + s.workers.countP Worker.isAwake
  joining : s.destructor = .joining ∨ s.destructor = .done →
    s.workers.countP Worker.isWaiting = 0
  done : s.destructor = .done → s.workers.countP Worker.isExited = s.workers.length

variable {numThreads maxQueueSize : Nat} {s s' : Threads τ} {i : Nat} {worker : Worker τ}

/-- One worker takes another place. -/
theorem countP_set {workers : List (Worker τ)} (hWorker : workers[i]? = some worker)
    (worker' : Worker τ) (p : Worker τ → Bool) :
    (workers.set i worker').countP p + (if p worker then 1 else 0) =
      workers.countP p + (if p worker' then 1 else 0) := by
  obtain ⟨hLt, hAt⟩ := List.getElem?_eq_some_iff.mp hWorker
  have hPos : (if p workers[i] then 1 else 0) ≤ workers.countP p := by
    split
    · rename_i hp
      exact List.countP_pos_iff.mpr ⟨_, List.getElem_mem hLt, hp⟩
    · exact Nat.zero_le _
  rw [List.countP_set hLt]
  rw [hAt] at hPos ⊢
  omega

theorem inv_start : Inv numThreads maxQueueSize (Threads.start numThreads maxQueueSize : Threads τ)
    where
  size := List.length_replicate
  limit := by
    show (if maxQueueSize = 0 then 1 else maxQueueSize) = _
    split <;> omega
  bound := Nat.zero_le _
  history := rfl
  stop := by simp [Threads.start, ThreadPool.new]
  exited := by simp [Threads.start, Worker.isExited, List.countP_replicate]
  wakes := by simp [Threads.start, Worker.isWaiting, List.countP_replicate]
  joining := by simp [Threads.start]
  done := by simp [Threads.start]

theorem accepted_submit (s : Threads τ) (task : τ) (answer : Bool) :
    ((s.submitted ++ [(task, answer)]).filter (·.2)).map (·.1) =
      s.accepted ++ if answer then [task] else [] := by
  rw [List.filter_append, List.map_append]
  cases answer <;> rfl

namespace Inv

variable (hInv : Inv numThreads maxQueueSize s)

include hInv

theorem enqueue (task : τ) :
    Inv numThreads maxQueueSize { s with
      pool := (s.pool.enqueue task).2
      notifying := if (s.pool.enqueue task).1 then s.notifying + 1 else s.notifying
      submitted := s.submitted ++ [(task, (s.pool.enqueue task).1)] } := by
  unfold ThreadPool.enqueue
  split
  · refine { hInv with history := ?_ }
    rw [Threads.accepted, accepted_submit, ← hInv.history]
    simp
  · rename_i hRoom
    simp only [Bool.or_eq_true, decide_eq_true_eq, not_or, Bool.not_eq_true] at hRoom
    refine { hInv with bound := ?_, history := ?_, exited := ?_, wakes := ?_ }
    · dsimp only
      rw [List.length_append, List.length_singleton]
      omega
    · rw [Threads.accepted, accepted_submit, ← hInv.history]
      simp
    · intro hExited
      have hStop := (hInv.exited hExited).1
      rw [hRoom.1] at hStop
      contradiction
    · intro hWaiting
      have hWakes := hInv.wakes hWaiting
      rw [List.length_append, List.length_singleton, if_pos rfl]
      dsimp only
      omega

/-- A sleeping worker wakes up. -/
theorem awaken (hWorker : s.workers[i]? = some .waiting) {notifying : Nat}
    (hNotifying : s.notifying ≤ notifying + 1) :
    Inv numThreads maxQueueSize
      { s with notifying := notifying, workers := s.workers.set i .awake } := by
  have hWaiting : (s.workers.set i .awake).countP Worker.isWaiting + 1 =
      s.workers.countP Worker.isWaiting := countP_set hWorker .awake Worker.isWaiting
  have hAwake : (s.workers.set i .awake).countP Worker.isAwake =
      s.workers.countP Worker.isAwake + 1 := countP_set hWorker .awake Worker.isAwake
  have hExited : (s.workers.set i .awake).countP Worker.isExited =
      s.workers.countP Worker.isExited := countP_set hWorker .awake Worker.isExited
  have hWakes := hInv.wakes (by omega)
  refine { hInv with size := ?_, exited := ?_, wakes := ?_, joining := ?_, done := ?_ }
  · exact List.length_set.trans hInv.size
  · rw [hExited]
    exact hInv.exited
  · intro _
    rw [hAwake]
    dsimp only
    omega
  · intro hJoining
    have hNone := hInv.joining hJoining
    omega
  · intro hDone
    have hNone := hInv.joining (.inr hDone)
    omega

/-- A worker finds nothing to do. -/
theorem sleep (hWorker : s.workers[i]? = some .awake) (hTasks : s.pool.tasks = [])
    (hStop : s.pool.stop = false) :
    Inv numThreads maxQueueSize { s with workers := s.workers.set i .waiting } := by
  have hExited : (s.workers.set i .waiting).countP Worker.isExited =
      s.workers.countP Worker.isExited := countP_set hWorker .waiting Worker.isExited
  have hCalled : s.destructor = .notCalled := by
    cases hAt : s.destructor with
    | notCalled => rfl
    | _ =>
        rw [hInv.stop.mpr (by rw [hAt]; exact nofun)] at hStop
        contradiction
  refine { hInv with size := ?_, exited := ?_, wakes := ?_, joining := ?_, done := ?_ }
  · exact List.length_set.trans hInv.size
  · rw [hExited]
    exact hInv.exited
  · intro _
    rw [hTasks]
    exact Nat.zero_le _
  · simp [hCalled]
  · simp [hCalled]

/-- A worker finds nothing to do after the destructor was called. -/
theorem leave (hWorker : s.workers[i]? = some .awake) (hTasks : s.pool.tasks = [])
    (hStop : s.pool.stop = true) :
    Inv numThreads maxQueueSize { s with workers := s.workers.set i .exited } := by
  have hWaiting : (s.workers.set i .exited).countP Worker.isWaiting =
      s.workers.countP Worker.isWaiting := countP_set hWorker .exited Worker.isWaiting
  have hExited : (s.workers.set i .exited).countP Worker.isExited =
      s.workers.countP Worker.isExited + 1 := countP_set hWorker .exited Worker.isExited
  have hAtMost : (s.workers.set i .exited).countP Worker.isExited ≤
      (s.workers.set i .exited).length := List.countP_le_length
  rw [List.length_set] at hAtMost
  refine { hInv with size := ?_, exited := ?_, wakes := ?_, joining := ?_, done := ?_ }
  · exact List.length_set.trans hInv.size
  · exact fun _ => ⟨hStop, hTasks⟩
  · intro _
    rw [hTasks]
    exact Nat.zero_le _
  · rw [hWaiting]
    exact hInv.joining
  · intro hDone
    have hAll := hInv.done hDone
    omega

/-- A worker takes the front task. -/
theorem take (hWorker : s.workers[i]? = some .awake) {task : τ} {tasks : List τ}
    (hTasks : s.pool.tasks = task :: tasks) :
    Inv numThreads maxQueueSize { s with
      pool := { s.pool with tasks := tasks }
      workers := s.workers.set i (.running task)
      started := s.started ++ [task] } := by
  have hWaiting : (s.workers.set i (.running task)).countP Worker.isWaiting =
      s.workers.countP Worker.isWaiting := countP_set hWorker (.running task) Worker.isWaiting
  have hAwake : (s.workers.set i (.running task)).countP Worker.isAwake + 1 =
      s.workers.countP Worker.isAwake := countP_set hWorker (.running task) Worker.isAwake
  have hExited : (s.workers.set i (.running task)).countP Worker.isExited =
      s.workers.countP Worker.isExited := countP_set hWorker (.running task) Worker.isExited
  have hBound := hInv.bound
  have hHistory := hInv.history
  have hWakes := hInv.wakes
  rw [hTasks] at hBound hHistory hWakes
  rw [List.length_cons] at hBound hWakes
  -- a worker that has returned has seen an empty queue
  have hNone : s.workers.countP Worker.isExited = 0 := by
    rcases Nat.eq_zero_or_pos (s.workers.countP Worker.isExited) with hZero | hSome
    · exact hZero
    · rw [(hInv.exited hSome).2] at hTasks
      contradiction
  have hPos : 0 < s.workers.length := by
    have hLt := (List.getElem?_eq_some_iff.mp hWorker).1
    omega
  refine { hInv with
    size := List.length_set.trans hInv.size
    bound := Nat.le_of_succ_le hBound
    history := ?_, exited := ?_, wakes := ?_, joining := ?_, done := ?_ }
  · rw [List.append_assoc]
    exact hHistory
  · intro hSome
    rw [hExited] at hSome
    omega
  · rw [hWaiting]
    intro hSome
    have hBefore := hWakes hSome
    dsimp only
    omega
  · rw [hWaiting]
    exact hInv.joining
  · intro hDone
    have hAll := hInv.done hDone
    omega

/-- A worker is back from a task. -/
theorem finish {task : τ} (hWorker : s.workers[i]? = some (.running task)) :
    Inv numThreads maxQueueSize { s with workers := s.workers.set i .awake } := by
  have hWaiting : (s.workers.set i .awake).countP Worker.isWaiting =
      s.workers.countP Worker.isWaiting := countP_set hWorker .awake Worker.isWaiting
  have hAwake : (s.workers.set i .awake).countP Worker.isAwake =
      s.workers.countP Worker.isAwake + 1 := countP_set hWorker .awake Worker.isAwake
  have hExited : (s.workers.set i .awake).countP Worker.isExited =
      s.workers.countP Worker.isExited := countP_set hWorker .awake Worker.isExited
  refine { hInv with size := ?_, exited := ?_, wakes := ?_, joining := ?_, done := ?_ }
  · exact List.length_set.trans hInv.size
  · rw [hExited]
    exact hInv.exited
  · rw [hWaiting]
    intro hSome
    have hBefore := hInv.wakes hSome
    dsimp only
    omega
  · rw [hWaiting]
    exact hInv.joining
  · rw [hExited, List.length_set]
    exact hInv.done

/-- A worker goes on with its task. -/
theorem goOn {task : τ} (hWorker : s.workers[i]? = some (.running task)) (task' : τ) :
    Inv numThreads maxQueueSize { s with workers := s.workers.set i (.running task') } := by
  have hWaiting : (s.workers.set i (.running task')).countP Worker.isWaiting =
      s.workers.countP Worker.isWaiting := countP_set hWorker (.running task') Worker.isWaiting
  have hAwake : (s.workers.set i (.running task')).countP Worker.isAwake =
      s.workers.countP Worker.isAwake := countP_set hWorker (.running task') Worker.isAwake
  have hExited : (s.workers.set i (.running task')).countP Worker.isExited =
      s.workers.countP Worker.isExited := countP_set hWorker (.running task') Worker.isExited
  refine { hInv with size := ?_, exited := ?_, wakes := ?_, joining := ?_, done := ?_ }
  · exact List.length_set.trans hInv.size
  · rw [hExited]
    exact hInv.exited
  · rw [hWaiting, hAwake]
    exact hInv.wakes
  · rw [hWaiting]
    exact hInv.joining
  · rw [hExited, List.length_set]
    exact hInv.done

/-- The destructor stops the pool. -/
theorem setStop :
    Inv numThreads maxQueueSize
      { s with pool := { s.pool with stop := true }, destructor := .stopped } := by
  refine { hInv with stop := ?_, exited := ?_, joining := ?_, done := ?_ }
  · simp
  · exact fun hSome => ⟨rfl, (hInv.exited hSome).2⟩
  · simp
  · simp

/-- `notify_all` leaves nobody asleep. -/
theorem notifyAll (hStopped : s.destructor = .stopped) :
    Inv numThreads maxQueueSize
      { s with workers := s.workers.map Worker.notified, destructor := .joining } := by
  have hWaiting : (s.workers.map Worker.notified).countP Worker.isWaiting = 0 := by
    rw [List.countP_eq_zero]
    intro worker hMem
    obtain ⟨before, -, hEq⟩ := List.mem_map.mp hMem
    rw [← hEq]
    cases before <;> simp [Worker.notified, Worker.isWaiting]
  have hExited : (s.workers.map Worker.notified).countP Worker.isExited =
      s.workers.countP Worker.isExited := by
    rw [List.countP_map]
    congr 1
    funext worker
    cases worker <;> rfl
  refine { hInv with
    size := (List.length_map _).trans hInv.size
    stop := ?_, exited := ?_, wakes := ?_, joining := fun _ => hWaiting, done := ?_ }
  · simp [hInv.stop, hStopped]
  · rw [hExited]
    exact hInv.exited
  · rw [hWaiting]
    intro hNone
    contradiction
  · simp

/-- The destructor has joined all workers. -/
theorem join (hJoining : s.destructor = .joining) (hAll : s.allExited = true) :
    Inv numThreads maxQueueSize { s with destructor := .done } := by
  refine { hInv with stop := ?_, joining := ?_, done := ?_ }
  · simp [hInv.stop, hJoining]
  · exact fun _ => hInv.joining (.inl hJoining)
  · intro _
    exact List.countP_eq_length.mpr (List.all_eq_true.mp hAll)

end Inv

theorem step_inv {a : Action τ} (hInv : Inv numThreads maxQueueSize s)
    (hStep : step s a = some s') : Inv numThreads maxQueueSize s' := by
  cases stepped hStep with
  | enqueue task => exact hInv.enqueue task
  | notify hNotifying hWorker => exact hInv.awaken hWorker (by omega)
  | notifyNobody hNotifying hNone =>
      refine { hInv with wakes := fun hSome => ?_ }
      obtain ⟨worker, hMem, hWaiting⟩ := List.countP_pos_iff.mp hSome
      rw [List.any_eq_true.mpr ⟨worker, hMem, hWaiting⟩] at hNone
      contradiction
  | wake hWorker => exact hInv.awaken hWorker (Nat.le_succ _)
  | sleep hWorker hTasks hStop => exact hInv.sleep hWorker hTasks hStop
  | leave hWorker hTasks hStop => exact hInv.leave hWorker hTasks hStop
  | take hWorker hTasks => exact hInv.take hWorker hTasks
  | finish hWorker => exact hInv.finish hWorker
  | stop => exact hInv.setStop
  | notifyAll hStopped => exact hInv.notifyAll hStopped
  | join hJoining hAll => exact hInv.join hJoining hAll

/-! ## What a step can do -/

/-- Only `enqueue` puts tasks into the queue. -/
theorem mem_tasks_of_step {a : Action τ} (hStep : step s a = some s') {task : τ}
    (hMem : task ∈ s'.pool.tasks) : task ∈ s.pool.tasks ∨ a = .enqueue task := by
  cases stepped hStep with
  | enqueue new =>
      dsimp only [ThreadPool.enqueue] at hMem
      split at hMem
      · exact .inl hMem
      · rcases List.mem_append.mp hMem with hBefore | hNew
        · exact .inl hBefore
        · rw [List.mem_singleton.mp hNew]
          exact .inr rfl
  | take hWorker hTasks =>
      rw [hTasks]
      exact .inl (List.mem_cons_of_mem _ hMem)
  | _ => exact .inl hMem

/-- The destructor begins with `stop`. -/
theorem destructor_of_step {a : Action τ} (hStep : step s a = some s')
    (hCalled : s.destructor = .notCalled) (hOther : a ≠ .stop) : s'.destructor = .notCalled := by
  cases stepped hStep with
  | stop => contradiction
  | notifyAll hStopped =>
      rw [hCalled] at hStopped
      contradiction
  | join hJoining =>
      rw [hCalled] at hJoining
      contradiction
  | _ => exact hCalled

/-- The threads of the pool are there from the start. -/
theorem length_workers_of_step {a : Action τ} (hStep : step s a = some s') :
    s'.workers.length = s.workers.length := by
  cases stepped hStep with
  | notifyAll => exact List.length_map _
  | enqueue => rfl
  | notifyNobody => rfl
  | stop => rfl
  | join => rfl
  | _ => exact List.length_set

/-- Workers run what they ran before, or what was queued. -/
theorem running_of_step {a : Action τ} (hStep : step s a = some s') {task : τ}
    (hMem : .running task ∈ s'.workers) : .running task ∈ s.workers ∨ task ∈ s.pool.tasks := by
  have hSet : ∀ {i : Nat} {worker : Worker τ}, .running task ∈ s.workers.set i worker →
      .running task ∈ s.workers ∨ .running task = worker := fun h => List.mem_or_eq_of_mem_set h
  cases stepped hStep with
  | enqueue new => exact .inl hMem
  | notifyNobody hNotifying hNone => exact .inl hMem
  | stop => exact .inl hMem
  | join => exact .inl hMem
  | take hWorker hTasks =>
      rcases hSet hMem with hBefore | hEq
      · exact .inl hBefore
      · injection hEq with hEq
        rw [hEq, hTasks]
        exact .inr List.mem_cons_self
  | notifyAll hStopped =>
      obtain ⟨worker, hBefore, hEq⟩ := List.mem_map.mp hMem
      cases worker <;> simp only [Worker.notified, reduceCtorEq] at hEq
      rw [← hEq]
      exact .inl hBefore
  | _ =>
      rcases hSet hMem with hBefore | hEq
      · exact .inl hBefore
      · contradiction

/-! ## Coming to rest -/

/-- What the workers, the pending notifications and the destructor do by themselves. -/
def Action.isInternal : Action τ → Bool
  | .notifyOne _ | .turn _ | .finish _ | .notifyAll | .join => true
  | _ => false

/-- How many steps a worker takes before it waits again or returns. -/
def Worker.size : Worker τ → Nat
  | .awake => 1
  | .running _ => 2
  | _ => 0

/-- How many steps the destructor still causes. -/
def Destructor.size (numThreads : Nat) : Destructor → Nat
  | .stopped => numThreads + 2
  | .joining => 1
  | _ => 0

/-- How many internal steps can follow. -/
def Threads.size (s : Threads τ) : Nat :=
  2 * s.pool.tasks.length + 2 * s.notifying + (s.workers.map Worker.size).sum +
    s.destructor.size s.workers.length

theorem sum_size_set {workers : List (Worker τ)} (hWorker : workers[i]? = some worker)
    (worker' : Worker τ) :
    ((workers.set i worker').map Worker.size).sum + worker.size =
      (workers.map Worker.size).sum + worker'.size := by
  induction workers generalizing i with
  | nil => simp at hWorker
  | cons first rest ih =>
      cases i with
      | zero =>
          have hEq : first = worker := by simpa using hWorker
          simp only [List.set_cons_zero, List.map_cons, List.sum_cons, hEq]
          omega
      | succ i =>
          have hRest := ih (i := i) (by simpa using hWorker)
          simp only [List.set_cons_succ, List.map_cons, List.sum_cons]
          omega

theorem sum_size_notified (workers : List (Worker τ)) :
    ((workers.map Worker.notified).map Worker.size).sum ≤
      (workers.map Worker.size).sum + workers.length := by
  induction workers with
  | nil => simp
  | cons first rest ih =>
      have hFirst : first.notified.size ≤ first.size + 1 := by
        cases first <;> simp [Worker.notified, Worker.size]
      simp only [List.map_cons, List.sum_cons, List.length_cons]
      omega

/-- Every internal step brings the pool closer to rest. -/
theorem step_size_lt {a : Action τ} (hInternal : a.isInternal = true)
    (hStep : step s a = some s') : s'.size < s.size := by
  cases stepped hStep with
  | enqueue task => contradiction
  | wake hWorker => contradiction
  | stop => contradiction
  | notify hNotifying hWorker =>
      have hSum := sum_size_set hWorker .awake
      simp only [Worker.size] at hSum
      simp only [Threads.size, List.length_set]
      omega
  | notifyNobody hNotifying hNone =>
      simp only [Threads.size]
      omega
  | sleep hWorker hTasks hStop =>
      have hSum := sum_size_set hWorker .waiting
      simp only [Worker.size] at hSum
      simp only [Threads.size, List.length_set]
      omega
  | leave hWorker hTasks hStop =>
      have hSum := sum_size_set hWorker .exited
      simp only [Worker.size] at hSum
      simp only [Threads.size, List.length_set]
      omega
  | @take _ task _ hWorker hTasks =>
      have hSum := sum_size_set hWorker (.running task)
      simp only [Worker.size] at hSum
      simp only [Threads.size, List.length_set, hTasks, List.length_cons]
      omega
  | finish hWorker =>
      have hSum := sum_size_set hWorker .awake
      simp only [Worker.size] at hSum
      simp only [Threads.size, List.length_set]
      omega
  | notifyAll hStopped =>
      have hSum := sum_size_notified s.workers
      simp only [Threads.size, hStopped, Destructor.size]
      omega
  | join hJoining hAll =>
      simp only [Threads.size, hJoining, Destructor.size]
      omega

/-- No internal step is left. -/
def Threads.AtRest (s : Threads τ) : Prop :=
  ∀ a : Action τ, a.isInternal = true → step s a = none

namespace Threads.AtRest

variable (hRest : s.AtRest)

include hRest

theorem notifying : s.notifying = 0 := by
  cases hNotifying : s.notifying with
  | zero => rfl
  | succ notifying =>
      cases hSome : s.workers.any Worker.isWaiting with
      | true =>
          obtain ⟨worker, hMem, hWaiting⟩ := List.any_eq_true.mp hSome
          obtain ⟨i, hWorker⟩ := List.mem_iff_getElem?.mp hMem
          have hStep := hRest (.notifyOne i) rfl
          cases worker <;> simp [Worker.isWaiting] at hWaiting
          simp [step, hNotifying, hWorker] at hStep
      | false =>
          have hStep := hRest (.notifyOne s.workers.length) rfl
          simp [step, hNotifying, hSome] at hStep

theorem idle (hMem : worker ∈ s.workers) :
    worker.isWaiting = true ∨ worker.isExited = true := by
  obtain ⟨i, hWorker⟩ := List.mem_iff_getElem?.mp hMem
  cases worker with
  | waiting => exact .inl rfl
  | exited => exact .inr rfl
  | awake =>
      have hStep := hRest (.turn i) rfl
      simp [step, hWorker] at hStep
  | running task =>
      have hStep := hRest (.finish i) rfl
      simp [step, hWorker] at hStep

theorem countP_isAwake : s.workers.countP Worker.isAwake = 0 := by
  rw [List.countP_eq_zero]
  intro worker hMem
  rcases hRest.idle hMem with hWaiting | hExited
  · cases worker <;> simp_all [Worker.isWaiting, Worker.isAwake]
  · cases worker <;> simp_all [Worker.isExited, Worker.isAwake]

/-- The destructor is never stuck: it has not been called, or has returned. -/
theorem destructor (hInv : Inv numThreads maxQueueSize s) :
    s.destructor = .notCalled ∨ s.destructor = .done := by
  cases hDestructor : s.destructor with
  | notCalled => exact .inl rfl
  | done => exact .inr rfl
  | stopped =>
      have hStep := hRest .notifyAll rfl
      simp [step, hDestructor] at hStep
  | joining =>
      have hNone := hInv.joining (.inl hDestructor)
      have hAll : s.allExited = true := by
        refine List.all_eq_true.mpr fun worker hMem => ?_
        rcases hRest.idle hMem with hWaiting | hExited
        · exact absurd hWaiting (List.countP_eq_zero.mp hNone worker hMem)
        · exact hExited
      have hStep := hRest .join rfl
      simp [step, hDestructor, hAll] at hStep

/-- A pool at rest has no task left. -/
theorem quiet_queue (hInv : Inv numThreads maxQueueSize s) (hThreads : 1 ≤ numThreads) :
    s.pool.tasks = [] := by
  rcases hRest.destructor hInv with hCalled | hDone
  · -- everybody sleeps, and no notification is pending
    obtain ⟨worker, hMem⟩ : ∃ worker, worker ∈ s.workers :=
      List.exists_mem_of_length_pos (by rw [hInv.size]; exact hThreads)
    have hWaiting : 0 < s.workers.countP Worker.isWaiting := by
      rcases hRest.idle hMem with hWaiting | hExited
      · exact List.countP_pos_iff.mpr ⟨worker, hMem, hWaiting⟩
      · have hStop := (hInv.exited (List.countP_pos_iff.mpr ⟨worker, hMem, hExited⟩)).1
        exact absurd hCalled (hInv.stop.mp hStop)
    have hTasks := hInv.wakes hWaiting
    rw [hRest.notifying, hRest.countP_isAwake] at hTasks
    exact List.eq_nil_of_length_eq_zero (by omega)
  · have hAll := hInv.done hDone
    exact (hInv.exited (by rw [hAll, hInv.size]; exact hThreads)).2

end Threads.AtRest

/-! ## Main results -/

theorem run_inv {acts : List (Action τ)} (hInv : Inv numThreads maxQueueSize s)
    (hRun : run step s acts = some s') : Inv numThreads maxQueueSize s' :=
  run_invariant (fun _ _ _ hInv hStep => step_inv hInv hStep) hInv hRun

/-- Only `enqueue` accepts tasks. -/
theorem step_accepted {a : Action τ} (hInternal : a.isInternal = true)
    (hStep : step s a = some s') : s'.accepted = s.accepted := by
  cases stepped hStep with
  | enqueue task => contradiction
  | _ => rfl

theorem run_accepted {acts : List (Action τ)} (hInternal : ∀ a ∈ acts, a.isInternal = true)
    (hRun : run step s acts = some s') : s'.accepted = s.accepted := by
  have hStep : ∀ t a t', t.accepted = s.accepted → a.isInternal = true →
      step t a = some t' → t'.accepted = s.accepted :=
    fun t a t' hEq hInternal hStep => (step_accepted hInternal hStep).trans hEq
  exact run_invariant_of_stepsMeet hStep acts s s' rfl
    (.of_forall fun a ha _ => hInternal a ha) hRun

/-- The queue stays within its bound.  What has been accepted is what has been started,
in this order and as often, and what is queued; when all workers have returned, nothing
is queued.  If the workers, the notifications and the destructor go on, they come to rest
after so many steps, and then everything accepted has been started. -/
theorem runs_accepted_tasks (numThreads maxQueueSize : Nat) (hThreads : 1 ≤ numThreads)
    (acts : List (Action τ)) (s : Threads τ)
    (hRun : run step (.start numThreads maxQueueSize) acts = some s) :
    s.pool.tasks.length ≤ max 1 maxQueueSize ∧
      s.started ++ s.pool.tasks = s.accepted ∧
      (∀ task, (task, true) ∉ s.submitted → task ∉ s.started) ∧
      (s.allExited = true → s.pool.tasks = [] ∧ s.started = s.accepted) ∧
      ∀ rest t, (∀ a ∈ rest, a.isInternal = true) → run step s rest = some t →
        rest.length ≤ s.size ∧ (t.AtRest → t.started = s.accepted) := by
  have hInv := run_inv inv_start hRun
  have hHistory := hInv.history
  refine ⟨?_, hHistory, ?_, ?_, ?_⟩
  · rw [← hInv.limit]
    exact hInv.bound
  · intro task hNever hStarted
    have hAccepted : task ∈ s.accepted := by
      rw [← hHistory]
      exact List.mem_append_left _ hStarted
    obtain ⟨⟨task', answer⟩, hMem, rfl⟩ := List.mem_map.mp hAccepted
    obtain ⟨hSubmitted, hAnswer⟩ := List.mem_filter.mp hMem
    dsimp only at hAnswer
    rw [hAnswer] at hSubmitted
    exact hNever hSubmitted
  · intro hAll
    have hCount : s.workers.countP Worker.isExited = s.workers.length :=
      List.countP_eq_length.mpr (List.all_eq_true.mp hAll)
    have hTasks := (hInv.exited (by rw [hCount, hInv.size]; exact hThreads)).2
    rw [hTasks, List.append_nil] at hHistory
    exact ⟨hTasks, hHistory⟩
  · intro rest t hInternal hRest
    have hKeeps : ∀ t (a : Action τ) t', Inv numThreads maxQueueSize t → step t a = some t' →
        Inv numThreads maxQueueSize t' := fun t a t' hInv hStep => step_inv hInv hStep
    have hLess : ∀ t (a : Action τ) t', Inv numThreads maxQueueSize t → a.isInternal = true →
        step t a = some t' → t'.size < t.size :=
      fun t a t' _ hInternal hStep => step_size_lt hInternal hStep
    have hLength := run_length_le hKeeps hLess rest s t hInv hInternal hRest
    refine ⟨by omega, fun hAtRest => ?_⟩
    have hFinal := run_inv hInv hRest
    have hEnd := hFinal.history
    rw [hAtRest.quiet_queue hFinal hThreads, List.append_nil] at hEnd
    rw [hEnd]
    exact run_accepted hInternal hRest

/-- Two workers, a queue for one task, and the destructor while a task is queued. -/
theorem runs_accepted_tasks_stopped :
    ∃ s : Threads Nat, run step (.start 2 0)
        [.turn 0, .enqueue 7, .enqueue 8, .stop, .notifyAll, .turn 1, .finish 1] = some s ∧
      s.pool.tasks.length ≤ max 1 0 ∧
      s.started ++ s.pool.tasks = s.accepted ∧
      (∀ task, (task, true) ∉ s.submitted → task ∉ s.started) ∧
      (s.allExited = true → s.pool.tasks = [] ∧ s.started = s.accepted) ∧
      ∀ rest t, (∀ a ∈ rest, a.isInternal = true) → run step s rest = some t →
        rest.length ≤ s.size ∧ (t.AtRest → t.started = s.accepted) := by
  refine ⟨_, rfl, runs_accepted_tasks 2 0 (by decide)
    [.turn 0, .enqueue 7, .enqueue 8, .stop, .notifyAll, .turn 1, .finish 1] _ rfl⟩

end CppChat.Ports.Workers
