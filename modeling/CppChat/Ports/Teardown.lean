import CppChat.Ports.ThreadPool
import CppChat.Ports.PacketCodec

/-!
# Destroying the application

The tasks that `handle_client_read` puts into the thread pool call `process_packet_async`
on the `TcpServer`, which calls `handle_client_line` on the `ChatService`.  The members of
`ChatServerApp` are destroyed in the reverse order of their declaration: `tcp_server_`
and `chat_service_` before `thread_pool_`, whose destructor lets the workers run all tasks
that are left.  Neither of the first two destructors waits for the workers.

The reactor is the thread that destroys the application, so it does so between two calls
of `handle_client_read`.  `late` records the steps of tasks after the destructor of
`TcpServer` or `ChatService`.

## Main results

* `step_inv`: before the destruction begins no step is late, and every task has a packet.
* `step_idle`: a pool that has nothing to do keeps to it during the destruction.
* `teardown_safe_iff`: no step is late, whatever the interleaving, exactly where the pool
  has nothing to do.
-/

namespace CppChat.Ports.Teardown

open CppChat.Verified.Transition
open CppChat.Ports.PacketCodec
open CppChat.Ports.Workers

/-! ## The application -/

/-- The members of `ChatServerApp`. -/
inductive Member where
  | config
  | dbPool
  | logger
  | messageStore
  | userStore
  | groupStore
  | groupMemberStore
  | sessionManager
  | threadPool
  | chatService
  | tcpServer
deriving DecidableEq

/-- The members of `ChatServerApp` in the order of their declaration. -/
def declared : List Member :=
  [.config, .dbPool, .logger, .messageStore, .userStore, .groupStore, .groupMemberStore,
    .sessionManager, .threadPool, .chatService, .tcpServer]

/-- Where a task is with its packet: in `process_packet_async` before and after the call
of `handle_client_line`, or in it. -/
inductive Stage where
  | processing
  | handling
  | queueing
deriving DecidableEq

/-- The lambda of `handle_client_read`: the packets it has not finished. -/
structure PacketTask where
  connectionId : Nat
  generation : Nat
  packets : List Packet
  stage : Stage := .processing

/-- The next step of a task. -/
def PacketTask.advance (task : PacketTask) : PacketTask :=
  match task.stage with
  | .processing => { task with stage := .handling }
  | .handling => { task with stage := .queueing }
  | .queueing => { task with packets := task.packets.tail, stage := .processing }

/-- The members that have not been destroyed, and the threads of the pool. -/
structure App where
  members : List Member := declared
  threads : Threads PacketTask
  late : List Stage := []

/-- All members are there, and the workers have just been started. -/
def App.start (numThreads maxQueueSize : Nat) : App :=
  { threads := .start numThreads maxQueueSize }

/-- `TcpServer` and `ChatService` are both there. -/
def App.serves (s : App) : Bool :=
  decide (.tcpServer ∈ s.members) && decide (.chatService ∈ s.members)

/-- What the event loop, the workers and the destructor can do next. -/
inductive Action where
  | read (connectionId generation : Nat) (packets : List Packet)
  | notifyOne (woken : Nat)
  | wake (worker : Nat)
  | turn (worker : Nat)
  | work (worker : Nat)
  | finish (worker : Nat)
  | destroyMember
  | stop
  | notifyAll
  | join

/-- The step of the threads, if there is one. -/
def App.withThreads (s : App) (threads : Option (Threads PacketTask)) : Option App :=
  threads.map fun threads => { s with threads := threads }

/-- The destructor of the pool runs when all members declared after it are gone. -/
def step (s : App) : Action → Option App
  | .read connectionId generation packets =>
      if s.members = declared ∧ packets ≠ [] then
        s.withThreads (Workers.step s.threads (.enqueue { connectionId, generation, packets }))
      else none
  | .notifyOne woken => s.withThreads (Workers.step s.threads (.notifyOne woken))
  | .wake worker => s.withThreads (Workers.step s.threads (.wake worker))
  | .turn worker => s.withThreads (Workers.step s.threads (.turn worker))
  | .work worker =>
      match s.threads.workers[worker]? with
      | some (.running task) =>
          if task.packets = [] then none
          else
            some { s with
              threads := { s.threads with
                workers := s.threads.workers.set worker (.running task.advance) }
              late := if s.serves then s.late else s.late ++ [task.stage] }
      | _ => none
  | .finish worker =>
      match s.threads.workers[worker]? with
      | some (.running task) =>
          if task.packets = [] then s.withThreads (Workers.step s.threads (.finish worker))
          else none
      | _ => none
  | .destroyMember =>
      match s.members.getLast?, s.threads.notifying, s.threads.destructor with
      | some .threadPool, _, .done => some { s with members := s.members.dropLast }
      | some .threadPool, _, _ => none
      | some _, 0, _ => some { s with members := s.members.dropLast }
      | _, _, _ => none
  | .stop =>
      if s.members.getLast? = some .threadPool then
        s.withThreads (Workers.step s.threads .stop)
      else none
  | .notifyAll => s.withThreads (Workers.step s.threads .notifyAll)
  | .join => s.withThreads (Workers.step s.threads .join)

/-! ## Before the destruction -/

/-- The invariant: the workers keep theirs, and members are destroyed from the last
to the first. -/
structure Inv (numThreads maxQueueSize : Nat) (s : App) : Prop where
  pool : Workers.Inv numThreads maxQueueSize s.threads
  packets : ∀ task ∈ s.threads.pool.tasks, task.packets ≠ []
  members : s.members.length ≤ declared.length
  intact : s.members = declared → s.threads.destructor = .notCalled ∧ s.late = []

variable {numThreads maxQueueSize : Nat} {s s' : App}

theorem inv_start : Inv numThreads maxQueueSize (.start numThreads maxQueueSize) where
  pool := Workers.inv_start
  packets := by
    intro task hMem
    simp [App.start, Threads.start, ThreadPool.new] at hMem
  members := Nat.le_refl _
  intact := fun _ => ⟨rfl, rfl⟩

theorem serves_of_declared (h : s.members = declared) : s.serves = true := by
  unfold App.serves
  rw [h]
  decide

/-- A step of the thread pool. -/
theorem Inv.withThreads (hInv : Inv numThreads maxQueueSize s)
    {a : Workers.Action PacketTask}
    (hStep : s.withThreads (Workers.step s.threads a) = some s')
    (hTask : ∀ task, a = .enqueue task → task.packets ≠ [])
    (hStop : s.members = declared → a ≠ .stop) : Inv numThreads maxQueueSize s' := by
  obtain ⟨threads, hThreads, rfl⟩ := Option.map_eq_some_iff.mp hStep
  refine ⟨Workers.step_inv hInv.pool hThreads, fun task hMem => ?_, hInv.members,
    fun hDeclared => ?_⟩
  · rcases Workers.mem_tasks_of_step hThreads hMem with hBefore | hNew
    · exact hInv.packets task hBefore
    · exact hTask task hNew
  · obtain ⟨hCalled, hLate⟩ := hInv.intact hDeclared
    exact ⟨Workers.destructor_of_step hThreads hCalled (hStop hDeclared), hLate⟩

/-- A member is destroyed, and nothing else happens. -/
theorem destroyed (hStep : step s .destroyMember = some s') :
    s' = { s with members := s.members.dropLast } ∧ s'.members.length < s.members.length := by
  have hNext : s.members ≠ [] ∧ s' = { s with members := s.members.dropLast } := by
    simp only [step] at hStep
    have hSome : ∀ {member}, s.members.getLast? = some member → s.members ≠ [] := by
      intro member hLast hNil
      rw [hNil] at hLast
      contradiction
    split at hStep
    · rename_i hLast _
      exact ⟨hSome hLast, (Option.some.inj hStep).symm⟩
    · contradiction
    · rename_i hLast _ _
      exact ⟨hSome hLast, (Option.some.inj hStep).symm⟩
    · contradiction
  obtain ⟨hNonempty, rfl⟩ := hNext
  have hPos := List.length_pos_iff.mpr hNonempty
  refine ⟨rfl, ?_⟩
  rw [List.length_dropLast]
  omega

theorem step_inv {a : Action} (hInv : Inv numThreads maxQueueSize s) (hStep : step s a = some s') :
    Inv numThreads maxQueueSize s' := by
  cases a with
  | destroyMember =>
      obtain ⟨rfl, hLess⟩ := destroyed hStep
      have hLength := hInv.members
      refine ⟨hInv.pool, hInv.packets, by omega, fun hDeclared => ?_⟩
      rw [hDeclared] at hLess
      omega
  | read connectionId generation packets =>
      simp only [step] at hStep
      split at hStep
      · rename_i hRead
        refine hInv.withThreads hStep (fun task hEq => ?_) (by simp)
        injection hEq with hEq
        rw [← hEq]
        exact hRead.2
      · contradiction
  | work i =>
      simp only [step] at hStep
      split at hStep
      · rename_i task hWorker
        split at hStep
        · contradiction
        · rw [← Option.some.inj hStep]
          refine ⟨hInv.pool.goOn hWorker _, hInv.packets, hInv.members, fun hDeclared => ?_⟩
          obtain ⟨hCalled, hLate⟩ := hInv.intact hDeclared
          have hServes : s.serves = true := serves_of_declared hDeclared
          refine ⟨hCalled, ?_⟩
          dsimp only
          rw [hServes]
          exact hLate
      · contradiction
  | finish i =>
      simp only [step] at hStep
      split at hStep
      · split at hStep
        · exact hInv.withThreads hStep (by simp) (by simp)
        · contradiction
      · contradiction
  | stop =>
      simp only [step] at hStep
      split at hStep
      · rename_i hLast
        refine hInv.withThreads hStep (by simp) fun hDeclared => ?_
        rw [hDeclared] at hLast
        contradiction
      · contradiction
  | notifyOne woken => exact hInv.withThreads hStep (by simp) (by simp)
  | wake i => exact hInv.withThreads hStep (by simp) (by simp)
  | turn i => exact hInv.withThreads hStep (by simp) (by simp)
  | notifyAll => exact hInv.withThreads hStep (by simp) (by simp)
  | join => exact hInv.withThreads hStep (by simp) (by simp)

/-! ## A pool with nothing to do -/

/-- No worker has a packet left, and nobody will take a task. -/
def App.Idle (s : App) : Prop :=
  (∀ task, .running task ∈ s.threads.workers → task.packets = []) ∧
    (s.threads.pool.tasks = [] ∨ s.threads.workers = [])

/-- The destruction has begun, and so far no step was late. -/
structure Quiet (s : App) : Prop where
  begun : s.members.length < declared.length
  idle : s.Idle
  late : s.late = []

theorem Quiet.withThreads (hQuiet : Quiet s) {a : Workers.Action PacketTask}
    (hStep : s.withThreads (Workers.step s.threads a) = some s')
    (hTask : ∀ task, a ≠ .enqueue task) : Quiet s' := by
  obtain ⟨threads, hThreads, rfl⟩ := Option.map_eq_some_iff.mp hStep
  obtain ⟨hRunning, hNothing⟩ := hQuiet.idle
  have hWorkers : s.threads.workers = [] → threads.workers = [] := by
    intro hNil
    have hLength := Workers.length_workers_of_step hThreads
    rw [hNil] at hLength
    exact List.eq_nil_of_length_eq_zero hLength
  have hTasks : s.threads.pool.tasks = [] → threads.pool.tasks = [] := by
    intro hNil
    refine List.eq_nil_iff_forall_not_mem.mpr fun task hMem => ?_
    rcases Workers.mem_tasks_of_step hThreads hMem with hBefore | hNew
    · rw [hNil] at hBefore
      simp at hBefore
    · exact hTask task hNew
  refine ⟨hQuiet.begun, ⟨fun task hMem => ?_, hNothing.imp hTasks hWorkers⟩, hQuiet.late⟩
  rcases Workers.running_of_step hThreads hMem with hBefore | hQueued
  · exact hRunning task hBefore
  · rcases hNothing with hNil | hNil
    · rw [hNil] at hQueued
      simp at hQueued
    · rw [hWorkers hNil] at hMem
      simp at hMem

/-- What has nothing to do keeps to it during the destruction. -/
theorem step_idle {a : Action} (hQuiet : Quiet s) (hStep : step s a = some s') : Quiet s' := by
  cases a with
  | destroyMember =>
      obtain ⟨rfl, hLess⟩ := destroyed hStep
      have hBegun := hQuiet.begun
      exact ⟨by omega, hQuiet.idle, hQuiet.late⟩
  | read connectionId generation packets =>
      simp only [step] at hStep
      split at hStep
      · rename_i hRead
        have hBegun := hQuiet.begun
        rw [hRead.1] at hBegun
        exact absurd hBegun (Nat.lt_irrefl _)
      · contradiction
  | work i =>
      simp only [step] at hStep
      split at hStep
      · rename_i task hWorker
        rw [if_pos (hQuiet.idle.1 task (List.mem_of_getElem? hWorker))] at hStep
        contradiction
      · contradiction
  | finish i =>
      simp only [step] at hStep
      split at hStep
      · split at hStep
        · exact hQuiet.withThreads hStep (by simp)
        · contradiction
      · contradiction
  | stop =>
      simp only [step] at hStep
      split at hStep
      · exact hQuiet.withThreads hStep (by simp)
      · contradiction
  | notifyOne woken => exact hQuiet.withThreads hStep (by simp)
  | wake i => exact hQuiet.withThreads hStep (by simp)
  | turn i => exact hQuiet.withThreads hStep (by simp)
  | notifyAll => exact hQuiet.withThreads hStep (by simp)
  | join => exact hQuiet.withThreads hStep (by simp)

/-! ## Late steps -/

/-- A worker that has a packet left goes on when the server is gone. -/
theorem late_of_running {i : Nat} {task : PacketTask}
    (hWorker : s.threads.workers[i]? = some (.running task)) (hPackets : task.packets ≠ [])
    (hServes : s.serves = false) : CanReach step (fun t => t.late ≠ []) s := by
  have hStep : step s (.work i) = some { s with
      threads := { s.threads with workers := s.threads.workers.set i (.running task.advance) }
      late := s.late ++ [task.stage] } := by
    simp [step, hWorker, hPackets, hServes]
  exact .of_step _ hStep (.here (by simp))

/-- A worker that is awake takes the front task. -/
theorem late_of_awake {i : Nat} {task : PacketTask} {tasks : List PacketTask}
    (hWorker : s.threads.workers[i]? = some .awake)
    (hTasks : s.threads.pool.tasks = task :: tasks) (hPackets : task.packets ≠ [])
    (hServes : s.serves = false) : CanReach step (fun t => t.late ≠ []) s := by
  have hStep : step s (.turn i) = some { s with
      threads := { s.threads with
        pool := { s.threads.pool with tasks := tasks }
        workers := s.threads.workers.set i (.running task)
        started := s.threads.started ++ [task] } } := by
    simp [step, App.withThreads, Workers.step, hWorker, ThreadPool.turn, hTasks, Worker.ofTurn,
      Turn.begun]
  have hLt := (List.getElem?_eq_some_iff.mp hWorker).1
  exact .of_step _ hStep (late_of_running (i := i) (by simp [hLt]) hPackets hServes)

/-- A worker that is done with its task comes back for the next one. -/
theorem late_of_done {i : Nat} {current task : PacketTask} {tasks : List PacketTask}
    (hWorker : s.threads.workers[i]? = some (.running current)) (hDone : current.packets = [])
    (hTasks : s.threads.pool.tasks = task :: tasks) (hPackets : task.packets ≠ [])
    (hServes : s.serves = false) : CanReach step (fun t => t.late ≠ []) s := by
  have hStep : step s (.finish i) = some { s with
      threads := { s.threads with workers := s.threads.workers.set i .awake } } := by
    simp [step, App.withThreads, Workers.step, hWorker, hDone]
  have hLt := (List.getElem?_eq_some_iff.mp hWorker).1
  exact .of_step _ hStep (late_of_awake (i := i) (by simp [hLt]) hTasks hPackets hServes)

/-- The destructor of the pool wakes its workers, and one of them takes a task that is
still queued. -/
theorem late_of_queued {task : PacketTask} {tasks : List PacketTask}
    (hMembers : s.members = declared.dropLast) (hNotifying : s.threads.notifying = 0)
    (hCalled : s.threads.destructor = .notCalled)
    (hTasks : s.threads.pool.tasks = task :: tasks) (hPackets : task.packets ≠ [])
    {worker : Worker PacketTask} (hWorker : s.threads.workers[0]? = some worker)
    (hExited : worker.isExited = false)
    (hRunning : ∀ task, worker = .running task → task.packets = []) :
    CanReach step (fun t => t.late ≠ []) s := by
  -- `chat_service_` is destroyed, and the destructor of `thread_pool_` notifies everybody
  have hChat : step s .destroyMember =
      some { s with members := declared.dropLast.dropLast } := by
    simp [step, hMembers, hNotifying, declared]
  refine .of_step _ hChat (.of_step .stop (by
    simp only [step, App.withThreads, Workers.step, hCalled]
    rfl) (.of_step .notifyAll rfl ?_))
  have hServes : ∀ threads late,
      ({ members := declared.dropLast.dropLast, threads := threads, late := late } : App).serves =
        false := fun _ _ => rfl
  have hNotified : (s.threads.workers.map Worker.notified)[0]? = some worker.notified := by
    rw [List.getElem?_map, hWorker]
    rfl
  cases worker with
  | exited => contradiction
  | waiting => exact late_of_awake hNotified hTasks hPackets (hServes _ _)
  | awake => exact late_of_awake hNotified hTasks hPackets (hServes _ _)
  | running current =>
      exact late_of_done hNotified (hRunning current rfl) hTasks hPackets (hServes _ _)

/-! ## Main results -/

/-- Take the application at any time when the reactor may destroy it.  No step of a task
comes late, whatever the interleaving of the workers with the destruction, exactly where
no worker has a packet left and no task is queued for one. -/
theorem teardown_safe_iff (numThreads maxQueueSize : Nat) (acts : List Action)
    (hRun : run step (.start numThreads maxQueueSize) acts = some s)
    (hMembers : s.members = declared) (hNotifying : s.threads.notifying = 0) :
    (∀ acts t, run step s (.destroyMember :: acts) = some t → t.late = []) ↔ s.Idle := by
  have hInv : Inv numThreads maxQueueSize s :=
    run_invariant (fun _ _ _ hInv hStep => step_inv hInv hStep) inv_start hRun
  obtain ⟨hCalled, hLate⟩ := hInv.intact hMembers
  have hTcp : step s .destroyMember = some { s with members := declared.dropLast } := by
    simp [step, hMembers, hNotifying, declared]
  constructor
  · intro hSafe
    have hNever :
        ¬CanReach step (fun t => t.late ≠ []) { s with members := declared.dropLast } := by
      rintro ⟨acts, t, hActs, hSome⟩
      refine hSome (hSafe acts t ?_)
      rw [run, hTcp]
      exact hActs
    have hRunning : ∀ task, .running task ∈ s.threads.workers → task.packets = [] := by
      intro task hMem
      by_contra hPackets
      obtain ⟨i, hWorker⟩ := List.mem_iff_getElem?.mp hMem
      exact hNever (late_of_running (i := i) hWorker hPackets rfl)
    refine ⟨hRunning, ?_⟩
    by_contra hQueued
    obtain ⟨hSomeTask, hSomeWorker⟩ := not_or.mp hQueued
    obtain ⟨task, tasks, hTasks⟩ := List.exists_cons_of_ne_nil hSomeTask
    obtain ⟨worker, workers, hWorkers⟩ := List.exists_cons_of_ne_nil hSomeWorker
    have hMem : worker ∈ s.threads.workers := by
      rw [hWorkers]
      exact List.mem_cons_self
    have hPackets : task.packets ≠ [] :=
      hInv.packets task (by rw [hTasks]; exact List.mem_cons_self)
    have hExited : worker.isExited = false := by
      rw [Bool.eq_false_iff]
      intro hExited
      have hStop := (hInv.pool.exited (List.countP_pos_iff.mpr ⟨worker, hMem, hExited⟩)).1
      exact hInv.pool.stop.mp hStop hCalled
    have hWorker : s.threads.workers[0]? = some worker := by
      rw [hWorkers]
      rfl
    refine hNever (late_of_queued rfl hNotifying hCalled hTasks hPackets hWorker hExited ?_)
    rintro current rfl
    exact hRunning current hMem
  · intro hIdle acts t hActs
    rw [run, hTcp] at hActs
    have hBegun : Quiet { s with members := declared.dropLast } :=
      ⟨(show declared.dropLast.length < declared.length by decide), hIdle, hLate⟩
    exact (run_invariant (fun _ _ _ hQuiet hStep => step_idle hQuiet hStep) hBegun hActs).late

/-- One request is read and served. -/
def sampleServed : List Action :=
  [.read 1 1 [{ payload := [] }], .notifyOne 0, .turn 0, .work 0, .work 0, .work 0]

/-- One request is read, and nobody has taken it. -/
def sampleQueued : List Action := [.read 1 1 [{ payload := [] }], .notifyOne 0]

/-- The application is destroyed safely after the first run, and not after the second. -/
theorem teardown_safe_samples :
    (∃ s, run step (.start 1 4) sampleServed = some s ∧ s.Idle ∧
      ∀ acts t, run step s (.destroyMember :: acts) = some t → t.late = []) ∧
    ∃ s, run step (.start 1 4) sampleQueued = some s ∧ ¬s.Idle ∧
      ¬∀ acts t, run step s (.destroyMember :: acts) = some t → t.late = [] := by
  refine ⟨⟨_, rfl, ?_⟩, ⟨_, rfl, ?_⟩⟩
  · rw [teardown_safe_iff 1 4 sampleServed rfl rfl rfl, and_self]
    refine ⟨fun task hMem => ?_, .inl rfl⟩
    injection List.mem_singleton.mp hMem with hTask
    rw [hTask]
    rfl
  · rw [teardown_safe_iff 1 4 sampleQueued rfl rfl rfl, and_self]
    rintro ⟨-, hNothing⟩
    rcases hNothing with hTasks | hWorkers
    · exact List.cons_ne_nil _ _ hTasks
    · exact List.cons_ne_nil _ _ hWorkers

/-- One request is queued when the application is destroyed. -/
theorem not_teardown_safe :
    ¬∀ (numThreads maxQueueSize : Nat) (acts : List Action) (s : App),
      run step (.start numThreads maxQueueSize) acts = some s → s.members = declared →
      s.threads.notifying = 0 → ∀ acts t, run step s (.destroyMember :: acts) = some t →
      t.late = [] := by
  intro h
  have hLate := h 1 4 [.read 1 1 [{ payload := [] }], .notifyOne 0] _ rfl rfl rfl
    [.turn 0, .work 0, .work 0, .work 0] _ rfl
  contradiction

end CppChat.Ports.Teardown
