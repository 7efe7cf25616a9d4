import CppChat.Ports.DeliveryPromise
import CppChat.Ports.MessageOrder

/-!
# Delivery while others are at work

The workers of the thread pool share the stores, and the calls of their requests come in
any order.  What each request has learned stays true all the same, so all of them keep the
promises of `DeliveryPromise`, and the invariant of the service, which was proved for one
request after the other, holds between any two calls.

A message is never lost between the two ways to its reader: who is looked for and not found
was offline when the message was already in the store, and who is online from some moment
on gets every message live that `unread` would not have shown at that moment.

## Main results

* `step_promised`: a step of anyone leaves every request able to keep its promise.
* `sessions_agree`: the invariant of the service, between any two calls.
* `replies_delivered`: what the replies to a finished request are, in every run.
* `acks_exactlyOnce`: every message has one request, and one acknowledgement.
* `no_message_missed`: pull at one moment and push from then on miss nothing.
-/

namespace CppChat.Ports.ServerRuns

open CppChat.Verified
open CppChat.Verified.AtomicProgram
open CppChat.Verified.Transition
open CppChat.Ports.Protocol
open CppChat.Ports.Sessions
open CppChat.Ports.Users
open CppChat.Ports.Messages
open CppChat.Ports.Chat
open CppChat.Ports.Network
open CppChat.Ports.Delivery
open CppChat.Ports.ConnectionTeardown (PoolConfig)

/-! ## What the log says of a packet -/

/-- The ids of the messages a packet has stored. -/
def storedIds (log : List Event) (frame : Frame) : List Nat :=
  log.filterMap fun event => match event with
    | .stored f id => if f = frame then some id else none
    | _ => none

/-- The packet is this payload of this connection. -/
def Asked (log : List Event) (frame : Frame) (c : Nat) (line : Bytes) : Prop :=
  ∃ generation payloads, .read frame.task c generation payloads ∈ log ∧
    payloads[frame.index]? = some line

theorem storedIds_append (log more : List Event) (frame : Frame) :
    storedIds (log ++ more) frame = storedIds log frame ++ storedIds more frame :=
  List.filterMap_append

theorem mem_storedIds {log : List Event} {frame : Frame} {id : Nat} :
    id ∈ storedIds log frame ↔ .stored frame id ∈ log := by
  unfold storedIds
  rw [List.mem_filterMap]
  constructor
  · rintro ⟨event, hMem, hSome⟩
    split at hSome
    · split at hSome
      · rename_i hFrame
        rw [← hFrame, ← Option.some.inj hSome]
        exact hMem
      · contradiction
    · contradiction
  · exact fun hMem => ⟨_, hMem, if_pos rfl⟩

/-- Events of no packet store nothing. -/
theorem storedIds_of_neutral {more : List Event} (h : ∀ event ∈ more, event.frame = none)
    (frame : Frame) : storedIds more frame = [] := by
  rw [List.eq_nil_iff_forall_not_mem]
  intro id hMem
  have hFrame := h _ (mem_storedIds.mp hMem)
  contradiction

/-- A call notes the ids it stores under the packet it is made for. -/
theorem storedIds_storedBy (frame : Frame) (op : ServiceCall) (r : op.Result) :
    storedIds (storedBy frame op r) frame = callIds op r := by
  cases op <;> simp [storedIds, storedBy, callIds]

/-- A call notes nothing under another packet. -/
theorem storedIds_storedBy_of_ne {frame f : Frame} (h : f ≠ frame) (op : ServiceCall)
    (r : op.Result) : storedIds (storedBy frame op r) f = [] := by
  cases op <;> simp [storedIds, storedBy, h.symm]

theorem Asked.mono {log log' : List Event} {frame : Frame} {c : Nat} {line : Bytes}
    (h : Asked log frame c line) (hLog : log ⊆ log') : Asked log' frame c line := by
  obtain ⟨generation, payloads, hMem, hLine⟩ := h
  exact ⟨generation, payloads, hLog hMem, hLine⟩

/-! ## Promises -/

/-- For each packet, the states in which it was being processed. -/
abbrev Pasts := Frame → ChatState → Prop

/-- What is left of a task is the rest of its batch, and the packet in processing can keep
its promise. -/
structure JobPromised (past : Pasts) (s : Server) (job : Job) : Prop where
  batch : ∃ payloads, .read job.task job.connectionId job.generation payloads ∈ s.log ∧
    payloads.drop job.started = job.rest
  current : ∀ p ∈ job.current, ∃ line, Asked s.log job.frame job.connectionId line ∧
    p.Assured deliverySpec (Promise job.connectionId line) (Holds (past job.frame))
      ⟨s.chat, storedIds s.log job.frame⟩

/-- The promise was kept. -/
def FinishPromised (past : Pasts) (s : Server) (frame : Frame) (out : List OutboundMessage) :
    Prop :=
  ∃ c line k, Asked s.log frame c line ∧ Promise c line out k ∧
    Holds (past frame) k ⟨s.chat, storedIds s.log frame⟩

/-- What holds in every state of the server: each piece of work keeps the promise
made where it began. -/
structure Promised (past : Pasts) (s : Server) : Prop where
  chat : ServiceInv s.chat
  tasks : ∀ task ∈ s.tasks,
    .read task.task task.connectionId task.generation task.payloads ∈ s.log
  jobs : ∀ w job, s.running.lookup w = some job → JobPromised past s job
  finished : ∀ frame out queued, .finish frame out queued ∈ s.log →
    FinishPromised past s frame out

/-- Time goes by: nothing is taken back. -/
structure Later (past past' : Pasts) (s s' : Server) : Prop where
  chat : Extends s.chat s'.chat
  past : ∀ frame t, past frame t → past' frame t
  log : s.log ⊆ s'.log

variable {crypto : Crypto} {config : ServerConfig} {pool : PoolConfig} {s s' : Server}
  {past past' : Pasts}

/-- A promise stays good while others work. -/
theorem JobPromised.later {job : Job} (h : JobPromised past s job)
    (hLater : Later past past' s s')
    (hIds : storedIds s'.log job.frame = storedIds s.log job.frame) :
    JobPromised past' s' job where
  batch := by
    obtain ⟨payloads, hMem, hDrop⟩ := h.batch
    exact ⟨payloads, hLater.log hMem, hDrop⟩
  current := by
    intro p hp
    obtain ⟨line, hAsked, hAssured⟩ := h.current p hp
    refine ⟨line, hAsked.mono hLater.log, hAssured.of_stable ?_⟩
    intro k hHolds
    rw [hIds]
    exact hHolds.mono hLater.chat (hLater.past _)

/-- A promise that was kept stays so. -/
theorem FinishPromised.later {frame : Frame} {out : List OutboundMessage}
    (h : FinishPromised past s frame out) (hLater : Later past past' s s')
    (hIds : storedIds s'.log frame = storedIds s.log frame) :
    FinishPromised past' s' frame out := by
  obtain ⟨c, line, k, hAsked, hPromise, hHolds⟩ := h
  refine ⟨c, line, k, hAsked.mono hLater.log, hPromise, ?_⟩
  rw [hIds]
  exact hHolds.mono hLater.chat (hLater.past _)

/-! ## Closing connections -/

theorem disconnect_serviceInv {chat : ChatState} (h : ServiceInv chat) (effect : Effect) :
    ServiceInv (disconnect crypto chat effect) := by
  cases effect with
  | handleDisconnect c => exact h.unbindConnection c
  | _ => exact h

theorem disconnect_extends (chat : ChatState) (effect : Effect) :
    Extends chat (disconnect crypto chat effect) := by
  cases effect with
  | handleDisconnect c => exact ⟨List.prefix_refl _, fun _ _ h => h⟩
  | _ => exact Extends.refl chat

theorem withNet_serviceInv (h : ServiceInv s.chat) (net : TcpServer) :
    ServiceInv (s.withNet crypto net).chat := by
  have hStep : ∀ chat effect, True → ServiceInv chat →
      ServiceInv (disconnect crypto chat effect) :=
    fun _ effect _ hChat => disconnect_serviceInv hChat effect
  exact foldl_invariant hStep (newEffects s.net net) s.chat (fun _ _ => trivial) h

theorem withNet_extends (s : Server) (net : TcpServer) :
    Extends s.chat (s.withNet crypto net).chat := by
  have hStep : ∀ chat effect, True → Extends s.chat chat →
      Extends s.chat (disconnect crypto chat effect) :=
    fun chat effect _ hChat => hChat.trans (disconnect_extends chat effect)
  exact foldl_invariant hStep (newEffects s.net net) s.chat (fun _ _ => trivial)
    (Extends.refl s.chat)

/-! ## Steps -/

/-- A step that adds no event of a packet. -/
theorem Promised.of_neutral (h : Promised past s) {more : List Event}
    (hPast : ∀ frame t, past frame t → past' frame t) (hChat : ServiceInv s'.chat)
    (hExtends : Extends s.chat s'.chat) (hRunning : s'.running = s.running)
    (hTasks : ∀ task ∈ s'.tasks,
      .read task.task task.connectionId task.generation task.payloads ∈ s'.log)
    (hLog : s'.log = s.log ++ more) (hMore : ∀ event ∈ more, event.frame = none) :
    Promised past' s' := by
  have hLater : Later past past' s s' :=
    ⟨hExtends, hPast, by rw [hLog]; exact List.subset_append_left _ _⟩
  have hIds : ∀ frame, storedIds s'.log frame = storedIds s.log frame := by
    intro frame
    rw [hLog, storedIds_append, storedIds_of_neutral hMore, List.append_nil]
  constructor
  · exact hChat
  · exact hTasks
  · rw [hRunning]
    exact fun w job hJob => (h.jobs w job hJob).later hLater (hIds _)
  · intro frame out queued hMem
    rw [hLog] at hMem
    rcases List.mem_append.mp hMem with hOld | hNew
    · exact (h.finished frame out queued hOld).later hLater (hIds _)
    · have hFrame := hMore _ hNew
      contradiction

/-- A worker moves on in its packet: nobody else has stored anything, and nothing is said
of the others. -/
theorem Promised.update (h : Promised past s) (hBooked : Booked s) {w : Nat} {job job' : Job}
    (hJob : s.running.lookup w = some job) (hLater : Later past past' s s')
    (hChat : ServiceInv s'.chat) (hTasks : s'.tasks = s.tasks)
    (hRunning : s'.running = s.running.insert w job')
    (hIds : ∀ frame, frame ≠ job.frame → storedIds s'.log frame = storedIds s.log frame)
    (hNew : JobPromised past' s' job')
    (hFinish : ∀ frame out queued, .finish frame out queued ∈ s'.log →
      .finish frame out queued ∈ s.log ∨ FinishPromised past' s' frame out) :
    Promised past' s' := by
  constructor
  · exact hChat
  · rw [hTasks]
    exact fun task hMem => hLater.log (h.tasks task hMem)
  · intro v other hLookup
    rw [hRunning, UnorderedMap.lookup_insert] at hLookup
    split at hLookup
    · rw [← Option.some.inj hLookup]
      exact hNew
    · rename_i hv
      refine (h.jobs v other hLookup).later hLater (hIds _ ?_)
      intro hFrame
      have hTask : other.task = job.task := congrArg Frame.task hFrame
      have hOwned := owned_eq_some hLookup
      rw [hTask] at hOwned
      exact hv (hBooked.worker_unique v w _ hOwned (owned_eq_some hJob))
  · intro frame out queued hMem
    rcases hFinish frame out queued hMem with hOld | hNow
    · refine (h.finished frame out queued hOld).later hLater (hIds _ ?_)
      rintro rfl
      have hDone : Finished s.log job.frame := ⟨out, queued, hOld⟩
      exact Nat.lt_irrefl _ ((hBooked.finished_iff hJob job.index).mp hDone)
    · exact hNow

/-- The packet a worker is processing has started and is not finished. -/
theorem Booked.processing (h : Booked s) {w : Nat} {job : Job}
    (hJob : s.running.lookup w = some job) {p : Service (List OutboundMessage)}
    (hCurrent : job.current = some p) : .start job.frame ∈ s.log ∧ ¬Finished s.log job.frame := by
  constructor
  · exact (h.start_mem_iff hJob job.index).mpr (by simp [Job.started, hCurrent])
  · exact fun hDone => Nat.lt_irrefl _ ((h.finished_iff hJob job.index).mp hDone)

/-- The next call of a request. -/
theorem Promised.call (h : Promised past s) (hBooked : Booked s) {w : Nat} {job : Job}
    {op : ServiceCall} {next : op.Result → Service (List OutboundMessage)}
    (hJob : s.running.lookup w = some job) (hCurrent : job.current = some (.call op next))
    (hNow : past job.frame s.chat) (hPast : ∀ frame t, past frame t → past' frame t) :
    Promised past' (s.call crypto w job op next) := by
  have hPromised := h.jobs w job hJob
  obtain ⟨line, hAsked, hAssured⟩ := hPromised.current _ hCurrent
  have hLog : s.log ⊆ (s.call crypto w job op next).log := List.subset_append_left _ _
  have hIds : ∀ frame, storedIds (s.call crypto w job op next).log frame =
      storedIds s.log frame ++ storedIds (storedBy job.frame op (op.exec crypto s.chat).1) frame :=
    fun frame => storedIds_append _ _ frame
  have hCall : Prog.Assured deliverySpec (Promise job.connectionId line)
      (Holds (past' job.frame)) ⟨(op.exec crypto s.chat).2,
        storedIds s.log job.frame ++ callIds op (op.exec crypto s.chat).1⟩
      (next (op.exec crypto s.chat).1) := by
    refine hAssured.call fun k q hSpec hHolds => ?_
    obtain ⟨k', hNext, hHolds'⟩ := exec_holds h.chat hNow hSpec hHolds
    exact ⟨k', hNext, hHolds'.mono (Extends.refl _) (hPast _)⟩
  obtain ⟨k, hWp, hHolds⟩ := hAssured
  refine h.update hBooked hJob ⟨exec_extends op s.chat, hPast, hLog⟩
    (exec_serviceInv h.chat hWp hHolds) rfl rfl ?_ ?_ ?_
  · intro frame hNe
    rw [hIds, storedIds_storedBy_of_ne hNe, List.append_nil]
  · constructor
    · obtain ⟨payloads, hMem, hDrop⟩ := hPromised.batch
      refine ⟨payloads, hLog hMem, ?_⟩
      rw [← hDrop, Job.started, Job.started, hCurrent]
      rfl
    · intro p hp
      refine ⟨line, hAsked.mono hLog, ?_⟩
      rw [← Option.some.inj hp]
      have hSame := (hIds job.frame).trans
        (congrArg _ (storedIds_storedBy job.frame op (op.exec crypto s.chat).1))
      rw [← hSame] at hCall
      exact hCall
  · intro frame out queued hMem
    rcases List.mem_append.mp hMem with hOld | hNew
    · exact Or.inl hOld
    · cases op with
      | append message => exact absurd (List.mem_singleton.mp hNew) (by simp)
      | _ => exact absurd hNew List.not_mem_nil

/-- The end of a packet. -/
theorem Promised.push (h : Promised past s) (hBooked : Booked s) {w : Nat} {job : Job}
    {out : List OutboundMessage} (hJob : s.running.lookup w = some job)
    (hCurrent : job.current = some (.done out))
    (hPast : ∀ frame t, past frame t → past' frame t) :
    Promised past' (s.push config w job out) := by
  have hPromised := h.jobs w job hJob
  obtain ⟨line, hAsked, hAssured⟩ := hPromised.current _ hCurrent
  obtain ⟨k, hPromise, hHolds⟩ := hAssured.done
  have hLog : s.log ⊆ (s.push config w job out).log := List.subset_append_left _ _
  have hIds : ∀ frame, storedIds (s.push config w job out).log frame = storedIds s.log frame := by
    intro frame
    refine (storedIds_append _ _ frame).trans ?_
    simp [storedIds]
  have hLater : Later past past' s (s.push config w job out) := ⟨Extends.refl _, hPast, hLog⟩
  refine h.update hBooked hJob hLater h.chat rfl rfl (fun frame _ => hIds frame) ?_ ?_
  · constructor
    · obtain ⟨payloads, hMem, hDrop⟩ := hPromised.batch
      refine ⟨payloads, hLog hMem, ?_⟩
      rw [← hDrop, Job.started, Job.started, hCurrent]
      rfl
    · exact fun p hp => by contradiction
  · intro frame out' queued hMem
    rcases List.mem_append.mp hMem with hOld | hNew
    · exact Or.inl hOld
    · injection List.mem_singleton.mp hNew with hFrame hOut
      rw [hFrame, hOut]
      have hFinish : FinishPromised past s job.frame out := ⟨_, line, k, hAsked, hPromise, hHolds⟩
      exact Or.inr (hFinish.later hLater (hIds _))

/-- The start of a packet: nothing is known, and nothing has been stored. -/
theorem Promised.start (h : Promised past s) (hInOrder : InOrder s) {w : Nat} {job : Job}
    {payload : Bytes} {rest : List Bytes} (hJob : s.running.lookup w = some job)
    (hCurrent : job.current = none) (hRest : job.rest = payload :: rest)
    (hPast : ∀ frame t, past frame t → past' frame t) :
    Promised past' { s with
      running := s.running.insert w
        { job with
          current := some (handleClientLine job.connectionId payload)
          rest := rest }
      log := s.log ++ [.start job.frame] } := by
  have hPromised := h.jobs w job hJob
  have hBooked := hInOrder.booked
  have hLog : s.log ⊆ s.log ++ [.start job.frame] := List.subset_append_left _ _
  have hIds : ∀ frame, storedIds (s.log ++ [.start job.frame]) frame =
      storedIds s.log frame := by
    intro frame
    rw [storedIds_append]
    simp [storedIds]
  have hNone : storedIds s.log job.frame = [] := by
    rw [List.eq_nil_iff_forall_not_mem]
    intro id hMem
    have hStarted := hInOrder.ordered.begun _ (mem_storedIds.mp hMem) _ rfl
    have hLt := (hBooked.start_mem_iff hJob job.index).mp hStarted
    simp [Job.started, hCurrent] at hLt
  obtain ⟨payloads, hMem, hDrop⟩ := hPromised.batch
  have hDrop' : payloads.drop job.index = payload :: rest := by
    rw [← hRest, ← hDrop]
    simp [Job.started, hCurrent]
  refine h.update hBooked hJob ⟨Extends.refl _, hPast, hLog⟩ h.chat rfl rfl
    (fun frame _ => hIds frame) ?_ ?_
  · constructor
    · refine ⟨payloads, hLog hMem, ?_⟩
      show payloads.drop (job.index + 1) = rest
      rw [← List.drop_drop, hDrop']
      rfl
    · intro p hp
      rw [← Option.some.inj hp]
      refine ⟨payload, ⟨job.generation, payloads, hLog hMem, ?_⟩, {}, ?_, ?_⟩
      · show payloads[job.index]? = some payload
        rw [← List.head?_drop, hDrop']
        rfl
      · exact outlined_clientLine job.connectionId payload ⟨rfl, rfl, rfl⟩
      · have hIds' : storedIds (s.log ++ [.start job.frame]) job.frame = [] :=
          (hIds _).trans hNone
        constructor
        · exact fun user hMem => absurd hMem List.not_mem_nil
        · exact fun entry hMem => absurd hMem List.not_mem_nil
        · exact hIds'
        · exact fun hStored => by contradiction
        · exact fun members hMem => by contradiction
        · exact fun lookup hMem => absurd hMem List.not_mem_nil
  · intro frame out queued hMem
    rcases List.mem_append.mp hMem with hOld | hNew
    · exact Or.inl hOld
    · exact absurd (List.mem_singleton.mp hNew) (by simp)

/-- A step of anyone leaves every request able to keep its promise. -/
theorem step_promised (h : Promised past s) (hInOrder : InOrder s)
    (hNow : ∀ frame, .start frame ∈ s.log → ¬Finished s.log frame → past frame s.chat)
    (hPast : ∀ frame t, past frame t → past' frame t) {a : Action}
    (hStep : Stepped crypto config pool s a s') : Promised past' s' := by
  have hNoEvent : ∀ event ∈ ([] : List Event), event.frame = none :=
    fun event hMem => absurd hMem List.not_mem_nil
  cases hStep with
  | @event action r hPhase hEvent hNet =>
      have hInv := @withNet_serviceInv crypto s h.chat r.server
      have hExtends := @withNet_extends crypto s r.server
      cases batchOf (newEffects s.net r.server) action with
      | none => exact h.of_neutral hPast hInv hExtends rfl h.tasks (List.append_nil _).symm hNoEvent
      | some batch =>
          obtain ⟨c, generation, payloads⟩ := batch
          refine h.of_neutral hPast hInv hExtends rfl ?_ rfl
            (List.forall_mem_singleton.mpr rfl)
          intro task hMem
          rcases List.mem_append.mp hMem with hOld | hNew
          · exact List.mem_append_left _ (h.tasks task hOld)
          · rw [List.mem_singleton.mp hNew]
            exact List.mem_append_right _ (List.mem_singleton_self _)
  | drain hPhase | swap hPhase | drainAgain hPhase | endDrain hPhase =>
      exact h.of_neutral hPast h.chat (Extends.refl _) rfl h.tasks (List.append_nil _).symm hNoEvent
  | closeNext hPhase | closeNextAgain hPhase =>
      exact h.of_neutral hPast (withNet_serviceInv h.chat _) (withNet_extends s _) rfl h.tasks
        (List.append_nil _).symm hNoEvent
  | @deliver item rest io hPhase =>
      have hInv := @withNet_serviceInv crypto s h.chat (s.net.deliver config item.1 io)
      have hExtends := @withNet_extends crypto s (s.net.deliver config item.1 io)
      unfold Server.deliver
      dsimp only
      split
      · refine h.of_neutral hPast hInv hExtends rfl ?_ rfl (List.forall_mem_singleton.mpr rfl)
        exact fun task hMem => List.mem_append_left _ (h.tasks task hMem)
      · exact h.of_neutral hPast hInv hExtends rfl h.tasks (List.append_nil _).symm hNoEvent
  | @take w task rest hTasks hThread hFree =>
      have hMem : ∀ t ∈ rest, t ∈ s.tasks := by
        rw [hTasks]
        exact fun t ht => List.mem_cons_of_mem _ ht
      have hLater : Later past past' s { s with
          tasks := rest
          running := s.running.insert w
            { task := task.task, connectionId := task.connectionId,
              generation := task.generation, rest := task.payloads } } :=
        ⟨Extends.refl _, hPast, fun _ hEvent => hEvent⟩
      constructor
      · exact h.chat
      · exact fun t ht => h.tasks t (hMem t ht)
      · intro v job hLookup
        rw [UnorderedMap.lookup_insert] at hLookup
        split at hLookup
        · rw [← Option.some.inj hLookup]
          have hRead := h.tasks task (by rw [hTasks]; exact List.mem_cons_self)
          exact ⟨⟨task.payloads, hRead, rfl⟩, fun p hp => by contradiction⟩
        · exact (h.jobs v job hLookup).later hLater rfl
      · exact fun frame out queued hFinish => (h.finished frame out queued hFinish).later hLater rfl
  | call hJob hCurrent =>
      obtain ⟨hStarted, hOpen⟩ := hInOrder.booked.processing hJob hCurrent
      exact h.call hInOrder.booked hJob hCurrent (hNow _ hStarted hOpen) hPast
  | push hJob hCurrent => exact h.push hInOrder.booked hJob hCurrent hPast
  | start hJob hCurrent hRest => exact h.start hInOrder hJob hCurrent hRest hPast
  | @leave w job hJob hCurrent hRest =>
      have hLater : Later past past' s { s with running := s.running.erase w } :=
        ⟨Extends.refl _, hPast, fun _ hEvent => hEvent⟩
      constructor
      · exact h.chat
      · exact h.tasks
      · intro v other hLookup
        rw [UnorderedMap.lookup_erase] at hLookup
        split at hLookup
        · contradiction
        · exact (h.jobs v other hLookup).later hLater rfl
      · exact fun frame out queued hFinish => (h.finished frame out queued hFinish).later hLater rfl

/-! ## Every run -/

/-- The states of a run in which a packet was being processed. -/
def Processing (crypto : Crypto) (config : ServerConfig) (pool : PoolConfig) (first : Server)
    (acts : List Action) : Pasts :=
  fun frame chat => ∃ t, Passes (step crypto config pool) first acts t ∧
    .start frame ∈ t.log ∧ ¬Finished t.log frame ∧ t.chat = chat

/-- In the beginning nothing is promised. -/
theorem promised_init (past : Pasts) (listenFd wakeFd : Nat) :
    Promised past (Server.init listenFd wakeFd) where
  chat := ServiceInv.empty
  tasks := fun task hMem => absurd hMem List.not_mem_nil
  jobs := fun w job hJob => by simp [Server.init] at hJob
  finished := fun frame out queued hMem => absurd hMem List.not_mem_nil

/-- In every run every request keeps its promise, with what it looked up while it was
processed. -/
theorem run_promised {listenFd wakeFd : Nat} {acts : List Action}
    (hRun : run (step crypto config pool) (Server.init listenFd wakeFd) acts = some s) :
    InOrder s ∧ Promised (Processing crypto config pool (Server.init listenFd wakeFd) acts) s := by
  have hInit : InOrder (Server.init listenFd wakeFd) ∧
      Promised (Processing crypto config pool (Server.init listenFd wakeFd) [])
        (Server.init listenFd wakeFd) :=
    ⟨inOrder_init listenFd wakeFd, promised_init _ listenFd wakeFd⟩
  refine @run_invariant_of_past _ _ _ (fun acts s => InOrder s ∧
    Promised (Processing crypto config pool (Server.init listenFd wakeFd) acts) s) _ hInit ?_ _ _
      hRun
  rintro acts t a t' hPrefix ⟨hInOrder, hPromised⟩ hStep
  refine ⟨step_inOrder t a t' hInOrder hStep, ?_⟩
  refine step_promised hPromised hInOrder ?_ ?_ (stepped hStep)
  · exact fun frame hStarted hOpen => ⟨t, Passes.last hPrefix, hStarted, hOpen, rfl⟩
  · rintro frame chat ⟨u, hPasses, hRest⟩
    exact ⟨u, hPasses.append [a], hRest⟩

/-- The invariant of the service, in every state of every interleaving. -/
theorem run_serviceInv {listenFd wakeFd : Nat} {acts : List Action}
    (hRun : run (step crypto config pool) (Server.init listenFd wakeFd) acts = some s) :
    ServiceInv s.chat :=
  (run_promised hRun).2.chat

/-- In every state of every interleaving the sessions agree with each other, with the accounts
and with the messages: a session is found by its user, its connection and its name or by none
of them, it belongs to the account of that name, and every stored message is between
accounts. -/
theorem sessions_agree (crypto : Crypto) (config : ServerConfig) (pool : PoolConfig)
    (listenFd wakeFd : Nat) (acts : List Action) (s : Server)
    (hRun : run (step crypto config pool) (Server.init listenFd wakeFd) acts = some s) :
    (∀ c session, s.chat.sessions.findByConnection c = some session ↔
      s.chat.sessions.find session.userId = some session ∧ session.connectionId = c) ∧
    (∀ n session, s.chat.sessions.findByUsername n = some session ↔
      s.chat.sessions.find session.userId = some session ∧ session.username = n) ∧
    (∀ u session, s.chat.sessions.find u = some session →
      ∃ user, s.chat.users.findUserByUsername session.username = some user ∧ user.id = u) ∧
    ∀ m ∈ s.chat.messages.messages,
      (∃ user, s.chat.users.findUserById m.senderId = some user) ∧
      (m.type = .directChat → ∃ user, s.chat.users.findUserById m.receiverId = some user) := by
  have h := run_serviceInv hRun
  refine ⟨fun c session => h.consistent.findByConnection_iff,
    fun n session => h.named.findByUsername_iff h.consistent, h.registered, ?_⟩
  exact fun m hMem => ⟨h.sender_known m hMem, h.receiver_known m hMem⟩

/-- Alice and Bob have registered and logged in. -/
theorem sessions_agree_enterBoth :
    ∃ s, run (step sampleCrypto {} ⟨2, 4⟩) (Server.init 3 4) enterBoth = some s ∧
      ∀ n session, s.chat.sessions.findByUsername n = some session ↔
        s.chat.sessions.find session.userId = some session ∧ session.username = n := by
  obtain ⟨s, hRun⟩ := Option.isSome_iff_exists.mp
    (show (run (step sampleCrypto {} ⟨2, 4⟩) (Server.init 3 4) enterBoth).isSome = true by
      decide +kernel)
  exact ⟨s, hRun, (sessions_agree sampleCrypto {} ⟨2, 4⟩ 3 4 enterBoth s hRun).2.1⟩

/-- Accounts and messages stay. -/
theorem step_extends {a : Action} (hStep : step crypto config pool s a = some s') :
    Extends s.chat s'.chat := by
  cases stepped hStep with
  | @event action r hPhase hEvent hNet =>
      rw [(submit_net _ _).2.2.2]
      exact withNet_extends s _
  | closeNext hPhase | closeNextAgain hPhase | deliver io hPhase => exact withNet_extends s _
  | @call w job op next hJob hCurrent => exact exec_extends op s.chat
  | _ => exact Extends.refl _

theorem run_extends {acts : List Action} (hRun : run (step crypto config pool) s acts = some s') :
    Extends s.chat s'.chat := by
  have hStep : ∀ t a t', Extends s.chat t.chat → step crypto config pool t a = some t' →
      Extends s.chat t'.chat :=
    fun _ _ _ h hStep => h.trans (step_extends hStep)
  exact run_invariant hStep (Extends.refl s.chat) hRun

/-! ### What the replies are -/

/-- The message and the copy of a command, and the users it is for. -/
inductive SentTo (past : ChatState → Prop) (chat : ChatState) (id : Nat) (sender : Session)
    (command : ClientCommand) : Message → Response → List Nat → Prop
  | direct {receiver : UserRecord} (hType : command.type = .directChat)
      (hReceiver : chat.users.findUserByUsername command.targetUsername = some receiver) :
      SentTo past chat id sender command (directMessageOf sender receiver command)
        (.directMessage sender.username command.body) [receiver.id]
  | group {t : ChatState} (hType : command.type = .groupChat) (hPast : past t)
      (hStored : .ofMessage id (groupMessageOf sender command) ∈ t.messages.numbered) :
      SentTo past chat id sender command (groupMessageOf sender command)
        (.groupMessage command.groupId sender.username command.body)
        ((t.members.loadGroupMembers command.groupId).filter fun u => u ≠ sender.userId)

/-- The replies to a payload whose message was stored: a copy for everyone it is for whose
session was found, and the acknowledgement.  It was looked for in a state of the processing
that already had the message. -/
inductive Delivered (past : ChatState → Prop) (chat : ChatState) (c : Nat) (line : Bytes)
    (id : Nat) : List OutboundMessage → Prop
  | intro {sender : Session} {command : ClientCommand} {message : Message}
      {formatted : Response} {lookups : List (Nat × Option Session)}
      (hParse : parseClientCommand line = .ok command)
      (hSender : ∃ t, past t ∧ t.sessions.findByConnection c = some sender)
      (hStored : .ofMessage id message ∈ chat.messages.numbered)
      (hSentTo : SentTo past chat id sender command message formatted
        (lookups.map Prod.fst))
      (hLookups : ∀ lookup ∈ lookups, ∃ t, past t ∧
        .ofMessage id message ∈ t.messages.numbered ∧ t.sessions.find lookup.1 = lookup.2) :
      Delivered past chat c line id (copiesTo formatted lookups ++
        reply c (.messageAck id true (!(copiesTo formatted lookups).isEmpty)))

/-- What a kept promise comes to. -/
theorem delivered_of_promise {past : ChatState → Prop} {chat : ChatState} {c : Nat} {line : Bytes}
    {out : List OutboundMessage} {k : Knowledge} {ids : List Nat} (h : Promise c line out k)
    (hHolds : Holds past k ⟨chat, ids⟩) :
    (ids = [] ∧ QuietReplies out) ∨ ∃ id, ids = [id] ∧ Delivered past chat c line id out := by
  have hIds : ids = k.stored.toList.map Prod.fst := hHolds.ids
  cases h with
  | quiet hQuiet hOut =>
      rw [hQuiet.stored] at hIds
      exact Or.inl ⟨hIds, hOut⟩
  | @pushed _ id message formatted sender command hStored hParse hSender hSends =>
      rw [hStored] at hIds
      -- whatever is known of the stored message is known of this one
      have hInStore : ∀ {t : ChatState}, k.InStore t →
          .ofMessage id message ∈ t.messages.numbered := by
        rintro t ⟨id', message', hSame, hMem⟩
        obtain ⟨rfl, rfl⟩ := Prod.mk.inj (Option.some.inj (hStored.symm.trans hSame))
        exact hMem
      refine Or.inr ⟨id, hIds, .intro hParse (hHolds.bound _ hSender)
        (hInStore (hHolds.inStore (by rw [hStored]; rfl))) ?_ ?_⟩
      · cases hSends with
        | @direct receiver hType hReceiver hName hUsers =>
            rw [hUsers]
            refine .direct hType ?_
            rw [← hName]
            exact hHolds.accounts receiver hReceiver
        | @group members hType hAudience hUsers =>
            obtain ⟨t, hPast, hThere, id', message', hSame, rfl⟩ :=
              hHolds.audience members hAudience
            obtain ⟨rfl, rfl⟩ := Prod.mk.inj (Option.some.inj (hStored.symm.trans hSame))
            rw [hUsers]
            exact .group hType hPast (hInStore hThere)
      · intro lookup hMem
        obtain ⟨t, hPast, hThere, hFind⟩ := hHolds.lookups lookup hMem
        exact ⟨t, hPast, hInStore hThere, hFind⟩

/-- Alice, on connection 1, writes to Bob, on connection 2. -/
def aliceWrites : List Action :=
  [.event (.read 7 (readOf [dmToBob "one"])), .take 0] ++ List.replicate 6 (.work 0)

/-- The replies: a copy for Bob and an acknowledgement. -/
def toBoth : List OutboundMessage :=
  [{ connectionId := 2, response := .directMessage (ascii "alice") (ascii "one") },
    { connectionId := 1, response := .messageAck 1 true true }]

theorem run_aliceWrites :
    ∃ s, run (step sampleCrypto {} ⟨2, 4⟩) (Server.init 3 4) (enterBoth ++ aliceWrites) = some s ∧
      .finish ⟨2, 0⟩ toBoth true ∈ s.log ∧ storedIds s.log ⟨2, 0⟩ = [1] := by
  obtain ⟨s, hRun, hView⟩ := Option.map_eq_some_iff.mp
    (show (run (step sampleCrypto {} ⟨2, 4⟩) (Server.init 3 4) (enterBoth ++ aliceWrites)).map
        (fun s => decide (.finish ⟨2, 0⟩ toBoth true ∈ s.log ∧
          storedIds s.log ⟨2, 0⟩ = [1])) = some true by
      decide +kernel)
  exact ⟨s, hRun, of_decide_eq_true hView⟩

/-- In every run, every finished packet is a payload that its connection has sent, and it has
stored no message and delivers none, or it has stored one, with these replies. -/
theorem replies_delivered (crypto : Crypto) (config : ServerConfig) (pool : PoolConfig)
    (listenFd wakeFd : Nat) (acts : List Action) (s : Server)
    (hRun : run (step crypto config pool) (Server.init listenFd wakeFd) acts = some s)
    (frame : Frame) (out : List OutboundMessage) (queued : Bool)
    (hFinish : .finish frame out queued ∈ s.log) :
    ∃ c line, Asked s.log frame c line ∧
      ((storedIds s.log frame = [] ∧ QuietReplies out) ∨
        ∃ id, storedIds s.log frame = [id] ∧
          Delivered (Processing crypto config pool (Server.init listenFd wakeFd) acts frame)
            s.chat c line id out) := by
  obtain ⟨-, hPromised⟩ := run_promised hRun
  obtain ⟨c, line, k, hAsked, hPromise, hHolds⟩ := hPromised.finished frame out queued hFinish
  exact ⟨c, line, hAsked, delivered_of_promise hPromise hHolds⟩

theorem replies_delivered_aliceWrites :
    ∃ s, run (step sampleCrypto {} ⟨2, 4⟩) (Server.init 3 4) (enterBoth ++ aliceWrites) = some s ∧
      ∃ c line id, Asked s.log ⟨2, 0⟩ c line ∧ storedIds s.log ⟨2, 0⟩ = [id] ∧
        Delivered (Processing sampleCrypto {} ⟨2, 4⟩ (Server.init 3 4) (enterBoth ++ aliceWrites)
          ⟨2, 0⟩) s.chat c line id toBoth := by
  obtain ⟨s, hRun, hFinish, hStored⟩ := run_aliceWrites
  obtain ⟨c, line, hAsked, hReplies⟩ :=
    replies_delivered sampleCrypto {} ⟨2, 4⟩ 3 4 _ s hRun ⟨2, 0⟩ toBoth true hFinish
  rcases hReplies with ⟨hNone, -⟩ | ⟨id, hOne, hDelivered⟩
  · rw [hStored] at hNone
    exact absurd hNone (List.cons_ne_nil _ _)
  · exact ⟨s, hRun, c, line, id, hAsked, hOne, hDelivered⟩

/-! ### Ids and acknowledgements -/

/-- The ids given out, in the order of the log. -/
def givenIds (log : List Event) : List Nat :=
  log.filterMap fun event => match event with
    | .stored _ id => some id
    | _ => none

/-- The ids the replies acknowledge. -/
def ackIds (out : List OutboundMessage) : List Nat :=
  out.filterMap fun message => match message.response with
    | .messageAck id _ _ => some id
    | _ => none

/-- The ids are the numbers of the messages in the store. -/
def Numbers (s : Server) : Prop := givenIds s.log = List.range' 1 s.lastId

theorem Numbers.of_neutral (h : Numbers s) {more : List Event} (hLog : s'.log = s.log ++ more)
    (hMore : ∀ event ∈ more, ∀ frame id, event ≠ .stored frame id)
    (hLast : s'.lastId = s.lastId) : Numbers s' := by
  have hNone : givenIds more = [] := by
    apply List.filterMap_eq_nil_iff.mpr
    intro event hMem
    cases event with
    | stored frame id => exact absurd rfl (hMore _ hMem frame id)
    | _ => rfl
  show givenIds s'.log = List.range' 1 s'.lastId
  rw [hLog, hLast, ← h]
  refine List.filterMap_append.trans ?_
  show givenIds s.log ++ givenIds more = _
  rw [hNone, List.append_nil]

/-- The ids in the log are those of the vector. -/
theorem step_numbers (s : Server) (a : Action) (s' : Server) (h : Numbers s)
    (hStep : step crypto config pool s a = some s') : Numbers s' := by
  have hNoEvent : ∀ event ∈ ([] : List Event), ∀ frame id, event ≠ .stored frame id :=
    fun event hMem => absurd hMem List.not_mem_nil
  cases stepped hStep with
  | @event action r hPhase hEvent hNet =>
      have hLast := @lastId_withNet crypto s r.server
      cases batchOf (newEffects s.net r.server) action with
      | none => exact h.of_neutral (List.append_nil _).symm hNoEvent hLast
      | some batch => exact h.of_neutral rfl (by simp) hLast
  | closeNext hPhase | closeNextAgain hPhase =>
      exact h.of_neutral (List.append_nil _).symm hNoEvent (lastId_withNet s _)
  | @deliver item rest io hPhase =>
      have hLast := @lastId_withNet crypto s (s.net.deliver config item.1 io)
      unfold Server.deliver
      dsimp only
      split
      · exact h.of_neutral rfl (by simp) hLast
      · exact h.of_neutral (List.append_nil _).symm hNoEvent hLast
  | @call w job op next hJob hCurrent =>
      rcases @call_stored crypto job.frame op s.chat with ⟨hNone, hSame⟩ | ⟨hOne, hMore⟩
      · have hLog : (s.call crypto w job op next).log = s.log ++ [] := by
          show s.log ++ storedBy job.frame op (op.exec crypto s.chat).1 = _
          rw [hNone]
        exact h.of_neutral hLog hNoEvent (congrArg (fun store => store.messages.length) hSame)
      · show givenIds (s.log ++ storedBy job.frame op (op.exec crypto s.chat).1) =
          List.range' 1 (op.exec crypto s.chat).2.messages.messages.length
        rw [hOne, hMore, List.range'_concat]
        refine List.filterMap_append.trans ?_
        show givenIds s.log ++ [s.lastId + 1] = _
        rw [h, Nat.one_mul, Nat.add_comm]
        rfl
  | push hJob hCurrent => exact h.of_neutral rfl (by simp) rfl
  | start hJob hCurrent hRest => exact h.of_neutral rfl (by simp) rfl
  | _ => exact h.of_neutral (List.append_nil _).symm hNoEvent rfl

theorem numbers_init (listenFd wakeFd : Nat) : Numbers (Server.init listenFd wakeFd) := rfl

/-- An id is given to one packet. -/
theorem Numbers.frame_unique (h : Numbers s) {frame frame' : Frame} {id : Nat}
    (hStored : .stored frame id ∈ s.log) (hStored' : .stored frame' id ∈ s.log) :
    frame = frame' := by
  obtain ⟨i, hi⟩ := List.mem_iff_getElem?.mp hStored
  obtain ⟨j, hj⟩ := List.mem_iff_getElem?.mp hStored'
  have hNodup : (givenIds s.log).Nodup := by
    rw [h]
    exact List.nodup_range' 1
  have hij := EventLog.index_unique hNodup hi hj (b := id) rfl rfl
  rw [hij, hj] at hi
  injection Option.some.inj hi with hFrame
  exact hFrame.symm

theorem ackIds_of_quiet {out : List OutboundMessage} (h : QuietReplies out) :
    ackIds out = [] := by
  apply List.filterMap_eq_nil_iff.mpr
  intro message hMem
  have hAck := (h message hMem).1
  cases hResponse : message.response with
  | messageAck id stored delivered =>
      rw [hResponse] at hAck
      contradiction
  | _ => rfl

theorem SentTo.copy_live {past : ChatState → Prop} {chat : ChatState} {id : Nat}
    {sender : Session} {command : ClientCommand} {message : Message} {formatted : Response}
    {users : List Nat} (h : SentTo past chat id sender command message formatted users) :
    isLiveCopy formatted = true ∧ copyBody formatted = message.body := by
  cases h <;> exact ⟨rfl, rfl⟩

/-- The replies to a stored message have one ack, with its id. -/
theorem Delivered.ackIds_eq {past : ChatState → Prop} {chat : ChatState} {c : Nat} {line : Bytes}
    {id : Nat} {out : List OutboundMessage} (h : Delivered past chat c line id out) :
    ackIds out = [id] := by
  obtain ⟨hParse, hSender, hStored, hSentTo, hLookups⟩ := h
  rename_i formatted lookups
  have hCopies : ackIds (copiesTo formatted lookups) = [] := by
    apply List.filterMap_eq_nil_iff.mpr
    intro message hMem
    obtain ⟨lookup, -, hSome⟩ := List.mem_filterMap.mp hMem
    obtain ⟨session, -, rfl⟩ := Option.map_eq_some_iff.mp hSome
    have hLive := hSentTo.copy_live.1
    cases formatted <;> first | rfl | contradiction
  refine List.filterMap_append.trans ?_
  show ackIds (copiesTo formatted lookups) ++ [id] = [id]
  rw [hCopies, List.nil_append]

/-- In every run, message ids are given out one by one and each to one packet; a packet that is
finished has got at most one, and its replies acknowledge what it has stored.  So no two
packets acknowledge the same message. -/
theorem acks_exactlyOnce (crypto : Crypto) (config : ServerConfig) (pool : PoolConfig)
    (listenFd wakeFd : Nat) (acts : List Action) (s : Server)
    (hRun : run (step crypto config pool) (Server.init listenFd wakeFd) acts = some s) :
    givenIds s.log = List.range' 1 s.chat.messages.messages.length ∧
    (∀ frame out queued, .finish frame out queued ∈ s.log →
      ackIds out = storedIds s.log frame ∧ (ackIds out).length ≤ 1) ∧
    ∀ frame out queued frame' out' queued' id, .finish frame out queued ∈ s.log →
      .finish frame' out' queued' ∈ s.log → id ∈ ackIds out → id ∈ ackIds out' →
        frame = frame' := by
  have hNumbers : Numbers s := run_invariant step_numbers (numbers_init listenFd wakeFd) hRun
  have hAcks : ∀ frame out queued, .finish frame out queued ∈ s.log →
      ackIds out = storedIds s.log frame ∧ (ackIds out).length ≤ 1 := by
    intro frame out queued hFinish
    obtain ⟨-, hPromised⟩ := run_promised hRun
    obtain ⟨c, line, k, -, hPromise, hHolds⟩ := hPromised.finished frame out queued hFinish
    rcases delivered_of_promise hPromise hHolds with ⟨hNone, hQuiet⟩ | ⟨id, hOne, hDelivered⟩
    · rw [hNone, ackIds_of_quiet hQuiet]
      exact ⟨rfl, Nat.zero_le 1⟩
    · rw [hOne, hDelivered.ackIds_eq]
      exact ⟨rfl, Nat.le_refl 1⟩
  refine ⟨hNumbers, hAcks, ?_⟩
  intro frame out queued frame' out' queued' id hFinish hFinish' hAck hAck'
  rw [(hAcks frame out queued hFinish).1] at hAck
  rw [(hAcks frame' out' queued' hFinish').1] at hAck'
  exact hNumbers.frame_unique (mem_storedIds.mp hAck) (mem_storedIds.mp hAck')

theorem acks_exactlyOnce_aliceWrites :
    ∃ s, run (step sampleCrypto {} ⟨2, 4⟩) (Server.init 3 4) (enterBoth ++ aliceWrites) = some s ∧
      givenIds s.log = List.range' 1 s.chat.messages.messages.length ∧
      ackIds toBoth = storedIds s.log ⟨2, 0⟩ := by
  obtain ⟨s, hRun, hFinish, -⟩ := run_aliceWrites
  obtain ⟨hGiven, hAcks, -⟩ := acks_exactlyOnce sampleCrypto {} ⟨2, 4⟩ 3 4 _ s hRun
  exact ⟨s, hRun, hGiven, (hAcks ⟨2, 0⟩ toBoth true hFinish).1⟩

/-! ### Nothing is missed -/

/-- The user is online with this session, and the message is for it. -/
def Reads (u : Nat) (session : Session) (m : StoredMessage) (chat : ChatState) : Prop :=
  chat.sessions.find u = some session ∧
    MessageStore.isUnreadFor u (chat.members.loadUserGroups u) m = true

instance (u : Nat) (session : Session) (m : StoredMessage) (chat : ChatState) :
    Decidable (Reads u session m chat) :=
  inferInstanceAs (Decidable (_ ∧ _))

/-- Behind its predecessor, a stored message is the first of the unread page. -/
theorem unreadPage_head?_of_mem {store : MessageStore} {m : StoredMessage}
    (hMem : m ∈ store.numbered) {u : Nat} {groupIds : List Nat}
    (hUnread : MessageStore.isUnreadFor u groupIds m = true) (limit : Nat) :
    (store.unreadPage u groupIds (m.id - 1) limit).head? = some m := by
  obtain ⟨older, newer, hSplit⟩ := List.append_of_mem hMem
  have hSorted := store.numbered_sorted
  have hPos := (MessageStore.id_bounds hMem).1
  rw [hSplit, List.pairwise_append] at hSorted
  -- the older ones are behind the cursor
  have hOlder : older.filter (fun message => !decide (message.id ≤ m.id - 1) &&
      MessageStore.isUnreadFor u groupIds message) = [] := by
    rw [List.filter_eq_nil_iff]
    intro message hOld
    have hLt := hSorted.2.2 message hOld m List.mem_cons_self
    have hBehind : message.id ≤ m.id - 1 := by omega
    simp [hBehind]
  have hAhead : ¬m.id ≤ m.id - 1 := by omega
  obtain ⟨n, hn⟩ := Nat.exists_eq_succ_of_ne_zero
    (Nat.pos_iff_ne_zero.mp (MessageStore.pageLimit_pos limit))
  rw [MessageStore.unreadPage_eq, hSplit, List.filter_append, hOlder, List.nil_append,
    List.filter_cons_of_pos (by simp [hAhead, hUnread]), hn]
  rfl

/-- A copy for someone who was found. -/
theorem mem_copiesTo {formatted : Response} {lookups : List (Nat × Option Session)} {u : Nat}
    {session : Session} (h : (u, some session) ∈ lookups) :
    { connectionId := session.connectionId, response := formatted } ∈
      copiesTo formatted lookups :=
  List.mem_filterMap.mpr ⟨_, h, rfl⟩

/-- The state was passed before `t` and has the message, or it was passed later, while the
packet was in processing, and the user was reading. -/
theorem reads_or_stored {listenFd wakeFd : Nat} {first second : List Action} {t : Server}
    (hFirst : run (step crypto config pool) (Server.init listenFd wakeFd) first = some t)
    (hSecond : run (step crypto config pool) t second = some s) {u : Nat} {session : Session}
    {m : StoredMessage}
    (hReads : StepsMeet (step crypto config pool) (fun t' _ => Reads u session m t'.chat) t
      second)
    {frame : Frame} {out : List OutboundMessage} {queued : Bool}
    (hFinish : .finish frame out queued ∈ s.log) {chat : ChatState}
    (hPast : Processing crypto config pool (Server.init listenFd wakeFd) (first ++ second) frame
      chat)
    (hThere : m ∈ chat.messages.numbered) :
    m ∈ t.chat.messages.numbered ∨ Reads u session m chat := by
  obtain ⟨t', hPasses, -, hOpen, rfl⟩ := hPast
  rcases hPasses.split hFirst with ⟨more, hMore⟩ | hLater
  · exact Or.inl ((run_extends hMore).numbered.subset hThere)
  · rcases hReads.of_passes hSecond hLater with rfl | ⟨-, hNow⟩
    · exact absurd ⟨out, queued, hFinish⟩ hOpen
    · exact Or.inr hNow

/-- A user who is online from some moment to the end of a run, in every run: a message for
it that a finished packet has stored was in the store at that moment, where `unread` shows
it first behind its predecessor, or the replies have a copy for the user's connection. -/
theorem no_message_missed (crypto : Crypto) (config : ServerConfig) (pool : PoolConfig)
    (listenFd wakeFd : Nat) (first second : List Action) (t s : Server)
    (hFirst : run (step crypto config pool) (Server.init listenFd wakeFd) first = some t)
    (hSecond : run (step crypto config pool) t second = some s)
    (u : Nat) (session : Session) (m : StoredMessage) (hNow : Reads u session m t.chat)
    (hReads : StepsMeet (step crypto config pool) (fun t' _ => Reads u session m t'.chat) t
      second)
    (frame : Frame) (out : List OutboundMessage) (queued : Bool)
    (hFinish : .finish frame out queued ∈ s.log) (hStored : .stored frame m.id ∈ s.log)
    (hMem : m ∈ s.chat.messages.numbered) :
    (∀ limit, PullsFirst t.chat limit m session.connectionId) ∨
    ∃ copy ∈ liveCopies out, copy.connectionId = session.connectionId ∧
      copyBody copy.response = m.body := by
  have hRun : run (step crypto config pool) (Server.init listenFd wakeFd) (first ++ second) =
      some s := by
    rw [run_append, hFirst]
    exact hSecond
  have hInv := run_serviceInv hFirst
  -- it is enough that the message was there, or that the user was looked for and found
  have hPull : m ∈ t.chat.messages.numbered → ∀ limit,
      PullsFirst t.chat limit m session.connectionId := by
    intro hThere limit
    obtain ⟨hBound, hUser⟩ := hInv.bound_of_find hNow.1
    refine ⟨session, hBound, unreadPage_head?_of_mem hThere ?_ limit⟩
    rw [hUser]
    exact hNow.2
  obtain ⟨c, line, -, ⟨hNone, -⟩ | ⟨id, hOne, hDelivered⟩⟩ :=
    replies_delivered crypto config pool listenFd wakeFd _ s hRun frame out queued hFinish
  · rw [← mem_storedIds, hNone] at hStored
    exact absurd hStored List.not_mem_nil
  rw [← mem_storedIds, hOne, List.mem_singleton] at hStored
  subst hStored
  obtain ⟨hParse, hSender, hInStore, hSentTo, hLookups⟩ := hDelivered
  rename_i sender command message formatted lookups
  have hSame : m = .ofMessage m.id message := MessageStore.eq_of_id hMem hInStore rfl
  have hEither : ∀ {chat : ChatState},
      Processing crypto config pool (Server.init listenFd wakeFd) (first ++ second) frame chat →
      .ofMessage m.id message ∈ chat.messages.numbered →
        m ∈ t.chat.messages.numbered ∨ Reads u session m chat := by
    intro chat hPast hThere
    rw [← hSame] at hThere
    exact reads_or_stored hFirst hSecond hReads hFinish hPast hThere
  have hLive := hSentTo.copy_live
  -- whoever the message is for has been looked for
  have hLooked : m ∈ t.chat.messages.numbered ∨ u ∈ lookups.map Prod.fst := by
    generalize lookups.map Prod.fst = users at hSentTo
    have hUnread := hNow.2
    rw [hSame] at hUnread
    cases hSentTo with
    | direct hType hReceiver =>
        rw [isUnreadFor_direct] at hUnread
        exact Or.inr (List.mem_singleton.mpr hUnread.symm)
    | group hType hPast hThere =>
        rcases hEither hPast hThere with hOld | hMember
        · exact Or.inl hOld
        · have hThen := hMember.2
          rw [hSame, isUnreadFor_group] at hThen
          refine Or.inr (List.mem_filter.mpr ⟨?_, by simpa using hThen.1.symm⟩)
          exact (Groups.GroupMemberStore.isGroupMember_iff _ _ _).mp hThen.2
  rcases hLooked with hOld | hLooked
  · exact Or.inl (hPull hOld)
  obtain ⟨⟨u', answer⟩, hLookup, rfl⟩ := List.mem_map.mp hLooked
  obtain ⟨chat, hPast, hThere, hFind⟩ := hLookups _ hLookup
  rcases hEither hPast hThere with hOld | hOnline
  · exact Or.inl (hPull hOld)
  · have hAnswer : answer = some session := hFind.symm.trans hOnline.1
    rw [hAnswer] at hLookup
    refine Or.inr ⟨_, List.mem_filter.mpr ⟨List.mem_append_left _ (mem_copiesTo hLookup),
      hLive.1⟩, rfl, ?_⟩
    rw [hSame]
    exact hLive.2

/-- Bob is online when Alice writes, and gets a copy or finds the message. -/
theorem no_message_missed_aliceWrites :
    let m : StoredMessage :=
      { id := 1, type := .directChat, senderId := 1, receiverId := 2, body := ascii "one" }
    ∃ t s, run (step sampleCrypto {} ⟨2, 4⟩) (Server.init 3 4) enterBoth = some t ∧
      run (step sampleCrypto {} ⟨2, 4⟩) t aliceWrites = some s ∧
      ((∀ limit, PullsFirst t.chat limit m 2) ∨
        ∃ copy ∈ liveCopies toBoth, copy.connectionId = 2 ∧ copyBody copy.response = m.body) := by
  intro m
  let bob : Session := { userId := 2, connectionId := 2, username := ascii "bob" }
  obtain ⟨t, hFirst, hView⟩ := Option.map_eq_some_iff.mp
    (show (run (step sampleCrypto {} ⟨2, 4⟩) (Server.init 3 4) enterBoth).map (fun t =>
        decide (Reads 2 bob m t.chat ∧
          StepsMeet (step sampleCrypto {} ⟨2, 4⟩) (fun t' _ => Reads 2 bob m t'.chat) t
            aliceWrites ∧
          (run (step sampleCrypto {} ⟨2, 4⟩) t aliceWrites).map (fun s =>
            decide (.finish ⟨2, 0⟩ toBoth true ∈ s.log ∧ .stored ⟨2, 0⟩ 1 ∈ s.log ∧
              m ∈ s.chat.messages.numbered)) = some true)) = some true by
      decide +kernel)
  obtain ⟨hNow, hReads, hLast⟩ := of_decide_eq_true hView
  obtain ⟨s, hSecond, hLog⟩ := Option.map_eq_some_iff.mp hLast
  obtain ⟨hFinish, hStored, hMem⟩ := of_decide_eq_true hLog
  exact ⟨t, s, hFirst, hSecond, no_message_missed sampleCrypto {} ⟨2, 4⟩ 3 4 enterBoth aliceWrites
    t s hFirst hSecond 2 bob m hNow hReads ⟨2, 0⟩ toBoth true hFinish hStored hMem⟩

end CppChat.Ports.ServerRuns
