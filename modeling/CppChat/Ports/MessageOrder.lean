import CppChat.Ports.CommandText
import CppChat.Ports.ServerRuns

/-!
# The order of messages

Packets of one batch are processed one after the other; packets of different
batches may be processed at the same time by different workers, also when they
come from one connection.  So the order in which a client has sent its messages is
kept by the server exactly as far as processing does not overlap: a packet that is
finished before another one starts has the smaller message id, and its replies
are sent first.

## Main results

* `Ordered.start`, `Ordered.stored`, `Ordered.finish`: what a new event adds to the
  order in the log.
* `step_ordered`, `step_laned`: ids follow the order of processing, and so do sends.
* `frames_ordered`: the order of two packets, in every run.
* `frames_overtaken`: a run in which the second of two batches overtakes the first.
-/

namespace CppChat.Ports.ServerRuns

open CppChat.Verified
open CppChat.Verified.EventLog
open CppChat.Verified.AtomicProgram
open CppChat.Verified.Transition
open CppChat.Ports.PacketCodec
open CppChat.Ports.Protocol
open CppChat.Ports.Users
open CppChat.Ports.Chat
open CppChat.Ports.Network
open CppChat.Ports.ConnectionTeardown (PoolConfig)

variable {log : List Event} {f f' frame : Frame} {event : Event}

/-! ## Processing one packet before another -/

/-- The frame has been processed to its end. -/
def Finished (log : List Event) (f : Frame) : Prop := ∃ out queued, .finish f out queued ∈ log

/-- The first packet is finished before the second starts. -/
def FinishedBefore (log : List Event) (f f' : Frame) : Prop :=
  ∃ out queued, Before log (.finish f out queued) (.start f')

/-- The first packet is finished before the second is finished. -/
def FinishOrder (log : List Event) (f f' : Frame) : Prop :=
  ∃ out queued out' queued',
    Before log (.finish f out queued) (.finish f' out' queued')

theorem Finished.append (h : Finished log f) (more : List Event) : Finished (log ++ more) f := by
  obtain ⟨out, queued, hMem⟩ := h
  exact ⟨out, queued, List.mem_append_left _ hMem⟩

theorem FinishOrder.append (h : FinishOrder log f f') (more : List Event) :
    FinishOrder (log ++ more) f f' := by
  obtain ⟨out, queued, out', queued', hBefore⟩ := h
  exact ⟨out, queued, out', queued', hBefore.append more⟩

theorem finished_concat :
    Finished (log ++ [event]) f ↔ Finished log f ∨ ∃ out queued, event = .finish f out queued := by
  constructor
  · rintro ⟨out, queued, hMem⟩
    rcases List.mem_append.mp hMem with hMem | hMem
    · exact Or.inl ⟨out, queued, hMem⟩
    · exact Or.inr ⟨out, queued, (List.mem_singleton.mp hMem).symm⟩
  · rintro (h | ⟨out, queued, rfl⟩)
    · exact h.append _
    · exact ⟨out, queued, List.mem_append_right _ (List.mem_singleton_self _)⟩

theorem finishedBefore_concat :
    FinishedBefore (log ++ [event]) f f' ↔
      FinishedBefore log f f' ∨ (Finished log f ∧ event = .start f') := by
  constructor
  · rintro ⟨out, queued, hBefore⟩
    rcases before_concat_iff.mp hBefore with h | ⟨hMem, hEq⟩
    · exact Or.inl ⟨out, queued, h⟩
    · exact Or.inr ⟨⟨out, queued, hMem⟩, hEq.symm⟩
  · rintro (⟨out, queued, h⟩ | ⟨⟨out, queued, hMem⟩, rfl⟩)
    · exact ⟨out, queued, h.append _⟩
    · exact ⟨out, queued, before_concat hMem _⟩

theorem finishOrder_concat :
    FinishOrder (log ++ [event]) f f' ↔
      FinishOrder log f f' ∨ (Finished log f ∧ ∃ out queued, event = .finish f' out queued) := by
  constructor
  · rintro ⟨out, queued, out', queued', hBefore⟩
    rcases before_concat_iff.mp hBefore with h | ⟨hMem, hEq⟩
    · exact Or.inl ⟨out, queued, out', queued', h⟩
    · exact Or.inr ⟨⟨out, queued, hMem⟩, out', queued', hEq.symm⟩
  · rintro (⟨out, queued, out', queued', h⟩ | ⟨⟨out, queued, hMem⟩, out', queued', rfl⟩)
    · exact ⟨out, queued, out', queued', h.append _⟩
    · exact ⟨out, queued, out', queued', before_concat hMem _⟩

theorem FinishedBefore.finished (h : FinishedBefore log f f') : Finished log f := by
  obtain ⟨out, queued, hBefore⟩ := h
  exact ⟨out, queued, hBefore.fst_mem⟩

theorem FinishOrder.finished (h : FinishOrder log f f') : Finished log f := by
  obtain ⟨out, queued, out', queued', hBefore⟩ := h
  exact ⟨out, queued, hBefore.fst_mem⟩

/-! ## The order in the log -/

/-- The order of processing, and what follows from it for message ids.  The last id
given out is `last`. -/
structure Ordered (log : List Event) (last : Nat) : Prop where
  begun : ∀ event ∈ log, ∀ frame, event.frame = some frame → .start frame ∈ log
  ids : ∀ frame id, .stored frame id ∈ log → id ≤ last
  increasing : ∀ f f', FinishedBefore log f f' →
    ∀ id id', .stored f id ∈ log → .stored f' id' ∈ log → id < id'
  ne : ∀ f f', FinishedBefore log f f' → f ≠ f'
  later : ∀ f f', FinishedBefore log f f' → ¬FinishOrder log f' f
  batch : ∀ f f', f.task = f'.task → f.index < f'.index → .start f' ∈ log →
    FinishedBefore log f f'

variable {last id : Nat}

/-- Nothing has happened. -/
theorem Ordered.empty : Ordered [] 0 := by
  constructor <;> simp [FinishedBefore, Before]

/-- What is finished was started. -/
theorem Ordered.started_of_finished (h : Ordered log last) (hFinished : Finished log f) :
    .start f ∈ log := by
  obtain ⟨out, queued, hMem⟩ := hFinished
  exact h.begun _ hMem f rfl

theorem mem_concat_iff {later : Event} : event ∈ log ++ [later] ↔ event ∈ log ∨ event = later := by
  rw [List.mem_append, List.mem_singleton]

theorem mem_of_mem_concat {later : Event} (h : event ∈ log ++ [later]) (hNe : event ≠ later) :
    event ∈ log :=
  (mem_concat_iff.mp h).resolve_right hNe

/-- Only a start adds to the order of processing. -/
theorem finishedBefore_of_concat (h : FinishedBefore (log ++ [event]) f f')
    (hNe : event ≠ .start f') : FinishedBefore log f f' := by
  rcases finishedBefore_concat.mp h with hBefore | ⟨_, hEq⟩
  · exact hBefore
  · exact absurd hEq hNe

/-- A new event belongs to a packet that has started. -/
theorem Ordered.begun_concat (h : Ordered log last)
    (hEvent : ∀ frame, event.frame = some frame → .start frame ∈ log ++ [event]) :
    ∀ e ∈ log ++ [event], ∀ frame, e.frame = some frame → .start frame ∈ log ++ [event] := by
  intro e he frame hSome
  rcases mem_concat_iff.mp he with he | rfl
  · exact List.mem_append_left _ (h.begun e he frame hSome)
  · exact hEvent frame hSome

/-- Reads and sends are not part of the order. -/
theorem Ordered.neutral (h : Ordered log last) (hFrame : event.frame = none) :
    Ordered (log ++ [event]) last := by
  -- the event is none of those the order is about
  have hStarts : ∀ f, event ≠ .start f := by
    rintro f rfl
    contradiction
  have hStored : ∀ f id, .stored f id ∈ log ++ [event] → .stored f id ∈ log := by
    intro f id hMem
    refine mem_of_mem_concat hMem ?_
    rintro rfl
    contradiction
  have hBefore : ∀ f f', FinishedBefore (log ++ [event]) f f' → FinishedBefore log f f' :=
    fun f f' hOrder => finishedBefore_of_concat hOrder (hStarts f')
  constructor
  · apply h.begun_concat
    intro frame hSome
    rw [hFrame] at hSome
    contradiction
  · exact fun frame id hMem => h.ids frame id (hStored frame id hMem)
  · intro f f' hOrder id id' hMem hMem'
    exact h.increasing f f' (hBefore f f' hOrder) id id' (hStored f id hMem) (hStored f' id' hMem')
  · exact fun f f' hOrder => h.ne f f' (hBefore f f' hOrder)
  · intro f f' hOrder hFinish
    rcases finishOrder_concat.mp hFinish with hFinish | ⟨_, out, queued, rfl⟩
    · exact h.later f f' (hBefore f f' hOrder) hFinish
    · contradiction
  · intro f f' hTask hIndex hMem
    have hOld := mem_of_mem_concat hMem (hStarts f').symm
    exact finishedBefore_concat.mpr (Or.inl (h.batch f f' hTask hIndex hOld))

/-- A packet starts after the earlier ones of its batch are finished. -/
theorem Ordered.start (h : Ordered log last) (hNew : .start frame ∉ log)
    (hEarlier : ∀ i, i < frame.index → Finished log { task := frame.task, index := i }) :
    Ordered (log ++ [.start frame]) last := by
  have hStored : ∀ f id, .stored f id ∈ log ++ [.start frame] → .stored f id ∈ log :=
    fun f id hMem => mem_of_mem_concat hMem (fun hEq => by contradiction)
  -- nothing is known of the packet yet
  have hNone : ¬Finished log frame := fun hFinished => hNew (h.started_of_finished hFinished)
  constructor
  · apply h.begun_concat
    intro f hSome
    rw [← Option.some.inj hSome]
    exact List.mem_append_right _ (List.mem_singleton_self _)
  · exact fun f id hMem => h.ids f id (hStored f id hMem)
  · intro f f' hOrder id id' hMem hMem'
    rcases finishedBefore_concat.mp hOrder with hOrder | ⟨_, hEq⟩
    · exact h.increasing f f' hOrder id id' (hStored f id hMem) (hStored f' id' hMem')
    · injection hEq with hEq
      have hStarted := h.begun _ (hStored f' id' hMem') f' rfl
      rw [← hEq] at hStarted
      exact absurd hStarted hNew
  · rintro f f' hOrder rfl
    rcases finishedBefore_concat.mp hOrder with hOrder | ⟨hFinished, hEq⟩
    · exact h.ne f f hOrder rfl
    · injection hEq with hEq
      rw [← hEq] at hFinished
      exact hNone hFinished
  · intro f f' hOrder hFinish
    rcases finishOrder_concat.mp hFinish with hFinish | ⟨_, out, queued, hEq⟩
    · rcases finishedBefore_concat.mp hOrder with hOrder | ⟨_, hEq⟩
      · exact h.later f f' hOrder hFinish
      · injection hEq with hEq
        rw [← hEq] at hFinish
        exact hNone hFinish.finished
    · contradiction
  · intro f f' hTask hIndex hMem
    apply finishedBefore_concat.mpr
    rcases mem_concat_iff.mp hMem with hMem | hEq
    · exact Or.inl (h.batch f f' hTask hIndex hMem)
    · injection hEq with hEq
      rw [hEq] at hTask hIndex
      have hFinished := hEarlier f.index hIndex
      rw [← hTask] at hFinished
      exact Or.inr ⟨hFinished, by rw [hEq]⟩

/-- A new message has a larger id than all before it. -/
theorem Ordered.stored (h : Ordered log last) (hStarted : .start frame ∈ log)
    (hOpen : ¬Finished log frame) (hId : last < id) :
    Ordered (log ++ [.stored frame id]) id := by
  have hBefore : ∀ f f', FinishedBefore (log ++ [.stored frame id]) f f' →
      FinishedBefore log f f' :=
    fun f f' hOrder => finishedBefore_of_concat hOrder (fun hEq => by contradiction)
  constructor
  · apply h.begun_concat
    intro f hSome
    rw [← Option.some.inj hSome]
    exact List.mem_append_left _ hStarted
  · intro f n hMem
    rcases mem_concat_iff.mp hMem with hMem | hEq
    · exact Nat.le_trans (h.ids f n hMem) (Nat.le_of_lt hId)
    · injection hEq with _ hEq
      exact Nat.le_of_eq hEq
  · intro f f' hOrder n n' hMem hMem'
    have hOrder := hBefore f f' hOrder
    rcases mem_concat_iff.mp hMem with hMem | hEq
    · rcases mem_concat_iff.mp hMem' with hMem' | hEq'
      · exact h.increasing f f' hOrder n n' hMem hMem'
      · injection hEq' with _ hEq'
        rw [hEq']
        exact Nat.lt_of_le_of_lt (h.ids f n hMem) hId
    · injection hEq with hEq
      rw [hEq] at hOrder
      exact absurd hOrder.finished hOpen
  · exact fun f f' hOrder => h.ne f f' (hBefore f f' hOrder)
  · intro f f' hOrder hFinish
    rcases finishOrder_concat.mp hFinish with hFinish | ⟨_, out, queued, hEq⟩
    · exact h.later f f' (hBefore f f' hOrder) hFinish
    · contradiction
  · intro f f' hTask hIndex hMem
    have hOld := mem_of_mem_concat hMem (fun hEq => by contradiction)
    exact finishedBefore_concat.mpr (Or.inl (h.batch f f' hTask hIndex hOld))

/-- A packet that was started and is not finished yet is finished. -/
theorem Ordered.finish (h : Ordered log last) (hStarted : .start frame ∈ log)
    (hOpen : ¬Finished log frame) (out : List OutboundMessage) (queued : Bool) :
    Ordered (log ++ [.finish frame out queued]) last := by
  have hStored : ∀ f id, .stored f id ∈ log ++ [.finish frame out queued] →
      .stored f id ∈ log :=
    fun f id hMem => mem_of_mem_concat hMem (fun hEq => by contradiction)
  have hBefore : ∀ f f', FinishedBefore (log ++ [.finish frame out queued]) f f' →
      FinishedBefore log f f' :=
    fun f f' hOrder => finishedBefore_of_concat hOrder (fun hEq => by contradiction)
  constructor
  · apply h.begun_concat
    intro f hSome
    rw [← Option.some.inj hSome]
    exact List.mem_append_left _ hStarted
  · exact fun f id hMem => h.ids f id (hStored f id hMem)
  · intro f f' hOrder id id' hMem hMem'
    exact h.increasing f f' (hBefore f f' hOrder) id id' (hStored f id hMem) (hStored f' id' hMem')
  · exact fun f f' hOrder => h.ne f f' (hBefore f f' hOrder)
  · intro f f' hOrder hFinish
    have hOrder := hBefore f f' hOrder
    rcases finishOrder_concat.mp hFinish with hFinish | ⟨_, out', queued', hEq⟩
    · exact h.later f f' hOrder hFinish
    · -- the packet that was finished before is not the one that finishes now
      injection hEq with hEq
      rw [← hEq] at hOrder
      exact hOpen hOrder.finished
  · intro f f' hTask hIndex hMem
    have hOld := mem_of_mem_concat hMem (fun hEq => by contradiction)
    exact finishedBefore_concat.mpr (Or.inl (h.batch f f' hTask hIndex hOld))

/-! ## Steps keep the order -/

variable {crypto : Crypto} {config : ServerConfig} {pool : PoolConfig} {s s' : Server}

theorem mem_startedOf {t i : Nat} :
    i ∈ startedOf log t ↔ .start { task := t, index := i } ∈ log := by
  unfold startedOf
  rw [List.mem_filterMap]
  constructor
  · rintro ⟨event, hMem, hSome⟩
    split at hSome
    · rename_i frame
      split at hSome
      · rename_i hTask
        rw [← hTask, ← Option.some.inj hSome]
        exact hMem
      · contradiction
    · contradiction
  · intro hMem
    exact ⟨_, hMem, by simp⟩

theorem mem_finishedOf {t i : Nat} :
    i ∈ finishedOf log t ↔ Finished log { task := t, index := i } := by
  unfold finishedOf
  rw [List.mem_filterMap]
  constructor
  · rintro ⟨event, hMem, hSome⟩
    split at hSome
    · rename_i frame out queued
      split at hSome
      · rename_i hTask
        rw [← hTask, ← Option.some.inj hSome]
        exact ⟨out, queued, hMem⟩
      · contradiction
    · contradiction
  · rintro ⟨out, queued, hMem⟩
    exact ⟨_, hMem, by simp⟩

/-- The packet a worker is at is not finished, and those before it are. -/
theorem Booked.finished_iff (h : Booked s) {w : Nat} {job : Job}
    (hJob : s.running.lookup w = some job) (i : Nat) :
    Finished s.log { task := job.task, index := i } ↔ i < job.index := by
  rw [← mem_finishedOf, h.finished w job hJob, List.mem_range]

/-- A worker has started exactly the packets that it has counted. -/
theorem Booked.start_mem_iff (h : Booked s) {w : Nat} {job : Job}
    (hJob : s.running.lookup w = some job) (i : Nat) :
    .start { task := job.task, index := i } ∈ s.log ↔ i < job.started := by
  rw [← mem_startedOf, h.started w job hJob, List.mem_range]

/-- The number of messages, which is the last id given out. -/
def Server.lastId (s : Server) : Nat := s.chat.messages.messages.length

/-- Closing a connection stores nothing. -/
theorem lastId_withNet (s : Server) (net : TcpServer) :
    (s.withNet crypto net).lastId = s.lastId := by
  have hStep : ∀ chat effect, True → chat.messages = s.chat.messages →
      (disconnect crypto chat effect).messages = s.chat.messages := by
    intro chat effect _ hSame
    cases effect with
    | handleDisconnect c => exact hSame
    | _ => exact hSame
  have hMessages := Transition.foldl_invariant hStep (newEffects s.net net) s.chat
    (fun _ _ => trivial) rfl
  exact congrArg (fun store => store.messages.length) hMessages

/-- A call stores one message under the next id, or none. -/
theorem call_stored (frame : Frame) (op : ServiceCall) (chat : ChatState) :
    (storedBy frame op (op.exec crypto chat).1 = [] ∧
      (op.exec crypto chat).2.messages = chat.messages) ∨
    (storedBy frame op (op.exec crypto chat).1 =
        [.stored frame (chat.messages.messages.length + 1)] ∧
      (op.exec crypto chat).2.messages.messages.length =
        chat.messages.messages.length + 1) := by
  cases op with
  | append message =>
      refine Or.inr ⟨?_, List.length_append⟩
      show [Event.stored frame (chat.messages.messages ++ [message]).length] = _
      rw [List.length_append, List.length_singleton]
  | _ => exact Or.inl ⟨rfl, rfl⟩

/-- A step keeps the order of the log. -/
theorem step_ordered (hBooked : Booked s) (h : Ordered s.log s.lastId) {a : Action}
    (hStep : Stepped crypto config pool s a s') : Ordered s'.log s'.lastId := by
  cases hStep with
  | @event action r hPhase hEvent hNet =>
      have hLast := @lastId_withNet crypto s r.server
      cases hBatch : batchOf (newEffects s.net r.server) action with
      | none =>
          show Ordered s.log (s.withNet crypto r.server).lastId
          rw [hLast]
          exact h
      | some batch =>
          show Ordered (s.log ++ [_]) (s.withNet crypto r.server).lastId
          rw [hLast]
          exact h.neutral rfl
  | closeNext hPhase =>
      show Ordered s.log (s.withNet crypto _).lastId
      rw [lastId_withNet]
      exact h
  | closeNextAgain hPhase =>
      show Ordered s.log (s.withNet crypto _).lastId
      rw [lastId_withNet]
      exact h
  | @deliver item rest io hPhase =>
      show Ordered _ (s.withNet crypto _).lastId
      rw [lastId_withNet]
      unfold Server.deliver
      dsimp only
      split
      · exact h.neutral rfl
      · exact h
  | @call worker job op next hJob hCurrent =>
      have hStarted : .start job.frame ∈ s.log :=
        (hBooked.start_mem_iff hJob job.index).mpr (by simp [Job.started, hCurrent])
      have hOpen : ¬Finished s.log job.frame := fun hFinished =>
        Nat.lt_irrefl _ ((hBooked.finished_iff hJob job.index).mp hFinished)
      show Ordered (s.log ++ storedBy job.frame op (op.exec crypto s.chat).1)
        (op.exec crypto s.chat).2.messages.messages.length
      rcases @call_stored crypto job.frame op s.chat with ⟨hNone, hSame⟩ | ⟨hOne, hMore⟩
      · rw [hNone, hSame, List.append_nil]
        exact h
      · rw [hOne, hMore]
        exact h.stored hStarted hOpen (Nat.lt_succ_self _)
  | @push worker job out hJob hCurrent =>
      have hStarted : .start job.frame ∈ s.log :=
        (hBooked.start_mem_iff hJob job.index).mpr (by simp [Job.started, hCurrent])
      have hOpen : ¬Finished s.log job.frame := fun hFinished =>
        Nat.lt_irrefl _ ((hBooked.finished_iff hJob job.index).mp hFinished)
      exact h.finish hStarted hOpen out _
  | @start worker job payload rest hJob hCurrent hRest =>
      have hNew : .start job.frame ∉ s.log := by
        intro hMem
        have hLt := (hBooked.start_mem_iff hJob job.index).mp hMem
        simp [Job.started, hCurrent] at hLt
      exact h.start hNew fun i hi => (hBooked.finished_iff hJob i).mpr hi
  | _ => exact h

/-! ## Sends follow the order -/

/-- The packets whose replies were passed to `send_to_client`, in order. -/
def passedFrames (log : List Event) : List Frame :=
  log.filterMap fun event => match event with
    | .pass origin _ _ _ => some origin.frame
    | _ => none

/-- The responses that the loop has swapped out and not delivered. -/
def Phase.items : Phase → List Item
  | .delivering pending => pending
  | _ => []

/-- The packets of all replies on their way: passed on, swapped out, queued. -/
def Server.lane (s : Server) : List Frame :=
  passedFrames s.log ++ s.phase.items.map (fun item => item.2.frame) ++
    s.origins.map Origin.frame

/-- The replies are in the order in which their packets were finished. -/
structure Laned (s : Server) : Prop where
  inOrder : s.lane.Pairwise fun f f' => f = f' ∨ FinishOrder s.log f f'
  finished : ∀ f ∈ s.lane, Finished s.log f

/-- Replies that are lost do not change the order of the others. -/
theorem Laned.of_sublist (h : Laned s) {more : List Event} (hLog : s'.log = s.log ++ more)
    (hLane : s'.lane.Sublist s.lane) : Laned s' := by
  constructor
  · rw [hLog]
    exact (h.inOrder.sublist hLane).imp fun hRel => hRel.imp_right fun hOrder => hOrder.append more
  · rw [hLog]
    exact fun f hMem => (h.finished f (hLane.subset hMem)).append more

theorem passedFrames_concat (log : List Event) (event : Event) :
    passedFrames (log ++ [event]) = passedFrames log ++ passedFrames [event] :=
  List.filterMap_append

/-- A step that moves no reply keeps the lane. -/
theorem Laned.of_same (h : Laned s) {more : List Event} (hLog : s'.log = s.log ++ more)
    (hMore : passedFrames more = []) (hPhase : s'.phase.items = s.phase.items)
    (hOrigins : s'.origins = s.origins) : Laned s' := by
  have hPassed : passedFrames (s.log ++ more) = passedFrames s.log := by
    rw [passedFrames, List.filterMap_append]
    show passedFrames s.log ++ passedFrames more = _
    rw [hMore, List.append_nil]
  apply h.of_sublist hLog
  rw [Server.lane, hLog, hPassed, hPhase, hOrigins]
  exact List.Sublist.refl _

/-- New replies queue up behind all others. -/
theorem Laned.push (h : Laned s) (config : ServerConfig) (worker : Nat) (job : Job)
    (out : List OutboundMessage) : Laned (s.push config worker job out) := by
  cases hFits : fits config s out with
  | false =>
      have hLog : (s.push config worker job out).log =
          s.log ++ [.finish job.frame out false] := by simp [Server.push, hFits]
      refine h.of_same hLog rfl rfl ?_
      simp [Server.push, hFits]
  | true =>
      have hLog : (s.push config worker job out).log =
          s.log ++ [.finish job.frame out true] := by simp [Server.push, hFits]
      have hFrames : (originsOf job.frame out).map Origin.frame =
          List.replicate out.length job.frame := by
        rw [originsOf, List.map_map, List.eq_replicate_iff]
        refine ⟨by simp, ?_⟩
        intro f hMem
        obtain ⟨position, -, hEq⟩ := List.mem_map.mp hMem
        exact hEq.symm
      have hLane : (s.push config worker job out).lane =
          s.lane ++ List.replicate out.length job.frame := by
        rw [← hFrames, Server.lane, hLog, passedFrames_concat]
        simp [Server.lane, Server.push, hFits, passedFrames]
      have hNew : Finished (s.log ++ [.finish job.frame out true]) job.frame :=
        finished_concat.mpr (Or.inr ⟨out, true, rfl⟩)
      constructor
      · rw [hLane, hLog, List.pairwise_append]
        refine ⟨?_, ?_, ?_⟩
        · exact h.inOrder.imp fun hRel => hRel.imp_right fun hOrder => hOrder.append _
        · exact List.pairwise_replicate.mpr (Or.inr (Or.inl rfl))
        · intro f hMem f' hMem'
          rw [List.eq_of_mem_replicate hMem']
          exact Or.inr (finishOrder_concat.mpr (Or.inr ⟨h.finished f hMem, out, true, rfl⟩))
      · rw [hLane, hLog]
        intro f hMem
        rcases List.mem_append.mp hMem with hMem | hMem
        · exact (h.finished f hMem).append _
        · rw [List.eq_of_mem_replicate hMem]
          exact hNew

/-- A step appends to the lane, or moves a reply along in it. -/
theorem step_laned (hWired : Wired s) (h : Laned s) {a : Action}
    (hStep : Stepped crypto config pool s a s') : Laned s' := by
  cases hStep with
  | @event action r hPhase hEvent hNet =>
      cases batchOf (newEffects s.net r.server) action with
      | none => exact h.of_same (List.append_nil _).symm rfl rfl rfl
      | some batch => exact h.of_same rfl rfl rfl rfl
  | drain hPhase =>
      refine h.of_same (List.append_nil _).symm rfl ?_ rfl
      rw [hPhase]
      rfl
  | closeNext hPhase =>
      refine h.of_same (List.append_nil _).symm rfl ?_ rfl
      rw [hPhase]
      rfl
  | closeNextAgain hPhase =>
      refine h.of_same (List.append_nil _).symm rfl ?_ rfl
      rw [hPhase]
      rfl
  | swap hPhase =>
      have hItems : (s.net.responseQueue.zip s.origins).map (fun item => item.2.frame) =
          s.origins.map Origin.frame := by
        have hSnd : (s.net.responseQueue.zip s.origins).map Prod.snd = s.origins :=
          List.map_snd_zip (Nat.le_of_eq hWired.paired)
        calc (s.net.responseQueue.zip s.origins).map (fun item => item.2.frame)
          _ = ((s.net.responseQueue.zip s.origins).map Prod.snd).map Origin.frame := by
            rw [List.map_map]
            rfl
          _ = s.origins.map Origin.frame := by rw [hSnd]
      refine h.of_sublist (List.append_nil _).symm ?_
      unfold Server.lane
      rw [hPhase]
      simp [Phase.items, hItems]
  | @deliver item rest io hPhase =>
      unfold Server.deliver
      dsimp only
      split
      · refine h.of_sublist rfl ?_
        unfold Server.lane
        rw [hPhase, passedFrames_concat]
        simp [Phase.items, passedFrames, Server.withNet]
      · refine h.of_sublist (List.append_nil _).symm ?_
        unfold Server.lane
        rw [hPhase]
        simp [Phase.items, Server.withNet]
  | drainAgain hPhase =>
      refine h.of_same (List.append_nil _).symm rfl ?_ rfl
      rw [hPhase]
      rfl
  | endDrain hPhase =>
      refine h.of_same (List.append_nil _).symm rfl ?_ rfl
      rw [hPhase]
      rfl
  | take hTasks hThread hFree => exact h.of_same (List.append_nil _).symm rfl rfl rfl
  | @call worker job op next hJob hCurrent =>
      have hMore : passedFrames (storedBy job.frame op (op.exec crypto s.chat).1) = [] := by
        rcases @call_stored crypto job.frame op s.chat with ⟨hNone, -⟩ | ⟨hOne, -⟩
        · rw [hNone]
          rfl
        · rw [hOne]
          rfl
      exact h.of_same rfl hMore rfl rfl
  | push hJob hCurrent => exact h.push config _ _ _
  | start hJob hCurrent hRest => exact h.of_same rfl rfl rfl rfl
  | leave hJob hCurrent hRest => exact h.of_same (List.append_nil _).symm rfl rfl rfl

/-! ## The order of two packets -/

/-- Ids and sends follow the order of processing. -/
structure InOrder (s : Server) : Prop where
  booked : Booked s
  wired : Wired s
  ordered : Ordered s.log s.lastId
  laned : Laned s

/-- One step keeps the bookkeeping and both orders. -/
theorem step_inOrder (s : Server) (a : Action) (s' : Server) (h : InOrder s)
    (hStep : step crypto config pool s a = some s') : InOrder s' where
  booked := step_booked h.booked (stepped hStep)
  wired := step_wired h.wired (stepped hStep)
  ordered := step_ordered h.booked h.ordered (stepped hStep)
  laned := step_laned h.wired h.laned (stepped hStep)

theorem inOrder_init (listenFd wakeFd : Nat) : InOrder (Server.init listenFd wakeFd) where
  booked := booked_init listenFd wakeFd
  wired := wired_init listenFd wakeFd
  ordered := Ordered.empty
  laned := ⟨List.Pairwise.nil, fun _ hMem => absurd hMem List.not_mem_nil⟩

/-- A response that was passed on belongs to a finished packet. -/
theorem InOrder.finished_of_pass (h : InOrder s) {origin : Origin} {c : Nat} {data : Bytes}
    {sent : Bool} (hMem : .pass origin c data sent ∈ s.log) :
    Finished s.log origin.frame := by
  have hPassed : origin.frame ∈ passedFrames s.log := List.mem_filterMap.mpr ⟨_, hMem, rfl⟩
  exact h.laned.finished _ (List.mem_append_left _ (List.mem_append_left _ hPassed))

/-- Sends of a packet that was finished first come first. -/
theorem InOrder.not_before (h : InOrder s) {origin origin' : Origin} {c c' : Nat}
    {data data' : Bytes} {sent sent' : Bool}
    (hOrder : FinishedBefore s.log origin.frame origin'.frame) :
    ¬Before s.log (.pass origin' c' data' sent') (.pass origin c data sent) := by
  intro hBefore
  have hFrames : Before (passedFrames s.log) origin'.frame origin.frame :=
    hBefore.filterMap rfl rfl
  have hLane : Before s.lane origin'.frame origin.frame :=
    (hFrames.append _).append _
  rcases hLane.rel h.laned.inOrder with hEq | hFinish
  · exact h.ordered.ne _ _ hOrder hEq.symm
  · exact h.ordered.later _ _ hOrder hFinish

/-- In every run, for two packets of one batch, and for two packets of which the
first is finished before the second starts: the first gets the smaller message id,
and what is sent for it to a connection is sent before what is sent for the second. -/
theorem frames_ordered (crypto : Crypto) (config : ServerConfig) (pool : PoolConfig)
    (listenFd wakeFd : Nat) (acts : List Action) (s : Server)
    (hRun : run (step crypto config pool) (Server.init listenFd wakeFd) acts = some s)
    (f f' : Frame)
    (hOrder : (f.task = f'.task ∧ f.index < f'.index) ∨ FinishedBefore s.log f f') :
    (∀ id id', .stored f id ∈ s.log → .stored f' id' ∈ s.log → id < id') ∧
    ∀ origin origin' c data data' sent sent', origin.frame = f → origin'.frame = f' →
      .pass origin c data sent ∈ s.log → .pass origin' c data' sent' ∈ s.log →
        Before s.log (.pass origin c data sent) (.pass origin' c data' sent') ∧
        ¬Before s.log (.pass origin' c data' sent') (.pass origin c data sent) := by
  have h : InOrder s := run_invariant step_inOrder (inOrder_init listenFd wakeFd) hRun
  -- packets of one batch do not overlap once the second has started
  have hBefore : .start f' ∈ s.log → FinishedBefore s.log f f' := by
    intro hStarted
    rcases hOrder with ⟨hTask, hIndex⟩ | hBefore
    · exact h.ordered.batch f f' hTask hIndex hStarted
    · exact hBefore
  constructor
  · intro id id' hMem hMem'
    have hStarted := h.ordered.begun _ hMem' f' rfl
    exact h.ordered.increasing f f' (hBefore hStarted) id id' hMem hMem'
  · rintro origin origin' c data data' sent sent' rfl rfl hMem hMem'
    have hStarted := h.ordered.started_of_finished (h.finished_of_pass hMem')
    have hFirst := hBefore hStarted
    have hNot : ¬Before s.log (.pass origin' c data' sent') (.pass origin c data sent) :=
      h.not_before hFirst
    have hNe : Event.pass origin c data sent ≠ .pass origin' c data' sent' := by
      intro hEq
      injection hEq with hEq
      rw [hEq] at hFirst
      exact h.ordered.ne _ _ hFirst rfl
    exact ⟨(before_or_before hMem hMem' hNe).resolve_right hNot, hNot⟩

/-! ## Two messages from Alice to Bob -/

/-- A read that finds some packets in the socket, as long as they are not too many
for one chunk. -/
def readOf (payloads : List Bytes) : ReadIo :=
  let data := payloads.flatMap fun payload => be32 payload.length ++ payload
  { script :=
      if h : 0 < data.length ∧ data.length ≤ kReadChunkSize then
        [.bytes { data := data, nonempty := h.1, bounded := h.2 }]
      else [] }

/-- Alice enters on connection 1 and Bob on connection 2. -/
def enterBoth : List Action :=
  [.event (.accept { fd := 7 }), .event (.accept { fd := 8 }),
    .event (.read 7 (readOf [registerLine "alice", loginLine "alice"])), .take 0] ++
  List.replicate 11 (.work 0) ++
  [.event (.read 8 (readOf [registerLine "bob", loginLine "bob"])), .take 0] ++
  List.replicate 11 (.work 0)

/-- The payload of a `dm` to Bob. -/
def dmToBob (body : String) : Bytes := dmLine (ascii "bob") (ascii body)

/-- What Bob gets of it. -/
def dmFromAlice (body : String) : Bytes :=
  (Response.directMessage (ascii "alice") (ascii body)).data

/-- Both messages come with one read; everything queued is then delivered. -/
def oneBatch : List Action :=
  enterBoth ++ [.event (.read 7 (readOf [dmToBob "one", dmToBob "two"])), .take 0] ++
  List.replicate 13 (.work 0) ++ [.drain, .swap] ++ List.replicate 8 (.deliver {})

/-- In one batch, the first message gets the smaller id and is sent to Bob first. -/
theorem frames_ordered_oneBatch :
    ∃ s id id', run (step sampleCrypto {} ⟨2, 4⟩) (Server.init 3 4) oneBatch = some s ∧
      .stored ⟨2, 0⟩ id ∈ s.log ∧ .stored ⟨2, 1⟩ id' ∈ s.log ∧ id < id' ∧
      Before s.log (.pass ⟨⟨2, 0⟩, 0⟩ 2 (dmFromAlice "one") true)
        (.pass ⟨⟨2, 1⟩, 0⟩ 2 (dmFromAlice "two") true) := by
  obtain ⟨s, hRun, hView⟩ := Option.map_eq_some_iff.mp
    (show (run (step sampleCrypto {} ⟨2, 4⟩) (Server.init 3 4) oneBatch).map (fun s =>
        decide (.stored ⟨2, 0⟩ 1 ∈ s.log ∧ .stored ⟨2, 1⟩ 2 ∈ s.log ∧
          .pass ⟨⟨2, 0⟩, 0⟩ 2 (dmFromAlice "one") true ∈ s.log ∧
          .pass ⟨⟨2, 1⟩, 0⟩ 2 (dmFromAlice "two") true ∈ s.log)) = some true by
      decide +kernel)
  obtain ⟨hStored, hStored', hPass, hPass'⟩ := of_decide_eq_true hView
  obtain ⟨hIds, hSends⟩ := frames_ordered sampleCrypto {} ⟨2, 4⟩ 3 4 oneBatch s hRun
    ⟨2, 0⟩ ⟨2, 1⟩ (Or.inl ⟨rfl, by decide⟩)
  exact ⟨s, 1, 2, hRun, hStored, hStored', hIds 1 2 hStored hStored',
    (hSends _ _ 2 _ _ true true rfl rfl hPass hPass').1⟩

/-- The messages come with two reads and are taken by two workers; the second one
is faster. -/
def twoBatches : List Action :=
  enterBoth ++
  [.event (.read 7 (readOf [dmToBob "one"])), .event (.read 7 (readOf [dmToBob "two"])),
    .take 0, .take 1, .work 0, .work 0, .work 0] ++
  List.replicate 7 (.work 1) ++ List.replicate 4 (.work 0) ++ [.drain, .swap] ++
  List.replicate 8 (.deliver {})

/-- Alice is logged in and sends "one" before "two"; "two" is stored under the
smaller id and is sent to Bob first. -/
theorem frames_overtaken :
    (run (step sampleCrypto {} ⟨2, 4⟩) (Server.init 3 4) twoBatches).map (fun s =>
      decide (
        Before s.log (.read 2 1 1 [dmToBob "one"]) (.read 3 1 1 [dmToBob "two"]) ∧
        (s.chat.sessions.findByConnection 1).isSome ∧
        .stored ⟨2, 0⟩ 2 ∈ s.log ∧ .stored ⟨3, 0⟩ 1 ∈ s.log ∧
        Before s.log (.pass ⟨⟨3, 0⟩, 0⟩ 2 (dmFromAlice "two") true)
          (.pass ⟨⟨2, 0⟩, 0⟩ 2 (dmFromAlice "one") true))) = some true := by
  decide +kernel

end CppChat.Ports.ServerRuns
