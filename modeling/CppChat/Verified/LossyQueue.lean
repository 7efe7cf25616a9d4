import Mathlib.Data.List.TakeWhile

/-!
# A queue that loses batches

A producer makes batches of items for one receiver.  A batch is queued as a whole
or lost as a whole; the consumer takes what is queued at once and passes it on
item by item, as long as the receiver is open.  The receiver sees no gap when
after a loss it is closed before anything produced later is taken.

`Flow` is the invariant of such a queue, with its own notion of what is open: a
loss asks for the receiver to be closed (`asked`), and items queued after a loss
are harmless while the closing comes before the next taking (`coming`).

## Main results

* `Flow.queue`, `Flow.lose`, `Flow.take`, `Flow.pass`, `Flow.skip`: what each step
  of producer and consumer keeps.
* `Flow.passed_prefix_produced`: the receiver sees a prefix of what was produced.
* `mem_untilLoss_lt`: in a production with increasing keys, what comes before the
  first loss has smaller keys than any lost batch.
-/

namespace CppChat.Verified.LossyQueue

variable {α β : Type} (items : β → List α) (isLost : β → Bool)

/-- The items of the batches before the first lost one. -/
def untilLoss (produced : List β) : List α :=
  (produced.takeWhile fun batch => !isLost batch).flatMap items

variable {items isLost} {produced : List β} {batch : β}

theorem untilLoss_prefix : untilLoss items isLost produced <+: produced.flatMap items := by
  obtain ⟨rest, hRest⟩ := List.takeWhile_prefix (fun batch => !isLost batch) (l := produced)
  refine ⟨rest.flatMap items, ?_⟩
  rw [untilLoss, ← List.flatMap_append, hRest]

/-- Nothing counts after a loss. -/
theorem untilLoss_concat_of_lost (h : ∃ batch ∈ produced, isLost batch = true) (batch : β) :
    untilLoss items isLost (produced ++ [batch]) = untilLoss items isLost produced := by
  induction produced with
  | nil => simp at h
  | cons first rest ih =>
      cases hFirst : isLost first with
      | true => simp [untilLoss, hFirst]
      | false =>
          have hRest : ∃ batch ∈ rest, isLost batch = true := by
            simpa [hFirst] using h
          have hStep := ih hRest
          simp only [untilLoss] at hStep
          simp [untilLoss, hFirst, hStep]

theorem untilLoss_of_none (h : ∀ batch ∈ produced, isLost batch = false) :
    untilLoss items isLost produced = produced.flatMap items := by
  have hAll : produced.takeWhile (fun batch => !isLost batch) = produced := by
    rw [List.takeWhile_eq_self_iff]
    simpa using h
  rw [untilLoss, hAll]

/-- What comes before the first loss has smaller keys than any lost batch. -/
theorem mem_untilLoss_lt {key : β → Nat} (hKeys : produced.Pairwise fun b b' => key b < key b')
    {item : α} (hItem : item ∈ untilLoss items isLost produced)
    (hMem : batch ∈ produced) (hLost : isLost batch = true) :
    ∃ earlier ∈ produced, item ∈ items earlier ∧ key earlier < key batch := by
  obtain ⟨earlier, hEarlier, hOf⟩ := List.mem_flatMap.mp hItem
  refine ⟨earlier, (List.takeWhile_sublist _).subset hEarlier, hOf, ?_⟩
  rw [← List.takeWhile_append_dropWhile (p := fun b => !isLost b) (l := produced)] at hKeys hMem
  rcases List.mem_append.mp hMem with hKept | hRest
  · have hNot := List.mem_takeWhile_imp (p := fun b => !isLost b) hKept
    simp [hLost] at hNot
  · exact (List.pairwise_append.mp hKeys).2.2 earlier hEarlier batch hRest

/-! ## The invariant -/

section Flow

variable (items isLost)

/-- The batches produced so far, the items passed on, taken and queued.  While the
receiver is open, nothing that was produced before the first loss is missing, and
what was queued after it is followed by no taking before the closing. -/
structure Flow (produced : List β) (passed taken queued : List α)
    (isOpen asked coming : Prop) : Prop where
  kept : passed <+: untilLoss items isLost produced
  inFlight : isOpen → ∃ early late, queued = early ++ late ∧
    passed ++ taken ++ early = untilLoss items isLost produced ∧
    (late ≠ [] → (∃ batch ∈ produced, isLost batch = true) ∧ coming)
  asks : (∃ batch ∈ produced, isLost batch = true) → isOpen → asked

end Flow

variable {passed taken queued : List α} {isOpen isOpen' asked asked' coming coming' : Prop}

theorem Flow.empty (isOpen asked coming : Prop) :
    Flow items isLost [] [] [] [] isOpen asked coming := by
  constructor
  · exact List.nil_prefix
  · intro _
    exact ⟨[], [], rfl, rfl, fun h => absurd rfl h⟩
  · simp

theorem Flow.passed_prefix_produced
    (h : Flow items isLost produced passed taken queued isOpen asked coming) :
    passed <+: produced.flatMap items :=
  h.kept.trans untilLoss_prefix

/-- A step that moves no items. -/
theorem Flow.mono (h : Flow items isLost produced passed taken queued isOpen asked coming)
    (hOpen : isOpen' → isOpen) (hAsked : isOpen' → asked → asked')
    (hComing : isOpen' → asked → coming → coming') :
    Flow items isLost produced passed taken queued isOpen' asked' coming' := by
  constructor
  · exact h.kept
  · intro hNow
    obtain ⟨early, late, hQueued, hKept, hLate⟩ := h.inFlight (hOpen hNow)
    refine ⟨early, late, hQueued, hKept, ?_⟩
    intro hNe
    obtain ⟨hLost, hBefore⟩ := hLate hNe
    exact ⟨hLost, hComing hNow (h.asks hLost (hOpen hNow)) hBefore⟩
  · intro hLost hNow
    exact hAsked hNow (h.asks hLost (hOpen hNow))

/-- A batch is queued.  After a loss this needs the closing to come first. -/
theorem Flow.queue (h : Flow items isLost produced passed taken queued isOpen asked coming)
    (hKept : isLost batch = false)
    (hLate : isOpen → (∃ b ∈ produced, isLost b = true) → items batch ≠ [] → coming) :
    Flow items isLost (produced ++ [batch]) passed taken (queued ++ items batch)
      isOpen asked coming := by
  have hStill : (∃ b ∈ produced ++ [batch], isLost b = true) →
      ∃ b ∈ produced, isLost b = true := by
    simp [hKept, or_and_right, exists_or]
  by_cases hLost : ∃ b ∈ produced, isLost b = true
  · have hSame : untilLoss items isLost (produced ++ [batch]) =
        untilLoss items isLost produced := untilLoss_concat_of_lost hLost batch
    constructor
    · rw [hSame]
      exact h.kept
    · intro hOpen
      obtain ⟨early, late, hQueued, hEq, hBefore⟩ := h.inFlight hOpen
      refine ⟨early, late ++ items batch, by rw [hQueued, List.append_assoc], ?_, ?_⟩
      · rw [hSame]
        exact hEq
      · intro hNe
        obtain ⟨b, hb, hbLost⟩ := hLost
        refine ⟨⟨b, List.mem_append_left _ hb, hbLost⟩, ?_⟩
        by_cases hNil : late = []
        · rw [hNil, List.nil_append] at hNe
          exact hLate hOpen ⟨b, hb, hbLost⟩ hNe
        · exact (hBefore hNil).2
    · exact fun _ hOpen => h.asks hLost hOpen
  · have hNone : ∀ b ∈ produced, isLost b = false := by simpa using hLost
    have hAll : ∀ b ∈ produced ++ [batch], isLost b = false := by
      intro b hb
      rcases List.mem_append.mp hb with hb | hb
      · exact hNone b hb
      · rw [List.mem_singleton.mp hb]
        exact hKept
    have hMore : untilLoss items isLost (produced ++ [batch]) =
        untilLoss items isLost produced ++ items batch := by
      rw [untilLoss_of_none hAll, untilLoss_of_none hNone]
      simp
    constructor
    · rw [hMore]
      exact h.kept.trans (List.prefix_append _ _)
    · intro hOpen
      obtain ⟨early, late, hQueued, hEq, hBefore⟩ := h.inFlight hOpen
      -- nothing is late before the first loss
      have hNil : late = [] := by
        by_contra hNe
        exact hLost (hBefore hNe).1
      refine ⟨early ++ items batch, [], ?_, ?_, fun hNe => absurd rfl hNe⟩
      · rw [hQueued, hNil, List.append_nil, List.append_nil]
      · rw [hMore, ← List.append_assoc, hEq]
    · exact fun hNow hOpen => h.asks (hStill hNow) hOpen

/-- A batch is lost, and the closing is asked for. -/
theorem Flow.lose (h : Flow items isLost produced passed taken queued isOpen asked coming)
    (hBatch : isLost batch = true) (hAsked : asked') (hComing : coming → coming') :
    Flow items isLost (produced ++ [batch]) passed taken queued isOpen asked' coming' := by
  have hSame : untilLoss items isLost (produced ++ [batch]) =
      untilLoss items isLost produced := by
    by_cases hLost : ∃ b ∈ produced, isLost b = true
    · exact untilLoss_concat_of_lost hLost batch
    · have hNone : ∀ b ∈ produced, (!isLost b) = true := by simpa using hLost
      rw [untilLoss, List.takeWhile_append_of_pos hNone]
      simp [untilLoss, hBatch, List.takeWhile_eq_self_iff.mpr hNone]
  have hNow : ∃ b ∈ produced ++ [batch], isLost b = true :=
    ⟨batch, List.mem_append_right _ (List.mem_singleton_self _), hBatch⟩
  constructor
  · rw [hSame]
    exact h.kept
  · intro hOpen
    obtain ⟨early, late, hQueued, hEq, hBefore⟩ := h.inFlight hOpen
    refine ⟨early, late, hQueued, by rw [hSame]; exact hEq, ?_⟩
    exact fun hNe => ⟨hNow, hComing (hBefore hNe).2⟩
  · exact fun _ _ => hAsked

/-- The consumer takes the queue when no closing is due that it would overtake. -/
theorem Flow.take (h : Flow items isLost produced passed [] queued isOpen asked coming)
    (hOpen : isOpen' → isOpen) (hAsked : isOpen' → asked → asked')
    (hNot : isOpen' → ¬coming) :
    Flow items isLost produced passed queued [] isOpen' asked' coming' := by
  constructor
  · exact h.kept
  · intro hNow
    obtain ⟨early, late, hQueued, hEq, hBefore⟩ := h.inFlight (hOpen hNow)
    have hNil : late = [] := by
      by_contra hNe
      exact hNot hNow (hBefore hNe).2
    refine ⟨[], [], rfl, ?_, fun hNe => absurd rfl hNe⟩
    rw [hQueued, hNil, List.append_nil, List.append_nil, ← hEq, List.append_nil]
  · exact fun hLost hNow => hAsked hNow (h.asks hLost (hOpen hNow))

/-- The consumer passes the next item on. -/
theorem Flow.pass {item : α}
    (h : Flow items isLost produced passed (item :: taken) queued isOpen asked coming)
    (hNow : isOpen) (hAsked : isOpen' → asked → asked')
    (hComing : isOpen' → coming → coming') :
    Flow items isLost produced (passed ++ [item]) taken queued isOpen' asked' coming' := by
  obtain ⟨early, late, hQueued, hEq, hBefore⟩ := h.inFlight hNow
  have hMoved : passed ++ [item] ++ taken ++ early = untilLoss items isLost produced := by
    rw [← hEq]
    simp
  constructor
  · rw [← hMoved, List.append_assoc]
    exact List.prefix_append _ _
  · intro hOpen
    refine ⟨early, late, hQueued, hMoved, ?_⟩
    exact fun hNe => ⟨(hBefore hNe).1, hComing hOpen (hBefore hNe).2⟩
  · exact fun hLost hOpen => hAsked hOpen (h.asks hLost hNow)

/-- Once the receiver is closed, the rest does not matter. -/
theorem Flow.skip (h : Flow items isLost produced passed taken queued isOpen asked coming)
    (hClosed : ¬isOpen') (taken' queued' : List α) :
    Flow items isLost produced passed taken' queued' isOpen' asked' coming' :=
  ⟨h.kept, fun hOpen => absurd hOpen hClosed, fun _ hOpen => absurd hOpen hClosed⟩

end CppChat.Verified.LossyQueue
