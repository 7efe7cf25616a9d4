/-!
# Settings in layers

A setting is looked up in layers, the one that overrides the others first, and has a default
where no layer gives a value.  A lenient reader of a layer takes what a strict one takes and
perhaps more.  Where it takes more, the layers below are cut off.

## Main results

* `settled_cons`: a layer overrides those below it.
* `settled_eq_settled_iff`: when leniency does not show.
-/

namespace CppChat.Verified.Layers

variable {σ ν : Type}

/-- The value of the first layer that gives one. -/
def settled (read : σ → Option ν) (default : ν) (layers : List σ) : ν :=
  (layers.findSome? read).getD default

/-- In the first layer that the lenient reader takes, either the strict reader takes the same
value, or it arrives at the same value in the layers below. -/
def TakenStrictly (strict lenient : σ → Option ν) (default : ν) (layers : List σ) : Prop :=
  ∀ above layer below value, layers = above ++ layer :: below →
    (∀ skipped ∈ above, lenient skipped = none) → lenient layer = some value →
    strict layer = some value ∨ settled strict default below = value

variable {read strict lenient : σ → Option ν} {default : ν} {layer : σ} {layers : List σ}

@[simp] theorem settled_nil : settled read default [] = default := rfl

/-- The first layer settles it, or the others do. -/
theorem settled_cons :
    settled read default (layer :: layers) =
      (read layer).getD (settled read default layers) := by
  unfold settled
  rw [List.findSome?_cons]
  cases read layer <;> rfl

theorem settled_cons_of_none (h : read layer = none) :
    settled read default (layer :: layers) = settled read default layers := by
  rw [settled_cons, h, Option.getD_none]

theorem settled_cons_of_some {value : ν} (h : read layer = some value) :
    settled read default (layer :: layers) = value := by
  rw [settled_cons, h, Option.getD_some]

theorem takenStrictly_nil : TakenStrictly strict lenient default [] := by
  intro above layer below value hSplit
  cases above <;> contradiction

/-- A layer from which nothing is taken does not matter. -/
theorem takenStrictly_cons_of_none (h : lenient layer = none) :
    TakenStrictly strict lenient default (layer :: layers) ↔
      TakenStrictly strict lenient default layers := by
  constructor
  · intro hTaken above taken below value hSplit hAbove hValue
    apply hTaken (layer :: above) taken below value
    · rw [hSplit, List.cons_append]
    · intro skipped hSkipped
      rcases List.mem_cons.mp hSkipped with rfl | hSkipped
      · exact h
      · exact hAbove skipped hSkipped
    · exact hValue
  · intro hTaken above taken below value hSplit hAbove hValue
    cases above with
    | nil =>
        cases hSplit
        rw [h] at hValue
        contradiction
    | cons first above =>
        cases hSplit
        exact hTaken above taken below value rfl
          (fun skipped hSkipped => hAbove skipped (List.mem_cons_of_mem _ hSkipped)) hValue

theorem takenStrictly_cons_of_some {value : ν} (h : lenient layer = some value) :
    TakenStrictly strict lenient default (layer :: layers) ↔
      strict layer = some value ∨ settled strict default layers = value := by
  constructor
  · intro hTaken
    exact hTaken [] layer layers value rfl (fun _ hSkipped => absurd hSkipped List.not_mem_nil) h
  · intro hTaken above taken below value' hSplit hAbove hValue
    cases above with
    | nil =>
        cases hSplit
        rw [h] at hValue
        cases hValue
        exact hTaken
    | cons first above =>
        cases hSplit
        have hNone := hAbove layer List.mem_cons_self
        rw [h] at hNone
        contradiction

/-- The two readers settle on one value exactly under `TakenStrictly`. -/
theorem settled_eq_settled_iff
    (hStrict : ∀ layer value, strict layer = some value → lenient layer = some value) :
    settled lenient default layers = settled strict default layers ↔
      TakenStrictly strict lenient default layers := by
  induction layers with
  | nil => exact iff_of_true rfl takenStrictly_nil
  | cons layer rest ih =>
      cases hLenient : lenient layer with
      | none =>
          have hNone : strict layer = none := by
            cases hTaken : strict layer with
            | none => rfl
            | some value =>
                rw [hStrict layer value hTaken] at hLenient
                contradiction
          rw [settled_cons_of_none hLenient, settled_cons_of_none hNone, ih,
            takenStrictly_cons_of_none hLenient]
      | some value =>
          rw [settled_cons_of_some hLenient, takenStrictly_cons_of_some hLenient]
          cases hTaken : strict layer with
          | none =>
              rw [settled_cons_of_none hTaken]
              exact ⟨fun h => .inr h.symm, fun h => (h.resolve_left nofun).symm⟩
          | some taken =>
              have hSame : taken = value := by
                have h := hStrict layer taken hTaken
                rw [hLenient] at h
                exact (Option.some.inj h).symm
              rw [settled_cons_of_some hTaken, hSame]
              exact iff_of_true rfl (.inl rfl)

end CppChat.Verified.Layers
