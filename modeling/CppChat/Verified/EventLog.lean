import Mathlib.Data.List.Basic

/-!
# The order of events in a log

A system that records what it does appends to a log.  `Before` is the order in
which two events stand in it.  A log only grows at its end, so an order once
recorded stays, and a new pair of events always ends in the newest one:
`before_concat_iff` is the rule by which an invariant about orders is carried
over a step.

## Main results

* `before_concat_iff`: the pairs a new event adds.
* `before_or_before`: two recorded events are ordered one way or the other.
* `Before.rel`: what holds of all pairs of a list holds of these.
* `index_unique`: what is selected once was recorded once.
-/

namespace CppChat.Verified.EventLog

variable {α β : Type}

/-- `x` stands before `y` in the list. -/
def Before (l : List α) (x y : α) : Prop := [x, y].Sublist l

instance [DecidableEq α] (l : List α) (x y : α) : Decidable (Before l x y) :=
  inferInstanceAs (Decidable ([x, y].Sublist l))

variable {l : List α} {x y z : α}

theorem Before.fst_mem (h : Before l x y) : x ∈ l :=
  h.subset List.mem_cons_self

/-- An order once recorded stays. -/
theorem Before.append (h : Before l x y) (later : List α) : Before (l ++ later) x y :=
  h.trans (List.sublist_append_left l later)

/-- Everything recorded stands before what is recorded next. -/
theorem before_concat (hx : x ∈ l) (y : α) : Before (l ++ [y]) x y :=
  (List.singleton_sublist.mpr hx).append (List.Sublist.refl [y])

theorem before_concat_iff :
    Before (l ++ [z]) x y ↔ Before l x y ∨ (x ∈ l ∧ y = z) := by
  constructor
  · intro h
    obtain ⟨l₁, l₂, hEq, h₁, h₂⟩ := List.sublist_append_iff.mp h
    rcases List.sublist_singleton.mp h₂ with rfl | rfl
    · rw [List.append_nil] at hEq
      subst hEq
      exact Or.inl h₁
    · have hSplit : [x] ++ [y] = l₁ ++ [z] := hEq
      obtain ⟨rfl, hLast⟩ := List.append_inj' hSplit rfl
      exact Or.inr ⟨List.singleton_sublist.mp h₁, List.singleton_inj.mp hLast⟩
  · rintro (h | ⟨hx, rfl⟩)
    · exact h.append [z]
    · exact before_concat hx y

theorem before_or_before (hx : x ∈ l) (hy : y ∈ l) (hNe : x ≠ y) :
    Before l x y ∨ Before l y x := by
  induction l with
  | nil => contradiction
  | cons a rest ih =>
      rcases List.mem_cons.mp hx with rfl | hx' <;> rcases List.mem_cons.mp hy with rfl | hy'
      · exact absurd rfl hNe
      · exact Or.inl ((List.singleton_sublist.mpr hy').cons_cons x)
      · exact Or.inr ((List.singleton_sublist.mpr hx').cons_cons y)
      · exact (ih hx' hy').imp (fun h => h.cons a) (fun h => h.cons a)

/-- A selection keeps the order. -/
theorem Before.filterMap {f : α → Option β} {u v : β} (h : Before l x y)
    (hx : f x = some u) (hy : f y = some v) : Before (l.filterMap f) u v := by
  have hSub := List.Sublist.filterMap f h
  simpa [Before, hx, hy] using hSub

theorem Before.rel {r : α → α → Prop} (h : Before l x y) (hAll : l.Pairwise r) :
    r x y :=
  List.pairwise_iff_forall_sublist.mp hAll h

theorem filterMap_concat_some {f : α → Option β} {b : β} (h : f x = some b) :
    (l ++ [x]).filterMap f = l.filterMap f ++ [b] := by
  rw [List.filterMap_append, List.filterMap_cons_some h, List.filterMap_nil]

theorem filterMap_concat_none {f : α → Option β} (h : f x = none) :
    (l ++ [x]).filterMap f = l.filterMap f := by
  rw [List.filterMap_append, List.filterMap_cons_none h, List.filterMap_nil, List.append_nil]

/-- Where a selection has no duplicates, each of its values was recorded once. -/
theorem index_unique {f : α → Option β} {b : β} (h : (l.filterMap f).Nodup) {i j : Nat}
    (hi : l[i]? = some x) (hj : l[j]? = some y) (hx : f x = some b) (hy : f y = some b) :
    i = j := by
  have hPairs : l.Pairwise fun a a' => ∀ u, f a = some u → ∀ v, f a' = some v → u ≠ v :=
    List.pairwise_filterMap.mp h
  obtain ⟨hiLt, rfl⟩ := List.getElem?_eq_some_iff.mp hi
  obtain ⟨hjLt, rfl⟩ := List.getElem?_eq_some_iff.mp hj
  rw [List.pairwise_iff_getElem] at hPairs
  by_cases hLt : i < j
  · exact absurd rfl (hPairs i j hiLt hjLt hLt b hx b hy)
  by_cases hGt : j < i
  · exact absurd rfl (hPairs j i hjLt hiLt hGt b hy b hx)
  omega

end CppChat.Verified.EventLog
