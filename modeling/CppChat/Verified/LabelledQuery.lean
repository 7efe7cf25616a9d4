import Mathlib.Data.List.Sort

/-!
# Queries over labelled items

The result of a query is a list of values, and where a value comes from cannot be told from
the value: two items may look the same, and what is reported of an item may be wrong.  An item
that carries a label is known by it.  A query over labelled items looks at the items only, so
it selects what the plain query selects, and the labels say which items these are.

## Main results

* `map_snd_query`, `map_snd_firstOf`: without the labels the plain query is left.
* `mem_firstOf_iff`: an item is among the first ones exactly when few enough accepted items
  come before it.
-/

namespace CppChat.Verified.LabelledQuery

variable {α β : Type}

/-- A `SELECT` with its filter, order and limit. -/
def query (accepts : α → Bool) (order : α → α → Bool) (limit : Nat) (items : List α) : List α :=
  ((items.filter accepts).insertionSort fun a b => order a b).take limit

/-- The first items of a list that are accepted. -/
def firstOf (accepts : α → Bool) (limit : Nat) (items : List α) : List α :=
  (items.filter accepts).take limit

theorem map_snd_query (accepts : α → Bool) (order : α → α → Bool) (limit : Nat)
    (items : List (β × α)) :
    (query (fun item => accepts item.2) (fun a b => order a.2 b.2) limit items).map Prod.snd =
      query accepts order limit (items.map Prod.snd) := by
  have hSort := List.map_insertionSort (r := fun a b : β × α => order a.2 b.2 = true)
    (s := fun a b : α => order a b = true) Prod.snd (items.filter fun item => accepts item.2)
    fun _ _ _ _ => Iff.rfl
  rw [query, query, List.map_take, hSort, List.filter_map]
  rfl

theorem map_snd_firstOf (accepts : α → Bool) (limit : Nat) (items : List (β × α)) :
    (firstOf (fun item => accepts item.2) limit items).map Prod.snd =
      firstOf accepts limit (items.map Prod.snd) := by
  rw [firstOf, firstOf, List.map_take, List.filter_map]
  rfl

/-- Items with what is made of them. -/
theorem zip_map_self (f : α → β) (items : List α) :
    items.zip (items.map f) = items.map fun item => (item, f item) := by
  simpa using List.zip_map' (l := items) (f := id) (g := f)

variable {before : α → α → Bool} {accepts : α → Bool} {limit : Nat} {item : α}

/-- The accepted items that come before an item are those in front of it. -/
theorem countP_before (hAsymm : ∀ a b, before a b = true → before b a = false)
    {front back : List α}
    (hSorted : (front ++ item :: back).Pairwise fun a b => before a b = true) :
    ((front ++ item :: back).countP fun other => accepts other && before other item) =
      (front.filter accepts).length := by
  obtain ⟨-, hBack, hFront⟩ := List.pairwise_append.mp hSorted
  have hNone : ((item :: back).countP fun other => accepts other && before other item) = 0 := by
    rw [List.countP_eq_zero]
    intro other hMem
    have hNot : before other item = false := by
      rcases List.mem_cons.mp hMem with rfl | hIn
      · cases hSelf : before other other with
        | false => rfl
        | true => rw [← hSelf, hAsymm other other hSelf]
      · exact hAsymm item other (List.rel_of_pairwise_cons hBack hIn)
    simp [hNot]
  rw [List.countP_append, hNone, Nat.add_zero, ← List.countP_eq_length_filter]
  apply List.countP_congr
  intro other hMem
  simp [hFront other hMem item List.mem_cons_self]

/-- In a strict order, an item is among the first ones that are accepted exactly when it is
accepted itself and fewer than the limit come before it. -/
theorem mem_firstOf_iff (hAsymm : ∀ a b, before a b = true → before b a = false)
    {items : List α} (hSorted : items.Pairwise fun a b => before a b = true) :
    item ∈ firstOf accepts limit items ↔ item ∈ items ∧ accepts item = true ∧
      (items.countP fun other => accepts other && before other item) < limit := by
  constructor
  · intro hMem
    obtain ⟨hIn, hAccepts⟩ := List.mem_filter.mp (List.mem_of_mem_take hMem)
    refine ⟨hIn, hAccepts, ?_⟩
    obtain ⟨front, back, rfl⟩ := List.append_of_mem hIn
    rw [countP_before hAsymm hSorted]
    by_contra hMany
    -- the limit is reached in front of the item
    rw [firstOf, List.filter_append, List.take_append_of_le_length (Nat.le_of_not_lt hMany)]
      at hMem
    have hFront := (List.mem_filter.mp (List.mem_of_mem_take hMem)).1
    have hSelf := (List.pairwise_append.mp hSorted).2.2 item hFront item List.mem_cons_self
    rw [hAsymm item item hSelf] at hSelf
    contradiction
  · rintro ⟨hIn, hAccepts, hFew⟩
    obtain ⟨front, back, rfl⟩ := List.append_of_mem hIn
    rw [countP_before hAsymm hSorted] at hFew
    have hAt : ((front ++ item :: back).filter accepts)[(front.filter accepts).length]? =
        some item := by
      rw [List.filter_append, List.filter_cons_of_pos hAccepts]
      simp
    refine List.mem_of_getElem? (i := (front.filter accepts).length) ?_
    rw [firstOf, List.getElem?_take_of_lt hFew]
    exact hAt

end CppChat.Verified.LabelledQuery
