import Mathlib.Data.List.AList
import Mathlib.Data.List.Nodup
import Mathlib.Data.List.Sort

/-!
# Finite maps and sets

`std::unordered_map` is Mathlib's `AList` at a constant value type: a finite
map with `lookup`, `insert` (the assignment `m[k] = v`) and `erase`.  Mathlib
states what an update does at its own key and at every other key; proofs about
several maps updated together want both in one equation, so that a lookup
after a chain of updates reduces to a case split on key equality.

`std::unordered_set` is a list without duplicates; the property travels with
the list, so that no later proof has to establish it again.

The order in which either is gone through says nothing, so what is read from one is
sorted before it is handed out.  `AscendingListOf` is what comes of that.
-/

namespace CppChat.Verified

/-- The list has the elements with the property, in strictly ascending order. -/
structure AscendingListOf {K : Type} [LinearOrder K] (p : K → Prop) (l : List K) : Prop where
  ascending : l.Pairwise (· < ·)
  mem_iff : ∀ k, k ∈ l ↔ p k

namespace AscendingListOf

variable {K : Type} [LinearOrder K] {p q : K → Prop} {l l' : List K}

/-- There is one such list. -/
theorem unique (h : AscendingListOf p l) (h' : AscendingListOf p l') : l = l' := by
  apply h.ascending.sortedLT.eq_of_mem_iff h'.ascending.sortedLT
  intro k
  rw [h.mem_iff, h'.mem_iff]

theorem congr (h : AscendingListOf p l) (hSame : ∀ k, p k ↔ q k) : AscendingListOf q l :=
  ⟨h.ascending, fun k => (h.mem_iff k).trans (hSame k)⟩

theorem nil (h : ∀ k, ¬p k) : AscendingListOf p [] :=
  ⟨.nil, fun k => iff_of_false List.not_mem_nil (h k)⟩

/-- `std::sort` of a list without duplicates. -/
theorem insertionSort (hNodup : l.Nodup) : AscendingListOf (· ∈ l) (l.insertionSort (· ≤ ·)) where
  ascending := by
    have hSorted : (l.insertionSort (· ≤ ·)).Nodup :=
      (List.perm_insertionSort _ l).nodup_iff.mpr hNodup
    exact (List.sortedLE_insertionSort.sortedLT_of_nodup hSorted).pairwise
  mem_iff := fun _ => List.mem_insertionSort _

end AscendingListOf

/-- `std::unordered_map<K, V>`. -/
abbrev UnorderedMap (K V : Type) := AList fun _ : K => V

namespace UnorderedMap

variable {K V : Type}

/-- The keys whose values pass a test. -/
def keysWith (m : UnorderedMap K V) (test : V → Bool) : List K :=
  m.entries.filterMap fun entry => if test entry.2 then some entry.1 else none

theorem nodup_keysWith (m : UnorderedMap K V) (test : V → Bool) : (m.keysWith test).Nodup := by
  have hKeys : m.keysWith test = (m.entries.filter fun entry => test entry.2).keys := by
    unfold keysWith List.keys
    rw [← List.filterMap_eq_map, List.filterMap_filter]
    rfl
  rw [hKeys]
  exact m.nodupKeys.sublist List.filter_sublist

variable [DecidableEq K]

/-- Looking up after an insert. -/
theorem lookup_insert (m : UnorderedMap K V) (k k' : K) (v : V) :
    (m.insert k v).lookup k' = if k' = k then some v else m.lookup k' := by
  by_cases h : k' = k
  · subst h
    simp
  · rw [if_neg h, AList.lookup_insert_ne h]

/-- Looking up after an erase. -/
theorem lookup_erase (m : UnorderedMap K V) (k k' : K) :
    (m.erase k).lookup k' = if k' = k then none else m.lookup k' := by
  by_cases h : k' = k
  · subst h
    simp
  · rw [if_neg h, AList.lookup_erase_ne h]

theorem mem_keysWith {m : UnorderedMap K V} {test : V → Bool} {k : K} :
    k ∈ m.keysWith test ↔ ∃ v, m.lookup k = some v ∧ test v = true := by
  rw [keysWith, List.mem_filterMap]
  constructor
  · rintro ⟨⟨k', v⟩, hEntry, hKey⟩
    obtain ⟨hTest, hSame⟩ := Option.ite_none_right_eq_some.mp hKey
    cases Option.some.inj hSame
    exact ⟨v, AList.mem_lookup_iff.mpr hEntry, hTest⟩
  · rintro ⟨v, hLookup, hTest⟩
    exact ⟨⟨k, v⟩, AList.mem_lookup_iff.mp hLookup, if_pos hTest⟩

end UnorderedMap

/-- `std::unordered_set<K>`. -/
structure UnorderedSet (K : Type) where
  elems : List K
  nodup : elems.Nodup

namespace UnorderedSet

variable {K : Type} [DecidableEq K]

/-- The set without elements. -/
def empty : UnorderedSet K := ⟨[], List.nodup_nil⟩

/-- Membership. -/
def contains (s : UnorderedSet K) (k : K) : Bool := decide (k ∈ s.elems)

/-- Add an element. -/
def insert (s : UnorderedSet K) (k : K) : UnorderedSet K :=
  ⟨s.elems.insert k, s.nodup.insert⟩

/-- Remove an element. -/
def erase (s : UnorderedSet K) (k : K) : UnorderedSet K :=
  ⟨s.elems.erase k, s.nodup.erase k⟩

/-- The set has no elements. -/
def isEmpty (s : UnorderedSet K) : Bool := s.elems.isEmpty

theorem contains_insert (s : UnorderedSet K) (k k' : K) :
    (s.insert k).contains k' ↔ k' = k ∨ s.contains k' := by
  simp [contains, insert]

theorem contains_erase (s : UnorderedSet K) (k k' : K) :
    (s.erase k).contains k' ↔ k' ≠ k ∧ s.contains k' := by
  simp [contains, erase, s.nodup.mem_erase_iff]

end UnorderedSet

end CppChat.Verified
