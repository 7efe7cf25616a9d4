import CppChat.Verified.AtomicProgram
import CppChat.Verified.Custody
import Mathlib.Logic.Hydra

/-!
# Work that comes to an end

A pool of workers has a collection of work items.  A step takes one item and may put smaller
ones in its place: a program that has made a call goes on with what is left of it, a batch is
taken apart.  How many steps a program still has cannot be said in advance, it depends on
what its calls return; still no program goes on for ever, and with `Relation.CutExpand` the
same follows for the collection.

## Main results

* `Prog.wellFounded_after`: a program has no infinite sequence of calls.
* `workIn_of_lookup`, `workIn_insert`: the work of one party and that of the others.
* `cutExpand_middle`, `cutExpand_insert`, `cutExpand_erase`: what a step of a party does to the
  work of all.
-/

namespace CppChat.Verified

namespace AtomicProgram.Prog

variable {Op : Type} {Res : Op → Type} {α : Type}

/-- What is left of a program after its next call. -/
inductive After : Prog Op Res α → Prog Op Res α → Prop
  | next (op : Op) (next : Res op → Prog Op Res α) (r : Res op) : After (next r) (.call op next)

theorem wellFounded_after : WellFounded (After : Prog Op Res α → Prog Op Res α → Prop) := by
  constructor
  intro p
  induction p with
  | done value => exact ⟨_, fun _ h => by cases h⟩
  | call op next ih =>
      refine ⟨_, fun q h => ?_⟩
      cases h with
      | next _ _ r => exact ih r

end AtomicProgram.Prog

namespace WorkPool

open Custody

variable {ι K H : Type} {smaller : ι → ι → Prop}

/-- One item of a list is replaced by smaller ones. -/
theorem cutExpand_middle (kept new rest : List ι) {a : ι} (hNew : ∀ b ∈ new, smaller b a) :
    Relation.CutExpand smaller ((kept ++ (new ++ rest) : List ι) : Multiset ι)
      ((kept ++ a :: rest : List ι) : Multiset ι) := by
  have hOne : Relation.CutExpand smaller (new : Multiset ι) {a} :=
    Relation.cutExpand_singleton hNew
  have hRest : Relation.CutExpand smaller ((new ++ rest : List ι) : Multiset ι)
      ((a :: rest : List ι) : Multiset ι) :=
    (Relation.cutExpand_add_right (rest : Multiset ι)).mpr hOne
  exact (Relation.cutExpand_add_left (kept : Multiset ι)).mpr hRest

variable [DecidableEq K]

private theorem flatMap_kerase_perm (items : H → List ι) (k : K) :
    ∀ entries : List (Sigma fun _ : K => H),
      (entries.flatMap fun entry => items entry.2).Perm
        (((entries.dlookup k).map items).getD [] ++
          (entries.kerase k).flatMap fun entry => items entry.2) := by
  intro entries
  induction entries with
  | nil => simp
  | cons entry rest ih =>
      obtain ⟨k', h'⟩ := entry
      by_cases hKey : k = k'
      · subst hKey
        simp
      · rw [List.dlookup_cons_ne _ _ hKey, List.kerase_cons_ne hKey, List.flatMap_cons,
          List.flatMap_cons]
        exact (ih.append_left _).trans (List.perm_append_comm_assoc _ _ _)

/-- All items of all parties. -/
def workIn (items : H → List ι) (holders : UnorderedMap K H) : Multiset ι :=
  (held items holders : List ι)

variable {items : H → List ι} {holders : UnorderedMap K H} {k : K} {h h' : H}

/-- The items of one party, and those of the others. -/
theorem workIn_of_lookup (hLookup : holders.lookup k = some h) :
    workIn items holders = (items h : Multiset ι) + workIn items (holders.erase k) := by
  have hSplit := flatMap_kerase_perm items k holders.entries
  have hEntry : holders.entries.dlookup k = some h := hLookup
  rw [hEntry] at hSplit
  exact Multiset.coe_eq_coe.mpr hSplit

theorem workIn_of_lookup_none (hLookup : holders.lookup k = none) :
    workIn items holders = workIn items (holders.erase k) := by
  have hSplit := flatMap_kerase_perm items k holders.entries
  have hEntry : holders.entries.dlookup k = none := hLookup
  rw [hEntry] at hSplit
  exact Multiset.coe_eq_coe.mpr hSplit

theorem workIn_insert (items : H → List ι) (holders : UnorderedMap K H) (k : K) (h : H) :
    workIn items (holders.insert k h) =
      (items h : Multiset ι) + workIn items (holders.erase k) := by
  have hInsert : held items (holders.insert k h) = items h ++ held items (holders.erase k) := by
    rw [held, AList.entries_insert, List.flatMap_cons]
    rfl
  rw [workIn, hInsert, ← Multiset.coe_add]
  rfl

/-- A party takes a step of its work. -/
theorem cutExpand_insert (hLookup : holders.lookup k = some h)
    (hLess : Relation.CutExpand smaller (items h' : Multiset ι) (items h : Multiset ι)) :
    Relation.CutExpand smaller (workIn items (holders.insert k h')) (workIn items holders) := by
  rw [workIn_insert, workIn_of_lookup hLookup]
  exact (Relation.cutExpand_add_right _).mpr hLess

/-- A party with one item left is done. -/
theorem cutExpand_erase {a : ι} (hLookup : holders.lookup k = some h) (hLast : items h = [a]) :
    Relation.CutExpand smaller (workIn items (holders.erase k)) (workIn items holders) := by
  have hZero : workIn items (holders.erase k) = 0 + workIn items (holders.erase k) :=
    (Multiset.zero_add _).symm
  rw [workIn_of_lookup hLookup, hLast, hZero]
  exact (Relation.cutExpand_add_right _).mpr Relation.cutExpand_zero

end WorkPool

end CppChat.Verified
