/-!
# Updating a table in place

`UPDATE … SET … WHERE …` assigns to every row that meets a condition and leaves the other
rows, their number and their order alone.

## Main results

* `getElem?_updateWhere_of_not`: a row that does not meet the condition stays where it is.
* `forall_mem_updateWhere`: what holds of the rows after an update.
* `updateWhere_twice`: an update whose assignment settles a row has nothing to do the second
  time.
-/

namespace CppChat.Verified.TableUpdate

variable {ρ β : Type}

/-- Assign to the rows that meet the condition. -/
def updateWhere (condition : ρ → Bool) (assign : ρ → ρ) (rows : List ρ) : List ρ :=
  rows.map fun row => if condition row then assign row else row

variable {condition : ρ → Bool} {assign : ρ → ρ} {rows : List ρ}

theorem getElem?_updateWhere_of_not {i : Nat} {row : ρ} (hRow : rows[i]? = some row)
    (h : condition row = false) : (updateWhere condition assign rows)[i]? = some row := by
  have hCondition : ¬condition row = true := by simp [h]
  rw [updateWhere, List.getElem?_map, hRow, Option.map_some, if_neg hCondition]

theorem forall_mem_updateWhere {p : ρ → Prop}
    (hAssign : ∀ row ∈ rows, condition row = true → p (assign row))
    (hKeep : ∀ row ∈ rows, condition row = false → p row) :
    ∀ row ∈ updateWhere condition assign rows, p row := by
  intro row hMem
  obtain ⟨old, hOld, rfl⟩ := List.mem_map.mp hMem
  cases hCondition : condition old with
  | true => simpa [hCondition] using hAssign old hOld hCondition
  | false => simpa [hCondition] using hKeep old hOld hCondition

/-- A field the assignment does not touch stays in all rows. -/
theorem map_updateWhere {f : ρ → β} (h : ∀ row, f (assign row) = f row) :
    (updateWhere condition assign rows).map f = rows.map f := by
  rw [updateWhere, List.map_map]
  apply List.map_congr_left
  intro row _
  rw [Function.comp_apply]
  split
  · exact h row
  · rfl

theorem updateWhere_of_settled
    (h : ∀ row ∈ rows, condition row = true → assign row = row) :
    updateWhere condition assign rows = rows := by
  have hSame : ∀ row ∈ rows, (if condition row then assign row else row) = row := by
    intro row hMem
    split
    · rename_i hCondition
      exact h row hMem hCondition
    · rfl
  exact (List.map_congr_left hSame).trans (List.map_id rows)

theorem updateWhere_twice (h : ∀ row, assign (assign row) = assign row) :
    updateWhere condition assign (updateWhere condition assign rows) =
      updateWhere condition assign rows := by
  apply updateWhere_of_settled
  apply forall_mem_updateWhere
  · intro row _ _ _
    exact h row
  · intro row _ hNot hCondition
    rw [hNot] at hCondition
    contradiction

end CppChat.Verified.TableUpdate
