import CppChat.Verified.UnorderedMap
import Mathlib.Data.List.Flatten
import Mathlib.Data.List.Count

/-!
# Tokens in custody

Tokens lie in a store or are held by parties: a map names the parties, and each party
holds a list of tokens.  `Conserved` says that nothing is lost and nothing is made up:
a token is in store and in the parties' hands as often, together, as it was issued, and
every token was issued once.

## Main results

* `count_held_insert`, `count_held_erase`: what an update of the map does to the tokens
  in hand.
* `Conserved.exchange`: a party trades with the store.
* `Conserved.at_unique`: a token is in one place only.
* `Conserved.exists_at`: every token issued is somewhere.
-/

namespace CppChat.Verified.Custody

variable {K H T : Type}

/-- The tokens in all hands. -/
def held (tokens : H → List T) (holders : UnorderedMap K H) : List T :=
  holders.entries.flatMap fun entry => tokens entry.2

section Hands

variable [DecidableEq K]

/-- The tokens in the hands of one party. -/
def tokensAt (tokens : H → List T) (holders : UnorderedMap K H) (k : K) : List T :=
  ((holders.lookup k).map tokens).getD []

variable {tokens : H → List T} {holders : UnorderedMap K H} {k k' : K} {h : H} {t : T}

theorem tokensAt_of_lookup (hLookup : holders.lookup k = some h) :
    tokensAt tokens holders k = tokens h := by
  simp [tokensAt, hLookup]

theorem tokensAt_of_lookup_none (hLookup : holders.lookup k = none) :
    tokensAt tokens holders k = [] := by
  simp [tokensAt, hLookup]

theorem tokensAt_insert :
    tokensAt tokens (holders.insert k h) k' =
      if k' = k then tokens h else tokensAt tokens holders k' := by
  unfold tokensAt
  rw [UnorderedMap.lookup_insert]
  split <;> rfl

/-- Where nobody holds anything, this party does not. -/
theorem tokensAt_eq_nil (hHeld : held tokens holders = []) (k : K) :
    tokensAt tokens holders k = [] := by
  cases hLookup : holders.lookup k with
  | none => exact tokensAt_of_lookup_none hLookup
  | some h =>
      rw [tokensAt_of_lookup hLookup]
      exact List.flatMap_eq_nil_iff.mp hHeld ⟨k, h⟩ (AList.mem_lookup_iff.mp hLookup)

/-- A token in hand is in somebody's hands. -/
theorem exists_tokensAt (hMem : t ∈ held tokens holders) : ∃ k, t ∈ tokensAt tokens holders k := by
  obtain ⟨⟨k, h⟩, hEntry, hToken⟩ := List.mem_flatMap.mp hMem
  refine ⟨k, ?_⟩
  rw [tokensAt_of_lookup (AList.mem_lookup_iff.mpr hEntry)]
  exact hToken

variable [DecidableEq T]

/-- What a list of entries holds, split at one key. -/
private theorem count_flatMap_kerase (t : T) (k : K) :
    ∀ entries : List (Sigma fun _ : K => H),
      (entries.flatMap fun entry => tokens entry.2).count t =
        (((entries.dlookup k).map tokens).getD []).count t +
          ((entries.kerase k).flatMap fun entry => tokens entry.2).count t := by
  intro entries
  induction entries with
  | nil => simp
  | cons entry rest ih =>
      obtain ⟨k', h'⟩ := entry
      by_cases hKey : k = k'
      · subst hKey
        simp
      · rw [List.dlookup_cons_ne _ _ hKey, List.kerase_cons_ne hKey]
        simp only [List.flatMap_cons, List.count_append, ih]
        omega

variable (tokens holders) (t : T) (k : K)

theorem count_held :
    (held tokens holders).count t =
      (tokensAt tokens holders k).count t + (held tokens (holders.erase k)).count t :=
  count_flatMap_kerase t k holders.entries

theorem count_held_insert (h : H) :
    (held tokens (holders.insert k h)).count t + (tokensAt tokens holders k).count t =
      (held tokens holders).count t + (tokens h).count t := by
  have hSplit := count_held tokens holders t k
  have hInsert : held tokens (holders.insert k h) =
      tokens h ++ held tokens (holders.erase k) := by
    rw [held, AList.entries_insert, List.flatMap_cons]
    rfl
  rw [hInsert, List.count_append]
  omega

theorem count_held_erase :
    (held tokens (holders.erase k)).count t + (tokensAt tokens holders k).count t =
      (held tokens holders).count t := by
  have hSplit := count_held tokens holders t k
  omega

theorem count_tokensAt_le :
    (tokensAt tokens holders k).count t ≤ (held tokens holders).count t := by
  have hSplit := count_held tokens holders t k
  omega

/-- Two parties together hold no more than all of them. -/
theorem count_tokensAt_add_le (hKeys : k ≠ k') :
    (tokensAt tokens holders k).count t + (tokensAt tokens holders k').count t ≤
      (held tokens holders).count t := by
  have hSplit := count_held tokens holders t k
  have hRest := count_tokensAt_le tokens (holders.erase k) t k'
  have hSame : tokensAt tokens (holders.erase k) k' = tokensAt tokens holders k' := by
    unfold tokensAt
    rw [UnorderedMap.lookup_erase, if_neg (Ne.symm hKeys)]
  rw [hSame] at hRest
  omega

end Hands

/-! ## Conservation -/

/-- The tokens issued are those in store and those in hand, each of them once. -/
structure Conserved [DecidableEq T] (tokens : H → List T) (issued store : List T)
    (holders : UnorderedMap K H) : Prop where
  nodup : issued.Nodup
  count : ∀ t, store.count t + (held tokens holders).count t = issued.count t

namespace Conserved

variable [DecidableEq T] {tokens : H → List T} {holders : UnorderedMap K H} {k k' : K} {h : H}
  {t : T} {issued store store' : List T}

/-- Tokens are issued into the store, when nobody holds any. -/
theorem issue (hNodup : issued.Nodup) (hHeld : held tokens holders = []) :
    Conserved tokens issued issued holders := by
  refine ⟨hNodup, fun t => ?_⟩
  simp [hHeld]

section Rules

variable (hC : Conserved tokens issued store holders)

include hC

theorem count_le_one (t : T) : store.count t + (held tokens holders).count t ≤ 1 := by
  rw [hC.count t]
  exact List.nodup_iff_count_le_one.mp hC.nodup t

theorem mem_issued_of_store (hMem : t ∈ store) : t ∈ issued := by
  have hCount := hC.count t
  have hPos := List.count_pos_iff.mpr hMem
  exact List.count_pos_iff.mp (by omega)

/-- Where nothing was issued, nothing is in store and nobody holds anything. -/
theorem nil_of_issued_nil (hIssued : issued = []) :
    store = [] ∧ held tokens holders = [] := by
  have hZero : ∀ t, store.count t = 0 ∧ (held tokens holders).count t = 0 := by
    intro t
    have hCount := hC.count t
    rw [hIssued, List.count_nil] at hCount
    omega
  constructor
  · exact List.eq_nil_iff_forall_not_mem.mpr fun t => List.count_eq_zero.mp (hZero t).1
  · exact List.eq_nil_iff_forall_not_mem.mpr fun t => List.count_eq_zero.mp (hZero t).2

theorem store_nodup : store.Nodup := by
  rw [List.nodup_iff_count_le_one]
  intro t
  have hOne := hC.count_le_one t
  omega

variable [DecidableEq K]

/-- A party gives tokens to the store and takes tokens from it. -/
theorem exchange (hTrade : ∀ t, store'.count t + (tokens h).count t =
      store.count t + (tokensAt tokens holders k).count t) :
    Conserved tokens issued store' (holders.insert k h) := by
  refine ⟨hC.nodup, fun t => ?_⟩
  have hBefore := hC.count t
  have hInsert := count_held_insert tokens holders t k h
  have hHere := hTrade t
  omega

/-- A party leaves its tokens in the store and is gone. -/
theorem leave (hTrade : ∀ t, store'.count t =
      store.count t + (tokensAt tokens holders k).count t) :
    Conserved tokens issued store' (holders.erase k) := by
  refine ⟨hC.nodup, fun t => ?_⟩
  have hBefore := hC.count t
  have hErase := count_held_erase tokens holders t k
  have hHere := hTrade t
  omega

/-- A party hands its tokens to another one, which has none. -/
theorem handOver {h' : H} (hKeys : k ≠ k') (hNone : tokensAt tokens holders k' = [])
    (hTaken : tokens h' = tokensAt tokens holders k) (hGiven : tokens h = []) :
    Conserved tokens issued store ((holders.insert k' h').insert k h) := by
  refine ⟨hC.nodup, fun t => ?_⟩
  have hBefore := hC.count t
  have hTake := count_held_insert tokens holders t k' h'
  have hGive := count_held_insert tokens (holders.insert k' h') t k h
  rw [tokensAt_insert, if_neg hKeys] at hGive
  rw [hNone, hTaken] at hTake
  rw [hGiven] at hGive
  simp only [List.count_nil] at hTake hGive
  omega

theorem mem_issued_of_tokensAt (hMem : t ∈ tokensAt tokens holders k) : t ∈ issued := by
  have hCount := hC.count t
  have hPos := List.count_pos_iff.mpr hMem
  have hHeld := count_tokensAt_le tokens holders t k
  exact List.count_pos_iff.mp (by omega)

theorem tokensAt_nodup (k : K) : (tokensAt tokens holders k).Nodup := by
  rw [List.nodup_iff_count_le_one]
  intro t
  have hOne := hC.count_le_one t
  have hHeld := count_tokensAt_le tokens holders t k
  omega

/-- What a party holds is not in the store. -/
theorem not_mem_store (hMem : t ∈ tokensAt tokens holders k) : t ∉ store := by
  intro hStore
  have hOne := hC.count_le_one t
  have hHeld := count_tokensAt_le tokens holders t k
  have hPos := List.count_pos_iff.mpr hMem
  have hStorePos := List.count_pos_iff.mpr hStore
  omega

/-- Two parties never hold the same token. -/
theorem eq_of_mem (hMem : t ∈ tokensAt tokens holders k)
    (hMem' : t ∈ tokensAt tokens holders k') : k = k' := by
  by_contra hKeys
  have hOne := hC.count_le_one t
  have hBoth := count_tokensAt_add_le tokens holders t k hKeys
  have hPos := List.count_pos_iff.mpr hMem
  have hPos' := List.count_pos_iff.mpr hMem'
  omega

/-- Every token issued is in the store or in somebody's hands. -/
theorem exists_at (hMem : t ∈ issued) :
    t ∈ store ∨ ∃ k, t ∈ tokensAt tokens holders k := by
  have hCount := hC.count t
  have hPos := List.count_pos_iff.mpr hMem
  by_cases hStore : t ∈ store
  · exact .inl hStore
  · rw [List.count_eq_zero.mpr hStore] at hCount
    exact .inr (exists_tokensAt (List.count_pos_iff.mp (by omega)))

end Rules

end Conserved

end CppChat.Verified.Custody
