import Mathlib.Data.Set.Function
import CppChat.Verified.EventLog
import CppChat.Ports.UserStore

/-!
# Runs of registrations

A store of accounts in memory is two maps and a counter, and only `register_user` changes
them.  Over a run of calls the maps stay inverse to each other and the counter one ahead of
the ids that were given out.  The hashing of a password may fail at every call for itself,
and so every call of a run has OpenSSL calls of its own.

## Main results

* `Kept.register`: what a call preserves.
* `registry_runOf`: what a run leaves, call by call, and the bijection of names and ids.
-/

namespace CppChat.Ports.Users

open CppChat.Verified
open CppChat.Verified.EventLog

/-- One call of `register_user`. -/
structure Registration where
  crypto : Crypto
  username : Bytes
  password : Bytes

/-- The calls so far with their answers, and the store. -/
structure Run where
  log : List (Registration × Except Bytes Nat) := []
  store : UserStore := {}

/-- One more call. -/
def Run.register (run : Run) (call : Registration) : Run :=
  let result := run.store.registerUser call.crypto call.username call.password
  { log := run.log ++ [(call, result.1)], store := result.2 }

/-- A run of calls from the empty store. -/
def runOf (calls : List Registration) : Run := calls.foldl Run.register {}

/-- The name under which a call succeeded. -/
def registeredName : Registration × Except Bytes Nat → Option Bytes
  | (call, .ok _) => some call.username
  | (_, .error _) => none

/-- The id that a call returned. -/
def issuedId : Registration × Except Bytes Nat → Option Nat
  | (_, .ok id) => some id
  | (_, .error _) => none

/-- The members of the class. -/
def UserStore.members (store : UserStore) :
    UnorderedMap Bytes UserRecord × UnorderedMap Nat Bytes × Nat :=
  (store.usersByUsername, store.usernamesById, store.nextMemoryId)

/-! ## What a call preserves -/

/-- The store has the accounts of the log. -/
structure Kept (run : Run) : Prop where
  indexed : run.store.Indexed
  found : ∀ n id, (∃ user, run.store.findUserByUsername n = some user ∧ user.id = id) ↔
    ∃ call, (call, .ok id) ∈ run.log ∧ call.username = n
  names : (run.log.filterMap registeredName).Nodup
  ids : run.log.filterMap issuedId = List.range' 1 (run.store.nextMemoryId - 1)
  positive : 1 ≤ run.store.nextMemoryId

theorem Kept.empty : Kept {} where
  indexed := .empty
  found := by simp [UserStore.findUserByUsername]
  names := List.nodup_nil
  ids := rfl
  positive := Nat.le_refl 1

theorem mem_filterMap_registeredName {log : List (Registration × Except Bytes Nat)} {n : Bytes} :
    n ∈ log.filterMap registeredName ↔
      ∃ call id, (call, .ok id) ∈ log ∧ call.username = n := by
  rw [List.mem_filterMap]
  constructor
  · rintro ⟨⟨call, answer⟩, hMem, hName⟩
    cases answer with
    | error reason => contradiction
    | ok id => exact ⟨call, id, hMem, Option.some.inj hName⟩
  · rintro ⟨call, id, hMem, hName⟩
    exact ⟨(call, .ok id), hMem, congrArg some hName⟩

/-- A call that fails. -/
theorem Kept.refused {run : Run} (h : Kept run) (call : Registration) (reason : Bytes)
    (saltCalls : Nat) :
    Kept
      { log := run.log ++ [(call, .error reason)]
        store := { run.store with saltCalls := saltCalls } } where
  indexed := ⟨h.indexed.username_eq, h.indexed.id_iff, h.indexed.id_lt⟩
  found := by
    intro n id
    simp only [List.mem_append, List.mem_singleton, Prod.mk.injEq, reduceCtorEq, and_false,
      or_false]
    exact h.found n id
  names := by
    rw [filterMap_concat_none rfl]
    exact h.names
  ids := by
    rw [filterMap_concat_none rfl]
    exact h.ids
  positive := h.positive

/-- No call before succeeded under a name that is free. -/
theorem Kept.not_mem_of_free {run : Run} (h : Kept run) {n : Bytes}
    (hFree : run.store.findUserByUsername n = none) :
    n ∉ run.log.filterMap registeredName := by
  rw [mem_filterMap_registeredName]
  rintro ⟨earlier, id, hMem, hName⟩
  obtain ⟨user, hUser, -⟩ := (h.found n id).mpr ⟨earlier, hMem, hName⟩
  rw [hFree] at hUser
  contradiction

/-- A call that succeeds. -/
theorem Kept.added {run : Run} (h : Kept run) {call : Registration} {store : UserStore}
    {user : UserRecord} (hFree : run.store.findUserByUsername call.username = none)
    (hIndexed : store.Indexed)
    (hUsers : store.usersByUsername = run.store.usersByUsername.insert call.username user)
    (hId : user.id = run.store.nextMemoryId)
    (hNext : store.nextMemoryId = run.store.nextMemoryId + 1) :
    Kept { log := run.log ++ [(call, .ok run.store.nextMemoryId)], store := store } where
  indexed := hIndexed
  found := by
    intro n id
    dsimp only
    rw [UserStore.findUserByUsername_insert hUsers]
    simp only [List.mem_append, List.mem_singleton, Prod.mk.injEq, Except.ok.injEq]
    by_cases hn : n = call.username
    · rw [if_pos hn]
      constructor
      · rintro ⟨found, hFound, rfl⟩
        rw [← Option.some.inj hFound]
        exact ⟨call, .inr ⟨rfl, hId⟩, hn.symm⟩
      · rintro ⟨earlier, hMem | ⟨rfl, rfl⟩, hName⟩
        · refine absurd (mem_filterMap_registeredName.mpr ⟨earlier, id, hMem, ?_⟩)
            (h.not_mem_of_free hFree)
          rw [hName, hn]
        · exact ⟨user, rfl, hId⟩
    · rw [if_neg hn, h.found]
      constructor
      · rintro ⟨earlier, hMem, hName⟩
        exact ⟨earlier, .inl hMem, hName⟩
      · rintro ⟨earlier, hMem | ⟨rfl, rfl⟩, hName⟩
        · exact ⟨earlier, hMem, hName⟩
        · exact absurd hName.symm hn
  names := by
    have hRegistered : registeredName (call, .ok run.store.nextMemoryId) = some call.username :=
      rfl
    rw [filterMap_concat_some hRegistered, List.nodup_append]
    refine ⟨h.names, List.nodup_singleton _, ?_⟩
    intro n hn n' hn'
    rw [List.mem_singleton.mp hn']
    rintro rfl
    exact h.not_mem_of_free hFree hn
  ids := by
    have hIssued : issuedId (call, .ok run.store.nextMemoryId) = some run.store.nextMemoryId := rfl
    obtain ⟨issued, hCounter⟩ := Nat.exists_eq_add_of_le h.positive
    rw [filterMap_concat_some hIssued, h.ids, hNext, Nat.add_sub_cancel, hCounter,
      Nat.add_sub_cancel_left, Nat.add_comm 1 issued, List.range'_concat, Nat.one_mul,
      Nat.add_comm 1 issued]
  positive := by
    rw [hNext]
    exact Nat.le_add_left 1 _

/-- One more call. -/
theorem Kept.register {run : Run} (h : Kept run) (call : Registration) :
    Kept (run.register call) := by
  rcases UserStore.registerUser_cases call.crypto run.store call.username call.password with
    ⟨reason, saltCalls, hEq⟩ | ⟨hash, hFree, hEq⟩
  · simp only [Run.register, hEq]
    exact h.refused call reason saltCalls
  · have hIndexed := @UserStore.Indexed.registerUser call.crypto _ h.indexed call.username
      call.password
    rw [hEq] at hIndexed
    simp only [Run.register, hEq]
    exact h.added hFree hIndexed rfl rfl rfl

theorem kept_foldl (calls : List Registration) {run : Run} (h : Kept run) :
    Kept (calls.foldl Run.register run) := by
  induction calls generalizing run with
  | nil => exact h
  | cons call rest ih => exact ih (h.register call)

theorem kept_runOf (calls : List Registration) : Kept (runOf calls) := kept_foldl calls .empty

/-! ## What a run leaves -/

/-- The id of the account of a name. -/
def UserStore.idOf (store : UserStore) (n : Bytes) : Nat :=
  ((store.findUserByUsername n).map (·.id)).getD 0

/-- Names and ids of accounts correspond. -/
theorem UserStore.Indexed.bijOn_idOf {store : UserStore} (h : store.Indexed) :
    Set.BijOn store.idOf {n | (store.findUserByUsername n).isSome = true}
      {id | (store.findUserById id).isSome = true} := by
  have hIdOf : ∀ {n user}, store.findUserByUsername n = some user → store.idOf n = user.id := by
    intro n user hUser
    rw [UserStore.idOf, hUser, Option.map_some, Option.getD_some]
  refine ⟨?maps, ?injective, ?onto⟩
  case maps =>
    intro n hn
    obtain ⟨user, hUser⟩ := Option.isSome_iff_exists.mp hn
    rw [hIdOf hUser]
    exact Option.isSome_iff_exists.mpr ⟨user, h.findUserById_iff.mpr ⟨n, hUser, rfl⟩⟩
  case injective =>
    intro n hn n' hn' hSame
    obtain ⟨user, hUser⟩ := Option.isSome_iff_exists.mp hn
    obtain ⟨user', hUser'⟩ := Option.isSome_iff_exists.mp hn'
    rw [hIdOf hUser, hIdOf hUser'] at hSame
    rw [← h.username_eq n user hUser, ← h.username_eq n' user' hUser',
      h.id_unique hUser hUser' hSame]
  case onto =>
    intro id hId
    obtain ⟨user, hUser⟩ := Option.isSome_iff_exists.mp hId
    obtain ⟨n, hName, rfl⟩ := h.findUserById_iff.mp hUser
    exact ⟨n, Option.isSome_iff_exists.mpr ⟨user, hName⟩, hIdOf hName⟩

/-- The accounts of a run: each is that of the one call that succeeded under its name. -/
structure Registry (calls : List Registration) (run : Run) : Prop where
  logged : run.log.map Prod.fst = calls
  found : ∀ n, (run.store.findUserByUsername n).isSome = true ↔
    ∃ (i : Nat) (call : Registration) (id : Nat),
      run.log[i]? = some (call, .ok id) ∧ call.username = n
  once : ∀ (i j : Nat) (call call' : Registration) (id id' : Nat),
    run.log[i]? = some (call, .ok id) → run.log[j]? = some (call', .ok id') →
    call.username = call'.username → i = j
  carries : ∀ (i : Nat) (call : Registration) (id : Nat), run.log[i]? = some (call, .ok id) →
    ∃ user, run.store.findUserByUsername call.username = some user ∧
      user.username = call.username ∧ user.id = id
  byId : ∀ id user, run.store.findUserById id = some user ↔
    run.store.findUserByUsername user.username = some user ∧ user.id = id
  ids : run.log.filterMap issuedId = List.range' 1 (run.log.filterMap issuedId).length
  failed : ∀ (call : Registration) (reason : Bytes),
    (run.register call).log = run.log ++ [(call, .error reason)] →
    (run.register call).store.members = run.store.members
  bijective : Set.BijOn run.store.idOf {n | (run.store.findUserByUsername n).isSome = true}
    {id | (run.store.findUserById id).isSome = true}

theorem map_fst_foldl_register (calls : List Registration) (run : Run) :
    (calls.foldl Run.register run).log.map Prod.fst = run.log.map Prod.fst ++ calls := by
  induction calls generalizing run with
  | nil => rw [List.foldl_nil, List.append_nil]
  | cons call rest ih =>
      rw [List.foldl_cons, ih, Run.register, List.map_append, List.append_assoc]
      rfl

/-- A call that fails leaves the maps and the counter. -/
theorem members_register {run : Run} {call : Registration} {reason : Bytes}
    (h : (run.register call).log = run.log ++ [(call, .error reason)]) :
    (run.register call).store.members = run.store.members := by
  rcases UserStore.registerUser_cases call.crypto run.store call.username call.password with
    ⟨reason', calls, hEq⟩ | ⟨hash, -, hEq⟩
  · simp only [Run.register, hEq, UserStore.members]
  · simp only [Run.register, hEq, List.append_cancel_left_eq, List.cons.injEq, Prod.mk.injEq,
      reduceCtorEq, and_false, false_and] at h

/-- Every run of calls keeps the registry. -/
theorem registry_runOf (calls : List Registration) : Registry calls (runOf calls) := by
  have hKept := kept_runOf calls
  constructor
  case logged => exact map_fst_foldl_register calls {}
  case found =>
    intro n
    rw [Option.isSome_iff_exists]
    constructor
    · rintro ⟨user, hUser⟩
      obtain ⟨call, hMem, hName⟩ := (hKept.found n user.id).mp ⟨user, hUser, rfl⟩
      obtain ⟨i, hAt⟩ := List.mem_iff_getElem?.mp hMem
      exact ⟨i, call, user.id, hAt, hName⟩
    · rintro ⟨i, call, id, hAt, hName⟩
      obtain ⟨user, hUser, -⟩ :=
        (hKept.found n id).mpr ⟨call, List.mem_of_getElem? hAt, hName⟩
      exact ⟨user, hUser⟩
  case once =>
    intro i j call call' id id' hi hj hSame
    exact index_unique hKept.names hi hj rfl (congrArg some hSame.symm)
  case carries =>
    intro i call id hAt
    obtain ⟨user, hUser, hId⟩ :=
      (hKept.found call.username id).mpr ⟨call, List.mem_of_getElem? hAt, rfl⟩
    exact ⟨user, hUser, hKept.indexed.username_eq _ user hUser, hId⟩
  case byId =>
    intro id user
    rw [hKept.indexed.findUserById_iff]
    constructor
    · rintro ⟨n, hUser, hId⟩
      rw [hKept.indexed.username_eq n user hUser]
      exact ⟨hUser, hId⟩
    · rintro ⟨hUser, hId⟩
      exact ⟨_, hUser, hId⟩
  case ids =>
    rw [hKept.ids, List.length_range']
  case failed =>
    intro call reason
    exact members_register
  case bijective => exact hKept.indexed.bijOn_idOf

end CppChat.Ports.Users
