import CppChat.Ports.UserStore

/-!
# The user store on MySQL

With a connection pool the accounts are rows of the `users` table.  Its
`username` column has a unique key, and both the key and the lookups compare
names under the collation of the table, `utf8mb4_unicode_ci`.  A `Collation` is
any equivalence of names; the table carries the proof that its names are unique
under it.  The row keeps the spelling the account was registered with.

The database enters as arguments: which calls fail.  An `INSERT` adds one row
under the next auto-increment id, or fails without effect.

## Main results

* `UsersTable.selectByUsername_iff`: a lookup finds the one row with an equal name.
* `PooledUserStore.rows_registerUser`: rows stay.
-/

namespace CppChat.Ports.Users

open CppChat.Verified

/-! ## The table -/

/-- When two names are equal to the database. -/
structure Collation where
  same : Bytes → Bytes → Bool
  refl : ∀ a, same a a = true
  symm : ∀ a b, same a b = true → same b a = true
  trans : ∀ a b c, same a b = true → same b c = true → same a c = true

variable {collation : Collation}

/-- The rows and the auto-increment counter.  Names and ids are unique. -/
structure UsersTable (collation : Collation) where
  rows : List UserRecord
  nextId : Nat
  username_unique : ∀ row ∈ rows, ∀ row' ∈ rows,
    collation.same row.username row'.username = true → row = row'
  id_unique : ∀ row ∈ rows, ∀ row' ∈ rows, row.id = row'.id → row = row'
  id_lt : ∀ row ∈ rows, row.id < nextId

namespace UsersTable

/-- A table without rows. -/
def empty : UsersTable collation where
  rows := []
  nextId := 1
  username_unique := by simp
  id_unique := by simp
  id_lt := by simp

/-- `SELECT … WHERE username = ?` -/
def selectByUsername (table : UsersTable collation) (username : Bytes) : Option UserRecord :=
  table.rows.find? fun row => collation.same row.username username

/-- `SELECT … WHERE id = ?` -/
def selectById (table : UsersTable collation) (id : Nat) : Option UserRecord :=
  table.rows.find? fun row => row.id = id

theorem selectByUsername_eq_some (table : UsersTable collation) {username : Bytes}
    {row : UserRecord} (h : table.selectByUsername username = some row) :
    row ∈ table.rows ∧ collation.same row.username username = true := by
  unfold selectByUsername at h
  have hSame := List.find?_some h
  exact ⟨List.mem_of_find?_eq_some h, hSame⟩

theorem selectByUsername_eq_none (table : UsersTable collation) {username : Bytes}
    (h : table.selectByUsername username = none) :
    ∀ row ∈ table.rows, collation.same row.username username ≠ true :=
  List.find?_eq_none.mp h

/-- Names are unique, so a lookup finds the one row whose name is equal. -/
theorem selectByUsername_iff (table : UsersTable collation) {username : Bytes}
    {row : UserRecord} :
    table.selectByUsername username = some row ↔
      row ∈ table.rows ∧ collation.same row.username username = true := by
  refine ⟨table.selectByUsername_eq_some, ?_⟩
  rintro ⟨hRow, hSame⟩
  cases hFind : table.selectByUsername username with
  | none => exact absurd hSame (table.selectByUsername_eq_none hFind row hRow)
  | some found =>
      obtain ⟨hFound, hSame'⟩ := table.selectByUsername_eq_some hFind
      have hEq := collation.trans _ _ _ hSame' (collation.symm _ _ hSame)
      rw [table.username_unique found hFound row hRow hEq]

/-- The row an `INSERT` adds. -/
def newRow (table : UsersTable collation) (username passwordHash : Bytes) : UserRecord :=
  { id := table.nextId, username := username, passwordHash := passwordHash }

/-- A property of two rows holds of any two rows after an `INSERT`, when it holds
of any two before it and between the new row and the others. -/
theorem forall_append {related : UserRecord → UserRecord → Prop} {rows : List UserRecord}
    {row : UserRecord} (hRows : ∀ a ∈ rows, ∀ b ∈ rows, related a b)
    (hSelf : related row row) (hRow : ∀ a ∈ rows, related a row ∧ related row a) :
    ∀ a ∈ rows ++ [row], ∀ b ∈ rows ++ [row], related a b := by
  intro a ha b hb
  rcases List.mem_append.mp ha with ha | ha <;> rcases List.mem_append.mp hb with hb | hb
  · exact hRows a ha b hb
  · rw [List.mem_singleton.mp hb]
    exact (hRow a ha).1
  · rw [List.mem_singleton.mp ha]
    exact (hRow b hb).2
  · rw [List.mem_singleton.mp ha, List.mem_singleton.mp hb]
    exact hSelf

/-- `INSERT INTO users`; `none` is a violation of the unique key. -/
def insert (table : UsersTable collation) (username passwordHash : Bytes) :
    Option (UsersTable collation) :=
  if h : table.selectByUsername username = none then
    some
      { rows := table.rows ++ [table.newRow username passwordHash]
        nextId := table.nextId + 1
        username_unique := by
          apply forall_append table.username_unique
          · exact fun _ => rfl
          · intro row hRow
            have hFree := table.selectByUsername_eq_none h row hRow
            exact ⟨fun hSame => absurd hSame hFree,
              fun hSame => absurd (collation.symm _ _ hSame) hFree⟩
        id_unique := by
          apply forall_append table.id_unique
          · exact fun _ => rfl
          · intro row hRow
            have hNe : row.id ≠ (table.newRow username passwordHash).id :=
              Nat.ne_of_lt (table.id_lt row hRow)
            exact ⟨fun hId => absurd hId hNe, fun hId => absurd hId.symm hNe⟩
        id_lt := by
          intro row hRow
          rcases List.mem_append.mp hRow with hRow | hRow
          · exact Nat.lt_succ_of_lt (table.id_lt row hRow)
          · rw [List.mem_singleton.mp hRow]
            exact Nat.lt_succ_self _ }
  else none

/-- An insert deletes nothing. -/
theorem rows_insert {table table' : UsersTable collation} {username passwordHash : Bytes}
    (h : table.insert username passwordHash = some table') :
    ∀ row ∈ table.rows, row ∈ table'.rows := by
  intro row hRow
  unfold insert at h
  split at h
  · rw [← Option.some.inj h]
    exact List.mem_append_left _ hRow
  · contradiction

end UsersTable

/-! ## The store -/

/-- The calls of one operation on the database: whether the pool gives a
connection, whether the `SELECT` and its fetch succeed, and whether the `INSERT`
does. -/
structure UserIo where
  acquired : Bool := true
  fetched : Bool := true
  executed : Bool := true

/-- The table, and the number of random salts drawn so far. -/
structure PooledUserStore (collation : Collation) where
  table : UsersTable collation
  saltCalls : Nat := 0

namespace PooledUserStore

variable {store : PooledUserStore collation} {io : UserIo}

/-- `fetch_user_by_username`. -/
def fetchUserByUsername (io : UserIo) (table : UsersTable collation) (username : Bytes) :
    Option UserRecord :=
  if io.fetched then table.selectByUsername username else none

/-- `fetch_user_by_id`. -/
def fetchUserById (io : UserIo) (table : UsersTable collation) (id : Nat) :
    Option UserRecord :=
  if io.fetched then table.selectById id else none

/-- Register an account: its id, or the reason it was refused. -/
def registerUser (crypto : Crypto) (io : UserIo) (store : PooledUserStore collation)
    (username password : Bytes) : Except Bytes Nat × PooledUserStore collation :=
  if username.isEmpty || password.isEmpty then
    (.error (ascii "username and password are required"), store)
  else if username.length > 64 then
    (.error (ascii "username too long"), store)
  else if !io.acquired then
    (.error (ascii "database error"), store)
  else if (fetchUserByUsername io store.table username).isSome then
    (.error (ascii "username already exists"), store)
  else
    let passwordHash := hashPasswordPbkdf2 crypto store.saltCalls password
    let store' := { store with saltCalls := store.saltCalls + 1 }
    if passwordHash.isEmpty then
      (.error (ascii "failed to hash password"), store')
    else if !io.executed then
      (.error (ascii "database error"), store')
    else
      match store.table.insert username passwordHash with
      | none => (.error (ascii "username already exists"), store')
      | some table => (.ok store.table.nextId, { store' with table := table })

/-- `find_user_by_username`, in pool mode. -/
def findUserByUsername (io : UserIo) (store : PooledUserStore collation) (username : Bytes) :
    Option UserRecord :=
  if io.acquired then fetchUserByUsername io store.table username else none

/-- `find_user_by_id`, in pool mode. -/
def findUserById (io : UserIo) (store : PooledUserStore collation) (id : Nat) :
    Option UserRecord :=
  if io.acquired then fetchUserById io store.table id else none

/-- The account a login names, when the password matches its record. -/
def verifyLogin (crypto : Crypto) (io : UserIo) (store : PooledUserStore collation)
    (username password : Bytes) : Option UserRecord :=
  match store.findUserByUsername io username with
  | none => none
  | some user =>
      if verifyPasswordPbkdf2 crypto password user.passwordHash then some user else none

theorem findUserByUsername_eq_some {username : Bytes} {row : UserRecord}
    (h : store.findUserByUsername io username = some row) :
    row ∈ store.table.rows ∧ collation.same row.username username = true := by
  unfold findUserByUsername fetchUserByUsername at h
  split at h
  · split at h
    · exact store.table.selectByUsername_iff.mp h
    · contradiction
  · contradiction

theorem verifyLogin_mem {crypto : Crypto} {username password : Bytes} {row : UserRecord}
    (h : store.verifyLogin crypto io username password = some row) :
    row ∈ store.table.rows := by
  unfold verifyLogin at h
  split at h
  · contradiction
  · rename_i found hFound
    split at h
    · rw [← Option.some.inj h]
      exact (findUserByUsername_eq_some hFound).1
    · contradiction

/-- Accounts stay. -/
theorem rows_registerUser {crypto : Crypto} (username password : Bytes) :
    ∀ row ∈ store.table.rows,
      row ∈ (store.registerUser crypto io username password).2.table.rows := by
  intro row hRow
  unfold registerUser
  split
  · exact hRow
  split
  · exact hRow
  split
  · exact hRow
  split
  · exact hRow
  dsimp only
  split
  · exact hRow
  split
  · exact hRow
  cases hInsert : store.table.insert username
      (hashPasswordPbkdf2 crypto store.saltCalls password) with
  | none => exact hRow
  | some table => exact UsersTable.rows_insert hInsert row hRow

end PooledUserStore

end CppChat.Ports.Users
