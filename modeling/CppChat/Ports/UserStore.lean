import Mathlib.Algebra.Group.Int.Defs
import CppChat.Verified.Bytes
import CppChat.Verified.UnorderedMap

/-!
# The user store

Accounts live in two maps, by name and by id, and in a counter for the next
id.  Passwords are stored as `pbkdf2_sha256$iterations$salt$hash`; the digest
and the random salt come from OpenSSL and are parameters here.

This module ports the password record and the in-memory mode of the store.
-/

namespace CppChat.Ports.Users

open CppChat.Verified

/-- The OpenSSL calls of the store: the digest of a password under an
iteration count and a salt, and the salt of the `n`-th hash.  `none` is a
failed call. -/
structure Crypto where
  pbkdf2 : Bytes → Nat → Bytes → Option Bytes
  randBytes : Nat → Option Bytes

/-- OpenSSL on one input: every salt is the bytes `0` to `15`, and `digest` is
the PBKDF2-HMAC-SHA256 digest of the password `pw` under that salt.  Any other
password fails.  Concrete runs use it. -/
def sampleCrypto : Crypto :=
  let salt : Bytes := (List.range 16).map Nat.toUInt8
  let digest : Bytes :=
    [251, 231, 153, 3, 215, 89, 184, 38, 225, 213, 75, 217, 228, 248, 190, 178,
      222, 90, 135, 172, 134, 3, 124, 118, 50, 138, 212, 133, 253, 137, 70, 113]
  { pbkdf2 := fun password iterations s =>
      if password = ascii "pw" ∧ iterations = 100000 ∧ s = salt then some digest else none
    randBytes := fun _ => some salt }

/-! ## The password record -/

/-- The iterations of a new password record. -/
def kPbkdf2Iterations : Nat := 100000

/-- A digit, in lower case. -/
def hexDigit (n : Nat) : UInt8 := if n < 10 then (48 + n).toUInt8 else (87 + n).toUInt8

/-- Two lower-case digits a byte. -/
def toHex (data : Bytes) : Bytes :=
  data.flatMap fun b => [hexDigit (b.toNat / 16), hexDigit (b.toNat % 16)]

/-- The value of a hexadecimal digit of either case. -/
def hexValue (b : UInt8) : Option Nat :=
  if isDigit b then some (b.toNat - 48)
  else if 97 ≤ b ∧ b ≤ 102 then some (b.toNat - 87)
  else if 65 ≤ b ∧ b ≤ 70 then some (b.toNat - 55)
  else none

/-- `strtol(piece, &end, 16)` as `from_hex` uses it: the value, when `end` is
the terminator and the value is a byte.  Like `strtol` it stops at a zero byte,
skips blanks and takes a sign; with nothing at all before the terminator it
converts nothing and returns `0`. -/
def strtolByte (piece : Bytes) : Option UInt8 :=
  let text := piece.takeWhile (· ≠ 0)
  if text.isEmpty then some 0
  else
    let unsigned := text.dropWhile isSpace
    let negative := unsigned.head? = some (chr '-')
    let digits :=
      if negative ∨ unsigned.head? = some (chr '+') then unsigned.drop 1 else unsigned
    if digits.isEmpty then none
    else
      match digits.mapM hexValue with
      | none => none
      | some values =>
          let value := values.foldl (fun acc v => acc * 16 + v) 0
          if (negative ∧ value ≠ 0) ∨ value > 255 then none else some value.toUInt8

/-- Decode pairs of characters; any bad pair, or an odd length, gives the
empty string. -/
def fromHexPairs : Bytes → Option Bytes
  | [] => some []
  | [_] => none
  | a :: b :: rest =>
      match strtolByte [a, b], fromHexPairs rest with
      | some byte, some bytes => some (byte :: bytes)
      | _, _ => none

/-- `from_hex`: nothing for a text that is not in hex. -/
def fromHex (hex : Bytes) : Bytes := (fromHexPairs hex).getD []

/-- Everything up to the next delimiter, and the pieces behind it. -/
def splitPieces (delimiter : UInt8) : Bytes → List Bytes
  | [] => [[]]
  | b :: rest =>
      if b = delimiter then [] :: splitPieces delimiter rest
      else
        match splitPieces delimiter rest with
        | [] => [[b]]
        | piece :: pieces => (b :: piece) :: pieces

/-- `std::getline` in a loop: a final empty piece is not delivered. -/
def split (value : Bytes) (delimiter : UInt8) : List Bytes :=
  let pieces := splitPieces delimiter value
  if pieces.getLast? = some [] then pieces.dropLast else pieces

/-- `std::stoi`: blanks, a sign and a run of digits; what follows is ignored.
`none` is a thrown exception, for no digits or a value outside `int`. -/
def stoi (text : Bytes) : Option Int :=
  let unsigned := text.dropWhile isSpace
  let negative := unsigned.head? = some (chr '-')
  let rest :=
    if negative ∨ unsigned.head? = some (chr '+') then unsigned.drop 1 else unsigned
  let digits := rest.takeWhile isDigit
  let value : Int := if negative then -(digitsValue digits : Int) else digitsValue digits
  if digits.isEmpty ∨ value < -2 ^ 31 ∨ value > 2 ^ 31 - 1 then none else some value

/-- What `stoi` returns is an `int`. -/
theorem stoi_le {text : Bytes} {value : Int} (h : stoi text = some value) : value ≤ 2 ^ 31 - 1 := by
  unfold stoi at h
  obtain ⟨hRange, hValue⟩ := Option.ite_none_left_eq_some.mp h
  rw [← Option.some.inj hValue]
  exact Int.not_lt.mp (not_or.mp (not_or.mp hRange).2).2

/-- The record of a password; empty when the digest fails. -/
def makeHash (crypto : Crypto) (password : Bytes) (iterations : Nat) (salt : Bytes) :
    Bytes :=
  match crypto.pbkdf2 password iterations salt with
  | none => []
  | some hash =>
      ascii "pbkdf2_sha256$" ++ decimal iterations ++ ascii "$" ++ toHex salt ++
        ascii "$" ++ toHex hash

/-- The record of a new password, under the `call`-th random salt. -/
def hashPasswordPbkdf2 (crypto : Crypto) (call : Nat) (password : Bytes) : Bytes :=
  match crypto.randBytes call with
  | none => []
  | some salt => makeHash crypto password kPbkdf2Iterations salt

/-- `verify_password_pbkdf2`: parse the record, derive the key again, and compare. -/
def verifyPasswordPbkdf2 (crypto : Crypto) (password storedHash : Bytes) : Bool :=
  match split storedHash (chr '$') with
  | [scheme, iterationText, saltText, _] =>
      if scheme ≠ ascii "pbkdf2_sha256" then false
      else
        match stoi iterationText with
        | none => false
        | some iterations =>
            if iterations ≤ 0 then false
            else
              let salt := fromHex saltText
              if salt.isEmpty then false
              else
                let recalculated := makeHash crypto password iterations.toNat salt
                !recalculated.isEmpty && recalculated == storedHash
  | _ => false

/-! ## The in-memory store -/

/-- An account. -/
structure UserRecord where
  id : Nat := 0
  username : Bytes := []
  passwordHash : Bytes := []
deriving DecidableEq, Repr

/-- The memory-mode members, and the number of random salts drawn so far. -/
structure UserStore where
  usersByUsername : UnorderedMap Bytes UserRecord := ∅
  usernamesById : UnorderedMap Nat Bytes := ∅
  nextMemoryId : Nat := 1
  saltCalls : Nat := 0

namespace UserStore

/-- Register an account: its id, or the reason it was refused. -/
def registerUser (crypto : Crypto) (store : UserStore) (username password : Bytes) :
    Except Bytes Nat × UserStore :=
  if username.isEmpty || password.isEmpty then
    (.error (ascii "username and password are required"), store)
  else if username.length > 64 then
    (.error (ascii "username too long"), store)
  else if (store.usersByUsername.lookup username).isSome then
    (.error (ascii "username already exists"), store)
  else
    let passwordHash := hashPasswordPbkdf2 crypto store.saltCalls password
    if passwordHash.isEmpty then
      (.error (ascii "failed to hash password"),
        { store with saltCalls := store.saltCalls + 1 })
    else
      (.ok store.nextMemoryId,
        { usersByUsername := store.usersByUsername.insert username
            { id := store.nextMemoryId, username := username,
              passwordHash := passwordHash }
          usernamesById := store.usernamesById.insert store.nextMemoryId username
          nextMemoryId := store.nextMemoryId + 1
          saltCalls := store.saltCalls + 1 })

/-- `find_user_by_username`. -/
def findUserByUsername (store : UserStore) (username : Bytes) : Option UserRecord :=
  store.usersByUsername.lookup username

/-- `find_user_by_id`, through the name. -/
def findUserById (store : UserStore) (userId : Nat) : Option UserRecord :=
  match store.usernamesById.lookup userId with
  | none => none
  | some username => store.usersByUsername.lookup username

/-- The account a login names, when the password matches its record. -/
def verifyLogin (crypto : Crypto) (store : UserStore) (username password : Bytes) :
    Option UserRecord :=
  match store.findUserByUsername username with
  | none => none
  | some user =>
      if verifyPasswordPbkdf2 crypto password user.passwordHash then some user else none

theorem verifyLogin_eq_some {crypto : Crypto} {store : UserStore} {username password : Bytes}
    {user : UserRecord} (h : store.verifyLogin crypto username password = some user) :
    store.findUserByUsername username = some user ∧
      verifyPasswordPbkdf2 crypto password user.passwordHash = true := by
  unfold verifyLogin at h
  split at h
  · contradiction
  · rename_i found hFound
    split at h
    · rename_i hPassword
      rw [← Option.some.inj h]
      exact ⟨hFound, hPassword⟩
    · contradiction

/-! ## The two maps -/

/-- The map by id is the inverse of the map by name, and ids are below the
counter. -/
structure Indexed (store : UserStore) : Prop where
  username_eq : ∀ n user, store.findUserByUsername n = some user → user.username = n
  id_iff : ∀ id n, store.usernamesById.lookup id = some n ↔
    ∃ user, store.findUserByUsername n = some user ∧ user.id = id
  id_lt : ∀ n user, store.findUserByUsername n = some user → user.id < store.nextMemoryId

theorem Indexed.empty : Indexed {} where
  username_eq := by simp [findUserByUsername]
  id_iff := by simp [findUserByUsername]
  id_lt := by simp [findUserByUsername]

variable {crypto : Crypto} {store : UserStore}

/-- Two accounts with one id are the same account. -/
theorem Indexed.id_unique (h : Indexed store) {n n' : Bytes} {user user' : UserRecord}
    (hUser : store.findUserByUsername n = some user)
    (hUser' : store.findUserByUsername n' = some user') (hId : user.id = user'.id) :
    user = user' := by
  have hn := (h.id_iff user.id n).mpr ⟨user, hUser, rfl⟩
  have hn' := (h.id_iff user.id n').mpr ⟨user', hUser', hId.symm⟩
  rw [hn] at hn'
  rw [Option.some.inj hn', hUser'] at hUser
  exact (Option.some.inj hUser).symm

theorem Indexed.findUserById_iff (h : Indexed store) {id : Nat} {user : UserRecord} :
    store.findUserById id = some user ↔
      ∃ n, store.findUserByUsername n = some user ∧ user.id = id := by
  unfold findUserById
  constructor
  · intro hFind
    split at hFind
    · contradiction
    · rename_i n hn
      obtain ⟨user', hUser', hId⟩ := (h.id_iff id n).mp hn
      have hSame : user' = user := Option.some.inj (hUser'.symm.trans hFind)
      exact ⟨n, hFind, hSame ▸ hId⟩
  · rintro ⟨n, hUser, hId⟩
    rw [(h.id_iff id n).mpr ⟨user, hUser, hId⟩]
    exact hUser

/-- A registration adds the account, or changes neither map. -/
theorem registerUser_cases (crypto : Crypto) (store : UserStore) (username password : Bytes) :
    (∃ reason calls, store.registerUser crypto username password =
      (.error reason, { store with saltCalls := calls })) ∨
    ∃ hash, store.findUserByUsername username = none ∧
      store.registerUser crypto username password =
        (.ok store.nextMemoryId,
          { usersByUsername := store.usersByUsername.insert username
              { id := store.nextMemoryId, username := username, passwordHash := hash }
            usernamesById := store.usernamesById.insert store.nextMemoryId username
            nextMemoryId := store.nextMemoryId + 1
            saltCalls := store.saltCalls + 1 }) := by
  unfold registerUser
  split
  · exact Or.inl ⟨_, store.saltCalls, rfl⟩
  split
  · exact Or.inl ⟨_, store.saltCalls, rfl⟩
  split
  · exact Or.inl ⟨_, store.saltCalls, rfl⟩
  rename_i hFree
  dsimp only
  split
  · exact Or.inl ⟨_, _, rfl⟩
  · exact Or.inr ⟨_, Option.not_isSome_iff_eq_none.mp hFree, rfl⟩

/-- A lookup after one account was added. -/
theorem findUserByUsername_insert {store' : UserStore} {username : Bytes} {user : UserRecord}
    (h : store'.usersByUsername = store.usersByUsername.insert username user) (n : Bytes) :
    store'.findUserByUsername n =
      if n = username then some user else store.findUserByUsername n := by
  unfold findUserByUsername
  rw [h, UnorderedMap.lookup_insert]

/-- Accounts stay. -/
theorem findUserByUsername_registerUser {n : Bytes} {user : UserRecord} {username password : Bytes}
    (h : store.findUserByUsername n = some user) :
    (store.registerUser crypto username password).2.findUserByUsername n = some user := by
  rcases registerUser_cases crypto store username password with
    ⟨reason, calls, hEq⟩ | ⟨hash, hFree, hEq⟩
  · rw [hEq]
    exact h
  · rw [hEq]
    rw [findUserByUsername_insert rfl, if_neg]
    · exact h
    · intro hn
      rw [hn, hFree] at h
      contradiction

/-- A new account keeps the two maps together. -/
theorem Indexed.registerUser (h : Indexed store) (username password : Bytes) :
    Indexed (store.registerUser crypto username password).2 := by
  rcases registerUser_cases crypto store username password with
    ⟨reason, calls, hEq⟩ | ⟨hash, hFree, hEq⟩
  · rw [hEq]
    exact ⟨h.username_eq, h.id_iff, h.id_lt⟩
  · rw [hEq]
    constructor
    · intro n user hUser
      rw [findUserByUsername_insert rfl] at hUser
      split at hUser
      · rename_i hn
        rw [← Option.some.inj hUser, hn]
      · exact h.username_eq n user hUser
    · intro id n
      rw [findUserByUsername_insert rfl, UnorderedMap.lookup_insert]
      by_cases hId : id = store.nextMemoryId
      · rw [if_pos hId]
        by_cases hn : n = username
        · simp [hn, hId]
        · rw [if_neg hn]
          constructor
          · intro hEq
            exact absurd (Option.some.inj hEq).symm hn
          · rintro ⟨user, hUser, hUserId⟩
            have := h.id_lt n user hUser
            omega
      · rw [if_neg hId]
        by_cases hn : n = username
        · rw [if_pos hn, h.id_iff, hn, hFree]
          simp [Ne.symm hId]
        · rw [if_neg hn, h.id_iff]
    · intro n user hUser
      rw [findUserByUsername_insert rfl] at hUser
      split at hUser
      · rw [← Option.some.inj hUser]
        exact Nat.lt_succ_self _
      · exact Nat.lt_succ_of_lt (h.id_lt n user hUser)

theorem Indexed.findUserById_registerUser (h : Indexed store) {id : Nat} {user : UserRecord}
    {username password : Bytes} (hUser : store.findUserById id = some user) :
    (store.registerUser crypto username password).2.findUserById id = some user := by
  obtain ⟨n, hName, hId⟩ := h.findUserById_iff.mp hUser
  exact (h.registerUser username password).findUserById_iff.mpr
    ⟨n, findUserByUsername_registerUser hName, hId⟩

end UserStore

end CppChat.Ports.Users
