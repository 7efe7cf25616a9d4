import Mathlib.Data.List.TakeWhile
import CppChat.Ports.UserStore

/-!
# The password record as a codec

`make_hash` writes a record `pbkdf2_sha256$iterations$salt$hash`, and
`verify_password_pbkdf2` takes one apart again with tools that accept more than is ever
written: `getline`, which does not see a final empty piece, `stoi`, which takes blanks, a
sign and trailing text, and `strtol` on pairs of characters.  What it has read it writes
again and compares with what it was given, and so nothing else than a written record is
accepted.

The digest is a total function into 32 bytes here, `Pbkdf2`.

## Main results

* `fromHex_toHex`, `stoi_decimal`, `split_recordText`: what is written reads back.
* `recordOf_infix`: no record is a proper part of another one.
* `verify_iff`: exactly the records of the password are accepted.
* `passwordRecord_codec`: what follows for other passwords and for altered records.
-/

namespace CppChat.Ports.Users

open CppChat.Verified

/-- The length of the derived key. -/
def kHashBytes : Nat := 32

/-- PBKDF2-HMAC-SHA256 of a password under an iteration count and a salt. -/
abbrev Pbkdf2 := Bytes → Nat → Bytes → { digest : Bytes // digest.length = kHashBytes }

/-- OpenSSL with a digest that does not fail. -/
def Crypto.ofDigest (digest : Pbkdf2) (randBytes : Nat → Option Bytes) : Crypto where
  pbkdf2 := fun password iterations salt => some (digest password iterations salt).val
  randBytes := randBytes

/-- The text of a record. -/
def recordText (iterations salt hash : Bytes) : Bytes :=
  ascii "pbkdf2_sha256$" ++ iterations ++ ascii "$" ++ salt ++ ascii "$" ++ hash

/-! ## Hexadecimal digits -/

theorem toNat_hexDigit {k : Nat} (h : k < 16) :
    (hexDigit k).toNat = if k < 10 then 48 + k else 87 + k := by
  unfold hexDigit
  split <;> simp only [Nat.toUInt8_eq, UInt8.toNat_ofNat'] <;> omega

theorem hexValue_hexDigit {k : Nat} (h : k < 16) : hexValue (hexDigit k) = some k := by
  have hNat := toNat_hexDigit h
  by_cases hDecimal : k < 10
  · rw [if_pos hDecimal] at hNat
    have hDigit : isDigit (hexDigit k) = true := (isDigit_iff _).mpr (by omega)
    rw [hexValue, if_pos hDigit, hNat]
    congr 1
    omega
  · rw [if_neg hDecimal] at hNat
    have hDigit : ¬isDigit (hexDigit k) = true := by
      rw [isDigit_iff]
      omega
    have hLetter : 97 ≤ hexDigit k ∧ hexDigit k ≤ 102 := by
      simp only [UInt8.le_iff_toNat_le, hNat, UInt8.reduceToNat]
      omega
    rw [hexValue, if_neg hDigit, if_pos hLetter, hNat]
    congr 1
    omega

/-- Neither a separator, nor a blank or a sign, nor a capital. -/
theorem hexDigit_range {k : Nat} (h : k < 16) :
    (48 ≤ (hexDigit k).toNat ∧ (hexDigit k).toNat ≤ 57) ∨
      (97 ≤ (hexDigit k).toNat ∧ (hexDigit k).toNat ≤ 102) := by
  rw [toNat_hexDigit h]
  split <;> omega

theorem mem_toHex {data : Bytes} {b : UInt8} (h : b ∈ toHex data) : ∃ k < 16, b = hexDigit k := by
  obtain ⟨byte, -, hMem⟩ := List.mem_flatMap.mp h
  have hByte := byte.toNat_lt
  rcases List.mem_cons.mp hMem with rfl | hLast
  · exact ⟨byte.toNat / 16, by omega, rfl⟩
  · rw [List.mem_singleton.mp hLast]
    exact ⟨byte.toNat % 16, by omega, rfl⟩

theorem length_toHex (data : Bytes) : (toHex data).length = 2 * data.length := by
  unfold toHex
  induction data with
  | nil => rfl
  | cons b rest ih =>
      rw [List.flatMap_cons, List.length_append, ih, List.length_cons]
      simp only [List.length_cons, List.length_nil]
      omega

/-- No digit is a zero byte, a separator or a sign. -/
theorem hexDigit_ne {k : Nat} (h : k < 16) {b : UInt8} (hb : b.toNat < 48) : hexDigit k ≠ b := by
  have hRange := hexDigit_range h
  intro hEq
  rw [hEq] at hRange
  omega

/-- A pair of digits is read as the byte they stand for. -/
theorem strtolByte_hexDigits {high low : Nat} (hHigh : high < 16) (hLow : low < 16) :
    strtolByte [hexDigit high, hexDigit low] = some (high * 16 + low).toUInt8 := by
  have hFirst : hexDigit high ≠ 0 := hexDigit_ne hHigh (by decide)
  have hSecond : hexDigit low ≠ 0 := hexDigit_ne hLow (by decide)
  have hMinus : hexDigit high ≠ chr '-' := hexDigit_ne hHigh (by decide)
  have hPlus : hexDigit high ≠ chr '+' := hexDigit_ne hHigh (by decide)
  have hBlank : isSpace (hexDigit high) = false := by
    have hRange := hexDigit_range hHigh
    rw [← Bool.not_eq_true, isSpace_iff]
    omega
  have hText : [hexDigit high, hexDigit low].takeWhile (· ≠ 0) =
      [hexDigit high, hexDigit low] := by
    simp [hFirst, hSecond]
  have hUnsigned : [hexDigit high, hexDigit low].dropWhile isSpace =
      [hexDigit high, hexDigit low] := by
    simp [hBlank]
  have hValues : [hexDigit high, hexDigit low].mapM hexValue = some [high, low] := by
    simp [hexValue_hexDigit hHigh, hexValue_hexDigit hLow]
  have hSmall : ¬high * 16 + low > 255 := by omega
  simp only [strtolByte, hText, hUnsigned, List.head?_cons, Option.some.injEq, hMinus, hPlus,
    or_self, if_false, hValues]
  simp [hSmall]

/-- `from_hex` reads back what `to_hex` has written. -/
theorem fromHexPairs_toHex (data : Bytes) : fromHexPairs (toHex data) = some data := by
  induction data with
  | nil => rfl
  | cons b rest ih =>
      have hByte := b.toNat_lt
      have hSplit : b.toNat / 16 * 16 + b.toNat % 16 = b.toNat := by omega
      have hPair := strtolByte_hexDigits
        (by omega : b.toNat / 16 < 16) (by omega : b.toNat % 16 < 16)
      rw [hSplit, Nat.toUInt8_eq, UInt8.ofNat_toNat] at hPair
      have hCons : toHex (b :: rest) =
          hexDigit (b.toNat / 16) :: hexDigit (b.toNat % 16) :: toHex rest := rfl
      rw [hCons, fromHexPairs, hPair, ih]

/-- What is written in hex reads back. -/
theorem fromHex_toHex (data : Bytes) : fromHex (toHex data) = data := by
  rw [fromHex, fromHexPairs_toHex]
  rfl

theorem toHex_injective {data data' : Bytes} (h : toHex data = toHex data') : data = data' := by
  have hBack := congrArg fromHex h
  rw [fromHex_toHex, fromHex_toHex] at hBack
  exact hBack

/-! ## The iteration count -/

theorem decimal_injective {n n' : Nat} (h : decimal n = decimal n') : n = n' := by
  have hBack := congrArg digitsValue h
  rw [digitsValue_decimal, digitsValue_decimal] at hBack
  exact hBack

/-- `stoi` reads back what `to_string` has written. -/
theorem stoi_decimal {n : Nat} (h : n ≤ 2 ^ 31 - 1) : stoi (decimal n) = some (n : Int) := by
  have hDigits := isDigit_of_mem_decimal n
  have hAll : (decimal n).takeWhile isDigit = decimal n :=
    List.takeWhile_eq_self_iff.mpr hDigits
  cases hText : decimal n with
  | nil => exact absurd hText (decimal_ne_nil n)
  | cons first rest =>
      have hFirst : isDigit first = true := hDigits first (by simp [hText])
      have hRange := (isDigit_iff first).mp hFirst
      have hBlank : isSpace first = false := by
        rw [← Bool.not_eq_true, isSpace_iff]
        omega
      have hMinus : first ≠ chr '-' := by
        rintro rfl
        contradiction
      have hPlus : first ≠ chr '+' := by
        rintro rfl
        contradiction
      have hUnsigned : (first :: rest).dropWhile isSpace = first :: rest := by simp [hBlank]
      have hValue : digitsValue (first :: rest) = n := by rw [← hText, digitsValue_decimal]
      rw [hText] at hAll
      simp only [stoi, hUnsigned, List.head?_cons, Option.some.injEq, hMinus, hPlus, or_self,
        if_false, hAll, hValue]
      rw [if_neg]
      simp only [List.isEmpty_cons, Bool.false_eq_true, false_or]
      omega

/-! ## Records -/

theorem not_mem_toHex {b : UInt8} (hb : b.toNat < 48) (data : Bytes) : b ∉ toHex data := by
  intro hMem
  obtain ⟨k, hk, hEq⟩ := mem_toHex hMem
  exact hexDigit_ne hk hb hEq.symm

theorem not_mem_decimal {b : UInt8} (hb : b.toNat < 48) (n : Nat) : b ∉ decimal n := by
  intro hMem
  have hRange := (isDigit_iff b).mp (isDigit_of_mem_decimal n b hMem)
  omega

/-- What is in front of the first separator is the first piece. -/
theorem splitPieces_append {d : UInt8} {piece : Bytes} (h : d ∉ piece) (rest : Bytes) :
    splitPieces d (piece ++ d :: rest) = piece :: splitPieces d rest := by
  induction piece with
  | nil => simp [splitPieces]
  | cons b tail ih =>
      obtain ⟨hFirst, hTail⟩ := List.ne_and_not_mem_of_not_mem_cons h
      rw [List.cons_append, splitPieces, if_neg (Ne.symm hFirst), ih hTail]

theorem splitPieces_of_not_mem {d : UInt8} {piece : Bytes} (h : d ∉ piece) :
    splitPieces d piece = [piece] := by
  induction piece with
  | nil => rfl
  | cons b tail ih =>
      obtain ⟨hFirst, hTail⟩ := List.ne_and_not_mem_of_not_mem_cons h
      rw [splitPieces, if_neg (Ne.symm hFirst), ih hTail]

/-- The scheme, the iteration count, the salt and the hash, with a separator between. -/
theorem recordText_eq (iterations salt hash : Bytes) :
    recordText iterations salt hash =
      ascii "pbkdf2_sha256" ++ chr '$' :: (iterations ++ chr '$' :: (salt ++ chr '$' :: hash)) := by
  have hScheme : ascii "pbkdf2_sha256$" = ascii "pbkdf2_sha256" ++ [chr '$'] := by
    rw [ascii_ofList, ascii_ofList]
    decide
  have hSeparator : ascii "$" = [chr '$'] := by
    rw [ascii_ofList]
    decide
  simp [recordText, hScheme, hSeparator]

theorem separator_not_mem_scheme : chr '$' ∉ ascii "pbkdf2_sha256" := by
  rw [ascii_ofList]
  decide

/-- A record is taken apart into its four fields. -/
theorem split_recordText {iterations salt hash : Bytes} (hIterations : chr '$' ∉ iterations)
    (hSalt : chr '$' ∉ salt) (hHash : chr '$' ∉ hash) (hNe : hash ≠ []) :
    split (recordText iterations salt hash) (chr '$') =
      [ascii "pbkdf2_sha256", iterations, salt, hash] := by
  have hPieces : splitPieces (chr '$') (recordText iterations salt hash) =
      [ascii "pbkdf2_sha256", iterations, salt, hash] := by
    rw [recordText_eq, splitPieces_append separator_not_mem_scheme,
      splitPieces_append hIterations, splitPieces_append hSalt, splitPieces_of_not_mem hHash]
  rw [split, hPieces]
  simp [hNe]

/-- The record of a digest. -/
def recordOf (iterations : Nat) (salt : Bytes)
    (hash : { digest : Bytes // digest.length = kHashBytes }) : Bytes :=
  recordText (decimal iterations) (toHex salt) (toHex hash.val)

variable {n n' : Nat} {salt salt' : Bytes}
  {hash hash' : { digest : Bytes // digest.length = kHashBytes }}

theorem toHex_hash_ne_nil (hash : { digest : Bytes // digest.length = kHashBytes }) :
    toHex hash.val ≠ [] := by
  intro hNil
  have hLength := length_toHex hash.val
  rw [hNil, hash.property] at hLength
  contradiction

/-- A record has its four pieces. -/
theorem split_recordOf (n : Nat) (salt : Bytes)
    (hash : { digest : Bytes // digest.length = kHashBytes }) :
    split (recordOf n salt hash) (chr '$') =
      [ascii "pbkdf2_sha256", decimal n, toHex salt, toHex hash.val] :=
  split_recordText (not_mem_decimal (by decide) n) (not_mem_toHex (by decide) salt)
    (not_mem_toHex (by decide) hash.val) (toHex_hash_ne_nil hash)

/-- A record has one iteration count, one salt and one hash. -/
theorem recordOf_injective (h : recordOf n salt hash = recordOf n' salt' hash') :
    n = n' ∧ salt = salt' ∧ hash = hash' := by
  have hFields := congrArg (fun text => split text (chr '$')) h
  simp only [split_recordOf, List.cons.injEq, and_true, true_and] at hFields
  obtain ⟨hCount, hSalt, hHash⟩ := hFields
  exact ⟨decimal_injective hCount, toHex_injective hSalt, Subtype.ext (toHex_injective hHash)⟩

/-- A record has three separators. -/
theorem count_recordOf (n : Nat) (salt : Bytes)
    (hash : { digest : Bytes // digest.length = kHashBytes }) :
    (recordOf n salt hash).count (chr '$') = 3 := by
  have hScheme := List.count_eq_zero.mpr separator_not_mem_scheme
  have hCount := List.count_eq_zero.mpr (not_mem_decimal (b := chr '$') (by decide) n)
  have hSalt := List.count_eq_zero.mpr (not_mem_toHex (b := chr '$') (by decide) salt)
  have hHash := List.count_eq_zero.mpr (not_mem_toHex (b := chr '$') (by decide) hash.val)
  rw [recordOf, recordText_eq]
  simp only [List.count_append, List.count_cons_self, hScheme, hCount, hSalt, hHash]

theorem recordOf_ne_nil (n : Nat) (salt : Bytes)
    (hash : { digest : Bytes // digest.length = kHashBytes }) : recordOf n salt hash ≠ [] := by
  intro hNil
  have hCount := count_recordOf n salt hash
  rw [hNil] at hCount
  contradiction

/-- What stands in front of the first separator of a text is determined. -/
theorem append_cons_injective {d : UInt8} {x x' y y' : Bytes} (hx : d ∉ x) (hx' : d ∉ x')
    (h : x ++ d :: y = x' ++ d :: y') : x = x' ∧ y = y' := by
  induction x generalizing x' with
  | nil =>
      cases x' with
      | nil => exact ⟨rfl, (List.cons.inj h).2⟩
      | cons b tail => exact absurd (List.cons.inj h).1 (List.ne_and_not_mem_of_not_mem_cons hx').1
  | cons a front ih =>
      cases x' with
      | nil =>
          exact absurd (List.cons.inj h).1.symm (List.ne_and_not_mem_of_not_mem_cons hx).1
      | cons b tail =>
          obtain ⟨rfl, hRest⟩ := List.cons.inj h
          obtain ⟨rfl, hSame⟩ := ih (List.ne_and_not_mem_of_not_mem_cons hx).2
            (List.ne_and_not_mem_of_not_mem_cons hx').2 hRest
          exact ⟨rfl, hSame⟩

/-- No record is a proper part of another one: the separators fix where it begins, and the
length of the hash where it ends. -/
theorem recordOf_infix {front back : Bytes}
    (h : front ++ recordOf n salt hash ++ back = recordOf n' salt' hash') :
    front = [] ∧ back = [] := by
  have hCount := congrArg (List.count (chr '$')) h
  rw [List.count_append, List.count_append, count_recordOf, count_recordOf] at hCount
  have hFree : chr '$' ∉ front := List.count_eq_zero.mp (by omega)
  simp only [recordOf, recordText_eq, List.append_assoc, List.cons_append] at h
  rw [← List.append_assoc] at h
  have hScheme : chr '$' ∉ front ++ ascii "pbkdf2_sha256" := by
    rw [List.mem_append]
    exact not_or.mpr ⟨hFree, separator_not_mem_scheme⟩
  have hSign : (chr '$').toNat < 48 := by decide
  obtain ⟨hFront, hRest⟩ := append_cons_injective hScheme separator_not_mem_scheme h
  obtain ⟨-, hRest⟩ := append_cons_injective (not_mem_decimal hSign n) (not_mem_decimal hSign n')
    hRest
  obtain ⟨-, hRest⟩ := append_cons_injective (not_mem_toHex hSign salt)
    (not_mem_toHex hSign salt') hRest
  have hLength := congrArg List.length hRest
  rw [List.length_append, length_toHex, length_toHex, hash.property, hash'.property] at hLength
  exact ⟨List.append_left_eq_self.mp hFront, List.eq_nil_of_length_eq_zero (by omega)⟩

/-! ## Letter case -/

/-- The small letter of a capital. -/
def lowerCase (b : UInt8) : UInt8 := if 65 ≤ b ∧ b ≤ 90 then b + 32 else b

theorem lowerCase_of_not_capital {b : UInt8} (h : b.toNat < 65 ∨ 90 < b.toNat) :
    lowerCase b = b := by
  rw [lowerCase, if_neg]
  simp only [UInt8.le_iff_toNat_le, UInt8.reduceToNat]
  omega

/-- A record has no capitals. -/
theorem map_lowerCase_recordOf (n : Nat) (salt : Bytes)
    (hash : { digest : Bytes // digest.length = kHashBytes }) :
    (recordOf n salt hash).map lowerCase = recordOf n salt hash := by
  have hScheme : (ascii "pbkdf2_sha256$").map lowerCase = ascii "pbkdf2_sha256$" := by
    rw [ascii_ofList]
    decide
  have hSeparator : (ascii "$").map lowerCase = ascii "$" := by
    rw [ascii_ofList]
    decide
  have hSame : ∀ text : Bytes, (∀ b ∈ text, lowerCase b = b) → text.map lowerCase = text :=
    fun text h => (List.map_congr_left h).trans (List.map_id text)
  have hCount : (decimal n).map lowerCase = decimal n := by
    apply hSame
    intro b hb
    have hRange := (isDigit_iff b).mp (isDigit_of_mem_decimal n b hb)
    exact lowerCase_of_not_capital (by omega)
  have hHex : ∀ data, (toHex data).map lowerCase = toHex data := by
    intro data
    apply hSame
    intro b hb
    obtain ⟨k, hk, rfl⟩ := mem_toHex hb
    have hRange := hexDigit_range hk
    exact lowerCase_of_not_capital (by omega)
  simp only [recordOf, recordText, List.map_append, hScheme, hSeparator, hCount, hHex]

/-! ## The codec -/

section Codec

variable (digest : Pbkdf2) (randBytes : Nat → Option Bytes)

/-- What is stored for a password. -/
theorem makeHash_ofDigest (password : Bytes) (iterations : Nat) (salt : Bytes) :
    makeHash (.ofDigest digest randBytes) password iterations salt =
      recordOf iterations salt (digest password iterations salt) := rfl

/-- What is accepted is a record of the password, and its fields are what `stoi` and
`from_hex` read. -/
theorem recordOf_of_verify {password text : Bytes}
    (h : verifyPasswordPbkdf2 (.ofDigest digest randBytes) password text = true) :
    ∃ n salt, 1 ≤ n ∧ n ≤ 2 ^ 31 - 1 ∧ salt ≠ [] ∧
      text = recordOf n salt (digest password n salt) := by
  unfold verifyPasswordPbkdf2 at h
  split at h
  · rename_i scheme iterationText saltText hashText hSplit
    split at h
    · contradiction
    · split at h
      · contradiction
      · rename_i iterations hIterations
        split at h
        · contradiction
        · rename_i hPos
          dsimp only at h
          split at h
          · contradiction
          · rename_i hSalt
            have hRange := stoi_le hIterations
            rw [Bool.and_eq_true, beq_iff_eq] at h
            refine ⟨iterations.toNat, fromHex saltText, by omega, by omega, ?_, h.2.symm⟩
            simpa using hSalt
  · contradiction

/-- The password of a record is accepted. -/
theorem verify_recordOf {password salt : Bytes} {n : Nat} (hPos : 1 ≤ n) (hLe : n ≤ 2 ^ 31 - 1)
    (hSalt : salt ≠ []) :
    verifyPasswordPbkdf2 (.ofDigest digest randBytes) password
      (recordOf n salt (digest password n salt)) = true := by
  have hCount : ¬(n : Int) ≤ 0 := by omega
  have hNe := recordOf_ne_nil n salt (digest password n salt)
  rw [verifyPasswordPbkdf2, split_recordOf]
  simp only [stoi_decimal hLe, fromHex_toHex, hCount, if_false, Int.toNat_natCast,
    makeHash_ofDigest]
  simp [hSalt, hNe]

/-- Exactly the records of the password are accepted. -/
theorem verify_iff (password text : Bytes) :
    verifyPasswordPbkdf2 (.ofDigest digest randBytes) password text = true ↔
      ∃ n salt, 1 ≤ n ∧ n ≤ 2 ^ 31 - 1 ∧ salt ≠ [] ∧
        text = recordOf n salt (digest password n salt) := by
  constructor
  · exact recordOf_of_verify digest randBytes
  · rintro ⟨n, salt, hPos, hLe, hSalt, rfl⟩
    exact verify_recordOf digest randBytes hPos hLe hSalt

/-- A record is accepted from a password with the same digest. -/
theorem verify_recordOf_iff (password : Bytes) (hPos : 1 ≤ n) (hLe : n ≤ 2 ^ 31 - 1)
    (hSalt : salt ≠ []) :
    verifyPasswordPbkdf2 (.ofDigest digest randBytes) password (recordOf n salt hash) = true ↔
      digest password n salt = hash := by
  constructor
  · intro h
    obtain ⟨n', salt', -, -, -, hText⟩ := recordOf_of_verify digest randBytes h
    obtain ⟨rfl, rfl, hHash⟩ := recordOf_injective hText
    exact hHash.symm
  · rintro rfl
    exact verify_recordOf digest randBytes hPos hLe hSalt

/-- A text made from a record: a proper part of it, the record with something around it,
the record with other capitals, or other texts in its fields that read the same. -/
inductive Altered (n : Nat) (salt : Bytes)
    (hash : { digest : Bytes // digest.length = kHashBytes }) : Bytes → Prop
  | truncated {front text back : Bytes}
      (hPart : front ++ text ++ back = recordOf n salt hash)
      (hProper : front ≠ [] ∨ back ≠ []) : Altered n salt hash text
  | padded {front back : Bytes} (hProper : front ≠ [] ∨ back ≠ []) :
      Altered n salt hash (front ++ recordOf n salt hash ++ back)
  | recased {text : Bytes} (hSame : text.map lowerCase = recordOf n salt hash)
      (hOther : text ≠ recordOf n salt hash) : Altered n salt hash text
  | respelled {text iterationText saltText hashText : Bytes}
      (hFields : split text (chr '$') =
        [ascii "pbkdf2_sha256", iterationText, saltText, hashText])
      (hCount : stoi iterationText = some (n : Int)) (hSalt : fromHex saltText = salt)
      (hHash : fromHex hashText = hash.val) (hOther : text ≠ recordOf n salt hash) :
      Altered n salt hash text

/-- An altered record is accepted from nobody. -/
theorem not_verify_altered {text : Bytes} (hAltered : Altered n salt hash text)
    (password : Bytes) :
    verifyPasswordPbkdf2 (.ofDigest digest randBytes) password text = false := by
  rw [← Bool.not_eq_true]
  intro hVerify
  obtain ⟨n', salt', -, hLe, -, hText⟩ := recordOf_of_verify digest randBytes hVerify
  cases hAltered with
  | truncated hPart hProper =>
      rw [hText] at hPart
      obtain ⟨hFront, hBack⟩ := recordOf_infix hPart
      exact hProper.elim (absurd hFront) (absurd hBack)
  | padded hProper =>
      obtain ⟨hFront, hBack⟩ := recordOf_infix hText
      exact hProper.elim (absurd hFront) (absurd hBack)
  | recased hSame hOther =>
      rw [hText, map_lowerCase_recordOf] at hSame
      exact hOther (hText.trans hSame)
  | respelled hFields hCount hSalt hHash hOther =>
      rw [hText, split_recordOf] at hFields
      simp only [List.cons.injEq, and_true, true_and] at hFields
      obtain ⟨rfl, rfl, rfl⟩ := hFields
      rw [stoi_decimal hLe] at hCount
      rw [fromHex_toHex] at hSalt hHash
      have hSameCount : n' = n := Int.ofNat.inj (Option.some.inj hCount)
      have hSameHash := Subtype.ext hHash
      rw [hSameCount, hSalt] at hText hSameHash
      rw [hSameHash] at hText
      exact hOther hText

/-- For every digest function, all passwords and all texts: a text is accepted exactly if it
is the record of the password under some positive `int` and some salt that is not empty;
the record of a password is accepted exactly from the passwords with its digest; and
an altered record is accepted from nobody. -/
theorem passwordRecord_codec (digest : Pbkdf2) (randBytes : Nat → Option Bytes) :
    (∀ p text, verifyPasswordPbkdf2 (.ofDigest digest randBytes) p text = true ↔
      ∃ n salt, 1 ≤ n ∧ n ≤ 2 ^ 31 - 1 ∧ salt ≠ [] ∧
        text = makeHash (.ofDigest digest randBytes) p n salt) ∧
    (∀ p q n salt, 1 ≤ n → n ≤ 2 ^ 31 - 1 → salt ≠ [] →
      (verifyPasswordPbkdf2 (.ofDigest digest randBytes) q
          (makeHash (.ofDigest digest randBytes) p n salt) = true ↔
        digest q n salt = digest p n salt)) ∧
    ∀ p q n salt text, Altered n salt (digest p n salt) text →
      verifyPasswordPbkdf2 (.ofDigest digest randBytes) q text = false :=
  ⟨verify_iff digest randBytes,
    fun _ q _ _ hPos hLe hSalt => verify_recordOf_iff digest randBytes q hPos hLe hSalt,
    fun _ q _ _ _ hAltered => not_verify_altered digest randBytes hAltered q⟩

end Codec

/-- The digest of `sampleCrypto`, and zeros for any other password. -/
def sampleDigest : Pbkdf2 := fun password iterations salt =>
  match sampleCrypto.pbkdf2 password iterations salt with
  | none => ⟨List.replicate kHashBytes 0, List.length_replicate⟩
  | some digest =>
      if h : digest.length = kHashBytes then ⟨digest, h⟩
      else ⟨List.replicate kHashBytes 0, List.length_replicate⟩

/-- The record of `pw` is accepted, and with a blank behind it it is not. -/
theorem passwordRecord_codec_pw :
    let crypto := Crypto.ofDigest sampleDigest fun _ => none
    let salt : Bytes := (List.range 16).map Nat.toUInt8
    let record := makeHash crypto (ascii "pw") 100000 salt
    verifyPasswordPbkdf2 crypto (ascii "pw") record = true ∧
      verifyPasswordPbkdf2 crypto (ascii "pw") (record ++ [chr ' ']) = false := by
  intro crypto salt record
  obtain ⟨-, hAccepts, hRejects⟩ := passwordRecord_codec sampleDigest fun _ => none
  have hSalt : salt ≠ [] := by decide
  exact ⟨(hAccepts _ _ 100000 salt (by decide) (by decide) hSalt).mpr rfl,
    hRejects (ascii "pw") _ 100000 salt _
      (@Altered.padded _ _ _ [] [chr ' '] (.inr (List.cons_ne_nil _ _)))⟩

end CppChat.Ports.Users
