import Mathlib.Algebra.Group.Nat.Defs

/-!
# Byte strings

The programs ported in this package work on byte strings: a `std::string` is a
sequence of bytes with no encoding attached.  This module fixes that
representation and the three conversions every port needs: ASCII literals,
unsigned decimal numerals and four-byte network-order integers.

Everything is structurally recursive or an ordinary `Nat` expression, so
closed byte strings evaluate in the kernel.

## Main results

* `decimal_length_le`: a 64-bit number has at most twenty decimal digits.
* `digitsValue_decimal`: a printed number reads back.
* `readBE32_be32_append`: the four-byte header reads back what was written.
* `be32_readBE32`: a header that is read is the header of the value it holds.
-/

namespace CppChat.Verified

/-- A byte string, the contents of a `std::string`. -/
abbrev Bytes := List UInt8

/-- The bytes of an ASCII literal. -/
def ascii (s : String) : Bytes := s.toList.map fun c => c.toNat.toUInt8

theorem ascii_ofList (chars : List Char) :
    ascii (String.ofList chars) = chars.map fun c => c.toNat.toUInt8 := by
  rw [ascii, String.toList_ofList]

/-- What holds of the bytes of its characters holds of a literal. -/
theorem ascii_literal {p : Bytes → Prop} {chars : List Char}
    (h : p (chars.map fun c => c.toNat.toUInt8)) : p (ascii (String.ofList chars)) := by
  rw [ascii_ofList]
  exact h

/-- The byte of an ASCII character. -/
abbrev chr (c : Char) : UInt8 := c.toNat.toUInt8

/-- `std::isspace` in the C locale. -/
def isSpace (b : UInt8) : Bool := b == 32 || (9 ≤ b && b ≤ 13)

/-- `std::isdigit`. -/
def isDigit (b : UInt8) : Bool := 48 ≤ b && b ≤ 57

theorem isSpace_iff (b : UInt8) :
    isSpace b = true ↔ b.toNat = 32 ∨ 9 ≤ b.toNat ∧ b.toNat ≤ 13 := by
  simp [isSpace, ← UInt8.toNat_inj, UInt8.le_iff_toNat_le]

theorem isDigit_iff (b : UInt8) : isDigit b = true ↔ 48 ≤ b.toNat ∧ b.toNat ≤ 57 := by
  simp [isDigit, UInt8.le_iff_toNat_le]

/-! ## Decimal numerals -/

/-- Decimal digits of `n`, most significant first, as `std::to_string`
prints an unsigned integer. -/
def decimal (n : Nat) : Bytes := (Nat.toDigits 10 n).map fun c => c.toNat.toUInt8

/-- A number below `10 ^ k` prints in at most `k` digits. -/
theorem decimal_length_le {n k : Nat} (hk : 0 < k) (hn : n < 10 ^ k) :
    (decimal n).length ≤ k := by
  rw [decimal, List.length_map]
  exact (Nat.length_toDigits_le_iff (by decide) hk).2 hn

/-- The number a run of decimal digits denotes. -/
def digitsValue (digits : Bytes) : Nat :=
  digits.foldl (fun value b => value * 10 + (b.toNat - 48)) 0

theorem decimal_ne_nil (n : Nat) : decimal n ≠ [] := by
  simp [decimal]

/-- A number prints as its last digit behind the rest of its digits. -/
theorem decimal_eq (n : Nat) :
    decimal n = if n < 10 then [(48 + n).toUInt8]
      else decimal (n / 10) ++ [(48 + n % 10).toUInt8] := by
  split
  · rename_i h
    rw [decimal, Nat.toDigits_of_lt_base h, List.map_singleton, Nat.toNat_digitChar_of_lt_ten h]
  · rename_i h
    have hDigit : n % 10 < 10 := Nat.mod_lt _ (by decide)
    rw [decimal, Nat.toDigits_of_base_le (by decide) (by omega), List.map_append,
      List.map_singleton, Nat.toNat_digitChar_of_lt_ten hDigit]
    rfl

private theorem toNat_digit {d : Nat} (h : d < 10) : ((48 + d).toUInt8).toNat = 48 + d := by
  simp only [Nat.toUInt8_eq, UInt8.toNat_ofNat']
  omega

theorem isDigit_of_mem_decimal (n : Nat) : ∀ b ∈ decimal n, isDigit b = true := by
  induction n using Nat.strongRecOn with
  | ind n ih =>
      have hDigit : ∀ d < 10, isDigit (48 + d).toUInt8 = true := by
        intro d hd
        rw [isDigit_iff, toNat_digit hd]
        omega
      intro b hMem
      rw [decimal_eq] at hMem
      split at hMem
      · rename_i h
        rw [List.mem_singleton.mp hMem]
        exact hDigit n h
      · rename_i h
        rcases List.mem_append.mp hMem with hInit | hLast
        · exact ih (n / 10) (by omega) b hInit
        · rw [List.mem_singleton.mp hLast]
          exact hDigit _ (Nat.mod_lt _ (by decide))

/-- Reading a printed number returns it. -/
theorem digitsValue_decimal (n : Nat) : digitsValue (decimal n) = n := by
  induction n using Nat.strongRecOn with
  | ind n ih =>
      rw [decimal_eq]
      split
      · rename_i h
        simp only [digitsValue, List.foldl_cons, List.foldl_nil, toNat_digit h]
        omega
      · rename_i h
        have hInit : digitsValue (decimal (n / 10)) = n / 10 := ih _ (by omega)
        have hDigit : n % 10 < 10 := Nat.mod_lt _ (by decide)
        rw [digitsValue] at hInit ⊢
        rw [List.foldl_append, hInit]
        simp only [List.foldl_cons, List.foldl_nil, toNat_digit hDigit]
        omega

/-- `std::to_string` of a `std::uint64_t` argument.  The argument type reduces
the value modulo `2 ^ 64`. -/
def toStringU64 (n : Nat) : Bytes := decimal (n % 2 ^ 64)

theorem toStringU64_length_le (n : Nat) : (toStringU64 n).length ≤ 20 := by
  have hlt : n % 2 ^ 64 < 2 ^ 64 := Nat.mod_lt _ (by decide)
  exact decimal_length_le (by decide) (by omega)

/-! ## Network-order integers -/

/-- The four bytes `memcpy` reads from `htonl(n)`: most significant first. -/
def be32 (n : Nat) : Bytes :=
  [(n / 2 ^ 24).toUInt8, (n / 2 ^ 16).toUInt8, (n / 2 ^ 8).toUInt8, n.toUInt8]

/-- `ntohl` of the first four bytes of a buffer; shorter buffers read as `0`. -/
def readBE32 : Bytes → Nat
  | a :: b :: c :: d :: _ =>
      a.toNat * 2 ^ 24 + b.toNat * 2 ^ 16 + c.toNat * 2 ^ 8 + d.toNat
  | _ => 0

@[simp] theorem be32_length (n : Nat) : (be32 n).length = 4 := rfl

/-- Reading a written header returns the value, for every value that fits the
four bytes. -/
theorem readBE32_be32_append {n : Nat} (hn : n < 2 ^ 32) (rest : Bytes) :
    readBE32 (be32 n ++ rest) = n := by
  simp only [be32, readBE32, List.cons_append, List.nil_append,
    Nat.toUInt8_eq, UInt8.toNat_ofNat']
  omega

private theorem toUInt8_toNat_of_eq {a : UInt8} {n : Nat} (h : n % 256 = a.toNat) :
    n.toUInt8 = a := by
  apply UInt8.toNat_inj.mp
  simpa [Nat.toUInt8_eq, UInt8.toNat_ofNat'] using h

/-- The first four bytes of a buffer are the header of the value they read
as, so a decoded header re-encodes to itself. -/
theorem be32_readBE32 {buf : Bytes} (h : 4 ≤ buf.length) :
    be32 (readBE32 buf) = buf.take 4 := by
  match buf, h with
  | a :: b :: c :: d :: rest, _ =>
      have ha := a.toNat_lt
      have hb := b.toNat_lt
      have hc := c.toNat_lt
      have hd := d.toNat_lt
      simp only [be32, readBE32, List.take_succ_cons, List.take_zero,
        List.cons.injEq, and_true]
      refine ⟨?_, ?_, ?_, ?_⟩ <;> exact toUInt8_toNat_of_eq (by omega)

end CppChat.Verified
