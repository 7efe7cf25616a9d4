import CppChat.Verified.Bytes

/-!
# UTF-8 byte strings

The bytes of a text are the encodings of its characters, one after the other.
The encoding itself is the one of the standard library; what the ports need of
it is where the ASCII bytes come from: a character below 128 is its own byte,
and no other character has a byte below 128.  A scanner that looks for ASCII
bytes may therefore run over an encoded text without decoding it.

## Main results

* `utf8EncodeChar_ascii`, `utf8EncodeChar_high`: the bytes of one character.
* `isUtf8_of_ascii`: ASCII bytes are encoded text.
-/

namespace CppChat.Verified

/-- The bytes of a text. -/
def utf8 (text : List Char) : Bytes := text.flatMap String.utf8EncodeChar

/-- The bytes are those of some text. -/
def IsUtf8 (bytes : Bytes) : Prop := ∃ text, bytes = utf8 text

theorem utf8_cons (c : Char) (text : List Char) :
    utf8 (c :: text) = String.utf8EncodeChar c ++ utf8 text := List.flatMap_cons

theorem utf8EncodeChar_ascii {c : Char} (h : c.toNat < 128) :
    String.utf8EncodeChar c = [c.toNat.toUInt8] := by
  have hSmall : c.val.toNat ≤ 127 := Nat.le_of_lt_succ h
  simp only [String.utf8EncodeChar, if_pos hSmall]
  rfl

/-- No byte of another character is an ASCII byte. -/
theorem utf8EncodeChar_high {c : Char} (h : 128 ≤ c.toNat) :
    ∀ b ∈ String.utf8EncodeChar c, 128 ≤ b.toNat := by
  have hLarge : ¬c.val.toNat ≤ 127 := Nat.not_le.mpr h
  intro b hMem
  simp only [String.utf8EncodeChar, if_neg hLarge] at hMem
  split at hMem
  · simp only [List.mem_cons, List.not_mem_nil, or_false] at hMem
    rcases hMem with rfl | rfl <;> simp only [UInt8.toNat_ofNat'] <;> omega
  · split at hMem
    · simp only [List.mem_cons, List.not_mem_nil, or_false] at hMem
      rcases hMem with rfl | rfl | rfl <;> simp only [UInt8.toNat_ofNat'] <;> omega
    · simp only [List.mem_cons, List.not_mem_nil, or_false] at hMem
      rcases hMem with rfl | rfl | rfl | rfl <;> simp only [UInt8.toNat_ofNat'] <;> omega

theorem utf8EncodeChar_ne_nil (c : Char) : String.utf8EncodeChar c ≠ [] := by
  intro hNil
  have hLength := String.length_utf8EncodeChar c
  have hSize := c.utf8Size_pos
  rw [hNil, List.length_nil] at hLength
  omega

/-- A byte below 128 is the encoding of a character. -/
theorem exists_char_of_ascii {b : UInt8} (h : b.toNat < 128) :
    ∃ c : Char, c.toNat = b.toNat ∧ String.utf8EncodeChar c = [b] := by
  have hNat : (Char.ofNat b.toNat).toNat = b.toNat := by
    have hValid : b.toNat.isValidChar := Or.inl (by omega)
    rw [Char.ofNat, dif_pos hValid]
    rfl
  refine ⟨Char.ofNat b.toNat, hNat, ?_⟩
  rw [utf8EncodeChar_ascii (by omega), hNat]
  simp

theorem isUtf8_of_ascii {bytes : Bytes} (h : ∀ b ∈ bytes, b.toNat < 128) : IsUtf8 bytes := by
  induction bytes with
  | nil => exact ⟨[], rfl⟩
  | cons b bytes ih =>
      obtain ⟨hFirst, hRest⟩ := List.forall_mem_cons.mp h
      obtain ⟨c, -, hChar⟩ := exists_char_of_ascii hFirst
      obtain ⟨text, rfl⟩ := ih hRest
      exact ⟨c :: text, by rw [utf8_cons, hChar]; rfl⟩

/-- No control characters, and nothing but ASCII. -/
def PrintableAscii (text : Bytes) : Prop := ∀ b ∈ text, 32 ≤ b.toNat ∧ b.toNat < 128

instance (text : Bytes) : Decidable (PrintableAscii text) :=
  List.decidableBAll (fun b : UInt8 => 32 ≤ b.toNat ∧ b.toNat < 128) text

theorem PrintableAscii.append {front text : Bytes} (hFront : PrintableAscii front)
    (h : PrintableAscii text) : PrintableAscii (front ++ text) :=
  List.forall_mem_append.mpr ⟨hFront, h⟩

theorem PrintableAscii.isUtf8 {text : Bytes} (h : PrintableAscii text) : IsUtf8 text :=
  isUtf8_of_ascii fun b hMem => (h b hMem).2

/-- A printed number is printable. -/
theorem printableAscii_decimal (n : Nat) : PrintableAscii (decimal n) := by
  intro b hMem
  have hDigit := (isDigit_iff b).mp (isDigit_of_mem_decimal n b hMem)
  omega

end CppChat.Verified
