import CppChat.Verified.Utf8

/-!
# JSON texts

The grammar of RFC 8259 over bytes.  A text is encoded in UTF-8, so that the
unescaped characters of a string are the encodings of characters; everything else
is ASCII.  The three recursive parts of the grammar, values, members of objects and
elements of arrays, are one inductive relation with an index, which keeps a proof
about all texts a single induction.

## Main results

* `JsonText.printable`: a JSON text has no control bytes but tab, newline and carriage
  return.
* `numberText_decimal`: a printed number is a number of the grammar.
-/

namespace CppChat.Verified.Json

/-- `ws`. -/
def Ws (ws : Bytes) : Prop := ∀ b ∈ ws, b = 32 ∨ b = 9 ∨ b = 10 ∨ b = 13

/-- A hexadecimal digit. -/
def isHex (b : UInt8) : Bool :=
  isDigit b || (65 ≤ b && b ≤ 70) || (97 ≤ b && b ≤ 102)

/-- The bytes that may follow a backslash, the unicode escape apart. -/
def escapes : Bytes := ascii "\"\\/bfnrt"

theorem escapes_eq : escapes = [34, 92, 47, 98, 102, 110, 114, 116] := by
  rw [escapes, ascii_ofList]
  rfl

/-- What stands between the quotes of a string. -/
inductive Chars : Bytes → Prop
  | nil : Chars []
  | unescaped {c : Char} {rest : Bytes} (hControl : 32 ≤ c.toNat) (hQuote : c.toNat ≠ 34)
      (hBackslash : c.toNat ≠ 92) (h : Chars rest) : Chars (String.utf8EncodeChar c ++ rest)
  | escape {b : UInt8} {rest : Bytes} (hb : b ∈ escapes) (h : Chars rest) :
      Chars (92 :: b :: rest)
  | unicode {digits rest : Bytes} (hLength : digits.length = 4)
      (hHex : ∀ b ∈ digits, isHex b = true) (h : Chars rest) :
      Chars (92 :: 117 :: (digits ++ rest))

/-- A text of decimal digits. -/
def Digits (digits : Bytes) : Prop := ∀ b ∈ digits, isDigit b = true

/-- `int`: no leading zero. -/
inductive IntText : Bytes → Prop
  | zero : IntText [48]
  | positive {first : UInt8} {rest : Bytes} (hFirst : isDigit first = true)
      (hZero : first ≠ 48) (hRest : Digits rest) : IntText (first :: rest)

/-- `frac`, which may be absent. -/
inductive FracText : Bytes → Prop
  | none : FracText []
  | some {digits : Bytes} (hNe : digits ≠ []) (hDigits : Digits digits) :
      FracText (46 :: digits)

/-- `exp`, which may be absent. -/
inductive ExpText : Bytes → Prop
  | none : ExpText []
  | some {e : UInt8} {sign digits : Bytes} (hE : e = 69 ∨ e = 101)
      (hSign : sign = [] ∨ sign = [43] ∨ sign = [45]) (hNe : digits ≠ [])
      (hDigits : Digits digits) : ExpText (e :: (sign ++ digits))

/-- `number`. -/
inductive NumberText : Bytes → Prop
  | mk {minus int frac exp : Bytes} (hMinus : minus = [] ∨ minus = [45]) (hInt : IntText int)
      (hFrac : FracText frac) (hExp : ExpText exp) : NumberText (minus ++ int ++ frac ++ exp)

/-- The three parts of the grammar that refer to each other. -/
inductive Part where
  | value
  | members
  | elements

/-- The texts of each part. -/
inductive Derives : Part → Bytes → Prop
  | null : Derives .value (ascii "null")
  | false : Derives .value (ascii "false")
  | true : Derives .value (ascii "true")
  | number {text : Bytes} (h : NumberText text) : Derives .value text
  | string {text : Bytes} (h : Chars text) : Derives .value (34 :: (text ++ [34]))
  | emptyObject {ws : Bytes} (h : Ws ws) : Derives .value (123 :: (ws ++ [125]))
  | object {text : Bytes} (h : Derives .members text) :
      Derives .value (123 :: (text ++ [125]))
  | emptyArray {ws : Bytes} (h : Ws ws) : Derives .value (91 :: (ws ++ [93]))
  | array {text : Bytes} (h : Derives .elements text) : Derives .value (91 :: (text ++ [93]))
  | member {before key beforeColon afterColon text after : Bytes} (hBefore : Ws before)
      (hKey : Chars key) (hBeforeColon : Ws beforeColon) (hAfterColon : Ws afterColon)
      (h : Derives .value text) (hAfter : Ws after) :
      Derives .members (before ++ 34 :: (key ++ 34 :: (beforeColon ++ 58 ::
        (afterColon ++ (text ++ after)))))
  | moreMembers {first rest : Bytes} (h : Derives .members first)
      (hRest : Derives .members rest) : Derives .members (first ++ 44 :: rest)
  | element {before text after : Bytes} (hBefore : Ws before) (h : Derives .value text)
      (hAfter : Ws after) : Derives .elements (before ++ (text ++ after))
  | moreElements {first rest : Bytes} (h : Derives .elements first)
      (hRest : Derives .elements rest) : Derives .elements (first ++ 44 :: rest)

/-- `JSON-text`: a value with blanks around it. -/
def JsonText (text : Bytes) : Prop :=
  ∃ before value after, Ws before ∧ Derives .value value ∧ Ws after ∧
    text = before ++ (value ++ after)

/-! ## Bytes of a text -/

/-- No control byte, the three of `ws` apart. -/
def Printable (b : UInt8) : Prop := 32 ≤ b.toNat ∨ b = 9 ∨ b = 10 ∨ b = 13

instance (b : UInt8) : Decidable (Printable b) := by
  unfold Printable
  infer_instance

theorem Ws.printable {ws : Bytes} (h : Ws ws) : ∀ b ∈ ws, Printable b := by
  intro b hMem
  rcases h b hMem with rfl | hRest
  · exact Or.inl (by decide)
  · exact Or.inr hRest

theorem Chars.printable {text : Bytes} (h : Chars text) : ∀ b ∈ text, Printable b := by
  induction h with
  | nil => simp
  | @unescaped c rest hControl hQuote hBackslash h ih =>
      intro b hMem
      rcases List.mem_append.mp hMem with hChar | hRest
      · by_cases hAscii : c.toNat < 128
        · rw [utf8EncodeChar_ascii hAscii, List.mem_singleton] at hChar
          refine Or.inl ?_
          rw [hChar, Nat.toUInt8_eq, UInt8.toNat_ofNat']
          omega
        · have hHigh := utf8EncodeChar_high (by omega) b hChar
          exact Or.inl (by omega)
      · exact ih b hRest
  | escape hb h ih =>
      have hEscapes : ∀ b ∈ escapes, Printable b := by simp [escapes_eq, Printable]
      simp only [List.forall_mem_cons]
      exact ⟨by decide, hEscapes _ hb, ih⟩
  | unicode hLength hHex h ih =>
      simp only [List.forall_mem_cons, List.forall_mem_append]
      refine ⟨by decide, by decide, ?_, ih⟩
      intro b hMem
      have hb := hHex b hMem
      simp [isHex, isDigit, UInt8.le_iff_toNat_le] at hb
      exact Or.inl (by omega)

theorem Digits.printable {digits : Bytes} (h : Digits digits) : ∀ b ∈ digits, Printable b := by
  intro b hMem
  have hb := (isDigit_iff b).mp (h b hMem)
  exact Or.inl (by omega)

theorem NumberText.printable {text : Bytes} (h : NumberText text) :
    ∀ b ∈ text, Printable b := by
  obtain ⟨hMinus, hInt, hFrac, hExp⟩ := h
  simp only [List.forall_mem_append]
  refine ⟨⟨⟨?_, ?_⟩, ?_⟩, ?_⟩
  · rcases hMinus with rfl | rfl <;> simp [Printable]
  · cases hInt with
    | zero => simp [Printable]
    | positive hFirst hZero hRest =>
        have hDigits : Digits (_ :: _) := List.forall_mem_cons.mpr ⟨hFirst, hRest⟩
        exact hDigits.printable
  · cases hFrac with
    | none => simp
    | some hNe hDigits =>
        exact List.forall_mem_cons.mpr ⟨by decide, hDigits.printable⟩
  · cases hExp with
    | none => simp
    | some hE hSign hNe hDigits =>
        simp only [List.forall_mem_cons, List.forall_mem_append]
        refine ⟨?_, ?_, hDigits.printable⟩
        · rcases hE with rfl | rfl <;> decide
        · rcases hSign with rfl | rfl | rfl <;> simp [Printable]

/-- Two printable bytes around a printable text. -/
theorem printable_enclosed {first last : UInt8} {text : Bytes} (hFirst : Printable first)
    (h : ∀ b ∈ text, Printable b) (hLast : Printable last) :
    ∀ b ∈ first :: (text ++ [last]), Printable b := by
  have hRest : ∀ b ∈ text ++ [last], Printable b :=
    List.forall_mem_append.mpr ⟨h, List.forall_mem_singleton.mpr hLast⟩
  exact List.forall_mem_cons.mpr ⟨hFirst, hRest⟩

/-- By induction on the derivation. -/
theorem Derives.printable {part : Part} {text : Bytes} (h : Derives part text) :
    ∀ b ∈ text, Printable b := by
  -- One case per production; a literal byte is decided, the rest is the induction.
  induction h with
  | null | false | true =>
      rw [ascii_ofList]
      simp [Printable]
  | number h => exact h.printable
  | string h => exact printable_enclosed (by decide) h.printable (by decide)
  | emptyObject h => exact printable_enclosed (by decide) h.printable (by decide)
  | object _ ih => exact printable_enclosed (by decide) ih (by decide)
  | emptyArray h => exact printable_enclosed (by decide) h.printable (by decide)
  | array _ ih => exact printable_enclosed (by decide) ih (by decide)
  | member hBefore hKey hBeforeColon hAfterColon _ hAfter ih =>
      simp only [List.forall_mem_cons, List.forall_mem_append]
      exact ⟨hBefore.printable, by decide, hKey.printable, by decide, hBeforeColon.printable,
        by decide, hAfterColon.printable, ih, hAfter.printable⟩
  | moreMembers _ _ ihFirst ihRest =>
      simp only [List.forall_mem_cons, List.forall_mem_append]
      exact ⟨ihFirst, by decide, ihRest⟩
  | element hBefore _ hAfter ih =>
      simp only [List.forall_mem_append]
      exact ⟨hBefore.printable, ih, hAfter.printable⟩
  | moreElements _ _ ihFirst ihRest =>
      simp only [List.forall_mem_cons, List.forall_mem_append]
      exact ⟨ihFirst, by decide, ihRest⟩

theorem JsonText.printable {text : Bytes} (h : JsonText text) : ∀ b ∈ text, Printable b := by
  obtain ⟨before, value, after, hBefore, hValue, hAfter, rfl⟩ := h
  simp only [List.forall_mem_append]
  exact ⟨hBefore.printable, hValue.printable, hAfter.printable⟩

/-! ## Printed numbers -/

/-- A printed number has no leading zero. -/
theorem intText_decimal (n : Nat) : IntText (decimal n) := by
  induction n using Nat.strongRecOn with
  | ind n ih =>
      rw [decimal_eq]
      split
      · rename_i hSmall
        by_cases hZero : n = 0
        · rw [hZero]
          exact .zero
        · have hNat : (48 + n).toUInt8.toNat = 48 + n := by
            simp only [Nat.toUInt8_eq, UInt8.toNat_ofNat']
            omega
          refine .positive ?_ ?_ (by simp [Digits])
          · rw [isDigit_iff, hNat]
            omega
          · intro hEq
            rw [hEq] at hNat
            have hLit : (48 : UInt8).toNat = 48 := rfl
            omega
      · rename_i hLarge
        have hDigits := isDigit_of_mem_decimal n
        rw [decimal_eq, if_neg hLarge, List.forall_mem_append] at hDigits
        -- The digits in front are those of a positive number.
        have hFront : IntText (decimal (n / 10)) := ih _ (by omega)
        generalize hText : decimal (n / 10) = text at hFront hDigits ⊢
        cases hFront with
        | zero =>
            have hValue := digitsValue_decimal (n / 10)
            rw [hText, show digitsValue [48] = 0 from rfl] at hValue
            omega
        | positive hFirst hZero hRest =>
            refine .positive hFirst hZero ?_
            exact List.forall_mem_append.mpr ⟨hRest, hDigits.2⟩

/-- A number in decimal is a number of the grammar. -/
theorem numberText_decimal (n : Nat) : NumberText (decimal n) := by
  have hNumber := NumberText.mk (Or.inl rfl) (intText_decimal n) .none .none
  simpa using hNumber

end CppChat.Verified.Json
