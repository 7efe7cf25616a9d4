import Mathlib.Data.List.Induction
import Mathlib.Data.List.TakeWhile
import CppChat.Ports.CommandText

/-!
# The grammar of requests

The reader of requests accepts a flat JSON object.  This module writes the
grammar down, without a word about positions or exceptions, and identifies the
reader with it: `parse_json_object` returns normally exactly on the texts of the
grammar, with the members of the text stored in their order.

A member is `ws string ws : ws value ws`.  Inside a string a backslash takes one
of six bytes with it, and every other byte but a quote stands for itself.  A
number is a run of digits below `2 ^ 64`, and the reader takes the longest run:
behind a value comes a blank, a comma or a brace, so that this is no choice.

## Main results

* `parseStringTail_sound`, `parseStringTail_complete`, `parseString_iff`: strings.
* `parseValue_sound`, `parseValue_complete`: values.
* `parseMembers_sound`, `parseMembers_complete`: the member loop, for any fuel and
  for enough of it.
* `parser_grammar`: the reader and the grammar, and what a command depends on.
-/

namespace CppChat.Ports.Protocol

open CppChat.Verified

/-! ## The grammar -/

/-- A run of blanks. -/
def Blank (ws : Bytes) : Prop := ∀ b ∈ ws, isSpace b = true

/-- The text between the quotes of a string, and the bytes it stands for. -/
inductive StringBody : Bytes → Bytes → Prop
  | nil : StringBody [] []
  | plain {b : UInt8} {text value : Bytes} (hQuote : b ≠ quote) (hBackslash : b ≠ backslash)
      (h : StringBody text value) : StringBody (b :: text) (b :: value)
  | escape {b c : UInt8} {text value : Bytes} (hEscape : unescape b = some c)
      (h : StringBody text value) : StringBody (backslash :: b :: text) (c :: value)

/-- `true` or `false`. -/
def boolText (value : Bool) : Bytes := if value then ascii "true" else ascii "false"

/-- A string, a number or a truth value. -/
inductive ValueText : Bytes → JsonValue → Prop
  | string {text value : Bytes} (h : StringBody text value) :
      ValueText (quote :: (text ++ [quote])) (.string value)
  | number {digits : Bytes} (hNe : digits ≠ []) (hDigits : ∀ b ∈ digits, isDigit b = true)
      (hRange : digitsValue digits < 2 ^ 64) :
      ValueText digits (.number (digitsValue digits))
  | bool (value : Bool) : ValueText (boolText value) (.bool value)

/-- A key and a value, with the blanks around them. -/
inductive MemberText : Bytes → Bytes × JsonValue → Prop
  | mk {before key name beforeColon afterColon text after : Bytes} {value : JsonValue}
      (hBefore : Blank before) (hKey : StringBody key name) (hBeforeColon : Blank beforeColon)
      (hAfterColon : Blank afterColon) (hValue : ValueText text value) (hAfter : Blank after) :
      MemberText (before ++ quote :: (key ++ quote :: (beforeColon ++ chr ':' ::
        (afterColon ++ (text ++ after))))) (name, value)

/-- Members with commas between them. -/
inductive MembersText : Bytes → List (Bytes × JsonValue) → Prop
  | last {text : Bytes} {member : Bytes × JsonValue} (h : MemberText text member) :
      MembersText text [member]
  | more {text rest : Bytes} {member : Bytes × JsonValue} {members : List (Bytes × JsonValue)}
      (h : MemberText text member) (hRest : MembersText rest members) :
      MembersText (text ++ chr ',' :: rest) (member :: members)

/-- An object with its members. -/
inductive ObjectText : Bytes → List (Bytes × JsonValue) → Prop
  | empty {before inside after : Bytes} (hBefore : Blank before) (hInside : Blank inside)
      (hAfter : Blank after) :
      ObjectText (before ++ 123 :: (inside ++ 125 :: after)) []
  | members {before text after : Bytes} {members : List (Bytes × JsonValue)}
      (hBefore : Blank before) (h : MembersText text members) (hAfter : Blank after) :
      ObjectText (before ++ 123 :: (text ++ 125 :: after)) members

/-- The value of the last member with this key. -/
def lastValue (members : List (Bytes × JsonValue)) (key : Bytes) : Option JsonValue :=
  (members.reverse.find? fun member => member.1 == key).map Prod.snd

/-- Store the members in their order. -/
def storeMembers (members : List (Bytes × JsonValue)) (object : JsonObject) : JsonObject :=
  members.foldl (fun object member => object.insert member.1 member.2) object

/-- Of several members with one name the last counts. -/
theorem lookup_storeMembers (members : List (Bytes × JsonValue)) :
    ∀ (object : JsonObject) (key : Bytes), (storeMembers members object).lookup key =
      (lastValue members key).or (object.lookup key) := by
  induction members using List.reverseRecOn with
  | nil => intro object key; rfl
  | append_singleton members member ih =>
      intro object key
      have hStore : storeMembers (members ++ [member]) object =
          (storeMembers members object).insert member.1 member.2 := by
        simp [storeMembers]
      rw [hStore, UnorderedMap.lookup_insert, ih]
      by_cases hKey : key = member.1
      · simp [lastValue, hKey]
      · have hNe : (member.1 == key) = false := by simpa using fun h => hKey h.symm
        simp [lastValue, hKey, hNe]

/-! ## Blanks -/

/-- Blanks in front are skipped. -/
theorem skipWs_append {ws : Bytes} (h : Blank ws) (rest : Bytes) :
    skipWs (ws ++ rest) = skipWs rest := by
  induction ws with
  | nil => rfl
  | cons b ws ih =>
      obtain ⟨hFirst, hRest⟩ := List.forall_mem_cons.mp h
      simp only [skipWs, List.cons_append, List.dropWhile_cons, hFirst, if_true]
      exact ih hRest

/-- What is skipped is blank, and what is left does not start with a blank. -/
theorem skipWs_split (input : Bytes) :
    ∃ ws, Blank ws ∧ input = ws ++ skipWs input := by
  refine ⟨input.takeWhile isSpace, ?_, List.takeWhile_append_dropWhile.symm⟩
  exact fun b hMem => List.mem_takeWhile_imp hMem

theorem skipWs_blank {ws : Bytes} (h : Blank ws) : skipWs ws = [] := by
  have hAll := skipWs_append h []
  simpa [skipWs] using hAll

theorem skipWs_blank_cons {ws : Bytes} (h : Blank ws) {b : UInt8} (hb : isSpace b = false)
    (rest : Bytes) : skipWs (ws ++ b :: rest) = b :: rest := by
  rw [skipWs_append h, skipWs_cons hb]

theorem isSpace_of_skipWs {input rest : Bytes} {b : UInt8} (h : skipWs input = b :: rest) :
    isSpace b = false := by
  have hHead := List.head?_dropWhile_not isSpace input
  rw [show input.dropWhile isSpace = b :: rest from h] at hHead
  simpa using hHead

/-- Skipping twice is skipping once. -/
theorem skipWs_skipWs (input : Bytes) : skipWs (skipWs input) = skipWs input := by
  obtain ⟨ws, hBlank, hSplit⟩ := skipWs_split input
  have hSkip := skipWs_append hBlank (skipWs input)
  rw [← hSplit] at hSkip
  exact hSkip.symm

/-- The expected character, behind blanks. -/
theorem expectChar_iff {expected : UInt8} (hExpected : isSpace expected = false)
    (input rest : Bytes) :
    expectChar expected input = .ok rest ↔
      ∃ ws, Blank ws ∧ input = ws ++ expected :: rest := by
  constructor
  · intro h
    obtain ⟨ws, hBlank, hSplit⟩ := skipWs_split input
    rw [expectChar] at h
    split at h
    · contradiction
    · rename_i b left hSkip
      split at h
      · rename_i hEq
        injection h with hRest
        refine ⟨ws, hBlank, ?_⟩
        rw [hSplit, hSkip, hEq, hRest]
      · contradiction
  · rintro ⟨ws, hBlank, rfl⟩
    rw [expectChar, skipWs_blank_cons hBlank hExpected]
    simp

/-! ## Strings -/

/-- What the loop reads is a string body and its value. -/
theorem parseStringTail_sound (input : Bytes) :
    ∀ value rest, parseStringTail input = .ok (value, rest) →
      ∃ text, StringBody text value ∧ input = text ++ quote :: rest := by
  -- The cases are those of the loop: end of input, quote, plain byte, escape.
  fun_induction parseStringTail input with
  | case1 => intro value rest h; contradiction
  | case2 left =>
      intro value rest h
      injection h with hPair
      injection hPair with hValue hRest
      subst hValue hRest
      exact ⟨[], .nil, rfl⟩
  | case3 ch left hQuote hBackslash tailValue tailLeft hTail ih =>
      intro value rest h
      injection h with hPair
      injection hPair with hValue hRest
      subst hValue hRest
      obtain ⟨text, hBody, hSplit⟩ := ih _ _ hTail
      exact ⟨ch :: text, .plain hQuote hBackslash hBody, by rw [hSplit]; rfl⟩
  | case4 => intro value rest h; contradiction
  | case5 => intro value rest h; contradiction
  | case6 => intro value rest h; contradiction
  | case7 ch hQuote hBackslash escaped left b hEscape tailValue tailLeft hTail ih =>
      intro value rest h
      injection h with hPair
      injection hPair with hValue hRest
      subst hValue hRest
      obtain ⟨text, hBody, hSplit⟩ := ih _ _ hTail
      have hCh : ch = backslash := by simpa using hBackslash
      refine ⟨backslash :: escaped :: text, .escape hEscape hBody, ?_⟩
      rw [hSplit, hCh]
      rfl
  | case8 => intro value rest h; contradiction

/-- Every string body is read to its end. -/
theorem parseStringTail_complete {text value : Bytes} (h : StringBody text value)
    (rest : Bytes) : parseStringTail (text ++ quote :: rest) = .ok (value, rest) := by
  induction h with
  | nil => rw [List.nil_append, parseStringTail.eq_def]; rfl
  | plain hQuote hBackslash _ ih =>
      rw [List.cons_append, parseStringTail.eq_def]
      simp only [if_neg hQuote, if_pos hBackslash, ih]
  | escape hEscape _ ih =>
      rw [List.cons_append, List.cons_append, parseStringTail.eq_def]
      simp only [if_neg (show ¬backslash = quote by decide), ne_eq, not_true_eq_false,
        if_false, hEscape, ih]

/-- Strings are read as the grammar has them. -/
theorem parseString_iff (input value rest : Bytes) :
    parseString input = .ok (value, rest) ↔
      ∃ ws text, Blank ws ∧ StringBody text value ∧
        input = ws ++ quote :: (text ++ quote :: rest) := by
  constructor
  · intro h
    obtain ⟨ws, hBlank, hSplit⟩ := skipWs_split input
    rw [parseString] at h
    split at h
    · contradiction
    · rename_i b left hSkip
      split at h
      · rename_i hQuote
        obtain ⟨text, hBody, hLeft⟩ := parseStringTail_sound left _ _ h
        refine ⟨ws, text, hBlank, hBody, ?_⟩
        rw [hSplit, hSkip, hQuote, hLeft]
      · contradiction
  · rintro ⟨ws, text, hBlank, hBody, rfl⟩
    rw [parseString, skipWs_blank_cons hBlank (by decide)]
    exact parseStringTail_complete hBody rest

/-! ## Values -/

/-- The input goes on with something that is no digit, or ends. -/
def NoDigit (rest : Bytes) : Prop := ∀ b ∈ rest.head?, isDigit b = false

theorem takeWhile_digits {digits rest : Bytes} (hDigits : ∀ b ∈ digits, isDigit b = true)
    (hRest : NoDigit rest) : (digits ++ rest).takeWhile isDigit = digits := by
  rw [List.takeWhile_append_of_pos hDigits]
  cases rest with
  | nil => simp
  | cons b rest => simp [hRest b rfl]

theorem dropWhile_digits {digits rest : Bytes} (hDigits : ∀ b ∈ digits, isDigit b = true)
    (hRest : NoDigit rest) : (digits ++ rest).dropWhile isDigit = rest := by
  rw [List.dropWhile_append_of_pos hDigits]
  cases rest with
  | nil => rfl
  | cons b rest => simp [hRest b rfl]

theorem not_isSpace_of_isDigit {b : UInt8} (h : isDigit b = true) : isSpace b = false := by
  rw [isDigit_iff] at h
  rw [← Bool.not_eq_true, isSpace_iff]
  omega

/-- A number that is read is in range. -/
theorem parseNumber_sound {input rest : Bytes} {n : Nat} (hSkip : skipWs input = input)
    (h : parseNumber input = .ok (n, rest)) :
    ∃ digits, digits ≠ [] ∧ (∀ b ∈ digits, isDigit b = true) ∧ digitsValue digits < 2 ^ 64 ∧
      n = digitsValue digits ∧ input = digits ++ rest := by
  simp only [parseNumber, hSkip, stoull] at h
  split at h
  · contradiction
  · rename_i hNe
    split at h
    · rename_i value hStoull
      split at hStoull
      · rename_i hRange
        injection hStoull with hValue
        injection h with hPair
        injection hPair with hN hRest
        refine ⟨input.takeWhile isDigit, by simpa using hNe, ?_, hRange, ?_, ?_⟩
        · exact fun b hMem => List.mem_takeWhile_imp hMem
        · rw [← hN, ← hValue]
        · rw [← hRest]
          exact List.takeWhile_append_dropWhile.symm
      · contradiction
    · contradiction

/-- Every number in range is read to its last digit. -/
theorem parseNumber_complete {digits rest : Bytes} (hNe : digits ≠ [])
    (hDigits : ∀ b ∈ digits, isDigit b = true) (hRange : digitsValue digits < 2 ^ 64)
    (hRest : NoDigit rest) :
    parseNumber (digits ++ rest) = .ok (digitsValue digits, rest) := by
  have hSkip : skipWs (digits ++ rest) = digits ++ rest := by
    cases digits with
    | nil => contradiction
    | cons b digits => exact skipWs_cons (not_isSpace_of_isDigit (hDigits b (by simp))) _
  have hEmpty : digits.isEmpty = false := by simpa using hNe
  simp only [parseNumber, hSkip, takeWhile_digits hDigits hRest, dropWhile_digits hDigits hRest,
    hEmpty, stoull, hRange, if_true]
  rfl

theorem boolText_head (value : Bool) :
    ∃ first tail, boolText value = first :: tail ∧ isSpace first = false ∧ first ≠ quote ∧
      isDigit first = false := by
  cases value with
  | true => exact ⟨chr 't', ascii "rue", by decide +kernel⟩
  | false => exact ⟨chr 'f', ascii "alse", by decide +kernel⟩

/-- What is read is the word of the value. -/
theorem parseBool_sound {input rest : Bytes} {value : Bool} (hSkip : skipWs input = input)
    (h : parseBool input = .ok (value, rest)) : input = boolText value ++ rest := by
  simp only [parseBool, hSkip] at h
  split at h
  · rename_i hTrue
    obtain ⟨tail, hTail⟩ := List.isPrefixOf_iff_prefix.mp hTrue
    injection h with hPair
    injection hPair with hValue hRest
    subst hValue hRest
    rw [← hTail]
    rfl
  · split at h
    · rename_i hFalse
      obtain ⟨tail, hTail⟩ := List.isPrefixOf_iff_prefix.mp hFalse
      injection h with hPair
      injection hPair with hValue hRest
      subst hValue hRest
      rw [← hTail]
      rfl
    · contradiction

theorem parseBool_complete (value : Bool) (rest : Bytes) :
    parseBool (boolText value ++ rest) = .ok (value, rest) := by
  obtain ⟨first, tail, hHead, hSpace, -⟩ := boolText_head value
  have hSkip : skipWs (boolText value ++ rest) = boolText value ++ rest := by
    rw [hHead]
    exact skipWs_cons hSpace _
  simp only [parseBool, hSkip]
  cases value <;> rfl

/-- What is read is a value of the grammar. -/
theorem parseValue_sound {first : UInt8} {input rest : Bytes} {value : JsonValue}
    (hSpace : isSpace first = false)
    (h : parseValue first (first :: input) = .ok (value, rest)) :
    ∃ text, ValueText text value ∧ first :: input = text ++ rest := by
  have hSkip : skipWs (first :: input) = first :: input := skipWs_cons hSpace input
  rw [parseValue] at h
  split at h
  · -- a string
    rename_i hQuote
    split at h
    · rename_i body left hString
      injection h with hPair
      injection hPair with hValue hRest
      subst hValue hRest
      rw [parseString, hSkip] at hString
      simp only [if_pos hQuote] at hString
      obtain ⟨text, hBody, hSplit⟩ := parseStringTail_sound input _ _ hString
      refine ⟨quote :: (text ++ [quote]), .string hBody, ?_⟩
      rw [hQuote, hSplit]
      simp
    · contradiction
  · split at h
    · -- a number
      split at h
      · rename_i n left hNumber
        injection h with hPair
        injection hPair with hValue hRest
        subst hValue hRest
        obtain ⟨digits, hNe, hDigits, hRange, hN, hSplit⟩ := parseNumber_sound hSkip hNumber
        exact ⟨digits, hN ▸ .number hNe hDigits hRange, hSplit⟩
      · contradiction
    · split at h
      · -- a truth value
        split at h
        · rename_i b left hBool
          injection h with hPair
          injection hPair with hValue hRest
          subst hValue hRest
          exact ⟨boolText b, .bool b, parseBool_sound hSkip hBool⟩
        · contradiction
      · contradiction

/-- A value does not start with a blank. -/
theorem ValueText.head {text : Bytes} {value : JsonValue} (h : ValueText text value) :
    ∃ first tail, text = first :: tail ∧ isSpace first = false := by
  cases h with
  | string h => exact ⟨_, _, rfl, by decide⟩
  | number hNe hDigits hRange =>
      cases text with
      | nil => contradiction
      | cons b digits => exact ⟨b, digits, rfl, not_isSpace_of_isDigit (hDigits b (by simp))⟩
  | bool value =>
      obtain ⟨first, tail, hHead, hSpace, -⟩ := boolText_head value
      exact ⟨first, tail, hHead, hSpace⟩

/-- Every value of the grammar is read. -/
theorem parseValue_complete {text rest : Bytes} {value : JsonValue} (h : ValueText text value)
    (hRest : NoDigit rest) {first : UInt8} {tail : Bytes} (hText : text ++ rest = first :: tail) :
    parseValue first (first :: tail) = .ok (value, rest) := by
  cases h with
  | @string body value hBody =>
      have hSplit : first :: tail = quote :: (body ++ quote :: rest) := by
        rw [← hText]
        simp
      have hString : parseString (quote :: (body ++ quote :: rest)) = .ok (value, rest) :=
        (parseString_iff _ _ _).mpr ⟨[], body, by simp [Blank], hBody, rfl⟩
      have hFirst : first = quote := (List.cons.inj hSplit).1
      rw [parseValue, if_pos hFirst, hSplit, hString]
  | number hNe hDigits hRange =>
      have hFirst : isDigit first = true := by
        cases text with
        | nil => contradiction
        | cons b digits => exact (List.cons.inj hText).1 ▸ hDigits b (by simp)
      have hQuote : first ≠ quote := by
        intro hEq
        rw [hEq] at hFirst
        exact absurd hFirst (by decide)
      rw [parseValue, if_neg hQuote, if_pos hFirst, ← hText,
        parseNumber_complete hNe hDigits hRange hRest]
  | bool value =>
      obtain ⟨b, left, hHead, hSpace, hQuote, hDigit⟩ := boolText_head value
      have hFirst : b = first := by
        rw [hHead] at hText
        exact (List.cons.inj hText).1
      subst hFirst
      have hTest : ((ascii "true").isPrefixOf (boolText value ++ rest) ||
          (ascii "false").isPrefixOf (boolText value ++ rest)) = true := by
        cases value <;> rfl
      rw [parseValue, if_neg hQuote, if_neg (by simp [hDigit]), ← hText, if_pos hTest,
        parseBool_complete]

/-! ## Members -/

theorem bind_eq_ok {ε α β : Type} {x : Except ε α} {f : α → Except ε β} {b : β}
    (h : x >>= f = .ok b) : ∃ a, x = .ok a ∧ f a = .ok b := by
  cases x with
  | error e => contradiction
  | ok a => exact ⟨a, rfl, h⟩

/-- What one round of the member loop reads: a member of the grammar, then a
comma behind which the loop goes on, or the brace that ends the object. -/
theorem parseMembers_succ {fuel : Nat} {input : Bytes} {object result : JsonObject}
    (h : parseMembers (fuel + 1) input object = .ok result) :
    ∃ text key value left, MemberText text (key, value) ∧
      (input = text ++ chr ',' :: left ∧
          parseMembers fuel left (object.insert key value) = .ok result ∨
        input = text ++ 125 :: left ∧ parseEnd left (object.insert key value) = .ok result) := by
  rw [parseMembers] at h
  obtain ⟨⟨key, afterKey⟩, hKey, h⟩ := bind_eq_ok h
  obtain ⟨afterColon, hColon, h⟩ := bind_eq_ok h
  obtain ⟨before, keyText, hBefore, hKeyBody, hInput⟩ := (parseString_iff _ _ _).mp hKey
  obtain ⟨beforeColon, hBeforeColon, hAfterKey⟩ := (expectChar_iff (by decide) _ _).mp hColon
  obtain ⟨blank, hBlank, hAfterColon⟩ := skipWs_split afterColon
  split at h
  · contradiction
  · rename_i first rest hSkip
    obtain ⟨⟨value, afterValue⟩, hValue, h⟩ := bind_eq_ok h
    obtain ⟨valueText, hValueText, hRest⟩ := parseValue_sound (isSpace_of_skipWs hSkip) hValue
    obtain ⟨after, hAfter, hAfterValue⟩ := skipWs_split afterValue
    have hMember : MemberText (before ++ quote :: (keyText ++ quote :: (beforeColon ++ chr ':' ::
        (blank ++ (valueText ++ after))))) (key, value) :=
      .mk hBefore hKeyBody hBeforeColon hBlank hValueText hAfter
    dsimp only at h
    split at h
    · contradiction
    · rename_i b left hSkipLeft
      have hSplit : input = (before ++ quote :: (keyText ++ quote :: (beforeColon ++ chr ':' ::
          (blank ++ (valueText ++ after))))) ++ b :: left := by
        rw [hInput, hAfterKey, hAfterColon, hSkip, hRest, hAfterValue, hSkipLeft]
        simp
      refine ⟨_, key, value, left, hMember, ?_⟩
      split at h
      · rename_i hComma
        exact .inl ⟨hComma ▸ hSplit, h⟩
      · split at h
        · rename_i hBrace
          exact .inr ⟨hBrace ▸ hSplit, h⟩
        · contradiction

/-- Blanks in front of a member do not matter. -/
theorem parseMembers_skipWs (fuel : Nat) (input : Bytes) (object : JsonObject) :
    parseMembers fuel (skipWs input) object = parseMembers fuel input object := by
  cases fuel with
  | zero => rfl
  | succ fuel =>
      have hKey : parseString (skipWs input) = parseString input := by
        rw [parseString, skipWs_skipWs, parseString]
      rw [parseMembers, hKey, parseMembers]

/-- Behind the object only blanks may follow. -/
theorem parseEnd_iff (input : Bytes) (object result : JsonObject) :
    parseEnd input object = .ok result ↔ Blank input ∧ result = object := by
  obtain ⟨ws, hBlank, hSplit⟩ := skipWs_split input
  rw [parseEnd]
  constructor
  · intro h
    split at h
    · rename_i hEmpty
      injection h with hResult
      have hAll : input = ws := by
        rw [hSplit, List.isEmpty_iff.mp hEmpty, List.append_nil]
      exact ⟨hAll ▸ hBlank, hResult.symm⟩
    · contradiction
  · rintro ⟨hInput, rfl⟩
    simp [skipWs_blank hInput]

/-- What the member loop reads is a list of members and the closing brace.  By
induction on the fuel. -/
theorem parseMembers_sound (fuel : Nat) : ∀ (input : Bytes) (object result : JsonObject),
    parseMembers fuel input object = .ok result →
      ∃ text members after, MembersText text members ∧ Blank after ∧
        input = text ++ 125 :: after ∧ result = storeMembers members object := by
  induction fuel with
  | zero => intro input object result h; contradiction
  | succ fuel ih =>
      intro input object result h
      obtain ⟨text, key, value, left, hMember, hNext | hEnd⟩ := parseMembers_succ h
      · obtain ⟨rest, members, after, hMembers, hAfter, hLeft, hResult⟩ := ih _ _ _ hNext.2
        refine ⟨_, (key, value) :: members, after, .more hMember hMembers, hAfter, ?_, hResult⟩
        rw [hNext.1, hLeft]
        simp
      · obtain ⟨hAfter, hResult⟩ := (parseEnd_iff _ _ _).mp hEnd.2
        exact ⟨text, [(key, value)], left, .last hMember, hAfter, hEnd.1, hResult⟩

/-- Blanks and the byte behind them are no digits. -/
theorem noDigit_blank {ws : Bytes} (h : Blank ws) {b : UInt8} (hb : isDigit b = false)
    (rest : Bytes) : NoDigit (ws ++ b :: rest) := by
  cases ws with
  | nil => exact fun c hc => Option.mem_some_iff.mp hc ▸ hb
  | cons w ws =>
      intro c hc
      have hSpace : isSpace c = true := Option.mem_some_iff.mp hc ▸ h w (by simp)
      by_contra hDigit
      rw [not_isSpace_of_isDigit (by simpa using hDigit)] at hSpace
      contradiction

/-- One round of the member loop. -/
theorem parseMembers_member {text : Bytes} {key : Bytes} {value : JsonValue}
    (h : MemberText text (key, value)) {b : UInt8} (hSpace : isSpace b = false)
    (hDigit : isDigit b = false) (fuel : Nat) (rest : Bytes) (object : JsonObject) :
    parseMembers (fuel + 1) (text ++ b :: rest) object =
      if b = chr ',' then parseMembers fuel rest (object.insert key value)
      else if b = 125 then parseEnd rest (object.insert key value)
      else .error (ascii "malformed json object") := by
  cases h with
  | @mk before keyText _ beforeColon afterColon valueText after _
      hBefore hKey hBeforeColon hAfterColon hValue hAfter =>
      have hKeyParse : parseString ((before ++ quote :: (keyText ++ quote :: (beforeColon ++
          chr ':' :: (afterColon ++ (valueText ++ after))))) ++ b :: rest) =
          .ok (key, beforeColon ++
            chr ':' :: (afterColon ++ (valueText ++ (after ++ b :: rest)))) :=
        (parseString_iff _ _ _).mpr ⟨before, keyText, hBefore, hKey, by simp⟩
      have hColon : expectChar (chr ':')
          (beforeColon ++ chr ':' :: (afterColon ++ (valueText ++ (after ++ b :: rest)))) =
          .ok (afterColon ++ (valueText ++ (after ++ b :: rest))) :=
        (expectChar_iff (by decide) _ _).mpr ⟨beforeColon, hBeforeColon, rfl⟩
      obtain ⟨first, tail, hHead, hFirst⟩ := hValue.head
      have hSkip : skipWs (afterColon ++ (valueText ++ (after ++ b :: rest))) =
          first :: (tail ++ (after ++ b :: rest)) := by
        rw [hHead]
        exact skipWs_blank_cons hAfterColon hFirst _
      have hValueParse : parseValue first (first :: (tail ++ (after ++ b :: rest))) =
          .ok (value, after ++ b :: rest) :=
        parseValue_complete hValue (noDigit_blank hAfter hDigit rest) (by rw [hHead]; rfl)
      rw [parseMembers, hKeyParse]
      simp only [bind, Except.bind, hColon, hSkip, hValueParse, skipWs_blank_cons hAfter hSpace]

/-- Every list of members is read, with fuel for each. -/
theorem parseMembers_complete {text : Bytes} {members : List (Bytes × JsonValue)}
    (h : MembersText text members) {after : Bytes} (hAfter : Blank after) :
    ∀ (fuel : Nat) (object : JsonObject), members.length ≤ fuel →
      parseMembers fuel (text ++ 125 :: after) object = .ok (storeMembers members object) := by
  induction h with
  | @last text member hMember =>
      intro fuel object hFuel
      obtain ⟨fuel, rfl⟩ : ∃ k, fuel = k + 1 := ⟨fuel - 1, by simp at hFuel; omega⟩
      rw [parseMembers_member hMember (by decide) (by decide), if_neg (by decide), if_pos rfl]
      exact (parseEnd_iff _ _ _).mpr ⟨hAfter, rfl⟩
  | @more text rest member members hMember hRest ih =>
      intro fuel object hFuel
      obtain ⟨fuel, rfl⟩ : ∃ k, fuel = k + 1 := ⟨fuel - 1, by simp at hFuel; omega⟩
      rw [List.append_assoc, List.cons_append,
        parseMembers_member hMember (by decide) (by decide), if_pos rfl]
      exact ih fuel _ (by simpa using hFuel)

theorem skipWs_length_le (input : Bytes) : (skipWs input).length ≤ input.length :=
  List.length_dropWhile_le isSpace input

/-- More fuel than bytes changes nothing. -/
theorem parseMembers_more_fuel (more : Nat) (fuel : Nat) :
    ∀ (input : Bytes) (object : JsonObject), input.length ≤ fuel →
      parseMembers (fuel + more) input object = parseMembers fuel input object := by
  induction fuel with
  | zero =>
      intro input object hLength
      have hNil : input = [] := List.eq_nil_of_length_eq_zero (by omega)
      rw [hNil]
      cases more <;> rfl
  | succ fuel ih =>
      intro input object hLength
      rw [Nat.add_right_comm, parseMembers, parseMembers]
      -- Both sides read the same member; only the call behind a comma differs.
      rcases hKey : parseString input with e | ⟨key, afterKey⟩
      · rfl
      obtain ⟨before, keyText, -, -, hInput⟩ := (parseString_iff _ _ _).mp hKey
      simp only [bind, Except.bind]
      rcases hColon : expectChar (chr ':') afterKey with e | afterColon
      · rfl
      obtain ⟨beforeColon, -, hAfterKey⟩ := (expectChar_iff (by decide) _ _).mp hColon
      dsimp only
      rcases hSkip : skipWs afterColon with _ | ⟨first, rest⟩
      · rfl
      dsimp only
      rcases hValue : parseValue first (first :: rest) with e | ⟨value, afterValue⟩
      · rfl
      obtain ⟨valueText, -, hRest⟩ := parseValue_sound (isSpace_of_skipWs hSkip) hValue
      dsimp only
      rcases hLeft : skipWs afterValue with _ | ⟨b, left⟩
      · rfl
      have hShort : left.length ≤ fuel := by
        have h₁ := congrArg List.length hInput
        have h₂ := congrArg List.length hAfterKey
        have h₃ := skipWs_length_le afterColon
        have h₄ := congrArg List.length hRest
        have h₅ := skipWs_length_le afterValue
        simp only [hSkip, hLeft, List.length_append, List.length_cons] at h₁ h₂ h₃ h₄ h₅
        omega
      simp only [ih left _ hShort]

/-- A round takes at least one byte, so that fuel beyond the length of the input
changes nothing: the loop ends by itself. -/
theorem parseMembers_fuel {fuel : Nat} {input : Bytes} (h : input.length ≤ fuel)
    (object : JsonObject) :
    parseMembers fuel input object = parseMembers input.length input object := by
  obtain ⟨more, rfl⟩ := Nat.exists_eq_add_of_le h
  exact parseMembers_more_fuel more input.length input object (le_refl _)

/-! ## Objects -/

theorem MemberText.head {text : Bytes} {member : Bytes × JsonValue} (h : MemberText text member) :
    ∃ ws tail, Blank ws ∧ text = ws ++ quote :: tail := by
  cases h with
  | mk hBefore hKey hBeforeColon hAfterColon hValue hAfter => exact ⟨_, _, hBefore, rfl⟩

theorem MembersText.head {text : Bytes} {members : List (Bytes × JsonValue)}
    (h : MembersText text members) : ∃ ws tail, Blank ws ∧ text = ws ++ quote :: tail := by
  cases h with
  | last hMember => exact hMember.head
  | more hMember hRest =>
      obtain ⟨ws, tail, hBlank, rfl⟩ := hMember.head
      exact ⟨ws, _, hBlank, by rw [List.append_assoc, List.cons_append]⟩

/-- Members take a byte at least. -/
theorem MembersText.length_le {text : Bytes} {members : List (Bytes × JsonValue)}
    (h : MembersText text members) : members.length ≤ text.length := by
  induction h with
  | last hMember =>
      obtain ⟨ws, tail, -, rfl⟩ := hMember.head
      simp only [List.length_append, List.length_cons, List.length_nil]
      omega
  | more hMember hRest ih =>
      simp only [List.length_cons, List.length_append]
      omega

/-- What is read is an object of the grammar. -/
theorem parseJsonObject_sound {line : Bytes} {object : JsonObject}
    (h : parseJsonObject line = .ok object) :
    ∃ members, ObjectText line members ∧ object = storeMembers members ∅ := by
  rw [parseJsonObject] at h
  obtain ⟨afterBrace, hBrace, h⟩ := bind_eq_ok h
  obtain ⟨before, hBefore, hLine⟩ := (expectChar_iff (by decide) _ _).mp hBrace
  obtain ⟨inside, hInside, hSplit⟩ := skipWs_split afterBrace
  split at h
  · obtain ⟨text, members, after, -, -, hNil, -⟩ := parseMembers_sound _ _ _ _ h
    simp at hNil
  · rename_i b rest hSkip
    split at h
    · rename_i hClose
      obtain ⟨hAfter, hObject⟩ := (parseEnd_iff _ _ _).mp h
      refine ⟨[], ?_, hObject⟩
      rw [hLine, hSplit, hSkip, hClose]
      exact .empty hBefore hInside hAfter
    · rw [← hSkip, parseMembers_skipWs] at h
      obtain ⟨text, members, after, hMembers, hAfter, hRest, hObject⟩ :=
        parseMembers_sound _ _ _ _ h
      refine ⟨members, ?_, hObject⟩
      rw [hLine, hRest]
      exact .members hBefore hMembers hAfter

/-- Every object of the grammar is read, with the fuel that `parse_json_object` has. -/
theorem parseJsonObject_complete {line : Bytes} {members : List (Bytes × JsonValue)}
    (h : ObjectText line members) :
    parseJsonObject line = .ok (storeMembers members ∅) := by
  cases h with
  | @empty before inside after hBefore hInside hAfter =>
      have hBrace : expectChar 123 (before ++ 123 :: (inside ++ 125 :: after)) =
          .ok (inside ++ 125 :: after) :=
        (expectChar_iff (by decide) _ _).mpr ⟨before, hBefore, rfl⟩
      rw [parseJsonObject, hBrace]
      simp only [bind, Except.bind, skipWs_blank_cons hInside (show isSpace 125 = false by decide)]
      exact (parseEnd_iff _ _ _).mpr ⟨hAfter, rfl⟩
  | @members before text after _ hBefore hMembers hAfter =>
      have hBrace : expectChar 123 (before ++ 123 :: (text ++ 125 :: after)) =
          .ok (text ++ 125 :: after) :=
        (expectChar_iff (by decide) _ _).mpr ⟨before, hBefore, rfl⟩
      obtain ⟨ws, tail, hBlank, hHead⟩ := hMembers.head
      have hSkip : skipWs (text ++ 125 :: after) = quote :: (tail ++ 125 :: after) := by
        rw [hHead, List.append_assoc, List.cons_append, skipWs_blank_cons hBlank (by decide)]
      have hLength := hMembers.length_le
      have hFuel : members.length ≤ (before ++ 123 :: (text ++ 125 :: after)).length := by
        simp only [List.length_append, List.length_cons]
        omega
      rw [parseJsonObject, hBrace]
      simp only [bind, Except.bind, hSkip, if_neg (show ¬quote = 125 by decide)]
      rw [← hSkip, parseMembers_skipWs]
      exact parseMembers_complete hMembers hAfter _ _ hFuel

/-! ## Commands -/

/-- The blanks behind an object are free. -/
theorem ObjectText.after_free {line : Bytes} {members : List (Bytes × JsonValue)}
    (h : ObjectText line members) :
    ∃ front after, Blank after ∧ line = front ++ 125 :: after ∧
      ∀ other, Blank other → ObjectText (front ++ 125 :: other) members := by
  cases h with
  | @empty before inside after hBefore hInside hAfter =>
      refine ⟨before ++ 123 :: inside, after, hAfter, by simp, ?_⟩
      intro other hOther
      rw [List.append_assoc, List.cons_append]
      exact .empty hBefore hInside hOther
  | @members before text after _ hBefore hMembers hAfter =>
      refine ⟨before ++ 123 :: text, after, hAfter, by simp, ?_⟩
      intro other hOther
      rw [List.append_assoc, List.cons_append]
      exact .members hBefore hMembers hOther

/-- A trailing carriage return is a blank behind the object, so that dropping it
leaves the members as they are. -/
theorem objectText_concat_cr (line : Bytes) (members : List (Bytes × JsonValue)) :
    ObjectText (line ++ [13]) members ↔ ObjectText line members := by
  constructor
  · intro h
    obtain ⟨front, after, hAfter, hLine, hFree⟩ := h.after_free
    cases after using List.reverseRecOn with
    | nil =>
        have hLast := (List.append_inj' hLine rfl).2
        contradiction
    | append_singleton after b =>
        rw [← List.cons_append, ← List.append_assoc] at hLine
        rw [(List.append_inj' hLine rfl).1]
        exact hFree after fun c hMem => hAfter c (by simp [hMem])
  · intro h
    obtain ⟨front, after, hAfter, rfl, hFree⟩ := h.after_free
    rw [List.append_assoc, List.cons_append]
    apply hFree
    intro b hMem
    rcases List.mem_append.mp hMem with hOld | hNew
    · exact hAfter b hOld
    · rw [List.mem_singleton.mp hNew]
      decide

theorem objectText_trimTrailingCr (line : Bytes) (members : List (Bytes × JsonValue)) :
    ObjectText (trimTrailingCr line) members ↔ ObjectText line members := by
  rw [trimTrailingCr]
  split
  · rename_i hLast
    obtain ⟨init, rfl⟩ := List.getLast?_eq_some_iff.mp hLast
    rw [List.dropLast_concat, objectText_concat_cr]
  · rfl

/-- The object of a text, and the reader's result, determine each other. -/
theorem parseJsonObject_iff (line : Bytes) (object : JsonObject) :
    parseJsonObject line = .ok object ↔
      ∃ members, ObjectText line members ∧ object = storeMembers members ∅ := by
  constructor
  · exact parseJsonObject_sound
  · rintro ⟨members, hText, rfl⟩
    exact parseJsonObject_complete hText

/-- A field has the value of the last member with its name. -/
theorem lookup_stored (members : List (Bytes × JsonValue)) (key : Bytes) :
    (storeMembers members ∅).lookup key = lastValue members key := by
  rw [lookup_storeMembers, AList.lookup_empty, Option.or_none]

/-- A command reads an object through its keys only. -/
theorem commandOf_congr {object other : JsonObject}
    (h : ∀ key, object.lookup key = other.lookup key) : commandOf object = commandOf other := by
  have hString : ∀ name, getString object name = getString other name := by
    intro name
    rw [getString, getString, h]
  have hNumber : ∀ name, getUint64 object name = getUint64 other name := by
    intro name
    rw [getUint64, getUint64, h]
  have hNumberOr : ∀ name default, getUint64Or object name default =
      getUint64Or other name default := by
    intro name default
    rw [getUint64Or, getUint64Or, h]
  simp only [commandOf, parseCredentials, parseGroupId, getLimit, hString, hNumber, hNumberOr]

theorem exists_error_of_not_ok {ε α : Type} {x : Except ε α} (h : ∀ a, x ≠ .ok a) :
    ∃ e, x = .error e := by
  cases x with
  | error e => exact ⟨e, rfl⟩
  | ok a => exact absurd rfl (h a)

theorem parseClientCommand_of_object {line : Bytes} {object : JsonObject}
    (h : parseJsonObject line = .ok object) : parseClientCommand line = commandOf object := by
  obtain ⟨members, hText, hObject⟩ := (parseJsonObject_iff _ _).mp h
  have hTrim : parseJsonObject (trimTrailingCr line) = .ok object :=
    (parseJsonObject_iff _ _).mpr ⟨members, (objectText_trimTrailingCr _ _).mpr hText, hObject⟩
  rw [parseClientCommand, hTrim]
  rfl

/-- The reader of requests is its grammar.  A text with a derivation is read, and
every key gets the value of its last member; a text that is read has a derivation; any
other text is refused with an error, by `parse_client_command` as well, which drops a
trailing carriage return first.  The member loop needs no more rounds than the text has
bytes.  The command depends on the object's keys and values only. -/
theorem parser_grammar (line : Bytes) :
    (∀ members, ObjectText line members → ∃ object, parseJsonObject line = .ok object ∧
      ∀ key, object.lookup key = lastValue members key) ∧
    (∀ object, parseJsonObject line = .ok object → ∃ members, ObjectText line members ∧
      ∀ key, object.lookup key = lastValue members key) ∧
    ((∀ members, ¬ObjectText line members) →
      (∃ e, parseJsonObject line = .error e) ∧ ∃ e, parseClientCommand line = .error e) ∧
    (∀ fuel object, line.length ≤ fuel →
      parseMembers fuel line object = parseMembers line.length line object) ∧
    ∀ other object otherObject, parseJsonObject line = .ok object →
      parseJsonObject other = .ok otherObject →
      (∀ key, object.lookup key = otherObject.lookup key) →
      parseClientCommand line = parseClientCommand other := by
  refine ⟨?_, ?_, ?_, ?_, ?_⟩
  · intro members hText
    exact ⟨_, parseJsonObject_complete hText, lookup_stored members⟩
  · intro object hObject
    obtain ⟨members, hText, rfl⟩ := parseJsonObject_sound hObject
    exact ⟨members, hText, lookup_stored members⟩
  · intro hNone
    constructor
    · apply exists_error_of_not_ok
      intro object hObject
      obtain ⟨members, hText, -⟩ := parseJsonObject_sound hObject
      exact hNone members hText
    · apply exists_error_of_not_ok
      intro command hCommand
      rw [parseClientCommand] at hCommand
      obtain ⟨object, hObject, -⟩ := bind_eq_ok hCommand
      obtain ⟨members, hText, -⟩ := parseJsonObject_sound hObject
      exact hNone members ((objectText_trimTrailingCr _ _).mp hText)
  · intro fuel object hFuel
    exact parseMembers_fuel hFuel object
  · intro other object otherObject hObject hOther hSame
    rw [parseClientCommand_of_object hObject, parseClientCommand_of_object hOther]
    exact commandOf_congr hSame

end CppChat.Ports.Protocol
