import CppChat.Verified.Utf8
import CppChat.Ports.ReplyText
import CppChat.Ports.UserStore

/-!
# What the Python client writes

The client of the repository writes a request with `json.dumps`, with
`ensure_ascii=False` and without blanks.  Strings are quoted; a quote, a
backslash and the characters below `U+0020` are written as escapes, and
everything else as UTF-8.  Five of the escapes are among the six the server
reads.  The others, `\b`, `\f` and `\u00xx`, stand for the remaining control
characters, and `parse_string` refuses them as unsupported.

## Main results

* `stringBody_dumps`: what the client writes for readable characters stands for them.
* `parseStringTail_dumps_error`: an unreadable character stops the server's reader.
* `client_server_agree`: which requests of the client the server understands.
-/

namespace CppChat.Ports.Protocol

open CppChat.Verified
open CppChat.Ports.Users (hexDigit)

/-! ## The encoder -/

/-- The output of one character under `json.dumps` with `ensure_ascii=False`. -/
def dumpsChar (c : Char) : Bytes :=
  if c.toNat = 34 then [backslash, quote]
  else if c.toNat = 92 then [backslash, backslash]
  else if c.toNat = 10 then [backslash, chr 'n']
  else if c.toNat = 13 then [backslash, chr 'r']
  else if c.toNat = 9 then [backslash, chr 't']
  else if c.toNat = 8 then [backslash, chr 'b']
  else if c.toNat = 12 then [backslash, chr 'f']
  else if c.toNat < 32 then
    [backslash, chr 'u', chr '0', chr '0', hexDigit (c.toNat / 16), hexDigit (c.toNat % 16)]
  else String.utf8EncodeChar c

/-- What stands between the quotes of a string. -/
def dumpsBody (text : List Char) : Bytes := text.flatMap dumpsChar

/-- `"key":"value"`, with the separators of `send_packet`. -/
def dumpsMember (key : Bytes) (value : String) : Bytes :=
  quote :: (key ++ quote :: chr ':' :: quote :: (dumpsBody value.toList ++ [quote]))

/-- The payload of `send_packet` for a `dm`. -/
def dmPayload (target body : String) : Bytes :=
  123 :: (stringMember (ascii "type") (ascii "dm") ++ chr ',' ::
    (dumpsMember (ascii "to") target ++ chr ',' :: (dumpsMember (ascii "body") body ++ [125])))

/-! ## Characters -/

/-- A character the server can read: not below `U+0020`, or one of the three
control characters with an escape both sides know. -/
def Readable (c : Char) : Prop := 32 ≤ c.toNat ∨ c.toNat = 9 ∨ c.toNat = 10 ∨ c.toNat = 13

instance (c : Char) : Decidable (Readable c) := by
  unfold Readable
  infer_instance

/-- Readable texts are recognised character by character. -/
theorem readable_iff_all {text : List Char} :
    (∀ c ∈ text, Readable c) ↔ text.all (fun c => decide (Readable c)) = true := by
  simp

/-- Two texts one behind the other denote the two values one behind the other. -/
theorem stringBody_append {front frontValue : Bytes} (hFront : StringBody front frontValue)
    {text value : Bytes} (h : StringBody text value) :
    StringBody (front ++ text) (frontValue ++ value) := by
  induction hFront with
  | nil => exact h
  | plain hQuote hBackslash _ ih => exact .plain hQuote hBackslash ih
  | escape hEscape _ ih => exact .escape hEscape ih

/-- The bytes of a character without an escape have neither a quote nor a
backslash. -/
theorem plain_utf8EncodeChar {c : Char} (hQuote : c.toNat ≠ 34) (hBackslash : c.toNat ≠ 92) :
    Plain (String.utf8EncodeChar c) := by
  intro b hMem
  have hNat : b.toNat ≠ 34 ∧ b.toNat ≠ 92 := by
    by_cases hAscii : c.toNat < 128
    · rw [utf8EncodeChar_ascii hAscii, List.mem_singleton] at hMem
      rw [hMem, Nat.toUInt8_eq, UInt8.toNat_ofNat']
      omega
    · have hHigh := utf8EncodeChar_high (by omega) b hMem
      omega
  constructor
  · intro hEq
    exact hNat.1 (by rw [hEq]; rfl)
  · intro hEq
    exact hNat.2 (by rw [hEq]; rfl)

theorem stringBody_escape {b d : UInt8} {c : Char} (hEscape : unescape b = some d)
    (hAscii : c.toNat < 128) (hChar : c.toNat.toUInt8 = d) :
    StringBody [backslash, b] (String.utf8EncodeChar c) := by
  rw [utf8EncodeChar_ascii hAscii, hChar]
  exact .escape hEscape .nil

/-- A readable character reads back, escaped or not. -/
theorem stringBody_dumpsChar {c : Char} (h : Readable c) :
    StringBody (dumpsChar c) (String.utf8EncodeChar c) := by
  rw [Readable] at h
  fun_cases dumpsChar c with
  | case1 hc => exact stringBody_escape (d := quote) (by decide) (by omega) (by rw [hc]; rfl)
  | case2 _ hc => exact stringBody_escape (d := backslash) (by decide) (by omega) (by rw [hc]; rfl)
  | case3 _ _ hc => exact stringBody_escape (d := 10) (by decide) (by omega) (by rw [hc]; rfl)
  | case4 _ _ _ hc => exact stringBody_escape (d := 13) (by decide) (by omega) (by rw [hc]; rfl)
  | case5 _ _ _ _ hc => exact stringBody_escape (d := 9) (by decide) (by omega) (by rw [hc]; rfl)
  | case6 => omega
  | case7 => omega
  | case8 => omega
  | case9 hQuote hBackslash =>
      exact stringBody_plain (plain_utf8EncodeChar hQuote hBackslash)

theorem stringBody_dumps {text : List Char} (h : ∀ c ∈ text, Readable c) :
    StringBody (dumpsBody text) (utf8 text) := by
  induction text with
  | nil => exact .nil
  | cons c text ih =>
      obtain ⟨hFirst, hRest⟩ := List.forall_mem_cons.mp h
      rw [dumpsBody, List.flatMap_cons, utf8_cons]
      exact stringBody_append (stringBody_dumpsChar hFirst) (ih hRest)

/-! ## Refused escapes -/

theorem dumpsChar_unreadable {c : Char} (h : ¬Readable c) :
    ∃ b tail, dumpsChar c = backslash :: b :: tail ∧ unescape b = none := by
  rw [Readable] at h
  fun_cases dumpsChar c with
  | case1 => omega
  | case2 => omega
  | case3 => omega
  | case4 => omega
  | case5 => omega
  | case6 => exact ⟨_, _, rfl, by decide⟩
  | case7 => exact ⟨_, _, rfl, by decide⟩
  | case8 => exact ⟨_, _, rfl, by decide⟩
  | case9 => omega

/-- What the reader has behind it does not change how it fails. -/
theorem parseStringTail_append_error {front value : Bytes} (h : StringBody front value)
    {rest e : Bytes} (hRest : parseStringTail rest = .error e) :
    parseStringTail (front ++ rest) = .error e := by
  induction h with
  | nil => exact hRest
  | plain hQuote hBackslash _ ih =>
      rw [List.cons_append, parseStringTail.eq_def]
      simp only [if_neg hQuote, if_pos hBackslash, ih]
  | escape hEscape _ ih =>
      rw [List.cons_append, List.cons_append, parseStringTail.eq_def]
      simp only [if_neg (show ¬backslash = quote by decide), ne_eq, not_true_eq_false,
        if_false, hEscape, ih]

/-- The reader stops at the first character it cannot read. -/
theorem parseStringTail_dumps_error {text : List Char} (h : ∃ c ∈ text, ¬Readable c)
    (rest : Bytes) :
    parseStringTail (dumpsBody text ++ rest) = .error (ascii "unsupported json escape") := by
  induction text with
  | nil => simp at h
  | cons c text ih =>
      rw [dumpsBody, List.flatMap_cons, List.append_assoc]
      by_cases hc : Readable c
      · have hLater : ∃ c ∈ text, ¬Readable c := by simpa [hc] using h
        exact parseStringTail_append_error (stringBody_dumpsChar hc) (ih hLater)
      · obtain ⟨b, tail, hChar, hEscape⟩ := dumpsChar_unreadable hc
        rw [hChar, List.cons_append, List.cons_append, parseStringTail.eq_def]
        simp only [if_neg (show ¬backslash = quote by decide), ne_eq, not_true_eq_false,
          if_false, hEscape]

/-- A member whose value is refused ends the loop. -/
theorem parseMembers_value_error {key input e : Bytes} (hKey : Plain key)
    (h : parseStringTail input = .error e) (fuel : Nat) (object : JsonObject) :
    parseMembers (fuel + 1) (quote :: (key ++ quote :: chr ':' :: quote :: input)) object =
      .error e := by
  have hColon : expectChar (chr ':') (chr ':' :: quote :: input) = .ok (quote :: input) :=
    expectChar_cons (by decide) _
  have hSkip : skipWs (quote :: input) = quote :: input := skipWs_cons (by decide) input
  have hValue : parseValue quote (quote :: input) = .error e := by
    rw [parseValue, if_pos rfl, parseString, hSkip]
    simp only [if_true, h]
  rw [parseMembers, parseString_plain hKey]
  simp only [bind, Except.bind, hColon, hSkip, hValue]

/-! ## Requests -/

theorem memberText_dumps {key : Bytes} (hKey : Plain key) {value : String}
    (h : ∀ c ∈ value.toList, Readable c) :
    MemberText (dumpsMember key value) (key, .string (utf8 value.toList)) :=
  memberText_plain hKey (.string (stringBody_dumps h))

theorem memberText_type : MemberText (stringMember (ascii "type") (ascii "dm"))
    (ascii "type", .string (ascii "dm")) := by
  have hKey : Plain (ascii "type") := ascii_literal (by decide)
  have hValue : Plain (ascii "dm") := ascii_literal (by decide)
  exact memberText_plain hKey (.string (stringBody_plain hValue))

/-- The payload of readable texts is an object with the three members. -/
theorem objectText_dmPayload {target body : String} (hTarget : ∀ c ∈ target.toList, Readable c)
    (hBody : ∀ c ∈ body.toList, Readable c) :
    ObjectText (dmPayload target body)
      [(ascii "type", .string (ascii "dm")), (ascii "to", .string (utf8 target.toList)),
        (ascii "body", .string (utf8 body.toList))] := by
  have hTo : Plain (ascii "to") := ascii_literal (by decide)
  have hText : Plain (ascii "body") := ascii_literal (by decide)
  have hBlank : Blank [] := by simp [Blank]
  have hObject := ObjectText.members hBlank (.more memberText_type
    (.more (memberText_dumps hTo hTarget) (.last (memberText_dumps hText hBody)))) hBlank
  simpa [dmPayload] using hObject

theorem utf8_ne_nil {text : String} (h : text ≠ "") : utf8 text.toList ≠ [] := by
  cases hText : text.toList with
  | nil => exact absurd (String.toList_eq_nil_iff.mp hText) h
  | cons c rest =>
      rw [utf8_cons]
      exact List.append_ne_nil_of_left_ne_nil (utf8EncodeChar_ne_nil c) _

/-- A message of readable characters reaches the server as it was typed. -/
theorem dmPayload_accepted {target body : String} (hTargetNe : target ≠ "")
    (hBodyNe : body ≠ "") (hTarget : ∀ c ∈ target.toList, Readable c)
    (hBody : ∀ c ∈ body.toList, Readable c) :
    parseClientCommand (dmPayload target body) =
      .ok { type := .directChat, targetUsername := utf8 target.toList,
            body := utf8 body.toList } := by
  have hParse := parseJsonObject_complete (objectText_dmPayload hTarget hBody)
  rw [parseClientCommand_of_object hParse]
  apply commandOf_dm _ _ _ (utf8_ne_nil hTargetNe) (utf8_ne_nil hBodyNe)
  · rw [lookup_stored]
    rfl
  · rw [lookup_stored]
    rfl
  · rw [lookup_stored]
    rfl

/-- Reading the payload up to the two texts: the type is a member like any other. -/
theorem parseClientCommand_dmPayload_error {target body : String} {e : Bytes}
    (h : ∀ fuel object, 2 ≤ fuel → parseMembers fuel (dumpsMember (ascii "to") target ++
      chr ',' :: (dumpsMember (ascii "body") body ++ [125])) object = .error e) :
    parseClientCommand (dmPayload target body) = .error e := by
  have hLast : (dmPayload target body).getLast? = some 125 := by
    have hSplit : dmPayload target body = (123 :: (stringMember (ascii "type") (ascii "dm") ++
        chr ',' :: (dumpsMember (ascii "to") target ++ chr ',' ::
          dumpsMember (ascii "body") body))) ++ [125] := by
      simp [dmPayload]
    rw [hSplit]
    exact List.getLast?_concat
  have hBrace : expectChar 123 (dmPayload target body) = .ok _ := expectChar_cons (by decide) _
  have hSkip : ∀ rest, skipWs (stringMember (ascii "type") (ascii "dm") ++ rest) =
      quote :: (ascii "type\":\"dm\"" ++ rest) := fun rest => skipWs_cons (by decide) _
  have hLong : 3 ≤ (dmPayload target body).length := by
    rw [dmPayload]
    simp [stringMember]
    omega
  obtain ⟨fuel, hFuel⟩ : ∃ fuel, (dmPayload target body).length = fuel + 1 ∧ 2 ≤ fuel :=
    ⟨(dmPayload target body).length - 1, by omega⟩
  rw [parseClientCommand, trimTrailingCr, hLast, if_neg (by decide), parseJsonObject, hBrace]
  simp only [bind, Except.bind, hSkip, if_neg (show ¬quote = 125 by decide)]
  rw [← hSkip, parseMembers_skipWs, hFuel.1,
    parseMembers_member memberText_type (by decide) (by decide), if_pos rfl, h fuel _ hFuel.2]

theorem parseMembers_dumps_error {key : Bytes} (hKey : Plain key) {value : String}
    (h : ∃ c ∈ value.toList, ¬Readable c) {fuel : Nat} (hFuel : 1 ≤ fuel) (rest : Bytes)
    (object : JsonObject) :
    parseMembers fuel (dumpsMember key value ++ rest) object =
      .error (ascii "unsupported json escape") := by
  obtain ⟨fuel, rfl⟩ : ∃ k, fuel = k + 1 := ⟨fuel - 1, by omega⟩
  have hText : dumpsMember key value ++ rest =
      quote :: (key ++ quote :: chr ':' :: quote :: (dumpsBody value.toList ++ quote :: rest)) := by
    simp [dumpsMember]
  rw [hText]
  exact parseMembers_value_error hKey (parseStringTail_dumps_error h _) fuel object

/-- A message with another character is refused as a whole. -/
theorem dmPayload_refused {target body : String}
    (h : ¬∀ c ∈ target.toList ++ body.toList, Readable c) :
    parseClientCommand (dmPayload target body) = .error (ascii "unsupported json escape") := by
  have hTo : Plain (ascii "to") := ascii_literal (by decide)
  have hText : Plain (ascii "body") := ascii_literal (by decide)
  apply parseClientCommand_dmPayload_error
  intro fuel object hFuel
  by_cases hTarget : ∀ c ∈ target.toList, Readable c
  · have hBody : ∃ c ∈ body.toList, ¬Readable c := by
      by_contra hNone
      push Not at hNone
      exact h (List.forall_mem_append.mpr ⟨hTarget, hNone⟩)
    obtain ⟨fuel, rfl⟩ : ∃ k, fuel = k + 1 := ⟨fuel - 1, by omega⟩
    rw [parseMembers_member (memberText_dumps hTo hTarget) (by decide) (by decide), if_pos rfl]
    exact parseMembers_dumps_error hText hBody (by omega) _ _
  · push Not at hTarget
    exact parseMembers_dumps_error hTo hTarget (by omega) _ _

/-- A `dm` of the client, for any texts.  If all their characters are readable, the server
understands it, with the bytes of the two texts; if one is not, the server refuses the
request and names the escape. -/
theorem client_server_agree (target body : String) (hTarget : target ≠ "") (hBody : body ≠ "") :
    ((∀ c ∈ target.toList ++ body.toList, Readable c) →
      parseClientCommand (dmPayload target body) =
        .ok { type := .directChat, targetUsername := utf8 target.toList,
              body := utf8 body.toList }) ∧
    ((¬∀ c ∈ target.toList ++ body.toList, Readable c) →
      parseClientCommand (dmPayload target body) =
        .error (ascii "unsupported json escape")) := by
  constructor
  · intro h
    obtain ⟨hTo, hText⟩ := List.forall_mem_append.mp h
    exact dmPayload_accepted hTarget hBody hTo hText
  · exact dmPayload_refused

/-- Bob gets a text with a quote, a tab, a newline and an umlaut. -/
theorem client_server_agree_tab :
    parseClientCommand (dmPayload "bob" "a\"\tü\n") =
      .ok { type := .directChat, targetUsername := ascii "bob",
            body := [97, 34, 9, 195, 188, 10] } := by
  have hAgree := client_server_agree "bob" "a\"\tü\n" (by decide) (by decide)
  exact hAgree.1 (readable_iff_all.mpr (by decide))

/-- A backspace is written as `\b`, which the server does not read. -/
theorem client_server_backspace :
    ¬∀ target body : String, target ≠ "" → body ≠ "" →
      parseClientCommand (dmPayload target body) =
        .ok { type := .directChat, targetUsername := utf8 target.toList,
              body := utf8 body.toList } := by
  intro h
  have hOk := h "bob" "\x08" (by decide) (by decide)
  have hError : parseClientCommand (dmPayload "bob" "\x08") =
      .error (ascii "unsupported json escape") :=
    dmPayload_refused (mt readable_iff_all.mp (by decide))
  rw [hError] at hOk
  contradiction

end CppChat.Ports.Protocol
