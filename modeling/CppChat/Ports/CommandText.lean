import CppChat.Ports.ProtocolMessage
import CppChat.Verified.UnorderedMap

/-!
# Writing commands

The parser reads back what a client writes.  A client writes an object as a
list of members; a member whose texts have neither a quote nor a backslash
needs no escaping, whatever other bytes it has, raw control characters
included.

## Main results

* `parseMembers_stringMember`: one round of the member loop on a written member.
* `parseClientCommand_dmLine`: the command a written `dm` stands for.
-/

namespace CppChat.Ports.Protocol

open CppChat.Verified

/-- A text that is written as it is. -/
def Plain (text : Bytes) : Prop := ∀ b ∈ text, b ≠ quote ∧ b ≠ backslash

instance (text : Bytes) : Decidable (Plain text) :=
  List.decidableBAll (fun b => b ≠ quote ∧ b ≠ backslash) text

/-- `"key":"value"`. -/
def stringMember (key value : Bytes) : Bytes :=
  quote :: (key ++ quote :: chr ':' :: quote :: (value ++ [quote]))

/-- A plain text reads as itself. -/
theorem parseStringTail_plain {text : Bytes} (h : Plain text) (rest : Bytes) :
    parseStringTail (text ++ quote :: rest) = .ok (text, rest) := by
  induction text with
  | nil => rw [List.nil_append, parseStringTail.eq_def]; rfl
  | cons b text ih =>
      obtain ⟨hFirst, hRest⟩ := List.forall_mem_cons.mp h
      have hTail := ih hRest
      rw [List.cons_append, parseStringTail.eq_def]
      simp only [if_neg hFirst.1, if_pos hFirst.2, hTail]

theorem skipWs_cons {b : UInt8} (h : isSpace b = false) (rest : Bytes) :
    skipWs (b :: rest) = b :: rest := by
  simp [skipWs, h]

theorem parseString_plain {text : Bytes} (h : Plain text) (rest : Bytes) :
    parseString (quote :: (text ++ quote :: rest)) = .ok (text, rest) := by
  rw [parseString, skipWs_cons (by decide)]
  exact parseStringTail_plain h rest

theorem expectChar_cons {b : UInt8} (h : isSpace b = false) (rest : Bytes) :
    expectChar b (b :: rest) = .ok rest := by
  rw [expectChar, skipWs_cons h]
  simp

/-- One round of the member loop: read a member, then go on behind a comma or
end behind a brace. -/
theorem parseMembers_stringMember {key value : Bytes} (hKey : Plain key)
    (hValue : Plain value) {b : UInt8} (hb : isSpace b = false) (fuel : Nat) (rest : Bytes)
    (object : JsonObject) :
    parseMembers (fuel + 1) (stringMember key value ++ b :: rest) object =
      if b = chr ',' then parseMembers fuel rest (object.insert key (.string value))
      else if b = 125 then parseEnd rest (object.insert key (.string value))
      else .error (ascii "malformed json object") := by
  have hText : stringMember key value ++ b :: rest =
      quote :: (key ++ quote :: (chr ':' :: quote :: (value ++ quote :: b :: rest))) := by
    simp [stringMember]
  have hColon : expectChar (chr ':') (chr ':' :: quote :: (value ++ quote :: b :: rest)) =
      .ok (quote :: (value ++ quote :: b :: rest)) := expectChar_cons (by decide) _
  have hParse : parseValue quote (quote :: (value ++ quote :: b :: rest)) =
      .ok (.string value, b :: rest) := by
    rw [parseValue, if_pos rfl, parseString_plain hValue]
  have hSkip : skipWs (quote :: (value ++ quote :: b :: rest)) =
      quote :: (value ++ quote :: b :: rest) := skipWs_cons (by decide) _
  rw [hText, parseMembers, parseString_plain hKey]
  simp only [bind, Except.bind, hColon, hSkip, hParse, skipWs_cons hb]

/-! ## Objects of string members -/

/-- The members of an object, with the closing brace. -/
def membersText : List (Bytes × Bytes) → Bytes
  | [] => [125]
  | [(key, value)] => stringMember key value ++ [125]
  | (key, value) :: member :: rest =>
      stringMember key value ++ chr ',' :: membersText (member :: rest)

/-- The text of an object with the given members. -/
def objectText (members : List (Bytes × Bytes)) : Bytes := 123 :: membersText members

/-- The object the members denote; a later member replaces an earlier one. -/
def objectOf (members : List (Bytes × Bytes)) (object : JsonObject) : JsonObject :=
  members.foldl (fun object member => object.insert member.1 (.string member.2)) object

/-- Every key and value of the members is plain. -/
def PlainMembers (members : List (Bytes × Bytes)) : Prop :=
  ∀ member ∈ members, Plain member.1 ∧ Plain member.2

/-- The member loop reads back what was written. -/
theorem parseMembers_membersText {members : List (Bytes × Bytes)} (hNe : members ≠ [])
    (h : PlainMembers members) :
    ∀ (fuel : Nat) (object : JsonObject), members.length ≤ fuel →
      parseMembers fuel (membersText members) object = .ok (objectOf members object) := by
  fun_induction membersText members with
  | case1 => contradiction
  | case2 key value =>
      intro fuel object hFuel
      obtain ⟨hKey, hValue⟩ := h (key, value) (List.mem_singleton_self _)
      obtain ⟨fuel, rfl⟩ : ∃ k, fuel = k + 1 := ⟨fuel - 1, by simp at hFuel; omega⟩
      rw [parseMembers_stringMember hKey hValue (by decide)]
      rfl
  | case3 key value member rest ih =>
      intro fuel object hFuel
      obtain ⟨hFirst, hRest⟩ := List.forall_mem_cons.mp h
      obtain ⟨fuel, rfl⟩ : ∃ k, fuel = k + 1 := ⟨fuel - 1, by simp at hFuel; omega⟩
      rw [parseMembers_stringMember hFirst.1 hFirst.2 (by decide), if_pos rfl]
      exact ih (by simp) hRest fuel _ (by simpa using hFuel)

theorem membersText_length_le (members : List (Bytes × Bytes)) :
    members.length ≤ (membersText members).length := by
  fun_induction membersText members with
  | case1 => simp
  | case2 key value => simp
  | case3 key value member rest ih =>
      simp only [List.length_cons, List.length_append] at ih ⊢
      omega

theorem membersText_head {members : List (Bytes × Bytes)} (hNe : members ≠ []) :
    ∃ rest, membersText members = quote :: rest := by
  fun_cases membersText members with
  | case1 => contradiction
  | case2 key value => exact ⟨_, rfl⟩
  | case3 key value member rest => exact ⟨_, rfl⟩

/-- The parser reads a written object back. -/
theorem parseJsonObject_objectText {members : List (Bytes × Bytes)} (hNe : members ≠ [])
    (h : PlainMembers members) :
    parseJsonObject (objectText members) = .ok (objectOf members ∅) := by
  obtain ⟨rest, hHead⟩ := membersText_head hNe
  have hBrace : expectChar 123 (objectText members) = .ok (membersText members) :=
    expectChar_cons (by decide) _
  have hSkip : skipWs (membersText members) = membersText members := by
    rw [hHead]
    exact skipWs_cons (by decide) rest
  have hFuel : members.length ≤ (objectText members).length := by
    have hLe := membersText_length_le members
    rw [objectText, List.length_cons]
    omega
  have hMembers := parseMembers_membersText hNe h (objectText members).length ∅ hFuel
  rw [parseJsonObject, hBrace]
  simp only [bind, Except.bind, hSkip]
  rw [hHead] at hMembers ⊢
  simp only [if_neg (show ¬quote = 125 by decide)]
  exact hMembers

theorem membersText_getLast (members : List (Bytes × Bytes)) :
    (membersText members).getLast? = some 125 := by
  fun_induction membersText members with
  | case1 => rfl
  | case2 key value => exact List.getLast?_concat
  | case3 key value member rest ih =>
      rw [List.getLast?_append, List.getLast?_cons, ih]
      rfl

/-- A written object ends in a brace, so nothing is trimmed. -/
theorem parseClientCommand_objectText {members : List (Bytes × Bytes)} (hNe : members ≠ [])
    (h : PlainMembers members) :
    parseClientCommand (objectText members) = commandOf (objectOf members ∅) := by
  have hLast : (objectText members).getLast? = some 125 := by
    rw [objectText, List.getLast?_cons, membersText_getLast]
    rfl
  rw [parseClientCommand, trimTrailingCr, hLast, if_neg (by decide),
    parseJsonObject_objectText hNe h]
  rfl

/-! ## A direct message -/

/-- The payload of a `dm` request. -/
def dmLine (target body : Bytes) : Bytes :=
  objectText [(ascii "type", ascii "dm"), (ascii "to", target), (ascii "body", body)]

/-- What a `dm` request takes besides its two texts. -/
theorem dmLine_length (target body : Bytes) :
    (dmLine target body).length = 31 + target.length + body.length := by
  simp [dmLine, objectText, membersText, stringMember, ascii]
  omega

/-- The command of an object with the members of a `dm`. -/
theorem commandOf_dm {object : JsonObject} {target body : Bytes}
    (hType : object.lookup (ascii "type") = some (.string (ascii "dm")))
    (hTo : object.lookup (ascii "to") = some (.string target))
    (hText : object.lookup (ascii "body") = some (.string body)) (hTargetNe : target ≠ [])
    (hBodyNe : body ≠ []) :
    commandOf object = .ok { type := .directChat, targetUsername := target, body := body } := by
  have hGiven : (target.isEmpty || body.isEmpty) = false := by
    simp [hTargetNe, hBodyNe]
  rw [commandOf, getString, hType]
  simp only [bind, Except.bind, getString, hTo, hText, hGiven]
  rfl

/-- A `dm` request is parsed to what it was written from. -/
theorem parseClientCommand_dmLine {target body : Bytes} (hTarget : Plain target)
    (hBody : Plain body) (hTargetNe : target ≠ []) (hBodyNe : body ≠ []) :
    parseClientCommand (dmLine target body) =
      .ok { type := .directChat, targetUsername := target, body := body } := by
  have hPlain : PlainMembers
      [(ascii "type", ascii "dm"), (ascii "to", target), (ascii "body", body)] := by
    have hKeys : Plain (ascii "type") ∧ Plain (ascii "dm") ∧ Plain (ascii "to") ∧
        Plain (ascii "body") :=
      ⟨ascii_literal (by decide), ascii_literal (by decide), ascii_literal (by decide),
        ascii_literal (by decide)⟩
    intro member hMem
    simp only [List.mem_cons, List.not_mem_nil, or_false] at hMem
    rcases hMem with hEq | hEq | hEq <;> rw [hEq]
    · exact ⟨hKeys.1, hKeys.2.1⟩
    · exact ⟨hKeys.2.2.1, hTarget⟩
    · exact ⟨hKeys.2.2.2, hBody⟩
  have hLookup : ∀ name, (objectOf
      [(ascii "type", ascii "dm"), (ascii "to", target), (ascii "body", body)] ∅).lookup name =
        if name = ascii "body" then some (.string body)
        else if name = ascii "to" then some (.string target)
        else if name = ascii "type" then some (.string (ascii "dm")) else none := by
    intro name
    simp only [objectOf, List.foldl_cons, List.foldl_nil, UnorderedMap.lookup_insert,
      AList.lookup_empty]
  rw [dmLine, parseClientCommand_objectText (by simp) hPlain]
  apply commandOf_dm _ _ _ hTargetNe hBodyNe
  · rw [hLookup]
    rfl
  · rw [hLookup]
    rfl
  · rw [hLookup]
    rfl

end CppChat.Ports.Protocol
