import Mathlib.Data.List.Nodup
import Mathlib.Data.List.Forall2
import CppChat.Verified.Utf8
import CppChat.Ports.JsonGrammar

/-!
# Reading replies back

The replies of the server are texts of the request grammar, so that the reader of
requests can be run on them.  It gives back exactly the fields the formatter was
called with: no content of one field shows up as another field, as an end of the
object, or as a second value of a key.

A formatter writes its type, then its fields in a fixed order.  Keys are literals;
strings pass through `escape_json`, whose outputs are bodies of strings of the
grammar and stand for the bytes that were escaped.

## Main results

* `stringBody_escapeJson`: what `escape_json` writes stands for its argument.
* `Response.data_eq`: every reply is its type and its members, written in order.
* `Response.objectText`: a reply is an object with the members `Response.fields`.
* `formatter_parser_inverse`: the reader gives back the fields of every reply.
-/

namespace CppChat.Ports.Protocol

open CppChat.Verified

/-! ## The formatters without a page -/

/-- `format_history_item` without a message id and a time. -/
def formatHistoryItemShort (chatType fromName toName body : Bytes) : Bytes :=
  formatFields (ascii "history_item")
    [jsonStringField (ascii "chat_type") chatType,
      jsonStringField (ascii "from") fromName,
      jsonStringField (ascii "to") toName,
      jsonStringField (ascii "body") body]

/-- `format_history_end` without arguments. -/
def formatHistoryEndShort : Bytes := formatFields (ascii "history_end") []

/-! ## Escaping -/

/-- An escaped byte reads back as that byte. -/
theorem stringBody_escapeByte (b : UInt8) {text value : Bytes} (h : StringBody text value) :
    StringBody (escapeByte b ++ text) (b :: value) := by
  fun_cases escapeByte b with
  | case1 hQuote => exact .escape (by rw [hQuote]; decide) h
  | case2 _ hBackslash => exact .escape (by rw [hBackslash]; decide) h
  | case3 _ _ hNewline => exact .escape (by rw [hNewline]; decide) h
  | case4 _ _ _ hReturn => exact .escape (by rw [hReturn]; decide) h
  | case5 _ _ _ _ hTab => exact .escape (by rw [hTab]; decide) h
  | case6 hQuote hBackslash => exact .plain hQuote hBackslash h

/-- An escaped text stands for the text. -/
theorem stringBody_escapeJson (value : Bytes) : StringBody (escapeJson value) value := by
  induction value with
  | nil => exact .nil
  | cons b value ih =>
      rw [escapeJson, List.flatMap_cons]
      exact stringBody_escapeByte b ih

theorem stringBody_plain {text : Bytes} (h : Plain text) : StringBody text text := by
  induction text with
  | nil => exact .nil
  | cons b text ih =>
      obtain ⟨hFirst, hRest⟩ := List.forall_mem_cons.mp h
      exact .plain hFirst.1 hFirst.2 (ih hRest)

/-! ## Fields -/

/-- A key that is a literal, a colon and a value, without blanks. -/
theorem memberText_plain {name text : Bytes} {value : JsonValue} (hName : Plain name)
    (hValue : ValueText text value) :
    MemberText (quote :: (name ++ quote :: chr ':' :: text)) (name, value) := by
  have hBlank : Blank [] := by simp [Blank]
  have hMember := MemberText.mk hBlank (stringBody_plain hName) hBlank hBlank hValue hBlank
  simpa using hMember

/-- A string field reads back. -/
theorem memberText_string {name : Bytes} (hName : Plain name) (value : Bytes) :
    MemberText (jsonStringField name value) (name, .string value) := by
  have hMember := memberText_plain hName (.string (stringBody_escapeJson value))
  simpa [jsonStringField, ascii, quote] using hMember

/-- A number field reads back modulo `2 ^ 64`. -/
theorem memberText_number {name : Bytes} (hName : Plain name) (value : Nat) :
    MemberText (jsonNumberField name value) (name, .number (value % 2 ^ 64)) := by
  have hValue := digitsValue_decimal (value % 2 ^ 64)
  have hRange : value % 2 ^ 64 < 2 ^ 64 := Nat.mod_lt _ (by decide)
  have hNumber := ValueText.number (decimal_ne_nil (value % 2 ^ 64))
    (isDigit_of_mem_decimal _) (by rw [hValue]; exact hRange)
  rw [hValue] at hNumber
  have hMember := memberText_plain hName hNumber
  simpa [jsonNumberField, toStringU64, ascii, quote] using hMember

theorem memberText_bool {name : Bytes} (hName : Plain name) (value : Bool) :
    MemberText (jsonBoolField name value) (name, .bool value) := by
  have hMember := memberText_plain hName (.bool value)
  simpa [jsonBoolField, boolText, ascii, quote] using hMember

/-! ## Replies -/

theorem membersText_fields {texts : List Bytes} {members : List (Bytes × JsonValue)}
    (h : List.Forall₂ MemberText texts members) :
    ∀ {first : Bytes} {member : Bytes × JsonValue}, MemberText first member →
      MembersText (first ++ texts.flatMap fun text => ascii "," ++ text) (member :: members) := by
  induction h with
  | nil =>
      intro first member hFirst
      simpa using MembersText.last hFirst
  | @cons text next texts members hNext _ ih =>
      intro first member hFirst
      exact .more hFirst (ih hNext)

/-- A reply is an object whose first member is the type. -/
theorem objectText_formatFields {type : Bytes} (hType : Plain type) {texts : List Bytes}
    {members : List (Bytes × JsonValue)} (h : List.Forall₂ MemberText texts members) :
    ObjectText (formatFields type texts) ((ascii "type", .string type) :: members) := by
  have hBlank : Blank [] := by simp [Blank]
  have hFirst := memberText_plain (show Plain (ascii "type") from ascii_literal (by decide))
    (.string (stringBody_plain hType))
  have hObject := ObjectText.members hBlank (membersText_fields h hFirst) hBlank
  simpa [formatFields, finishJson, jsonType, ascii, quote] using hObject

/-- The members of a reply.  Every formatter takes its numbers as
`std::uint64_t`. -/
def Response.fields : Response → List (Bytes × JsonValue)
  | .ok message =>
      [(ascii "type", .string (ascii "ok")), (ascii "message", .string message)]
  | .error reason =>
      [(ascii "type", .string (ascii "error")), (ascii "reason", .string reason)]
  | .registerSuccess userId =>
      [(ascii "type", .string (ascii "register_success")),
        (ascii "user_id", .number (userId % 2 ^ 64))]
  | .registerFailed reason =>
      [(ascii "type", .string (ascii "register_failed")), (ascii "reason", .string reason)]
  | .loginSuccess userId username =>
      [(ascii "type", .string (ascii "login_success")),
        (ascii "user_id", .number (userId % 2 ^ 64)), (ascii "username", .string username)]
  | .loginFailed reason =>
      [(ascii "type", .string (ascii "login_failed")), (ascii "reason", .string reason)]
  | .createGroupSuccess groupId name =>
      [(ascii "type", .string (ascii "create_group_success")),
        (ascii "group_id", .number (groupId % 2 ^ 64)), (ascii "name", .string name)]
  | .messageAck messageId stored delivered =>
      [(ascii "type", .string (ascii "message_ack")),
        (ascii "message_id", .number (messageId % 2 ^ 64)),
        (ascii "status", .string (if stored then ascii "stored" else ascii "failed")),
        (ascii "stored", .bool stored), (ascii "delivered", .bool delivered)]
  | .directMessage senderUsername body =>
      [(ascii "type", .string (ascii "dm")), (ascii "from", .string senderUsername),
        (ascii "body", .string body)]
  | .groupMessage groupId senderUsername body =>
      [(ascii "type", .string (ascii "group_message")),
        (ascii "group_id", .number (groupId % 2 ^ 64)),
        (ascii "from", .string senderUsername), (ascii "body", .string body)]
  | .historyItem messageId chatType fromName toName body createdAt =>
      [(ascii "type", .string (ascii "history_item")),
        (ascii "message_id", .number (messageId % 2 ^ 64)),
        (ascii "chat_type", .string chatType), (ascii "from", .string fromName),
        (ascii "to", .string toName), (ascii "body", .string body),
        (ascii "created_at", .string createdAt)]
  | .historyEnd hasMore nextBeforeId =>
      [(ascii "type", .string (ascii "history_end")), (ascii "has_more", .bool hasMore),
        (ascii "next_before_id", .number (nextBeforeId % 2 ^ 64))]
  | .unreadEnd hasMore nextLastSeen =>
      [(ascii "type", .string (ascii "unread_end")), (ascii "has_more", .bool hasMore),
        (ascii "next_last_seen_message_id", .number (nextLastSeen % 2 ^ 64))]
  | .pong => [(ascii "type", .string (ascii "pong"))]

/-- How a member of a reply is written. -/
def fieldText : Bytes × JsonValue → Bytes
  | (name, .string value) => jsonStringField name value
  | (name, .number value) => jsonNumberField name value
  | (name, .bool value) => jsonBoolField name value

/-- A type or a key: printable, and written as it is. -/
def Literal (text : Bytes) : Prop := Plain text ∧ PrintableAscii text

instance (text : Bytes) : Decidable (Literal text) := by
  unfold Literal
  infer_instance

/-- A literal as a key, and a number that is its own remainder. -/
def WrittenField : Bytes × JsonValue → Prop
  | (name, .number value) => Literal name ∧ value % 2 ^ 64 = value
  | (name, _) => Literal name

theorem memberText_field {field : Bytes × JsonValue} (h : WrittenField field) :
    MemberText (fieldText field) field := by
  obtain ⟨name, value⟩ := field
  cases value with
  | string value => exact memberText_string h.1 value
  | number value =>
      have hMember := memberText_number h.1.1 value
      rwa [h.2] at hMember
  | bool value => exact memberText_bool h.1 value

/-- Every reply is its type and its other members, written one after the other. -/
theorem Response.data_eq (response : Response) :
    ∃ type members, response.fields = (ascii "type", .string type) :: members ∧ Literal type ∧
      (∀ field ∈ members, WrittenField field) ∧
      response.data = formatFields type (members.map fieldText) := by
  have hMod : ∀ n, n % 2 ^ 64 % 2 ^ 64 = n % 2 ^ 64 := fun n => Nat.mod_mod n _
  have hNumber : ∀ name n, jsonNumberField name (n % 2 ^ 64) = jsonNumberField name n := by
    intro name n
    rw [jsonNumberField, toStringU64, hMod, jsonNumberField, toStringU64]
  cases response <;> refine ⟨_, _, rfl, ascii_literal (by decide), ?_, ?_⟩ <;>
    simp only [List.forall_mem_cons, List.not_mem_nil, false_imp_iff, implies_true,
      WrittenField, hMod, and_true, List.map_cons, List.map_nil, fieldText, hNumber] <;>
    first
      | rfl
      | repeat rw [ascii_ofList]
        decide

/-- Every reply is an object of the grammar, with the fields it was made of. -/
theorem Response.objectText (response : Response) :
    ObjectText response.data response.fields := by
  obtain ⟨type, members, hFields, hType, hWritten, hData⟩ := response.data_eq
  rw [hFields, hData]
  apply objectText_formatFields hType.1
  rw [List.forall₂_map_left_iff, List.forall₂_same]
  exact fun field hMem => memberText_field (hWritten field hMem)

/-- No key is written twice. -/
theorem Response.fields_nodup (response : Response) :
    (response.fields.map Prod.fst).Nodup := by
  cases response <;> simp only [Response.fields, List.map_cons, List.map_nil] <;>
    repeat rw [ascii_ofList]
  all_goals decide

/-- With distinct keys the last member with a key is the only one. -/
theorem lastValue_eq_some_iff {members : List (Bytes × JsonValue)}
    (h : (members.map Prod.fst).Nodup) (key : Bytes) (value : JsonValue) :
    lastValue members key = some value ↔ (key, value) ∈ members := by
  rw [lastValue]
  constructor
  · intro hLast
    obtain ⟨⟨k, v⟩, hFind, hValue⟩ := Option.map_eq_some_iff.mp hLast
    have hKey : k = key := by simpa using List.find?_some hFind
    have hMem : (k, v) ∈ members := by simpa using List.mem_of_find?_eq_some hFind
    rwa [← hKey, ← hValue]
  · intro hMem
    cases hFind : members.reverse.find? fun member => member.1 == key with
    | none =>
        have hNone := List.find?_eq_none.mp hFind (key, value) (by simpa using hMem)
        simp at hNone
    | some member =>
        have hKey : member.1 = key := by simpa using List.find?_some hFind
        have hFound : member ∈ members := by simpa using List.mem_of_find?_eq_some hFind
        have hSame : member = (key, value) := List.inj_on_of_nodup_map h hFound hMem hKey
        rw [hSame]
        rfl

/-- Reading `data` gives an object with exactly these members. -/
def ReadsBack (data : Bytes) (members : List (Bytes × JsonValue)) : Prop :=
  ∃ object, parseJsonObject data = .ok object ∧
    ∀ key value, object.lookup key = some value ↔ (key, value) ∈ members

theorem readsBack_of_objectText {data : Bytes} {members : List (Bytes × JsonValue)}
    (hText : ObjectText data members) (hNodup : (members.map Prod.fst).Nodup) :
    ReadsBack data members := by
  refine ⟨_, parseJsonObject_complete hText, ?_⟩
  intro key value
  rw [lookup_stored]
  exact lastValue_eq_some_iff hNodup key value

/-- Formatters and reader are inverse.  A quoted escaped text is read as the text, up to
the byte behind the closing quote; a reply of any formatter is read as its type and its
arguments, and nothing else. -/
theorem formatter_parser_inverse :
    (∀ value suffix, parseString (quote :: (escapeJson value ++ quote :: suffix)) =
      .ok (value, suffix)) ∧
    (∀ response : Response, ReadsBack response.data response.fields) ∧
    (∀ chatType fromName toName body,
      ReadsBack (formatHistoryItemShort chatType fromName toName body)
        [(ascii "type", .string (ascii "history_item")), (ascii "chat_type", .string chatType),
          (ascii "from", .string fromName), (ascii "to", .string toName),
          (ascii "body", .string body)]) ∧
    ReadsBack formatHistoryEndShort [(ascii "type", .string (ascii "history_end"))] := by
  refine ⟨?_, ?_, ?_, ?_⟩
  · intro value suffix
    exact (parseString_iff _ _ _).mpr
      ⟨[], escapeJson value, by simp [Blank], stringBody_escapeJson value, rfl⟩
  · intro response
    exact readsBack_of_objectText response.objectText response.fields_nodup
  · intro chatType fromName toName body
    apply readsBack_of_objectText
    · apply objectText_formatFields (ascii_literal (by decide))
      exact .cons (memberText_string (ascii_literal (by decide)) _)
        (.cons (memberText_string (ascii_literal (by decide)) _)
          (.cons (memberText_string (ascii_literal (by decide)) _)
            (.cons (memberText_string (ascii_literal (by decide)) _) .nil)))
    · simp only [List.map_cons, List.map_nil]
      repeat rw [ascii_ofList]
      decide
  · apply readsBack_of_objectText
    · exact objectText_formatFields (ascii_literal (by decide)) .nil
    · simp

end CppChat.Ports.Protocol
