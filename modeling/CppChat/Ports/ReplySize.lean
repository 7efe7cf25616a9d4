import Mathlib.Algebra.GroupWithZero.Nat
import CppChat.Verified.Utf8
import CppChat.Ports.PacketCodec
import CppChat.Ports.ProtocolMessage

/-!
# How long a reply is

`encode_packet` refuses a payload above the frame limit, so the length of a
reply decides whether it can be sent at all.  A reply is fixed text around its
arguments; numbers have at most twenty digits and strings are escaped, which
doubles each of five bytes.  `Response.size` computes the length from the
arguments, and the replies whose arguments are short are always sent.

The error texts of the parser are short as well: none of them repeats input.

## Main results

* `data_length`: `Response.size` is the length of the payload.
* `frames_iff`: a reply can be framed exactly when its size is within the limit.
* `parseClientCommand_errors`: the parser's error texts are short and printable.
-/

namespace CppChat.Ports.Protocol

open CppChat.Verified
open CppChat.Ports.PacketCodec

/-! ## Escaping -/

/-- The bytes `escape_json` doubles. -/
def isEscaped (b : UInt8) : Bool :=
  b == quote || b == backslash || b == 10 || b == 13 || b == 9

/-- The length of a string after escaping. -/
def escapedLength (value : Bytes) : Nat := value.length + value.countP isEscaped

/-- A byte takes one place, or two when it is escaped. -/
theorem escapeByte_length (b : UInt8) :
    (escapeByte b).length = if isEscaped b then 2 else 1 := by
  simp only [escapeByte, isEscaped, Bool.or_eq_true, beq_iff_eq]
  grind

/-- The bytes of an escaped text. -/
theorem escapeJson_length (value : Bytes) :
    (escapeJson value).length = escapedLength value := by
  unfold escapedLength
  induction value with
  | nil => rfl
  | cons b rest ih =>
      have hSplit : escapeJson (b :: rest) = escapeByte b ++ escapeJson rest := rfl
      rw [hSplit, List.length_append, escapeByte_length, ih, List.length_cons,
        List.countP_cons]
      split <;> omega

/-- Escaping at most doubles a text. -/
theorem escapedLength_le (value : Bytes) : escapedLength value ≤ 2 * value.length := by
  have hCount : value.countP isEscaped ≤ value.length := List.countP_le_length
  unfold escapedLength
  omega

/-! ## Fields and replies -/

/-- The bytes of a string field. -/
@[simp] theorem jsonStringField_length (name value : Bytes) :
    (jsonStringField name value).length = name.length + 5 + escapedLength value := by
  simp [jsonStringField, ascii, escapeJson_length]
  omega

/-- The bytes of a number field. -/
@[simp] theorem jsonNumberField_length (name : Bytes) (value : Nat) :
    (jsonNumberField name value).length = name.length + 3 + (toStringU64 value).length := by
  simp [jsonNumberField, ascii]
  omega

/-- The bytes of a truth value. -/
@[simp] theorem jsonBoolField_length (name : Bytes) (value : Bool) :
    (jsonBoolField name value).length = name.length + 3 + (if value then 4 else 5) := by
  cases value <;> simp [jsonBoolField, ascii]

/-- The bytes of a reply with its fields. -/
@[simp] theorem formatFields_length (type : Bytes) (fields : List Bytes) :
    (formatFields type fields).length =
      11 + type.length + (fields.map fun field => field.length + 1).sum := by
  simp [formatFields, finishJson, jsonType, ascii]
  omega

/-- The length of a reply, from its arguments. -/
def Response.size : Response → Nat
  | .ok message => 26 + escapedLength message
  | .error reason => 28 + escapedLength reason
  | .registerSuccess userId => 38 + (toStringU64 userId).length
  | .registerFailed reason => 38 + escapedLength reason
  | .loginSuccess userId username =>
      49 + (toStringU64 userId).length + escapedLength username
  | .loginFailed reason => 35 + escapedLength reason
  | .createGroupSuccess groupId name =>
      53 + (toStringU64 groupId).length + escapedLength name
  | .messageAck messageId stored delivered =>
      77 + (toStringU64 messageId).length + (if stored then 4 else 5) +
        (if delivered then 4 else 5)
  | .directMessage senderUsername body =>
      33 + escapedLength senderUsername + escapedLength body
  | .groupMessage groupId senderUsername body =>
      56 + (toStringU64 groupId).length + escapedLength senderUsername + escapedLength body
  | .historyItem messageId chatType fromName toName body createdAt =>
      96 + (toStringU64 messageId).length + escapedLength chatType +
        escapedLength fromName + escapedLength toName + escapedLength body +
        escapedLength createdAt
  | .historyEnd hasMore nextBeforeId =>
      52 + (if hasMore then 4 else 5) + (toStringU64 nextBeforeId).length
  | .unreadEnd hasMore nextLastSeen =>
      62 + (if hasMore then 4 else 5) + (toStringU64 nextLastSeen).length
  | .pong => 15

/-- `size` is the length of the payload. -/
theorem data_length (r : Response) : r.data.length = r.size := by
  have hStatus : ∀ stored : Bool,
      escapedLength (if stored then ascii "stored" else ascii "failed") = 6 := by
    decide +kernel
  cases r with
  | pong => rfl
  | messageAck messageId stored delivered =>
      simp only [Response.data, Response.size, formatMessageAck, formatFields_length,
        List.map_cons, List.map_nil, List.sum_cons, List.sum_nil, jsonNumberField_length,
        jsonStringField_length, jsonBoolField_length, hStatus]
      simp [ascii]
      omega
  | _ =>
      simp only [Response.data, Response.size, formatOk, formatError,
        formatRegisterSuccess, formatRegisterFailed, formatLoginSuccess, formatLoginFailed,
        formatCreateGroupSuccess, formatDirectMessage, formatGroupMessage,
        formatHistoryItem, formatHistoryEnd, formatUnreadEnd,
        formatFields_length, List.map_cons, List.map_nil, List.sum_cons, List.sum_nil,
        jsonNumberField_length, jsonStringField_length, jsonBoolField_length]
      simp [ascii]
      omega

/-- A reply can be framed when it is not above the limit; it is never empty. -/
theorem frames_iff (r : Response) :
    (1 ≤ r.data.length ∧ r.data.length ≤ kMaxPacketPayloadSize ∧
      ∃ packet, encodePacket r.data = .ok packet) ↔ r.size ≤ kMaxPacketPayloadSize := by
  rw [encodePacket_isOk_iff, data_length]
  have hPos : 1 ≤ r.size := by
    cases r <;> simp only [Response.size] <;> omega
  constructor
  · intro h
    exact h.2.1
  · intro h
    exact ⟨hPos, h, hPos, h⟩

/-! ## Error texts of the parser -/

/-- A computation whose error texts have at most `n` bytes. -/
def ErrorsWithin {α : Type} (n : Nat) (x : Except Bytes α) : Prop :=
  ∀ e, x = .error e → e.length ≤ n

/-- A text the parser may give as the reason of an error. -/
def ParserText (text : Bytes) : Prop := text.length ≤ 64 ∧ PrintableAscii text

instance (text : Bytes) : Decidable (ParserText text) := by
  unfold ParserText
  infer_instance

/-- A computation whose error texts are all `good`. -/
def ErrorsAre {α : Type} (good : Bytes → Prop) (x : Except Bytes α) : Prop :=
  ∀ e, x = .error e → good e

section

variable {α β : Type} {good : Bytes → Prop}

theorem errorsAre_ok (a : α) : ErrorsAre good (.ok a : Except Bytes α) := by
  intro e h
  contradiction

theorem errorsAre_error {text : Bytes} (h : good text) :
    ErrorsAre good (.error text : Except Bytes α) := by
  intro e hEq
  injection hEq with hText
  rw [← hText]
  exact h

/-- The errors of a sequence are those of its parts. -/
theorem errorsAre_bind {x : Except Bytes α} {f : α → Except Bytes β}
    (hx : ErrorsAre good x) (hf : ∀ a, ErrorsAre good (f a)) :
    ErrorsAre good (x >>= f) := by
  cases x with
  | error text =>
      intro e hEq
      injection hEq with hText
      exact hx e (congrArg Except.error hText)
  | ok a => exact hf a

theorem errorsAre_ite {p : Prop} {_ : Decidable p} {x y : Except Bytes α}
    (hx : ErrorsAre good x) (hy : ErrorsAre good y) :
    ErrorsAre good (if p then x else y) := by
  split
  · exact hx
  · exact hy

end

theorem expectChar_errors (expected : UInt8) (input : Bytes) :
    ErrorsAre ParserText (expectChar expected input) := by
  unfold expectChar
  split
  · exact errorsAre_error (ascii_literal (by decide))
  · exact errorsAre_ite (errorsAre_ok _) (errorsAre_error (ascii_literal (by decide)))

/-- By induction on the input. -/
theorem parseStringTail_errors (input : Bytes) :
    ErrorsAre ParserText (parseStringTail input) := by
  fun_induction parseStringTail input with
  | case1 => exact errorsAre_error (ascii_literal (by decide))
  | case2 => exact errorsAre_ok _
  | case3 => exact errorsAre_ok _
  | case4 _ _ _ _ e hError ih => exact errorsAre_error (ih e hError)
  | case5 => exact errorsAre_error (ascii_literal (by decide))
  | case6 => exact errorsAre_error (ascii_literal (by decide))
  | case7 => exact errorsAre_ok _
  | case8 _ _ _ _ _ _ _ e hError ih => exact errorsAre_error (ih e hError)

theorem parseString_errors (input : Bytes) : ErrorsAre ParserText (parseString input) := by
  unfold parseString
  split
  · exact errorsAre_error (ascii_literal (by decide))
  · exact errorsAre_ite (parseStringTail_errors _) (errorsAre_error (ascii_literal (by decide)))

theorem parseNumber_errors (input : Bytes) : ErrorsAre ParserText (parseNumber input) := by
  unfold parseNumber
  refine errorsAre_ite (errorsAre_error (ascii_literal (by decide))) ?_
  unfold stoull
  split
  · exact errorsAre_ok _
  · rename_i e hError
    split at hError
    · contradiction
    · injection hError with hText
      rw [← hText]
      exact errorsAre_error (ascii_literal (by decide))

theorem parseBool_errors (input : Bytes) : ErrorsAre ParserText (parseBool input) :=
  errorsAre_ite (errorsAre_ok _)
    (errorsAre_ite (errorsAre_ok _) (errorsAre_error (ascii_literal (by decide))))

theorem parseValue_errors (first : UInt8) (input : Bytes) :
    ErrorsAre ParserText (parseValue first input) := by
  unfold parseValue
  refine errorsAre_ite ?_ (errorsAre_ite ?_
    (errorsAre_ite ?_ (errorsAre_error (ascii_literal (by decide)))))
  · cases hParse : parseString input with
    | error e => exact errorsAre_error (parseString_errors input e hParse)
    | ok pair => exact errorsAre_ok _
  · cases hParse : parseNumber input with
    | error e => exact errorsAre_error (parseNumber_errors input e hParse)
    | ok pair => exact errorsAre_ok _
  · cases hParse : parseBool input with
    | error e => exact errorsAre_error (parseBool_errors input e hParse)
    | ok pair => exact errorsAre_ok _

theorem parseEnd_errors (input : Bytes) (object : JsonObject) :
    ErrorsAre ParserText (parseEnd input object) :=
  errorsAre_ite (errorsAre_ok _) (errorsAre_error (ascii_literal (by decide)))

/-- By induction on the fuel. -/
theorem parseMembers_errors (fuel : Nat) : ∀ (input : Bytes) (object : JsonObject),
    ErrorsAre ParserText (parseMembers fuel input object) := by
  induction fuel with
  | zero =>
      intro input object
      rw [parseMembers]
      exact errorsAre_error (ascii_literal (by decide))
  | succ fuel ih =>
      intro input object
      rw [parseMembers]
      refine errorsAre_bind (parseString_errors input) fun ⟨key, afterKey⟩ => ?_
      refine errorsAre_bind (expectChar_errors _ _) fun afterColon => ?_
      cases skipWs afterColon with
      | nil => exact errorsAre_error (ascii_literal (by decide))
      | cons first rest =>
        refine errorsAre_bind (parseValue_errors _ _) fun ⟨value, afterValue⟩ => ?_
        dsimp only
        split
        · exact errorsAre_error (ascii_literal (by decide))
        · exact errorsAre_ite (ih _ _)
            (errorsAre_ite (parseEnd_errors _ _) (errorsAre_error (ascii_literal (by decide))))

/-- The texts with which the reader refuses a payload. -/
theorem parseJsonObject_errors (line : Bytes) : ErrorsAre ParserText (parseJsonObject line) := by
  unfold parseJsonObject
  refine errorsAre_bind (expectChar_errors _ _) fun afterBrace => ?_
  split
  · exact parseMembers_errors _ _ _
  · exact errorsAre_ite (parseEnd_errors _ _) (parseMembers_errors _ _ _)

/-- The name of a field, a literal of the source. -/
def FieldName (name : Bytes) : Prop := name.length ≤ 32 ∧ PrintableAscii name

instance (name : Bytes) : Decidable (FieldName name) := by
  unfold FieldName
  infer_instance

/-- A text that names a field. -/
theorem parserText_field {text name : Bytes} (hText : text.length ≤ 22 ∧ PrintableAscii text)
    (h : FieldName name) : ParserText (text ++ name) := by
  refine ⟨?_, hText.2.append h.2⟩
  rw [List.length_append]
  have hName := h.1
  omega

/-- The field readers name the field. -/
theorem getString_errors (object : JsonObject) {name : Bytes} (h : FieldName name) :
    ErrorsAre ParserText (getString object name) := by
  unfold getString
  split
  · exact errorsAre_ok _
  · exact errorsAre_error (parserText_field (by rw [ascii_ofList]; decide) h)

theorem getUint64_errors (object : JsonObject) {name : Bytes} (h : FieldName name) :
    ErrorsAre ParserText (getUint64 object name) := by
  unfold getUint64
  split
  · exact errorsAre_ok _
  · exact errorsAre_error (parserText_field (by rw [ascii_ofList]; decide) h)

/-- The error names the field. -/
theorem getUint64Or_errors (object : JsonObject) {name : Bytes} (h : FieldName name)
    (defaultValue : Nat) : ErrorsAre ParserText (getUint64Or object name defaultValue) := by
  unfold getUint64Or
  split
  · exact errorsAre_ok _
  · exact errorsAre_ok _
  · exact errorsAre_error (parserText_field (by rw [ascii_ofList]; decide) h)

theorem getLimit_errors (object : JsonObject) : ErrorsAre ParserText (getLimit object) :=
  errorsAre_bind (getUint64Or_errors object (ascii_literal (by decide)) 20) fun _ => errorsAre_ok _

theorem parseCredentials_errors (type : MessageType) (object : JsonObject) :
    ErrorsAre ParserText (parseCredentials type object) := by
  unfold parseCredentials
  refine errorsAre_bind (getString_errors object (ascii_literal (by decide))) fun username => ?_
  refine errorsAre_bind (getString_errors object (ascii_literal (by decide))) fun password => ?_
  exact errorsAre_ite (errorsAre_error (ascii_literal (by decide))) (errorsAre_ok _)

theorem parseGroupId_errors (type : MessageType) (object : JsonObject) :
    ErrorsAre ParserText (parseGroupId type object) :=
  errorsAre_bind (getUint64_errors object (ascii_literal (by decide))) fun _ => errorsAre_ok _

/-- The texts with which a command is refused. -/
theorem commandOf_errors (object : JsonObject) : ErrorsAre ParserText (commandOf object) := by
  unfold commandOf
  refine errorsAre_bind (getString_errors object (ascii_literal (by decide))) fun type => ?_
  refine errorsAre_ite (parseCredentials_errors _ _) ?_
  refine errorsAre_ite (parseCredentials_errors _ _) ?_
  refine errorsAre_ite (errorsAre_ok _) ?_
  refine errorsAre_ite (errorsAre_ok _) ?_
  refine errorsAre_ite ?_ ?_
  · refine errorsAre_bind (getString_errors object (ascii_literal (by decide))) fun target => ?_
    refine errorsAre_bind (getString_errors object (ascii_literal (by decide))) fun body => ?_
    exact errorsAre_ite (errorsAre_error (ascii_literal (by decide))) (errorsAre_ok _)
  refine errorsAre_ite ?_ ?_
  · refine errorsAre_bind (getString_errors object (ascii_literal (by decide))) fun name => ?_
    exact errorsAre_ite (errorsAre_error (ascii_literal (by decide))) (errorsAre_ok _)
  refine errorsAre_ite (parseGroupId_errors _ _) ?_
  refine errorsAre_ite (parseGroupId_errors _ _) ?_
  refine errorsAre_ite ?_ ?_
  · refine errorsAre_bind (getUint64_errors object (ascii_literal (by decide))) fun groupId => ?_
    refine errorsAre_bind (getString_errors object (ascii_literal (by decide))) fun body => ?_
    exact errorsAre_ite (errorsAre_error (ascii_literal (by decide))) (errorsAre_ok _)
  refine errorsAre_ite ?_ ?_
  · refine errorsAre_bind (getString_errors object (ascii_literal (by decide))) fun target => ?_
    refine errorsAre_bind (getLimit_errors object) fun limit => ?_
    refine errorsAre_bind (getUint64Or_errors object (ascii_literal (by decide)) 0)
      fun beforeId => ?_
    exact errorsAre_ite (errorsAre_error (ascii_literal (by decide))) (errorsAre_ok _)
  refine errorsAre_ite ?_ ?_
  · refine errorsAre_bind (getUint64_errors object (ascii_literal (by decide))) fun groupId => ?_
    refine errorsAre_bind (getLimit_errors object) fun limit => ?_
    exact errorsAre_bind (getUint64Or_errors object (ascii_literal (by decide)) 0)
      fun beforeId => errorsAre_ok _
  refine errorsAre_ite ?_ (errorsAre_error (ascii_literal (by decide)))
  refine errorsAre_bind (getUint64Or_errors object (ascii_literal (by decide)) 0) fun lastSeen => ?_
  exact errorsAre_bind (getLimit_errors object) fun limit => errorsAre_ok _

/-- No error text of the parser has more than 64 bytes or anything but printable
ASCII, because none of them repeats input. -/
theorem parseClientCommand_errors (line : Bytes) :
    ErrorsAre ParserText (parseClientCommand line) :=
  errorsAre_bind (parseJsonObject_errors _) commandOf_errors

theorem parseClientCommand_errorsWithin (line : Bytes) :
    ErrorsWithin 64 (parseClientCommand line) :=
  fun e h => (parseClientCommand_errors line e h).1

/-- An error text has 64 bytes at most. -/
theorem parseClientCommand_error_length {line e : Bytes}
    (h : parseClientCommand line = .error e) : e.length ≤ 64 :=
  parseClientCommand_errorsWithin line e h

end CppChat.Ports.Protocol
