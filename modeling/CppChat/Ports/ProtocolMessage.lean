import Mathlib.Data.List.AList
import CppChat.Verified.Bytes

/-!
# The text protocol: parsing commands and formatting replies

A client sends one flat JSON object per packet and receives flat JSON objects
back.  The parser of the source moves a position over the input; here every
parsing function takes the rest of the input and returns the rest it leaves,
which is the same position seen from the other end.  An exception is the error
text its `what()` returns, because `parse_client_command` sends that text to
the client.

Replies are built by the `format_*` functions.  `Response` has one constructor
for each of them, and `Response.data` is the payload the function builds, so
that later statements can say which reply was sent without comparing texts.
-/

namespace CppChat.Ports.Protocol

open CppChat.Verified

/-! ## Messages and commands -/

/-- The kinds of message. -/
inductive MessageType where
  | register
  | login
  | logout
  | directChat
  | groupChat
  | createGroup
  | groupJoin
  | groupLeave
  | historyQuery
  | unreadQuery
  | ping
  | system
deriving DecidableEq, Repr

/-- A chat message before it is stored. -/
structure Message where
  type : MessageType := .system
  senderId : Nat := 0
  receiverId : Nat := 0
  body : Bytes := []
deriving DecidableEq, Repr

/-- A parsed client command.  Each command fills the fields it uses. -/
structure ClientCommand where
  type : MessageType := .system
  receiverId : Nat := 0
  groupId : Nat := 0
  lastSeenMessageId : Nat := 0
  limit : Nat := 20
  beforeId : Nat := 0
  username : Bytes := []
  password : Bytes := []
  targetUsername : Bytes := []
  groupName : Bytes := []
  body : Bytes := []
  groupHistory : Bool := false
deriving DecidableEq, Repr

/-! ## The JSON reader -/

/-- The values the parser knows. -/
inductive JsonValue where
  | string (value : Bytes)
  | number (value : Nat)
  | bool (value : Bool)
deriving DecidableEq, Repr

/-- `std::unordered_map<std::string, JsonValue>`. -/
abbrev JsonObject := AList fun _ : Bytes => JsonValue

/-- `"`. -/
def quote : UInt8 := 34
/-- The escape character. -/
def backslash : UInt8 := 92

/-- Drop one trailing carriage return. -/
def trimTrailingCr (value : Bytes) : Bytes :=
  if value.getLast? = some 13 then value.dropLast else value

/-- `skip_ws`. -/
def skipWs (input : Bytes) : Bytes := input.dropWhile isSpace

/-- `expect_char`. -/
def expectChar (expected : UInt8) (input : Bytes) : Except Bytes Bytes :=
  match skipWs input with
  | [] => .error (ascii "malformed json")
  | b :: rest => if b = expected then .ok rest else .error (ascii "malformed json")

/-- The byte an escape stands for. -/
def unescape (b : UInt8) : Option UInt8 :=
  if b = quote ∨ b = backslash ∨ b = chr '/' then some b
  else if b = chr 'n' then some 10
  else if b = chr 'r' then some 13
  else if b = chr 't' then some 9
  else none

/-- The loop of `parse_string`, behind the opening quote.  The value is built
front to back. -/
def parseStringTail : Bytes → Except Bytes (Bytes × Bytes)
  | [] => .error (ascii "unterminated json string")
  | ch :: rest =>
      if ch = quote then .ok ([], rest)
      else if ch ≠ backslash then
        match parseStringTail rest with
        | .ok (value, left) => .ok (ch :: value, left)
        | .error e => .error e
      else
        match rest with
        | [] => .error (ascii "malformed json escape")
        | escaped :: rest' =>
            match unescape escaped with
            | none => .error (ascii "unsupported json escape")
            | some b =>
                match parseStringTail rest' with
                | .ok (value, left) => .ok (b :: value, left)
                | .error e => .error e

/-- `parse_string`. -/
def parseString (input : Bytes) : Except Bytes (Bytes × Bytes) :=
  match skipWs input with
  | [] => .error (ascii "malformed json string")
  | b :: rest =>
      if b = quote then parseStringTail rest
      else .error (ascii "malformed json string")

/-- `std::stoull` on a run of digits: out of range from `2 ^ 64` on. -/
def stoull (digits : Bytes) : Except Bytes Nat :=
  if digitsValue digits < 2 ^ 64 then .ok (digitsValue digits)
  else .error (ascii "stoull")

/-- `parse_number`: a run of digits, without a sign. -/
def parseNumber (input : Bytes) : Except Bytes (Nat × Bytes) :=
  let start := skipWs input
  let digits := start.takeWhile isDigit
  if digits.isEmpty then .error (ascii "malformed json number")
  else
    match stoull digits with
    | .ok value => .ok (value, start.dropWhile isDigit)
    | .error e => .error e

/-- `parse_bool`.  What follows the word is not looked at. -/
def parseBool (input : Bytes) : Except Bytes (Bool × Bytes) :=
  let start := skipWs input
  if (ascii "true").isPrefixOf start then .ok (true, start.drop 4)
  else if (ascii "false").isPrefixOf start then .ok (false, start.drop 5)
  else .error (ascii "malformed json bool")

/-- The value at the front of a non-empty input. -/
def parseValue (first : UInt8) (input : Bytes) : Except Bytes (JsonValue × Bytes) :=
  if first = quote then
    match parseString input with
    | .ok (value, left) => .ok (.string value, left)
    | .error e => .error e
  else if isDigit first then
    match parseNumber input with
    | .ok (value, left) => .ok (.number value, left)
    | .error e => .error e
  else if (ascii "true").isPrefixOf input || (ascii "false").isPrefixOf input then
    match parseBool input with
    | .ok (value, left) => .ok (.bool value, left)
    | .error e => .error e
  else .error (ascii "unsupported json value")

/-- End of the object: only blanks may follow. -/
def parseEnd (input : Bytes) (object : JsonObject) : Except Bytes JsonObject :=
  if (skipWs input).isEmpty then .ok object
  else .error (ascii "trailing json content")

/-- The member loop of `parse_json_object`.  Every round consumes input, so
its length is enough fuel. -/
def parseMembers : Nat → Bytes → JsonObject → Except Bytes JsonObject
  | 0, _, _ => .error (ascii "malformed json string")
  | fuel + 1, input, object => do
      let (key, afterKey) ← parseString input
      let afterColon ← expectChar (chr ':') afterKey
      match skipWs afterColon with
      | [] => .error (ascii "missing json value")
      | first :: rest => do
          let (value, afterValue) ← parseValue first (first :: rest)
          match skipWs afterValue with
          | [] => .error (ascii "malformed json object")
          | b :: left =>
              if b = chr ',' then parseMembers fuel left (object.insert key value)
              else if b = 125 then parseEnd left (object.insert key value)
              else .error (ascii "malformed json object")

/-- `parse_json_object`: one flat object, with nothing behind it. -/
def parseJsonObject (line : Bytes) : Except Bytes JsonObject := do
  let afterBrace ← expectChar 123 line
  match skipWs afterBrace with
  | [] => parseMembers line.length [] ∅
  | b :: rest =>
      if b = 125 then parseEnd rest ∅
      else parseMembers line.length (b :: rest) ∅

/-- `get_string`: the field must be there. -/
def getString (object : JsonObject) (name : Bytes) : Except Bytes Bytes :=
  match object.lookup name with
  | some (.string value) => .ok value
  | _ => .error (ascii "missing string field: " ++ name)

/-- `get_uint64`: the field must be there. -/
def getUint64 (object : JsonObject) (name : Bytes) : Except Bytes Nat :=
  match object.lookup name with
  | some (.number value) => .ok value
  | _ => .error (ascii "missing number field: " ++ name)

/-- `get_uint64_or`: the field may be missing, but not have another type. -/
def getUint64Or (object : JsonObject) (name : Bytes) (defaultValue : Nat) :
    Except Bytes Nat :=
  match object.lookup name with
  | none => .ok defaultValue
  | some (.number value) => .ok value
  | some _ => .error (ascii "invalid number field: " ++ name)

/-- The `limit` field: default 20, cut to 100. -/
def getLimit (object : JsonObject) : Except Bytes Nat := do
  let limit ← getUint64Or object (ascii "limit") 20
  return min limit 100

/-- `register` and `login` read the same fields. -/
def parseCredentials (type : MessageType) (object : JsonObject) :
    Except Bytes ClientCommand := do
  let username ← getString object (ascii "username")
  let password ← getString object (ascii "password")
  if username.isEmpty || password.isEmpty then
    throw (ascii "username and password are required")
  return { type := type, username := username, password := password }

/-- `join_group` and `leave_group` read the same field. -/
def parseGroupId (type : MessageType) (object : JsonObject) :
    Except Bytes ClientCommand := do
  let groupId ← getUint64 object (ascii "group_id")
  return { type := type, groupId := groupId, receiverId := groupId }

/-- Fill the command a parsed object stands for. -/
def commandOf (object : JsonObject) : Except Bytes ClientCommand := do
  let type ← getString object (ascii "type")
  if type = ascii "register" then
    parseCredentials .register object
  else if type = ascii "login" then
    parseCredentials .login object
  else if type = ascii "logout" then
    return { type := .logout }
  else if type = ascii "ping" then
    return { type := .ping }
  else if type = ascii "dm" then
    let target ← getString object (ascii "to")
    let body ← getString object (ascii "body")
    if target.isEmpty || body.isEmpty then
      throw (ascii "to and body are required")
    return { type := .directChat, targetUsername := target, body := body }
  else if type = ascii "create_group" then
    let name ← getString object (ascii "name")
    if name.isEmpty then
      throw (ascii "group name is required")
    return { type := .createGroup, groupName := name }
  else if type = ascii "join_group" then
    parseGroupId .groupJoin object
  else if type = ascii "leave_group" then
    parseGroupId .groupLeave object
  else if type = ascii "group_message" then
    let groupId ← getUint64 object (ascii "group_id")
    let body ← getString object (ascii "body")
    if body.isEmpty then
      throw (ascii "body is required")
    return { type := .groupChat, groupId := groupId, receiverId := groupId, body := body }
  else if type = ascii "history" then
    let target ← getString object (ascii "peer")
    let limit ← getLimit object
    let beforeId ← getUint64Or object (ascii "before_id") 0
    if target.isEmpty then
      throw (ascii "peer is required")
    return { type := .historyQuery, targetUsername := target, limit := limit,
             beforeId := beforeId }
  else if type = ascii "group_history" then
    let groupId ← getUint64 object (ascii "group_id")
    let limit ← getLimit object
    let beforeId ← getUint64Or object (ascii "before_id") 0
    return { type := .historyQuery, groupHistory := true, groupId := groupId,
             receiverId := groupId, limit := limit, beforeId := beforeId }
  else if type = ascii "unread" then
    let lastSeen ← getUint64Or object (ascii "last_seen_message_id") 0
    let limit ← getLimit object
    return { type := .unreadQuery, lastSeenMessageId := lastSeen, limit := limit }
  else
    throw (ascii "unknown command")

/-- Parse one payload; the error is the text sent back to the client. -/
def parseClientCommand (line : Bytes) : Except Bytes ClientCommand := do
  let object ← parseJsonObject (trimTrailingCr line)
  commandOf object

/-! ## Formatting replies -/

/-- The output of one byte under `escape_json`. -/
def escapeByte (b : UInt8) : Bytes :=
  if b = quote then [backslash, quote]
  else if b = backslash then [backslash, backslash]
  else if b = 10 then [backslash, chr 'n']
  else if b = 13 then [backslash, chr 'r']
  else if b = 9 then [backslash, chr 't']
  else [b]

/-- `escape_json`. -/
def escapeJson (value : Bytes) : Bytes := value.flatMap escapeByte

/-- `json_string_field`.  The name is not escaped. -/
def jsonStringField (name value : Bytes) : Bytes :=
  ascii "\"" ++ name ++ ascii "\":\"" ++ escapeJson value ++ ascii "\""

/-- `json_number_field`. -/
def jsonNumberField (name : Bytes) (value : Nat) : Bytes :=
  ascii "\"" ++ name ++ ascii "\":" ++ toStringU64 value

/-- `json_bool_field`. -/
def jsonBoolField (name : Bytes) (value : Bool) : Bytes :=
  ascii "\"" ++ name ++ ascii "\":" ++ (if value then ascii "true" else ascii "false")

/-- `json_type`: the front of every reply. -/
def jsonType (type : Bytes) : Bytes :=
  ascii "\x7b\"type\":\"" ++ type ++ ascii "\""

/-- `finish_json`. -/
def finishJson (value : Bytes) : Bytes := value ++ ascii "\x7d"

/-- A reply is a type followed by its fields, separated by commas. -/
def formatFields (type : Bytes) (fields : List Bytes) : Bytes :=
  finishJson (jsonType type ++ fields.flatMap fun field => ascii "," ++ field)

/-- `format_ok`. -/
def formatOk (message : Bytes) : Bytes :=
  formatFields (ascii "ok") [jsonStringField (ascii "message") message]

/-- `format_error`. -/
def formatError (message : Bytes) : Bytes :=
  formatFields (ascii "error") [jsonStringField (ascii "reason") message]

/-- `format_register_success`. -/
def formatRegisterSuccess (userId : Nat) : Bytes :=
  formatFields (ascii "register_success") [jsonNumberField (ascii "user_id") userId]

/-- `format_register_failed`. -/
def formatRegisterFailed (reason : Bytes) : Bytes :=
  formatFields (ascii "register_failed") [jsonStringField (ascii "reason") reason]

/-- `format_login_success`. -/
def formatLoginSuccess (userId : Nat) (username : Bytes) : Bytes :=
  formatFields (ascii "login_success")
    [jsonNumberField (ascii "user_id") userId,
      jsonStringField (ascii "username") username]

/-- `format_login_failed`. -/
def formatLoginFailed (reason : Bytes) : Bytes :=
  formatFields (ascii "login_failed") [jsonStringField (ascii "reason") reason]

/-- `format_create_group_success`. -/
def formatCreateGroupSuccess (groupId : Nat) (name : Bytes) : Bytes :=
  formatFields (ascii "create_group_success")
    [jsonNumberField (ascii "group_id") groupId, jsonStringField (ascii "name") name]

/-- `format_message_ack`. -/
def formatMessageAck (messageId : Nat) (stored delivered : Bool) : Bytes :=
  formatFields (ascii "message_ack")
    [jsonNumberField (ascii "message_id") messageId,
      jsonStringField (ascii "status") (if stored then ascii "stored" else ascii "failed"),
      jsonBoolField (ascii "stored") stored,
      jsonBoolField (ascii "delivered") delivered]

/-- `format_direct_message`. -/
def formatDirectMessage (senderUsername body : Bytes) : Bytes :=
  formatFields (ascii "dm")
    [jsonStringField (ascii "from") senderUsername, jsonStringField (ascii "body") body]

/-- `format_group_message`. -/
def formatGroupMessage (groupId : Nat) (senderUsername body : Bytes) : Bytes :=
  formatFields (ascii "group_message")
    [jsonNumberField (ascii "group_id") groupId,
      jsonStringField (ascii "from") senderUsername,
      jsonStringField (ascii "body") body]

/-- `format_history_item`. -/
def formatHistoryItem (messageId : Nat)
    (chatType fromName toName body createdAt : Bytes) : Bytes :=
  formatFields (ascii "history_item")
    [jsonNumberField (ascii "message_id") messageId,
      jsonStringField (ascii "chat_type") chatType,
      jsonStringField (ascii "from") fromName,
      jsonStringField (ascii "to") toName,
      jsonStringField (ascii "body") body,
      jsonStringField (ascii "created_at") createdAt]

/-- `format_history_end`. -/
def formatHistoryEnd (hasMore : Bool) (nextBeforeId : Nat) : Bytes :=
  formatFields (ascii "history_end")
    [jsonBoolField (ascii "has_more") hasMore,
      jsonNumberField (ascii "next_before_id") nextBeforeId]

/-- `format_unread_end`. -/
def formatUnreadEnd (hasMore : Bool) (nextLastSeenMessageId : Nat) : Bytes :=
  formatFields (ascii "unread_end")
    [jsonBoolField (ascii "has_more") hasMore,
      jsonNumberField (ascii "next_last_seen_message_id") nextLastSeenMessageId]

/-- `format_pong`. -/
def formatPong : Bytes := formatFields (ascii "pong") []

/-- A reply before it is turned into text: which `format_*` function builds it
and with which arguments. -/
inductive Response where
  | ok (message : Bytes)
  | error (reason : Bytes)
  | registerSuccess (userId : Nat)
  | registerFailed (reason : Bytes)
  | loginSuccess (userId : Nat) (username : Bytes)
  | loginFailed (reason : Bytes)
  | createGroupSuccess (groupId : Nat) (name : Bytes)
  | messageAck (messageId : Nat) (stored delivered : Bool)
  | directMessage (senderUsername body : Bytes)
  | groupMessage (groupId : Nat) (senderUsername body : Bytes)
  | historyItem (messageId : Nat) (chatType fromName toName body createdAt : Bytes)
  | historyEnd (hasMore : Bool) (nextBeforeId : Nat)
  | unreadEnd (hasMore : Bool) (nextLastSeenMessageId : Nat)
  | pong
deriving DecidableEq, Repr

/-- The payload bytes of a reply. -/
def Response.data : Response → Bytes
  | .ok message => formatOk message
  | .error reason => formatError reason
  | .registerSuccess userId => formatRegisterSuccess userId
  | .registerFailed reason => formatRegisterFailed reason
  | .loginSuccess userId username => formatLoginSuccess userId username
  | .loginFailed reason => formatLoginFailed reason
  | .createGroupSuccess groupId name => formatCreateGroupSuccess groupId name
  | .messageAck messageId stored delivered => formatMessageAck messageId stored delivered
  | .directMessage senderUsername body => formatDirectMessage senderUsername body
  | .groupMessage groupId senderUsername body =>
      formatGroupMessage groupId senderUsername body
  | .historyItem messageId chatType fromName toName body createdAt =>
      formatHistoryItem messageId chatType fromName toName body createdAt
  | .historyEnd hasMore nextBeforeId => formatHistoryEnd hasMore nextBeforeId
  | .unreadEnd hasMore nextLastSeen => formatUnreadEnd hasMore nextLastSeen
  | .pong => formatPong

end CppChat.Ports.Protocol
