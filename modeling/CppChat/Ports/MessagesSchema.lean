import CppChat.Verified.TableUpdate
import CppChat.Ports.MessagesTable

/-!
# Bringing an old `messages` table up to date

`ensure_messages_schema` runs at every start.  It adds the two conversation columns where
they are missing, with zeros, and then classifies the rows whose `conversation_type` is
zero by an `UPDATE`.  What `append` computes on enumeration values for the rows it
inserts, the `UPDATE` computes on the strings of the `type` column.

The statements are translated one by one.  An `ALTER TABLE` fails on a column that is
there, the `UPDATE` fails while a column is missing, and any statement may fail for
another reason; no result is looked at.  The two indexes do not change what a query
returns.

## Main results

* `agrees_classify`: the `UPDATE` computes for a row what `append` does for its message.
* `writtenByAppend_finishAppend`: `append` keeps a table one of its own.
* `ensureMessagesSchema_classifies`: afterwards every row is as if `append` had written it,
  rows that were classified are untouched, and doing it again changes nothing.
-/

namespace CppChat.Ports.Messages

open CppChat.Verified
open CppChat.Verified.TableUpdate
open CppChat.Ports.Protocol

/-! ## SQL -/

/-- `<<` on `BIGINT UNSIGNED`. -/
def sqlShiftLeft (a count : Nat) : Nat := a * 2 ^ count % 2 ^ 64

/-- `LEAST` of two numbers. -/
def sqlLeast (a b : Nat) : Nat := if a ≤ b then a else b

/-- `GREATEST` of two numbers. -/
def sqlGreatest (a b : Nat) : Nat := if a ≤ b then b else a

/-- `=` on the strings of the `type` column.  The collation may identify strings, but
not two that `message_type_to_string` writes. -/
structure TypeCollation where
  same : Bytes → Bytes → Bool
  exact : ∀ a b : MessageType,
    same (messageTypeToString a) (messageTypeToString b) = true ↔
      messageTypeToString a = messageTypeToString b

/-- The table: which of the two columns it has, and its rows.  A column that is missing
has no meaning in the rows. -/
structure MessagesTable where
  hasConversationType : Bool := true
  hasConversationId : Bool := true
  rows : List MessageRow
deriving DecidableEq

namespace MessagesTable

/-- `ALTER TABLE … ADD COLUMN conversation_type TINYINT NOT NULL DEFAULT 0` -/
def addConversationType (table : MessagesTable) (executed : Bool) : MessagesTable :=
  if executed && !table.hasConversationType then
    { table with
      hasConversationType := true
      rows := table.rows.map fun row => { row with conversationType := 0 } }
  else table

/-- `ALTER TABLE … ADD COLUMN conversation_id BIGINT UNSIGNED NOT NULL DEFAULT 0` -/
def addConversationId (table : MessagesTable) (executed : Bool) : MessagesTable :=
  if executed && !table.hasConversationId then
    { table with
      hasConversationId := true
      rows := table.rows.map fun row => { row with conversationId := 0 } }
  else table

/-- The `SET` of the `UPDATE`. -/
def classify (collation : TypeCollation) (row : MessageRow) : MessageRow :=
  { row with
    conversationType :=
      if collation.same row.type (ascii "DirectChat") then 1
      else if collation.same row.type (ascii "GroupChat") then 2
      else 0
    conversationId :=
      if collation.same row.type (ascii "DirectChat") then
        sqlShiftLeft (sqlLeast row.senderId row.receiverId) 32 |||
          sqlGreatest row.senderId row.receiverId
      else if collation.same row.type (ascii "GroupChat") then row.receiverId
      else 0 }

/-- `UPDATE messages SET … WHERE conversation_type = 0` -/
def backfill (collation : TypeCollation) (table : MessagesTable) (executed : Bool) :
    MessagesTable :=
  if executed && table.hasConversationType && table.hasConversationId then
    { table with
      rows := updateWhere (fun row => row.conversationType == 0) (classify collation)
        table.rows }
  else table

end MessagesTable

/-- `table_column_exists`: a query that fails counts as a missing column. -/
def tableColumnExists (present queried : Bool) : Bool := queried && present

/-- Which of the statements of one run succeed. -/
structure SchemaIo where
  typeQueried : Bool := true
  typeAdded : Bool := true
  idQueried : Bool := true
  idAdded : Bool := true
  updated : Bool := true

/-- `ensure_messages_schema`: add the columns that are missing, then classify the rows. -/
def ensureMessagesSchema (collation : TypeCollation) (table : MessagesTable) (io : SchemaIo) :
    MessagesTable :=
  let typed :=
    if !tableColumnExists table.hasConversationType io.typeQueried then
      table.addConversationType io.typeAdded
    else table
  let complete :=
    if !tableColumnExists typed.hasConversationId io.idQueried then
      typed.addConversationId io.idAdded
    else typed
  complete.backfill collation io.updated

/-! ## One row -/

/-- The row is classified as `append` classifies every message it may store. -/
def Agrees (row : MessageRow) : Prop :=
  ∀ message : Message, row.Holds row.id message →
    row.conversationType = conversationTypeFor message.type ∧
      row.conversationId = conversationIdFor message

theorem conversationTypeFor_eq (type : MessageType) :
    conversationTypeFor type =
      if type = .directChat then 1 else if type = .groupChat then 2 else 0 := by
  cases type <;> rfl

theorem conversationIdFor_eq (message : Message) :
    conversationIdFor message =
      if message.type = .directChat then
        makeDirectConversationId message.senderId message.receiverId
      else if message.type = .groupChat then message.receiverId
      else 0 := by
  unfold conversationIdFor
  cases message.type <;> rfl

/-- Messages that one row may store are classified alike. -/
theorem agrees_ofMessage (id : Nat) (createdAt : Bytes) (written : Message) :
    Agrees (.ofMessage id createdAt written) := by
  rintro message ⟨-, hType, hSender, hReceiver, -⟩
  have hDirect : written.type = .directChat ↔ message.type = .directChat := by
    rw [← messageTypeToString_eq_directChat, ← messageTypeToString_eq_directChat]
    exact iff_of_eq (congrArg (· = messageTypeToString .directChat) hType)
  have hGroup : written.type = .groupChat ↔ message.type = .groupChat := by
    rw [← messageTypeToString_eq_groupChat, ← messageTypeToString_eq_groupChat]
    exact iff_of_eq (congrArg (· = messageTypeToString .groupChat) hType)
  have hSender : written.senderId = message.senderId := hSender
  have hReceiver : written.receiverId = message.receiverId := hReceiver
  simp only [MessageRow.ofMessage, conversationTypeFor_eq, conversationIdFor_eq, hDirect, hGroup,
    hSender, hReceiver, and_self]

/-- `<<` on `BIGINT UNSIGNED` drops what does not fit. -/
theorem sqlShiftLeft_eq (a count : Nat) : sqlShiftLeft a count = (a <<< count) % 2 ^ 64 := by
  rw [sqlShiftLeft, Nat.shiftLeft_eq]

theorem sqlLeast_eq (a b : Nat) : sqlLeast a b = min a b := by
  rw [sqlLeast, Nat.min_def]

theorem sqlGreatest_eq (a b : Nat) : sqlGreatest a b = max a b := by
  rw [sqlGreatest, Nat.max_def]

/-- The `UPDATE` computes for a row what `append` computes for its message. -/
theorem agrees_classify (collation : TypeCollation) (row : MessageRow) :
    Agrees (MessagesTable.classify collation row) := by
  rintro message ⟨-, hType, hSender, hReceiver, -⟩
  have hType : row.type = messageTypeToString message.type := hType
  have hSender : row.senderId = message.senderId := hSender
  have hReceiver : row.receiverId = message.receiverId := hReceiver
  have hDirect : collation.same row.type (ascii "DirectChat") = true ↔
      message.type = .directChat := by
    rw [hType]
    exact (collation.exact _ .directChat).trans (messageTypeToString_eq_directChat _)
  have hGroup : collation.same row.type (ascii "GroupChat") = true ↔
      message.type = .groupChat := by
    rw [hType]
    exact (collation.exact _ .groupChat).trans (messageTypeToString_eq_groupChat _)
  simp only [MessagesTable.classify, conversationTypeFor_eq, conversationIdFor_eq, hDirect, hGroup,
    hSender, hReceiver, makeDirectConversationId, sqlShiftLeft_eq, sqlLeast_eq, sqlGreatest_eq,
    and_self]

/-- The other columns of a row. -/
def contents (row : MessageRow) : MessageRow :=
  { row with conversationType := 0, conversationId := 0 }

/-- Classifying changes no other column. -/
theorem contents_classify (collation : TypeCollation) (row : MessageRow) :
    contents (MessagesTable.classify collation row) = contents row := rfl

/-- Classifying twice is classifying once. -/
theorem classify_classify (collation : TypeCollation) (row : MessageRow) :
    MessagesTable.classify collation (MessagesTable.classify collation row) =
      MessagesTable.classify collation row := rfl

/-! ## The table -/

/-- The rows with a conversation type are rows of `append`, which names both columns. -/
structure WrittenByAppend (table : MessagesTable) : Prop where
  columns : table.hasConversationType = true →
    ∀ row ∈ table.rows, row.conversationType ≠ 0 → table.hasConversationId = true
  rows : table.hasConversationType = true → ∀ row ∈ table.rows, row.conversationType ≠ 0 →
    ∃ id createdAt message, row = .ofMessage id createdAt message

/-- The next `append` leaves such a table again. -/
theorem writtenByAppend_finishAppend {store : PooledMessageStore}
    (h : WrittenByAppend { rows := store.rows }) (message : Message) (stored : StoredMessage)
    (io : AppendIo) :
    WrittenByAppend { rows := (store.finishAppend message stored io).2.rows } := by
  constructor
  · intro _ _ _ _
    rfl
  intro hType row hRow hClassified
  rw [finishAppend_eq] at hRow
  split at hRow
  · rcases List.mem_append.mp hRow with hOld | hNew
    · exact h.rows hType row hOld hClassified
    · exact ⟨_, _, _, List.mem_singleton.mp hNew⟩
  · exact h.rows hType row hRow hClassified

/-- The `UPDATE` is executed and the columns it needs are there by then. -/
structure SchemaIo.Migrates (io : SchemaIo) (table : MessagesTable) : Prop where
  typed : table.hasConversationType = true ∨ io.typeAdded = true
  complete : table.hasConversationId = true ∨ io.idAdded = true
  updated : io.updated = true

/-- The table before the `UPDATE`. -/
def withColumns (table : MessagesTable) : MessagesTable :=
  (table.addConversationType true).addConversationId true

/-- When every statement succeeds, the columns are there and the rows are classified. -/
theorem ensureMessagesSchema_of_migrates (collation : TypeCollation) {table : MessagesTable}
    {io : SchemaIo} (hIo : io.Migrates table) :
    ensureMessagesSchema collation table io = (withColumns table).backfill collation true := by
  obtain ⟨hTyped, hComplete, hUpdated⟩ := hIo
  obtain ⟨typed, complete, rows⟩ := table
  obtain ⟨typeQueried, typeAdded, idQueried, idAdded, updated⟩ := io
  simp only at hTyped hComplete hUpdated
  cases typed <;> cases complete <;> cases typeQueried <;> cases idQueried <;>
    simp_all [ensureMessagesSchema, withColumns, tableColumnExists,
      MessagesTable.addConversationType, MessagesTable.addConversationId]

/-- With both columns there only the `UPDATE` may change something. -/
theorem ensureMessagesSchema_of_columns (collation : TypeCollation) (rows : List MessageRow)
    (io : SchemaIo) :
    ensureMessagesSchema collation { rows := rows } io =
      MessagesTable.backfill collation { rows := rows } io.updated := by
  obtain ⟨typeQueried, typeAdded, idQueried, idAdded, updated⟩ := io
  cases typeQueried <;> cases idQueried <;>
    simp [ensureMessagesSchema, tableColumnExists, MessagesTable.addConversationType,
      MessagesTable.addConversationId]

theorem withColumns_eq (table : MessagesTable) :
    withColumns table = { rows := (withColumns table).rows } := by
  obtain ⟨typed, complete, rows⟩ := table
  cases typed <;> cases complete <;> rfl

/-- A column that is added touches no other one. -/
theorem contents_withColumns (table : MessagesTable) :
    (withColumns table).rows.map contents = table.rows.map contents := by
  obtain ⟨typed, complete, rows⟩ := table
  cases typed <;> cases complete <;>
    simp [withColumns, MessagesTable.addConversationType, MessagesTable.addConversationId,
      contents, Function.comp_def]

theorem withColumns_of_columns {table : MessagesTable}
    (hType : table.hasConversationType = true) (hId : table.hasConversationId = true) :
    withColumns table = table := by
  simp [withColumns, MessagesTable.addConversationType, MessagesTable.addConversationId,
    hType, hId]

/-- The column that is added is zero in every row. -/
theorem conversationType_withColumns {table : MessagesTable}
    (hType : table.hasConversationType = false) :
    ∀ row ∈ (withColumns table).rows, row.conversationType = 0 := by
  obtain ⟨typed, complete, rows⟩ := table
  cases hType
  intro row hRow
  cases complete <;>
    simp only [withColumns, MessagesTable.addConversationType, MessagesTable.addConversationId,
      Bool.not_false, Bool.not_true, Bool.and_self, Bool.and_false, if_true,
      Bool.false_eq_true, if_false, List.map_map, List.mem_map, Function.comp_apply] at hRow
  all_goals
    obtain ⟨old, -, rfl⟩ := hRow
    rfl

theorem map_conversationType_withColumns {table : MessagesTable}
    (hType : table.hasConversationType = true) :
    (withColumns table).rows.map (·.conversationType) =
      table.rows.map (·.conversationType) := by
  obtain ⟨typed, complete, rows⟩ := table
  cases hType
  cases complete <;>
    simp [withColumns, MessagesTable.addConversationType, MessagesTable.addConversationId,
      Function.comp_def]

/-- A row that is classified before the `UPDATE` was there from the start. -/
theorem withColumns_of_classified {table : MessagesTable} (h : WrittenByAppend table)
    {row : MessageRow} (hRow : row ∈ (withColumns table).rows)
    (hClassified : row.conversationType ≠ 0) :
    table.hasConversationType = true ∧ withColumns table = table := by
  by_cases hType : table.hasConversationType = true
  · have hMem : row.conversationType ∈ table.rows.map (·.conversationType) := by
      rw [← map_conversationType_withColumns hType]
      exact List.mem_map_of_mem hRow
    obtain ⟨old, hOld, hSame⟩ := List.mem_map.mp hMem
    have hId := h.columns hType old hOld (by rw [hSame]; exact hClassified)
    exact ⟨hType, withColumns_of_columns hType hId⟩
  · have hMissing : table.hasConversationType = false := by simpa using hType
    exact absurd (conversationType_withColumns hMissing row hRow) hClassified

/-- What a run of the migration leaves. -/
structure Migrated (collation : TypeCollation) (table migrated : MessagesTable) : Prop where
  classified : ∀ row ∈ migrated.rows, Agrees row
  kept : table.hasConversationType = true → ∀ (i : Nat) (row : MessageRow),
    table.rows[i]? = some row → row.conversationType ≠ 0 → migrated.rows[i]? = some row
  contents : migrated.rows.map contents = table.rows.map contents
  again : ∀ io, ensureMessagesSchema collation migrated io = migrated

/-- Every row is classified like the message it stores, and a second run finds nothing
to do. -/
theorem ensureMessagesSchema_classifies (collation : TypeCollation) (table : MessagesTable)
    (io : SchemaIo) (hWritten : WrittenByAppend table) (hIo : io.Migrates table) :
    Migrated collation table (ensureMessagesSchema collation table io) := by
  have hRun : ensureMessagesSchema collation table io =
      { rows := updateWhere (fun row => row.conversationType == 0)
          (MessagesTable.classify collation) (withColumns table).rows } := by
    rw [ensureMessagesSchema_of_migrates collation hIo, withColumns_eq]
    rfl
  rw [hRun]
  constructor
  case classified =>
    apply forall_mem_updateWhere
    · intro row _ _
      exact agrees_classify collation row
    · intro row hRow hClassified
      have hClassified : row.conversationType ≠ 0 := by simpa using hClassified
      obtain ⟨hType, hSame⟩ := withColumns_of_classified hWritten hRow hClassified
      rw [hSame] at hRow
      obtain ⟨id, createdAt, message, rfl⟩ := hWritten.rows hType row hRow hClassified
      exact agrees_ofMessage id createdAt message
  case kept =>
    intro hType i row hRow hClassified
    have hId := hWritten.columns hType row (List.mem_of_getElem? hRow) hClassified
    rw [withColumns_of_columns hType hId]
    exact getElem?_updateWhere_of_not hRow (by simpa using hClassified)
  case contents =>
    rw [map_updateWhere (contents_classify collation), contents_withColumns]
  case again =>
    intro io'
    rw [ensureMessagesSchema_of_columns]
    cases io'.updated with
    | false => rfl
    | true =>
      rw [MessagesTable.backfill]
      exact congrArg (fun rows => ({ rows := rows } : MessagesTable))
        (updateWhere_twice (classify_classify collation))

/-- One row of `append`, and one from before there were conversations. -/
theorem ensureMessagesSchema_classifies_mixed :
    let collation : TypeCollation := ⟨fun a b => a == b, fun _ _ => beq_iff_eq⟩
    let written : MessageRow :=
      .ofMessage 2 [] { type := .directChat, senderId := 9, receiverId := 2 }
    let table : MessagesTable :=
      { rows := [{ written with id := 1, conversationType := 0, conversationId := 0 }, written] }
    Migrated collation table (ensureMessagesSchema collation table {}) := by
  refine ensureMessagesSchema_classifies _ _ {} ⟨fun _ _ _ _ => rfl, ?_⟩
    ⟨.inl rfl, .inl rfl, rfl⟩
  intro _ row hRow hClassified
  rcases List.mem_cons.mp hRow with rfl | hRow
  · contradiction
  · exact ⟨_, _, _, List.mem_singleton.mp hRow⟩

end CppChat.Ports.Messages
