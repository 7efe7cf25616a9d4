import CppChat.Verified.LabelledQuery
import CppChat.Ports.MessageStore

/-!
# The message store on MySQL

With a connection pool a message lives in two places: the vector of the memory
mode, and a row of the `messages` table.  `append` pushes to the vector under
the lock, then tries to insert the row, and each of the five database calls on
the way may fail: the caller then gets the position in the vector as the id,
and is not told.  The pages read the table, and fall back to the vector when
the pool has no connection to give.

The database enters as arguments: which calls fail, which fetches fail, and the
time stamp of a row.  An `INSERT` adds one row under the next auto-increment
id, or fails without effect, as it does for a body that the `TEXT` column
cannot hold.  A `SELECT` has its standard meaning.

## Main results

* `finishAppend_eq`: what the database part of `append` does.
* `page_of_acquired`, `page_of_fallback`: what a page is made of.
-/

namespace CppChat.Ports.Messages

open CppChat.Verified
open CppChat.Verified.LabelledQuery
open CppChat.Ports.Protocol

/-! ## Rows -/

/-- The string written to the `type` column. -/
def messageTypeToString : MessageType → Bytes
  | .directChat => ascii "DirectChat"
  | .groupChat => ascii "GroupChat"
  | .groupJoin => ascii "GroupJoin"
  | .groupLeave => ascii "GroupLeave"
  | _ => ascii "System"

/-- The strings of the column differ. -/
theorem typeTexts_nodup :
    [ascii "DirectChat", ascii "GroupChat", ascii "GroupJoin", ascii "GroupLeave",
      ascii "System"].Nodup := by
  decide +kernel

theorem messageTypeToString_eq_directChat (type : MessageType) :
    messageTypeToString type = messageTypeToString .directChat ↔ type = .directChat := by
  have hTexts := typeTexts_nodup
  simp only [List.nodup_cons, List.mem_cons, not_or] at hTexts
  obtain ⟨⟨hGroup, hJoin, hLeave, hSystem, -⟩, -⟩ := hTexts
  cases type <;>
    simp [messageTypeToString, Ne.symm hGroup, Ne.symm hJoin, Ne.symm hLeave, Ne.symm hSystem]

theorem messageTypeToString_eq_groupChat (type : MessageType) :
    messageTypeToString type = messageTypeToString .groupChat ↔ type = .groupChat := by
  have hTexts := typeTexts_nodup
  simp only [List.nodup_cons, List.mem_cons, not_or] at hTexts
  obtain ⟨⟨hDirect, -⟩, ⟨hJoin, hLeave, hSystem, -⟩, -⟩ := hTexts
  cases type <;>
    simp [messageTypeToString, hDirect, Ne.symm hJoin, Ne.symm hLeave, Ne.symm hSystem]

/-- `conversation_type_for`. -/
def conversationTypeFor : MessageType → Nat
  | .directChat => 1
  | .groupChat => 2
  | _ => 0

/-- `(low << 32) | high` on 64 bits. -/
def makeDirectConversationId (a b : Nat) : Nat :=
  ((min a b <<< 32) % 2 ^ 64) ||| max a b

/-- `conversation_id_for`. -/
def conversationIdFor (message : Message) : Nat :=
  match message.type with
  | .directChat => makeDirectConversationId message.senderId message.receiverId
  | .groupChat => message.receiverId
  | _ => 0

/-- A row of the `messages` table. -/
structure MessageRow where
  id : Nat
  conversationType : Nat := 0
  conversationId : Nat := 0
  createdAt : Bytes := []
  type : Bytes
  senderId : Nat
  receiverId : Nat
  body : Bytes
deriving DecidableEq, Repr

/-- The row `append` inserts. -/
def MessageRow.ofMessage (id : Nat) (createdAt : Bytes) (message : Message) : MessageRow :=
  { id := id
    conversationType := conversationTypeFor message.type
    conversationId := conversationIdFor message
    createdAt := createdAt
    type := messageTypeToString message.type
    senderId := message.senderId
    receiverId := message.receiverId
    body := message.body }

/-- The row has this id, and the type, sender, receiver and body of the message. -/
def MessageRow.Holds (row : MessageRow) (id : Nat) (message : Message) : Prop :=
  row.id = id ∧ row.type = messageTypeToString message.type ∧
    row.senderId = message.senderId ∧ row.receiverId = message.receiverId ∧
    row.body = message.body

instance (row : MessageRow) (id : Nat) (message : Message) :
    Decidable (row.Holds id message) :=
  inferInstanceAs (Decidable (_ ∧ _))

theorem MessageRow.holds_ofMessage (id : Nat) (createdAt : Bytes) (message : Message) :
    (MessageRow.ofMessage id createdAt message).Holds id message :=
  ⟨rfl, rfl, rfl, rfl, rfl⟩

/-- A fetched row as a message of the given type. -/
def MessageRow.toStored (type : MessageType) (row : MessageRow) : StoredMessage :=
  { id := row.id, type := type, senderId := row.senderId, receiverId := row.receiverId,
    body := row.body, createdAt := row.createdAt }

/-! ## The store -/

/-- The vector, the rows of the table and its auto-increment counter. -/
structure PooledMessageStore where
  memory : MessageStore := {}
  rows : List MessageRow := []
  nextId : Nat := 1

/-- The calls of `append` on the database: which of them succeed, and the time
stamp of the row. -/
structure AppendIo where
  acquired : Bool := true
  initialized : Bool := true
  prepared : Bool := true
  bound : Bool := true
  executed : Bool := true
  createdAt : Bytes := []

/-- The most bytes a `TEXT` column holds. -/
def kTextBytes : Nat := 65535

/-- All calls succeed and the body fits. -/
def AppendIo.inserts (io : AppendIo) (message : Message) : Bool :=
  io.acquired && io.initialized && io.prepared && io.bound && io.executed &&
    decide (message.body.length ≤ kTextBytes)

/-- What `mysql_stmt_fetch` and `mysql_stmt_fetch_column` make of a row. -/
inductive FetchOutcome where
  | row
  | bodyError
  | error
deriving DecidableEq, Repr

/-- The calls of a page query on the database: whether the pool gives a
connection, whether the statement is set up and executed, and the fetches.
Fetches beyond the list succeed. -/
structure QueryIo where
  acquired : Bool := true
  executed : Bool := true
  fetches : List FetchOutcome := []

namespace PooledMessageStore

/-- `mysql_stmt_execute` of the `INSERT`, and `mysql_insert_id`. -/
def insert (store : PooledMessageStore) (message : Message) (io : AppendIo) :
    Option Nat × PooledMessageStore :=
  if io.executed && decide (message.body.length ≤ kTextBytes) then
    (some store.nextId,
      { store with
        rows := store.rows ++ [.ofMessage store.nextId io.createdAt message]
        nextId := store.nextId + 1 })
  else (none, store)

/-- The part of `append` under the lock. -/
def beginAppend (store : PooledMessageStore) (message : Message) :
    StoredMessage × PooledMessageStore :=
  let (stored, memory) := store.memory.append message
  (stored, { store with memory := memory })

/-- The rest of `append`, with its exits. -/
def finishAppend (store : PooledMessageStore) (message : Message) (stored : StoredMessage)
    (io : AppendIo) : StoredMessage × PooledMessageStore :=
  if !io.acquired then (stored, store)
  else if !io.initialized then (stored, store)
  else if !io.prepared then (stored, store)
  else if !io.bound then (stored, store)
  else
    match store.insert message io with
    | (none, store') => (stored, store')
    | (some id, store') => ({ stored with id := id }, store')

/-- `append` with nothing in between. -/
def append (store : PooledMessageStore) (message : Message) (io : AppendIo) :
    StoredMessage × PooledMessageStore :=
  let (stored, store') := store.beginAppend message
  store'.finishAppend message stored io

/-! ## Pages -/

/-- The fetch loop: a failed fetch ends it, a body that cannot be fetched skips
its row.  An empty body is not fetched. -/
def fetchRows : List FetchOutcome → List MessageRow → List MessageRow
  | _, [] => []
  | [], rows => rows
  | .row :: outcomes, row :: rest => row :: fetchRows outcomes rest
  | .bodyError :: outcomes, row :: rest =>
      if row.body.isEmpty then row :: fetchRows outcomes rest else fetchRows outcomes rest
  | .error :: _, _ :: _ => []

/-- A `SELECT` with its filter, order and limit, and the fetch loop.  A
statement that fails has no rows. -/
def executeQuery (store : PooledMessageStore) (select : MessageRow → Bool)
    (order : MessageRow → MessageRow → Bool) (limit : Nat) (io : QueryIo) :
    List MessageRow :=
  if io.executed then
    fetchRows io.fetches
      (((store.rows.filter select).insertionSort fun a b => order a b).take limit)
  else []

/-- The history pages: one conversation, newest first, below the cursor when one
is given. -/
def executeHistoryPageQuery (store : PooledMessageStore) (type : MessageType)
    (conversationType conversationId beforeId limit : Nat) (io : QueryIo) :
    List StoredMessage :=
  (store.executeQuery
    (fun row => row.conversationType == conversationType &&
      row.conversationId == conversationId && (beforeId == 0 || decide (row.id < beforeId)))
    (fun a b => decide (b.id ≤ a.id)) limit io).map (MessageRow.toStored type)

/-- `direct_history_page`: without a connection, the page of the vector. -/
def directHistoryPage (store : PooledMessageStore) (userId peerId limit beforeId : Nat)
    (io : QueryIo) : List StoredMessage :=
  if io.acquired then
    store.executeHistoryPageQuery .directChat 1 (makeDirectConversationId userId peerId)
      beforeId (MessageStore.pageLimit limit) io
  else store.memory.directHistoryPage userId peerId limit beforeId

/-- `group_history_page`: without a connection, the page of the vector. -/
def groupHistoryPage (store : PooledMessageStore) (groupId limit beforeId : Nat)
    (io : QueryIo) : List StoredMessage :=
  if io.acquired then
    store.executeHistoryPageQuery .groupChat 2 groupId beforeId
      (MessageStore.pageLimit limit) io
  else store.memory.groupHistoryPage groupId limit beforeId

/-- The unread query: oldest first, above the cursor, with the type read back
from its column. -/
def executeUnreadQuery (store : PooledMessageStore) (userId : Nat) (groupIds : List Nat)
    (lastSeenMessageId limit : Nat) (io : QueryIo) : List StoredMessage :=
  (store.executeQuery
    (fun row => decide (row.id > lastSeenMessageId) &&
      (row.conversationType == 1 && row.receiverId == userId ||
        groupIds.any fun groupId => row.conversationType == 2 &&
          row.conversationId == groupId && row.senderId != userId))
    (fun a b => decide (a.id ≤ b.id)) limit io).map fun row =>
      MessageRow.toStored
        (if row.type = ascii "GroupChat" then .groupChat else .directChat) row

/-- `unread_page`: without a connection, the page of the vector. -/
def unreadPage (store : PooledMessageStore) (userId : Nat) (groupIds : List Nat)
    (lastSeenMessageId limit : Nat) (io : QueryIo) : List StoredMessage :=
  if io.acquired then
    store.executeUnreadQuery userId groupIds lastSeenMessageId
      (MessageStore.pageLimit limit) io
  else store.memory.unreadPage userId groupIds lastSeenMessageId limit

/-- A history without a page: every row of the selection, oldest first. -/
def executeHistoryQuery (store : PooledMessageStore) (type : MessageType)
    (select : MessageRow → Bool) (io : QueryIo) : List Message :=
  if io.executed then
    (fetchRows io.fetches
      ((store.rows.filter select).insertionSort fun a b => a.id ≤ b.id)).map fun row =>
        { type := type, senderId := row.senderId, receiverId := row.receiverId, body := row.body }
  else []

/-- This query names the two users, and not their conversation. -/
def directHistory (store : PooledMessageStore) (userId peerId : Nat) (io : QueryIo) :
    List Message :=
  if io.acquired then
    store.executeHistoryQuery .directChat
      (fun row => row.type == ascii "DirectChat" &&
        (row.senderId == userId && row.receiverId == peerId ||
          row.senderId == peerId && row.receiverId == userId)) io
  else store.memory.directHistory userId peerId

end PooledMessageStore

/-- The three page queries. -/
inductive PageQuery where
  | direct (userId peerId limit beforeId : Nat)
  | group (groupId limit beforeId : Nat)
  | unread (userId : Nat) (groupIds : List Nat) (lastSeenMessageId limit : Nat)
deriving DecidableEq, Repr

/-- The page that a query gets. -/
def PooledMessageStore.page (store : PooledMessageStore) (io : QueryIo) :
    PageQuery → List StoredMessage
  | .direct userId peerId limit beforeId =>
      store.directHistoryPage userId peerId limit beforeId io
  | .group groupId limit beforeId => store.groupHistoryPage groupId limit beforeId io
  | .unread userId groupIds lastSeenMessageId limit =>
      store.unreadPage userId groupIds lastSeenMessageId limit io

/-! ## What `append` does -/

/-- The database part inserts the row and returns its id, or does nothing and
returns the position in the vector. -/
theorem finishAppend_eq (store : PooledMessageStore) (message : Message)
    (stored : StoredMessage) (io : AppendIo) :
    store.finishAppend message stored io =
      if io.inserts message then
        ({ stored with id := store.nextId },
          { store with
            rows := store.rows ++ [.ofMessage store.nextId io.createdAt message]
            nextId := store.nextId + 1 })
      else (stored, store) := by
  unfold PooledMessageStore.finishAppend PooledMessageStore.insert AppendIo.inserts
  cases io.acquired <;> cases io.initialized <;> cases io.prepared <;> cases io.bound <;>
    first
    | rfl
    | (cases io.executed <;> by_cases hFits : message.body.length ≤ kTextBytes <;>
        simp [hFits])

/-- The vector grows before the table is asked. -/
theorem beginAppend_eq (store : PooledMessageStore) (message : Message) :
    store.beginAppend message =
      (.ofMessage (store.memory.messages.length + 1) message,
        { store with memory := { messages := store.memory.messages ++ [message] } }) := by
  unfold PooledMessageStore.beginAppend MessageStore.append
  simp

/-! ## The parts of a page query -/

namespace PageQuery

/-- The number of items of a page. -/
def limit : PageQuery → Nat
  | .direct _ _ limit _ => MessageStore.pageLimit limit
  | .group _ limit _ => MessageStore.pageLimit limit
  | .unread _ _ _ limit => MessageStore.pageLimit limit

/-- Whether the newest items come first. -/
def newestFirst : PageQuery → Bool
  | .unread _ _ _ _ => false
  | _ => true

/-- The rows of the table that the statement selects. -/
def selectsRow : PageQuery → MessageRow → Bool
  | .direct userId peerId _ beforeId => fun row => row.conversationType == 1 &&
      row.conversationId == makeDirectConversationId userId peerId &&
      (beforeId == 0 || decide (row.id < beforeId))
  | .group groupId _ beforeId => fun row => row.conversationType == 2 &&
      row.conversationId == groupId && (beforeId == 0 || decide (row.id < beforeId))
  | .unread userId groupIds lastSeenMessageId _ => fun row =>
      decide (row.id > lastSeenMessageId) &&
        (row.conversationType == 1 && row.receiverId == userId ||
          groupIds.any fun groupId => row.conversationType == 2 &&
            row.conversationId == groupId && row.senderId != userId)

/-- The order of the statement. -/
def rowOrder (query : PageQuery) (a b : MessageRow) : Bool :=
  if query.newestFirst then decide (b.id ≤ a.id) else decide (a.id ≤ b.id)

/-- The type of the message that is made of a row. -/
def typeOf : PageQuery → MessageRow → MessageType
  | .direct _ _ _ _ => fun _ => .directChat
  | .group _ _ _ => fun _ => .groupChat
  | .unread _ _ _ _ => fun row =>
      if row.type = ascii "GroupChat" then .groupChat else .directChat

/-- The messages of the vector that the scan keeps. -/
def selectsMessage : PageQuery → StoredMessage → Bool
  | .direct userId peerId _ beforeId => fun message =>
      !(decide (beforeId > 0) && decide (message.id ≥ beforeId)) &&
        MessageStore.isDirectBetween userId peerId message
  | .group groupId _ beforeId => fun message =>
      !(decide (beforeId > 0) && decide (message.id ≥ beforeId)) &&
        MessageStore.isGroupMessageOf groupId message
  | .unread userId groupIds lastSeenMessageId _ => fun message =>
      !decide (message.id ≤ lastSeenMessageId) &&
        MessageStore.isUnreadFor userId groupIds message

/-- The order of the scan. -/
def scanned {α : Type} (query : PageQuery) (items : List α) : List α :=
  if query.newestFirst then items.reverse else items

end PageQuery

/-- A page read from the table: the rows that the statement selects, as messages. -/
theorem page_of_acquired (store : PooledMessageStore) {io : QueryIo}
    (hAcquired : io.acquired = true) (query : PageQuery) :
    store.page io query =
      (store.executeQuery query.selectsRow query.rowOrder query.limit io).map fun row =>
        row.toStored (query.typeOf row) := by
  cases query with
  | direct userId peerId limit beforeId => exact if_pos hAcquired
  | group groupId limit beforeId => exact if_pos hAcquired
  | unread userId groupIds lastSeenMessageId limit => exact if_pos hAcquired

/-- A page read from the vector: the first messages that the scan keeps. -/
theorem page_of_fallback (store : PooledMessageStore) {io : QueryIo}
    (hAcquired : io.acquired = false) (query : PageQuery) :
    store.page io query =
      firstOf query.selectsMessage query.limit (query.scanned store.memory.numbered) := by
  have hNot : ¬io.acquired = true := by simp [hAcquired]
  cases query with
  | direct userId peerId limit beforeId =>
      exact (if_neg hNot).trans (MessageStore.historyPage_eq _ _ _ _)
  | group groupId limit beforeId =>
      exact (if_neg hNot).trans (MessageStore.historyPage_eq _ _ _ _)
  | unread userId groupIds lastSeenMessageId limit =>
      exact (if_neg hNot).trans (MessageStore.unreadPage_eq _ _ _ _ _)

end CppChat.Ports.Messages
