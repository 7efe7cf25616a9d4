import CppChat.Ports.ProtocolMessage

/-!
# The message store in memory mode

Messages are kept in arrival order, and a message's id is its position counted
from one.  The history pages scan backward from the newest message, the unread
page scans forward from the cursor; both stop at the page limit.
-/

namespace CppChat.Ports.Messages

open CppChat.Verified
open CppChat.Ports.Protocol

/-- A stored message. -/
structure StoredMessage where
  id : Nat := 0
  type : MessageType := .system
  senderId : Nat := 0
  receiverId : Nat := 0
  body : Bytes := []
  createdAt : Bytes := []
deriving DecidableEq, Repr

/-- A message under its id; only MySQL fills `created_at`. -/
def StoredMessage.ofMessage (id : Nat) (message : Message) : StoredMessage :=
  { id := id, type := message.type, senderId := message.senderId,
    receiverId := message.receiverId, body := message.body }

/-- The vector of messages, oldest first. -/
structure MessageStore where
  messages : List Message := []

namespace MessageStore

/-- The messages with their ids, oldest first. -/
def numbered (store : MessageStore) : List StoredMessage :=
  store.messages.mapIdx fun index message => .ofMessage (index + 1) message

/-- `append`: the id is the position in the vector. -/
def append (store : MessageStore) (message : Message) : StoredMessage × MessageStore :=
  let messages := store.messages ++ [message]
  (.ofMessage messages.length message, { messages := messages })

/-- A direct message between two users, in either direction. -/
def isDirectBetween (userId peerId : Nat) (message : StoredMessage) : Bool :=
  message.type = .directChat &&
    ((message.senderId == userId && message.receiverId == peerId) ||
      (message.senderId == peerId && message.receiverId == userId))

/-- A message sent to the group. -/
def isGroupMessageOf (groupId : Nat) (message : StoredMessage) : Bool :=
  message.type = .groupChat && message.receiverId == groupId

/-- A message a user has not sent itself and that is addressed to it, directly
or through one of its groups. -/
def isUnreadFor (userId : Nat) (groupIds : List Nat) (message : StoredMessage) : Bool :=
  (message.type = .directChat && message.receiverId == userId) ||
    (message.type = .groupChat && message.senderId != userId &&
      decide (message.receiverId ∈ groupIds))

/-- The scan loop all pages share: walk the list, keep what `select` accepts,
stop once `limit` messages are kept. -/
def scan (select : StoredMessage → Bool) (limit : Nat) :
    List StoredMessage → List StoredMessage → List StoredMessage
  | [], kept => kept
  | message :: rest, kept =>
      if kept.length < limit then
        if select message then scan select limit rest (kept ++ [message])
        else scan select limit rest kept
      else kept

/-- A page limit of zero stands for the default. -/
def pageLimit (limit : Nat) : Nat := if limit = 0 then 20 else limit

/-- A history page: newest first, below the cursor when one is given. -/
def historyPage (store : MessageStore) (select : StoredMessage → Bool)
    (limit beforeId : Nat) : List StoredMessage :=
  scan (fun message => !(decide (beforeId > 0) && decide (message.id ≥ beforeId)) &&
      select message)
    (pageLimit limit) store.numbered.reverse []

/-- `direct_history_page`. -/
def directHistoryPage (store : MessageStore) (userId peerId limit beforeId : Nat) :
    List StoredMessage :=
  store.historyPage (isDirectBetween userId peerId) limit beforeId

/-- `group_history_page`. -/
def groupHistoryPage (store : MessageStore) (groupId limit beforeId : Nat) :
    List StoredMessage :=
  store.historyPage (isGroupMessageOf groupId) limit beforeId

/-- An unread page: oldest first, above the cursor. -/
def unreadPage (store : MessageStore) (userId : Nat) (groupIds : List Nat)
    (lastSeenMessageId limit : Nat) : List StoredMessage :=
  scan (fun message => !decide (message.id ≤ lastSeenMessageId) &&
      isUnreadFor userId groupIds message)
    (pageLimit limit) store.numbered []

/-- The messages between two users, oldest first. -/
def directHistory (store : MessageStore) (userId peerId : Nat) : List Message :=
  store.messages.filter fun message => message.type == .directChat &&
    (message.senderId == userId && message.receiverId == peerId ||
      message.senderId == peerId && message.receiverId == userId)

/-! ## Numbered messages -/

theorem getElem?_numbered (store : MessageStore) (i : Nat) :
    store.numbered[i]? = store.messages[i]?.map (StoredMessage.ofMessage (i + 1)) := by
  simp [numbered, List.getElem?_mapIdx]

@[simp] theorem length_numbered (store : MessageStore) :
    store.numbered.length = store.messages.length := by
  simp [numbered]

/-- A message has its position as its id. -/
theorem mem_numbered {store : MessageStore} {m : StoredMessage} :
    m ∈ store.numbered ↔
      ∃ i message, store.messages[i]? = some message ∧ m = .ofMessage (i + 1) message := by
  rw [List.mem_iff_getElem?]
  constructor
  · rintro ⟨i, hi⟩
    rw [getElem?_numbered] at hi
    obtain ⟨message, hMessage, hEq⟩ := Option.map_eq_some_iff.mp hi
    exact ⟨i, message, hMessage, hEq.symm⟩
  · rintro ⟨i, message, hMessage, rfl⟩
    exact ⟨i, by rw [getElem?_numbered, hMessage]; rfl⟩

/-- Ids start at one and end at the number of messages. -/
theorem id_bounds {store : MessageStore} {m : StoredMessage} (h : m ∈ store.numbered) :
    1 ≤ m.id ∧ m.id ≤ store.messages.length := by
  obtain ⟨i, message, hMessage, rfl⟩ := mem_numbered.mp h
  have hLt := (List.getElem?_eq_some_iff.mp hMessage).1
  exact ⟨Nat.le_add_left 1 i, hLt⟩

/-- Ids ascend. -/
theorem numbered_sorted (store : MessageStore) :
    store.numbered.Pairwise fun a b => a.id < b.id := by
  rw [List.pairwise_iff_getElem]
  intro i j hi hj hij
  simp only [numbered, List.getElem_mapIdx, StoredMessage.ofMessage]
  omega

/-- An id stands for one message. -/
theorem eq_of_id {store : MessageStore} {a b : StoredMessage} (ha : a ∈ store.numbered)
    (hb : b ∈ store.numbered) (hId : a.id = b.id) : a = b := by
  obtain ⟨i, message, hMessage, rfl⟩ := mem_numbered.mp ha
  obtain ⟨j, message', hMessage', rfl⟩ := mem_numbered.mp hb
  have hij : i = j := Nat.succ.inj hId
  rw [hij, hMessage'] at hMessage
  rw [hij, Option.some.inj hMessage]

/-- A new message gets the next number. -/
theorem numbered_append (store : MessageStore) (message : Message) :
    (store.append message).2.numbered =
      store.numbered ++ [.ofMessage (store.messages.length + 1) message] := by
  simp [numbered, append, List.mapIdx_append]

/-! ## What a page holds -/

/-- The scan is the filtered list, cut at the limit. -/
theorem scan_eq (select : StoredMessage → Bool) (limit : Nat) :
    ∀ messages kept : List StoredMessage, kept.length ≤ limit →
      scan select limit messages kept =
        kept ++ (messages.filter select).take (limit - kept.length) := by
  intro messages
  induction messages with
  | nil => intro kept _; simp [scan]
  | cons message rest ih =>
      intro kept hKept
      rw [scan]
      by_cases hRoom : kept.length < limit
      · rw [if_pos hRoom]
        by_cases hSelect : select message
        · have hLength : (kept ++ [message]).length ≤ limit := by
            rw [List.length_append, List.length_singleton]
            omega
          have hLeft : limit - kept.length = limit - (kept ++ [message]).length + 1 := by
            rw [List.length_append, List.length_singleton]
            omega
          rw [if_pos hSelect, ih _ hLength, List.filter_cons_of_pos hSelect, hLeft,
            List.take_succ_cons, List.append_assoc]
          rfl
        · rw [if_neg hSelect, ih _ hKept, List.filter_cons_of_neg hSelect]
      · have hFull : limit - kept.length = 0 := by omega
        rw [if_neg hRoom, hFull, List.take_zero, List.append_nil]

theorem pageLimit_pos (limit : Nat) : 0 < pageLimit limit := by
  unfold pageLimit
  split <;> omega

/-- A history page counted from the back. -/
theorem historyPage_eq (store : MessageStore) (select : StoredMessage → Bool)
    (limit beforeId : Nat) :
    store.historyPage select limit beforeId =
      (store.numbered.reverse.filter fun message =>
        !(decide (beforeId > 0) && decide (message.id ≥ beforeId)) && select message).take
          (pageLimit limit) := by
  rw [historyPage, scan_eq _ _ _ _ (Nat.zero_le _), List.nil_append, List.length_nil,
    Nat.sub_zero]

/-- An unread page counted from the front. -/
theorem unreadPage_eq (store : MessageStore) (userId : Nat) (groupIds : List Nat)
    (lastSeenMessageId limit : Nat) :
    store.unreadPage userId groupIds lastSeenMessageId limit =
      (store.numbered.filter fun message => !decide (message.id ≤ lastSeenMessageId) &&
        isUnreadFor userId groupIds message).take (pageLimit limit) := by
  rw [unreadPage, scan_eq _ _ _ _ (Nat.zero_le _), List.nil_append, List.length_nil,
    Nat.sub_zero]

/-- A page has stored messages of its conversation. -/
theorem mem_historyPage {store : MessageStore} {select : StoredMessage → Bool}
    {limit beforeId : Nat} {m : StoredMessage}
    (h : m ∈ store.historyPage select limit beforeId) :
    m ∈ store.numbered ∧ select m = true := by
  rw [historyPage_eq] at h
  have hFilter := List.mem_filter.mp (List.mem_of_mem_take h)
  exact ⟨List.mem_reverse.mp hFilter.1, (Bool.and_eq_true _ _ ▸ hFilter.2).2⟩

theorem mem_unreadPage {store : MessageStore} {userId : Nat} {groupIds : List Nat}
    {lastSeenMessageId limit : Nat} {m : StoredMessage}
    (h : m ∈ store.unreadPage userId groupIds lastSeenMessageId limit) :
    m ∈ store.numbered ∧ isUnreadFor userId groupIds m = true := by
  rw [unreadPage_eq] at h
  have hFilter := List.mem_filter.mp (List.mem_of_mem_take h)
  exact ⟨hFilter.1, (Bool.and_eq_true _ _ ▸ hFilter.2).2⟩

end MessageStore

end CppChat.Ports.Messages
