import Mathlib.Data.List.Induction
import CppChat.Ports.MessagesTable

/-!
# The two modes of the message store

A store without a pool answers from its vector, a store with a pool from the
`messages` table.  With the same messages in both, and a database that does
nothing wrong, a client should not see which of the two it talks to.

The vector compares senders and receivers.  The table files a direct message
under a conversation id, `(low << 32) | high` on 64 bits: the larger id is not cut
to its half, and the smaller one loses its upper half.  Two pairs of users can
therefore share a conversation, and then each reads the messages of the other.

## Main results

* `conversationId_eq_iff`: which pairs share a conversation, in arithmetic.
* `stores_agree_iff`: for which messages the two modes answer two users alike.
* `stores_agree_of_lt`: below `2 ^ 32` they always do.
-/

namespace CppChat.Ports.Messages

open CppChat.Verified
open CppChat.Ports.Protocol

/-! ## Conversations -/

/-- The pairs pack into the same 64 bits: the larger ids have the same lower half,
and the upper halves, mixed with the smaller ids, are the same as well. -/
def SharesConversation (a b userId peerId : Nat) : Prop :=
  max a b % 2 ^ 32 = max userId peerId % 2 ^ 32 ∧
    (min a b % 2 ^ 32) ||| (max a b / 2 ^ 32) =
      (min userId peerId % 2 ^ 32) ||| (max userId peerId / 2 ^ 32)

instance (a b userId peerId : Nat) : Decidable (SharesConversation a b userId peerId) :=
  inferInstanceAs (Decidable (_ ∧ _))

/-- The two users are the same, in some order. -/
def SamePair (a b userId peerId : Nat) : Prop :=
  a = userId ∧ b = peerId ∨ a = peerId ∧ b = userId

instance (a b userId peerId : Nat) : Decidable (SamePair a b userId peerId) :=
  inferInstanceAs (Decidable (_ ∨ _))

theorem makeDirectConversationId_mod (a b : Nat) :
    makeDirectConversationId a b % 2 ^ 32 = max a b % 2 ^ 32 := by
  have hLow : (min a b <<< 32) % 2 ^ 64 % 2 ^ 32 = 0 := by
    rw [Nat.shiftLeft_eq]
    omega
  rw [makeDirectConversationId, Nat.or_mod_two_pow, hLow, Nat.zero_or]

theorem makeDirectConversationId_div (a b : Nat) :
    makeDirectConversationId a b / 2 ^ 32 =
      (min a b % 2 ^ 32) ||| (max a b / 2 ^ 32) := by
  have hLow : (min a b <<< 32) % 2 ^ 64 / 2 ^ 32 = min a b % 2 ^ 32 := by
    rw [Nat.shiftLeft_eq]
    omega
  rw [makeDirectConversationId, ← Nat.shiftRight_eq_div_pow, Nat.shiftRight_or_distrib,
    Nat.shiftRight_eq_div_pow, Nat.shiftRight_eq_div_pow, hLow]

/-- The pairs that have the same conversation id. -/
theorem conversationId_eq_iff (a b userId peerId : Nat) :
    makeDirectConversationId a b = makeDirectConversationId userId peerId ↔
      SharesConversation a b userId peerId := by
  rw [SharesConversation, ← makeDirectConversationId_mod, ← makeDirectConversationId_mod,
    ← makeDirectConversationId_div, ← makeDirectConversationId_div]
  constructor
  · intro h
    rw [h]
    exact ⟨rfl, rfl⟩
  · rintro ⟨hMod, hDiv⟩
    rw [← Nat.div_add_mod (makeDirectConversationId a b) (2 ^ 32), hMod, hDiv,
      Nat.div_add_mod]

/-- The same two users share a conversation. -/
theorem SamePair.shares {a b userId peerId : Nat} (h : SamePair a b userId peerId) :
    SharesConversation a b userId peerId := by
  rcases h with ⟨rfl, rfl⟩ | ⟨rfl, rfl⟩
  · exact ⟨rfl, rfl⟩
  · rw [SharesConversation, max_comm, min_comm]
    exact ⟨rfl, rfl⟩

/-- Ids of at most 32 bits pack without a loss. -/
theorem samePair_of_lt {a b userId peerId : Nat} (ha : a < 2 ^ 32) (hb : b < 2 ^ 32)
    (hUser : userId < 2 ^ 32) (hPeer : peerId < 2 ^ 32)
    (h : SharesConversation a b userId peerId) : SamePair a b userId peerId := by
  obtain ⟨hMax, hMin⟩ := h
  have hZero : max a b / 2 ^ 32 = 0 := by omega
  have hZero' : max userId peerId / 2 ^ 32 = 0 := by omega
  rw [hZero, hZero', Nat.or_zero, Nat.or_zero] at hMin
  rw [SamePair]
  omega

/-! ## The same messages in both modes -/

/-- Append to a store without a pool. -/
def memoryOf (messages : List Message) : MessageStore :=
  messages.foldl (fun store message => (store.append message).2) {}

/-- Append to a store with a pool and an empty table; every call succeeds, and each
row gets a time stamp. -/
def pooledOf (entries : List (Message × Bytes)) : PooledMessageStore :=
  entries.foldl (fun store entry => (store.append entry.1 { createdAt := entry.2 }).2) {}

/-- The messages with their ids. -/
def items (entries : List (Message × Bytes)) : List (Nat × Message × Bytes) :=
  entries.mapIdx fun i entry => (i + 1, entry)

/-- The row of a message. -/
def rowOf (item : Nat × Message × Bytes) : MessageRow := .ofMessage item.1 item.2.2 item.2.1

/-- The message as the vector reports it. -/
def storedOf (item : Nat × Message × Bytes) : StoredMessage := .ofMessage item.1 item.2.1

theorem memoryOf_messages (messages : List Message) : (memoryOf messages).messages = messages := by
  induction messages using List.reverseRecOn with
  | nil => rfl
  | append_singleton messages message ih =>
      rw [memoryOf, List.foldl_concat]
      show (memoryOf messages).messages ++ [message] = messages ++ [message]
      rw [ih]

theorem memoryOf_numbered (entries : List (Message × Bytes)) :
    (memoryOf (entries.map Prod.fst)).numbered = (items entries).map storedOf := by
  rw [MessageStore.numbered, memoryOf_messages, items]
  apply List.ext_getElem?
  intro i
  simp only [List.getElem?_mapIdx, List.getElem?_map, Option.map_map]
  rfl

theorem items_concat (entries : List (Message × Bytes)) (entry : Message × Bytes) :
    items (entries ++ [entry]) = items entries ++ [(entries.length + 1, entry)] := by
  simp [items, List.mapIdx_append]

/-- The rows of a table that only `append` has written. -/
theorem pooledOf_rows {entries : List (Message × Bytes)}
    (hFits : ∀ entry ∈ entries, entry.1.body.length ≤ kTextBytes) :
    (pooledOf entries).rows = (items entries).map rowOf ∧
      (pooledOf entries).nextId = entries.length + 1 := by
  induction entries using List.reverseRecOn with
  | nil => exact ⟨rfl, rfl⟩
  | append_singleton entries entry ih =>
      obtain ⟨hFront, hLast⟩ := List.forall_mem_append.mp hFits
      obtain ⟨hRows, hNext⟩ := ih hFront
      have hInserts : AppendIo.inserts { createdAt := entry.2 } entry.1 = true := by
        simpa [AppendIo.inserts] using hLast
      have hAppend : pooledOf (entries ++ [entry]) =
          ((pooledOf entries).append entry.1 { createdAt := entry.2 }).2 := by
        rw [pooledOf, List.foldl_concat]
        rfl
      rw [hAppend, PooledMessageStore.append, beginAppend_eq]
      simp only [finishAppend_eq, hInserts, if_true]
      rw [hRows, hNext, items_concat, List.map_append, List.length_append]
      exact ⟨rfl, rfl⟩

/-- Ids ascend with the rows. -/
theorem items_sorted (entries : List (Message × Bytes)) :
    (items entries).Pairwise fun a b => a.1 < b.1 := by
  rw [List.pairwise_iff_getElem]
  intro i j hi hj hij
  simp only [items, List.getElem_mapIdx]
  omega

/-! ## Queries -/

theorem fetchRows_nil (rows : List MessageRow) : PooledMessageStore.fetchRows [] rows = rows := by
  cases rows <;> rfl

theorem orderedInsert_eq_concat {α : Type} {r : α → α → Prop} [DecidableRel r] {a : α}
    {l : List α} (h : ∀ b ∈ l, ¬r a b) : l.orderedInsert r a = l ++ [a] := by
  induction l with
  | nil => rfl
  | cons b l ih =>
      obtain ⟨hFirst, hRest⟩ := List.forall_mem_cons.mp h
      rw [List.orderedInsert_cons, if_neg hFirst, ih hRest, List.cons_append]

/-- Sorting a list that is in the opposite order reverses it. -/
theorem insertionSort_eq_reverse {α : Type} {r : α → α → Prop} [DecidableRel r] {l : List α}
    (h : l.Pairwise fun a b => ¬r a b) : l.insertionSort r = l.reverse := by
  induction l with
  | nil => rfl
  | cons a l ih =>
      obtain ⟨hFirst, hRest⟩ := List.pairwise_cons.mp h
      rw [List.insertionSort_cons, ih hRest, List.reverse_cons]
      exact orderedInsert_eq_concat fun b hMem => hFirst b (List.mem_reverse.mp hMem)

section

variable {entries : List (Message × Bytes)}
  (hFits : ∀ entry ∈ entries, entry.1.body.length ≤ kTextBytes)

include hFits

/-- Descending ids are the reverse of the order of the rows. -/
theorem executeQuery_newest (select : MessageRow → Bool) (limit : Nat) :
    (pooledOf entries).executeQuery select (fun a b => decide (b.id ≤ a.id)) limit {} =
      (((items entries).filter (select ∘ rowOf)).reverse.take limit).map rowOf := by
  have hSorted : (((items entries).filter (select ∘ rowOf)).map rowOf).Pairwise
      fun a b => ¬decide (b.id ≤ a.id) = true := by
    rw [List.pairwise_map]
    apply List.Pairwise.imp _ ((items_sorted entries).filter _)
    intro a b hLt hLe
    exact absurd (of_decide_eq_true hLe) (Nat.not_le.mpr hLt)
  rw [PooledMessageStore.executeQuery, if_pos rfl, fetchRows_nil, (pooledOf_rows hFits).1,
    List.filter_map, insertionSort_eq_reverse hSorted, List.map_take, List.map_reverse]

/-- Ascending ids are the order of the rows. -/
theorem executeQuery_oldest (select : MessageRow → Bool) (limit : Nat) :
    (pooledOf entries).executeQuery select (fun a b => decide (a.id ≤ b.id)) limit {} =
      (((items entries).filter (select ∘ rowOf)).take limit).map rowOf := by
  have hSorted : (((items entries).filter (select ∘ rowOf)).map rowOf).Pairwise
      fun a b => decide (a.id ≤ b.id) = true := by
    rw [List.pairwise_map]
    apply List.Pairwise.imp _ ((items_sorted entries).filter _)
    intro a b hLt
    exact decide_eq_true (Nat.le_of_lt hLt)
  rw [PooledMessageStore.executeQuery, if_pos rfl, fetchRows_nil, (pooledOf_rows hFits).1,
    List.filter_map, hSorted.insertionSort_eq, List.map_take]

/-- The rows of a conversation, in the order of their ids. -/
theorem executeHistoryQuery_eq (type : MessageType) (select : MessageRow → Bool) :
    (pooledOf entries).executeHistoryQuery type select {} =
      ((items entries).filter (select ∘ rowOf)).map fun item =>
        { type := type, senderId := item.2.1.senderId, receiverId := item.2.1.receiverId,
          body := item.2.1.body } := by
  have hSorted : (((items entries).filter (select ∘ rowOf)).map rowOf).Pairwise
      fun a b => a.id ≤ b.id := by
    rw [List.pairwise_map]
    exact List.Pairwise.imp (fun hLt => Nat.le_of_lt hLt) ((items_sorted entries).filter _)
  rw [PooledMessageStore.executeHistoryQuery, if_pos rfl, fetchRows_nil, (pooledOf_rows hFits).1,
    List.filter_map, hSorted.insertionSort_eq, List.map_map]
  rfl

end

/-! ## Pages -/

/-- A message without its time stamp. -/
def StoredMessage.withoutTime (message : StoredMessage) : StoredMessage :=
  { message with createdAt := [] }

/-- Two selections that agree on every item, and report what they select alike. -/
theorem map_filter_congr {α β : Type} {l : List α} {p q : α → Bool} {f g : α → β}
    (hSelect : ∀ x ∈ l, p x = q x) (hReport : ∀ x ∈ l, p x = true → f x = g x) :
    (∀ n, ((l.filter p).reverse.take n).map f = ((l.filter q).reverse.take n).map g) ∧
    (∀ n, ((l.filter p).take n).map f = ((l.filter q).take n).map g) ∧
      (l.filter p).map f = (l.filter q).map g := by
  have hReports : ∀ x ∈ l.filter p, f x = g x := by
    intro x hMem
    obtain ⟨hMem, hp⟩ := List.mem_filter.mp hMem
    exact hReport x hMem hp
  rw [← List.filter_congr hSelect]
  refine ⟨fun n => ?_, fun n => ?_, List.map_congr_left hReports⟩
  · apply List.map_congr_left
    exact fun x hMem => hReports x (List.mem_reverse.mp (List.mem_of_mem_take hMem))
  · apply List.map_congr_left
    exact fun x hMem => hReports x (List.mem_of_mem_take hMem)

theorem historyPage_memoryOf (entries : List (Message × Bytes)) (select : StoredMessage → Bool)
    (limit beforeId : Nat) :
    (memoryOf (entries.map Prod.fst)).historyPage select limit beforeId =
      (((items entries).filter fun item =>
        !(decide (beforeId > 0) && decide (item.1 ≥ beforeId)) &&
          select (storedOf item)).reverse.take (MessageStore.pageLimit limit)).map storedOf := by
  rw [MessageStore.historyPage_eq, memoryOf_numbered, ← List.map_reverse, List.filter_map,
    List.map_take, List.filter_reverse]
  rfl

theorem unreadPage_memoryOf (entries : List (Message × Bytes)) (userId : Nat)
    (groupIds : List Nat) (lastSeenMessageId limit : Nat) :
    (memoryOf (entries.map Prod.fst)).unreadPage userId groupIds lastSeenMessageId limit =
      (((items entries).filter fun item => !decide (item.1 ≤ lastSeenMessageId) &&
        MessageStore.isUnreadFor userId groupIds (storedOf item)).take
          (MessageStore.pageLimit limit)).map storedOf := by
  rw [MessageStore.unreadPage_eq, memoryOf_numbered, List.filter_map, List.map_take]
  rfl

/-- The cursor of a history page, as the two modes test it. -/
theorem cursor_eq (id beforeId : Nat) :
    (beforeId == 0 || decide (id < beforeId)) =
      !(decide (beforeId > 0) && decide (id ≥ beforeId)) := by
  rw [Bool.eq_iff_iff]
  simp only [Bool.or_eq_true, beq_iff_eq, decide_eq_true_eq, Bool.not_eq_true',
    Bool.and_eq_false_iff, decide_eq_false_iff_not]
  omega

/-- The columns a group page selects by. -/
theorem group_selected (item : Nat × Message × Bytes) (groupId : Nat) :
    ((rowOf item).conversationType == 2 && (rowOf item).conversationId == groupId) =
      MessageStore.isGroupMessageOf groupId (storedOf item) := by
  obtain ⟨id, ⟨type, senderId, receiverId, body⟩, time⟩ := item
  cases type <;> rfl

/-- The columns a direct page selects by. -/
theorem direct_selected (item : Nat × Message × Bytes) (conversationId : Nat) :
    ((rowOf item).conversationType == 1 && (rowOf item).conversationId == conversationId) =
      (item.2.1.type == .directChat && makeDirectConversationId item.2.1.senderId
        item.2.1.receiverId == conversationId) := by
  obtain ⟨id, ⟨type, senderId, receiverId, body⟩, time⟩ := item
  cases type <;> rfl

/-- The columns an unread page selects by: one clause for the user, and one for each
of its groups. -/
theorem unread_selected (item : Nat × Message × Bytes) (userId : Nat) (groupIds : List Nat) :
    ((rowOf item).conversationType == 1 && (rowOf item).receiverId == userId ||
      groupIds.any fun groupId => (rowOf item).conversationType == 2 &&
        (rowOf item).conversationId == groupId && (rowOf item).senderId != userId) =
      MessageStore.isUnreadFor userId groupIds (storedOf item) := by
  obtain ⟨id, ⟨type, senderId, receiverId, body⟩, time⟩ := item
  have hAny : (groupIds.any fun groupId => receiverId == groupId && senderId != userId) =
      (senderId != userId && decide (receiverId ∈ groupIds)) := by
    rw [Bool.eq_iff_iff]
    simp only [List.any_eq_true, Bool.and_eq_true, beq_iff_eq, decide_eq_true_eq]
    constructor
    · rintro ⟨groupId, hMem, rfl, hOther⟩
      exact ⟨hOther, hMem⟩
    · rintro ⟨hOther, hMem⟩
      exact ⟨receiverId, hMem, rfl, hOther⟩
  have hNone : (groupIds.any fun _ => false) = false := by simp
  cases type with
  | directChat => exact congrArg ((receiverId == userId) || ·) hNone
  | groupChat => exact hAny
  | _ => exact hNone

/-- The type of a message that can be unread is read back from its column. -/
theorem type_readBack {item : Nat × Message × Bytes} {userId : Nat} {groupIds : List Nat}
    (h : MessageStore.isUnreadFor userId groupIds (storedOf item) = true) :
    (if (rowOf item).type = ascii "GroupChat" then MessageType.groupChat else .directChat) =
      item.2.1.type := by
  obtain ⟨id, ⟨type, senderId, receiverId, body⟩, time⟩ := item
  have hDirect : ascii "DirectChat" ≠ ascii "GroupChat" := by
    rw [ascii_ofList, ascii_ofList]
    decide
  cases type with
  | directChat => exact if_neg hDirect
  | groupChat => exact if_pos rfl
  | _ => contradiction

section

variable {entries : List (Message × Bytes)}
  (hFits : ∀ entry ∈ entries, entry.1.body.length ≤ kTextBytes)

include hFits

/-- Group pages agree in both modes. -/
theorem groupHistoryPage_agree (groupId limit beforeId : Nat) :
    ((pooledOf entries).groupHistoryPage groupId limit beforeId {}).map
        StoredMessage.withoutTime =
      (memoryOf (entries.map Prod.fst)).groupHistoryPage groupId limit beforeId := by
  rw [PooledMessageStore.groupHistoryPage, if_pos rfl,
    PooledMessageStore.executeHistoryPageQuery, executeQuery_newest hFits, List.map_map,
    List.map_map, MessageStore.groupHistoryPage, historyPage_memoryOf]
  refine (map_filter_congr ?_ ?_).1 _
  · intro item _
    rw [← group_selected, Bool.and_comm, ← cursor_eq]
    rfl
  · intro item _ hSelect
    have hType : item.2.1.type = .groupChat := by
      have hGroup := (Bool.and_eq_true _ _ ▸ hSelect : _ ∧ _).1
      rw [group_selected] at hGroup
      exact of_decide_eq_true (Bool.and_eq_true _ _ ▸ hGroup : _ ∧ _).1
    simp only [Function.comp_apply, storedOf, StoredMessage.ofMessage, hType]
    rfl

/-- Unread pages agree in both modes. -/
theorem unreadPage_agree (userId : Nat) (groupIds : List Nat)
    (lastSeenMessageId limit : Nat) :
    ((pooledOf entries).unreadPage userId groupIds lastSeenMessageId limit {}).map
        StoredMessage.withoutTime =
      (memoryOf (entries.map Prod.fst)).unreadPage userId groupIds lastSeenMessageId limit := by
  rw [PooledMessageStore.unreadPage, if_pos rfl, PooledMessageStore.executeUnreadQuery,
    executeQuery_oldest hFits, List.map_map, List.map_map, unreadPage_memoryOf]
  refine (map_filter_congr ?_ ?_).2.1 _
  · intro item _
    have hCursor : decide (item.1 > lastSeenMessageId) =
        !decide (item.1 ≤ lastSeenMessageId) := by
      rw [← decide_not, decide_eq_decide]
      omega
    rw [← unread_selected, ← hCursor]
    rfl
  · intro item _ hSelect
    have hUnread := (Bool.and_eq_true _ _ ▸ hSelect : _ ∧ _).2
    rw [unread_selected] at hUnread
    simp only [Function.comp_apply, type_readBack hUnread]
    rfl

/-- The whole direct history compares the two users in both modes. -/
theorem directHistory_agree (userId peerId : Nat) :
    (pooledOf entries).directHistory userId peerId {} =
      (memoryOf (entries.map Prod.fst)).directHistory userId peerId := by
  have hMessages : entries.map Prod.fst = (items entries).map fun item => item.2.1 := by
    apply List.ext_getElem?
    intro i
    simp only [items, List.getElem?_map, List.getElem?_mapIdx, Option.map_map]
    rfl
  rw [PooledMessageStore.directHistory, if_pos rfl, executeHistoryQuery_eq hFits,
    MessageStore.directHistory, memoryOf_messages, hMessages, List.filter_map]
  have hTypes : ∀ type : MessageType,
      (messageTypeToString type == ascii "DirectChat") = (type == .directChat) := by
    intro type
    rw [Bool.eq_iff_iff, beq_iff_eq, beq_iff_eq]
    exact messageTypeToString_eq_directChat type
  refine (map_filter_congr ?_ ?_).2.2
  · intro item _
    simp only [Function.comp_apply, ← hTypes]
    rfl
  · intro item _ hSelect
    have hType : item.2.1.type = .directChat := by
      have hFirst : (messageTypeToString item.2.1.type == ascii "DirectChat") = true :=
        (Bool.and_eq_true _ _ ▸ hSelect : _ ∧ _).1
      rw [hTypes] at hFirst
      exact eq_of_beq hFirst
    rw [← hType]

/-- The direct page of the table selects by the conversation. -/
theorem directHistoryPage_pooledOf (userId peerId limit beforeId : Nat) :
    ((pooledOf entries).directHistoryPage userId peerId limit beforeId {}).map
        StoredMessage.withoutTime =
      (((items entries).filter fun item =>
        !(decide (beforeId > 0) && decide (item.1 ≥ beforeId)) &&
          (item.2.1.type == .directChat && makeDirectConversationId item.2.1.senderId
            item.2.1.receiverId == makeDirectConversationId userId peerId)).reverse.take
          (MessageStore.pageLimit limit)).map storedOf := by
  rw [PooledMessageStore.directHistoryPage, if_pos rfl,
    PooledMessageStore.executeHistoryPageQuery, executeQuery_newest hFits, List.map_map,
    List.map_map]
  refine (map_filter_congr ?_ ?_).1 _
  · intro item _
    rw [← direct_selected, Bool.and_comm, ← cursor_eq]
    rfl
  · intro item _ hSelect
    have hType : item.2.1.type = .directChat := by
      have hDirect := (Bool.and_eq_true _ _ ▸ hSelect : _ ∧ _).1
      rw [direct_selected] at hDirect
      exact eq_of_beq (Bool.and_eq_true _ _ ▸ hDirect : _ ∧ _).1
    simp only [Function.comp_apply, storedOf, StoredMessage.ofMessage, hType]
    rfl

end

/-! ## When the modes agree -/

/-- The two modes answer these users alike, time stamps apart. -/
structure Agree (entries : List (Message × Bytes)) (userId peerId : Nat) : Prop where
  history : (pooledOf entries).directHistory userId peerId {} =
    (memoryOf (entries.map Prod.fst)).directHistory userId peerId
  direct : ∀ limit beforeId, limit < 2 ^ 32 →
    ((pooledOf entries).directHistoryPage userId peerId limit beforeId {}).map
        StoredMessage.withoutTime =
      (memoryOf (entries.map Prod.fst)).directHistoryPage userId peerId limit beforeId
  group : ∀ groupId limit beforeId, limit < 2 ^ 32 →
    ((pooledOf entries).groupHistoryPage groupId limit beforeId {}).map
        StoredMessage.withoutTime =
      (memoryOf (entries.map Prod.fst)).groupHistoryPage groupId limit beforeId
  unread : ∀ groupIds lastSeenMessageId limit, limit < 2 ^ 32 →
    ((pooledOf entries).unreadPage userId groupIds lastSeenMessageId limit {}).map
        StoredMessage.withoutTime =
      (memoryOf (entries.map Prod.fst)).unreadPage userId groupIds lastSeenMessageId limit

/-- No direct message of another pair is filed under the conversation of these users. -/
def OwnConversation (entries : List (Message × Bytes)) (userId peerId : Nat) : Prop :=
  ∀ entry ∈ entries, entry.1.type = .directChat →
    SharesConversation entry.1.senderId entry.1.receiverId userId peerId →
      SamePair entry.1.senderId entry.1.receiverId userId peerId

instance (entries : List (Message × Bytes)) (userId peerId : Nat) :
    Decidable (OwnConversation entries userId peerId) := by
  unfold OwnConversation
  infer_instance

theorem mem_items {entries : List (Message × Bytes)} {item : Nat × Message × Bytes}
    (h : item ∈ items entries) : item.2 ∈ entries := by
  obtain ⟨i, hi, hItem⟩ := List.mem_mapIdx.mp h
  rw [← hItem]
  exact List.getElem_mem hi

theorem isDirectBetween_iff (message : StoredMessage) (userId peerId : Nat) :
    MessageStore.isDirectBetween userId peerId message = true ↔
      message.type = .directChat ∧
        SamePair message.senderId message.receiverId userId peerId := by
  simp only [MessageStore.isDirectBetween, SamePair, Bool.and_eq_true, Bool.or_eq_true,
    decide_eq_true_eq, beq_iff_eq]

/-- Direct pages agree for a pair with a conversation of its own. -/
theorem directHistoryPage_agree {entries : List (Message × Bytes)}
    (hFits : ∀ entry ∈ entries, entry.1.body.length ≤ kTextBytes) {userId peerId : Nat}
    (h : OwnConversation entries userId peerId) (limit beforeId : Nat) :
    ((pooledOf entries).directHistoryPage userId peerId limit beforeId {}).map
        StoredMessage.withoutTime =
      (memoryOf (entries.map Prod.fst)).directHistoryPage userId peerId limit beforeId := by
  rw [directHistoryPage_pooledOf hFits, MessageStore.directHistoryPage, historyPage_memoryOf]
  refine (map_filter_congr ?_ ?_).1 _
  · intro item hMem
    congr 1
    rw [Bool.eq_iff_iff, isDirectBetween_iff, Bool.and_eq_true, beq_iff_eq, beq_iff_eq,
      conversationId_eq_iff]
    constructor
    · exact fun hItem => ⟨hItem.1, h item.2 (mem_items hMem) hItem.1 hItem.2⟩
    · exact fun hItem => ⟨hItem.1, hItem.2.shares⟩
  · exact fun _ _ _ => rfl

theorem agree_of_ownConversation {entries : List (Message × Bytes)}
    (hFits : ∀ entry ∈ entries, entry.1.body.length ≤ kTextBytes) {userId peerId : Nat}
    (h : OwnConversation entries userId peerId) : Agree entries userId peerId where
  history := directHistory_agree hFits userId peerId
  direct := fun limit beforeId _ => directHistoryPage_agree hFits h limit beforeId
  group := fun groupId limit beforeId _ => groupHistoryPage_agree hFits groupId limit beforeId
  unread := fun groupIds lastSeen limit _ =>
    unreadPage_agree hFits userId groupIds lastSeen limit

/-- The largest of the selected ids comes first. -/
theorem newest_first {l : List (Nat × Message × Bytes)} (hSorted : l.Pairwise fun a b => a.1 < b.1)
    {item : Nat × Message × Bytes} (hMem : item ∈ l) (hLargest : ∀ other ∈ l, other.1 ≤ item.1) :
    l.reverse.take 1 = [item] := by
  obtain ⟨front, back, rfl⟩ := List.append_of_mem hMem
  have hBack : back = [] := by
    rw [List.eq_nil_iff_forall_not_mem]
    intro other hOther
    have hLt := (List.pairwise_cons.mp (List.pairwise_append.mp hSorted).2.1).1 other hOther
    have hLe := hLargest other (by simp [hOther])
    omega
  rw [hBack]
  simp

/-- A foreign message is reported by the page that ends with it. -/
theorem foreign_reported {entries : List (Message × Bytes)}
    (hFits : ∀ entry ∈ entries, entry.1.body.length ≤ kTextBytes) {userId peerId : Nat}
    {item : Nat × Message × Bytes} (hMem : item ∈ items entries)
    (hType : item.2.1.type = .directChat)
    (hShares : SharesConversation item.2.1.senderId item.2.1.receiverId userId peerId) :
    ((pooledOf entries).directHistoryPage userId peerId 1 (item.1 + 1) {}).map
        StoredMessage.withoutTime = [storedOf item] := by
  rw [directHistoryPage_pooledOf hFits]
  have hPage : MessageStore.pageLimit 1 = 1 := rfl
  rw [hPage, newest_first ((items_sorted entries).filter _)]
  · rfl
  · rw [List.mem_filter]
    refine ⟨hMem, ?_⟩
    simp [hType, (conversationId_eq_iff _ _ _ _).mpr hShares]
  · intro other hOther
    have hCursor := (List.mem_filter.mp hOther).2
    simp only [Bool.and_eq_true, Bool.not_eq_true', Bool.and_eq_false_iff,
      decide_eq_false_iff_not] at hCursor
    omega

/-- The two modes answer two users alike, for all limits, cursors and groups, exactly when
no direct message of another pair shares their conversation. -/
theorem stores_agree_iff (entries : List (Message × Bytes))
    (hFits : ∀ entry ∈ entries, entry.1.body.length ≤ kTextBytes) (userId peerId : Nat) :
    Agree entries userId peerId ↔ OwnConversation entries userId peerId := by
  constructor
  · rintro hAgree ⟨message, time⟩ hMem hType hShares
    obtain ⟨i, hi, hEntry⟩ := List.getElem_of_mem hMem
    have hItem : (i + 1, message, time) ∈ items entries := by
      rw [items, List.mem_mapIdx]
      exact ⟨i, hi, by rw [hEntry]⟩
    have hPage := hAgree.direct 1 (i + 2) (by decide)
    rw [foreign_reported hFits hItem hType hShares] at hPage
    have hReported : storedOf (i + 1, message, time) ∈
        (memoryOf (entries.map Prod.fst)).directHistoryPage userId peerId 1 (i + 2) := by
      rw [← hPage]
      exact List.mem_singleton_self _
    have hBetween := (MessageStore.mem_historyPage hReported).2
    exact ((isDirectBetween_iff _ userId peerId).mp hBetween).2
  · exact agree_of_ownConversation hFits

/-- Where all ids have at most 32 bits the two modes cannot be told apart. -/
theorem stores_agree_of_lt {entries : List (Message × Bytes)}
    (hFits : ∀ entry ∈ entries, entry.1.body.length ≤ kTextBytes)
    (hSmall : ∀ entry ∈ entries, entry.1.senderId < 2 ^ 32 ∧ entry.1.receiverId < 2 ^ 32)
    {userId peerId : Nat} (hUser : userId < 2 ^ 32) (hPeer : peerId < 2 ^ 32) :
    Agree entries userId peerId := by
  apply agree_of_ownConversation hFits
  intro entry hMem _ hShares
  obtain ⟨hSender, hReceiver⟩ := hSmall entry hMem
  exact samePair_of_lt hSender hReceiver hUser hPeer hShares

/-- User 1 writes to user 2, and user `2 ^ 32` to user 3. -/
def fourUsers : List (Message × Bytes) :=
  [({ type := .directChat, senderId := 1, receiverId := 2, body := ascii "hi" }, []),
    ({ type := .directChat, senderId := 2 ^ 32, receiverId := 3, body := ascii "ho" }, [])]

/-- Users 1 and 2 have a conversation of their own. -/
theorem stores_agree_fourUsers : Agree fourUsers 1 2 :=
  (stores_agree_iff fourUsers (by decide +kernel) 1 2).mpr (by decide +kernel)

/-- Users 1 and `2 ^ 32 + 2` share the conversation of users 1 and 2: with a pool they
read its message, without one they do not. -/
theorem stores_disagree :
    ¬∀ entries : List (Message × Bytes),
      (∀ entry ∈ entries, entry.1.body.length ≤ kTextBytes) →
      (∀ entry ∈ entries, entry.1.senderId < 2 ^ 64 ∧ entry.1.receiverId < 2 ^ 64) →
      ∀ userId peerId, userId < 2 ^ 64 → peerId < 2 ^ 64 → Agree entries userId peerId := by
  intro h
  have hAgree := h fourUsers (by decide +kernel) (by decide +kernel) 1 (2 ^ 32 + 2)
    (by decide) (by decide)
  have hPage := hAgree.direct 20 0 (by decide)
  exact absurd hPage (by decide +kernel)

end CppChat.Ports.Messages
