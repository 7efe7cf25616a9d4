import CppChat.Ports.UnreadPaging

/-!
# What `has_more` says

The end marker of a page carries `has_more`, which the service computes from the length
of the page alone: it is set exactly when the page is full.  A full page may be the last
one.

`HistoryMarkerRight` and `UnreadMarkerRight` say what the field is named for: it is set
exactly when the query selects a message that is neither on the page nor on an earlier
one.

## Main results

* `historyMarker_right_iff`, `unreadMarker_right_iff`: a marker is right unless the query
  selects as many messages as the limit.
* `has_more_exact_iff`: the same of every answer in every state a run reaches.
* `not_has_more_exact`: a group of one message, read with a limit of one.
-/

namespace CppChat.Ports.Chat

open CppChat.Verified
open CppChat.Verified.CursorPaging
open CppChat.Ports.Protocol
open CppChat.Ports.Sessions
open CppChat.Ports.Users
open CppChat.Ports.Groups
open CppChat.Ports.Messages

/-- The conversation a history request is about. -/
def historySelect (s : ChatState) (sender : Session) (command : ClientCommand) :
    StoredMessage → Bool :=
  if command.groupHistory then MessageStore.isGroupMessageOf command.groupId
  else
    match s.users.findUserByUsername command.targetUsername with
    | none => fun _ => false
    | some peer => MessageStore.isDirectBetween sender.userId peer.id

/-- The messages a history request selects, whatever the limit. -/
def historySelected (s : ChatState) (sender : Session) (command : ClientCommand) :
    List StoredMessage :=
  below StoredMessage.id command.beforeId
    (s.messages.numbered.filter (historySelect s sender command))

/-- The messages an unread request selects, whatever the limit. -/
def unreadSelected (s : ChatState) (sender : Session) (command : ClientCommand) :
    List StoredMessage :=
  above StoredMessage.id command.lastSeenMessageId
    (s.messages.numbered.filter (pendingFor s sender.userId))

/-- `has_more` is set exactly when a message is older than all that are returned. -/
def HistoryMarkerRight (selected : List StoredMessage) (out : List OutboundMessage)
    (hasMore : Bool) : Prop :=
  hasMore = true ↔ ∃ m ∈ selected, ∀ item ∈ out.dropLast, m.id < itemId item

/-- `has_more` is set exactly when a message is above the cursor returned. -/
def UnreadMarkerRight (selected : List StoredMessage) (hasMore : Bool) (next : Nat) : Prop :=
  hasMore = true ↔ ∃ m ∈ selected, next < m.id

variable {crypto : Crypto} {s : ChatState}

/-! ## End markers -/

theorem getLast?_of_historyEndOf {out : List OutboundMessage} {hasMore : Bool} {next : Nat}
    (h : historyEndOf out = some (hasMore, next)) :
    out.getLast?.map OutboundMessage.response = some (.historyEnd hasMore next) := by
  unfold historyEndOf at h
  generalize out.getLast?.map OutboundMessage.response = last at h ⊢
  split at h
  · obtain ⟨rfl, rfl⟩ := Prod.mk.inj (Option.some.inj h)
    rfl
  · contradiction

theorem getLast?_of_unreadEndOf {out : List OutboundMessage} {hasMore : Bool} {next : Nat}
    (h : unreadEndOf out = some (hasMore, next)) :
    out.getLast?.map OutboundMessage.response = some (.unreadEnd hasMore next) := by
  unfold unreadEndOf at h
  generalize out.getLast?.map OutboundMessage.response = last at h ⊢
  split at h
  · obtain ⟨rfl, rfl⟩ := Prod.mk.inj (Option.some.inj h)
    rfl
  · contradiction

@[simp] theorem getLast?_append_reply (items : List OutboundMessage) (c : Nat)
    (response : Response) :
    (items ++ reply c response).getLast?.map OutboundMessage.response = some response := by
  simp [reply]

@[simp] theorem getLast?_reply (c : Nat) (response : Response) :
    (reply c response).getLast?.map OutboundMessage.response = some response :=
  getLast?_append_reply [] c response

/-- The answer to a `dm` ends with its acknowledgement. -/
theorem getLast?_directReplies (s : ChatState) (c : Nat) (sender : Session)
    (command : ClientCommand) :
    ∃ delivered, (directReplies s c sender command).getLast?.map OutboundMessage.response =
      some (.messageAck (s.messages.messages.length + 1) true delivered) := by
  unfold directReplies
  cases s.sessions.findByUsername command.targetUsername with
  | none => exact ⟨false, getLast?_reply _ _⟩
  | some target => exact ⟨true, getLast?_append_reply [_] _ _⟩

/-! ## One answer -/

/-- The page of a history answer in terms of what the request selects. -/
theorem dropLast_historyAnswer (item : StoredMessage → OutboundMessage) (store : MessageStore)
    (select : StoredMessage → Bool) (c limit beforeId : Nat) :
    (historyAnswer c (normalizeHistoryLimit limit) item
        (store.historyPage select (normalizeHistoryLimit limit) beforeId)).dropLast =
      (lastPage (normalizeHistoryLimit limit)
        (below StoredMessage.id beforeId (store.numbered.filter select))).map item := by
  rw [historyAnswer, dropLast_append_reply, reverse_historyPage]

/-- The marker of a history is wrong exactly when the messages left make one full page. -/
theorem historyMarker_right_iff {item : StoredMessage → OutboundMessage}
    (hId : ∀ m, itemId (item m) = m.id) (store : MessageStore)
    (select : StoredMessage → Bool) {c limit beforeId next : Nat} {hasMore : Bool}
    {out : List OutboundMessage}
    (hOut : out = historyAnswer c (normalizeHistoryLimit limit) item
      (store.historyPage select (normalizeHistoryLimit limit) beforeId))
    (hEnd : historyEndOf out = some (hasMore, next)) :
    HistoryMarkerRight (below StoredMessage.id beforeId (store.numbered.filter select)) out
        hasMore ↔
      (below StoredMessage.id beforeId (store.numbered.filter select)).length ≠
        normalizeHistoryLimit limit := by
  have hPage := dropLast_historyAnswer item store select c limit beforeId
  rw [← hOut] at hPage
  have hMarker : (store.historyPage select (normalizeHistoryLimit limit) beforeId).length ==
      normalizeHistoryLimit limit ↔ hasMore = true := by
    rw [hOut, historyAnswer, historyEndOf_append] at hEnd
    rw [← (Prod.mk.inj (Option.some.inj hEnd)).1]
  have hLength := congrArg List.length
    (reverse_historyPage store select limit beforeId)
  rw [List.length_reverse] at hLength
  have hSorted : Ascending StoredMessage.id
      (below StoredMessage.id beforeId (store.numbered.filter select)) :=
    (store.numbered_sorted.filter _).filter _
  generalize below StoredMessage.id beforeId (store.numbered.filter select) = selected at *
  have hLeft := exists_before_lastPage_iff (normalizeHistoryLimit limit) hSorted
  have hTaken : (lastPage (normalizeHistoryLimit limit) selected).length =
      selected.length - (selected.length - normalizeHistoryLimit limit) := List.length_drop
  unfold HistoryMarkerRight
  simp only [hPage, List.forall_mem_map, hId]
  rw [← hMarker, hLeft, beq_iff_eq]
  omega

/-- An unread answer and its limit, cursor and items. -/
theorem unreadMarker_right_iff {c next : Nat} {sender : Session} {command : ClientCommand}
    {hasMore : Bool}
    (hEnd : unreadEndOf (unreadReplies s c sender command) = some (hasMore, next)) :
    UnreadMarkerRight (unreadSelected s sender command) hasMore next ↔
      (unreadSelected s sender command).length ≠ normalizeHistoryLimit command.limit := by
  have hAnswer := unreadReplies_eq s c sender command.limit command.lastSeenMessageId
  have hSame : unreadReplies s c sender command =
      unreadReplies s c sender (unreadCommand command.limit command.lastSeenMessageId) := rfl
  rw [hSame, hAnswer, unreadEndOf_append] at hEnd
  obtain ⟨hMore, hNext⟩ := Prod.mk.inj (Option.some.inj hEnd)
  have hItems : above itemId command.lastSeenMessageId (pendingItems s s c sender.userId) =
      (unreadSelected s sender command).map (anyItem s c) :=
    above_map (itemId_anyItem s c) _ _
  have hSorted : Ascending StoredMessage.id (unreadSelected s sender command) :=
    (s.messages.numbered_sorted.filter _).filter _
  have hTwice : above StoredMessage.id command.lastSeenMessageId
      (unreadSelected s sender command) = unreadSelected s sender command :=
    (above_above (Nat.le_refl _) _).symm
  have hLeft := exists_above_nextCursor_iff (normalizeHistoryLimit command.limit)
    command.lastSeenMessageId hSorted
  rw [hTwice] at hLeft
  rw [hItems, ← List.map_take] at hMore hNext
  rw [nextCursor_map (itemId_anyItem s c)] at hNext
  rw [List.length_map, List.length_take] at hMore
  unfold UnreadMarkerRight
  rw [← hNext, hLeft, ← hMore, beq_iff_eq]
  omega

/-! ## Every answer -/

/-- The end markers of an answer are right exactly where the request does not select as
many messages as its limit. -/
structure MarkersExact (s : ChatState) (c : Nat) (payload : Bytes)
    (out : List OutboundMessage) : Prop where
  history : ∀ hasMore next, historyEndOf out = some (hasMore, next) →
    ∃ sender command, Authorized s c payload sender command ∧ command.type = .historyQuery ∧
      (HistoryMarkerRight (historySelected s sender command) out hasMore ↔
        (historySelected s sender command).length ≠ normalizeHistoryLimit command.limit)
  unread : ∀ hasMore next, unreadEndOf out = some (hasMore, next) →
    ∃ sender command, Authorized s c payload sender command ∧ command.type = .unreadQuery ∧
      (UnreadMarkerRight (unreadSelected s sender command) hasMore next ↔
        (unreadSelected s sender command).length ≠ normalizeHistoryLimit command.limit)

/-- An answer whose last reply is no end marker. -/
theorem MarkersExact.of_getLast? {c : Nat} {payload : Bytes} {out : List OutboundMessage}
    {response : Response} (hLast : out.getLast?.map OutboundMessage.response = some response)
    (hHistory : ∀ hasMore next, response ≠ .historyEnd hasMore next)
    (hUnread : ∀ hasMore next, response ≠ .unreadEnd hasMore next) :
    MarkersExact s c payload out where
  history := by
    intro hasMore next hEnd
    rw [getLast?_of_historyEndOf hEnd] at hLast
    exact absurd (Option.some.inj hLast).symm (hHistory hasMore next)
  unread := by
    intro hasMore next hEnd
    rw [getLast?_of_unreadEndOf hEnd] at hLast
    exact absurd (Option.some.inj hLast).symm (hUnread hasMore next)

/-- A history answer has the marker of its page. -/
theorem MarkersExact.of_history {c : Nat} {payload : Bytes} {sender : Session}
    {command : ClientCommand} (item : StoredMessage → OutboundMessage)
    (hAuth : Authorized s c payload sender command) (hType : command.type = .historyQuery)
    (hId : ∀ m, itemId (item m) = m.id) :
    MarkersExact s c payload
      (historyAnswer c (normalizeHistoryLimit command.limit) item
        (s.messages.historyPage (historySelect s sender command)
          (normalizeHistoryLimit command.limit) command.beforeId)) where
  history := fun _ _ hEnd =>
    ⟨sender, command, hAuth, hType, historyMarker_right_iff hId _ _ rfl hEnd⟩
  unread := by
    intro hasMore next hEnd
    have hLast := getLast?_of_unreadEndOf hEnd
    rw [historyAnswer, getLast?_append_reply] at hLast
    cases Option.some.inj hLast

theorem markersExact_of_served {c : Nat} {payload : Bytes} {out : List OutboundMessage}
    {s' : ChatState} (hServed : Served crypto s (.line c payload) out s') :
    MarkersExact s c payload out := by
  cases hServed with
  | @refused _ _ response hRefuses =>
      refine .of_getLast? (getLast?_reply c response) ?_ ?_ <;>
        intro _ _ hEq <;> rw [hEq] at hRefuses <;> exact hRefuses
  | registered _ _ _ =>
      refine .of_getLast? (getLast?_reply c _) ?_ ?_ <;>
        intro _ _ hEq <;> unfold registerReply at hEq <;> split at hEq <;> contradiction
  | loggedIn _ _ _ _ _ => exact .of_getLast? (getLast?_reply c _) nofun nofun
  | loggedOut _ _ => exact .of_getLast? rfl nofun nofun
  | created _ _ _ => exact .of_getLast? (getLast?_reply c _) nofun nofun
  | joined _ _ => exact .of_getLast? (getLast?_reply c _) nofun nofun
  | left _ _ _ => exact .of_getLast? (getLast?_reply c _) nofun nofun
  | @directSent _ _ command sender _ _ _ _ =>
      obtain ⟨delivered, hLast⟩ := getLast?_directReplies s c sender command
      exact .of_getLast? hLast nofun nofun
  | groupSent _ _ _ => exact .of_getLast? (getLast?_append_reply _ c _) nofun nofun
  | @groupListed _ _ command sender hAuth hType hGroup _ =>
      have hSelect : historySelect s sender command =
          MessageStore.isGroupMessageOf command.groupId := if_pos hGroup
      have hExact := MarkersExact.of_history (groupItem s c) hAuth hType fun _ => rfl
      rw [hSelect] at hExact
      exact hExact
  | @directListed _ _ command sender peer hAuth hType hGroup hPeer =>
      have hSelect : historySelect s sender command =
          MessageStore.isDirectBetween sender.userId peer.id := by
        rw [historySelect, hGroup, hPeer]
        rfl
      have hExact := MarkersExact.of_history (directItem s c) hAuth hType fun _ => rfl
      rw [hSelect] at hExact
      exact hExact
  | unreadListed hAuth hType =>
      refine ⟨?_, fun _ _ hEnd => ⟨_, _, hAuth, hType, unreadMarker_right_iff hEnd⟩⟩
      intro hasMore next hEnd
      have hLast := getLast?_of_historyEndOf hEnd
      rw [unreadReplies, getLast?_append_reply] at hLast
      exact absurd (Option.some.inj hLast) nofun

/-- In every state a run reaches, for every payload on every connection: an answer with an
end marker is one to a history or unread request, and its `has_more` says whether the
request selects a message beyond those returned, unless the request selects exactly
as many messages as its limit. -/
theorem has_more_exact_iff (crypto : Crypto) (requests : List Request) (c : Nat)
    (payload : Bytes) :
    MarkersExact (serveAll crypto requests) c payload
      (replies crypto (serveAll crypto requests) (.line c payload)) :=
  markersExact_of_served (served crypto (serveAll crypto requests) (.line c payload))

/-- Alice reads her group of one message with a limit of one: the page holds it, and
`has_more` is set. -/
theorem not_has_more_exact :
    ¬∀ (crypto : Crypto) (requests : List Request) (c : Nat) (payload : Bytes)
        (hasMore : Bool) (next : Nat) (sender : Session) (command : ClientCommand),
        let s := serveAll crypto requests
        let out := replies crypto s (.line c payload)
        historyEndOf out = some (hasMore, next) →
        Authorized s c payload sender command →
          HistoryMarkerRight (historySelected s sender command) out hasMore := by
  intro h
  let requests :=
    enter 1 "alice" ++ [.line 1 (createGroupLine "g"), .line 1 (groupMessageLine 1 "a")]
  let sender : Session := { userId := 1, connectionId := 1, username := ascii "alice" }
  let command := (Conversation.group 1).command 1 0
  have hRun : let s := serveAll sampleCrypto requests
      let out := replies sampleCrypto s (.line 1 (groupHistoryLine 1 1 0))
      historyEndOf out = some (true, 1) ∧
      (parseClientCommand (groupHistoryLine 1 1 0) = .ok command ∧
        s.sessions.findByConnection 1 = some sender) ∧
      ¬∃ m ∈ historySelected s sender command, ∀ item ∈ out.dropLast, m.id < itemId item := by
    decide +kernel
  obtain ⟨hEnd, ⟨hParse, hSession⟩, hNone⟩ := hRun
  have hRight := h sampleCrypto requests 1 _ true 1 sender command hEnd ⟨hParse, hSession⟩
  exact hNone (hRight.mp rfl)

end CppChat.Ports.Chat
