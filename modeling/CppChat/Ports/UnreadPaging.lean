import CppChat.Ports.HistoryPaging

/-!
# Pulling unread messages

A client that was away asks for the messages behind the last one it has seen,
takes `next_last_seen_message_id` from the end marker as its next cursor, and
asks again until `has_more` is false.  New messages arrive between its requests,
and messages that are not for it stand between those that are.

`pullUnread` is this client, an instance of forward reading
(`CursorPaging.pagesForward`).

## Main results

* `unreadReplies_eq`: an answer is the first page above the cursor and its largest
  id.
* `pullUnread_eq_pagesForward`: the client reads forward.
* `unread_complete`: what it has read, in ascending order, are the user's messages
  between the first and the last cursor, and none is left above.
-/

namespace CppChat.Ports.Chat

open CppChat.Verified
open CppChat.Verified.CursorPaging
open CppChat.Ports.Protocol
open CppChat.Ports.Sessions
open CppChat.Ports.Users
open CppChat.Ports.Groups
open CppChat.Ports.Messages

/-- A message for a user: a direct message to it, or a message of somebody else in
one of its groups. -/
def pendingFor (s : ChatState) (userId : Nat) (m : StoredMessage) : Bool :=
  decide ((m.type = .directChat ∧ m.receiverId = userId) ∨
    (m.type = .groupChat ∧ m.senderId ≠ userId ∧
      s.members.isGroupMember m.receiverId userId = true))

/-- The end marker of an unread answer: `has_more` and the next cursor. -/
def unreadEndOf (out : List OutboundMessage) : Option (Bool × Nat) :=
  match out.getLast?.map OutboundMessage.response with
  | some (.unreadEnd hasMore next) => some (hasMore, next)
  | _ => none

/-- Ask for pages until one is the last; each round is its items and the cursor
behind them.  `encode` is the client's payload for a cursor, and `between r` is
what is served after round `r`. -/
def pullUnread (crypto : Crypto) (c : Nat) (encode : Nat → Bytes)
    (between : Nat → List Request) :
    Nat → Nat → ChatState → Nat → Option (List (List OutboundMessage × Nat))
  | 0, _, _, _ => none
  | fuel + 1, round, s, lastSeen =>
      let request := Request.line c (encode lastSeen)
      let out := replies crypto s request
      match unreadEndOf out with
      | none => none
      | some (false, next) => some [(out.dropLast, next)]
      | some (true, next) =>
          (pullUnread crypto c encode between fuel (round + 1)
            ((between round).foldl (serve crypto) (serve crypto s request)) next).map
              ((out.dropLast, next) :: ·)

variable {crypto : Crypto} {s : ChatState}

/-! ## One answer -/

theorem isUnreadFor_eq_pendingFor (s : ChatState) (userId : Nat) (m : StoredMessage) :
    MessageStore.isUnreadFor userId (s.members.loadUserGroups userId) m =
      pendingFor s userId m := by
  rw [Bool.eq_iff_iff]
  simp [MessageStore.isUnreadFor, pendingFor, GroupMemberStore.mem_loadUserGroups, and_assoc]

theorem itemId_anyItem (s : ChatState) (c : Nat) (m : StoredMessage) :
    itemId (anyItem s c m) = m.id := by
  unfold anyItem
  split <;> rfl

/-- The command for an unread page. -/
def unreadCommand (limit lastSeen : Nat) : ClientCommand :=
  { type := .unreadQuery, lastSeenMessageId := lastSeen, limit := limit }

theorem above_map {item : StoredMessage → OutboundMessage} (hId : ∀ m, itemId (item m) = m.id)
    (cursor : Nat) (messages : List StoredMessage) :
    above itemId cursor (messages.map item) =
      (above StoredMessage.id cursor messages).map item := by
  unfold above
  rw [List.filter_map]
  congr 1
  apply List.filter_congr
  intro m _
  simp only [Function.comp_apply, hId]

theorem nextCursor_map {item : StoredMessage → OutboundMessage}
    (hId : ∀ m, itemId (item m) = m.id) (cursor : Nat) (page : List StoredMessage) :
    nextCursor itemId cursor (page.map item) = nextCursor StoredMessage.id cursor page := by
  unfold nextCursor
  rw [List.foldl_map]
  simp only [hId]

/-- The items for a user in a state. -/
def pendingItems (groups s : ChatState) (c userId : Nat) : List OutboundMessage :=
  (s.messages.numbered.filter (pendingFor groups userId)).map (anyItem s c)

/-- An answer is the first page above the cursor, and the end marker that belongs
to it. -/
theorem unreadReplies_eq (s : ChatState) (c : Nat) (sender : Session) (limit lastSeen : Nat) :
    let page := (above itemId lastSeen (pendingItems s s c sender.userId)).take
      (normalizeHistoryLimit limit)
    unreadReplies s c sender (unreadCommand limit lastSeen) =
      page ++ reply c (.unreadEnd (page.length == normalizeHistoryLimit limit)
        (nextCursor itemId lastSeen page)) := by
  intro page
  have hStored : unreadPageOf s sender (unreadCommand limit lastSeen) =
      (above StoredMessage.id lastSeen
        (s.messages.numbered.filter (pendingFor s sender.userId))).take
          (normalizeHistoryLimit limit) := by
    unfold unreadPageOf
    rw [MessageStore.unreadPage_eq]
    show List.take (MessageStore.pageLimit (normalizeHistoryLimit limit)) _ = _
    rw [pageLimit_normalize, above, List.filter_filter]
    congr 1
    apply List.filter_congr
    intro m _
    rw [isUnreadFor_eq_pendingFor, ← decide_not]
    simp only [unreadCommand, Nat.not_le]
  have hPage : page =
      (unreadPageOf s sender (unreadCommand limit lastSeen)).map (anyItem s c) := by
    rw [hStored, List.map_take, ← above_map (itemId_anyItem s c)]
    rfl
  rw [hPage, nextCursor_map (itemId_anyItem s c), List.length_map]
  rfl

theorem unreadEndOf_append (items : List OutboundMessage) (c next : Nat) (hasMore : Bool) :
    unreadEndOf (items ++ reply c (.unreadEnd hasMore next)) = some (hasMore, next) := by
  simp [unreadEndOf, reply]

/-- The answer to an unread request, which changes nothing. -/
theorem unread_answer {c limit lastSeen : Nat} {payload : Bytes} {sender : Session}
    (hBound : s.sessions.findByConnection c = some sender)
    (hParse : parseClientCommand payload = .ok (unreadCommand limit lastSeen)) :
    handleLine crypto s c payload =
      (unreadReplies s c sender (unreadCommand limit lastSeen), s) := by
  have hNeeds : ¬NeedsNoSession (unreadCommand limit lastSeen) := by
    simp [NeedsNoSession, unreadCommand]
  rw [handleLine_ok c hParse, handleCommand_run_of_some hNeeds hBound]
  exact handleUnreadQuery_run s sender (unreadCommand limit lastSeen) c

/-! ## The client reads forward -/

/-- The items of the user in the state of a round. -/
def pendingView (crypto : Crypto) (s : ChatState) (between : Nat → List Request)
    (c userId r : Nat) : List OutboundMessage :=
  pendingItems s (stateAt crypto s between r) c userId

/-- The group set of the user stays the same in every round. -/
def GroupsStay (crypto : Crypto) (s : ChatState) (between : Nat → List Request)
    (userId : Nat) : Prop :=
  ∀ r g, (stateAt crypto s between r).members.isGroupMember g userId =
    s.members.isGroupMember g userId

theorem GroupsStay.pendingItems_eq {between : Nat → List Request} {userId : Nat}
    (h : GroupsStay crypto s between userId) (c r : Nat) :
    pendingItems (stateAt crypto s between r) (stateAt crypto s between r) c userId =
      pendingView crypto s between c userId r := by
  unfold pendingView pendingItems
  congr 2
  funext m
  unfold pendingFor
  rw [h r]

/-- The cursors a client can come to: the first one, and the id of any message of
any round. -/
def Seen (crypto : Crypto) (s : ChatState) (between : Nat → List Request) (k b : Nat) : Prop :=
  b = k ∨ ∃ r, b ≤ (stateAt crypto s between r).messages.messages.length

/-- After a page everything up to its cursor has been seen. -/
theorem seen_next {between : Nat → List Request} {c userId limit k round cursor : Nat}
    (hSeen : Seen crypto s between k cursor) :
    Seen crypto s between k (nextCursor itemId cursor
      ((above itemId cursor (pendingView crypto s between c userId round)).take limit)) := by
  rcases nextCursor_cases itemId cursor
    ((above itemId cursor (pendingView crypto s between c userId round)).take limit) with
    hOld | ⟨message, hMem, hId⟩
  · rw [hOld]
    exact hSeen
  · have hView := (List.mem_filter.mp (List.mem_of_mem_take hMem)).1
    obtain ⟨m, hm, rfl⟩ := List.mem_map.mp hView
    rw [hId, itemId_anyItem]
    exact Or.inr ⟨round, (MessageStore.id_bounds (List.mem_filter.mp hm).1).2⟩

/-- The client is a forward reader of the user's messages. -/
theorem pullUnread_eq_pagesForward {c limit k : Nat} {encode : Nat → Bytes}
    {between : Nat → List Request} {sender : Session}
    (hEncode : ∀ b, Seen crypto s between k b →
      parseClientCommand (encode b) = .ok (unreadCommand limit b))
    (hBound : ∀ r, (stateAt crypto s between r).sessions.findByConnection c = some sender)
    (hGroups : GroupsStay crypto s between sender.userId) :
    ∀ fuel round cursor, Seen crypto s between k cursor →
      pullUnread crypto c encode between fuel round (stateAt crypto s between round) cursor =
        pagesForward itemId (normalizeHistoryLimit limit)
          (pendingView crypto s between c sender.userId) fuel round cursor := by
  intro fuel
  induction fuel with
  | zero => intro round cursor _; rfl
  | succ fuel ih =>
      intro round cursor hSeen
      have hLine := @unread_answer crypto _ _ _ _ _ _ (hBound round) (hEncode cursor hSeen)
      have hAnswer := unreadReplies_eq (stateAt crypto s between round) c sender limit cursor
      have hNextState : serve crypto (stateAt crypto s between round)
          (.line c (encode cursor)) = stateAt crypto s between round := by
        rw [serve, hLine]
      have hSeen' := @seen_next crypto s between c sender.userId
        (normalizeHistoryLimit limit) k round cursor hSeen
      rw [hGroups.pendingItems_eq] at hAnswer
      rw [pullUnread, pagesForward]
      simp only [hNextState]
      rw [replies, hLine]
      dsimp only
      rw [hAnswer, unreadEndOf_append, dropLast_append_reply]
      generalize (above itemId cursor
        (pendingView crypto s between c sender.userId round)).take
          (normalizeHistoryLimit limit) = page at hSeen' ⊢
      by_cases hFull : page.length = normalizeHistoryLimit limit
      · rw [if_pos hFull, beq_iff_eq.mpr hFull]
        dsimp only
        rw [← ih (round + 1) _ hSeen']
        rfl
      · rw [if_neg hFull, beq_eq_false_iff_ne.mpr hFull]

/-! ## The theorem -/

/-- An item reads the same in every later state. -/
theorem Extends.anyItem_eq {s' groups : ChatState} (h : Extends s s') (hInv : ServiceInv s)
    (hInv' : ServiceInv s') {userId : Nat} {m : StoredMessage}
    (hm : m ∈ s.messages.numbered) (hPending : pendingFor groups userId m = true) (c : Nat) :
    anyItem s' c m = anyItem s c m := by
  unfold anyItem
  split
  · exact h.groupItem_eq hInv hInv' hm c
  · rename_i hNotGroup
    have hType : m.type = .directChat := by
      rcases of_decide_eq_true hPending with ⟨hDirect, -⟩ | ⟨hGroup, -⟩
      · exact hDirect
      · exact absurd hGroup hNotGroup
    exact h.directItem_eq hInv hInv' hm hType c

/-- Later requests only add messages behind those seen before. -/
theorem pendingView_grows (between : Nat → List Request) (hInv : ServiceInv s)
    (c userId r : Nat) :
    pendingView crypto s between c userId r <+: pendingView crypto s between c userId (r + 1) := by
  have hExtends := stateAt_succ_extends crypto s between r
  have hNow := stateAt_serviceInv crypto between hInv r
  have hThen := stateAt_serviceInv crypto between hInv (r + 1)
  obtain ⟨later, hLater⟩ := hExtends.numbered
  unfold pendingView pendingItems
  rw [← hLater, List.filter_append, List.map_append]
  have hItems : ((stateAt crypto s between r).messages.numbered.filter
      (pendingFor s userId)).map (anyItem (stateAt crypto s between r) c) =
      ((stateAt crypto s between r).messages.numbered.filter
        (pendingFor s userId)).map (anyItem (stateAt crypto s between (r + 1)) c) := by
    apply List.map_congr_left
    intro m hm
    obtain ⟨hStored, hPending⟩ := List.mem_filter.mp hm
    exact (hExtends.anyItem_eq hNow hThen hStored hPending c).symm
  rw [hItems]
  exact List.prefix_append _ _

theorem pendingView_ascending (between : Nat → List Request) (c userId r : Nat) :
    Ascending itemId (pendingView crypto s between c userId r) := by
  unfold pendingView pendingItems
  rw [Ascending, List.pairwise_map]
  simp only [itemId_anyItem]
  exact (MessageStore.numbered_sorted _).filter _

/-- What a finished pull has read, from cursor `k` on, in a run whose last round
found the state `final`. -/
structure PulledAll (s final : ChatState) (c userId k : Nat)
    (rounds : List (List OutboundMessage × Nat)) : Prop where
  items_eq : (rounds.map Prod.fst).flatten =
    (final.messages.numbered.filter fun m => pendingFor s userId m && decide (k < m.id) &&
      decide (m.id ≤ finalCursor k rounds)).map (anyItem final c)
  ascending : (rounds.map Prod.fst).flatten.Pairwise fun a b => itemId a < itemId b
  none_left : ∀ m ∈ final.messages.numbered, pendingFor s userId m = true →
    m.id ≤ finalCursor k rounds
  cursor_le : (k :: rounds.map Prod.snd).Pairwise (· ≤ ·)

/-- In every state of a sequential run, for every logged-in user whose groups stay
the same, every cursor, every limit and whatever is served between the requests:
a pull that has reached `has_more:false` has read, in ascending order, exactly
the user's messages between the first and the last cursor, none is left above at
that moment, and the cursor has never decreased.  The pull does get there when
the messages stay below some bound. -/
theorem unread_complete (crypto : Crypto) (s : ChatState) (hReach : Reachable crypto s)
    (c k limit : Nat) (sender : Session) (encode : Nat → Bytes)
    (between : Nat → List Request)
    (hEncode : ∀ b, Seen crypto s between k b →
      parseClientCommand (encode b) = .ok (unreadCommand limit b))
    (hBound : ∀ r, (stateAt crypto s between r).sessions.findByConnection c = some sender)
    (hGroups : GroupsStay crypto s between sender.userId) :
    (∀ fuel rounds, pullUnread crypto c encode between fuel 0 s k = some rounds →
      ∃ last, rounds.length = last + 1 ∧
        PulledAll s (stateAt crypto s between last) c sender.userId k rounds) ∧
    ∀ bound, (∀ r, (stateAt crypto s between r).messages.messages.length ≤ bound) →
      ∃ rounds, pullUnread crypto c encode between (bound + 1) 0 s k = some rounds := by
  have hInv := serviceInv_of_reachable hReach
  have hPull := fun fuel => pullUnread_eq_pagesForward hEncode hBound hGroups fuel 0 k (Or.inl rfl)
  have hGrow := @pendingView_grows crypto s between hInv c sender.userId
  have hSorted := @pendingView_ascending crypto s between c sender.userId
  constructor
  · intro fuel rounds hRounds
    rw [show s = stateAt crypto s between 0 from rfl, hPull] at hRounds
    obtain ⟨last, hLength, hFlat, hNone, hCursor⟩ :=
      pagesForward_complete hGrow hSorted fuel 0 k rounds hRounds
    rw [Nat.zero_add] at hFlat hNone
    have hLeft : ∀ m ∈ (stateAt crypto s between last).messages.numbered,
        pendingFor s sender.userId m = true → m.id ≤ finalCursor k rounds := by
      intro m hm hPending
      have hItem : anyItem (stateAt crypto s between last) c m ∈
          pendingView crypto s between c sender.userId last :=
        List.mem_map.mpr ⟨m, List.mem_filter.mpr ⟨hm, hPending⟩, rfl⟩
      have hNot := List.filter_eq_nil_iff.mp hNone _ hItem
      rw [decide_eq_true_eq, itemId_anyItem, Nat.not_lt] at hNot
      exact hNot
    refine ⟨last, hLength, ?_, ?_, hLeft, hCursor⟩
    · rw [hFlat, pendingView, pendingItems, above_map (itemId_anyItem _ c), above,
        List.filter_filter]
      congr 1
      apply List.filter_congr
      intro m hm
      cases hPending : pendingFor s sender.userId m with
      | false => simp
      | true => simp [hLeft m hm hPending]
    · rw [hFlat]
      exact (hSorted last).filter _
  · intro bound hLengths
    have hViews : ∀ r, (pendingView crypto s between c sender.userId r).length ≤ bound := by
      intro r
      refine Nat.le_trans ?_ (hLengths r)
      rw [pendingView, pendingItems, List.length_map, ← MessageStore.length_numbered]
      exact List.length_filter_le _ _
    obtain ⟨rounds, hRounds⟩ := pagesForward_ends (normalizeHistoryLimit_pos limit) hGrow hSorted
      hViews (bound + 1) 0 k (by omega)
    exact ⟨rounds, (hPull (bound + 1)).trans hRounds⟩

/-- Bob pulls two group messages with a limit of one: a page for each, and an
empty one. -/
theorem unread_complete_exactMultiple :
    let s := serveAll sampleCrypto (enter 1 "alice" ++ enter 2 "bob" ++
      [.line 1 (createGroupLine "g"), .line 2 (joinGroupLine 1),
        .line 1 (groupMessageLine 1 "a"), .line 1 (groupMessageLine 1 "b")])
    ∃ rounds last,
      pullUnread sampleCrypto 2 (unreadLine 1) (fun _ => []) 3 0 s 0 = some rounds ∧
      rounds.length = last + 1 ∧
      PulledAll s (stateAt sampleCrypto s (fun _ => []) last) 2 2 0 rounds := by
  intro s
  have hRun : s.messages.messages.length = 2 ∧ s.sessions.findByConnection 2 =
      some { userId := 2, connectionId := 2, username := ascii "bob" } := by
    decide +kernel
  obtain ⟨hLength, hSession⟩ := hRun
  have hState : ∀ r, stateAt sampleCrypto s (fun _ => []) r = s := by
    intro r
    induction r with
    | zero => rfl
    | succ r ih => rw [stateAt, List.foldl_nil, ih]
  have hEncode : ∀ b, Seen sampleCrypto s (fun _ => []) 0 b →
      parseClientCommand (unreadLine 1 b) = .ok (unreadCommand 1 b) := by
    intro b hSeen
    have hb : b ≤ 2 := by
      rcases hSeen with rfl | ⟨r, hr⟩
      · exact Nat.zero_le 2
      · rw [hState, hLength] at hr
        exact hr
    interval_cases b <;> decide +kernel
  obtain ⟨hAll, hEnds⟩ := unread_complete sampleCrypto s ⟨_, rfl⟩ 2 0 1 _ (unreadLine 1)
    (fun _ => []) hEncode (fun r => by rw [hState]; exact hSession)
    (fun r g => by rw [hState])
  obtain ⟨rounds, hRounds⟩ := hEnds 2 (fun r => by rw [hState, hLength])
  obtain ⟨last, hLast, hPulled⟩ := hAll 3 rounds hRounds
  exact ⟨rounds, last, hRounds, hLast, hPulled⟩

end CppChat.Ports.Chat
