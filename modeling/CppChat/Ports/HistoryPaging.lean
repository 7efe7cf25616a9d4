import Mathlib.Tactic.IntervalCases
import CppChat.Verified.CursorPaging
import CppChat.Ports.ServedRequests

/-!
# Reading a history page by page

A client that wants a whole conversation asks for a page, reads `has_more` and
`next_before_id` from the end marker, and asks again below that id until
`has_more` is false.  Between its requests anybody may do anything, as long as
the client stays logged in and, for a group, stays a member.

`pullHistory` is this client.  It is an instance of backward reading
(`CursorPaging.pagesBack`): round `r` sees the items of the conversation in the
state of that round.

## Main results

* `historyAnswer_eq`: an answer is the last page below the cursor, its length
  compared with the limit, and its smallest id.
* `pullHistory_eq_pagesBack`: the client reads backward.
* `history_complete`: it ends, with every message the conversation had at the first
  request, once, in ascending order.
-/

namespace CppChat.Ports.Chat

open CppChat.Verified
open CppChat.Verified.CursorPaging
open CppChat.Ports.Protocol
open CppChat.Ports.Sessions
open CppChat.Ports.Users
open CppChat.Ports.Groups
open CppChat.Ports.Messages

/-! ## Conversations -/

/-- What a history request asks for: the messages with a peer, or those of a
group. -/
inductive Conversation where
  | direct (peerName : Bytes) (peer : UserRecord)
  | group (groupId : Nat)

/-- The command for a page of the conversation. -/
def Conversation.command (limit beforeId : Nat) : Conversation → ClientCommand
  | .direct peerName _ =>
      { type := .historyQuery, targetUsername := peerName, limit := limit, beforeId := beforeId }
  | .group groupId =>
      { type := .historyQuery, groupHistory := true, groupId := groupId,
        receiverId := groupId, limit := limit, beforeId := beforeId }

/-- The messages of the conversation, for one user. -/
def Conversation.select (userId : Nat) : Conversation → StoredMessage → Bool
  | .direct _ peer => MessageStore.isDirectBetween userId peer.id
  | .group groupId => MessageStore.isGroupMessageOf groupId

/-- The stored messages of a conversation, oldest first. -/
def Conversation.messages (conversation : Conversation) (s : ChatState) (userId : Nat) :
    List StoredMessage :=
  s.messages.numbered.filter (conversation.select userId)

/-- The history item of a message. -/
def Conversation.item (s : ChatState) (c : Nat) : Conversation → StoredMessage → OutboundMessage
  | .direct _ _ => directItem s c
  | .group _ => groupItem s c

/-- The peer is known, or the user is and stays a member of the group. -/
def Conversation.StaysOpen (crypto : Crypto) (s : ChatState) (between : Nat → List Request)
    (userId : Nat) : Conversation → Prop
  | .direct peerName peer => s.users.findUserByUsername peerName = some peer
  | .group groupId =>
      ∀ r, (stateAt crypto s between r).members.isGroupMember groupId userId = true

/-! ## The client -/

/-- The end marker of a history answer: `has_more` and `next_before_id`. -/
def historyEndOf (out : List OutboundMessage) : Option (Bool × Nat) :=
  match out.getLast?.map OutboundMessage.response with
  | some (.historyEnd hasMore next) => some (hasMore, next)
  | _ => none

/-- Ask for pages until one is the last.  `encode` is the client's payload for a
cursor, and `between r` is what is served after round `r`.  `none` means that
the fuel ran out or an answer has no end marker. -/
def pullHistory (crypto : Crypto) (c : Nat) (encode : Nat → Bytes)
    (between : Nat → List Request) :
    Nat → Nat → ChatState → Nat → Option (List (List OutboundMessage))
  | 0, _, _, _ => none
  | fuel + 1, round, s, beforeId =>
      let request := Request.line c (encode beforeId)
      let out := replies crypto s request
      match historyEndOf out with
      | none => none
      | some (false, _) => some [out.dropLast]
      | some (true, next) =>
          (pullHistory crypto c encode between fuel (round + 1)
            ((between round).foldl (serve crypto) (serve crypto s request)) next).map
              (out.dropLast :: ·)

/-- The id a history item names. -/
def itemId (message : OutboundMessage) : Nat :=
  match message.response with
  | .historyItem id _ _ _ _ _ => id
  | _ => 0

/-! ## One answer -/

variable {crypto : Crypto} {s : ChatState}

/-- A page asks for one message at least. -/
theorem normalizeHistoryLimit_pos (limit : Nat) : 1 ≤ normalizeHistoryLimit limit := by
  unfold normalizeHistoryLimit kDefaultHistoryLimit kMaxHistoryLimit
  split <;> omega

theorem pageLimit_normalize (limit : Nat) :
    MessageStore.pageLimit (normalizeHistoryLimit limit) = normalizeHistoryLimit limit := by
  have := normalizeHistoryLimit_pos limit
  unfold MessageStore.pageLimit
  rw [if_neg (by omega)]

/-- A page, oldest first, is the last page below the cursor. -/
theorem reverse_historyPage (store : MessageStore) (select : StoredMessage → Bool)
    (limit beforeId : Nat) :
    (store.historyPage select (normalizeHistoryLimit limit) beforeId).reverse =
      lastPage (normalizeHistoryLimit limit)
        (below StoredMessage.id beforeId (store.numbered.filter select)) := by
  have hCondition : ∀ m : StoredMessage,
      (!(decide (beforeId > 0) && decide (m.id ≥ beforeId)) && select m) =
        ((decide (beforeId = 0) || decide (m.id < beforeId)) && select m) := by
    intro m
    congr 1
    by_cases hZero : beforeId = 0
    · simp [hZero]
    · by_cases hLt : m.id < beforeId
      · simp [hLt]
      · simp [hZero, hLt]
        omega
  rw [MessageStore.historyPage_eq, pageLimit_normalize, below, List.filter_filter, lastPage,
    List.filter_reverse, List.take_reverse, List.reverse_reverse]
  simp only [hCondition]

/-- The smallest id of an ascending page is that of its first message. -/
theorem nextBeforeId_eq {page : List StoredMessage} (hSorted : Ascending StoredMessage.id page)
    (hPos : ∀ m ∈ page, 1 ≤ m.id) : nextBeforeId page = nextBefore StoredMessage.id page := by
  have hFold : ∀ (rest : List StoredMessage) (next : Nat), 1 ≤ next →
      (∀ m ∈ rest, next < m.id) →
        rest.foldl (fun next message =>
          if next = 0 ∨ message.id < next then message.id else next) next = next := by
    intro rest
    induction rest with
    | nil => intro next _ _; rfl
    | cons m rest ih =>
        intro next hNext hAbove
        have hm := hAbove m List.mem_cons_self
        rw [List.foldl_cons, if_neg (by omega)]
        exact ih next hNext fun m' h => hAbove m' (List.mem_cons_of_mem _ h)
  cases page with
  | nil => rfl
  | cons first rest =>
      rw [nextBeforeId, List.foldl_cons, if_pos (Or.inl rfl)]
      exact hFold rest first.id (hPos first List.mem_cons_self)
        (List.pairwise_cons.mp hSorted).1

theorem below_map {item : StoredMessage → OutboundMessage} (hId : ∀ m, itemId (item m) = m.id)
    (beforeId : Nat) (messages : List StoredMessage) :
    below itemId beforeId (messages.map item) =
      (below StoredMessage.id beforeId messages).map item := by
  unfold below
  rw [List.filter_map]
  congr 1
  apply List.filter_congr
  intro m _
  simp only [Function.comp_apply, hId]

theorem lastPage_map {α β : Type} (f : α → β) (limit : Nat) (items : List α) :
    lastPage limit (items.map f) = (lastPage limit items).map f := by
  unfold lastPage
  rw [List.length_map, List.map_drop]

theorem nextBefore_map {item : StoredMessage → OutboundMessage}
    (hId : ∀ m, itemId (item m) = m.id) (page : List StoredMessage) :
    nextBefore itemId (page.map item) = nextBefore StoredMessage.id page := by
  cases page with
  | nil => rfl
  | cons first rest => exact hId first

/-- An answer in terms of the items of the conversation: the last page below the
cursor, and the end marker that belongs to it. -/
theorem historyAnswer_eq {item : StoredMessage → OutboundMessage}
    (hId : ∀ m, itemId (item m) = m.id) (store : MessageStore)
    (select : StoredMessage → Bool) (c limit beforeId : Nat) :
    let page := lastPage (normalizeHistoryLimit limit)
      (below itemId beforeId ((store.numbered.filter select).map item))
    historyAnswer c (normalizeHistoryLimit limit) item
        (store.historyPage select (normalizeHistoryLimit limit) beforeId) =
      page ++ reply c (.historyEnd (page.length == normalizeHistoryLimit limit)
        (nextBefore itemId page)) := by
  intro page
  have hPage : page = (store.historyPage select (normalizeHistoryLimit limit)
      beforeId).reverse.map item := by
    rw [reverse_historyPage]
    simp only [page, below_map hId, lastPage_map]
  have hSub : (store.historyPage select (normalizeHistoryLimit limit) beforeId).reverse.Sublist
      store.numbered := by
    rw [reverse_historyPage]
    exact (List.drop_sublist _ _).trans (List.filter_sublist.trans List.filter_sublist)
  have hNext := nextBeforeId_eq (store.numbered_sorted.sublist hSub)
    fun m hm => (MessageStore.id_bounds (hSub.subset hm)).1
  rw [historyAnswer, hPage, nextBefore_map hId, hNext, List.length_map, List.length_reverse]

/-- The client reads the page and the end marker back. -/
theorem historyEndOf_append (items : List OutboundMessage) (c next : Nat) (hasMore : Bool) :
    historyEndOf (items ++ reply c (.historyEnd hasMore next)) = some (hasMore, next) := by
  simp [historyEndOf, reply]

theorem dropLast_append_reply (items : List OutboundMessage) (c : Nat) (response : Response) :
    (items ++ reply c response).dropLast = items := by
  simp [reply]

/-! ## The client reads backward -/

/-- The conversation can be read in a state. -/
def Conversation.OpenIn (s : ChatState) (userId : Nat) : Conversation → Prop
  | .direct peerName peer => s.users.findUserByUsername peerName = some peer
  | .group groupId => s.members.isGroupMember groupId userId = true

theorem Conversation.StaysOpen.openIn {conversation : Conversation}
    {between : Nat → List Request} {userId : Nat}
    (h : conversation.StaysOpen crypto s between userId) (r : Nat) :
    conversation.OpenIn (stateAt crypto s between r) userId := by
  cases conversation with
  | direct peerName peer => exact (stateAt_extends crypto s between r).accounts _ _ h
  | group groupId => exact h r

theorem Conversation.itemId_item (conversation : Conversation) (s : ChatState) (c : Nat)
    (m : StoredMessage) : itemId (conversation.item s c m) = m.id := by
  cases conversation <;> rfl

/-- The answer to a history request, which changes nothing. -/
theorem history_answer {conversation : Conversation} {c limit beforeId : Nat}
    {payload : Bytes} {sender : Session}
    (hBound : s.sessions.findByConnection c = some sender)
    (hOpen : conversation.OpenIn s sender.userId)
    (hParse : parseClientCommand payload = .ok (conversation.command limit beforeId)) :
    handleLine crypto s c payload =
      (historyAnswer c (normalizeHistoryLimit limit) (conversation.item s c)
        (s.messages.historyPage (conversation.select sender.userId)
          (normalizeHistoryLimit limit) beforeId), s) := by
  have hNeeds : ¬NeedsNoSession (conversation.command limit beforeId) := by
    cases conversation <;> simp [NeedsNoSession, Conversation.command]
  rw [handleLine_ok c hParse, handleCommand_run_of_some hNeeds hBound]
  cases conversation with
  | direct peerName peer =>
      have hPeer : s.users.findUserByUsername
          (Conversation.command limit beforeId (.direct peerName peer)).targetUsername =
            some peer := hOpen
      exact handleDirectHistory_run rfl hPeer c
  | group groupId =>
      have hMember : s.members.isGroupMember
          (Conversation.command limit beforeId (.group groupId)).groupId sender.userId = true :=
        hOpen
      exact handleGroupHistory_run rfl hMember c

/-- The items of the conversation in the state of a round. -/
def Conversation.view (conversation : Conversation) (crypto : Crypto) (s : ChatState)
    (between : Nat → List Request) (c userId r : Nat) : List OutboundMessage :=
  (conversation.messages (stateAt crypto s between r) userId).map
    (conversation.item (stateAt crypto s between r) c)

/-- The cursors a client can come to: none in the first round, the id of a
message the first round could see in the others. -/
def Visited (s : ChatState) (round beforeId : Nat) : Prop :=
  (round = 0 ∧ beforeId = 0) ∨ (1 ≤ beforeId ∧ beforeId ≤ s.messages.messages.length)

/-- A page is followed by a cursor of this kind. -/
theorem visited_next {conversation : Conversation} {between : Nat → List Request}
    {c userId limit round beforeId : Nat} (hVisited : Visited s round beforeId)
    (hNe : lastPage limit (below itemId beforeId
      (conversation.view crypto s between c userId round)) ≠ []) :
    Visited s (round + 1) (nextBefore itemId (lastPage limit (below itemId beforeId
      (conversation.view crypto s between c userId round)))) := by
  cases hPage : lastPage limit (below itemId beforeId
      (conversation.view crypto s between c userId round)) with
  | nil => exact absurd hPage hNe
  | cons first rest =>
      have hFirst : first ∈ below itemId beforeId
          (conversation.view crypto s between c userId round) :=
        List.mem_of_mem_drop (hPage ▸ List.mem_cons_self)
      obtain ⟨hView, hBelow⟩ := List.mem_filter.mp hFirst
      obtain ⟨m, hm, rfl⟩ := List.mem_map.mp hView
      have hBounds := MessageStore.id_bounds (List.mem_filter.mp hm).1
      refine Or.inr ?_
      show 1 ≤ itemId _ ∧ itemId _ ≤ _
      simp only [conversation.itemId_item, Bool.or_eq_true, decide_eq_true_eq] at hBelow ⊢
      refine ⟨hBounds.1, ?_⟩
      rcases hVisited with ⟨rfl, -⟩ | ⟨hPos, hLe⟩
      · exact hBounds.2
      · omega

/-- The client is a backward reader of the conversation. -/
theorem pullHistory_eq_pagesBack {conversation : Conversation} {c limit : Nat}
    {encode : Nat → Bytes} {between : Nat → List Request} {sender : Session}
    (hEncode : ∀ b ≤ s.messages.messages.length,
      parseClientCommand (encode b) = .ok (conversation.command limit b))
    (hBound : ∀ r, (stateAt crypto s between r).sessions.findByConnection c = some sender)
    (hOpen : conversation.StaysOpen crypto s between sender.userId) :
    ∀ fuel round beforeId, Visited s round beforeId →
      pullHistory crypto c encode between fuel round (stateAt crypto s between round) beforeId =
        pagesBack itemId (normalizeHistoryLimit limit)
          (conversation.view crypto s between c sender.userId) fuel round beforeId := by
  intro fuel
  induction fuel with
  | zero => intro round beforeId _; rfl
  | succ fuel ih =>
      intro round beforeId hVisited
      have hLe : beforeId ≤ s.messages.messages.length := by
        rcases hVisited with ⟨-, rfl⟩ | ⟨-, hLe⟩
        · exact Nat.zero_le _
        · exact hLe
      have hLine := @history_answer crypto _ _ _ _ _ _ _ (hBound round) (hOpen.openIn round)
        (hEncode beforeId hLe)
      have hAnswer := historyAnswer_eq (conversation.itemId_item
        (stateAt crypto s between round) c) (stateAt crypto s between round).messages
        (conversation.select sender.userId) c limit beforeId
      have hNextState : serve crypto (stateAt crypto s between round)
          (.line c (encode beforeId)) = stateAt crypto s between round := by
        rw [serve, hLine]
      rw [pullHistory, pagesBack]
      simp only [hNextState]
      rw [replies, hLine]
      dsimp only
      rw [hAnswer, historyEndOf_append, dropLast_append_reply]
      generalize hPage : lastPage (normalizeHistoryLimit limit) (below itemId beforeId
        (conversation.view crypto s between c sender.userId round)) = page
      have hSame : lastPage (normalizeHistoryLimit limit) (below itemId beforeId
          (((stateAt crypto s between round).messages.numbered.filter
            (conversation.select sender.userId)).map
              (conversation.item (stateAt crypto s between round) c))) = page := hPage
      rw [hSame]
      by_cases hFull : page.length = normalizeHistoryLimit limit
      · rw [if_pos hFull, beq_iff_eq.mpr hFull]
        have hNe : page ≠ [] := by
          intro hNil
          have := normalizeHistoryLimit_pos limit
          rw [hNil, List.length_nil] at hFull
          omega
        have hVisited' := visited_next hVisited (hPage ▸ hNe)
        rw [hPage] at hVisited'
        dsimp only
        rw [← ih (round + 1) _ hVisited']
        rfl
      · rw [if_neg hFull, beq_eq_false_iff_ne.mpr hFull]

/-! ## The theorem -/

/-- An item of the conversation reads the same in every later state. -/
theorem Conversation.item_eq {conversation : Conversation} {s' : ChatState}
    (h : Extends s s') (hInv : ServiceInv s) (hInv' : ServiceInv s') {userId : Nat}
    {m : StoredMessage} (hm : m ∈ conversation.messages s userId) (c : Nat) :
    conversation.item s' c m = conversation.item s c m := by
  obtain ⟨hStored, hSelect⟩ := List.mem_filter.mp hm
  cases conversation with
  | direct peerName peer =>
      have hSelect : MessageStore.isDirectBetween userId peer.id m = true := hSelect
      simp only [MessageStore.isDirectBetween, Bool.and_eq_true, decide_eq_true_eq] at hSelect
      exact h.directItem_eq hInv hInv' hStored hSelect.1 c
  | group groupId => exact h.groupItem_eq hInv hInv' hStored c

/-- Later requests only add messages behind those seen before. -/
theorem Conversation.view_grows (conversation : Conversation) (between : Nat → List Request)
    (hInv : ServiceInv s) (c userId r : Nat) :
    conversation.view crypto s between c userId 0 <+:
      conversation.view crypto s between c userId r := by
  have hExtends := stateAt_extends crypto s between r
  have hInv' := stateAt_serviceInv crypto between hInv r
  obtain ⟨later, hLater⟩ := hExtends.numbered
  have hItems : (conversation.messages s userId).map (conversation.item s c) =
      (conversation.messages s userId).map
        (conversation.item (stateAt crypto s between r) c) := by
    apply List.map_congr_left
    intro m hm
    exact (conversation.item_eq hExtends hInv hInv' hm c).symm
  show (conversation.messages s userId).map (conversation.item s c) <+: _
  rw [hItems, Conversation.view, Conversation.messages, Conversation.messages, ← hLater,
    List.filter_append, List.map_append]
  exact List.prefix_append _ _

theorem Conversation.view_ascending (conversation : Conversation)
    (between : Nat → List Request) (c userId r : Nat) :
    Ascending itemId (conversation.view crypto s between c userId r) := by
  unfold Conversation.view
  rw [Ascending, List.pairwise_map]
  simp only [conversation.itemId_item]
  exact (MessageStore.numbered_sorted _).filter _

/-- In every state of a sequential run, for every logged-in user, every peer or
group, every limit and whatever is served between the requests: asking for pages
until `has_more` is false ends, and the pages, oldest first, are the items of
the messages the conversation had at the first request, in ascending order. -/
theorem history_complete (crypto : Crypto) (s : ChatState) (hReach : Reachable crypto s)
    (conversation : Conversation) (c limit : Nat) (sender : Session) (encode : Nat → Bytes)
    (between : Nat → List Request)
    (hEncode : ∀ b ≤ s.messages.messages.length,
      parseClientCommand (encode b) = .ok (conversation.command limit b))
    (hBound : ∀ r, (stateAt crypto s between r).sessions.findByConnection c = some sender)
    (hOpen : conversation.StaysOpen crypto s between sender.userId)
    (fuel : Nat) (hFuel : s.messages.messages.length < fuel) :
    ∃ pages, pullHistory crypto c encode between fuel 0 s 0 = some pages ∧
      pages.reverse.flatten =
        (conversation.messages s sender.userId).map (conversation.item s c) ∧
      (conversation.messages s sender.userId).Pairwise (fun a b => a.id < b.id) := by
  have hInv := serviceInv_of_reachable hReach
  have hPos : ∀ message ∈ conversation.view crypto s between c sender.userId 0,
      1 ≤ itemId message := by
    intro message hMem
    obtain ⟨m, hm, rfl⟩ := List.mem_map.mp hMem
    rw [conversation.itemId_item]
    exact (MessageStore.id_bounds (List.mem_filter.mp hm).1).1
  have hEnough : (conversation.view crypto s between c sender.userId 0).length < fuel := by
    have hLe : (conversation.messages s sender.userId).length ≤ s.messages.messages.length := by
      rw [← MessageStore.length_numbered]
      exact List.length_filter_le _ _
    rw [Conversation.view, List.length_map]
    exact Nat.lt_of_le_of_lt hLe hFuel
  obtain ⟨pages, hPages, hFlat⟩ := pagesBack_complete (normalizeHistoryLimit_pos limit)
    (conversation.view_grows between hInv c sender.userId)
    (conversation.view_ascending between c sender.userId) hPos hEnough
  refine ⟨pages, ?_, hFlat, s.messages.numbered_sorted.filter _⟩
  rw [← hPages]
  exact pullHistory_eq_pagesBack hEncode hBound hOpen fuel 0 0 (Or.inl ⟨rfl, rfl⟩)

/-- When nothing happens after the first round, the state stays. -/
theorem stateAt_of_quiet {between : Nat → List Request} (h : ∀ r, between (r + 1) = []) :
    ∀ r, stateAt crypto s between (r + 1) = stateAt crypto s between 1 := by
  intro r
  induction r with
  | zero => rfl
  | succ r ih => rw [stateAt, h r, List.foldl_nil, ih]

/-- Alice reads her group of two messages with a limit of one, while a third
arrives: a page for each message, and an empty one. -/
theorem history_complete_exactMultiple :
    let s := serveAll sampleCrypto (enter 1 "alice" ++ [.line 1 (createGroupLine "g"),
      .line 1 (groupMessageLine 1 "a"), .line 1 (groupMessageLine 1 "b")])
    let between := fun r : Nat => if r = 0 then [Request.line 1 (groupMessageLine 1 "c")] else []
    ∃ pages, pullHistory sampleCrypto 1 (groupHistoryLine 1 1) between 3 0 s 0 = some pages ∧
      pages.reverse.flatten =
        ((Conversation.group 1).messages s 1).map ((Conversation.group 1).item s 1) ∧
      ((Conversation.group 1).messages s 1).Pairwise (fun a b => a.id < b.id) := by
  intro s between
  have hRun : s.messages.messages.length = 2 ∧
      (∀ r < 2, (stateAt sampleCrypto s between r).sessions.findByConnection 1 =
        some { userId := 1, connectionId := 1, username := ascii "alice" }) ∧
      ∀ r < 2, (stateAt sampleCrypto s between r).members.isGroupMember 1 1 = true := by
    decide +kernel
  obtain ⟨hLength, hFound, hJoined⟩ := hRun
  have hQuiet := @stateAt_of_quiet sampleCrypto s between fun _ => rfl
  have hBound : ∀ r, (stateAt sampleCrypto s between r).sessions.findByConnection 1 =
      some { userId := 1, connectionId := 1, username := ascii "alice" } := by
    intro r
    cases r with
    | zero => exact hFound 0 (by decide)
    | succ r =>
        rw [hQuiet]
        exact hFound 1 (by decide)
  have hMember : ∀ r, (stateAt sampleCrypto s between r).members.isGroupMember 1 1 = true := by
    intro r
    cases r with
    | zero => exact hJoined 0 (by decide)
    | succ r =>
        rw [hQuiet]
        exact hJoined 1 (by decide)
  have hEncode : ∀ b ≤ s.messages.messages.length,
      parseClientCommand (groupHistoryLine 1 1 b) =
        .ok ((Conversation.group 1).command 1 b) := by
    intro b hb
    rw [hLength] at hb
    interval_cases b <;> decide +kernel
  exact history_complete sampleCrypto s ⟨_, rfl⟩ (.group 1) 1 1 _ _ between hEncode hBound
    hMember 3 (by rw [hLength]; decide)

end CppChat.Ports.Chat
