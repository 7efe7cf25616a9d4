import CppChat.Ports.CommandText
import CppChat.Ports.ServedRequests

/-!
# Push agrees with pull

A stored message reaches its readers in two ways: live, through the copies that
`dm` and `group_message` push to online users, and later, through `unread`.  The
two select their recipients independently, one through names and member lists,
the other through a predicate on the stored message.  They agree: the
connections that get a live copy are those whose user would find the message as
the first unread one behind its predecessor.

## Main results

* `unreadPage_head?_iff`: the newest message starts the unread page of exactly the
  users it is unread for.
* `directCopies_iff`, `groupCopies_iff`: the connections that get a copy.
* `Accepted.pushed`: an accepted message is stored once, is pushed once to each of these
  connections, and is acknowledged with the word whether there was one.
* `Served.accepted`: no other request stores anything or is acknowledged.
* `push_agrees`: both, in every state of a sequential run.
-/

namespace CppChat.Ports.Chat

open CppChat.Verified
open CppChat.Ports.Protocol
open CppChat.Ports.Sessions
open CppChat.Ports.Users
open CppChat.Ports.Groups
open CppChat.Ports.Messages

/-- A reply that delivers a message live. -/
def isLiveCopy : Response → Bool
  | .directMessage _ _ => true
  | .groupMessage _ _ _ => true
  | _ => false

/-- The live copies among the replies. -/
def liveCopies (out : List OutboundMessage) : List OutboundMessage :=
  out.filter fun message => isLiveCopy message.response

/-- The reply is an ack. -/
def isAck : Response → Bool
  | .messageAck _ _ _ => true
  | _ => false

/-- The body a live copy delivers. -/
def copyBody : Response → Bytes
  | .directMessage _ body => body
  | .groupMessage _ _ body => body
  | _ => []

variable {crypto : Crypto} {s s' : ChatState}

/-! ## The unread page behind the newest message -/

/-- Behind its predecessor the newest message is the only candidate. -/
theorem unreadPage_head?_iff (store : MessageStore) (message : Message) (u : Nat)
    (groupIds : List Nat) (limit : Nat) :
    let m := StoredMessage.ofMessage (store.messages.length + 1) message
    ((store.append message).2.unreadPage u groupIds (m.id - 1) limit).head? = some m ↔
      MessageStore.isUnreadFor u groupIds m = true := by
  intro m
  have hId : m.id - 1 = store.messages.length := rfl
  have hOld : ∀ m' ∈ store.numbered, ¬(!decide (m'.id ≤ store.messages.length) &&
      MessageStore.isUnreadFor u groupIds m') = true := by
    intro m' hm'
    have := (MessageStore.id_bounds hm').2
    simp [this]
  have hNew : (!decide (m.id ≤ store.messages.length) &&
      MessageStore.isUnreadFor u groupIds m) = MessageStore.isUnreadFor u groupIds m := by
    have : ¬m.id ≤ store.messages.length := Nat.not_succ_le_self _
    simp [this]
  have hPos := MessageStore.pageLimit_pos limit
  rw [MessageStore.unreadPage_eq, MessageStore.numbered_append, List.filter_append, hId,
    List.filter_eq_nil_iff.mpr hOld, List.nil_append, List.filter_singleton, hNew]
  cases MessageStore.isUnreadFor u groupIds m with
  | false => simp
  | true =>
      obtain ⟨n, hn⟩ := Nat.exists_eq_succ_of_ne_zero (Nat.pos_iff_ne_zero.mp hPos)
      simp [hn, m]

/-- The user of a connection finds the message first. -/
def PullsFirst (s : ChatState) (limit : Nat) (m : StoredMessage) (c : Nat) : Prop :=
  ∃ session, s.sessions.findByConnection c = some session ∧
    (s.messages.unreadPage session.userId (s.members.loadUserGroups session.userId)
      (m.id - 1) limit).head? = some m

theorem pullsFirst_append_iff (s : ChatState) (message : Message) (limit c : Nat) :
    let m := StoredMessage.ofMessage (s.messages.messages.length + 1) message
    PullsFirst { s with messages := (s.messages.append message).2 } limit m c ↔
      ∃ session, s.sessions.findByConnection c = some session ∧
        MessageStore.isUnreadFor session.userId (s.members.loadUserGroups session.userId)
          m = true := by
  intro m
  constructor
  · rintro ⟨session, hBound, hHead⟩
    exact ⟨session, hBound, (unreadPage_head?_iff _ _ _ _ _).mp hHead⟩
  · rintro ⟨session, hBound, hUnread⟩
    exact ⟨session, hBound, (unreadPage_head?_iff _ _ _ _ _).mpr hUnread⟩

/-! ## Who gets a copy -/

theorem isUnreadFor_direct (id u : Nat) (groupIds : List Nat) (sender : Session)
    (receiver : UserRecord) (command : ClientCommand) :
    MessageStore.isUnreadFor u groupIds
        (.ofMessage id (directMessageOf sender receiver command)) = true ↔
      receiver.id = u := by
  simp [MessageStore.isUnreadFor, StoredMessage.ofMessage, directMessageOf]

theorem isUnreadFor_group (members : GroupMemberStore) (id u : Nat) (sender : Session)
    (command : ClientCommand) :
    MessageStore.isUnreadFor u (members.loadUserGroups u)
        (.ofMessage id (groupMessageOf sender command)) = true ↔
      sender.userId ≠ u ∧ members.isGroupMember command.groupId u = true := by
  simp [MessageStore.isUnreadFor, StoredMessage.ofMessage, groupMessageOf,
    GroupMemberStore.mem_loadUserGroups]

/-- The copies of a `dm`: one, for the session of the receiver. -/
def directCopies (s : ChatState) (sender : Session) (command : ClientCommand) :
    List OutboundMessage :=
  match s.sessions.findByUsername command.targetUsername with
  | none => []
  | some target =>
      [{ connectionId := target.connectionId
         response := .directMessage sender.username command.body }]

theorem directReplies_eq (s : ChatState) (c : Nat) (sender : Session)
    (command : ClientCommand) :
    directReplies s c sender command = directCopies s sender command ++
      reply c (.messageAck (s.messages.messages.length + 1) true
        (!(directCopies s sender command).isEmpty)) := by
  unfold directReplies directCopies
  cases s.sessions.findByUsername command.targetUsername <;> rfl

/-- A session in the user index is found by its connection. -/
theorem ServiceInv.bound_of_find (h : ServiceInv s) {u : Nat} {session : Session}
    (hFind : s.sessions.find u = some session) :
    s.sessions.findByConnection session.connectionId = some session ∧ session.userId = u := by
  have hUser := h.consistent.userId_eq _ _ hFind
  exact ⟨h.consistent.findByConnection_iff.mpr ⟨by rw [hUser]; exact hFind, rfl⟩, hUser⟩

/-- A direct message is pushed to the session of its receiver, also when that is the
sender. -/
theorem directCopies_iff (h : ServiceInv s) {sender : Session} {command : ClientCommand}
    {receiver : UserRecord}
    (hReceiver : s.users.findUserByUsername command.targetUsername = some receiver) (c : Nat) :
    c ∈ (directCopies s sender command).map OutboundMessage.connectionId ↔
      ∃ session, s.sessions.findByConnection c = some session ∧ receiver.id = session.userId := by
  unfold directCopies
  rw [h.findByUsername_eq hReceiver]
  constructor
  · intro hMem
    cases hOnline : s.sessions.find receiver.id with
    | none => rw [hOnline] at hMem; contradiction
    | some target =>
        rw [hOnline] at hMem
        obtain ⟨hBound, hUser⟩ := h.bound_of_find hOnline
        rw [List.mem_singleton.mp hMem]
        exact ⟨target, hBound, hUser.symm⟩
  · rintro ⟨session, hBound, hUser⟩
    obtain ⟨hFind, hConn⟩ := h.consistent.findByConnection_iff.mp hBound
    rw [hUser, show s.sessions.find session.userId = some session from hFind, ← hConn]
    exact List.mem_singleton.mpr rfl

theorem pushTo_eq_some {m : SessionManager} {senderId memberId : Nat} {formatted : Response}
    {copy : OutboundMessage} :
    pushTo m senderId formatted memberId = some copy ↔
      memberId ≠ senderId ∧ ∃ session, m.find memberId = some session ∧
        copy = { connectionId := session.connectionId, response := formatted } := by
  unfold pushTo
  split
  · rename_i hSelf
    simp [hSelf]
  · rename_i hOther
    rw [Option.map_eq_some_iff]
    simp only [ne_eq, hOther, not_false_eq_true, true_and, eq_comm]

/-- A group message is pushed to the other members that are online. -/
theorem groupCopies_iff (h : ServiceInv s) (sender : Session) (command : ClientCommand)
    (c : Nat) :
    c ∈ (groupPushes s sender command).map OutboundMessage.connectionId ↔
      ∃ session, s.sessions.findByConnection c = some session ∧
        sender.userId ≠ session.userId ∧
        s.members.isGroupMember command.groupId session.userId = true := by
  rw [List.mem_map]
  constructor
  · rintro ⟨copy, hCopy, rfl⟩
    obtain ⟨memberId, hMember, hPush⟩ := List.mem_filterMap.mp hCopy
    obtain ⟨hOther, session, hFind, rfl⟩ := pushTo_eq_some.mp hPush
    obtain ⟨hBound, hUser⟩ := h.bound_of_find hFind
    rw [← hUser] at hOther hMember
    exact ⟨session, hBound, hOther.symm, (s.members.isGroupMember_iff _ _).mpr hMember⟩
  · rintro ⟨session, hBound, hOther, hMember⟩
    obtain ⟨hFind, hConn⟩ := h.consistent.findByConnection_iff.mp hBound
    refine ⟨_, List.mem_filterMap.mpr ⟨session.userId,
      (s.members.isGroupMember_iff _ _).mp hMember,
      pushTo_eq_some.mpr ⟨hOther.symm, session, hFind, rfl⟩⟩, hConn⟩

/-- Two members never share a connection, so no connection gets two copies. -/
theorem groupCopies_nodup (h : ServiceInv s) (sender : Session) (command : ClientCommand) :
    ((groupPushes s sender command).map OutboundMessage.connectionId).Nodup := by
  unfold groupPushes
  rw [List.map_filterMap]
  apply List.Nodup.filterMap
  · intro u u' c hu hu'
    obtain ⟨copy, hPush, hc⟩ := Option.map_eq_some_iff.mp hu
    obtain ⟨copy', hPush', hc'⟩ := Option.map_eq_some_iff.mp hu'
    obtain ⟨-, session, hFind, rfl⟩ := pushTo_eq_some.mp hPush
    obtain ⟨-, session', hFind', rfl⟩ := pushTo_eq_some.mp hPush'
    exact h.consistent.user_unique hFind hFind' (hc.trans hc'.symm)
  · exact s.members.nodup_loadGroupMembers command.groupId

/-! ## Accepted requests -/

/-- The request is accepted, and this is the message it stores: a `dm` to a registered user, or
a `group_message` of a member, from a connection with a session. -/
inductive Accepted (s : ChatState) (c : Nat) (payload : Bytes) : Message → Prop
  | direct {sender : Session} {command : ClientCommand} {receiver : UserRecord}
      (hAuth : Authorized s c payload sender command) (hType : command.type = .directChat)
      (hReceiver : s.users.findUserByUsername command.targetUsername = some receiver) :
      Accepted s c payload (directMessageOf sender receiver command)
  | group {sender : Session} {command : ClientCommand}
      (hAuth : Authorized s c payload sender command) (hType : command.type = .groupChat)
      (hMember : s.members.isGroupMember command.groupId sender.userId = true) :
      Accepted s c payload (groupMessageOf sender command)

/-- A command that needs a session is served by its handler. -/
theorem line_run {c : Nat} {payload : Bytes} {sender : Session} {command : ClientCommand}
    (hAuth : Authorized s c payload sender command) (hNeeds : ¬NeedsNoSession command) :
    (replies crypto s (.line c payload), serve crypto s (.line c payload)) =
      (handleSession c sender command).run (ServiceCall.exec crypto) s := by
  rw [← handleCommand_run_of_some hNeeds hAuth.bound, replies, serve,
    handleLine_ok c hAuth.parsed]

/-- What a `dm` to a registered user does. -/
theorem direct_run {c : Nat} {payload : Bytes} {sender : Session} {command : ClientCommand}
    {receiver : UserRecord} (hAuth : Authorized s c payload sender command)
    (hType : command.type = .directChat)
    (hReceiver : s.users.findUserByUsername command.targetUsername = some receiver) :
    (replies crypto s (.line c payload), serve crypto s (.line c payload)) =
      (directReplies s c sender command, { s with
        messages := (s.messages.append (directMessageOf sender receiver command)).2 }) := by
  have hNeeds : ¬NeedsNoSession command := by simp [NeedsNoSession, hType]
  have hHandler : handleSession c sender command = handleDirectChat c sender command := by
    simp only [handleSession, hType]
  rw [line_run hAuth hNeeds, hHandler, handleDirectChat_run hReceiver c sender]
  cases hOnline : s.sessions.findByUsername command.targetUsername <;>
    simp [directReplies, hOnline, MessageStore.append, StoredMessage.ofMessage]

/-- What a `group_message` of a member does. -/
theorem group_run {c : Nat} {payload : Bytes} {sender : Session} {command : ClientCommand}
    (hAuth : Authorized s c payload sender command) (hType : command.type = .groupChat)
    (hMember : s.members.isGroupMember command.groupId sender.userId = true) :
    (replies crypto s (.line c payload), serve crypto s (.line c payload)) =
      (groupReplies s c sender command,
        { s with messages := (s.messages.append (groupMessageOf sender command)).2 }) := by
  have hNeeds : ¬NeedsNoSession command := by simp [NeedsNoSession, hType]
  have hHandler : handleSession c sender command = handleGroupChat c sender command := by
    simp only [handleSession, hType]
  rw [line_run hAuth hNeeds, hHandler, handleGroupChat_run hMember c]
  simp [groupReplies, MessageStore.append, StoredMessage.ofMessage]

/-! ## The theorem -/

/-- A message as the next one of the store. -/
def storedAs (s : ChatState) (message : Message) : StoredMessage :=
  .ofMessage (s.messages.messages.length + 1) message

/-- What an accepted request has done: it has stored its message, and its replies are the
copies of that message, each to a connection of its own whose user would pull the message,
and the acknowledgement. -/
structure Pushed (s s' : ChatState) (c : Nat) (out : List OutboundMessage)
    (message : Message) : Prop where
  appended : s'.messages.messages = s.messages.messages ++ [message]
  replies_eq : out = liveCopies out ++
    reply c (.messageAck (storedAs s message).id true (!(liveCopies out).isEmpty))
  bodies : ∀ copy ∈ liveCopies out, copyBody copy.response = message.body
  once : ((liveCopies out).map OutboundMessage.connectionId).Nodup
  pulled : ∀ limit, 1 ≤ limit → ∀ c',
    c' ∈ (liveCopies out).map OutboundMessage.connectionId ↔
      PullsFirst s' limit (storedAs s message) c'

/-- The copies in front of an acknowledgement are its live copies. -/
theorem liveCopies_append_ack {copies : List OutboundMessage}
    (h : ∀ copy ∈ copies, isLiveCopy copy.response = true) (c id : Nat)
    (stored delivered : Bool) :
    liveCopies (copies ++ reply c (.messageAck id stored delivered)) = copies := by
  unfold liveCopies
  rw [List.filter_append, List.filter_eq_self.mpr h]
  simp [reply, isLiveCopy]

theorem pushed_of_copies {c : Nat} {message : Message} {copies : List OutboundMessage}
    (hLive : ∀ copy ∈ copies, isLiveCopy copy.response = true)
    (hBodies : ∀ copy ∈ copies, copyBody copy.response = message.body)
    (hOnce : (copies.map OutboundMessage.connectionId).Nodup)
    (hPulled : ∀ c', c' ∈ copies.map OutboundMessage.connectionId ↔
      ∃ session, s.sessions.findByConnection c' = some session ∧
        MessageStore.isUnreadFor session.userId (s.members.loadUserGroups session.userId)
          (storedAs s message) = true) :
    Pushed s { s with messages := (s.messages.append message).2 } c
      (copies ++ reply c (.messageAck (s.messages.messages.length + 1) true (!copies.isEmpty)))
      message := by
  have hCopies := liveCopies_append_ack hLive c (s.messages.messages.length + 1) true
    (!copies.isEmpty)
  constructor
  · rfl
  · rw [hCopies]
    rfl
  · rw [hCopies]
    exact hBodies
  · rw [hCopies]
    exact hOnce
  · intro limit _ c'
    rw [hCopies, hPulled]
    exact (pullsFirst_append_iff s message limit c').symm

theorem directSent_pushed (h : ServiceInv s) {c : Nat} {sender : Session}
    {command : ClientCommand} {receiver : UserRecord}
    (hReceiver : s.users.findUserByUsername command.targetUsername = some receiver) :
    Pushed s { s with
        messages := (s.messages.append (directMessageOf sender receiver command)).2 } c
      (directReplies s c sender command) (directMessageOf sender receiver command) := by
  have hCases : directCopies s sender command = [] ∨
      ∃ c', directCopies s sender command =
        [{ connectionId := c', response := .directMessage sender.username command.body }] := by
    unfold directCopies
    split
    · exact Or.inl rfl
    · exact Or.inr ⟨_, rfl⟩
  rw [directReplies_eq]
  apply pushed_of_copies
  · rcases hCases with hNone | ⟨c', hOne⟩ <;> simp_all [isLiveCopy]
  · rcases hCases with hNone | ⟨c', hOne⟩ <;> simp_all [copyBody, directMessageOf]
  · rcases hCases with hNone | ⟨c', hOne⟩ <;> simp_all
  · intro c'
    rw [directCopies_iff h hReceiver]
    simp only [storedAs, isUnreadFor_direct]

theorem groupSent_pushed (h : ServiceInv s) {c : Nat} {sender : Session}
    {command : ClientCommand} :
    Pushed s { s with messages := (s.messages.append (groupMessageOf sender command)).2 } c
      (groupReplies s c sender command) (groupMessageOf sender command) := by
  have hCopy : ∀ copy ∈ groupPushes s sender command,
      copy.response = .groupMessage command.groupId sender.username command.body := by
    intro copy hMem
    obtain ⟨memberId, -, hPush⟩ := List.mem_filterMap.mp hMem
    obtain ⟨-, session, -, rfl⟩ := pushTo_eq_some.mp hPush
    rfl
  apply pushed_of_copies
  · intro copy hMem
    rw [hCopy copy hMem]
    rfl
  · intro copy hMem
    rw [hCopy copy hMem]
    rfl
  · exact groupCopies_nodup h sender command
  · intro c'
    rw [groupCopies_iff h]
    simp only [storedAs, isUnreadFor_group]

/-- An accepted request pushes its message. -/
theorem Accepted.pushed {c : Nat} {payload : Bytes} {message : Message}
    (hAccepted : Accepted s c payload message) (h : ServiceInv s) :
    Pushed s (serve crypto s (.line c payload)) c (replies crypto s (.line c payload))
      message := by
  cases hAccepted with
  | direct hAuth hType hReceiver =>
      obtain ⟨hReplies, hState⟩ :=
        Prod.mk.inj (@direct_run crypto s c payload _ _ _ hAuth hType hReceiver)
      rw [hReplies, hState]
      exact directSent_pushed h hReceiver
  | group hAuth hType hMember =>
      obtain ⟨hReplies, hState⟩ :=
        Prod.mk.inj (@group_run crypto s c payload _ _ hAuth hType hMember)
      rw [hReplies, hState]
      exact groupSent_pushed h

/-! ## No other request is acknowledged -/

/-- Replies to one connection without an acknowledgement. -/
theorem no_ack_reply {c : Nat} {response : Response} (h : isAck response = false) :
    ∀ message ∈ reply c response, isAck message.response = false := by
  intro message hMem
  rw [List.mem_singleton.mp hMem]
  exact h

theorem no_ack_historyAnswer {c limit : Nat} {item : StoredMessage → OutboundMessage}
    (hItem : ∀ m, isAck (item m).response = false) (page : List StoredMessage) :
    ∀ message ∈ historyAnswer c limit item page, isAck message.response = false := by
  intro message hMem
  rcases List.mem_append.mp hMem with hPage | hEnd
  · obtain ⟨m, -, rfl⟩ := List.mem_map.mp hPage
    exact hItem m
  · exact no_ack_reply rfl message hEnd

/-- The request stores nothing, and no reply acknowledges anything. -/
def StoresNothing (s s' : ChatState) (out : List OutboundMessage) : Prop :=
  s'.messages = s.messages ∧ ∀ message ∈ out, isAck message.response = false

/-- A request is accepted, or it stores nothing. -/
theorem Served.accepted {c : Nat} {payload : Bytes} {out : List OutboundMessage}
    (hServed : Served crypto s (.line c payload) out s') :
    (∃ message, Accepted s c payload message) ∨ StoresNothing s s' out := by
  cases hServed with
  | @refused _ _ response hRefuses =>
      refine .inr ⟨rfl, no_ack_reply ?_⟩
      cases response <;> first | rfl | exact hRefuses.elim
  | @registered _ _ command _ _ _ =>
      refine .inr ⟨rfl, no_ack_reply ?_⟩
      cases (s.users.registerUser crypto command.username command.password).1 <;> rfl
  | loggedIn _ _ _ _ _ => exact .inr ⟨rfl, no_ack_reply rfl⟩
  | loggedOut _ _ =>
      refine .inr ⟨rfl, fun message hMem => ?_⟩
      rw [List.mem_singleton.mp hMem]
      rfl
  | created _ _ _ => exact .inr ⟨rfl, no_ack_reply rfl⟩
  | joined _ _ => exact .inr ⟨rfl, no_ack_reply rfl⟩
  | left _ _ _ => exact .inr ⟨rfl, no_ack_reply rfl⟩
  | directSent hAuth hType hReceiver => exact .inl ⟨_, .direct hAuth hType hReceiver⟩
  | groupSent hAuth hType hMember => exact .inl ⟨_, .group hAuth hType hMember⟩
  | groupListed _ _ _ _ => exact .inr ⟨rfl, no_ack_historyAnswer (fun _ => rfl) _⟩
  | directListed _ _ _ _ => exact .inr ⟨rfl, no_ack_historyAnswer (fun _ => rfl) _⟩
  | unreadListed _ _ =>
      refine .inr ⟨rfl, fun m hm => ?_⟩
      rcases List.mem_append.mp hm with hPage | hEnd
      · obtain ⟨m', -, rfl⟩ := List.mem_map.mp hPage
        unfold anyItem
        split <;> rfl
      · exact no_ack_reply rfl m hEnd

/-- In every state of a sequential run, an accepted `dm` or `group_message` stores its message
and nothing else; its live copies go, one each, to exactly the connections whose user would
pull that message first behind its predecessor; and an acknowledgement comes last, names the
message and says whether there was a copy.  Every other request stores nothing and is not
acknowledged. -/
theorem push_agrees (crypto : Crypto) (s : ChatState) (hReach : Reachable crypto s) (c : Nat)
    (payload : Bytes) :
    (∀ message, Accepted s c payload message →
      Pushed s (serve crypto s (.line c payload)) c (replies crypto s (.line c payload))
        message) ∧
    ((¬∃ message, Accepted s c payload message) →
      StoresNothing s (serve crypto s (.line c payload))
        (replies crypto s (.line c payload))) :=
  ⟨fun _ hAccepted => hAccepted.pushed (serviceInv_of_reachable hReach),
    fun hNot => (served crypto s (.line c payload)).accepted.resolve_left hNot⟩

/-- Alice and Bob are members of a group. -/
def bothInGroup : ChatState :=
  serveAll sampleCrypto (enter 1 "alice" ++ enter 2 "bob" ++
    [.line 1 (createGroupLine "g"), .line 2 (joinGroupLine 1)])

/-- What Alice sends: a message to herself, one to Bob, and one to the group. -/
def aliceSends : List Bytes :=
  [dmLine (ascii "alice") (ascii "hi"), dmLine (ascii "bob") (ascii "hi"),
    groupMessageLine 1 "hi"]

/-- All three are accepted; the first copy goes to Alice herself, the others to Bob. -/
theorem push_agrees_aliceSends :
    (aliceSends.map fun payload =>
      (liveCopies (replies sampleCrypto bothInGroup (.line 1 payload))).map
        OutboundMessage.connectionId) = [[1], [2], [2]] ∧
    ∀ payload ∈ aliceSends, ∃ message, Accepted bothInGroup 1 payload message ∧
      Pushed bothInGroup (serve sampleCrypto bothInGroup (.line 1 payload)) 1
        (replies sampleCrypto bothInGroup (.line 1 payload)) message := by
  refine ⟨by decide +kernel, fun payload hMem => ?_⟩
  obtain ⟨hAccepted, hElse⟩ := push_agrees sampleCrypto bothInGroup ⟨_, rfl⟩ 1 payload
  have hAcks : ∀ payload ∈ aliceSends, ∃ reply ∈ replies sampleCrypto bothInGroup
      (.line 1 payload), isAck reply.response = true := by decide +kernel
  obtain ⟨ack, hReply, hIsAck⟩ := hAcks payload hMem
  by_cases hAny : ∃ message, Accepted bothInGroup 1 payload message
  · obtain ⟨message, hMessage⟩ := hAny
    exact ⟨message, hMessage, hAccepted message hMessage⟩
  · exact absurd hIsAck (by rw [(hElse hAny).2 ack hReply]; exact Bool.false_ne_true)

end CppChat.Ports.Chat
