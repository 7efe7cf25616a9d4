import CppChat.Ports.ChatCalls

/-!
# What a request returns when nothing interferes

`handleLine` runs a request to its end.  For the commands that push messages
or list history, the replies are computed here from the state before the
request: whom a group message reaches, what a history item says, which items a
page has.  Later proofs about replies start from these equations.

## Main results

* `pushToMembers_run`: the delivery loop reaches the other online members.
* `handleDirectChat_run`, `handleGroupChat_run`, `handleGroupHistory_run`,
  `handleDirectHistory_run`, `handleUnreadQuery_run`: the replies and the next state
  of each command.
-/

namespace CppChat.Ports.Chat

open CppChat.Verified
open CppChat.Verified.AtomicProgram
open CppChat.Ports.Protocol
open CppChat.Ports.Sessions
open CppChat.Ports.Users
open CppChat.Ports.Groups
open CppChat.Ports.Messages

variable {crypto : Crypto}

/-! ## Delivery -/

/-- The copy a member of a group receives: none for the sender and for members
that are offline. -/
def pushTo (m : SessionManager) (senderId : Nat) (formatted : Response) (memberId : Nat) :
    Option OutboundMessage :=
  if memberId = senderId then none
  else (m.find memberId).map fun member =>
    { connectionId := member.connectionId, response := formatted }

/-- The delivery loop sends one copy to each member that is online. -/
theorem pushToMembers_run (s : ChatState) (senderId : Nat) (formatted : Response)
    (members : List Nat) :
    (pushToMembers senderId formatted members).run (ServiceCall.exec crypto) s =
      (members.filterMap (pushTo s.sessions senderId formatted), s) := by
  induction members with
  | nil => rfl
  | cons memberId rest ih =>
      rw [pushToMembers, List.filterMap_cons]
      by_cases hSelf : memberId = senderId
      · rw [if_pos hSelf, ih]
        simp [pushTo, hSelf]
      · rw [if_neg hSelf]
        have hExec : ServiceCall.exec crypto (.find memberId) s =
            (s.sessions.find memberId, s) := rfl
        refine (run_perform_bind hExec).trans ?_
        rw [Prog.run_bind, ih]
        cases hFind : s.sessions.find memberId with
        | none => simp [pushTo, hSelf, hFind]
        | some member => simp [pushTo, hSelf, hFind]

/-! ## History items -/

/-- The history item that a group message becomes. -/
def groupItem (s : ChatState) (c : Nat) (message : StoredMessage) : OutboundMessage :=
  { connectionId := c
    response := .historyItem message.id (ascii "gc")
      (displayName (s.users.findUserById message.senderId) message.senderId)
      (toStringU64 message.receiverId) message.body message.createdAt }

/-- The history item that a direct message becomes. -/
def directItem (s : ChatState) (c : Nat) (message : StoredMessage) : OutboundMessage :=
  { connectionId := c
    response := .historyItem message.id (ascii "dm")
      (displayName (s.users.findUserById message.senderId) message.senderId)
      (displayName (s.users.findUserById message.receiverId) message.receiverId)
      message.body message.createdAt }

/-- The history item that an unread message becomes, of either kind. -/
def anyItem (s : ChatState) (c : Nat) (message : StoredMessage) : OutboundMessage :=
  if message.type = .groupChat then groupItem s c message else directItem s c message

theorem groupHistoryItem_run (s : ChatState) (c : Nat) (message : StoredMessage) :
    (groupHistoryItem c message).run (ServiceCall.exec crypto) s =
      (groupItem s c message, s) := rfl

theorem directHistoryItem_run (s : ChatState) (c : Nat) (message : StoredMessage) :
    (directHistoryItem c message).run (ServiceCall.exec crypto) s =
      (directItem s c message, s) := rfl

theorem unreadItem_run (s : ChatState) (c : Nat) (message : StoredMessage) :
    (unreadItem c message).run (ServiceCall.exec crypto) s = (anyItem s c message, s) := by
  unfold unreadItem anyItem
  split <;> rfl

/-- A page is turned into items one by one. -/
theorem historyItems_run {item : StoredMessage → Service OutboundMessage} {s : ChatState}
    {value : StoredMessage → OutboundMessage}
    (hItem : ∀ message,
      (item message).run (ServiceCall.exec crypto) s = (value message, s))
    (page : List StoredMessage) :
    (historyItems item page).run (ServiceCall.exec crypto) s = (page.map value, s) := by
  induction page with
  | nil => rfl
  | cons message rest ih =>
      rw [historyItems, Prog.run_bind, hItem, Prog.run_bind, ih]
      rfl

/-! ## The commands -/

/-- A creation: the next id, and the creator joins it. -/
theorem handleCreateGroup_run (s : ChatState) (c : Nat) (sender : Session)
    (command : ClientCommand) :
    (handleCreateGroup c sender command).run (ServiceCall.exec crypto) s =
      if command.groupName.isEmpty then
        (reply c (.error (ascii "group name is required")), s)
      else
        (reply c (.createGroupSuccess s.groups.nextGroupId command.groupName),
          { s with
            groups := (s.groups.createGroup command.groupName sender.userId).2
            members := (s.members.joinGroup s.groups.nextGroupId sender.userId).2
            sessions := s.sessions.joinGroup s.groups.nextGroupId sender.userId }) := by
  by_cases hName : command.groupName.isEmpty
  · rw [if_pos hName]
    have hExec : ServiceCall.exec crypto
        (.createGroup command.groupName sender.userId) s =
          (.error (ascii "group name is required"), s) := by
      rw [ServiceCall.exec, GroupStore.createGroup, if_pos hName]
    exact run_perform_bind hExec
  · rw [if_neg hName]
    have hExec : ServiceCall.exec crypto
        (.createGroup command.groupName sender.userId) s =
          (.ok { id := s.groups.nextGroupId, name := command.groupName,
                 ownerId := sender.userId },
            { s with
              groups := (s.groups.createGroup command.groupName sender.userId).2 }) := by
      rw [ServiceCall.exec, GroupStore.createGroup, if_neg hName]
    exact run_perform_bind hExec

/-- A join always succeeds, and is answered with the id. -/
theorem handleGroupJoin_run (s : ChatState) (c : Nat) (sender : Session)
    (command : ClientCommand) :
    (handleGroupJoin c sender command).run (ServiceCall.exec crypto) s =
      (reply c (.ok (ascii "joined group " ++ toStringU64 command.groupId)),
        { s with
          members := (s.members.joinGroup command.groupId sender.userId).2
          sessions := s.sessions.joinGroup command.groupId sender.userId }) := rfl

/-- Only a member can leave. -/
theorem handleGroupLeave_run (s : ChatState) (c : Nat) (sender : Session)
    (command : ClientCommand) :
    (handleGroupLeave c sender command).run (ServiceCall.exec crypto) s =
      match (s.members.leaveGroup command.groupId sender.userId).1 with
      | .error reason =>
          (reply c (.error reason),
            { s with members := (s.members.leaveGroup command.groupId sender.userId).2 })
      | .ok _ =>
          (reply c (.ok (ascii "left group " ++ toStringU64 command.groupId)),
            { s with
              members := (s.members.leaveGroup command.groupId sender.userId).2
              sessions := s.sessions.leaveGroup command.groupId sender.userId }) := by
  have hExec : ServiceCall.exec crypto (.leaveGroup command.groupId sender.userId) s =
      ((s.members.leaveGroup command.groupId sender.userId).1,
        { s with members := (s.members.leaveGroup command.groupId sender.userId).2 }) := rfl
  refine (run_perform_bind hExec).trans ?_
  cases (s.members.leaveGroup command.groupId sender.userId).1 <;> rfl

/-- A message to nobody is refused, and not stored. -/
theorem handleDirectChat_run_of_none {s : ChatState} {command : ClientCommand}
    (h : s.users.findUserByUsername command.targetUsername = none) (c : Nat)
    (sender : Session) :
    (handleDirectChat c sender command).run (ServiceCall.exec crypto) s =
      (reply c (.error (ascii "receiver not found")), s) := by
  have hExec : ServiceCall.exec crypto (.findUserByUsername command.targetUsername) s =
      (none, s) := Prod.ext h rfl
  exact run_perform_bind hExec

/-- The message a `dm` stores. -/
def directMessageOf (sender : Session) (receiver : UserRecord) (command : ClientCommand) :
    Message :=
  { type := .directChat, senderId := sender.userId, receiverId := receiver.id,
    body := command.body }

/-- A `dm` stores the message, and pushes it when the receiver is online. -/
theorem handleDirectChat_run {s : ChatState} {command : ClientCommand}
    {receiver : UserRecord}
    (h : s.users.findUserByUsername command.targetUsername = some receiver) (c : Nat)
    (sender : Session) :
    let stored := s.messages.append (directMessageOf sender receiver command)
    (handleDirectChat c sender command).run (ServiceCall.exec crypto) s =
      (match s.sessions.findByUsername command.targetUsername with
        | none => reply c (.messageAck stored.1.id true false)
        | some target =>
            { connectionId := target.connectionId
              response := .directMessage sender.username command.body } ::
              reply c (.messageAck stored.1.id true true),
        { s with messages := stored.2 }) := by
  intro stored
  have hExec : ServiceCall.exec crypto (.findUserByUsername command.targetUsername) s =
      (some receiver, s) := Prod.ext h rfl
  refine (run_perform_bind hExec).trans ?_
  have hStore : ServiceCall.exec crypto (.append (directMessageOf sender receiver command)) s =
      (stored.1, { s with messages := stored.2 }) := rfl
  refine (run_perform_bind hStore).trans ?_
  cases hFind : s.sessions.findByUsername command.targetUsername with
  | none =>
      have hOffline : ServiceCall.exec crypto (.findByUsername command.targetUsername)
          { s with messages := stored.2 } = (none, { s with messages := stored.2 }) :=
        Prod.ext hFind rfl
      exact run_perform_bind hOffline
  | some target =>
      have hOnline : ServiceCall.exec crypto (.findByUsername command.targetUsername)
          { s with messages := stored.2 } =
            (some target, { s with messages := stored.2 }) :=
        Prod.ext hFind rfl
      exact run_perform_bind hOnline

/-- A message of somebody who is not a member is refused, and not stored. -/
theorem handleGroupChat_run_of_not_member {s : ChatState} {sender : Session}
    {command : ClientCommand}
    (h : s.members.isGroupMember command.groupId sender.userId = false) (c : Nat) :
    (handleGroupChat c sender command).run (ServiceCall.exec crypto) s =
      (reply c (.error (ascii "not a member of this group")), s) := by
  have hExec : ServiceCall.exec crypto
      (.isGroupMember command.groupId sender.userId) s = (false, s) :=
    Prod.ext h rfl
  exact run_perform_bind hExec

/-- The message a `group_message` stores. -/
def groupMessageOf (sender : Session) (command : ClientCommand) : Message :=
  { type := .groupChat, senderId := sender.userId, receiverId := command.groupId,
    body := command.body }

/-- The copies a `group_message` pushes. -/
def groupPushes (s : ChatState) (sender : Session) (command : ClientCommand) :
    List OutboundMessage :=
  (s.members.loadGroupMembers command.groupId).filterMap
    (pushTo s.sessions sender.userId
      (.groupMessage command.groupId sender.username command.body))

/-- A `group_message` stores the message and pushes it to the other members that
are online. -/
theorem handleGroupChat_run {s : ChatState} {sender : Session} {command : ClientCommand}
    (h : s.members.isGroupMember command.groupId sender.userId = true) (c : Nat) :
    let stored := s.messages.append (groupMessageOf sender command)
    let out := groupPushes s sender command
    (handleGroupChat c sender command).run (ServiceCall.exec crypto) s =
      (out ++ reply c (.messageAck stored.1.id true (!out.isEmpty)),
        { s with messages := stored.2 }) := by
  intro stored out
  have hExec : ServiceCall.exec crypto
      (.isGroupMember command.groupId sender.userId) s = (true, s) :=
    Prod.ext h rfl
  refine (run_perform_bind hExec).trans ?_
  have hStore : ServiceCall.exec crypto (.append (groupMessageOf sender command)) s =
      (stored.1, { s with messages := stored.2 }) := rfl
  refine (run_perform_bind hStore).trans ?_
  have hLoad : ServiceCall.exec crypto (.loadGroupMembers command.groupId)
      { s with messages := stored.2 } =
        (s.members.loadGroupMembers command.groupId, { s with messages := stored.2 }) := rfl
  refine (run_perform_bind hLoad).trans ?_
  rw [Prog.run_bind, pushToMembers_run]
  rfl

/-- The history of a group is for its members only. -/
theorem handleGroupHistory_run_of_not_member {s : ChatState} {sender : Session}
    {command : ClientCommand} (hGroup : command.groupHistory = true)
    (h : s.members.isGroupMember command.groupId sender.userId = false) (c : Nat) :
    (handleHistoryQuery c sender command).run (ServiceCall.exec crypto) s =
      (reply c (.error (ascii "not a member of this group")), s) := by
  have hExec : ServiceCall.exec crypto
      (.isGroupMember command.groupId sender.userId) s = (false, s) :=
    Prod.ext h rfl
  unfold handleHistoryQuery
  rw [if_pos hGroup]
  exact run_perform_bind hExec

/-- A history answer: the items oldest first, then the end marker. -/
def historyAnswer (c limit : Nat) (item : StoredMessage → OutboundMessage)
    (page : List StoredMessage) : List OutboundMessage :=
  page.reverse.map item ++
    reply c (.historyEnd (page.length == limit) (nextBeforeId page.reverse))

/-- A group history: its items oldest first, then the end with the cursor. -/
theorem handleGroupHistory_run {s : ChatState} {sender : Session} {command : ClientCommand}
    (hGroup : command.groupHistory = true)
    (h : s.members.isGroupMember command.groupId sender.userId = true) (c : Nat) :
    (handleHistoryQuery c sender command).run (ServiceCall.exec crypto) s =
      (historyAnswer c (normalizeHistoryLimit command.limit) (groupItem s c)
        (s.messages.groupHistoryPage command.groupId
          (normalizeHistoryLimit command.limit) command.beforeId), s) := by
  have hExec : ServiceCall.exec crypto
      (.isGroupMember command.groupId sender.userId) s = (true, s) :=
    Prod.ext h rfl
  have hPage : ServiceCall.exec crypto (.groupHistoryPage command.groupId
      (normalizeHistoryLimit command.limit) command.beforeId) s =
        (s.messages.groupHistoryPage command.groupId
          (normalizeHistoryLimit command.limit) command.beforeId, s) := rfl
  unfold handleHistoryQuery
  rw [if_pos hGroup]
  refine (run_perform_bind hExec).trans ?_
  refine (run_perform_bind hPage).trans ?_
  rw [Prog.run_bind, historyItems_run (groupHistoryItem_run s c)]
  rfl

theorem handleDirectHistory_run_of_none {s : ChatState} {sender : Session}
    {command : ClientCommand} (hGroup : command.groupHistory = false)
    (h : s.users.findUserByUsername command.targetUsername = none) (c : Nat) :
    (handleHistoryQuery c sender command).run (ServiceCall.exec crypto) s =
      (reply c (.error (ascii "peer not found")), s) := by
  have hExec : ServiceCall.exec crypto (.findUserByUsername command.targetUsername) s =
      (none, s) := Prod.ext h rfl
  unfold handleHistoryQuery
  rw [hGroup]
  exact run_perform_bind hExec

/-- A direct history: its items oldest first, then the end with the cursor. -/
theorem handleDirectHistory_run {s : ChatState} {sender : Session}
    {command : ClientCommand} {peer : UserRecord} (hGroup : command.groupHistory = false)
    (h : s.users.findUserByUsername command.targetUsername = some peer) (c : Nat) :
    (handleHistoryQuery c sender command).run (ServiceCall.exec crypto) s =
      (historyAnswer c (normalizeHistoryLimit command.limit) (directItem s c)
        (s.messages.directHistoryPage sender.userId peer.id
          (normalizeHistoryLimit command.limit) command.beforeId), s) := by
  have hExec : ServiceCall.exec crypto (.findUserByUsername command.targetUsername) s =
      (some peer, s) := Prod.ext h rfl
  have hPage : ServiceCall.exec crypto (.directHistoryPage sender.userId peer.id
      (normalizeHistoryLimit command.limit) command.beforeId) s =
        (s.messages.directHistoryPage sender.userId peer.id
          (normalizeHistoryLimit command.limit) command.beforeId, s) := rfl
  unfold handleHistoryQuery
  rw [hGroup]
  refine (run_perform_bind hExec).trans ?_
  refine (run_perform_bind hPage).trans ?_
  rw [Prog.run_bind, historyItems_run (directHistoryItem_run s c)]
  rfl

/-- The page an `unread` request lists. -/
def unreadPageOf (s : ChatState) (sender : Session) (command : ClientCommand) :
    List StoredMessage :=
  s.messages.unreadPage sender.userId (s.members.loadUserGroups sender.userId)
    command.lastSeenMessageId (normalizeHistoryLimit command.limit)

/-- The unread messages, and the end with the cursor. -/
theorem handleUnreadQuery_run (s : ChatState) (sender : Session) (command : ClientCommand)
    (c : Nat) :
    let page := unreadPageOf s sender command
    (handleUnreadQuery c sender command).run (ServiceCall.exec crypto) s =
      (page.map (anyItem s c) ++
        reply c (.unreadEnd (page.length == normalizeHistoryLimit command.limit)
          (page.foldl (fun next message => max next message.id)
            command.lastSeenMessageId)), s) := by
  intro page
  have hGroups : ServiceCall.exec crypto (.loadUserGroups sender.userId) s =
      (s.members.loadUserGroups sender.userId, s) := rfl
  have hPage : ServiceCall.exec crypto (.unreadPage sender.userId
      (s.members.loadUserGroups sender.userId) command.lastSeenMessageId
      (normalizeHistoryLimit command.limit)) s = (page, s) := rfl
  refine (run_perform_bind hGroups).trans ?_
  refine (run_perform_bind hPage).trans ?_
  rw [Prog.run_bind, historyItems_run (unreadItem_run s c)]
  rfl

/-- `register` in one equation. -/
theorem handleRegister_run (s : ChatState) (c : Nat) (command : ClientCommand) :
    (handleRegister c command).run (ServiceCall.exec crypto) s =
      if (s.sessions.findByConnection c).isSome then
        (reply c (.error (ascii "already logged in")), s)
      else
        (match (s.users.registerUser crypto command.username command.password).1 with
          | .error reason => reply c (.registerFailed reason)
          | .ok userId => reply c (.registerSuccess userId),
          { s with
            users := (s.users.registerUser crypto command.username command.password).2 }) := by
  have hFind : ServiceCall.exec crypto (.findByConnection c) s =
      (s.sessions.findByConnection c, s) := rfl
  refine (run_perform_bind hFind).trans ?_
  split
  · rfl
  · have hRegister : ServiceCall.exec crypto
        (.registerUser command.username command.password) s =
          ((s.users.registerUser crypto command.username command.password).1,
            { s with
              users := (s.users.registerUser crypto command.username command.password).2 }) :=
      rfl
    refine (run_perform_bind hRegister).trans ?_
    cases (s.users.registerUser crypto command.username command.password).1 <;> rfl

/-- `login` in one equation. -/
theorem handleLogin_run (s : ChatState) (c : Nat) (command : ClientCommand) :
    (handleLogin c command).run (ServiceCall.exec crypto) s =
      if (s.sessions.findByConnection c).isSome then
        (reply c (.loginFailed (ascii "already logged in")), s)
      else if s.sessions.isUsernameOnline command.username then
        (reply c (.loginFailed (ascii "user already online")), s)
      else
        match s.users.verifyLogin crypto command.username command.password with
        | none => (reply c (.loginFailed (ascii "invalid username or password")), s)
        | some user =>
            (reply c (.loginSuccess user.id user.username),
              { s with
                sessions := s.sessions.bind
                  { userId := user.id, connectionId := c, username := user.username } }) := by
  have hFind : ServiceCall.exec crypto (.findByConnection c) s =
      (s.sessions.findByConnection c, s) := rfl
  have hOnline : ServiceCall.exec crypto (.isUsernameOnline command.username) s =
      (s.sessions.isUsernameOnline command.username, s) := rfl
  have hVerify : ServiceCall.exec crypto
      (.verifyLogin command.username command.password) s =
        (s.users.verifyLogin crypto command.username command.password, s) := rfl
  refine (run_perform_bind hFind).trans ?_
  split
  · rfl
  · refine (run_perform_bind hOnline).trans ?_
    split
    · rfl
    · refine (run_perform_bind hVerify).trans ?_
      cases s.users.verifyLogin crypto command.username command.password <;> rfl

end CppChat.Ports.Chat
