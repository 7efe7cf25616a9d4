import CppChat.Ports.ChatRuns
import CppChat.Ports.SessionIndexes

/-!
# What one request can do

`Served` lists everything a request can lead to when the service runs it to its
end: the replies, the next state, and the checks that were passed on the way.
Every theorem about sequential runs is a case analysis over this list; no such
proof looks into a handler again.

The second half is the invariant of these runs, `ServiceInv`: the session
indexes agree, the user store's two maps are inverse to each other, every
session belongs to an account under the account's own name, and every stored
message is between known accounts.

## Main results

* `served`: a request does one of the listed things.
* `serve_serviceInv`: each of them keeps the invariant.
* `serviceInv_of_reachable`: every state of a sequential run has it.
* `Served.extends`: messages and accounts stay.
-/

namespace CppChat.Ports.Chat

open CppChat.Verified
open CppChat.Verified.AtomicProgram
open CppChat.Ports.Protocol
open CppChat.Ports.Sessions
open CppChat.Ports.Users
open CppChat.Ports.Groups
open CppChat.Ports.Messages

/-- The replies to a request. -/
def replies (crypto : Crypto) (s : ChatState) : Request → List OutboundMessage
  | .line connectionId payload => (handleLine crypto s connectionId payload).1
  | .disconnect _ => []

/-- The answers that report no effect. -/
def Refuses : Response → Prop
  | .error _ => True
  | .registerFailed _ => True
  | .loginFailed _ => True
  | .pong => True
  | _ => False

/-- The reply to a registration. -/
def registerReply : Except Bytes Nat → Response
  | .error reason => .registerFailed reason
  | .ok userId => .registerSuccess userId

/-- A `dm`: the copy for the receiver, if it is online, then the acknowledgement. -/
def directReplies (s : ChatState) (c : Nat) (sender : Session) (command : ClientCommand) :
    List OutboundMessage :=
  let id := s.messages.messages.length + 1
  match s.sessions.findByUsername command.targetUsername with
  | none => reply c (.messageAck id true false)
  | some target =>
      { connectionId := target.connectionId
        response := .directMessage sender.username command.body } ::
        reply c (.messageAck id true true)

/-- A `group_message`: a copy for every other online member, then the
acknowledgement. -/
def groupReplies (s : ChatState) (c : Nat) (sender : Session) (command : ClientCommand) :
    List OutboundMessage :=
  let out := groupPushes s sender command
  out ++ reply c (.messageAck (s.messages.messages.length + 1) true (!out.isEmpty))

/-- An `unread` page, then the end marker. -/
def unreadReplies (s : ChatState) (c : Nat) (sender : Session) (command : ClientCommand) :
    List OutboundMessage :=
  let page := unreadPageOf s sender command
  page.map (anyItem s c) ++
    reply c (.unreadEnd (page.length == normalizeHistoryLimit command.limit)
      (page.foldl (fun next message => max next message.id) command.lastSeenMessageId))

/-- The page of a direct history request. -/
def directPageOf (s : ChatState) (sender : Session) (peer : UserRecord)
    (command : ClientCommand) : List StoredMessage :=
  s.messages.directHistoryPage sender.userId peer.id
    (normalizeHistoryLimit command.limit) command.beforeId

/-- The page of a group history request. -/
def groupPageOf (s : ChatState) (command : ClientCommand) : List StoredMessage :=
  s.messages.groupHistoryPage command.groupId (normalizeHistoryLimit command.limit)
    command.beforeId

/-- A payload with a command for which the connection has a session. -/
structure Authorized (s : ChatState) (c : Nat) (payload : Bytes) (sender : Session)
    (command : ClientCommand) : Prop where
  parsed : parseClientCommand payload = .ok command
  bound : s.sessions.findByConnection c = some sender

/-- What a request can lead to: its replies and the next state. -/
inductive Served (crypto : Crypto) (s : ChatState) :
    Request → List OutboundMessage → ChatState → Prop
  | refused {c : Nat} {payload : Bytes} {response : Response} (hRefuses : Refuses response) :
      Served crypto s (.line c payload) (reply c response) s
  | registered {c : Nat} {payload : Bytes} {command : ClientCommand}
      (hParse : parseClientCommand payload = .ok command) (hType : command.type = .register)
      (hFree : s.sessions.findByConnection c = none) :
      Served crypto s (.line c payload)
        (reply c (registerReply
          (s.users.registerUser crypto command.username command.password).1))
        { s with users := (s.users.registerUser crypto command.username command.password).2 }
  | loggedIn {c : Nat} {payload : Bytes} {command : ClientCommand} {user : UserRecord}
      (hParse : parseClientCommand payload = .ok command) (hType : command.type = .login)
      (hFree : s.sessions.findByConnection c = none)
      (hOffline : s.sessions.isUsernameOnline command.username = false)
      (hVerify : s.users.verifyLogin crypto command.username command.password = some user) :
      Served crypto s (.line c payload) (reply c (.loginSuccess user.id user.username))
        { s with
          sessions := s.sessions.bind
            { userId := user.id, connectionId := c, username := user.username } }
  | loggedOut {c : Nat} {payload : Bytes} {command : ClientCommand} {sender : Session}
      (hAuth : Authorized s c payload sender command) (hType : command.type = .logout) :
      Served crypto s (.line c payload)
        [{ connectionId := c, response := .ok (ascii "logout"), closeAfterSend := true }]
        { s with sessions := s.sessions.unbindConnection c }
  | created {c : Nat} {payload : Bytes} {command : ClientCommand} {sender : Session}
      (hAuth : Authorized s c payload sender command) (hType : command.type = .createGroup)
      (hName : command.groupName.isEmpty = false) :
      Served crypto s (.line c payload)
        (reply c (.createGroupSuccess s.groups.nextGroupId command.groupName))
        { s with
          groups := (s.groups.createGroup command.groupName sender.userId).2
          members := (s.members.joinGroup s.groups.nextGroupId sender.userId).2
          sessions := s.sessions.joinGroup s.groups.nextGroupId sender.userId }
  | joined {c : Nat} {payload : Bytes} {command : ClientCommand} {sender : Session}
      (hAuth : Authorized s c payload sender command) (hType : command.type = .groupJoin) :
      Served crypto s (.line c payload)
        (reply c (.ok (ascii "joined group " ++ toStringU64 command.groupId)))
        { s with
          members := (s.members.joinGroup command.groupId sender.userId).2
          sessions := s.sessions.joinGroup command.groupId sender.userId }
  | left {c : Nat} {payload : Bytes} {command : ClientCommand} {sender : Session}
      (hAuth : Authorized s c payload sender command) (hType : command.type = .groupLeave)
      (hMember : s.members.isGroupMember command.groupId sender.userId = true) :
      Served crypto s (.line c payload)
        (reply c (.ok (ascii "left group " ++ toStringU64 command.groupId)))
        { s with
          members := (s.members.leaveGroup command.groupId sender.userId).2
          sessions := s.sessions.leaveGroup command.groupId sender.userId }
  | directSent {c : Nat} {payload : Bytes} {command : ClientCommand} {sender : Session}
      {receiver : UserRecord}
      (hAuth : Authorized s c payload sender command) (hType : command.type = .directChat)
      (hReceiver : s.users.findUserByUsername command.targetUsername = some receiver) :
      Served crypto s (.line c payload) (directReplies s c sender command)
        { s with
          messages := (s.messages.append (directMessageOf sender receiver command)).2 }
  | groupSent {c : Nat} {payload : Bytes} {command : ClientCommand} {sender : Session}
      (hAuth : Authorized s c payload sender command) (hType : command.type = .groupChat)
      (hMember : s.members.isGroupMember command.groupId sender.userId = true) :
      Served crypto s (.line c payload) (groupReplies s c sender command)
        { s with messages := (s.messages.append (groupMessageOf sender command)).2 }
  | groupListed {c : Nat} {payload : Bytes} {command : ClientCommand} {sender : Session}
      (hAuth : Authorized s c payload sender command) (hType : command.type = .historyQuery)
      (hGroup : command.groupHistory = true)
      (hMember : s.members.isGroupMember command.groupId sender.userId = true) :
      Served crypto s (.line c payload)
        (historyAnswer c (normalizeHistoryLimit command.limit) (groupItem s c)
          (groupPageOf s command)) s
  | directListed {c : Nat} {payload : Bytes} {command : ClientCommand} {sender : Session}
      {peer : UserRecord}
      (hAuth : Authorized s c payload sender command) (hType : command.type = .historyQuery)
      (hGroup : command.groupHistory = false)
      (hPeer : s.users.findUserByUsername command.targetUsername = some peer) :
      Served crypto s (.line c payload)
        (historyAnswer c (normalizeHistoryLimit command.limit) (directItem s c)
          (directPageOf s sender peer command)) s
  | unreadListed {c : Nat} {payload : Bytes} {command : ClientCommand} {sender : Session}
      (hAuth : Authorized s c payload sender command) (hType : command.type = .unreadQuery) :
      Served crypto s (.line c payload) (unreadReplies s c sender command) s
  | disconnected {c : Nat} :
      Served crypto s (.disconnect c) []
        { s with sessions := s.sessions.unbindConnection c }

variable {crypto : Crypto} {s : ChatState}

/-- What a payload with a known command does, from the run of its handler. -/
theorem Served.of_run {c : Nat} {payload : Bytes} {command : ClientCommand}
    {out : List OutboundMessage} {s' : ChatState}
    (hParse : parseClientCommand payload = .ok command)
    (hRun : (handleCommand c command).run (ServiceCall.exec crypto) s = (out, s'))
    (hServed : Served crypto s (.line c payload) out s') :
    Served crypto s (.line c payload) (replies crypto s (.line c payload))
      (serve crypto s (.line c payload)) := by
  rw [replies, serve, handleLine_ok c hParse, hRun]
  exact hServed

theorem served_register {c : Nat} {payload : Bytes} {command : ClientCommand}
    (hParse : parseClientCommand payload = .ok command) (hType : command.type = .register) :
    Served crypto s (.line c payload) (replies crypto s (.line c payload))
      (serve crypto s (.line c payload)) := by
  have hCommand : handleCommand c command = handleRegister c command := by
    simp only [handleCommand, hType]
  have hRun := @handleRegister_run crypto s c command
  rw [← hCommand] at hRun
  by_cases hFind : (s.sessions.findByConnection c).isSome
  · rw [if_pos hFind] at hRun
    exact Served.of_run hParse hRun (.refused trivial)
  · rw [if_neg hFind] at hRun
    have hFree := Option.not_isSome_iff_eq_none.mp hFind
    refine Served.of_run hParse (hRun.trans ?_) (.registered hParse hType hFree)
    cases (s.users.registerUser crypto command.username command.password).1 <;> rfl

theorem served_login {c : Nat} {payload : Bytes} {command : ClientCommand}
    (hParse : parseClientCommand payload = .ok command) (hType : command.type = .login) :
    Served crypto s (.line c payload) (replies crypto s (.line c payload))
      (serve crypto s (.line c payload)) := by
  have hCommand : handleCommand c command = handleLogin c command := by
    simp only [handleCommand, hType]
  have hRun := @handleLogin_run crypto s c command
  rw [← hCommand] at hRun
  by_cases hFind : (s.sessions.findByConnection c).isSome
  · rw [if_pos hFind] at hRun
    exact Served.of_run hParse hRun (.refused trivial)
  · rw [if_neg hFind] at hRun
    by_cases hOnline : s.sessions.isUsernameOnline command.username
    · rw [if_pos hOnline] at hRun
      exact Served.of_run hParse hRun (.refused trivial)
    · rw [if_neg hOnline] at hRun
      cases hVerify : s.users.verifyLogin crypto command.username command.password with
      | none =>
          rw [hVerify] at hRun
          exact Served.of_run hParse hRun (.refused trivial)
      | some user =>
          rw [hVerify] at hRun
          exact Served.of_run hParse hRun
            (.loggedIn hParse hType (Option.not_isSome_iff_eq_none.mp hFind)
              (Bool.not_eq_true _ ▸ hOnline) hVerify)

/-- The commands behind a session, for the session that was found. -/
theorem served_session {c : Nat} {payload : Bytes} {command : ClientCommand}
    {sender : Session} (hNeeds : ¬NeedsNoSession command)
    (hAuth : Authorized s c payload sender command) :
    Served crypto s (.line c payload) (replies crypto s (.line c payload))
      (serve crypto s (.line c payload)) := by
  have hOf : ∀ {out : List OutboundMessage} {s' : ChatState},
      (handleSession c sender command).run (ServiceCall.exec crypto) s = (out, s') →
        Served crypto s (.line c payload) out s' →
          Served crypto s (.line c payload) (replies crypto s (.line c payload))
            (serve crypto s (.line c payload)) := by
    intro out s' hRun
    exact Served.of_run hAuth.parsed
      ((handleCommand_run_of_some hNeeds hAuth.bound).trans hRun)
  unfold handleSession at hOf
  split at hOf
  case h_1 hType => exact hOf rfl (.loggedOut hAuth hType)
  case h_2 hType =>
    by_cases hName : command.groupName.isEmpty
    · exact hOf ((handleCreateGroup_run s c sender command).trans (if_pos hName))
        (.refused trivial)
    · exact hOf ((handleCreateGroup_run s c sender command).trans (if_neg hName))
        (.created hAuth hType (Bool.not_eq_true _ ▸ hName))
  case h_3 hType =>
    exact hOf (handleGroupJoin_run s c sender command) (.joined hAuth hType)
  case h_4 hType =>
    have hRun := @handleGroupLeave_run crypto s c sender command
    by_cases hMember : s.members.isGroupMember command.groupId sender.userId
    · rw [GroupMemberStore.leaveGroup_fst, if_pos hMember] at hRun
      exact hOf hRun (.left hAuth hType hMember)
    · rw [GroupMemberStore.leaveGroup_fst, if_neg hMember,
        GroupMemberStore.leaveGroup_of_not_member hMember] at hRun
      exact hOf hRun (.refused trivial)
  case h_5 hType =>
    by_cases hMember : s.members.isGroupMember command.groupId sender.userId
    · refine hOf ((handleGroupChat_run hMember c).trans ?_) (.groupSent hAuth hType hMember)
      simp [groupReplies, MessageStore.append, StoredMessage.ofMessage]
    · exact hOf (handleGroupChat_run_of_not_member (Bool.not_eq_true _ ▸ hMember) c)
        (.refused trivial)
  case h_6 hType =>
    cases hGroup : command.groupHistory with
    | true =>
        by_cases hMember : s.members.isGroupMember command.groupId sender.userId
        · exact hOf (handleGroupHistory_run hGroup hMember c)
            (.groupListed hAuth hType hGroup hMember)
        · exact hOf (handleGroupHistory_run_of_not_member hGroup
            (Bool.not_eq_true _ ▸ hMember) c) (.refused trivial)
    | false =>
        cases hPeer : s.users.findUserByUsername command.targetUsername with
        | none => exact hOf (handleDirectHistory_run_of_none hGroup hPeer c) (.refused trivial)
        | some peer =>
            exact hOf (handleDirectHistory_run hGroup hPeer c)
              (.directListed hAuth hType hGroup hPeer)
  case h_7 hType =>
    cases hReceiver : s.users.findUserByUsername command.targetUsername with
    | none => exact hOf (handleDirectChat_run_of_none hReceiver c sender) (.refused trivial)
    | some receiver =>
        refine hOf ((handleDirectChat_run hReceiver c sender).trans ?_)
          (.directSent hAuth hType hReceiver)
        cases hOnline : s.sessions.findByUsername command.targetUsername <;>
          simp [directReplies, hOnline, MessageStore.append, StoredMessage.ofMessage]
  case h_8 hType =>
    exact hOf (handleUnreadQuery_run s sender command c) (.unreadListed hAuth hType)
  case h_9 => exact hOf rfl (.refused trivial)

/-- A request does one of the listed things. -/
theorem served (crypto : Crypto) (s : ChatState) (request : Request) :
    Served crypto s request (replies crypto s request) (serve crypto s request) := by
  cases request with
  | disconnect c => exact .disconnected
  | line c payload =>
      cases hParse : parseClientCommand payload with
      | error reason =>
          rw [replies, serve, handleLine_error c hParse]
          exact .refused trivial
      | ok command =>
          by_cases hNeeds : NeedsNoSession command
          · rcases hNeeds with hType | hType | hType
            · have hRun : (handleCommand c command).run (ServiceCall.exec crypto) s =
                  (reply c .pong, s) := by
                simp only [handleCommand, hType]
                rfl
              exact Served.of_run hParse hRun (.refused trivial)
            · exact served_register hParse hType
            · exact served_login hParse hType
          · cases hFind : s.sessions.findByConnection c with
            | none =>
                exact Served.of_run hParse (handleCommand_run_of_none hNeeds hFind)
                  (.refused trivial)
            | some sender => exact served_session hNeeds ⟨hParse, hFind⟩

/-! ## The invariant of sequential runs -/

/-- What holds between the parts of the service after every request. -/
structure ServiceInv (s : ChatState) : Prop where
  consistent : s.sessions.Consistent
  named : s.sessions.Named
  indexed : s.users.Indexed
  registered : ∀ u session, s.sessions.find u = some session →
    ∃ user, s.users.findUserByUsername session.username = some user ∧ user.id = u
  sender_known : ∀ m ∈ s.messages.messages, ∃ user, s.users.findUserById m.senderId = some user
  receiver_known : ∀ m ∈ s.messages.messages, m.type = .directChat →
    ∃ user, s.users.findUserById m.receiverId = some user

theorem ServiceInv.empty : ServiceInv {} where
  consistent := SessionManager.Consistent.empty
  named := SessionManager.Named.empty
  indexed := UserStore.Indexed.empty
  registered := by simp [SessionManager.find]
  sender_known := by simp
  receiver_known := by simp

/-- A session found for a connection belongs to a known account. -/
theorem ServiceInv.account (h : ServiceInv s) {c : Nat} {session : Session}
    (hFind : s.sessions.findByConnection c = some session) :
    ∃ user, s.users.findUserByUsername session.username = some user ∧
      user.id = session.userId :=
  h.registered _ _ (h.consistent.findByConnection_iff.mp hFind).1

/-- The session of an account is found by the account's name. -/
theorem ServiceInv.findByUsername_eq (h : ServiceInv s) {n : Bytes} {user : UserRecord}
    (hUser : s.users.findUserByUsername n = some user) :
    s.sessions.findByUsername n = s.sessions.find user.id := by
  apply Option.ext
  intro session
  rw [h.named.findByUsername_iff h.consistent]
  constructor
  · rintro ⟨hFind, hName⟩
    obtain ⟨user', hUser', hId⟩ := h.registered _ _ hFind
    rw [hName, hUser] at hUser'
    rw [Option.some.inj hUser', hId]
    exact hFind
  · intro hFind
    obtain ⟨user', hUser', hId⟩ := h.registered _ _ hFind
    have hSame := h.indexed.id_unique hUser' hUser hId
    have hName := h.indexed.username_eq _ _ hUser'
    have hName' := h.indexed.username_eq _ _ hUser
    rw [hSame, hName'] at hName
    refine ⟨?_, hName.symm⟩
    rw [h.consistent.userId_eq _ _ hFind]
    exact hFind

/-- Sessions that stay or go do no harm; only a new one has to be accounted for. -/
theorem ServiceInv.of_sessions {s' : ChatState} (h : ServiceInv s)
    (hUsers : s'.users = s.users) (hMessages : s'.messages = s.messages)
    (hConsistent : s'.sessions.Consistent) (hNamed : s'.sessions.Named)
    (hOld : ∀ u session, s'.sessions.find u = some session →
      s.sessions.find u = some session ∨
        ∃ user, s.users.findUserByUsername session.username = some user ∧ user.id = u) :
    ServiceInv s' where
  consistent := hConsistent
  named := hNamed
  indexed := hUsers ▸ h.indexed
  registered := by
    intro u session hFind
    rw [hUsers]
    rcases hOld u session hFind with hKept | hNew
    · exact h.registered u session hKept
    · exact hNew
  sender_known := by
    rw [hUsers, hMessages]
    exact h.sender_known
  receiver_known := by
    rw [hUsers, hMessages]
    exact h.receiver_known

/-- A connection goes away. -/
theorem ServiceInv.unbindConnection (h : ServiceInv s) (c : Nat) :
    ServiceInv { s with sessions := s.sessions.unbindConnection c } := by
  refine h.of_sessions rfl rfl (h.consistent.unbindConnection c)
    (h.named.unbindConnection c) ?_
  intro u session hFind
  rw [SessionManager.find, SessionManager.sessions_unbindConnection] at hFind
  split at hFind
  · contradiction
  · exact Or.inl hFind

/-- A login binds the account it has verified. -/
theorem ServiceInv.bind (h : ServiceInv s) {n : Bytes} {user : UserRecord}
    (hUser : s.users.findUserByUsername n = some user) (c : Nat) :
    ServiceInv { s with
      sessions := s.sessions.bind
        { userId := user.id, connectionId := c, username := user.username } } := by
  have hName := h.indexed.username_eq _ _ hUser
  refine h.of_sessions rfl rfl (h.consistent.bind _) ?_ ?_
  · apply h.named.bind h.consistent
    intro v session hFind hSame
    obtain ⟨user', hUser', hId⟩ := h.registered v session hFind
    rw [hSame, hName, hUser] at hUser'
    rw [← hId, Option.some.inj hUser']
  · intro u session hFind
    rw [SessionManager.find, h.consistent.find_bind] at hFind
    split at hFind
    · rename_i hu
      rw [← Option.some.inj hFind, hName]
      exact Or.inr ⟨user, hUser, hu.symm⟩
    · split at hFind
      · contradiction
      · exact Or.inl hFind

/-- A registration only adds an account. -/
theorem ServiceInv.registerUser (h : ServiceInv s) (n p : Bytes) :
    ServiceInv { s with users := (s.users.registerUser crypto n p).2 } where
  consistent := h.consistent
  named := h.named
  indexed := h.indexed.registerUser n p
  registered := by
    intro u session hFind
    obtain ⟨user, hUser, hId⟩ := h.registered u session hFind
    exact ⟨user, UserStore.findUserByUsername_registerUser hUser, hId⟩
  sender_known := by
    intro m hm
    obtain ⟨user, hUser⟩ := h.sender_known m hm
    exact ⟨user, h.indexed.findUserById_registerUser hUser⟩
  receiver_known := by
    intro m hm hType
    obtain ⟨user, hUser⟩ := h.receiver_known m hm hType
    exact ⟨user, h.indexed.findUserById_registerUser hUser⟩

/-- A message of an account is stored. -/
theorem ServiceInv.append (h : ServiceInv s) {m : Message}
    (hSender : ∃ user, s.users.findUserById m.senderId = some user)
    (hReceiver : m.type = .directChat →
      ∃ user, s.users.findUserById m.receiverId = some user) :
    ServiceInv { s with messages := (s.messages.append m).2 } where
  consistent := h.consistent
  named := h.named
  indexed := h.indexed
  registered := h.registered
  sender_known := by
    intro m' hm'
    rcases List.mem_append.mp hm' with hOld | hNew
    · exact h.sender_known m' hOld
    · rw [List.mem_singleton.mp hNew]
      exact hSender
  receiver_known := by
    intro m' hm'
    rcases List.mem_append.mp hm' with hOld | hNew
    · exact h.receiver_known m' hOld
    · rw [List.mem_singleton.mp hNew]
      exact hReceiver

/-- The account of a sender is found by its id. -/
theorem ServiceInv.sender_account (h : ServiceInv s) {c : Nat} {sender : Session}
    (hFind : s.sessions.findByConnection c = some sender) :
    ∃ user, s.users.findUserById sender.userId = some user := by
  obtain ⟨user, hUser, hId⟩ := h.account hFind
  exact ⟨user, h.indexed.findUserById_iff.mpr ⟨_, hUser, hId⟩⟩

/-- Nothing a request does breaks the invariant. -/
theorem Served.serviceInv {request : Request} {out : List OutboundMessage} {s' : ChatState}
    (hServed : Served crypto s request out s') (h : ServiceInv s) : ServiceInv s' := by
  cases hServed with
  | refused _ => exact h
  | registered _ _ _ => exact h.registerUser _ _
  | loggedIn _ _ _ _ hVerify => exact h.bind (UserStore.verifyLogin_eq_some hVerify).1 _
  | loggedOut _ _ => exact h.unbindConnection _
  | created _ _ _ | joined _ _ =>
      exact h.of_sessions rfl rfl (h.consistent.joinGroup _ _) (h.named.joinGroup _ _)
        fun _ _ => Or.inl
  | left _ _ _ =>
      refine h.of_sessions rfl rfl (h.consistent.leaveGroup _ _) (h.named.leaveGroup _ _) ?_
      intro u session hFind
      rw [SessionManager.find, SessionManager.sessions_leaveGroup] at hFind
      exact Or.inl hFind
  | directSent hAuth _ hReceiver =>
      refine h.append (h.sender_account hAuth.bound) ?_
      intro _
      exact ⟨_, h.indexed.findUserById_iff.mpr ⟨_, hReceiver, rfl⟩⟩
  | groupSent hAuth _ _ =>
      exact h.append (h.sender_account hAuth.bound) (by simp [groupMessageOf])
  | groupListed _ _ _ _ => exact h
  | directListed _ _ _ _ => exact h
  | unreadListed _ _ => exact h
  | disconnected => exact h.unbindConnection _

/-- One request keeps the invariant. -/
theorem serve_serviceInv (request : Request) (h : ServiceInv s) :
    ServiceInv (serve crypto s request) :=
  (served crypto s request).serviceInv h

/-- Every reachable state has the invariant. -/
theorem serviceInv_of_reachable (h : Reachable crypto s) : ServiceInv s := by
  obtain ⟨requests, rfl⟩ := h
  have hStep : ∀ s request, True → ServiceInv s → ServiceInv (serve crypto s request) :=
    fun _ request _ h => serve_serviceInv request h
  exact serveAll_invariant hStep ServiceInv.empty (fun _ _ => trivial)

/-! ## What only grows -/

/-- A later state: it has all messages and all accounts of the earlier one. -/
structure Extends (s s' : ChatState) : Prop where
  messages : s.messages.messages <+: s'.messages.messages
  accounts : ∀ n user, s.users.findUserByUsername n = some user →
    s'.users.findUserByUsername n = some user

theorem Extends.refl (s : ChatState) : Extends s s :=
  ⟨List.prefix_refl _, fun _ _ h => h⟩

theorem Extends.trans {s₁ s₂ s₃ : ChatState} (h : Extends s₁ s₂) (h' : Extends s₂ s₃) :
    Extends s₁ s₃ :=
  ⟨h.messages.trans h'.messages, fun n user hUser => h'.accounts n user (h.accounts n user hUser)⟩

/-- No request takes back an account or a message. -/
theorem Served.extends {request : Request} {out : List OutboundMessage} {s' : ChatState}
    (hServed : Served crypto s request out s') : Extends s s' := by
  cases hServed with
  | registered _ _ _ =>
      exact ⟨List.prefix_refl _, fun _ _ => UserStore.findUserByUsername_registerUser⟩
  | directSent _ _ _ | groupSent _ _ _ => exact ⟨List.prefix_append _ _, fun _ _ h => h⟩
  | _ => exact ⟨List.prefix_refl _, fun _ _ h => h⟩

theorem foldl_extends (crypto : Crypto) (requests : List Request) (s : ChatState) :
    Extends s (requests.foldl (serve crypto) s) := by
  have hStep : ∀ t request, True → Extends s t → Extends s (serve crypto t request) :=
    fun t request _ h => h.trans (served crypto t request).extends
  exact Transition.foldl_invariant hStep requests s (fun _ _ => trivial) (Extends.refl s)

theorem foldl_serviceInv (crypto : Crypto) (requests : List Request) (h : ServiceInv s) :
    ServiceInv (requests.foldl (serve crypto) s) := by
  have hStep : ∀ t request, True → ServiceInv t → ServiceInv (serve crypto t request) :=
    fun _ request _ h => serve_serviceInv request h
  exact Transition.foldl_invariant hStep requests s (fun _ _ => trivial) h

/-- Stored messages keep their ids. -/
theorem Extends.numbered {s' : ChatState} (h : Extends s s') :
    s.messages.numbered <+: s'.messages.numbered := by
  obtain ⟨later, hLater⟩ := h.messages
  unfold MessageStore.numbered
  rw [← hLater, List.mapIdx_append]
  exact List.prefix_append _ _

/-- Known accounts keep their ids. -/
theorem Extends.findUserById {s' : ChatState} (h : Extends s s') (hInv : ServiceInv s)
    (hInv' : ServiceInv s') {id : Nat} {user : UserRecord}
    (hUser : s.users.findUserById id = some user) : s'.users.findUserById id = some user := by
  obtain ⟨n, hName, hId⟩ := hInv.indexed.findUserById_iff.mp hUser
  exact hInv'.indexed.findUserById_iff.mpr ⟨n, h.accounts n user hName, hId⟩

/-- A stored message's sender is known, so an item reads the same ever after. -/
theorem Extends.findUserById_sender {s' : ChatState} (h : Extends s s') (hInv : ServiceInv s)
    (hInv' : ServiceInv s') {m : StoredMessage} (hm : m ∈ s.messages.numbered) :
    s'.users.findUserById m.senderId = s.users.findUserById m.senderId := by
  obtain ⟨i, message, hMessage, rfl⟩ := MessageStore.mem_numbered.mp hm
  obtain ⟨user, hUser⟩ := hInv.sender_known message (List.mem_of_getElem? hMessage)
  exact (h.findUserById hInv hInv' hUser).trans hUser.symm

theorem Extends.findUserById_receiver {s' : ChatState} (h : Extends s s') (hInv : ServiceInv s)
    (hInv' : ServiceInv s') {m : StoredMessage} (hm : m ∈ s.messages.numbered)
    (hType : m.type = .directChat) :
    s'.users.findUserById m.receiverId = s.users.findUserById m.receiverId := by
  obtain ⟨i, message, hMessage, rfl⟩ := MessageStore.mem_numbered.mp hm
  obtain ⟨user, hUser⟩ := hInv.receiver_known message (List.mem_of_getElem? hMessage) hType
  exact (h.findUserById hInv hInv' hUser).trans hUser.symm

/-- The item of a stored group message stays the same. -/
theorem Extends.groupItem_eq {s' : ChatState} (h : Extends s s') (hInv : ServiceInv s)
    (hInv' : ServiceInv s') {m : StoredMessage} (hm : m ∈ s.messages.numbered) (c : Nat) :
    groupItem s' c m = groupItem s c m := by
  rw [groupItem, groupItem, h.findUserById_sender hInv hInv' hm]

/-- The item of a stored direct message stays the same. -/
theorem Extends.directItem_eq {s' : ChatState} (h : Extends s s') (hInv : ServiceInv s)
    (hInv' : ServiceInv s') {m : StoredMessage} (hm : m ∈ s.messages.numbered)
    (hType : m.type = .directChat) (c : Nat) : directItem s' c m = directItem s c m := by
  rw [directItem, directItem, h.findUserById_sender hInv hInv' hm,
    h.findUserById_receiver hInv hInv' hm hType]

/-! ### Requests between requests -/

/-- The state of round `r`, when the requests `between r` are served between the
rounds `r` and `r + 1`. -/
def stateAt (crypto : Crypto) (s : ChatState) (between : Nat → List Request) : Nat → ChatState
  | 0 => s
  | r + 1 => (between r).foldl (serve crypto) (stateAt crypto s between r)

theorem stateAt_succ_extends (crypto : Crypto) (s : ChatState) (between : Nat → List Request)
    (r : Nat) : Extends (stateAt crypto s between r) (stateAt crypto s between (r + 1)) :=
  foldl_extends crypto (between r) _

theorem stateAt_extends (crypto : Crypto) (s : ChatState) (between : Nat → List Request) :
    ∀ r, Extends s (stateAt crypto s between r) := by
  intro r
  induction r with
  | zero => exact Extends.refl s
  | succ r ih => exact ih.trans (stateAt_succ_extends crypto s between r)

theorem stateAt_serviceInv (crypto : Crypto) (between : Nat → List Request)
    (h : ServiceInv s) : ∀ r, ServiceInv (stateAt crypto s between r) := by
  intro r
  induction r with
  | zero => exact h
  | succ r ih => exact foldl_serviceInv crypto (between r) ih

end CppChat.Ports.Chat
