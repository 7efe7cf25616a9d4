import CppChat.Verified.AtomicProgram
import CppChat.Verified.Transition
import CppChat.Ports.GroupStore
import CppChat.Ports.MessageStore
import CppChat.Ports.SessionManager
import CppChat.Ports.UserStore

/-!
# The chat service

`handle_client_line` turns one client payload into replies.  All it does to
shared state it does through calls of the session manager and the stores, and
each of these holds its own lock.  The port is therefore a program of atomic
calls: `ServiceCall` lists the calls, `ServiceCall.exec` is their in-memory
meaning, and `handleClientLine` is the program.  Running it in one go is the
service used by one thread; interleaving its steps is the service behind the
thread pool.

Log lines are not modelled.
-/

namespace CppChat.Ports.Chat

open CppChat.Verified
open CppChat.Verified.AtomicProgram
open CppChat.Ports.Protocol
open CppChat.Ports.Sessions
open CppChat.Ports.Users
open CppChat.Ports.Groups
open CppChat.Ports.Messages

/-! ## Calls -/

/-- The calls `handle_client_line` makes: eight of the session manager, then
those of the user, group, member and message store. -/
inductive ServiceCall where
  | findByConnection (connectionId : Nat)
  | isUsernameOnline (username : Bytes)
  | bind (session : Session)
  | unbindConnection (connectionId : Nat)
  | find (userId : Nat)
  | findByUsername (username : Bytes)
  | sessionJoinGroup (groupId userId : Nat)
  | sessionLeaveGroup (groupId userId : Nat)
  | registerUser (username password : Bytes)
  | verifyLogin (username password : Bytes)
  | findUserById (userId : Nat)
  | findUserByUsername (username : Bytes)
  | createGroup (name : Bytes) (ownerId : Nat)
  | joinGroup (groupId userId : Nat)
  | leaveGroup (groupId userId : Nat)
  | isGroupMember (groupId userId : Nat)
  | loadGroupMembers (groupId : Nat)
  | loadUserGroups (userId : Nat)
  | append (message : Message)
  | directHistoryPage (userId peerId limit beforeId : Nat)
  | groupHistoryPage (groupId limit beforeId : Nat)
  | unreadPage (userId : Nat) (groupIds : List Nat) (lastSeenMessageId limit : Nat)
deriving DecidableEq, Repr

/-- What each call returns. -/
def ServiceCall.Result : ServiceCall → Type
  | .findByConnection _ => Option Session
  | .isUsernameOnline _ => Bool
  | .bind _ => Unit
  | .unbindConnection _ => Unit
  | .find _ => Option Session
  | .findByUsername _ => Option Session
  | .sessionJoinGroup _ _ => Unit
  | .sessionLeaveGroup _ _ => Unit
  | .registerUser _ _ => Except Bytes Nat
  | .verifyLogin _ _ => Option UserRecord
  | .findUserById _ => Option UserRecord
  | .findUserByUsername _ => Option UserRecord
  | .createGroup _ _ => Except Bytes GroupRecord
  | .joinGroup _ _ => Except Bytes Bool
  | .leaveGroup _ _ => Except Bytes Unit
  | .isGroupMember _ _ => Bool
  | .loadGroupMembers _ => List Nat
  | .loadUserGroups _ => List Nat
  | .append _ => StoredMessage
  | .directHistoryPage _ _ _ _ => List StoredMessage
  | .groupHistoryPage _ _ _ => List StoredMessage
  | .unreadPage _ _ _ _ => List StoredMessage

/-- A program of service calls. -/
abbrev Service := Prog ServiceCall ServiceCall.Result

/-- Make one call. -/
abbrev perform (op : ServiceCall) : Service op.Result := Prog.perform op

/-- Everything the service shares between threads. -/
structure ChatState where
  sessions : SessionManager := {}
  messages : MessageStore := {}
  users : UserStore := {}
  groups : GroupStore := {}
  members : GroupMemberStore := {}

/-- The calls on in-memory stores. -/
def ServiceCall.exec (crypto : Crypto) :
    (op : ServiceCall) → ChatState → op.Result × ChatState
  | .findByConnection c, s => (s.sessions.findByConnection c, s)
  | .isUsernameOnline n, s => (s.sessions.isUsernameOnline n, s)
  | .bind session, s => ((), { s with sessions := s.sessions.bind session })
  | .unbindConnection c, s => ((), { s with sessions := s.sessions.unbindConnection c })
  | .find u, s => (s.sessions.find u, s)
  | .findByUsername n, s => (s.sessions.findByUsername n, s)
  | .sessionJoinGroup g u, s => ((), { s with sessions := s.sessions.joinGroup g u })
  | .sessionLeaveGroup g u, s => ((), { s with sessions := s.sessions.leaveGroup g u })
  | .registerUser n p, s =>
      ((s.users.registerUser crypto n p).1,
        { s with users := (s.users.registerUser crypto n p).2 })
  | .verifyLogin n p, s => (s.users.verifyLogin crypto n p, s)
  | .findUserById u, s => (s.users.findUserById u, s)
  | .findUserByUsername n, s => (s.users.findUserByUsername n, s)
  | .createGroup n u, s =>
      ((s.groups.createGroup n u).1, { s with groups := (s.groups.createGroup n u).2 })
  | .joinGroup g u, s =>
      ((s.members.joinGroup g u).1, { s with members := (s.members.joinGroup g u).2 })
  | .leaveGroup g u, s =>
      ((s.members.leaveGroup g u).1, { s with members := (s.members.leaveGroup g u).2 })
  | .isGroupMember g u, s => (s.members.isGroupMember g u, s)
  | .loadGroupMembers g, s => (s.members.loadGroupMembers g, s)
  | .loadUserGroups u, s => (s.members.loadUserGroups u, s)
  | .append m, s =>
      ((s.messages.append m).1, { s with messages := (s.messages.append m).2 })
  | .directHistoryPage u p l b, s => (s.messages.directHistoryPage u p l b, s)
  | .groupHistoryPage g l b, s => (s.messages.groupHistoryPage g l b, s)
  | .unreadPage u gs k l, s => (s.messages.unreadPage u gs k l, s)

/-- One call of a sequential run. -/
theorem run_perform_bind {crypto : Crypto} {α : Type} {op : ServiceCall}
    {f : op.Result → Service α} {s s' : ChatState} {r : op.Result}
    (h : op.exec crypto s = (r, s')) :
    (perform op >>= f).run (ServiceCall.exec crypto) s =
      (f r).run (ServiceCall.exec crypto) s' :=
  Prog.run_perform h

/-! ## The program -/

/-- A reply addressed to a connection. -/
structure OutboundMessage where
  connectionId : Nat
  response : Response
  closeAfterSend : Bool := false
deriving DecidableEq, Repr

/-- The payload handed to the network layer. -/
def OutboundMessage.data (m : OutboundMessage) : Bytes := m.response.data

/-- The single reply most commands end in. -/
def reply (connectionId : Nat) (response : Response) : List OutboundMessage :=
  [{ connectionId := connectionId, response := response }]

/-- The page size a client gets that asks for none. -/
def kDefaultHistoryLimit : Nat := 20

/-- The largest page a client gets. -/
def kMaxHistoryLimit : Nat := 100

/-- `normalize_history_limit`. -/
def normalizeHistoryLimit (limit : Nat) : Nat :=
  if limit = 0 then kDefaultHistoryLimit else min limit kMaxHistoryLimit

/-- `register`: refused on a connection that is logged in. -/
def handleRegister (connectionId : Nat) (command : ClientCommand) :
    Service (List OutboundMessage) := do
  let session : Option Session ← perform (.findByConnection connectionId)
  if session.isSome then
    return reply connectionId (.error (ascii "already logged in"))
  let result : Except Bytes Nat ←
    perform (.registerUser command.username command.password)
  match result with
  | .error reason => return reply connectionId (.registerFailed reason)
  | .ok userId => return reply connectionId (.registerSuccess userId)

/-- Check the connection, check the name, verify the password, then bind.
Each of the four is a call of its own. -/
def handleLogin (connectionId : Nat) (command : ClientCommand) :
    Service (List OutboundMessage) := do
  let session : Option Session ← perform (.findByConnection connectionId)
  if session.isSome then
    return reply connectionId (.loginFailed (ascii "already logged in"))
  let online : Bool ← perform (.isUsernameOnline command.username)
  if online then
    return reply connectionId (.loginFailed (ascii "user already online"))
  let verified : Option UserRecord ←
    perform (.verifyLogin command.username command.password)
  match verified with
  | none => return reply connectionId (.loginFailed (ascii "invalid username or password"))
  | some user =>
      let _ : Unit ← perform (.bind
        { userId := user.id, connectionId := connectionId, username := user.username })
      return reply connectionId (.loginSuccess user.id user.username)

/-- `logout` ends the session and closes the connection behind its reply. -/
def handleLogout (connectionId : Nat) : Service (List OutboundMessage) := do
  let _ : Unit ← perform (.unbindConnection connectionId)
  return [{ connectionId := connectionId, response := .ok (ascii "logout"),
            closeAfterSend := true }]

/-- `create_group`: create the group, then let its owner join.  The group stays when
the owner cannot. -/
def handleCreateGroup (connectionId : Nat) (sender : Session) (command : ClientCommand) :
    Service (List OutboundMessage) := do
  let created : Except Bytes GroupRecord ←
    perform (.createGroup command.groupName sender.userId)
  match created with
  | .error reason => return reply connectionId (.error reason)
  | .ok group =>
      let joined : Except Bytes Bool ← perform (.joinGroup group.id sender.userId)
      match joined with
      | .error reason => return reply connectionId (.error reason)
      | .ok _ =>
          let _ : Unit ← perform (.sessionJoinGroup group.id sender.userId)
          return reply connectionId (.createGroupSuccess group.id group.name)

/-- `join_group`.  Joining a group again is answered as a success. -/
def handleGroupJoin (connectionId : Nat) (sender : Session) (command : ClientCommand) :
    Service (List OutboundMessage) := do
  let joined : Except Bytes Bool ← perform (.joinGroup command.groupId sender.userId)
  match joined with
  | .error reason => return reply connectionId (.error reason)
  | .ok _ =>
      let _ : Unit ← perform (.sessionJoinGroup command.groupId sender.userId)
      return reply connectionId
        (.ok (ascii "joined group " ++ toStringU64 command.groupId))

/-- `leave_group`. -/
def handleGroupLeave (connectionId : Nat) (sender : Session) (command : ClientCommand) :
    Service (List OutboundMessage) := do
  let left : Except Bytes Unit ← perform (.leaveGroup command.groupId sender.userId)
  match left with
  | .error reason => return reply connectionId (.error reason)
  | .ok _ =>
      let _ : Unit ← perform (.sessionLeaveGroup command.groupId sender.userId)
      return reply connectionId (.ok (ascii "left group " ++ toStringU64 command.groupId))

/-- The delivery loop of a group message: one copy for every online member
other than the sender. -/
def pushToMembers (senderId : Nat) (formatted : Response) :
    List Nat → Service (List OutboundMessage)
  | [] => return []
  | memberId :: rest => do
      if memberId = senderId then
        pushToMembers senderId formatted rest
      else
        let session : Option Session ← perform (.find memberId)
        let out ← pushToMembers senderId formatted rest
        match session with
        | none => return out
        | some member =>
            return { connectionId := member.connectionId, response := formatted } :: out

/-- `group_message`: check the membership, store the message, send the copies, then
the ack. -/
def handleGroupChat (connectionId : Nat) (sender : Session) (command : ClientCommand) :
    Service (List OutboundMessage) := do
  let isMember : Bool ← perform (.isGroupMember command.groupId sender.userId)
  if !isMember then
    return reply connectionId (.error (ascii "not a member of this group"))
  let stored : StoredMessage ← perform (.append
    { type := .groupChat, senderId := sender.userId, receiverId := command.groupId,
      body := command.body })
  let members : List Nat ← perform (.loadGroupMembers command.groupId)
  let out ← pushToMembers sender.userId
    (.groupMessage command.groupId sender.username command.body) members
  return out ++ reply connectionId (.messageAck stored.id true (!out.isEmpty))

/-- A user's name in a history item; an unknown id is printed as a number. -/
def displayName (user : Option UserRecord) (userId : Nat) : Bytes :=
  match user with
  | some record => record.username
  | none => toStringU64 userId

/-- One item of a group history, with its sender looked up. -/
def groupHistoryItem (connectionId : Nat) (message : StoredMessage) :
    Service OutboundMessage := do
  let sender : Option UserRecord ← perform (.findUserById message.senderId)
  return { connectionId := connectionId
           response := .historyItem message.id (ascii "gc")
             (displayName sender message.senderId) (toStringU64 message.receiverId)
             message.body message.createdAt }

/-- One item of a direct history, with both of its users looked up. -/
def directHistoryItem (connectionId : Nat) (message : StoredMessage) :
    Service OutboundMessage := do
  let sender : Option UserRecord ← perform (.findUserById message.senderId)
  let receiver : Option UserRecord ← perform (.findUserById message.receiverId)
  return { connectionId := connectionId
           response := .historyItem message.id (ascii "dm")
             (displayName sender message.senderId)
             (displayName receiver message.receiverId)
             message.body message.createdAt }

/-- The items of a page, one after the other. -/
def historyItems (item : StoredMessage → Service OutboundMessage) :
    List StoredMessage → Service (List OutboundMessage)
  | [] => return []
  | message :: rest => do
      let first ← item message
      let others ← historyItems item rest
      return first :: others

/-- The smallest id of a page, `0` for an empty one. -/
def nextBeforeId (history : List StoredMessage) : Nat :=
  history.foldl
    (fun next message => if next = 0 ∨ message.id < next then message.id else next) 0

/-- `history` and `group_history`: `has_more` says that the page is full. -/
def handleHistoryQuery (connectionId : Nat) (sender : Session) (command : ClientCommand) :
    Service (List OutboundMessage) := do
  let limit := normalizeHistoryLimit command.limit
  if command.groupHistory then
    let isMember : Bool ← perform (.isGroupMember command.groupId sender.userId)
    if !isMember then
      return reply connectionId (.error (ascii "not a member of this group"))
    let page : List StoredMessage ←
      perform (.groupHistoryPage command.groupId limit command.beforeId)
    let out ← historyItems (groupHistoryItem connectionId) page.reverse
    return out ++ reply connectionId
      (.historyEnd (page.length == limit) (nextBeforeId page.reverse))
  else
    let peer : Option UserRecord ← perform (.findUserByUsername command.targetUsername)
    match peer with
    | none => return reply connectionId (.error (ascii "peer not found"))
    | some peer =>
        let page : List StoredMessage ←
          perform (.directHistoryPage sender.userId peer.id limit command.beforeId)
        let out ← historyItems (directHistoryItem connectionId) page.reverse
        return out ++ reply connectionId
          (.historyEnd (page.length == limit) (nextBeforeId page.reverse))

/-- `dm`: find the receiver, store the message, send the copy to a receiver that is
online, then the ack. -/
def handleDirectChat (connectionId : Nat) (sender : Session) (command : ClientCommand) :
    Service (List OutboundMessage) := do
  let receiver : Option UserRecord ← perform (.findUserByUsername command.targetUsername)
  match receiver with
  | none => return reply connectionId (.error (ascii "receiver not found"))
  | some receiver =>
      let stored : StoredMessage ← perform (.append
        { type := .directChat, senderId := sender.userId, receiverId := receiver.id,
          body := command.body })
      let session : Option Session ← perform (.findByUsername command.targetUsername)
      match session with
      | none => return reply connectionId (.messageAck stored.id true false)
      | some target =>
          return { connectionId := target.connectionId
                   response := .directMessage sender.username command.body } ::
            reply connectionId (.messageAck stored.id true true)

/-- One item of an unread page. -/
def unreadItem (connectionId : Nat) (message : StoredMessage) : Service OutboundMessage :=
  if message.type = .groupChat then groupHistoryItem connectionId message
  else directHistoryItem connectionId message

/-- `unread`: the messages to the user or to one of its groups, above the last one
seen.  Here too `has_more` says that the page is full. -/
def handleUnreadQuery (connectionId : Nat) (sender : Session) (command : ClientCommand) :
    Service (List OutboundMessage) := do
  let limit := normalizeHistoryLimit command.limit
  let groupIds : List Nat ← perform (.loadUserGroups sender.userId)
  let page : List StoredMessage ←
    perform (.unreadPage sender.userId groupIds command.lastSeenMessageId limit)
  let out ← historyItems (unreadItem connectionId) page
  return out ++ reply connectionId
    (.unreadEnd (page.length == limit)
      (page.foldl (fun next message => max next message.id) command.lastSeenMessageId))

/-- The commands that need a session, once the sender is known. -/
def handleSession (connectionId : Nat) (sender : Session) (command : ClientCommand) :
    Service (List OutboundMessage) :=
  match command.type with
  | .logout => handleLogout connectionId
  | .createGroup => handleCreateGroup connectionId sender command
  | .groupJoin => handleGroupJoin connectionId sender command
  | .groupLeave => handleGroupLeave connectionId sender command
  | .groupChat => handleGroupChat connectionId sender command
  | .historyQuery => handleHistoryQuery connectionId sender command
  | .directChat => handleDirectChat connectionId sender command
  | .unreadQuery => handleUnreadQuery connectionId sender command
  | _ => return reply connectionId (.error (ascii "unsupported command"))

/-- One parsed command. -/
def handleCommand (connectionId : Nat) (command : ClientCommand) :
    Service (List OutboundMessage) :=
  match command.type with
  | .ping => return reply connectionId .pong
  | .register => handleRegister connectionId command
  | .login => handleLogin connectionId command
  | _ => do
      let sender : Option Session ← perform (.findByConnection connectionId)
      match sender with
      | none => return reply connectionId (.error (ascii "please login first"))
      | some sender => handleSession connectionId sender command

/-- One client payload. -/
def handleClientLine (connectionId : Nat) (line : Bytes) :
    Service (List OutboundMessage) :=
  match parseClientCommand line with
  | .error reason => return reply connectionId (.error reason)
  | .ok command => handleCommand connectionId command

/-- Clean up after a closed connection. -/
def handleDisconnect (connectionId : Nat) : Service Unit :=
  perform (.unbindConnection connectionId)

/-! ## Sequential use -/

/-- One request from start to end, with nothing in between. -/
def handleLine (crypto : Crypto) (s : ChatState) (connectionId : Nat) (line : Bytes) :
    List OutboundMessage × ChatState :=
  (handleClientLine connectionId line).run (ServiceCall.exec crypto) s

/-- What a client can make the service do. -/
inductive Request where
  | line (connectionId : Nat) (payload : Bytes)
  | disconnect (connectionId : Nat)

/-- What one request leaves of the state. -/
def serve (crypto : Crypto) (s : ChatState) : Request → ChatState
  | .line connectionId payload => (handleLine crypto s connectionId payload).2
  | .disconnect connectionId =>
      ((handleDisconnect connectionId).run (ServiceCall.exec crypto) s).2

/-- The state after a sequential run of requests from empty stores. -/
def serveAll (crypto : Crypto) (requests : List Request) : ChatState :=
  requests.foldl (serve crypto) {}

/-- What every request of a run preserves holds at its end. -/
theorem serveAll_invariant {crypto : Crypto} {ok : Request → Prop} {inv : ChatState → Prop}
    (hStep : ∀ s request, ok request → inv s → inv (serve crypto s request))
    (hInit : inv {}) {requests : List Request} (hOk : ∀ request ∈ requests, ok request) :
    inv (serveAll crypto requests) :=
  Transition.foldl_invariant hStep requests {} hOk hInit

/-- The states a sequential run can reach. -/
def Reachable (crypto : Crypto) (s : ChatState) : Prop :=
  ∃ requests, s = serveAll crypto requests

/-! ## Request texts for concrete runs -/

/-- The payload of a `register` request. -/
def registerLine (username : String) : Bytes :=
  ascii "\x7b\"type\":\"register\",\"username\":\"" ++ ascii username ++
    ascii "\",\"password\":\"pw\"\x7d"

/-- The payload of a `login` request. -/
def loginLine (username : String) : Bytes :=
  ascii "\x7b\"type\":\"login\",\"username\":\"" ++ ascii username ++
    ascii "\",\"password\":\"pw\"\x7d"

/-- The payload of a `create_group` request. -/
def createGroupLine (name : String) : Bytes :=
  ascii "\x7b\"type\":\"create_group\",\"name\":\"" ++ ascii name ++ ascii "\"\x7d"

/-- The payload of a `join_group` request. -/
def joinGroupLine (groupId : Nat) : Bytes :=
  ascii "\x7b\"type\":\"join_group\",\"group_id\":" ++ decimal groupId ++ ascii "\x7d"

/-- The payload of a `group_message` request. -/
def groupMessageLine (groupId : Nat) (body : String) : Bytes :=
  ascii "\x7b\"type\":\"group_message\",\"group_id\":" ++ decimal groupId ++
    ascii ",\"body\":\"" ++ ascii body ++ ascii "\"\x7d"

/-- The payload of a `group_history` request. -/
def groupHistoryLine (groupId limit beforeId : Nat) : Bytes :=
  ascii "\x7b\"type\":\"group_history\",\"group_id\":" ++ decimal groupId ++
    ascii ",\"limit\":" ++ decimal limit ++ ascii ",\"before_id\":" ++ decimal beforeId ++
    ascii "\x7d"

/-- The payload of an `unread` request. -/
def unreadLine (limit lastSeenMessageId : Nat) : Bytes :=
  ascii "\x7b\"type\":\"unread\",\"limit\":" ++ decimal limit ++
    ascii ",\"last_seen_message_id\":" ++ decimal lastSeenMessageId ++ ascii "\x7d"

/-- Register and log in on a connection. -/
def enter (connectionId : Nat) (username : String) : List Request :=
  [.line connectionId (registerLine username), .line connectionId (loginLine username)]

end CppChat.Ports.Chat
