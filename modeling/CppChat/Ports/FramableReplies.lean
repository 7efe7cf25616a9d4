import CppChat.Ports.ChatRuns
import CppChat.Ports.CommandText
import CppChat.Ports.ReplySize

/-!
# Which requests have replies that fit into a frame

A request has at most one mebibyte, and so has a frame.  But a reply may be
longer than the request it answers: it carries the sender's name, its fields
have other names, and raw control characters of the body come back as two
bytes.  A reply that does not fit cannot be framed, and the network layer
closes the connection it is addressed to, which for a pushed message is
somebody else's.

`Fits` says on the request and the state before it when all replies fit: short
replies always do, and the others are measured by their arguments.

## Main results

* `reachable_shortNames`: a stored user name has at most 64 bytes, in every reachable
  state.
* `replies_framable_iff`: all replies of a request can be framed exactly when `Fits`.
* `dm_unframable`: a `dm` within the limit whose push to the receiver is above it.
-/

namespace CppChat.Ports.Chat

open CppChat.Verified
open CppChat.Verified.AtomicProgram
open CppChat.Ports.PacketCodec
open CppChat.Ports.Protocol
open CppChat.Ports.Sessions
open CppChat.Ports.Users
open CppChat.Ports.Groups
open CppChat.Ports.Messages

/-! ## The condition -/

/-- The size of the history item of a message, from the names it shows. -/
def itemSize (message : StoredMessage) (fromName toName : Bytes) : Nat :=
  98 + (toStringU64 message.id).length + escapedLength fromName + escapedLength toName +
    escapedLength message.body + escapedLength message.createdAt

/-- The bytes of the history item of a group message. -/
def groupItemSize (s : ChatState) (message : StoredMessage) : Nat :=
  itemSize message (displayName (s.users.findUserById message.senderId) message.senderId)
    (toStringU64 message.receiverId)

/-- The bytes of the history item of a direct message. -/
def directItemSize (s : ChatState) (message : StoredMessage) : Nat :=
  itemSize message (displayName (s.users.findUserById message.senderId) message.senderId)
    (displayName (s.users.findUserById message.receiverId) message.receiverId)

/-- The bytes of the history item of an unread message. -/
def anyItemSize (s : ChatState) (message : StoredMessage) : Nat :=
  if message.type = .groupChat then groupItemSize s message else directItemSize s message

/-- Another member of the group is online. -/
def ReachesMember (s : ChatState) (sender : Session) (groupId : Nat) : Prop :=
  ∃ u ∈ s.members.loadGroupMembers groupId,
    u ≠ sender.userId ∧ (s.sessions.find u).isSome

/-- A command of a logged-in sender whose replies all fit. -/
def CommandFits (s : ChatState) (sender : Session) (command : ClientCommand) : Prop :=
  match command.type with
  | .createGroup =>
      53 + (toStringU64 s.groups.nextGroupId).length + escapedLength command.groupName ≤
        kMaxPacketPayloadSize
  | .directChat =>
      (s.users.findUserByUsername command.targetUsername).isSome →
      (s.sessions.findByUsername command.targetUsername).isSome →
        33 + escapedLength sender.username + escapedLength command.body ≤
          kMaxPacketPayloadSize
  | .groupChat =>
      s.members.isGroupMember command.groupId sender.userId →
      ReachesMember s sender command.groupId →
        56 + (toStringU64 command.groupId).length + escapedLength sender.username +
          escapedLength command.body ≤ kMaxPacketPayloadSize
  | .historyQuery =>
      if command.groupHistory then
        s.members.isGroupMember command.groupId sender.userId →
        ∀ message ∈ s.messages.groupHistoryPage command.groupId
            (normalizeHistoryLimit command.limit) command.beforeId,
          groupItemSize s message ≤ kMaxPacketPayloadSize
      else
        ∀ peer, s.users.findUserByUsername command.targetUsername = some peer →
        ∀ message ∈ s.messages.directHistoryPage sender.userId peer.id
            (normalizeHistoryLimit command.limit) command.beforeId,
          directItemSize s message ≤ kMaxPacketPayloadSize
  | .unreadQuery =>
      ∀ message ∈ unreadPageOf s sender command,
        anyItemSize s message ≤ kMaxPacketPayloadSize
  | _ => True

/-- Only the commands of a logged-in sender can have long replies. -/
def Fits (s : ChatState) (c : Nat) (line : Bytes) : Prop :=
  ∀ command sender, parseClientCommand line = .ok command → ¬NeedsNoSession command →
    s.sessions.findByConnection c = some sender → CommandFits s sender command

/-! ## Stored names are short -/

/-- Every stored record has a name of at most 64 bytes. -/
def ShortNames (users : UserStore) : Prop :=
  ∀ name record, users.usersByUsername.lookup name = some record →
    record.username.length ≤ 64

/-- Registering lets no long name in. -/
theorem registerUser_shortNames {crypto : Crypto} {users : UserStore} (h : ShortNames users)
    (username password : Bytes) :
    ShortNames (users.registerUser crypto username password).2 := by
  unfold UserStore.registerUser
  by_cases hEmpty : (username.isEmpty || password.isEmpty) = true
  · rw [if_pos hEmpty]
    exact h
  rw [if_neg hEmpty]
  by_cases hLong : username.length > 64
  · rw [if_pos hLong]
    exact h
  rw [if_neg hLong]
  split
  · exact h
  · dsimp only
    split
    · exact h
    · intro name record hLookup
      have hInsert := hLookup
      rw [UnorderedMap.lookup_insert] at hInsert
      by_cases hName : name = username
      · rw [if_pos hName] at hInsert
        injection hInsert with hRecord
        rw [← hRecord]
        show username.length ≤ 64
        omega
      · rw [if_neg hName] at hInsert
        exact h name record hInsert

theorem exec_shortNames (crypto : Crypto) (op : ServiceCall) (s : ChatState) (_ : True)
    (h : ShortNames s.users) : ShortNames (op.exec crypto s).2.users := by
  cases op with
  | registerUser username password => exact registerUser_shortNames h username password
  | _ => exact h

/-- No account has a long name. -/
theorem serve_shortNames {crypto : Crypto} (s : ChatState) (request : Request) (_ : True)
    (h : ShortNames s.users) : ShortNames (serve crypto s request).users := by
  cases request with
  | line c payload =>
      have hUses : (handleClientLine c payload).Uses fun _ => True :=
        handleClientLine_uses c payload fun _ _ _ _ => trivial
      exact Prog.run_invariant (exec_shortNames crypto) _ s hUses h
  | disconnect c => exact h

/-- In every reachable state a stored user name has at most 64 bytes. -/
theorem reachable_shortNames {crypto : Crypto} {s : ChatState} (h : Reachable crypto s) :
    ShortNames s.users := by
  obtain ⟨requests, hs⟩ := h
  rw [hs]
  apply serveAll_invariant serve_shortNames _ fun _ _ => trivial
  intro name record hLookup
  contradiction

/-! ## Short replies -/

/-- All replies of a list are within the frame limit. -/
def AllFit (out : List OutboundMessage) : Prop :=
  ∀ message ∈ out, message.response.size ≤ kMaxPacketPayloadSize

/-- One reply fits if its bytes do. -/
theorem allFit_reply (c : Nat) (response : Response) :
    AllFit (reply c response) ↔ response.size ≤ kMaxPacketPayloadSize := by
  simp [AllFit, reply]

theorem allFit_append (out rest : List OutboundMessage) :
    AllFit (out ++ rest) ↔ AllFit out ∧ AllFit rest :=
  List.forall_mem_append

/-- Replies whose only texts are short. -/
def shortArgs : Response → Bool
  | .ok text | .error text | .registerFailed text | .loginFailed text
  | .loginSuccess _ text => decide (text.length ≤ 64)
  | .registerSuccess _ | .messageAck _ _ _ | .historyEnd _ _ | .unreadEnd _ _ | .pong => true
  | .createGroupSuccess _ _ | .directMessage _ _ | .groupMessage _ _ _
  | .historyItem _ _ _ _ _ _ => false

/-- A reply with short texts is far from the limit. -/
theorem shortArgs_fits {r : Response} (h : shortArgs r) : r.size ≤ kMaxPacketPayloadSize := by
  have hEscaped := fun text : Bytes => escapedLength_le text
  have hDigits := toStringU64_length_le
  have hBool : ∀ b : Bool, (if b then 4 else 5) ≤ 5 := by decide
  cases r with
  | createGroupSuccess _ _ | directMessage _ _ | groupMessage _ _ _
  | historyItem _ _ _ _ _ _ => contradiction
  | ok text | error text | registerFailed text | loginFailed text =>
      have hText := hEscaped text
      have hShort : text.length ≤ 64 := of_decide_eq_true h
      simp only [Response.size, kMaxPacketPayloadSize]
      omega
  | loginSuccess userId text =>
      have hText := hEscaped text
      have hNumber := hDigits userId
      have hShort : text.length ≤ 64 := of_decide_eq_true h
      simp only [Response.size, kMaxPacketPayloadSize]
      omega
  | registerSuccess n =>
      have hNumber := hDigits n
      simp only [Response.size, kMaxPacketPayloadSize]
      omega
  | messageAck n stored delivered =>
      have hNumber := hDigits n
      have hStored := hBool stored
      have hDelivered := hBool delivered
      simp only [Response.size, kMaxPacketPayloadSize]
      omega
  | historyEnd hasMore n | unreadEnd hasMore n =>
      have hNumber := hDigits n
      have hMore := hBool hasMore
      simp only [Response.size, kMaxPacketPayloadSize]
      omega
  | pong => decide

theorem allFit_short {response : Response} (c : Nat) (h : shortArgs response) :
    AllFit (reply c response) :=
  (allFit_reply c response).mpr (shortArgs_fits h)

/-! ## The commands without a session -/

variable {crypto : Crypto} {s : ChatState}

/-- The reasons to refuse an account are short. -/
theorem registerUser_error_length {users : UserStore} {username password reason : Bytes}
    (h : (users.registerUser crypto username password).1 = .error reason) :
    reason.length ≤ 64 := by
  have hText : reason = ascii "username and password are required" ∨
      reason = ascii "username too long" ∨ reason = ascii "username already exists" ∨
      reason = ascii "failed to hash password" := by
    unfold UserStore.registerUser at h
    grind
  rcases hText with hEq | hEq | hEq | hEq <;> rw [hEq] <;> decide

theorem verifyLogin_stored {users : UserStore} {username password : Bytes}
    {user : UserRecord} (h : users.verifyLogin crypto username password = some user) :
    users.findUserByUsername username = some user := by
  unfold UserStore.verifyLogin at h
  cases hFind : users.findUserByUsername username with
  | none =>
      rw [hFind] at h
      contradiction
  | some record =>
      rw [hFind] at h
      simp only at h
      split at h
      · exact h
      · contradiction

/-- The replies to `register` always fit. -/
theorem handleRegister_fits (c : Nat) (command : ClientCommand) :
    AllFit ((handleRegister c command).run (ServiceCall.exec crypto) s).1 := by
  rw [handleRegister_run]
  split
  · exact allFit_short c (by decide)
  · cases hResult : (s.users.registerUser crypto command.username command.password).1 with
    | error reason =>
        have hReason : reason.length ≤ 64 := registerUser_error_length hResult
        exact allFit_short c (decide_eq_true hReason)
    | ok userId => exact allFit_short c rfl

/-- The replies to `login` always fit, because the name is that of an account. -/
theorem handleLogin_fits (hNames : ShortNames s.users) (c : Nat) (command : ClientCommand) :
    AllFit ((handleLogin c command).run (ServiceCall.exec crypto) s).1 := by
  rw [handleLogin_run]
  split
  · exact allFit_short c (by decide)
  · split
    · exact allFit_short c (by decide)
    · cases hVerify : s.users.verifyLogin crypto command.username command.password with
      | none => exact allFit_short c (by decide)
      | some user =>
          have hStored := verifyLogin_stored hVerify
          have hShort : user.username.length ≤ 64 := hNames _ _ hStored
          exact allFit_short c (decide_eq_true hShort)

/-! ## The commands of a sender -/

theorem handleLogout_fits (c : Nat) :
    AllFit ((handleLogout c).run (ServiceCall.exec crypto) s).1 := by
  have hShort : shortArgs (.ok (ascii "logout")) := by decide
  intro message hMem
  rw [List.mem_singleton.mp hMem]
  exact shortArgs_fits hShort

/-- The reply to `create_group` repeats the name, which has no limit of its own. -/
theorem handleCreateGroup_fits (c : Nat) (sender : Session) (command : ClientCommand) :
    AllFit ((handleCreateGroup c sender command).run (ServiceCall.exec crypto) s).1 ↔
      53 + (toStringU64 s.groups.nextGroupId).length + escapedLength command.groupName ≤
        kMaxPacketPayloadSize := by
  rw [handleCreateGroup_run]
  by_cases hName : command.groupName.isEmpty
  · -- The reply to an empty name is an error, and an empty name is short.
    rw [if_pos hName]
    have hNil : command.groupName = [] := List.isEmpty_iff.mp hName
    have hDigits := toStringU64_length_le s.groups.nextGroupId
    have hZero : escapedLength command.groupName = 0 := by rw [hNil]; rfl
    constructor
    · intro _
      rw [hZero, kMaxPacketPayloadSize]
      omega
    · intro _
      exact allFit_short c (by decide)
  · rw [if_neg hName]
    exact allFit_reply c _

/-- The reply to `join_group` has only a number to say. -/
theorem handleGroupJoin_fits (c : Nat) (sender : Session) (command : ClientCommand) :
    AllFit ((handleGroupJoin c sender command).run (ServiceCall.exec crypto) s).1 := by
  rw [handleGroupJoin_run]
  have hDigits := toStringU64_length_le command.groupId
  have hText : (ascii "joined group ").length = 13 := by decide
  have hShort : (ascii "joined group " ++ toStringU64 command.groupId).length ≤ 64 := by
    rw [List.length_append, hText]
    omega
  exact allFit_short c (decide_eq_true hShort)

theorem leaveGroup_error {members : GroupMemberStore} {groupId userId : Nat} {reason : Bytes}
    (h : (members.leaveGroup groupId userId).1 = .error reason) :
    reason = ascii "not a member of this group" := by
  unfold GroupMemberStore.leaveGroup at h
  grind

theorem handleGroupLeave_fits (c : Nat) (sender : Session) (command : ClientCommand) :
    AllFit ((handleGroupLeave c sender command).run (ServiceCall.exec crypto) s).1 := by
  rw [handleGroupLeave_run]
  cases hLeave : (s.members.leaveGroup command.groupId sender.userId).1 with
  | error reason =>
      have hReason := leaveGroup_error hLeave
      rw [hReason]
      exact allFit_short c (by decide)
  | ok left =>
      have hDigits := toStringU64_length_le command.groupId
      have hText : (ascii "left group ").length = 11 := by decide
      have hShort : (ascii "left group " ++ toStringU64 command.groupId).length ≤ 64 := by
        rw [List.length_append, hText]
        omega
      exact allFit_short c (decide_eq_true hShort)

/-- The copies of a group message all have the same size; there is one exactly
when another member is online. -/
theorem groupPushes_fit (sender : Session) (command : ClientCommand) :
    AllFit (groupPushes s sender command) ↔
      (ReachesMember s sender command.groupId →
        56 + (toStringU64 command.groupId).length + escapedLength sender.username +
          escapedLength command.body ≤ kMaxPacketPayloadSize) := by
  constructor
  · rintro hFit ⟨u, hMember, hOther, hOnline⟩
    obtain ⟨member, hFind⟩ := Option.isSome_iff_exists.mp hOnline
    apply hFit { connectionId := member.connectionId
                 response := .groupMessage command.groupId sender.username command.body }
    rw [groupPushes, List.mem_filterMap]
    exact ⟨u, hMember, by rw [pushTo, if_neg hOther, hFind]; rfl⟩
  · intro hSize message hMem
    rw [groupPushes, List.mem_filterMap] at hMem
    obtain ⟨u, hMember, hPush⟩ := hMem
    rw [pushTo] at hPush
    by_cases hSelf : u = sender.userId
    · rw [if_pos hSelf] at hPush
      contradiction
    · rw [if_neg hSelf, Option.map_eq_some_iff] at hPush
      obtain ⟨member, hFind, hMessage⟩ := hPush
      rw [← hMessage]
      exact hSize ⟨u, hMember, hSelf, by rw [hFind]; rfl⟩

/-- The copies of a group message fit if its body leaves room for the rest. -/
theorem handleGroupChat_fits (c : Nat) (sender : Session) (command : ClientCommand) :
    AllFit ((handleGroupChat c sender command).run (ServiceCall.exec crypto) s).1 ↔
      (s.members.isGroupMember command.groupId sender.userId →
        ReachesMember s sender command.groupId →
        56 + (toStringU64 command.groupId).length + escapedLength sender.username +
          escapedLength command.body ≤ kMaxPacketPayloadSize) := by
  cases hMember : s.members.isGroupMember command.groupId sender.userId with
  | false =>
      rw [handleGroupChat_run_of_not_member hMember]
      have hFit : AllFit (reply c (.error (ascii "not a member of this group"))) :=
        allFit_short c (by decide)
      simp [hFit]
  | true =>
      rw [handleGroupChat_run hMember, allFit_append, groupPushes_fit, allFit_reply]
      have hAck := fun k delivered => shortArgs_fits (show shortArgs
        (.messageAck k true delivered) from rfl)
      simp [hAck]

/-- The copy of a direct message fits if its body leaves room for the rest. -/
theorem handleDirectChat_fits (c : Nat) (sender : Session) (command : ClientCommand) :
    AllFit ((handleDirectChat c sender command).run (ServiceCall.exec crypto) s).1 ↔
      ((s.users.findUserByUsername command.targetUsername).isSome →
        (s.sessions.findByUsername command.targetUsername).isSome →
        33 + escapedLength sender.username + escapedLength command.body ≤
          kMaxPacketPayloadSize) := by
  have hAck := fun k delivered => shortArgs_fits (show shortArgs
    (.messageAck k true delivered) from rfl)
  cases hUser : s.users.findUserByUsername command.targetUsername with
  | none =>
      rw [handleDirectChat_run_of_none hUser]
      have hFit : AllFit (reply c (.error (ascii "receiver not found"))) :=
        allFit_short c (by decide)
      simp [hFit]
  | some receiver =>
      rw [handleDirectChat_run hUser]
      cases s.sessions.findByUsername command.targetUsername with
      | none => simp [allFit_reply, hAck]
      | some target =>
          simp only [AllFit, List.forall_mem_cons, Option.isSome_some, forall_const]
          constructor
          · exact fun h => h.1
          · exact fun h => ⟨h, (allFit_reply c _).mpr (hAck _ _)⟩

/-! ## The history commands -/

theorem groupItem_size (c : Nat) (message : StoredMessage) :
    (groupItem s c message).response.size = groupItemSize s message := by
  have hType : escapedLength (ascii "gc") = 2 := by decide
  simp only [groupItem, Response.size, groupItemSize, itemSize, hType]
  omega

theorem directItem_size (c : Nat) (message : StoredMessage) :
    (directItem s c message).response.size = directItemSize s message := by
  have hType : escapedLength (ascii "dm") = 2 := by decide
  simp only [directItem, Response.size, directItemSize, itemSize, hType]
  omega

theorem anyItem_size (c : Nat) (message : StoredMessage) :
    (anyItem s c message).response.size = anyItemSize s message := by
  unfold anyItem anyItemSize
  split
  · exact groupItem_size c message
  · exact directItem_size c message

/-- A list of items fits when each item does. -/
theorem allFit_items {item : StoredMessage → OutboundMessage} {size : StoredMessage → Nat}
    (h : ∀ message, (item message).response.size = size message)
    (page : List StoredMessage) :
    AllFit (page.map item) ↔ ∀ message ∈ page, size message ≤ kMaxPacketPayloadSize := by
  simp only [AllFit, List.forall_mem_map, h]

/-- A page fits if each of its items does. -/
theorem historyAnswer_fits {item : StoredMessage → OutboundMessage}
    {size : StoredMessage → Nat} (h : ∀ message, (item message).response.size = size message)
    (c limit : Nat) (page : List StoredMessage) :
    AllFit (historyAnswer c limit item page) ↔
      ∀ message ∈ page, size message ≤ kMaxPacketPayloadSize := by
  have hEnd : AllFit (reply c
      (.historyEnd (page.length == limit) (nextBeforeId page.reverse))) :=
    allFit_short c rfl
  rw [historyAnswer, allFit_append, allFit_items h]
  simp [hEnd]

/-- A stored message can be too long to be sent again as an item. -/
theorem handleHistoryQuery_fits (c : Nat) (sender : Session) (command : ClientCommand)
    (hType : command.type = .historyQuery) :
    AllFit ((handleHistoryQuery c sender command).run (ServiceCall.exec crypto) s).1 ↔
      CommandFits s sender command := by
  rw [CommandFits, hType]
  simp only
  cases hGroup : command.groupHistory with
  | true =>
      rw [if_pos rfl]
      cases hMember : s.members.isGroupMember command.groupId sender.userId with
      | false =>
          rw [handleGroupHistory_run_of_not_member hGroup hMember]
          have hFit : AllFit (reply c (.error (ascii "not a member of this group"))) :=
            allFit_short c (by decide)
          simp [hFit]
      | true =>
          rw [handleGroupHistory_run hGroup hMember, historyAnswer_fits (groupItem_size c)]
          simp
  | false =>
      rw [if_neg nofun]
      cases hPeer : s.users.findUserByUsername command.targetUsername with
      | none =>
          rw [handleDirectHistory_run_of_none hGroup hPeer]
          have hFit : AllFit (reply c (.error (ascii "peer not found"))) :=
            allFit_short c (by decide)
          simp [hFit]
      | some peer =>
          rw [handleDirectHistory_run hGroup hPeer, historyAnswer_fits (directItem_size c)]
          simp

/-- The same for the items of an unread page. -/
theorem handleUnreadQuery_fits (c : Nat) (sender : Session) (command : ClientCommand) :
    AllFit ((handleUnreadQuery c sender command).run (ServiceCall.exec crypto) s).1 ↔
      ∀ message ∈ unreadPageOf s sender command,
        anyItemSize s message ≤ kMaxPacketPayloadSize := by
  rw [handleUnreadQuery_run, allFit_append, allFit_items (anyItem_size c)]
  have hEnd := fun hasMore next => allFit_short c
    (show shortArgs (.unreadEnd hasMore next) from rfl)
  simp [hEnd]

/-! ## All requests -/

/-- The bounds of all commands that need a session. -/
theorem handleSession_fits (c : Nat) (sender : Session) (command : ClientCommand) :
    AllFit ((handleSession c sender command).run (ServiceCall.exec crypto) s).1 ↔
      CommandFits s sender command := by
  unfold handleSession
  split
  case h_1 h => simp [CommandFits, h, handleLogout_fits]
  case h_2 h => simp [CommandFits, h, handleCreateGroup_fits]
  case h_3 h => simp [CommandFits, h, handleGroupJoin_fits]
  case h_4 h => simp [CommandFits, h, handleGroupLeave_fits]
  case h_5 h => simp only [CommandFits, h, handleGroupChat_fits]
  case h_6 h => exact handleHistoryQuery_fits c sender command h
  case h_7 h => simp only [CommandFits, h, handleDirectChat_fits]
  case h_8 h => simp only [CommandFits, h, handleUnreadQuery_fits]
  case h_9 =>
    have hFit : AllFit (reply c (.error (ascii "unsupported command"))) :=
      allFit_short c (by decide)
    constructor
    · intro _
      unfold CommandFits
      split <;> trivial
    · exact fun _ => hFit

/-- The bounds of a whole request. -/
theorem handleLine_fits (hNames : ShortNames s.users) (c : Nat) (line : Bytes) :
    AllFit (handleLine crypto s c line).1 ↔ Fits s c line := by
  cases hParse : parseClientCommand line with
  | error reason =>
      have hReason : reason.length ≤ 64 := parseClientCommand_error_length hParse
      rw [handleLine_error c hParse]
      constructor
      · intro _ command sender hOk
        rw [hParse] at hOk
        contradiction
      · intro _
        exact allFit_short c (decide_eq_true hReason)
  | ok command =>
      have hFits : Fits s c line ↔ (¬NeedsNoSession command →
          ∀ sender, s.sessions.findByConnection c = some sender →
            CommandFits s sender command) := by
        constructor
        · exact fun h hNeeds sender hFind => h command sender hParse hNeeds hFind
        · intro h command' sender hOk hNeeds hFind
          rw [hParse] at hOk
          injection hOk with hEq
          subst hEq
          exact h hNeeds sender hFind
      rw [handleLine_ok c hParse, hFits]
      by_cases hNeeds : NeedsNoSession command
      · have hFit : AllFit ((handleCommand c command).run (ServiceCall.exec crypto) s).1 := by
          rcases hNeeds with hPing | hRegister | hLogin
          · rw [handleCommand, hPing]
            exact allFit_short c rfl
          · rw [handleCommand, hRegister]
            exact handleRegister_fits c command
          · rw [handleCommand, hLogin]
            exact handleLogin_fits hNames c command
        simp [hFit, hNeeds]
      · cases hFind : s.sessions.findByConnection c with
        | none =>
            have hFit : AllFit (reply c (.error (ascii "please login first"))) :=
              allFit_short c (by decide)
            rw [handleCommand_run_of_none hNeeds hFind]
            simp [hFit]
        | some sender =>
            rw [handleCommand_run_of_some hNeeds hFind, handleSession_fits]
            simp [hNeeds]

/-- In every reachable state and for every payload: all replies have between
one byte and the frame limit, and `encode_packet` frames them, exactly when the
request fits. -/
theorem replies_framable_iff (crypto : Crypto) (s : ChatState) (c : Nat) (line : Bytes)
    (hReach : Reachable crypto s) :
    (∀ message ∈ (handleLine crypto s c line).1,
      1 ≤ message.data.length ∧ message.data.length ≤ kMaxPacketPayloadSize ∧
        ∃ packet, encodePacket message.data = .ok packet) ↔ Fits s c line := by
  rw [← handleLine_fits (reachable_shortNames hReach)]
  constructor
  · intro h message hMem
    exact (frames_iff message.response).mp (h message hMem)
  · intro h message hMem
    exact (frames_iff message.response).mpr (h message hMem)

/-! ## Alice writes to Bob -/

/-- Alice is logged in on connection 1, Bob on connection 2. -/
def aliceAndBob : ChatState := serveAll sampleCrypto (enter 1 "alice" ++ enter 2 "bob")

theorem aliceAndBob_entered :
    aliceAndBob.sessions.findByConnection 1 =
      some { userId := 1, connectionId := 1, username := ascii "alice" } ∧
    aliceAndBob.sessions.findByUsername (ascii "bob") =
      some { userId := 2, connectionId := 2, username := ascii "bob" } ∧
    (aliceAndBob.users.findUserByUsername (ascii "bob")).isSome := by
  decide +kernel

/-- A short `dm` fits, and its replies can be framed. -/
theorem replies_framable_shortDm :
    let line := dmLine (ascii "bob") (ascii "hi")
    Fits aliceAndBob 1 line ∧
    ∀ message ∈ (handleLine sampleCrypto aliceAndBob 1 line).1,
      1 ≤ message.data.length ∧ message.data.length ≤ kMaxPacketPayloadSize ∧
        ∃ packet, encodePacket message.data = .ok packet := by
  intro line
  have hFits : Fits aliceAndBob 1 line := by
    intro command sender hParse _ hFind
    rw [parseClientCommand_dmLine (by decide +kernel) (by decide +kernel) (by decide)
      (by decide)] at hParse
    injection hParse with hCommand
    rw [aliceAndBob_entered.1] at hFind
    injection hFind with hSender
    rw [← hCommand, ← hSender]
    intro _ _
    decide
  exact ⟨hFits,
    (replies_framable_iff sampleCrypto aliceAndBob 1 line ⟨_, rfl⟩).mpr hFits⟩

/-- The push of a `dm` to a receiver that is online. -/
theorem dm_push_mem {c : Nat} {sender target : Session} {name body : Bytes}
    (hName : Plain name) (hNameNe : name ≠ []) (hBody : Plain body) (hBodyNe : body ≠ [])
    (hSender : s.sessions.findByConnection c = some sender)
    (hStored : (s.users.findUserByUsername name).isSome)
    (hTarget : s.sessions.findByUsername name = some target) :
    { connectionId := target.connectionId
      response := .directMessage sender.username body } ∈
      (handleLine crypto s c (dmLine name body)).1 := by
  obtain ⟨receiver, hReceiver⟩ := Option.isSome_iff_exists.mp hStored
  generalize hCommand : ({ type := .directChat, targetUsername := name, body := body } :
    ClientCommand) = command
  have hParse : parseClientCommand (dmLine name body) = .ok command := by
    rw [parseClientCommand_dmLine hName hBody hNameNe hBodyNe, hCommand]
  have hType : command.type = .directChat := by rw [← hCommand]
  have hTo : command.targetUsername = name := by rw [← hCommand]
  have hText : command.body = body := by rw [← hCommand]
  have hNeeds : ¬NeedsNoSession command := by simp [NeedsNoSession, hType]
  rw [← hTo] at hReceiver hTarget
  rw [handleLine_ok c hParse, handleCommand_run_of_some hNeeds hSender]
  simp only [handleSession, hType]
  rw [handleDirectChat_run hReceiver, hTarget, hText]
  exact List.mem_cons_self

theorem escapedLength_newlines (n : Nat) : escapedLength (List.replicate n 10) = 2 * n := by
  have hEscaped : isEscaped 10 = true := by decide
  rw [escapedLength, List.length_replicate, List.countP_replicate, if_pos hEscaped]
  omega

/-- A push of enough raw newlines is above the limit. -/
theorem dm_newlines_unframable {n : Nat} (h : 524270 ≤ n) :
    ∃ message ∈ (handleLine sampleCrypto aliceAndBob 1
        (dmLine (ascii "bob") (List.replicate n 10))).1,
      message.connectionId = 2 ∧ kMaxPacketPayloadSize < message.data.length ∧
        ¬∃ packet, encodePacket message.data = .ok packet := by
  have hPlain : Plain (List.replicate n 10) := by
    intro b hMem
    rw [List.eq_of_mem_replicate hMem]
    decide
  have hNe : List.replicate n (10 : UInt8) ≠ [] := by
    intro hNil
    rw [List.replicate_eq_nil_iff] at hNil
    omega
  have hLong : kMaxPacketPayloadSize <
      (Response.directMessage (ascii "alice") (List.replicate n 10)).data.length := by
    have hName : escapedLength (ascii "alice") = 5 := by decide
    rw [data_length, Response.size, escapedLength_newlines, hName, kMaxPacketPayloadSize]
    omega
  have hPush : { connectionId := 2
                 response := .directMessage (ascii "alice") (List.replicate n 10) } ∈
      (handleLine sampleCrypto aliceAndBob 1
        (dmLine (ascii "bob") (List.replicate n 10))).1 :=
    dm_push_mem (by decide +kernel) (by decide) hPlain hNe aliceAndBob_entered.1
      aliceAndBob_entered.2.2 aliceAndBob_entered.2.1
  refine ⟨_, hPush, rfl, hLong, ?_⟩
  rw [encodePacket_isOk_iff]
  intro hOk
  exact absurd hOk.2 (Nat.not_le.mpr hLong)

/-- A body of 600000 raw newlines makes a request of 600034 bytes.  The message
pushed to Bob has more than a mebibyte and cannot be framed, so Bob's
connection is closed. -/
theorem dm_unframable :
    (dmLine (ascii "bob") (List.replicate 600000 10)).length ≤ kMaxPacketPayloadSize ∧
    ∃ message ∈ (handleLine sampleCrypto aliceAndBob 1
        (dmLine (ascii "bob") (List.replicate 600000 10))).1,
      message.connectionId = 2 ∧ kMaxPacketPayloadSize < message.data.length ∧
        ¬∃ packet, encodePacket message.data = .ok packet := by
  have hBob : (ascii "bob").length = 3 := by decide
  refine ⟨?_, dm_newlines_unframable (by decide)⟩
  rw [dmLine_length, List.length_replicate, hBob]
  decide

end CppChat.Ports.Chat
