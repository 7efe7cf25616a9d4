import CppChat.Ports.AbstractChat
import CppChat.Ports.GroupTables
import CppChat.Ports.StoreModes
import CppChat.Ports.UsernameCollation

/-!
# The service on MySQL

With a connection pool the accounts, groups, members and messages are rows of four tables,
and only the sessions are in memory.  When the server is started again the sessions are gone
and the tables are not.

Requests are handled one after the other, and every call on the database succeeds.  The
service then does what `AbstractChat` does: under a policy where names are compared by the
collation of the table, where the messages between two users are those of their conversation
id, and where messages have the time stamps of their rows.  A request must fit the columns,
which is checked nowhere: a body has at most 65535 bytes, and a group name 128 characters.

## Main results

* `execTables_refines`: a call on the tables answers and changes them as the abstract one does.
* `allowed_clientLine`: requests make the calls for which this was shown.
* `tables_refine`: the replies of every sequence of requests, disconnects and restarts.
-/

namespace CppChat.Ports.Tables

open CppChat.Verified
open CppChat.Verified.AtomicProgram
open CppChat.Verified.Interleaving
open CppChat.Verified.Transition
open CppChat.Ports.Protocol
open CppChat.Ports.Sessions
open CppChat.Ports.Users
open CppChat.Ports.Groups
open CppChat.Ports.Messages
open CppChat.Ports.Chat
open CppChat.Ports.UsernameCollation

variable {collation : Collation} {crypto : Crypto} {createdAt : Nat → Bytes}

/-! ## The stores with a pool -/

/-- The four tables, the sessions, and the vector of the message store. -/
structure PooledChat (collation : Collation) where
  sessions : SessionManager := {}
  users : PooledUserStore collation := { table := UsersTable.empty }
  groups : GroupsTable := {}
  members : MembersTable := {}
  messages : PooledMessageStore := {}

namespace PooledChat

/-- The rows that the foreign keys of the other tables refer to. -/
def known (s : PooledChat collation) (userId : Nat) : Bool :=
  s.users.table.rows.any fun row => row.id == userId

/-- The calls on stores with a pool, on a database that answers.  It gives a row of
`messages` the time stamp that belongs to its id. -/
def exec (crypto : Crypto) (createdAt : Nat → Bytes) :
    (op : ServiceCall) → PooledChat collation → op.Result × PooledChat collation
  | .findByConnection c, s => (s.sessions.findByConnection c, s)
  | .isUsernameOnline n, s => (s.sessions.isUsernameOnline n, s)
  | .bind session, s => ((), { s with sessions := s.sessions.bind session })
  | .unbindConnection c, s => ((), { s with sessions := s.sessions.unbindConnection c })
  | .find u, s => (s.sessions.find u, s)
  | .findByUsername n, s => (s.sessions.findByUsername n, s)
  | .sessionJoinGroup g u, s => ((), { s with sessions := s.sessions.joinGroup g u })
  | .sessionLeaveGroup g u, s => ((), { s with sessions := s.sessions.leaveGroup g u })
  | .registerUser n p, s =>
      let result := s.users.registerUser crypto {} n p
      (result.1, { s with users := result.2 })
  | .verifyLogin n p, s => (s.users.verifyLogin crypto {} n p, s)
  | .findUserById u, s => (s.users.findUserById {} u, s)
  | .findUserByUsername n, s => (s.users.findUserByUsername {} n, s)
  | .createGroup n u, s =>
      let result := s.groups.createGroup s.known {} n u
      (result.1, { s with groups := result.2 })
  | .joinGroup g u, s =>
      let result := s.members.joinGroup s.known {} g u
      (result.1, { s with members := result.2 })
  | .leaveGroup g u, s =>
      let result := s.members.leaveGroup {} g u
      (result.1, { s with members := result.2 })
  | .isGroupMember g u, s => (s.members.isGroupMember {} g u, s)
  | .loadGroupMembers g, s => (s.members.loadGroupMembers {} g, s)
  | .loadUserGroups u, s => (s.members.loadUserGroups {} u, s)
  | .append m, s =>
      let result := s.messages.append m { createdAt := createdAt s.messages.nextId }
      (result.1, { s with messages := result.2 })
  | .directHistoryPage u p l b, s => (s.messages.directHistoryPage u p l b {}, s)
  | .groupHistoryPage g l b, s => (s.messages.groupHistoryPage g l b {}, s)
  | .unreadPage u gs k l, s => (s.messages.unreadPage u gs k l {}, s)

/-- The server is stopped and started again: what was in memory is gone. -/
def restart (s : PooledChat collation) : PooledChat collation :=
  { s with sessions := {}, messages := { s.messages with memory := {} } }

end PooledChat

/-- What happens to the service, and to its process. -/
inductive TableRequest where
  | line (connectionId : Nat) (payload : Bytes)
  | disconnect (connectionId : Nat)
  | restart

/-- The replies to one request, and the state after it. -/
def serve {σ : Type} (exec : (op : ServiceCall) → σ → op.Result × σ) (restart : σ → σ) (s : σ) :
    TableRequest → List OutboundMessage × σ
  | .line c payload => (handleClientLine c payload).run exec s
  | .disconnect c => ([], ((handleDisconnect c).run exec s).2)
  | .restart => ([], restart s)

/-- What a command writes fits the columns of the tables. -/
def FitsColumns (command : ClientCommand) : Prop :=
  command.body.length ≤ kTextBytes ∧ characters command.groupName ≤ kNameCharacters

instance (command : ClientCommand) : Decidable (FitsColumns command) :=
  inferInstanceAs (Decidable (_ ∧ _))

/-- A request whose texts fit the columns they are stored in. -/
def TableRequest.Fits : TableRequest → Prop
  | .line _ payload => ∀ command, parseClientCommand payload = .ok command → FitsColumns command
  | _ => True

instance (request : TableRequest) : Decidable request.Fits :=
  match request with
  | .line _ payload =>
      match hParse : parseClientCommand payload with
      | .ok command => decidable_of_iff (FitsColumns command) (by simp [TableRequest.Fits, hParse])
      | .error reason => isTrue (by simp [TableRequest.Fits, hParse])
  | .disconnect _ => isTrue trivial
  | .restart => isTrue trivial

/-- A direct message of the conversation of two users. -/
def inConversation (userId peerId : Nat) (m : StoredMessage) : Bool :=
  m.type == .directChat &&
    makeDirectConversationId m.senderId m.receiverId == makeDirectConversationId userId peerId

/-- What is meant by a name, a conversation and a time on MySQL. -/
def onTables (collation : Collation) (createdAt : Nat → Bytes) : Policy where
  sameName := collation.same
  between := inConversation
  stamp := createdAt

/-! ## The relation -/

/-- The messages with their time stamps. -/
def stamped (createdAt : Nat → Bytes) (messages : List Message) : List (Message × Bytes) :=
  messages.mapIdx fun index message => (message, createdAt (index + 1))

/-- The tables hold what the abstract service has. -/
structure RefinesTables (createdAt : Nat → Bytes) (s : PooledChat collation) (a : AbstractChat) :
    Prop where
  accounts : s.users.table.rows = a.accounts
  nextId : s.users.table.nextId = a.accounts.length + 1
  salts : s.users.saltCalls = a.salts
  online : Online s.sessions a.online
  groups : s.groups.nextId = a.groups + 1
  members : ∀ row, row ∈ s.members.rows ↔ row ∈ a.members
  messages : s.messages.rows = (items (stamped createdAt a.messages)).map rowOf
  nextMessageId : s.messages.nextId = a.messages.length + 1
  bodies : ∀ m ∈ a.messages, m.body.length ≤ kTextBytes

/-- The sessions and the accounts, as far as they are needed for a name. -/
abbrev PooledChat.pool (s : PooledChat collation) : PoolState collation :=
  { sessions := s.sessions, users := s.users }

/-- Four empty tables, and an abstract service that has just started. -/
theorem RefinesTables.empty :
    RefinesTables createdAt ({} : PooledChat collation) {} where
  accounts := rfl
  nextId := rfl
  salts := rfl
  online := by simp [Online, SessionManager.find]
  groups := rfl
  members := by simp
  messages := rfl
  nextMessageId := rfl
  bodies := by simp

/-! ## Messages -/

/-- The message as a page of the table reports it. -/
def timedOf (item : Nat × Message × Bytes) : StoredMessage :=
  { storedOf item with createdAt := item.2.2 }

/-- Messages with the time stamps of their rows. -/
theorem numbered_eq (a : AbstractChat) (collation : Collation) (createdAt : Nat → Bytes) :
    a.numbered (onTables collation createdAt) =
      (items (stamped createdAt a.messages)).map timedOf := by
  apply List.ext_getElem?
  intro i
  simp only [AbstractChat.numbered, items, stamped, List.getElem?_mapIdx, List.getElem?_map,
    Option.map_map]
  rfl

theorem newest_eq (a : AbstractChat) (select : StoredMessage → Bool) (limit beforeId : Nat) :
    a.newest (onTables collation createdAt) select limit beforeId =
      (((items (stamped createdAt a.messages)).filter fun item =>
        (beforeId == 0 || decide (item.1 < beforeId)) && select (timedOf item)).reverse.take
          (MessageStore.pageLimit limit)).map timedOf := by
  rw [AbstractChat.newest, numbered_eq, List.filter_map, ← List.map_reverse, List.map_take]
  congr 3
  apply List.filter_congr
  intro item _
  have hId : (timedOf item).id = item.1 := rfl
  rw [Bool.eq_iff_iff]
  simp [hId]

theorem oldest_eq (a : AbstractChat) (select : StoredMessage → Bool) (limit lastSeen : Nat) :
    a.oldest (onTables collation createdAt) select limit lastSeen =
      (((items (stamped createdAt a.messages)).filter fun item =>
        decide (item.1 > lastSeen) && select (timedOf item)).take
          (MessageStore.pageLimit limit)).map timedOf := by
  rw [AbstractChat.oldest, numbered_eq, List.filter_map, List.map_take]
  congr 2
  apply List.filter_congr
  intro item _
  have hId : (timedOf item).id = item.1 := rfl
  rw [Bool.eq_iff_iff]
  simp [hId]

variable {s : PooledChat collation} {a : AbstractChat}

theorem RefinesTables.fits (h : RefinesTables createdAt s a) :
    ∀ entry ∈ stamped createdAt a.messages, entry.1.body.length ≤ kTextBytes := by
  intro entry hMem
  obtain ⟨i, hi, rfl⟩ := List.mem_mapIdx.mp hMem
  exact h.bodies _ (List.getElem_mem hi)

/-- The rows are those of a store to which all messages were appended. -/
theorem RefinesTables.executeQuery_eq (h : RefinesTables createdAt s a)
    (select : MessageRow → Bool) (order : MessageRow → MessageRow → Bool) (limit : Nat) :
    s.messages.executeQuery select order limit {} =
      (pooledOf (stamped createdAt a.messages)).executeQuery select order limit {} := by
  rw [PooledMessageStore.executeQuery, PooledMessageStore.executeQuery, h.messages,
    (pooledOf_rows h.fits).1]

/-- A group history read from the table is the newest messages below the cursor. -/
theorem RefinesTables.groupHistoryPage_eq (h : RefinesTables createdAt s a)
    (g limit beforeId : Nat) :
    s.messages.groupHistoryPage g limit beforeId {} =
      a.newest (onTables collation createdAt) (MessageStore.isGroupMessageOf g) limit beforeId := by
  rw [PooledMessageStore.groupHistoryPage, if_pos rfl,
    PooledMessageStore.executeHistoryPageQuery, h.executeQuery_eq, executeQuery_newest h.fits,
    List.map_map, newest_eq]
  have hSelect : ∀ item : Nat × Message × Bytes,
      ((rowOf item).conversationType == 2 && (rowOf item).conversationId == g) =
        MessageStore.isGroupMessageOf g (timedOf item) := fun item => group_selected item g
  refine (map_filter_congr ?_ ?_).1 _
  · intro item _
    rw [← hSelect, Bool.and_comm]
    rfl
  · intro item _ hSelected
    have hGroup := (Bool.and_eq_true _ _ ▸ hSelected : _ ∧ _).1
    rw [hSelect] at hGroup
    have hType : item.2.1.type = .groupChat :=
      of_decide_eq_true (Bool.and_eq_true _ _ ▸ hGroup : _ ∧ _).1
    simp only [Function.comp_apply, timedOf, storedOf, StoredMessage.ofMessage, hType]
    rfl

/-- A direct history read from the table is the newest messages below the cursor. -/
theorem RefinesTables.directHistoryPage_eq (h : RefinesTables createdAt s a)
    (u peer limit beforeId : Nat) :
    s.messages.directHistoryPage u peer limit beforeId {} =
      a.newest (onTables collation createdAt) (inConversation u peer) limit beforeId := by
  rw [PooledMessageStore.directHistoryPage, if_pos rfl,
    PooledMessageStore.executeHistoryPageQuery, h.executeQuery_eq, executeQuery_newest h.fits,
    List.map_map, newest_eq]
  have hSelect : ∀ item : Nat × Message × Bytes,
      ((rowOf item).conversationType == 1 &&
        (rowOf item).conversationId == makeDirectConversationId u peer) =
          inConversation u peer (timedOf item) := fun item => direct_selected item _
  refine (map_filter_congr ?_ ?_).1 _
  · intro item _
    rw [← hSelect, Bool.and_comm]
    rfl
  · intro item _ hSelected
    have hDirect := (Bool.and_eq_true _ _ ▸ hSelected : _ ∧ _).1
    rw [hSelect] at hDirect
    have hType : item.2.1.type = .directChat :=
      eq_of_beq (Bool.and_eq_true _ _ ▸ hDirect : _ ∧ _).1
    simp only [Function.comp_apply, timedOf, storedOf, StoredMessage.ofMessage, hType]
    rfl

/-- An unread page read from the table is the oldest messages above the cursor. -/
theorem RefinesTables.unreadPage_eq (h : RefinesTables createdAt s a) (u : Nat)
    (groups : List Nat) (lastSeen limit : Nat) :
    s.messages.unreadPage u groups lastSeen limit {} =
      a.oldest (onTables collation createdAt) (MessageStore.isUnreadFor u groups) limit
        lastSeen := by
  rw [PooledMessageStore.unreadPage, if_pos rfl, PooledMessageStore.executeUnreadQuery,
    h.executeQuery_eq, executeQuery_oldest h.fits, List.map_map, oldest_eq]
  have hSelect : ∀ item : Nat × Message × Bytes,
      ((rowOf item).conversationType == 1 && (rowOf item).receiverId == u ||
        groups.any fun g => (rowOf item).conversationType == 2 &&
          (rowOf item).conversationId == g && (rowOf item).senderId != u) =
        MessageStore.isUnreadFor u groups (timedOf item) :=
    fun item => unread_selected item u groups
  refine (map_filter_congr ?_ ?_).2.1 _
  · intro item _
    rw [← hSelect]
    rfl
  · intro item _ hSelected
    have hUnread := (Bool.and_eq_true _ _ ▸ hSelected : _ ∧ _).2
    rw [unread_selected] at hUnread
    simp only [Function.comp_apply, type_readBack hUnread]
    rfl

/-- The row gets the id and the time stamp that the abstract message has. -/
theorem RefinesTables.append (h : RefinesTables createdAt s a) {m : Message}
    (hBody : m.body.length ≤ kTextBytes) :
    (s.messages.append m { createdAt := createdAt s.messages.nextId }).1 =
        .ofMessage (a.messages.length + 1) m ∧
      RefinesTables createdAt
        { s with
          messages := (s.messages.append m { createdAt := createdAt s.messages.nextId }).2 }
        { a with messages := a.messages ++ [m] } := by
  have hInserts : AppendIo.inserts { createdAt := createdAt s.messages.nextId } m = true := by
    simpa [AppendIo.inserts] using hBody
  have hStamped : stamped createdAt (a.messages ++ [m]) =
      stamped createdAt a.messages ++ [(m, createdAt (a.messages.length + 1))] := by
    simp [stamped, List.mapIdx_append]
  have hLength : (stamped createdAt a.messages).length = a.messages.length := by simp [stamped]
  rw [PooledMessageStore.append, beginAppend_eq]
  simp only [finishAppend_eq, hInserts, if_true]
  refine ⟨by rw [h.nextMessageId]; rfl, h.accounts, h.nextId, h.salts, h.online, h.groups,
    h.members, ?_, ?_, ?_⟩
  · rw [hStamped, items_concat, List.map_append, hLength, h.messages, h.nextMessageId]
    rfl
  · rw [h.nextMessageId, List.length_append]
    rfl
  · rw [List.forall_mem_append, List.forall_mem_singleton]
    exact ⟨h.bodies, hBody⟩

/-! ## Accounts -/

/-- Selecting a name finds the same account. -/
theorem RefinesTables.account_eq (h : RefinesTables createdAt s a) (n : Bytes) :
    s.users.findUserByUsername {} n = a.account (onTables collation createdAt) n := by
  rw [PooledUserStore.findUserByUsername, if_pos rfl, PooledUserStore.fetchUserByUsername,
    if_pos rfl, UsersTable.selectByUsername, h.accounts]
  rfl

theorem RefinesTables.findUserById_eq (h : RefinesTables createdAt s a) (u : Nat) :
    s.users.findUserById {} u = a.accounts.find? fun user => user.id == u := by
  rw [PooledUserStore.findUserById, if_pos rfl, PooledUserStore.fetchUserById, if_pos rfl,
    UsersTable.selectById, h.accounts]
  rfl

/-- A registration is answered alike, and adds the same account. -/
theorem RefinesTables.registerUser (h : RefinesTables createdAt s a) (n p : Bytes) :
    (s.users.registerUser crypto {} n p).1 =
        (a.registerUser crypto (onTables collation createdAt) n p).1 ∧
      RefinesTables createdAt { s with users := (s.users.registerUser crypto {} n p).2 }
        (a.registerUser crypto (onTables collation createdAt) n p).2 := by
  have hFound := h.account_eq n
  rw [PooledUserStore.findUserByUsername, if_pos rfl] at hFound
  unfold PooledUserStore.registerUser AbstractChat.registerUser
  simp only [List.isEmpty_iff, Bool.or_eq_true, gt_iff_lt, Bool.not_true, Bool.false_eq_true,
    if_false, hFound, h.salts]
  split
  · exact ⟨rfl, h⟩
  split
  · exact ⟨rfl, h⟩
  split
  · exact ⟨rfl, h⟩
  rename_i hFree
  split
  · exact ⟨rfl, h.accounts, h.nextId, rfl, h.online, h.groups, h.members, h.messages,
      h.nextMessageId, h.bodies⟩
  -- the name was just found to be free, so the unique key does not get in the way
  have hNone : s.users.table.selectByUsername n = none := by
    rw [Option.not_isSome_iff_eq_none, ← hFound] at hFree
    exact hFree
  simp only [UsersTable.insert, dif_pos hNone]
  refine ⟨congrArg Except.ok h.nextId, ?_, ?_, rfl, h.online, h.groups, h.members, h.messages,
    h.nextMessageId, h.bodies⟩
  · show s.users.table.rows ++ [s.users.table.newRow n _] = _
    rw [h.accounts, UsersTable.newRow, h.nextId]
  · show s.users.table.nextId + 1 = _
    rw [h.nextId, List.length_append]
    rfl

/-! ## What a request knows -/

/-- The accounts a request has met, by id and name. -/
abbrev Met := List (Nat × Bytes)

/-- The user has met the server: some account was seen under the id. -/
def Met.Has (k : Met) (userId : Nat) : Prop := ∃ n, (userId, n) ∈ k

/-- What a call needs to be known, and what is known after it: a session and a foreign key
refer to accounts, and what is written fits its column. -/
def tableSpec : (op : ServiceCall) → Met → (op.Result → Met → Prop) → Prop
  | .findByConnection _, k, q =>
      q none k ∧ ∀ session : Session, q (some session) ((session.userId, session.username) :: k)
  | .verifyLogin _ _, k, q =>
      q none k ∧ ∀ user : UserRecord, q (some user) ((user.id, user.username) :: k)
  | .bind session, k, q => (session.userId, session.username) ∈ k ∧ q () k
  | .append m, k, q => m.body.length ≤ kTextBytes ∧ ∀ r, q r k
  | .createGroup n u, k, q => (characters n ≤ kNameCharacters ∧ k.Has u) ∧ ∀ r, q r k
  | .joinGroup _ u, k, q => k.Has u ∧ ∀ r, q r k
  | _, k, q => ∀ r, q r k

/-- Sessions and what the request has met are rows. -/
structure Accounted (k : Met) (s : PooledChat collation) : Prop where
  sessions : Accounts s.pool
  met : ∀ account ∈ k, ∃ row ∈ s.users.table.rows, row.id = account.1 ∧ row.username = account.2

variable {k : Met}

/-- A user that was seen has a row, so that a foreign key to it holds. -/
theorem Accounted.known (h : Accounted k s) {u : Nat} (hHas : k.Has u) : s.known u = true := by
  obtain ⟨n, hMem⟩ := hHas
  obtain ⟨row, hRow, hId, -⟩ := h.met _ hMem
  exact List.any_eq_true.mpr ⟨row, hRow, beq_iff_eq.mpr hId⟩

theorem Accounted.meet (h : Accounted k s) {user : UserRecord}
    (hUser : user ∈ s.users.table.rows) : Accounted ((user.id, user.username) :: k) s :=
  ⟨h.sessions, List.forall_mem_cons.mpr ⟨⟨user, hUser, rfl, rfl⟩, h.met⟩⟩

/-! ## One call -/

theorem execTables_accounts {op : ServiceCall} {q : op.Result → Met → Prop}
    (hSpec : tableSpec op k q) (h : Accounted k s) :
    Accounts (PooledChat.exec crypto createdAt op s).2.pool := by
  have hSessions := h.sessions
  cases op with
  | bind session =>
      obtain ⟨row, hRow, hId, hName⟩ := h.met _ hSpec.1
      have hBind := hSessions.bind hRow session.connectionId
      rw [hId, hName] at hBind
      exact hBind
  | unbindConnection c => exact hSessions.unbindConnection c
  | sessionJoinGroup g u =>
      exact ⟨hSessions.consistent.joinGroup g u, hSessions.named.joinGroup g u, hSessions.account⟩
  | sessionLeaveGroup g u =>
      refine ⟨hSessions.consistent.leaveGroup g u, hSessions.named.leaveGroup g u, ?_⟩
      intro v session hSession
      have hSame : (s.sessions.leaveGroup g u).find v = s.sessions.find v := by
        simp [SessionManager.find]
      exact hSessions.account v session (hSame.symm.trans hSession)
  | registerUser n p =>
      refine ⟨hSessions.consistent, hSessions.named, ?_⟩
      intro u session hSession
      obtain ⟨row, hRow, hId⟩ := hSessions.account u session hSession
      exact ⟨row, PooledUserStore.rows_registerUser n p row hRow, hId⟩
  | _ => exact hSessions

/-- No call deletes an account. -/
theorem execTables_rows (op : ServiceCall) (s : PooledChat collation) :
    ∀ row ∈ s.users.table.rows,
      row ∈ (PooledChat.exec crypto createdAt op s).2.users.table.rows := by
  cases op with
  | registerUser n p => exact PooledUserStore.rows_registerUser n p
  | _ => exact fun _ hRow => hRow

/-- A call leaves what requests know true, and what it returns can be added. -/
theorem execTables_accounted {op : ServiceCall} {q : op.Result → Met → Prop}
    (hSpec : tableSpec op k q) (h : Accounted k s) :
    (∃ k', q (PooledChat.exec crypto createdAt op s).1 k' ∧
        Accounted k' (PooledChat.exec crypto createdAt op s).2) ∧
      ∀ other, Accounted other s → Accounted other (PooledChat.exec crypto createdAt op s).2 := by
  have hStable : ∀ other, Accounted other s →
      Accounted other (PooledChat.exec crypto createdAt op s).2 := by
    intro other hOther
    refine ⟨execTables_accounts hSpec h, fun account hMem => ?_⟩
    obtain ⟨row, hRow, hIs⟩ := hOther.met account hMem
    exact ⟨row, execTables_rows op s row hRow, hIs⟩
  refine ⟨?_, hStable⟩
  cases op with
  | findByConnection c =>
      cases hFind : s.sessions.findByConnection c with
      | none => exact ⟨k, by rw [PooledChat.exec, hFind]; exact hSpec.1, h⟩
      | some session =>
          obtain ⟨row, hRow, hId, hName⟩ := h.sessions.account session.userId session
            (h.sessions.consistent.findByConnection_iff.mp hFind).1
          have hMeet := h.meet hRow
          rw [hId, hName] at hMeet
          exact ⟨_, by rw [PooledChat.exec, hFind]; exact hSpec.2 session, hMeet⟩
  | verifyLogin n p =>
      cases hVerify : s.users.verifyLogin crypto {} n p with
      | none => exact ⟨k, by rw [PooledChat.exec, hVerify]; exact hSpec.1, h⟩
      | some user =>
          exact ⟨_, by rw [PooledChat.exec, hVerify]; exact hSpec.2 user,
            h.meet (PooledUserStore.verifyLogin_mem hVerify)⟩
  | bind _ => exact ⟨k, hSpec.2, hStable k h⟩
  | append _ | createGroup _ _ | joinGroup _ _ => exact ⟨k, hSpec.2 _, hStable k h⟩
  | _ => exact ⟨k, hSpec _, hStable k h⟩

/-- The members of the table, among the known users. -/
theorem RefinesTables.stands (h : RefinesTables createdAt s a) :
    Stands (fun _ => true) s.members a.members :=
  ⟨h.members, fun _ _ => rfl⟩

theorem succeeds : GroupMemberIo.Succeeds {} := ⟨rfl, rfl, by simp⟩

/-- Joining on the table, for a user that has a row. -/
theorem RefinesTables.joinGroup (h : RefinesTables createdAt s a) (hAccounted : Accounted k s)
    {u : Nat} (hHas : k.Has u) (g : Nat) :
    (s.members.joinGroup s.known {} g u).1 = .ok (decide ((g, u) ∈ a.members)) ∧
      RefinesTables createdAt { s with members := (s.members.joinGroup s.known {} g u).2 }
        { a with members := insert (g, u) a.members } := by
  rw [MembersTable.joinGroup_eq rfl, hAccounted.known hHas, decide_eq_decide.mpr (h.members _)]
  refine ⟨by rw [Bool.not_true, Bool.or_false], h.accounts, h.nextId, h.salts, h.online, h.groups,
    ?_, h.messages, h.nextMessageId, h.bodies⟩
  intro row
  show row ∈ (s.members.insertIgnore s.known g u).2.rows ↔ row ∈ insert (g, u) a.members
  rw [MembersTable.mem_insertIgnore, h.members, hAccounted.known hHas, Finset.mem_insert]
  simp [or_comm]

/-- Leaving on the table. -/
theorem RefinesTables.leaveGroup (h : RefinesTables createdAt s a) (g u : Nat) :
    (s.members.leaveGroup {} g u).1 =
        (if (g, u) ∈ a.members then .ok () else .error (ascii "not a member of this group")) ∧
      RefinesTables createdAt { s with members := (s.members.leaveGroup {} g u).2 }
        { a with members := a.members.erase (g, u) } := by
  rw [MembersTable.leaveGroup_eq rfl]
  refine ⟨by simp only [h.members], h.accounts, h.nextId, h.salts, h.online, h.groups, ?_,
    h.messages, h.nextMessageId, h.bodies⟩
  intro row
  show row ∈ (s.members.delete g u).2.rows ↔ row ∈ a.members.erase (g, u)
  rw [MembersTable.mem_delete, h.members, Finset.mem_erase]

/-- Creating a group on the table, for an owner that has a row and a name that fits. -/
theorem RefinesTables.createGroup (h : RefinesTables createdAt s a) (hAccounted : Accounted k s)
    {n : Bytes} {u : Nat} (hName : characters n ≤ kNameCharacters) (hHas : k.Has u) :
    (s.groups.createGroup s.known {} n u).1 =
        ((AbstractChat.exec crypto (onTables collation createdAt) (.createGroup n u) a).1 :
          Except Bytes GroupRecord) ∧
      RefinesTables createdAt { s with groups := (s.groups.createGroup s.known {} n u).2 }
        (AbstractChat.exec crypto (onTables collation createdAt) (.createGroup n u) a).2 := by
  rw [GroupsTable.createGroup, AbstractChat.exec]
  cases n with
  | nil => exact ⟨rfl, h⟩
  | cons b rest =>
      have hInserts : (true && fitsName (b :: rest) && s.known u) = true := by
        rw [fitsName_of_le hName, hAccounted.known hHas]
        rfl
      simp only [List.isEmpty_cons, Bool.false_eq_true, if_false, Bool.not_true, hInserts, if_true,
        reduceCtorEq]
      refine ⟨by rw [h.groups], h.accounts, h.nextId, h.salts, h.online, ?_, h.members,
        h.messages, h.nextMessageId, h.bodies⟩
      exact congrArg (· + 1) h.groups

/-- A call on the tables returns what the abstract one returns, and they remain related. -/
theorem execTables_refines (h : RefinesTables createdAt s a) {op : ServiceCall}
    {q : op.Result → Met → Prop} (hSpec : tableSpec op k q) (hAccounted : Accounted k s) :
    (PooledChat.exec crypto createdAt op s).1 =
        (AbstractChat.exec crypto (onTables collation createdAt) op a).1 ∧
      RefinesTables createdAt (PooledChat.exec crypto createdAt op s).2
        (AbstractChat.exec crypto (onTables collation createdAt) op a).2 := by
  have hConsistent := hAccounted.sessions.consistent
  have hNamed := hAccounted.sessions.named
  -- calls on the sessions leave the tables alone
  have hOnline : ∀ {m online}, Online m online →
      RefinesTables createdAt { s with sessions := m } { a with online := online } :=
    fun hSessions => ⟨h.accounts, h.nextId, h.salts, hSessions, h.groups, h.members, h.messages,
      h.nextMessageId, h.bodies⟩
  cases op with
  | findByConnection c => exact ⟨h.online.findByConnection_eq hConsistent c, h⟩
  | isUsernameOnline n => exact ⟨h.online.isUsernameOnline_eq hConsistent hNamed n, h⟩
  | find u => exact ⟨h.online.find_eq hConsistent u, h⟩
  | findByUsername n => exact ⟨h.online.findByUsername_eq hConsistent hNamed n, h⟩
  | bind session => exact ⟨rfl, hOnline (h.online.bind hConsistent session)⟩
  | unbindConnection c => exact ⟨rfl, hOnline (h.online.unbindConnection hConsistent c)⟩
  | sessionJoinGroup g u => exact ⟨rfl, hOnline h.online⟩
  | sessionLeaveGroup g u => exact ⟨rfl, hOnline (h.online.leaveGroup g u)⟩
  | registerUser n p => exact h.registerUser n p
  | verifyLogin n p =>
      refine ⟨?_, h⟩
      show s.users.verifyLogin crypto {} n p = (a.account _ n).filter _
      rw [PooledUserStore.verifyLogin, h.account_eq]
      cases a.account (onTables collation createdAt) n <;> rfl
  | findUserById u => exact ⟨h.findUserById_eq u, h⟩
  | findUserByUsername n => exact ⟨h.account_eq n, h⟩
  | createGroup n u => exact h.createGroup hAccounted hSpec.1.1 hSpec.1.2
  | joinGroup g u => exact h.joinGroup hAccounted hSpec.1 g
  | leaveGroup g u =>
      obtain ⟨hAnswer, hLeft⟩ := h.leaveGroup g u
      rw [PooledChat.exec, AbstractChat.exec]
      by_cases hMember : (g, u) ∈ a.members
      · rw [if_pos hMember] at hAnswer ⊢
        exact ⟨hAnswer, hLeft⟩
      · rw [if_neg hMember] at hAnswer ⊢
        rw [Finset.erase_eq_of_notMem hMember] at hLeft
        exact ⟨hAnswer, hLeft⟩
  | isGroupMember g u =>
      refine ⟨?_, h⟩
      have hMember := h.stands.shows.isMember_iff {} g u succeeds
      exact Bool.eq_iff_iff.mpr (hMember.trans decide_eq_true_iff.symm)
  | loadGroupMembers g =>
      exact ⟨((h.stands.shows.members {} g).whole succeeds).unique
        (AbstractChat.ascendingListOf_membersOf _ g), h⟩
  | loadUserGroups u =>
      exact ⟨((h.stands.shows.groups {} u).whole succeeds).unique
        (AbstractChat.ascendingListOf_groupsOf _ u), h⟩
  | append m => exact h.append hSpec.1
  | directHistoryPage u p l b => exact ⟨h.directHistoryPage_eq u p l b, h⟩
  | groupHistoryPage g l b => exact ⟨h.groupHistoryPage_eq g l b, h⟩
  | unreadPage u gs k l => exact ⟨h.unreadPage_eq u gs k l, h⟩

/-- The service over its tables and over `AbstractChat`, for every call a request may make. -/
theorem tables_simulate (crypto : Crypto) (collation : Collation) (createdAt : Nat → Bytes) :
    Simulates tableSpec (fun k (s : PooledChat collation) => Accounted k s)
      (PooledChat.exec crypto createdAt)
      (AbstractChat.exec crypto (onTables collation createdAt)) (RefinesTables createdAt) where
  answers := fun _ _ _ _ _ hSpec hAccounted h => (execTables_refines h hSpec hAccounted).1
  related := fun _ _ _ _ _ hSpec hAccounted h => (execTables_refines h hSpec hAccounted).2
  learned := fun _ _ _ _ hSpec hAccounted => (execTables_accounted hSpec hAccounted).1
  stable := fun _ _ _ _ hSpec hAccounted => (execTables_accounted hSpec hAccounted).2

/-! ## What requests need -/

/-- Calls that need nothing to be known. -/
def Free : ServiceCall → Prop
  | .bind _ | .append _ | .createGroup _ _ | .joinGroup _ _ => False
  | _ => True

/-- From here on the request makes the calls it may make. -/
abbrev Allowed (p : Service (List OutboundMessage)) (k : Met) : Prop :=
  p.Wp tableSpec (fun _ _ => True) k

/-- A program whose calls are all allowed anywhere. -/
theorem allowed_free {p : Service (List OutboundMessage)} : ∀ {k : Met}, p.Uses Free →
    Allowed p k := by
  induction p with
  | done out => exact fun _ => trivial
  | call op next ih =>
      intro k hUses
      cases op with
      | findByConnection c => exact ⟨ih _ (hUses.2 _), fun session => ih _ (hUses.2 _)⟩
      | verifyLogin n p => exact ⟨ih _ (hUses.2 _), fun user => ih _ (hUses.2 _)⟩
      | bind _ | append _ | createGroup _ _ | joinGroup _ _ => exact hUses.1.elim
      | _ => exact fun r => ih r (hUses.2 r)

theorem free_of_readOnly (op : ServiceCall) (h : op.ReadOnly) : Free op := by
  cases op <;> first | exact h.elim | trivial

variable {c : Nat} {sender : Session} {command : ClientCommand}

theorem allowed_login : Allowed (handleLogin c command) k := by
  refine Prog.Wp.perform ⟨?_, fun session => trivial⟩
  refine Prog.Wp.perform fun online => Prog.Wp.ite trivial (Prog.Wp.perform ⟨trivial, ?_⟩)
  exact fun user => ⟨List.mem_cons_self, trivial⟩

theorem allowed_directChat (hBody : command.body.length ≤ kTextBytes) :
    Allowed (handleDirectChat c sender command) k := by
  refine Prog.Wp.perform fun receiver => ?_
  cases receiver with
  | none => trivial
  | some receiver =>
      refine Prog.Wp.perform ⟨hBody, fun stored => Prog.Wp.perform fun session => ?_⟩
      cases session <;> trivial

theorem allowed_groupChat (hBody : command.body.length ≤ kTextBytes) :
    Allowed (handleGroupChat c sender command) k := by
  refine Prog.Wp.perform fun isMember => Prog.Wp.ite trivial (Prog.Wp.perform ⟨hBody, ?_⟩)
  refine fun stored => Prog.Wp.perform fun members => allowed_free ?_
  refine Prog.Uses.bind ((pushToMembers_readOnly _ _ _).mono free_of_readOnly) fun copies => ?_
  trivial

theorem allowed_createGroup (hName : characters command.groupName ≤ kNameCharacters)
    (hSender : k.Has sender.userId) : Allowed (handleCreateGroup c sender command) k := by
  refine Prog.Wp.perform ⟨⟨hName, hSender⟩, fun created => ?_⟩
  cases created with
  | error reason => trivial
  | ok group =>
      refine Prog.Wp.perform ⟨hSender, fun joined => ?_⟩
      cases joined with
      | error reason => trivial
      | ok already => exact fun _ => trivial

theorem allowed_groupJoin (hSender : k.Has sender.userId) :
    Allowed (handleGroupJoin c sender command) k := by
  refine Prog.Wp.perform ⟨hSender, fun joined => ?_⟩
  cases joined with
  | error reason => trivial
  | ok already => exact fun _ => trivial

/-- The other commands make no call that needs anything. -/
theorem free_of_madeFor (hLogin : command.type ≠ .login) (hDirect : command.type ≠ .directChat)
    (hGroup : command.type ≠ .groupChat) (hCreate : command.type ≠ .createGroup)
    (hJoin : command.type ≠ .groupJoin) (op : ServiceCall) (h : op.MadeFor c command) :
    Free op := by
  cases op with
  | bind session => exact absurd h.1 hLogin
  | append m =>
      exact h.2.2.elim (fun hType => absurd hType hDirect) fun hType => absurd hType.1 hGroup
  | createGroup n u => exact absurd h.1 hCreate
  | joinGroup g u =>
      exact h.elim (fun hType => absurd hType hCreate) fun hType => absurd hType.1 hJoin
  | _ => trivial

/-- The commands that need a session, when their texts fit the columns. -/
theorem allowed_session (hLogin : command.type ≠ .login) (hBody : command.body.length ≤ kTextBytes)
    (hName : characters command.groupName ≤ kNameCharacters) (hSender : k.Has sender.userId) :
    Allowed (handleSession c sender command) k := by
  by_cases hDirect : command.type = .directChat
  · simp only [handleSession, hDirect]
    exact allowed_directChat hBody
  by_cases hGroup : command.type = .groupChat
  · simp only [handleSession, hGroup]
    exact allowed_groupChat hBody
  by_cases hCreate : command.type = .createGroup
  · simp only [handleSession, hCreate]
    exact allowed_createGroup hName hSender
  by_cases hJoin : command.type = .groupJoin
  · simp only [handleSession, hJoin]
    exact allowed_groupJoin hSender
  exact allowed_free ((handleSession_uses c sender command).mono
    (free_of_madeFor hLogin hDirect hGroup hCreate hJoin))

/-- Requests make the calls they may make. -/
theorem allowed_clientLine {payload : Bytes} (h : (TableRequest.line c payload).Fits) :
    Allowed (handleClientLine c payload) k := by
  unfold handleClientLine
  split
  · trivial
  · rename_i command hParse
    obtain ⟨hBody, hName⟩ := h command hParse
    unfold handleCommand
    split
    · trivial
    · rename_i hRegister
      refine allowed_free ((handleRegister_uses hRegister).mono ?_)
      apply free_of_madeFor <;> simp [hRegister]
    · exact allowed_login
    · rename_i hLogin
      refine Prog.Wp.perform ⟨trivial, fun sender => ?_⟩
      exact allowed_session hLogin hBody hName ⟨_, List.mem_cons_self⟩

/-! ## Runs -/

/-- Sessions and accounts, and what the abstract service has. -/
structure AtSamePoint (createdAt : Nat → Bytes) (s : PooledChat collation) (a : AbstractChat) :
    Prop where
  accounted : Accounted [] s
  refines : RefinesTables createdAt s a

/-- The server process was started again. -/
def AbstractChat.restart (a : AbstractChat) : AbstractChat := { a with online := [] }

/-- After a restart both have lost their sessions, and nothing else. -/
theorem AtSamePoint.restart (h : AtSamePoint createdAt s a) :
    AtSamePoint createdAt s.restart (AbstractChat.restart a) where
  accounted := by
    refine ⟨⟨.empty, .empty, ?_⟩, by simp⟩
    intro u session hFind
    simp [PooledChat.restart, SessionManager.find] at hFind
  refines :=
    { h.refines with
      online := by
        intro session
        simp [PooledChat.restart, AbstractChat.restart, SessionManager.find] }

/-- A request is answered alike. -/
theorem AtSamePoint.serve (h : AtSamePoint createdAt s a) {request : TableRequest}
    (hFits : request.Fits) :
    (serve (PooledChat.exec crypto createdAt) PooledChat.restart s request).1 =
        (serve (AbstractChat.exec crypto (onTables collation createdAt)) AbstractChat.restart a
          request).1 ∧
      AtSamePoint createdAt
        (serve (PooledChat.exec crypto createdAt) PooledChat.restart s request).2
        (serve (AbstractChat.exec crypto (onTables collation createdAt)) AbstractChat.restart a
          request).2 := by
  have hSim := tables_simulate crypto collation createdAt
  have hNothing : ∀ {k : Met} {s : PooledChat collation}, Accounted k s → Accounted [] s :=
    fun hAccounted => ⟨hAccounted.sessions, by simp⟩
  cases request with
  | line c payload =>
      obtain ⟨hReplies, hRefines, k', hAccounted⟩ :=
        hSim.run _ (allowed_clientLine hFits) h.accounted h.refines
      exact ⟨hReplies, hNothing hAccounted, hRefines⟩
  | disconnect c =>
      have hAllowed : (handleDisconnect c).Wp tableSpec (fun _ _ => True) [] := fun _ => trivial
      obtain ⟨-, hRefines, k', hAccounted⟩ := hSim.run _ hAllowed h.accounted h.refines
      exact ⟨rfl, hNothing hAccounted, hRefines⟩
  | restart => exact ⟨rfl, h.restart⟩

/-- The replies to requests that fit the tables, over a service with empty tables: whatever
the collation and the time stamps, and however often the server is started again, they are
those of `AbstractChat`. -/
theorem tables_refine (crypto : Crypto) (collation : Collation) (createdAt : Nat → Bytes)
    (requests : List TableRequest) (hFits : ∀ request ∈ requests, request.Fits) :
    (answers (serve (PooledChat.exec crypto createdAt) PooledChat.restart)
        ({} : PooledChat collation) requests).1 =
      (answers (serve (AbstractChat.exec crypto (onTables collation createdAt))
        AbstractChat.restart) {} requests).1 := by
  have hStep : ∀ (s : PooledChat collation) a (request : TableRequest), request.Fits →
      AtSamePoint createdAt s a →
        (serve (PooledChat.exec crypto createdAt) PooledChat.restart s request).1 =
            (serve (AbstractChat.exec crypto (onTables collation createdAt)) AbstractChat.restart
              a request).1 ∧
          AtSamePoint createdAt
            (serve (PooledChat.exec crypto createdAt) PooledChat.restart s request).2
            (serve (AbstractChat.exec crypto (onTables collation createdAt)) AbstractChat.restart
              a request).2 :=
    fun s a request hFits h => h.serve hFits
  have hInit : AtSamePoint createdAt ({} : PooledChat collation) {} := by
    refine ⟨⟨⟨.empty, .empty, ?_⟩, by simp⟩, .empty⟩
    intro u session hFind
    simp [SessionManager.find] at hFind
  exact (answers_simulation_of_forall hStep requests hFits _ _ hInit).1

/-- Alice writes to Bob, whom she calls BOB; the server is started again, and Bob asks for
what he has not seen. -/
def bobReturns : List TableRequest :=
  [.line 1 (registerLine "alice"), .line 1 (registerLine "bob"), .line 1 (loginLine "alice"),
    .line 1 (dmLine (ascii "BOB") (ascii "hi")), .restart, .line 3 (loginLine "bob"),
    .line 3 (unreadLine 10 0)]

/-- Bob gets the message, with the time it was stored at. -/
theorem tables_refine_bobReturns :
    let replies := (answers (serve (PooledChat.exec sampleCrypto decimal) PooledChat.restart)
      ({} : PooledChat caseInsensitive) bobReturns).1
    replies = (answers (serve (AbstractChat.exec sampleCrypto (onTables caseInsensitive decimal))
        AbstractChat.restart) {} bobReturns).1 ∧
      replies.getLast? =
        some [{ connectionId := 3
                response := .historyItem 1 (ascii "dm") (ascii "alice") (ascii "bob")
                  (ascii "hi") (decimal 1) },
              { connectionId := 3, response := .unreadEnd false 1 }] :=
  ⟨tables_refine sampleCrypto caseInsensitive decimal bobReturns (by decide +kernel),
    by decide +kernel⟩

end CppChat.Ports.Tables
