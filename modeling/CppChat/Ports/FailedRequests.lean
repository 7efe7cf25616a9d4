import CppChat.Ports.ChatRuns
import CppChat.Ports.ServedRequests

/-!
# What a failed request leaves behind

With MySQL behind the stores any call to a store can fail: the pool has no
connection, or the statement fails.  The call then reports the failure and has
no effect.  `execWith` runs the service's calls under a pattern of such
failures, one choice for every call of a request.

Eleven of the twelve commands are atomic: when the requester is told that the
request has failed, nothing has changed.  `create_group` is not, because it
makes two changes in two stores and does not take the first one back.

## Main results

* `handleCommand_clean`: no other command reports a failure after a change.
* `createGroup_failedJoin`: the group that stays when joining it fails.
* `failed_clean_iff`: a request leaves nothing behind exactly when it is not a
  `create_group` whose second call fails after the first has succeeded.
-/

namespace CppChat.Ports.Chat

open CppChat.Verified
open CppChat.Verified.AtomicProgram
open CppChat.Ports.Protocol
open CppChat.Ports.Sessions
open CppChat.Ports.Users
open CppChat.Ports.Groups
open CppChat.Ports.Messages

/-! ## Calls that fail -/

/-- What `register_user` reports without a database: its own checks come first. -/
def registerFailure (username password : Bytes) : Bytes :=
  if username.isEmpty || password.isEmpty then ascii "username and password are required"
  else if username.length > 64 then ascii "username too long"
  else ascii "database error"

/-- What `create_group` reports without a database. -/
def createGroupFailure (name : Bytes) : Bytes :=
  if name.isEmpty then ascii "group name is required" else ascii "database error"

/-- What a call to a store returns when it fails.  The session manager has no
database, and `append` never reports a failure. -/
def ServiceCall.failure : (op : ServiceCall) → Option op.Result
  | .registerUser username password => some (.error (registerFailure username password))
  | .verifyLogin _ _ => some none
  | .findUserById _ => some none
  | .findUserByUsername _ => some none
  | .createGroup name _ => some (.error (createGroupFailure name))
  | .joinGroup _ _ => some (.error (ascii "database error"))
  | .leaveGroup _ _ => some (.error (ascii "database error"))
  | .isGroupMember _ _ => some false
  | .loadGroupMembers _ => some []
  | .loadUserGroups _ => some []
  | .directHistoryPage _ _ _ _ => some []
  | .groupHistoryPage _ _ _ => some []
  | .unreadPage _ _ _ _ => some []
  | _ => none

/-- The service state, and the number of calls the request has made. -/
structure FaultState where
  chat : ChatState
  calls : Nat := 0

/-- The calls of a request, where the `n`-th call fails if `faults n` says so and
it can. -/
def ServiceCall.execWith (crypto : Crypto) (faults : Nat → Bool) (op : ServiceCall)
    (s : FaultState) : op.Result × FaultState :=
  match if faults s.calls then op.failure else none with
  | some result => (result, { s with calls := s.calls + 1 })
  | none =>
      ((op.exec crypto s.chat).1, { chat := (op.exec crypto s.chat).2, calls := s.calls + 1 })

/-- One request under a pattern of failures. -/
def handleLineWith (crypto : Crypto) (faults : Nat → Bool) (s : ChatState) (c : Nat)
    (line : Bytes) : List OutboundMessage × ChatState :=
  let (out, s') := (handleClientLine c line).run (ServiceCall.execWith crypto faults) { chat := s }
  (out, s'.chat)

/-! ## The property -/

/-- A reply of type `error`, `register_failed` or `login_failed`. -/
def isFailure : Response → Bool
  | .error _ => true
  | .registerFailed _ => true
  | .loginFailed _ => true
  | _ => false

/-- The same sessions, messages, groups, members and accounts. -/
structure SameStores (s s' : ChatState) : Prop where
  sessions : s'.sessions = s.sessions
  messages : s'.messages = s.messages
  groups : s'.groups = s.groups
  members : s'.members = s.members
  usersByUsername : s'.users.usersByUsername = s.users.usersByUsername
  usernamesById : s'.users.usernamesById = s.users.usernamesById
  nextMemoryId : s'.users.nextMemoryId = s.users.nextMemoryId

theorem SameStores.refl (s : ChatState) : SameStores s s :=
  ⟨rfl, rfl, rfl, rfl, rfl, rfl, rfl⟩

/-- One step after the other. -/
theorem SameStores.trans {s₁ s₂ s₃ : ChatState} (h : SameStores s₁ s₂)
    (h' : SameStores s₂ s₃) : SameStores s₁ s₃ where
  sessions := h'.sessions.trans h.sessions
  messages := h'.messages.trans h.messages
  groups := h'.groups.trans h.groups
  members := h'.members.trans h.members
  usersByUsername := h'.usersByUsername.trans h.usersByUsername
  usernamesById := h'.usernamesById.trans h.usernamesById
  nextMemoryId := h'.nextMemoryId.trans h.nextMemoryId

/-- A failure reported to the requester: nothing has changed and nobody else gets
a reply. -/
def FailsClean (c : Nat) (s : ChatState) (result : List OutboundMessage × ChatState) : Prop :=
  (∃ message ∈ result.1, message.connectionId = c ∧ isFailure message.response = true) →
    SameStores s result.2 ∧ ∀ message ∈ result.1, message.connectionId = c

/-- The request creates a group that nobody can join: the second call, which
inserts the group, succeeds, and the third, which adds the creator, fails. -/
def orphansGroup (s : ChatState) (c : Nat) (payload : Bytes) (faults : Nat → Bool) : Bool :=
  match parseClientCommand payload with
  | .error _ => false
  | .ok command =>
      decide (command.type = .createGroup) && (s.sessions.findByConnection c).isSome &&
        !command.groupName.isEmpty && !faults 1 && faults 2

/-! ## Which calls change something -/

/-- A call with this result may have changed the state. -/
def ServiceCall.changes : (op : ServiceCall) → op.Result → Bool
  | .bind _, _ => true
  | .unbindConnection _, _ => true
  | .sessionJoinGroup _ _, _ => true
  | .sessionLeaveGroup _ _, _ => true
  | .registerUser _ _, r => Except.isOk r
  | .createGroup _ _, r => Except.isOk r
  | .joinGroup _ _, r => Except.isOk r
  | .leaveGroup _ _, r => Except.isOk r
  | .append _, _ => true
  | _, _ => false

/-- Reading is no change. -/
theorem changes_of_readOnly {op : ServiceCall} (h : op.ReadOnly) (r : op.Result) :
    op.changes r = false := by
  cases op <;> first | rfl | exact h.elim

/-- A call that reports a failure has changed nothing. -/
theorem exec_sameStores {crypto : Crypto} {op : ServiceCall} {s : ChatState}
    (h : op.changes (op.exec crypto s).1 = false) : SameStores s (op.exec crypto s).2 := by
  cases op with
  | registerUser username password =>
      rcases UserStore.registerUser_cases crypto s.users username password with
        ⟨reason, calls, hEq⟩ | ⟨hash, -, hEq⟩
      · rw [ServiceCall.exec, hEq]
        exact ⟨rfl, rfl, rfl, rfl, rfl, rfl, rfl⟩
      · rw [ServiceCall.exec, hEq] at h
        contradiction
  | createGroup name ownerId =>
      rw [ServiceCall.exec] at h ⊢
      unfold GroupStore.createGroup at h ⊢
      by_cases hName : name.isEmpty
      · rw [if_pos hName]
        exact SameStores.refl s
      · rw [if_neg hName] at h
        contradiction
  | joinGroup groupId userId => contradiction
  | leaveGroup groupId userId =>
      have hNot : ¬s.members.isGroupMember groupId userId := by
        intro hMember
        have hOk : (s.members.leaveGroup groupId userId).1 = .ok () := by
          rw [GroupMemberStore.leaveGroup_fst, if_pos hMember]
        rw [ServiceCall.exec, hOk] at h
        contradiction
      rw [ServiceCall.exec, GroupMemberStore.leaveGroup_of_not_member hNot]
      exact SameStores.refl s
  | bind session => contradiction
  | unbindConnection c => contradiction
  | sessionJoinGroup groupId userId => contradiction
  | sessionLeaveGroup groupId userId => contradiction
  | append message => contradiction
  | _ => exact SameStores.refl s

/-! ## Programs that report a failure before they change anything -/

/-- What is known of a request that runs: whether a call may have changed
something. -/
def changeSpec (op : ServiceCall) (changed : Bool) (q : op.Result → Bool → Prop) : Prop :=
  ∀ r, q r (changed || op.changes r)

/-- A failure is reported only while nothing has changed, and to nobody else. -/
def cleanPost (c : Nat) (out : List OutboundMessage) (changed : Bool) : Prop :=
  (∃ message ∈ out, message.connectionId = c ∧ isFailure message.response = true) →
    changed = false ∧ ∀ message ∈ out, message.connectionId = c

/-- The handler keeps the promise of a failed request: it has changed nothing when
it answers with an error. -/
abbrev Clean (c : Nat) (p : Service (List OutboundMessage)) (changed : Bool) : Prop :=
  p.Wp changeSpec (cleanPost c) changed

variable {crypto : Crypto} {c : Nat} {sender : Session} {command : ClientCommand}

/-- Before any change the state is that of the start. -/
def UntilChanged (s₀ : ChatState) (changed : Bool) (s : FaultState) : Prop :=
  changed = false → SameStores s₀ s.chat

/-- With or without a failure, a call that is not noted as a change is none. -/
theorem execWith_untilChanged {faults : Nat → Bool} {s₀ : ChatState} (op : ServiceCall)
    (changed : Bool) (s : FaultState) (q : op.Result → Bool → Prop)
    (hSpec : changeSpec op changed q) (h : UntilChanged s₀ changed s) :
    ∃ changed', q (op.execWith crypto faults s).1 changed' ∧
      UntilChanged s₀ changed' (op.execWith crypto faults s).2 := by
  refine ⟨changed || op.changes (op.execWith crypto faults s).1, hSpec _, ?_⟩
  intro hClean
  obtain ⟨hBefore, hCall⟩ := Bool.or_eq_false_iff.mp hClean
  have hSame := h hBefore
  unfold ServiceCall.execWith at hCall ⊢
  cases hFail : (if faults s.calls then op.failure else none) with
  | some result => exact hSame
  | none =>
      rw [hFail] at hCall
      exact hSame.trans (exec_sameStores hCall)

/-- A clean program fails clean under every pattern of failures. -/
theorem failsClean_of_clean {faults : Nat → Bool} {p : Service (List OutboundMessage)}
    (hClean : Clean c p false) (s : ChatState) (n : Nat) :
    FailsClean c s ((p.run (ServiceCall.execWith crypto faults) { chat := s, calls := n }).1,
      (p.run (ServiceCall.execWith crypto faults) { chat := s, calls := n }).2.chat) := by
  have hStart : UntilChanged s false { chat := s, calls := n } := fun _ => SameStores.refl s
  obtain ⟨changed, hPost, hHolds⟩ := Prog.run_wp (@execWith_untilChanged crypto faults s) p
    false { chat := s, calls := n } hClean hStart
  intro hFailure
  obtain ⟨hChanged, hOnly⟩ := hPost hFailure
  exact ⟨hHolds hChanged, hOnly⟩

/-- One reply, and nothing changed. -/
theorem cleanPost_reply (c : Nat) (response : Response) :
    cleanPost c (reply c response) false := by
  intro _
  refine ⟨rfl, ?_⟩
  intro message hMem
  rw [List.mem_singleton.mp hMem]

/-- Replies without a failure are clean at any time. -/
theorem cleanPost_of_noFailure {out : List OutboundMessage}
    (h : ∀ message ∈ out, isFailure message.response = false) (changed : Bool) :
    cleanPost c out changed := by
  rintro ⟨message, hMem, -, hFailure⟩
  rw [h message hMem] at hFailure
  contradiction

theorem noFailure_reply {response : Response} (h : isFailure response = false) (c : Nat) :
    ∀ message ∈ reply c response, isFailure message.response = false := by
  intro message hMem
  rw [List.mem_singleton.mp hMem]
  exact h

/-- A request that is not answered with a failure may change anything. -/
theorem clean_of_noFailure {p : Service (List OutboundMessage)}
    (h : p.Returns fun out => ∀ message ∈ out, isFailure message.response = false) :
    ∀ changed, Clean c p changed := by
  induction p with
  | done out => exact cleanPost_of_noFailure h
  | call op next ih => exact fun changed r => ih r (h r) _

/-- A program that only reads has to answer the requester alone. -/
theorem clean_of_readOnly {p : Service (List OutboundMessage)}
    (hUses : p.Uses ServiceCall.ReadOnly)
    (hReturns : p.Returns fun out => ∀ message ∈ out, message.connectionId = c) :
    Clean c p false := by
  induction p with
  | done out => exact fun _ => ⟨rfl, hReturns⟩
  | call op next ih =>
      intro r
      rw [changes_of_readOnly hUses.1]
      exact ih r (hUses.2 r) (hReturns r)

/-- A call that only reads comes before any failure. -/
theorem clean_read {op : ServiceCall} {f : op.Result → Service (List OutboundMessage)}
    (hRead : op.ReadOnly) (hf : ∀ r, Clean c (f r) false) :
    Clean c (perform op >>= f) false := by
  intro r
  rw [changes_of_readOnly hRead]
  exact hf r

/-! ## The commands -/

/-- The requester's own replies. -/
theorem reply_own (c : Nat) (response : Response) :
    ∀ message ∈ reply c response, message.connectionId = c := by
  intro message hMem
  rw [List.mem_singleton.mp hMem]

theorem append_own {out rest : List OutboundMessage}
    (hOut : ∀ message ∈ out, message.connectionId = c)
    (hRest : ∀ message ∈ rest, message.connectionId = c) :
    ∀ message ∈ out ++ rest, message.connectionId = c := by
  intro message hMem
  rcases List.mem_append.mp hMem with h | h
  · exact hOut message h
  · exact hRest message h

/-- `register` changes nothing before it is sure to succeed. -/
theorem handleRegister_clean : Clean c (handleRegister c command) false := by
  refine clean_read trivial fun session => ?_
  apply Prog.Wp.ite
  · exact cleanPost_reply c _
  · intro result
    cases result with
    | error reason => exact cleanPost_reply c _
    | ok userId => exact cleanPost_of_noFailure (noFailure_reply rfl c) _

/-- `login` changes nothing before it is sure to succeed. -/
theorem handleLogin_clean : Clean c (handleLogin c command) false := by
  refine clean_read trivial fun session => ?_
  apply Prog.Wp.ite
  · exact cleanPost_reply c _
  refine clean_read trivial fun online => ?_
  apply Prog.Wp.ite
  · exact cleanPost_reply c _
  refine clean_read trivial fun verified => ?_
  cases verified with
  | none => exact cleanPost_reply c _
  | some user => exact fun _ => cleanPost_of_noFailure (noFailure_reply rfl c) _

theorem handleLogout_clean : Clean c (handleLogout c) false := by
  apply clean_of_noFailure
  intro _ message hMem
  rw [List.mem_singleton.mp hMem]
  rfl

theorem handleGroupJoin_clean : Clean c (handleGroupJoin c sender command) false := by
  intro joined
  cases joined with
  | error reason => exact cleanPost_reply c _
  | ok already => exact fun _ => cleanPost_of_noFailure (noFailure_reply rfl c) _

theorem handleGroupLeave_clean : Clean c (handleGroupLeave c sender command) false := by
  intro left
  cases left with
  | error reason => exact cleanPost_reply c _
  | ok done => exact fun _ => cleanPost_of_noFailure (noFailure_reply rfl c) _

/-- A message that is stored is not answered with a failure. -/
theorem handleGroupChat_clean : Clean c (handleGroupChat c sender command) false := by
  refine clean_read trivial fun isMember => ?_
  apply Prog.Wp.ite
  · exact cleanPost_reply c _
  apply clean_of_noFailure
  intro stored members
  have hPush : ∀ target, isFailure (OutboundMessage.response
      { connectionId := target
        response := .groupMessage command.groupId sender.username command.body }) = false :=
    fun _ => rfl
  apply Prog.Returns.bind
    (@pushToMembers_returns _ (fun message => isFailure message.response = false) hPush _ members)
  intro out hOut message hMem
  rcases List.mem_append.mp hMem with hPush | hAck
  · exact hOut message hPush
  · exact noFailure_reply rfl c message hAck

theorem handleDirectChat_clean : Clean c (handleDirectChat c sender command) false := by
  intro receiver
  cases receiver with
  | none => exact cleanPost_reply c _
  | some receiver =>
      apply clean_of_noFailure
      intro stored session
      cases session with
      | none => exact noFailure_reply rfl c
      | some target => exact List.forall_mem_cons.mpr ⟨rfl, noFailure_reply rfl c⟩

theorem groupHistoryItem_own (message : StoredMessage) :
    (groupHistoryItem c message).Returns fun item => item.connectionId = c :=
  fun _ => rfl

theorem directHistoryItem_own (message : StoredMessage) :
    (directHistoryItem c message).Returns fun item => item.connectionId = c :=
  fun _ _ => rfl

/-- A history changes nothing in any case. -/
theorem handleHistoryQuery_clean : Clean c (handleHistoryQuery c sender command) false := by
  apply clean_of_readOnly (handleHistoryQuery_readOnly c sender command)
  unfold handleHistoryQuery
  apply Prog.Returns.ite
  · intro isMember
    apply Prog.Returns.ite
    · exact reply_own c _
    · intro page
      apply Prog.Returns.bind (historyItems_returns groupHistoryItem_own _)
      intro out hOut
      exact append_own hOut (reply_own c _)
  · intro peer
    cases peer with
    | none => exact reply_own c _
    | some peer =>
        intro page
        apply Prog.Returns.bind (historyItems_returns directHistoryItem_own _)
        intro out hOut
        exact append_own hOut (reply_own c _)

theorem handleUnreadQuery_clean : Clean c (handleUnreadQuery c sender command) false := by
  apply clean_of_readOnly (handleUnreadQuery_readOnly c sender command)
  have hItem : ∀ message, (unreadItem c message).Returns fun item => item.connectionId = c :=
    fun message =>
      Prog.Returns.ite (groupHistoryItem_own message) (directHistoryItem_own message)
  intro groupIds page
  apply Prog.Returns.bind (historyItems_returns hItem _)
  intro out hOut
  exact append_own hOut (reply_own c _)

/-- Every command but one reports its failures before it changes anything. -/
theorem handleCommand_clean (hType : command.type ≠ .createGroup) :
    Clean c (handleCommand c command) false := by
  unfold handleCommand
  split
  case h_1 => exact cleanPost_reply c _
  case h_2 => exact handleRegister_clean
  case h_3 => exact handleLogin_clean
  case h_4 =>
    intro sender
    cases sender with
    | none => exact cleanPost_reply c _
    | some sender =>
        show Clean c (handleSession c sender command) false
        unfold handleSession
        split
        case h_1 => exact handleLogout_clean
        case h_2 h => exact absurd h hType
        case h_3 => exact handleGroupJoin_clean
        case h_4 => exact handleGroupLeave_clean
        case h_5 => exact handleGroupChat_clean
        case h_6 => exact handleHistoryQuery_clean
        case h_7 => exact handleDirectChat_clean
        case h_8 => exact handleUnreadQuery_clean
        case h_9 => exact cleanPost_reply c _

/-! ## The creation of a group -/

/-- A call that is not hit by a failure. -/
theorem execWith_of_ok {faults : Nat → Bool} {n : Nat} (h : faults n = false)
    (op : ServiceCall) (s : ChatState) :
    op.execWith crypto faults { chat := s, calls := n } =
      ((op.exec crypto s).1, { chat := (op.exec crypto s).2, calls := n + 1 }) := by
  simp [ServiceCall.execWith, h]

/-- A call that fails. -/
theorem execWith_of_fault {faults : Nat → Bool} {n : Nat} (h : faults n = true)
    {op : ServiceCall} {result : op.Result} (hFailure : op.failure = some result)
    (s : ChatState) :
    op.execWith crypto faults { chat := s, calls := n } =
      (result, { chat := s, calls := n + 1 }) := by
  simp [ServiceCall.execWith, h, hFailure]

/-- The first call of `create_group` fails: nothing happens. -/
theorem createGroup_refused {faults : Nat → Bool}
    (h : faults 1 = true ∨ command.groupName.isEmpty = true) (s : ChatState) :
    ∃ reason, (handleCreateGroup c sender command).run (ServiceCall.execWith crypto faults)
      { chat := s, calls := 1 } = (reply c (.error reason), { chat := s, calls := 2 }) := by
  cases hFault : faults 1 with
  | true =>
      have hFailed := @execWith_of_fault crypto _ _ hFault
        (.createGroup command.groupName sender.userId) _ rfl s
      exact ⟨createGroupFailure command.groupName, Prog.run_perform hFailed⟩
  | false =>
      have hName : command.groupName.isEmpty = true := by simpa [hFault] using h
      have hExec : ServiceCall.exec crypto (.createGroup command.groupName sender.userId) s =
          (.error (ascii "group name is required"), s) := by
        simp [ServiceCall.exec, GroupStore.createGroup, hName]
      refine ⟨ascii "group name is required", ?_⟩
      refine (Prog.run_perform (execWith_of_ok hFault _ s)).trans ?_
      rw [hExec]
      rfl

/-- The first call of `create_group` succeeds. -/
theorem createGroup_inserted {faults : Nat → Bool} (hCreate : faults 1 = false)
    (hName : command.groupName.isEmpty = false) (s : ChatState) :
    ServiceCall.execWith crypto faults (.createGroup command.groupName sender.userId)
        { chat := s, calls := 1 } =
      (.ok { id := s.groups.nextGroupId, name := command.groupName, ownerId := sender.userId },
        { chat := { s with
            groups := (s.groups.createGroup command.groupName sender.userId).2 }
          calls := 2 }) := by
  refine (execWith_of_ok hCreate _ s).trans ?_
  simp [ServiceCall.exec, GroupStore.createGroup, hName]

/-- The second call of `create_group` fails: the group stays, without a member. -/
theorem createGroup_failedJoin {faults : Nat → Bool} (hCreate : faults 1 = false)
    (hJoin : faults 2 = true) (hName : command.groupName.isEmpty = false) (s : ChatState) :
    (handleCreateGroup c sender command).run (ServiceCall.execWith crypto faults)
        { chat := s, calls := 1 } =
      (reply c (.error (ascii "database error")),
        { chat := { s with
            groups := (s.groups.createGroup command.groupName sender.userId).2 }
          calls := 3 }) := by
  refine (Prog.run_perform (createGroup_inserted hCreate hName s)).trans ?_
  have hFailed := @execWith_of_fault crypto _ _ hJoin
    (.joinGroup s.groups.nextGroupId sender.userId) _ rfl
    { s with groups := (s.groups.createGroup command.groupName sender.userId).2 }
  exact Prog.run_perform hFailed

/-- Neither call fails. -/
theorem createGroup_succeeds {faults : Nat → Bool} (hCreate : faults 1 = false)
    (hJoin : faults 2 = false) (hName : command.groupName.isEmpty = false) (s : ChatState) :
    ((handleCreateGroup c sender command).run (ServiceCall.execWith crypto faults)
      { chat := s, calls := 1 }).1 =
        reply c (.createGroupSuccess s.groups.nextGroupId command.groupName) := by
  have hInsert := @createGroup_inserted crypto sender command faults hCreate hName s
  have hJoined := @execWith_of_ok crypto _ _ hJoin
    (.joinGroup s.groups.nextGroupId sender.userId)
    { s with groups := (s.groups.createGroup command.groupName sender.userId).2 }
  refine (congrArg Prod.fst (Prog.run_perform hInsert)).trans ?_
  exact congrArg Prod.fst (Prog.run_perform hJoined)

/-- A new group is a change. -/
theorem createGroup_ne {name : Bytes} (hName : name.isEmpty = false) (store : GroupStore)
    (ownerId : Nat) : (store.createGroup name ownerId).2 ≠ store := by
  intro h
  have hNext := congrArg GroupStore.nextGroupId h
  simp [GroupStore.createGroup, hName] at hNext

/-- `create_group` fails clean unless its second call fails alone. -/
theorem handleCreateGroup_clean_iff (faults : Nat → Bool) (s : ChatState) :
    FailsClean c s
        (((handleCreateGroup c sender command).run (ServiceCall.execWith crypto faults)
            { chat := s, calls := 1 }).1,
          ((handleCreateGroup c sender command).run (ServiceCall.execWith crypto faults)
            { chat := s, calls := 1 }).2.chat) ↔
      (!command.groupName.isEmpty && !faults 1 && faults 2) = false := by
  by_cases hRefused : faults 1 = true ∨ command.groupName.isEmpty = true
  · obtain ⟨reason, hRun⟩ := @createGroup_refused crypto c sender command faults hRefused s
    rw [hRun]
    refine iff_of_true (fun _ => ⟨SameStores.refl s, reply_own c _⟩) ?_
    rcases hRefused with h | h <;> simp [h]
  · obtain ⟨hCreate, hName⟩ := not_or.mp hRefused
    rw [Bool.not_eq_true] at hCreate hName
    cases hJoin : faults 2 with
    | true =>
        rw [createGroup_failedJoin hCreate hJoin hName s]
        refine iff_of_false ?_ (by simp [hCreate, hName])
        intro hClean
        obtain ⟨hSame, -⟩ := hClean ⟨_, List.mem_singleton_self _, rfl, rfl⟩
        exact createGroup_ne hName _ _ hSame.groups
    | false =>
        refine iff_of_true ?_ (by simp)
        rintro ⟨message, hMem, -, hFailure⟩
        rw [createGroup_succeeds hCreate hJoin hName s] at hMem
        rw [noFailure_reply rfl c message hMem] at hFailure
        contradiction

/-! ## Every request -/

theorem execWith_findByConnection (faults : Nat → Bool) (c : Nat) (s : ChatState) :
    ServiceCall.execWith crypto faults (.findByConnection c) { chat := s } =
      (s.sessions.findByConnection c, { chat := s, calls := 1 }) := by
  unfold ServiceCall.execWith
  cases faults 0 <;> rfl

/-- A `create_group` request looks for the sender first. -/
theorem handleCommand_createGroup (hType : command.type = .createGroup)
    (faults : Nat → Bool) (s : ChatState) :
    (handleCommand c command).run (ServiceCall.execWith crypto faults) { chat := s } =
      match s.sessions.findByConnection c with
      | none => (reply c (.error (ascii "please login first")), { chat := s, calls := 1 })
      | some sender => (handleCreateGroup c sender command).run
          (ServiceCall.execWith crypto faults) { chat := s, calls := 1 } := by
  have hSession : ¬NeedsNoSession command := by simp [NeedsNoSession, hType]
  rw [handleCommand_eq_session hSession]
  refine (Prog.run_perform (execWith_findByConnection faults c s)).trans ?_
  cases s.sessions.findByConnection c with
  | none => rfl
  | some sender =>
      show (handleSession c sender command).run _ _ = _
      unfold handleSession
      rw [hType]

/-- A request whose failure is reported has changed nothing and reached nobody
else, whichever calls failed, unless it has created a group nobody is in. -/
theorem failed_clean_iff (crypto : Crypto) (faults : Nat → Bool) (s : ChatState) (c : Nat)
    (payload : Bytes) :
    FailsClean c s (handleLineWith crypto faults s c payload) ↔
      orphansGroup s c payload faults = false := by
  unfold handleLineWith handleClientLine orphansGroup
  cases hParse : parseClientCommand payload with
  | error reason => exact iff_of_true (fun _ => ⟨SameStores.refl s, reply_own c _⟩) rfl
  | ok command =>
      by_cases hType : command.type = .createGroup
      · have hRun := @handleCommand_createGroup crypto c command hType faults s
        cases hSender : s.sessions.findByConnection c with
        | none =>
            rw [hSender] at hRun
            simp only [hRun]
            exact iff_of_true (fun _ => ⟨SameStores.refl s, reply_own c _⟩) (by simp)
        | some sender =>
            rw [hSender] at hRun
            simp only [hRun]
            rw [handleCreateGroup_clean_iff]
            simp [hType]
      · refine iff_of_true (failsClean_of_clean (handleCommand_clean hType) s 0) ?_
        simp [hType]

/-- The database goes away between the two inserts of `create_group`: the
requester is told "database error", and the group is there. -/
theorem createGroup_orphan :
    let before := serveAll sampleCrypto (enter 1 "alice")
    ¬FailsClean 1 before
      (handleLineWith sampleCrypto (fun n => n == 2) before 1 (createGroupLine "team")) := by
  intro before hClean
  have hReply : (handleLineWith sampleCrypto (fun n => n == 2) before 1
      (createGroupLine "team")).1 = reply 1 (.error (ascii "database error")) := by
    decide +kernel
  have hFailure : ∃ message ∈ (handleLineWith sampleCrypto (fun n => n == 2) before 1
      (createGroupLine "team")).1, message.connectionId = 1 ∧
        isFailure message.response = true := by
    rw [hReply]
    exact ⟨_, List.mem_singleton_self _, rfl, rfl⟩
  have hGroups := congrArg GroupStore.nextGroupId (hClean hFailure).1.groups
  have hBefore : before.groups.nextGroupId = 1 := by decide +kernel
  have hAfter : (handleLineWith sampleCrypto (fun n => n == 2) before 1
      (createGroupLine "team")).2.groups.nextGroupId = 2 := by decide +kernel
  omega

end CppChat.Ports.Chat
