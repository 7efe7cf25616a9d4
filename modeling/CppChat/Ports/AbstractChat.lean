import CppChat.Verified.Interleaving
import CppChat.Ports.DeliveryPromise
import CppChat.Ports.GroupMembership
import Mathlib.Data.Finset.Sort

/-!
# What the service is about

The service keeps sessions in three indexes, accounts in two maps, members in sets by group,
and finds pages by walking over all messages.  None of this is what it is about.
`AbstractChat` is: a list of accounts, a list of sessions, a relation of groups and members,
and a list of messages.  Its calls are said in one line each, by what they look for.  Where
the service in memory and the service on MySQL mean different things by a name, a
conversation or a time, a `Policy` says what is meant.

The service over the stores in memory and the service over `AbstractChat` cannot be told
apart: every interleaving of requests and disconnects gives the same replies.

## Main results

* `exec_answers`: a call of the real stores returns what the abstract one returns.
* `exec_refines`: and they remain related.
* `service_refines`: every schedule of requests has the same replies.
-/

namespace CppChat.Ports.Chat

open CppChat.Verified
open CppChat.Verified.AtomicProgram
open CppChat.Verified.Interleaving
open CppChat.Verified.Transition
open CppChat.Ports.Protocol
open CppChat.Ports.Sessions
open CppChat.Ports.Users
open CppChat.Ports.Groups
open CppChat.Ports.Messages
open CppChat.Ports.Delivery

/-! ## The abstract service -/

/-- Which names are one name to a lookup, which messages are between two users, and the time
stamp of a message. -/
structure Policy where
  sameName : Bytes → Bytes → Bool
  between : Nat → Nat → StoredMessage → Bool
  stamp : Nat → Bytes

/-- In memory names are compared byte by byte, users by their ids, and there are no time
stamps. -/
def Policy.inMemory : Policy where
  sameName := fun a b => a == b
  between := MessageStore.isDirectBetween
  stamp := fun _ => []

/-- Accounts in the order of their ids, the salts drawn so far, who is online, the number of
groups, who is a member of which group, and the messages in the order of their ids. -/
structure AbstractChat where
  accounts : List UserRecord := []
  salts : Nat := 0
  online : List Session := []
  groups : Nat := 0
  members : MemberRelation := ∅
  messages : List Message := []

namespace AbstractChat

/-- The account a name denotes, under the rule that says which names are the same. -/
def account (policy : Policy) (a : AbstractChat) (username : Bytes) : Option UserRecord :=
  a.accounts.find? fun user => policy.sameName user.username username

/-- A new account gets the next number, unless its name is refused or taken. -/
def registerUser (crypto : Crypto) (policy : Policy) (a : AbstractChat)
    (username password : Bytes) : Except Bytes Nat × AbstractChat :=
  if username = [] ∨ password = [] then
    (.error (ascii "username and password are required"), a)
  else if 64 < username.length then (.error (ascii "username too long"), a)
  else if (a.account policy username).isSome then (.error (ascii "username already exists"), a)
  else
    let hash := hashPasswordPbkdf2 crypto a.salts password
    if hash = [] then
      (.error (ascii "failed to hash password"), { a with salts := a.salts + 1 })
    else
      let user : UserRecord :=
        { id := a.accounts.length + 1, username := username, passwordHash := hash }
      (.ok user.id, { a with accounts := a.accounts ++ [user], salts := a.salts + 1 })

/-- A user is online once, and so is a connection: the last one counts. -/
def goOnline (online : List Session) (session : Session) : List Session :=
  session :: online.filter fun other =>
    other.userId ≠ session.userId ∧ other.connectionId ≠ session.connectionId

/-- The sessions that stay when a connection goes away. -/
def goOffline (online : List Session) (connectionId : Nat) : List Session :=
  online.filter fun session => session.connectionId ≠ connectionId

/-- The members of a group, in ascending order. -/
def membersOf (members : MemberRelation) (groupId : Nat) : List Nat :=
  ((members.filter fun p => p.1 = groupId).image Prod.snd).sort

/-- The groups of a user, in ascending order. -/
def groupsOf (members : MemberRelation) (userId : Nat) : List Nat :=
  ((members.filter fun p => p.2 = userId).image Prod.fst).sort

/-- The stored messages, numbered from 1 in the order they came. -/
def numbered (policy : Policy) (a : AbstractChat) : List StoredMessage :=
  a.messages.mapIdx fun index message =>
    { StoredMessage.ofMessage (index + 1) message with createdAt := policy.stamp (index + 1) }

/-- A history page: the newest messages below a cursor, `0` for none. -/
def newest (policy : Policy) (a : AbstractChat) (select : StoredMessage → Bool)
    (limit beforeId : Nat) : List StoredMessage :=
  (((a.numbered policy).filter fun m =>
    (beforeId = 0 ∨ m.id < beforeId) ∧ select m).reverse).take (MessageStore.pageLimit limit)

/-- An unread page: the oldest messages above a cursor. -/
def oldest (policy : Policy) (a : AbstractChat) (select : StoredMessage → Bool)
    (limit lastSeen : Nat) : List StoredMessage :=
  ((a.numbered policy).filter fun m => lastSeen < m.id ∧ select m).take
    (MessageStore.pageLimit limit)

/-- What each call of the service means on the abstract state. -/
def exec (crypto : Crypto) (policy : Policy) :
    (op : ServiceCall) → AbstractChat → op.Result × AbstractChat
  | .findByConnection c, a => (a.online.find? fun session => session.connectionId == c, a)
  | .isUsernameOnline n, a => (a.online.any fun session => session.username == n, a)
  | .bind session, a => ((), { a with online := goOnline a.online session })
  | .unbindConnection c, a => ((), { a with online := goOffline a.online c })
  | .find u, a => (a.online.find? fun session => session.userId == u, a)
  | .findByUsername n, a => (a.online.find? fun session => session.username == n, a)
  | .sessionJoinGroup _ _, a => ((), a)
  | .sessionLeaveGroup _ _, a => ((), a)
  | .registerUser n p, a => a.registerUser crypto policy n p
  | .verifyLogin n p, a =>
      ((a.account policy n).filter fun user => verifyPasswordPbkdf2 crypto p user.passwordHash, a)
  | .findUserById u, a => (a.accounts.find? fun user => user.id == u, a)
  | .findUserByUsername n, a => (a.account policy n, a)
  | .createGroup n u, a =>
      if n = [] then (.error (ascii "group name is required"), a)
      else (.ok { id := a.groups + 1, name := n, ownerId := u }, { a with groups := a.groups + 1 })
  | .joinGroup g u, a =>
      (.ok (decide ((g, u) ∈ a.members)), { a with members := insert (g, u) a.members })
  | .leaveGroup g u, a =>
      if (g, u) ∈ a.members then (.ok (), { a with members := a.members.erase (g, u) })
      else (.error (ascii "not a member of this group"), a)
  | .isGroupMember g u, a => (decide ((g, u) ∈ a.members), a)
  | .loadGroupMembers g, a => (membersOf a.members g, a)
  | .loadUserGroups u, a => (groupsOf a.members u, a)
  | .append m, a =>
      (.ofMessage (a.messages.length + 1) m, { a with messages := a.messages ++ [m] })
  | .directHistoryPage u p l b, a => (a.newest policy (policy.between u p) l b, a)
  | .groupHistoryPage g l b, a => (a.newest policy (MessageStore.isGroupMessageOf g) l b, a)
  | .unreadPage u gs k l, a => (a.oldest policy (MessageStore.isUnreadFor u gs) l k, a)

end AbstractChat

/-- The session manager has the sessions of a list. -/
def Online (m : SessionManager) (online : List Session) : Prop :=
  ∀ session, session ∈ online ↔ m.find session.userId = some session

/-- The stores hold what the abstract service has. -/
structure Refines (s : ChatState) (a : AbstractChat) : Prop where
  accounts : ∀ n user, s.users.findUserByUsername n = some user ↔
    user ∈ a.accounts ∧ user.username = n
  nextId : s.users.nextMemoryId = a.accounts.length + 1
  salts : s.users.saltCalls = a.salts
  online : Online s.sessions a.online
  groups : s.groups.nextGroupId = a.groups + 1
  members : Represents s.members a.members
  messages : s.messages.messages = a.messages

/-- Two services that have just started. -/
theorem Refines.empty : Refines {} {} where
  accounts := by simp [UserStore.findUserByUsername]
  nextId := rfl
  salts := rfl
  online := by simp [Online, SessionManager.find]
  groups := rfl
  members := .empty
  messages := rfl

/-! ## What is found -/

/-- A search with at most one hit. -/
theorem eq_find? {α : Type} {found : Option α} {l : List α} {test : α → Bool}
    (h : ∀ x, found = some x ↔ x ∈ l ∧ test x = true) : found = l.find? test := by
  cases hFind : l.find? test with
  | none =>
      rw [Option.eq_none_iff_forall_ne_some]
      intro x hFound
      obtain ⟨hMem, hTest⟩ := (h x).mp hFound
      exact List.find?_eq_none.mp hFind x hMem hTest
  | some x => exact (h x).mpr ⟨List.mem_of_find?_eq_some hFind, List.find?_some hFind⟩

section Sessions

variable {m : SessionManager} {online : List Session}

theorem Online.find_eq (h : Online m online) (hConsistent : m.Consistent) (u : Nat) :
    m.find u = online.find? fun session => session.userId == u := by
  apply eq_find?
  intro session
  rw [h, beq_iff_eq]
  constructor
  · intro hFind
    have hUser := hConsistent.userId_eq u session hFind
    exact ⟨hUser ▸ hFind, hUser⟩
  · rintro ⟨hFind, hUser⟩
    exact hUser ▸ hFind

theorem Online.findByConnection_eq (h : Online m online) (hConsistent : m.Consistent) (c : Nat) :
    m.findByConnection c = online.find? fun session => session.connectionId == c := by
  apply eq_find?
  intro session
  rw [hConsistent.findByConnection_iff, h, beq_iff_eq]
  exact Iff.rfl

theorem Online.findByUsername_eq (h : Online m online) (hConsistent : m.Consistent)
    (hNamed : m.Named) (n : Bytes) :
    m.findByUsername n = online.find? fun session => session.username == n := by
  apply eq_find?
  intro session
  rw [hNamed.findByUsername_iff hConsistent, h, beq_iff_eq]

theorem Online.isUsernameOnline_eq (h : Online m online) (hConsistent : m.Consistent)
    (hNamed : m.Named) (n : Bytes) :
    m.isUsernameOnline n = online.any fun session => session.username == n := by
  rw [SessionManager.isUsernameOnline, h.findByUsername_eq hConsistent hNamed,
    List.isSome_find?]

/-- `bind` is going online. -/
theorem Online.bind (h : Online m online) (hConsistent : m.Consistent) (session : Session) :
    Online (m.bind session) (AbstractChat.goOnline online session) := by
  intro other
  rw [SessionManager.find, hConsistent.find_bind, AbstractChat.goOnline, List.mem_cons,
    List.mem_filter, h, decide_eq_true_iff]
  by_cases hUser : other.userId = session.userId
  · rw [if_pos hUser]
    constructor
    · rintro (rfl | ⟨-, hOther, -⟩)
      · rfl
      · exact absurd hUser hOther
    · exact fun hEq => Or.inl (Option.some.inj hEq).symm
  · rw [if_neg hUser]
    have hNe : other ≠ session := fun hEq => hUser (congrArg Session.userId hEq)
    split
    · rename_i hOwner
      obtain ⟨owner, hFind, hConnection⟩ := (hConsistent.connection_iff _ _).mp hOwner
      constructor
      · rintro (hEq | ⟨hOther, -, hOff⟩)
        · exact absurd hEq hNe
        · rw [SessionManager.find, hFind] at hOther
          rw [← Option.some.inj hOther] at hOff
          exact absurd hConnection hOff
      · exact fun hNone => by contradiction
    · rename_i hOwner
      constructor
      · rintro (hEq | ⟨hOther, -⟩)
        · exact absurd hEq hNe
        · exact hOther
      · intro hFind
        refine Or.inr ⟨hFind, hUser, fun hConnection => hOwner ?_⟩
        rw [← hConnection]
        exact hConsistent.lookup_connection hFind

/-- `unbind_connection` is going offline. -/
theorem Online.unbindConnection (h : Online m online) (hConsistent : m.Consistent) (c : Nat) :
    Online (m.unbindConnection c) (AbstractChat.goOffline online c) := by
  intro session
  rw [SessionManager.find, SessionManager.sessions_unbindConnection, AbstractChat.goOffline,
    List.mem_filter, h, decide_eq_true_iff]
  split
  · rename_i hOwner
    obtain ⟨owner, hFind, hConnection⟩ := (hConsistent.connection_iff _ _).mp hOwner
    constructor
    · rintro ⟨hSession, hOff⟩
      rw [SessionManager.find, hFind] at hSession
      rw [← Option.some.inj hSession] at hOff
      exact absurd hConnection hOff
    · exact fun hNone => by contradiction
  · rename_i hOwner
    constructor
    · exact And.left
    · intro hFind
      refine ⟨hFind, fun hConnection => hOwner ?_⟩
      rw [← hConnection]
      exact hConsistent.lookup_connection hFind

theorem Online.leaveGroup (h : Online m online) (g u : Nat) : Online (m.leaveGroup g u) online := by
  intro session
  rw [SessionManager.find, SessionManager.sessions_leaveGroup]
  exact h session

end Sessions

/-- The other halves of some pairs, in ascending order. -/
theorem ascendingListOf_image_sort {half : Nat × Nat → Nat} (pairs : Finset (Nat × Nat)) :
    AscendingListOf (fun k => ∃ p ∈ pairs, half p = k) (pairs.image half).sort where
  ascending := (Finset.sortedLT_sort _).pairwise
  mem_iff := fun k => by rw [Finset.mem_sort, Finset.mem_image]

theorem AbstractChat.ascendingListOf_membersOf (members : MemberRelation) (g : Nat) :
    AscendingListOf (fun u => (g, u) ∈ members) (membersOf members g) := by
  refine (ascendingListOf_image_sort _).congr fun u => ?_
  simp only [Finset.mem_filter]
  constructor
  · rintro ⟨p, ⟨hMem, rfl⟩, rfl⟩
    exact hMem
  · exact fun hMem => ⟨(g, u), ⟨hMem, rfl⟩, rfl⟩

theorem AbstractChat.ascendingListOf_groupsOf (members : MemberRelation) (u : Nat) :
    AscendingListOf (fun g => (g, u) ∈ members) (groupsOf members u) := by
  refine (ascendingListOf_image_sort _).congr fun g => ?_
  simp only [Finset.mem_filter]
  constructor
  · rintro ⟨p, ⟨hMem, rfl⟩, rfl⟩
    exact hMem
  · exact fun hMem => ⟨(g, u), ⟨hMem, rfl⟩, rfl⟩

section Answers

variable {s : ChatState} {a : AbstractChat}

/-- Looking a name up finds the same account. -/
theorem Refines.account_eq (h : Refines s a) (n : Bytes) :
    s.users.findUserByUsername n = a.account .inMemory n := by
  apply eq_find?
  intro user
  rw [h.accounts, Policy.inMemory, beq_iff_eq]

theorem Refines.findUserById_eq (h : Refines s a) (hInv : ServiceInv s) (u : Nat) :
    s.users.findUserById u = a.accounts.find? fun user => user.id == u := by
  apply eq_find?
  intro user
  rw [hInv.indexed.findUserById_iff, beq_iff_eq]
  constructor
  · rintro ⟨n, hUser, hId⟩
    exact ⟨((h.accounts n user).mp hUser).1, hId⟩
  · rintro ⟨hMem, hId⟩
    exact ⟨user.username, (h.accounts _ user).mpr ⟨hMem, rfl⟩, hId⟩

/-- Asking for a membership gets the same answer. -/
theorem Refines.isGroupMember_eq (h : Refines s a) (g u : Nat) :
    s.members.isGroupMember g u = decide ((g, u) ∈ a.members) := by
  rw [Bool.eq_iff_iff, h.members.holds, decide_eq_true_iff]

theorem Refines.numbered_eq (h : Refines s a) : s.messages.numbered = a.numbered .inMemory := by
  rw [MessageStore.numbered, h.messages]
  rfl

/-- A page of a history is the newest messages below the cursor. -/
theorem Refines.historyPage_eq (h : Refines s a) (select : StoredMessage → Bool)
    (limit beforeId : Nat) :
    s.messages.historyPage select limit beforeId = a.newest .inMemory select limit beforeId := by
  rw [MessageStore.historyPage_eq, h.numbered_eq, AbstractChat.newest, List.filter_reverse]
  congr 3
  funext message
  rw [Bool.eq_iff_iff]
  simp

/-- An unread page is the oldest messages above the cursor. -/
theorem Refines.unreadPage_eq (h : Refines s a) (u : Nat) (groups : List Nat)
    (lastSeen limit : Nat) :
    s.messages.unreadPage u groups lastSeen limit =
      a.oldest .inMemory (MessageStore.isUnreadFor u groups) limit lastSeen := by
  rw [MessageStore.unreadPage_eq, h.numbered_eq, AbstractChat.oldest]
  congr 2
  funext message
  rw [Bool.eq_iff_iff]
  simp

end Answers

/-! ## One call -/

section Calls

variable {crypto : Crypto} {s : ChatState} {a : AbstractChat}

/-- A registration is answered alike, and adds the same account. -/
theorem Refines.registerUser (h : Refines s a) (n p : Bytes) :
    (s.users.registerUser crypto n p).1 = (a.registerUser crypto .inMemory n p).1 ∧
      Refines { s with users := (s.users.registerUser crypto n p).2 }
        (a.registerUser crypto .inMemory n p).2 := by
  unfold UserStore.registerUser AbstractChat.registerUser
  rw [show (s.users.usersByUsername.lookup n).isSome = (a.account .inMemory n).isSome by
    rw [← h.account_eq]; rfl]
  simp only [List.isEmpty_iff, Bool.or_eq_true, gt_iff_lt, h.salts, h.nextId]
  split
  · exact ⟨rfl, h⟩
  split
  · exact ⟨rfl, h⟩
  split
  · exact ⟨rfl, h⟩
  rename_i hFree
  split
  · exact ⟨rfl, h.accounts, rfl, rfl, h.online, h.groups, h.members, h.messages⟩
  refine ⟨rfl, ?_, by simp, rfl, h.online, h.groups, h.members, h.messages⟩
  intro name user
  rw [UserStore.findUserByUsername_insert rfl, List.mem_append, List.mem_singleton]
  split
  · rename_i hName
    -- the name was free, so the account behind it is the new one
    have hNew : ∀ user ∈ a.accounts, user.username ≠ n := by
      intro user hMem hUser
      have hFound := (h.accounts n user).mpr ⟨hMem, hUser⟩
      rw [h.account_eq] at hFound
      rw [hFound] at hFree
      exact hFree rfl
    constructor
    · intro hEq
      rw [← Option.some.inj hEq]
      exact ⟨Or.inr rfl, hName.symm⟩
    · rintro ⟨hOld | rfl, hUser⟩
      · exact absurd (hUser.trans hName) (hNew user hOld)
      · rfl
  · rename_i hName
    rw [h.accounts]
    constructor
    · exact fun hOld => ⟨Or.inl hOld.1, hOld.2⟩
    · rintro ⟨hOld | rfl, hUser⟩
      · exact ⟨hOld, hUser⟩
      · exact absurd hUser.symm hName

/-- A call of the real stores returns what the abstract one returns. -/
theorem exec_answers (h : Refines s a) (hInv : ServiceInv s) (op : ServiceCall) :
    (op.exec crypto s).1 = (AbstractChat.exec crypto .inMemory op a).1 := by
  cases op with
  | findByConnection c => exact h.online.findByConnection_eq hInv.consistent c
  | isUsernameOnline n => exact h.online.isUsernameOnline_eq hInv.consistent hInv.named n
  | bind session => rfl
  | unbindConnection c => rfl
  | find u => exact h.online.find_eq hInv.consistent u
  | findByUsername n => exact h.online.findByUsername_eq hInv.consistent hInv.named n
  | sessionJoinGroup g u => rfl
  | sessionLeaveGroup g u => rfl
  | registerUser n p => exact (h.registerUser n p).1
  | verifyLogin n p =>
      show s.users.verifyLogin crypto n p = (a.account .inMemory n).filter _
      rw [UserStore.verifyLogin, h.account_eq]
      cases a.account .inMemory n <;> rfl
  | findUserById u => exact h.findUserById_eq hInv u
  | findUserByUsername n => exact h.account_eq n
  | createGroup n u =>
      show (s.groups.createGroup n u).1 = _
      rw [GroupStore.createGroup, h.groups, AbstractChat.exec]
      cases n <;> rfl
  | joinGroup g u =>
      have hMember := h.isGroupMember_eq g u
      rw [GroupMemberStore.isGroupMember_eq] at hMember
      exact congrArg Except.ok hMember
  | leaveGroup g u =>
      show (s.members.leaveGroup g u).1 = _
      rw [GroupMemberStore.leaveGroup_fst, h.isGroupMember_eq, AbstractChat.exec]
      by_cases hMember : (g, u) ∈ a.members <;> simp [hMember]
  | isGroupMember g u => exact h.isGroupMember_eq g u
  | loadGroupMembers g =>
      exact (h.members.shows.members g).unique (AbstractChat.ascendingListOf_membersOf _ g)
  | loadUserGroups u =>
      exact (h.members.shows.groups u).unique (AbstractChat.ascendingListOf_groupsOf _ u)
  | append m =>
      show (s.messages.append m).1 = _
      rw [MessageStore.append, h.messages, List.length_append]
      rfl
  | directHistoryPage u p l b => exact h.historyPage_eq _ l b
  | groupHistoryPage g l b => exact h.historyPage_eq _ l b
  | unreadPage u gs k l => exact h.unreadPage_eq u gs k l

/-- The stores and the abstract service remain related. -/
theorem exec_refines (h : Refines s a) (hInv : ServiceInv s) (op : ServiceCall) :
    Refines (op.exec crypto s).2 (AbstractChat.exec crypto .inMemory op a).2 := by
  cases op with
  | bind session =>
      exact ⟨h.accounts, h.nextId, h.salts, h.online.bind hInv.consistent session, h.groups,
        h.members, h.messages⟩
  | unbindConnection c =>
      exact ⟨h.accounts, h.nextId, h.salts, h.online.unbindConnection hInv.consistent c, h.groups,
        h.members, h.messages⟩
  | registerUser n p => exact (h.registerUser n p).2
  | sessionJoinGroup g u =>
      exact ⟨h.accounts, h.nextId, h.salts, h.online, h.groups, h.members, h.messages⟩
  | sessionLeaveGroup g u =>
      exact ⟨h.accounts, h.nextId, h.salts, h.online.leaveGroup g u, h.groups, h.members,
        h.messages⟩
  | createGroup n u =>
      show Refines { s with groups := (s.groups.createGroup n u).2 } _
      rw [GroupStore.createGroup, AbstractChat.exec]
      cases n with
      | nil => exact h
      | cons b rest =>
          refine ⟨h.accounts, h.nextId, h.salts, h.online, ?_, h.members, h.messages⟩
          exact congrArg (· + 1) h.groups
  | joinGroup g u =>
      exact ⟨h.accounts, h.nextId, h.salts, h.online, h.groups, h.members.joinGroup g u,
        h.messages⟩
  | leaveGroup g u =>
      show Refines { s with members := (s.members.leaveGroup g u).2 } _
      rw [AbstractChat.exec]
      split
      · exact ⟨h.accounts, h.nextId, h.salts, h.online, h.groups, h.members.leaveGroup g u,
          h.messages⟩
      · rename_i hNot
        rw [GroupMemberStore.leaveGroup_of_not_member (mt (h.members.holds g u).mp hNot)]
        exact h
  | append m =>
      refine ⟨h.accounts, h.nextId, h.salts, h.online, h.groups, h.members, ?_⟩
      exact congrArg (· ++ [m]) h.messages
  | _ => exact h

end Calls

/-! ## Interleaved requests -/

/-- The stores and `AbstractChat` answer alike whatever a request knows to be allowed. -/
theorem simulates (crypto : Crypto) :
    Simulates deliverySpec
      (fun k s => ServiceInv s ∧ ∃ ids, Holds (fun _ => True) k ⟨s, ids⟩)
      (ServiceCall.exec crypto) (AbstractChat.exec crypto .inMemory) Refines where
  answers := fun op _ _ _ _ _ hHolds h => exec_answers h hHolds.1 op
  related := fun op _ _ _ _ _ hHolds h => exec_refines h hHolds.1 op
  learned := by
    rintro op k s q hSpec ⟨hInv, ids, hKnown⟩
    obtain ⟨k', hNext, hKnown'⟩ := exec_holds hInv trivial hSpec hKnown
    exact ⟨k', hNext, exec_serviceInv hInv hSpec hKnown, _, hKnown'⟩
  stable := by
    rintro op k s q hSpec ⟨hInv, ids, hKnown⟩ other ⟨-, ids', hOther⟩
    exact ⟨exec_serviceInv hInv hSpec hKnown, ids',
      hOther.mono (exec_extends op s) fun _ hPast => hPast⟩

/-- What the threads of the server do with the service. -/
inductive ServiceAction where
  | request (thread connectionId : Nat) (line : Bytes)
  | disconnect (thread connectionId : Nat)
  | work (thread : Nat)

/-- A request is a program of calls, and so is a disconnect. -/
def ServiceAction.action :
    ServiceAction → Action ServiceCall ServiceCall.Result (List OutboundMessage)
  | .request thread connectionId line => .start thread (handleClientLine connectionId line)
  | .disconnect thread connectionId =>
      .start thread ((handleDisconnect connectionId).bind fun _ => .done [])
  | .work thread => .work thread

/-- The replies of a schedule, by thread, in the order the requests came to their end, or
`none` if a busy thread was given a request or a free one had to work. -/
def repliesOf {σ : Type} (exec : (op : ServiceCall) → σ → op.Result × σ) (initial : σ)
    (acts : List ServiceAction) : Option (List (Nat × List OutboundMessage)) :=
  (run (step exec) { store := initial } (acts.map ServiceAction.action)).map Threads.returned

/-- Nobody can tell the service over its stores from the one over `AbstractChat`: every
interleaving of requests and disconnects has the same replies. -/
theorem service_refines (crypto : Crypto) (acts : List ServiceAction) :
    repliesOf (ServiceCall.exec crypto) {} acts =
      repliesOf (AbstractChat.exec crypto .inMemory) {} acts := by
  have hStarts : ∀ a ∈ acts.map ServiceAction.action,
      Starts deliverySpec (fun _ _ => True) ({} : Knowledge) a := by
    rw [List.forall_mem_map]
    intro a _
    cases a with
    | request thread c line =>
        exact Prog.Wp.mono deliverySpec_mono (fun _ _ _ => trivial)
          (outlined_clientLine c line ⟨rfl, rfl, rfl⟩)
    | disconnect thread c => exact fun _ => trivial
    | work thread => trivial
  have hKnown : Holds (fun _ => True) {} ⟨{}, []⟩ := by
    constructor <;> simp [Knowledge.InStore]
  exact threads_simulation (simulates crypto) _ hStarts _ _
    ⟨⟨.empty, [], hKnown⟩, fun thread p hRunning => by simp at hRunning, .empty, rfl, rfl⟩

end CppChat.Ports.Chat
