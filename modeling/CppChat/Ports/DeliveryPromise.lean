import CppChat.Ports.PushAndPull

/-!
# What a request in flight knows

Between two calls of a request the others go on.  What a request has learned from its
calls stays true all the same: accounts and messages are never taken back, and what was
looked up was so when it was looked up.  `deliverySpec` says what each call needs and what
is known after it, `Promise` what the replies owe.

A `dm` or `group_message` stores its message first and looks for the receivers' sessions
afterwards.  So every lookup happens in a state that has the message, and whoever is not
found by it will find the message with `unread`.

## Main results

* `exec_holds`: a call leaves what its request knows true, and adds what it returns.
* `Holds.mono`: so do the calls of the others.
* `exec_serviceInv`: the invariant between the stores needs no more than the calls know.
* `outlined_clientLine`: every request keeps its promise.
-/

namespace CppChat.Ports.Delivery

open CppChat.Verified
open CppChat.Verified.AtomicProgram
open CppChat.Ports.Protocol
open CppChat.Ports.Sessions
open CppChat.Ports.Users
open CppChat.Ports.Groups
open CppChat.Ports.Messages
open CppChat.Ports.Chat

/-! ## Knowledge -/

/-- What a request has learned: accounts, the sessions of connections, the message it has
stored under which id, the members it has loaded, and the sessions it has looked for, by
user. -/
structure Knowledge where
  accounts : List UserRecord := []
  bound : List (Nat × Session) := []
  stored : Option (Nat × Message) := none
  audience : Option (List Nat) := none
  lookups : List (Nat × Option Session) := []

namespace Knowledge

/-- The run has seen the account under this name. -/
def Knows (k : Knowledge) (id : Nat) (username : Bytes) : Prop :=
  ∃ user ∈ k.accounts, user.id = id ∧ user.username = username

/-- An account is seen. -/
def learn (k : Knowledge) (user : UserRecord) : Knowledge :=
  { k with accounts := user :: k.accounts }

/-- A connection has a session, and the session an account. -/
def meet (k : Knowledge) (c : Nat) (session : Session) (user : UserRecord) : Knowledge :=
  { k with accounts := user :: k.accounts, bound := (c, session) :: k.bound }

/-- A session is looked up. -/
def look (k : Knowledge) (userId : Nat) (session : Option Session) : Knowledge :=
  { k with lookups := k.lookups ++ [(userId, session)] }

/-- Nothing has been stored, nobody has been looked for. -/
structure Quiet (k : Knowledge) : Prop where
  stored : k.stored = none
  audience : k.audience = none
  lookups : k.lookups = []

/-- Seeing an account promises nothing. -/
theorem Quiet.learn {k : Knowledge} (h : k.Quiet) (user : UserRecord) : (k.learn user).Quiet :=
  ⟨h.stored, h.audience, h.lookups⟩

theorem Quiet.meet {k : Knowledge} (h : k.Quiet) (c : Nat) (session : Session)
    (user : UserRecord) : (k.meet c session user).Quiet :=
  ⟨h.stored, h.audience, h.lookups⟩

theorem knows_learn (k : Knowledge) (user : UserRecord) :
    (k.learn user).Knows user.id user.username :=
  ⟨user, List.mem_cons_self, rfl, rfl⟩

/-- What was known stays known. -/
theorem Knows.learn {k : Knowledge} {id : Nat} {username : Bytes} (h : k.Knows id username)
    (user : UserRecord) : (k.learn user).Knows id username := by
  obtain ⟨known, hMem, hKnown⟩ := h
  exact ⟨known, List.mem_cons_of_mem _ hMem, hKnown⟩

end Knowledge

/-- What a call needs to be known, and what is known after it. -/
def deliverySpec : (op : ServiceCall) → Knowledge → (op.Result → Knowledge → Prop) → Prop
  | .findByConnection c, k, q =>
      q none k ∧ ∀ (session : Session) (user : UserRecord), user.id = session.userId →
        user.username = session.username → q (some session) (k.meet c session user)
  | .verifyLogin username _, k, q =>
      q none k ∧ ∀ user : UserRecord, user.username = username → q (some user) (k.learn user)
  | .findUserByUsername username, k, q =>
      q none k ∧ ∀ user : UserRecord, user.username = username → q (some user) (k.learn user)
  | .bind session, k, q => k.Knows session.userId session.username ∧ q () k
  | .append message, k, q =>
      k.Quiet ∧ (∃ name, k.Knows message.senderId name) ∧
        (message.type = .directChat → ∃ name, k.Knows message.receiverId name) ∧
        ∀ id, q (.ofMessage id message) { k with stored := some (id, message) }
  | .loadGroupMembers groupId, k, q =>
      (∃ id message, k.stored = some (id, message) ∧ message.receiverId = groupId) ∧
        ∀ members : List Nat, q members { k with audience := some members }
  | .find userId, k, q =>
      k.stored.isSome ∧ ∀ session : Option Session, q session (k.look userId session)
  | .findByUsername username, k, q =>
      k.stored.isSome ∧ ∃ userId, k.Knows userId username ∧
        ∀ session : Option Session, q session (k.look userId session)
  | _, k, q => ∀ r, q r k

/-- Less may be asked of what is known after a call. -/
theorem deliverySpec_mono (op : ServiceCall) (k : Knowledge)
    (q q' : op.Result → Knowledge → Prop) (hImp : ∀ r k', q r k' → q' r k')
    (h : deliverySpec op k q) : deliverySpec op k q' := by
  cases op with
  | findByConnection c => exact ⟨hImp _ _ h.1, fun s u hId hName => hImp _ _ (h.2 s u hId hName)⟩
  | verifyLogin n p => exact ⟨hImp _ _ h.1, fun user hName => hImp _ _ (h.2 user hName)⟩
  | findUserByUsername n => exact ⟨hImp _ _ h.1, fun user hName => hImp _ _ (h.2 user hName)⟩
  | bind session => exact ⟨h.1, hImp _ _ h.2⟩
  | append message => exact ⟨h.1, h.2.1, h.2.2.1, fun id => hImp _ _ (h.2.2.2 id)⟩
  | loadGroupMembers g => exact ⟨h.1, fun members => hImp _ _ (h.2 members)⟩
  | find u => exact ⟨h.1, fun session => hImp _ _ (h.2 session)⟩
  | findByUsername n =>
      obtain ⟨hStored, userId, hKnows, hNext⟩ := h
      exact ⟨hStored, userId, hKnows, fun session => hImp _ _ (hNext session)⟩
  | _ => exact fun r => hImp _ _ (h r)

/-! ## What is known is true -/

/-- A state of the service, and the message ids a request has been given. -/
structure View where
  chat : ChatState
  ids : List Nat

/-- The message ids a call gives out. -/
def callIds : (op : ServiceCall) → op.Result → List Nat
  | .append _, stored => [StoredMessage.id stored]
  | _, _ => []

/-- The state has the message that was stored. -/
def Knowledge.InStore (k : Knowledge) (chat : ChatState) : Prop :=
  ∃ id message, k.stored = some (id, message) ∧
    StoredMessage.ofMessage id message ∈ chat.messages.numbered

/-- What is known is true: of this state as far as it concerns what only grows, and of
a past state as far as it was looked up, for receivers of one that already had the
message. -/
structure Holds (past : ChatState → Prop) (k : Knowledge) (v : View) : Prop where
  accounts : ∀ user ∈ k.accounts, v.chat.users.findUserByUsername user.username = some user
  bound : ∀ entry ∈ k.bound, ∃ t, past t ∧ t.sessions.findByConnection entry.1 = some entry.2
  ids : v.ids = k.stored.toList.map Prod.fst
  inStore : k.stored.isSome → k.InStore v.chat
  audience : ∀ members ∈ k.audience, ∃ t, past t ∧ k.InStore t ∧
    ∃ id message, k.stored = some (id, message) ∧
      t.members.loadGroupMembers message.receiverId = members
  lookups : ∀ lookup ∈ k.lookups, ∃ t, past t ∧ k.InStore t ∧
    t.sessions.find lookup.1 = lookup.2

variable {crypto : Crypto} {past past' : ChatState → Prop} {s s' : ChatState} {k : Knowledge}
  {ids : List Nat}

/-- What a request knows of the stores stays true. -/
theorem Knowledge.InStore.extends (h : k.InStore s) (hExtends : Extends s s') : k.InStore s' := by
  obtain ⟨id, message, hStored, hMem⟩ := h
  exact ⟨id, message, hStored, hExtends.numbered.subset hMem⟩

/-- Time goes by: what is known stays true. -/
theorem Holds.mono (h : Holds past k ⟨s, ids⟩) (hExtends : Extends s s')
    (hPast : ∀ t, past t → past' t) : Holds past' k ⟨s', ids⟩ where
  accounts := fun user hMem => hExtends.accounts _ _ (h.accounts user hMem)
  bound := by
    intro entry hMem
    obtain ⟨t, hPassed, hFind⟩ := h.bound entry hMem
    exact ⟨t, hPast t hPassed, hFind⟩
  ids := h.ids
  inStore := fun hStored => (h.inStore hStored).extends hExtends
  audience := by
    intro members hMembers
    obtain ⟨t, hPassed, hRest⟩ := h.audience members hMembers
    exact ⟨t, hPast t hPassed, hRest⟩
  lookups := by
    intro lookup hMem
    obtain ⟨t, hPassed, hRest⟩ := h.lookups lookup hMem
    exact ⟨t, hPast t hPassed, hRest⟩

theorem Holds.learn (h : Holds past k ⟨s, ids⟩) {user : UserRecord}
    (hUser : s.users.findUserByUsername user.username = some user) :
    Holds past (k.learn user) ⟨s, ids⟩ where
  accounts := List.forall_mem_cons.mpr ⟨hUser, h.accounts⟩
  bound := h.bound
  ids := h.ids
  inStore := h.inStore
  audience := h.audience
  lookups := h.lookups

theorem Holds.meet (h : Holds past k ⟨s, ids⟩) (hPast : past s) {c : Nat} {session : Session}
    (hFind : s.sessions.findByConnection c = some session) {user : UserRecord}
    (hUser : s.users.findUserByUsername user.username = some user) :
    Holds past (k.meet c session user) ⟨s, ids⟩ where
  accounts := List.forall_mem_cons.mpr ⟨hUser, h.accounts⟩
  bound := List.forall_mem_cons.mpr ⟨⟨s, hPast, hFind⟩, h.bound⟩
  ids := h.ids
  inStore := h.inStore
  audience := h.audience
  lookups := h.lookups

/-- A lookup in the state that is known to have the message. -/
theorem Holds.look (h : Holds past k ⟨s, ids⟩) (hStored : k.stored.isSome) (hPast : past s)
    (userId : Nat) : Holds past (k.look userId (s.sessions.find userId)) ⟨s, ids⟩ where
  accounts := h.accounts
  bound := h.bound
  ids := h.ids
  inStore := h.inStore
  audience := h.audience
  lookups := by
    intro lookup hMem
    rcases List.mem_append.mp hMem with hOld | hNew
    · exact h.lookups lookup hOld
    · rw [List.mem_singleton.mp hNew]
      exact ⟨s, hPast, h.inStore hStored, rfl⟩

/-- An account that was seen is still found under its name. -/
theorem Holds.account (h : Holds past k ⟨s, ids⟩) {id : Nat} {n : Bytes} (hKnows : k.Knows id n) :
    ∃ user, s.users.findUserByUsername n = some user ∧ user.id = id := by
  obtain ⟨user, hMem, hId, rfl⟩ := hKnows
  exact ⟨user, h.accounts user hMem, hId⟩

/-- An account that was seen is still found under its id. -/
theorem Holds.accountById (h : Holds past k ⟨s, ids⟩) (hInv : ServiceInv s) {id : Nat} {n : Bytes}
    (hKnows : k.Knows id n) : ∃ user, s.users.findUserById id = some user := by
  obtain ⟨user, hUser, hId⟩ := h.account hKnows
  exact ⟨user, hInv.indexed.findUserById_iff.mpr ⟨n, hUser, hId⟩⟩

/-! ## One call -/

/-- No call takes back an account or a message. -/
theorem exec_extends (op : ServiceCall) (s : ChatState) : Extends s (op.exec crypto s).2 := by
  cases op with
  | registerUser n p =>
      exact ⟨List.prefix_refl _, fun _ _ => UserStore.findUserByUsername_registerUser⟩
  | append message => exact ⟨List.prefix_append _ _, fun _ _ h => h⟩
  | _ => exact ⟨List.prefix_refl _, fun _ _ h => h⟩

/-- A call keeps the invariant of the service, if what it needs is known. -/
theorem exec_serviceInv {op : ServiceCall} {q : op.Result → Knowledge → Prop}
    (hInv : ServiceInv s) (hSpec : deliverySpec op k q) (h : Holds past k ⟨s, ids⟩) :
    ServiceInv (op.exec crypto s).2 := by
  cases op with
  | bind session =>
      obtain ⟨user, hUser, hId⟩ := h.account hSpec.1
      have hName := hInv.indexed.username_eq _ _ hUser
      have hBind := hInv.bind hUser session.connectionId
      rw [hId, hName] at hBind
      exact hBind
  | append message =>
      obtain ⟨-, ⟨sender, hSender⟩, hReceiver, -⟩ := hSpec
      apply hInv.append (h.accountById hInv hSender)
      intro hType
      obtain ⟨receiver, hKnows⟩ := hReceiver hType
      exact h.accountById hInv hKnows
  | unbindConnection c => exact hInv.unbindConnection c
  | registerUser n p => exact hInv.registerUser n p
  | sessionJoinGroup g u =>
      exact hInv.of_sessions rfl rfl (hInv.consistent.joinGroup g u) (hInv.named.joinGroup g u)
        fun _ _ => Or.inl
  | sessionLeaveGroup g u =>
      refine hInv.of_sessions rfl rfl (hInv.consistent.leaveGroup g u)
        (hInv.named.leaveGroup g u) ?_
      intro v session hFind
      have hSame : s.sessions.find v = some session := by
        rw [SessionManager.find, ← SessionManager.sessions_leaveGroup]
        exact hFind
      exact Or.inl hSame
  | createGroup n u | joinGroup g u | leaveGroup g u =>
      exact hInv.of_sessions rfl rfl hInv.consistent hInv.named fun _ _ => Or.inl
  | _ => exact hInv

/-- A call leaves what its request knows true, and what it returns can be added. -/
theorem exec_holds {op : ServiceCall} {q : op.Result → Knowledge → Prop} (hInv : ServiceInv s)
    (hPast : past s) (hSpec : deliverySpec op k q) (h : Holds past k ⟨s, ids⟩) :
    ∃ k', q (op.exec crypto s).1 k' ∧
      Holds past k' ⟨(op.exec crypto s).2, ids ++ callIds op (op.exec crypto s).1⟩ := by
  -- the state may have moved, but it has not lost anything
  have hMoved : ∀ k', Holds past k' ⟨s, ids⟩ →
      Holds past k' ⟨(op.exec crypto s).2, ids⟩ :=
    fun k' hk' => hk'.mono (exec_extends op s) fun _ hPassed => hPassed
  cases op with
  | findByConnection c =>
      simp only [callIds, List.append_nil]
      cases hFind : s.sessions.findByConnection c with
      | none => exact ⟨k, by rw [ServiceCall.exec, hFind]; exact hSpec.1, h⟩
      | some session =>
          obtain ⟨user, hUser, hId⟩ := hInv.account hFind
          have hName := hInv.indexed.username_eq _ _ hUser
          refine ⟨k.meet c session user, ?_, h.meet hPast hFind (by rw [hName]; exact hUser)⟩
          rw [ServiceCall.exec, hFind]
          exact hSpec.2 session user hId hName
  | verifyLogin n p =>
      simp only [callIds, List.append_nil]
      cases hVerify : s.users.verifyLogin crypto n p with
      | none => exact ⟨k, by rw [ServiceCall.exec, hVerify]; exact hSpec.1, h⟩
      | some user =>
          have hUser := (UserStore.verifyLogin_eq_some hVerify).1
          have hName := hInv.indexed.username_eq _ _ hUser
          refine ⟨k.learn user, ?_, h.learn (by rw [hName]; exact hUser)⟩
          rw [ServiceCall.exec, hVerify]
          exact hSpec.2 user hName
  | findUserByUsername n =>
      simp only [callIds, List.append_nil]
      cases hUser : s.users.findUserByUsername n with
      | none => exact ⟨k, by rw [ServiceCall.exec, hUser]; exact hSpec.1, h⟩
      | some user =>
          have hName := hInv.indexed.username_eq _ _ hUser
          refine ⟨k.learn user, ?_, h.learn (by rw [hName]; exact hUser)⟩
          rw [ServiceCall.exec, hUser]
          exact hSpec.2 user hName
  | bind session =>
      exact ⟨k, hSpec.2, by simpa only [callIds, List.append_nil] using hMoved k h⟩
  | append message =>
      obtain ⟨hQuiet, -, -, hNext⟩ := hSpec
      have hId : (s.messages.append message).1 =
          .ofMessage (s.messages.messages.length + 1) message := by
        simp [MessageStore.append]
      have hResult : ((ServiceCall.append message).exec crypto s).1 =
          StoredMessage.ofMessage (s.messages.messages.length + 1) message := hId
      have hIds : ids = [] := h.ids.trans (by rw [hQuiet.stored]; rfl)
      rw [hResult, hIds]
      refine ⟨_, hNext (s.messages.messages.length + 1), ?_⟩
      have hStored : StoredMessage.ofMessage (s.messages.messages.length + 1) message ∈
          (s.messages.append message).2.numbered := by
        rw [MessageStore.numbered_append]
        exact List.mem_append_right _ (List.mem_singleton_self _)
      constructor
      · exact h.accounts
      · exact h.bound
      · rfl
      · exact fun _ => ⟨_, message, rfl, hStored⟩
      · intro members hMembers
        rw [hQuiet.audience] at hMembers
        contradiction
      · intro lookup hMem
        rw [hQuiet.lookups] at hMem
        contradiction
  | loadGroupMembers g =>
      obtain ⟨⟨id, message, hStored, rfl⟩, hNext⟩ := hSpec
      simp only [callIds, List.append_nil]
      refine ⟨_, hNext (s.members.loadGroupMembers message.receiverId), ?_⟩
      have hInStore := h.inStore (by rw [hStored]; rfl)
      constructor
      · exact h.accounts
      · exact h.bound
      · exact h.ids
      · exact h.inStore
      · intro members hMembers
        exact ⟨s, hPast, hInStore, id, message, hStored, Option.some.inj hMembers⟩
      · exact h.lookups
  | find u =>
      simp only [callIds, List.append_nil]
      exact ⟨_, hSpec.2 _, h.look hSpec.1 hPast u⟩
  | findByUsername n =>
      obtain ⟨hStored, u, hKnows, hNext⟩ := hSpec
      obtain ⟨user, hUser, rfl⟩ := h.account hKnows
      simp only [callIds, List.append_nil]
      refine ⟨_, hNext _, ?_⟩
      rw [ServiceCall.exec, hInv.findByUsername_eq hUser]
      exact h.look hStored hPast user.id
  | _ => exact ⟨k, hSpec _, by simpa only [callIds, List.append_nil] using hMoved k h⟩

/-! ## What the replies owe -/

/-- No reply delivers a message, none acknowledges one. -/
def QuietReplies (out : List OutboundMessage) : Prop :=
  ∀ message ∈ out, isAck message.response = false ∧ isLiveCopy message.response = false

/-- The copies for those who were found. -/
def copiesTo (formatted : Response) (lookups : List (Nat × Option Session)) :
    List OutboundMessage :=
  lookups.filterMap fun lookup => lookup.2.map fun session =>
    { connectionId := session.connectionId, response := formatted }

/-- The message of a command, its copy, and the users who were looked for. -/
inductive Knowledge.Sends (k : Knowledge) (sender : Session) (command : ClientCommand) :
    Message → Response → Prop
  | direct {receiver : UserRecord} (hType : command.type = .directChat)
      (hReceiver : receiver ∈ k.accounts) (hName : receiver.username = command.targetUsername)
      (hUsers : k.lookups.map Prod.fst = [receiver.id]) :
      k.Sends sender command (directMessageOf sender receiver command)
        (.directMessage sender.username command.body)
  | group {members : List Nat} (hType : command.type = .groupChat)
      (hAudience : k.audience = some members)
      (hUsers : k.lookups.map Prod.fst = members.filter fun u => u ≠ sender.userId) :
      k.Sends sender command (groupMessageOf sender command)
        (.groupMessage command.groupId sender.username command.body)

/-- The replies to a payload of a connection.  Without a stored message there is nothing to
deliver; else the message is from the user of the connection, and the replies are its copies
and an acknowledgement behind them. -/
inductive Promise (c : Nat) (line : Bytes) : List OutboundMessage → Knowledge → Prop
  | quiet {out : List OutboundMessage} {k : Knowledge} (hQuiet : k.Quiet)
      (hOut : QuietReplies out) : Promise c line out k
  | pushed {k : Knowledge} {id : Nat} {message : Message} {formatted : Response}
      {sender : Session} {command : ClientCommand}
      (hStored : k.stored = some (id, message)) (hParse : parseClientCommand line = .ok command)
      (hSender : (c, sender) ∈ k.bound) (hSends : k.Sends sender command message formatted) :
      Promise c line (copiesTo formatted k.lookups ++
        reply c (.messageAck id true (!(copiesTo formatted k.lookups).isEmpty))) k

/-- From here on the request keeps its promise. -/
abbrev Outlined (c : Nat) (line : Bytes) (p : Service (List OutboundMessage)) (k : Knowledge) :
    Prop :=
  p.Wp deliverySpec (Promise c line) k

/-! ## Requests that deliver nothing -/

/-- The calls of a request that stores no message and starts no session. -/
def Silent : ServiceCall → Prop
  | .bind _ | .append _ | .find _ | .findByUsername _ | .loadGroupMembers _ => False
  | _ => True

variable {c : Nat} {line : Bytes}

/-- A request that neither stores nor logs in owes nothing but quiet replies. -/
theorem outlined_silent {p : Service (List OutboundMessage)} :
    ∀ {k : Knowledge}, p.Uses Silent → p.Returns QuietReplies → k.Quiet →
      Outlined c line p k := by
  induction p with
  | done out => exact fun _ hReturns hQuiet => .quiet hQuiet hReturns
  | call op next ih =>
      intro k hUses hReturns hQuiet
      have hSame : ∀ {k : Knowledge}, k.Quiet → ∀ r, Outlined c line (next r) k :=
        fun hQuiet r => ih r (hUses.2 r) (hReturns r) hQuiet
      cases op with
      | findByConnection c' =>
          exact ⟨hSame hQuiet _, fun session user _ _ => hSame (hQuiet.meet c' session user) _⟩
      | verifyLogin _ _ | findUserByUsername _ =>
          exact ⟨hSame hQuiet _, fun user _ => hSame (hQuiet.learn user) _⟩
      | bind _ | append _ | find _ | findByUsername _ | loadGroupMembers _ => exact hUses.1.elim
      | _ => exact hSame hQuiet

/-- Only the two commands that send messages have acks and copies among their answers. -/
theorem quiet_of_answers {command : ClientCommand} {out : List OutboundMessage}
    (hDirect : command.type ≠ .directChat) (hGroup : command.type ≠ .groupChat)
    (h : Answers c command out) : QuietReplies out := by
  intro message hMem
  have hAnswer := h message hMem
  unfold OutboundMessage.AnswersTo at hAnswer
  cases hResponse : message.response with
  | directMessage name body => exact absurd (by rw [hResponse] at hAnswer; exact hAnswer.1) hDirect
  | groupMessage g name body =>
      exact absurd (by rw [hResponse] at hAnswer; exact hAnswer.1) hGroup
  | messageAck id stored delivered =>
      rw [hResponse] at hAnswer
      exact hAnswer.1.elim (fun hType => absurd hType hDirect) fun hType => absurd hType hGroup
  | _ => exact ⟨rfl, rfl⟩

theorem quiet_reply {response : Response} (hAck : isAck response = false)
    (hCopy : isLiveCopy response = false) : QuietReplies (reply c response) := by
  intro message hMem
  rw [List.mem_singleton.mp hMem]
  exact ⟨hAck, hCopy⟩

/-! ## Requests that do -/

/-- A login owes nothing. -/
theorem outlined_login {command : ClientCommand} (hQuiet : k.Quiet) :
    Outlined c line (handleLogin c command) k := by
  have hFailed : ∀ {k : Knowledge} (reason : Bytes), k.Quiet →
      Outlined c line (pure (reply c (.loginFailed reason))) k :=
    fun _ hQuiet => .quiet hQuiet (quiet_reply rfl rfl)
  refine Prog.Wp.perform ⟨?_, fun session user _ _ => hFailed _ (hQuiet.meet c session user)⟩
  refine Prog.Wp.perform fun online => Prog.Wp.ite (hFailed _ hQuiet) ?_
  refine Prog.Wp.perform ⟨hFailed _ hQuiet, fun user _ => ?_⟩
  exact ⟨k.knows_learn user, .quiet (hQuiet.learn user) (quiet_reply rfl rfl)⟩

/-- A sender whose session was found, and its account. -/
structure Knowledge.Sender (k : Knowledge) (c : Nat) (sender : Session) : Prop where
  bound : (c, sender) ∈ k.bound
  account : k.Knows sender.userId sender.username

/-- `dm` stores one message, and its replies are the copy of a receiver that was
found and one ack. -/
theorem outlined_directChat {sender : Session} {command : ClientCommand} (hQuiet : k.Quiet)
    (hSender : k.Sender c sender) (hParse : parseClientCommand line = .ok command)
    (hType : command.type = .directChat) :
    Outlined c line (handleDirectChat c sender command) k := by
  refine Prog.Wp.perform ⟨.quiet hQuiet (quiet_reply rfl rfl), fun receiver hName => ?_⟩
  refine Prog.Wp.perform ⟨hQuiet.learn receiver, ⟨_, hSender.account.learn receiver⟩,
    fun _ => ⟨_, k.knows_learn receiver⟩, fun id => ?_⟩
  refine Prog.Wp.perform ⟨rfl, receiver.id, ⟨receiver, List.mem_cons_self, rfl, hName⟩, ?_⟩
  intro session
  -- the receiver is the only one who is looked for
  have hLookups : k.lookups ++ [(receiver.id, session)] = [(receiver.id, session)] := by
    rw [hQuiet.lookups, List.nil_append]
  have hPushed : Promise c line _ (Knowledge.look { k.learn receiver with
      stored := some (id, directMessageOf sender receiver command) } receiver.id session) :=
    .pushed rfl hParse hSender.bound
      (.direct hType List.mem_cons_self hName (by
        show (k.lookups ++ [(receiver.id, session)]).map Prod.fst = [receiver.id]
        rw [hLookups]
        rfl))
  have hCopies : copiesTo (.directMessage sender.username command.body)
      (k.lookups ++ [(receiver.id, session)]) =
        (session.map fun target : Session =>
          ({ connectionId := target.connectionId
             response := .directMessage sender.username command.body } :
            OutboundMessage)).toList := by
    rw [hLookups]
    cases session <;> rfl
  simp only [Knowledge.look, Knowledge.learn, hCopies] at hPushed
  cases session <;> exact hPushed

/-- The delivery loop looks for every member but the sender, and copies to whom it finds. -/
theorem pushToMembers_wp (senderId : Nat) (formatted : Response) (members : List Nat) :
    ∀ {k : Knowledge}, k.stored.isSome →
      (pushToMembers senderId formatted members).Wp deliverySpec
        (fun copies k' => ∃ lookups, k' = { k with lookups := k.lookups ++ lookups } ∧
          lookups.map Prod.fst = members.filter (fun u => u ≠ senderId) ∧
          copies = copiesTo formatted lookups) k := by
  induction members with
  | nil =>
      intro k _
      exact ⟨[], by rw [List.append_nil], rfl, rfl⟩
  | cons memberId rest ih =>
      intro k hStored
      rw [pushToMembers]
      by_cases hSelf : memberId = senderId
      · rw [if_pos hSelf, List.filter_cons_of_neg (by simpa using hSelf)]
        exact ih hStored
      · rw [if_neg hSelf, List.filter_cons_of_pos (by simpa using hSelf)]
        refine Prog.Wp.perform ⟨hStored, fun session => ?_⟩
        refine Prog.Wp.bind deliverySpec_mono ?_ (ih (k := k.look memberId session) hStored)
        rintro copies k' ⟨lookups, rfl, hUsers, rfl⟩
        have hKnown : ({ k.look memberId session with
              lookups := (k.look memberId session).lookups ++ lookups } : Knowledge) =
            { k with lookups := k.lookups ++ ((memberId, session) :: lookups) } := by
          simp [Knowledge.look]
        cases session with
        | none => exact ⟨(memberId, none) :: lookups, hKnown, by simp [hUsers], rfl⟩
        | some member => exact ⟨(memberId, some member) :: lookups, hKnown, by simp [hUsers], rfl⟩

/-- `group_message` stores one message, and its replies are the copies of the
members found and one ack. -/
theorem outlined_groupChat {sender : Session} {command : ClientCommand} (hQuiet : k.Quiet)
    (hSender : k.Sender c sender) (hParse : parseClientCommand line = .ok command)
    (hType : command.type = .groupChat) :
    Outlined c line (handleGroupChat c sender command) k := by
  refine Prog.Wp.perform fun isMember => ?_
  refine Prog.Wp.ite (.quiet hQuiet (quiet_reply rfl rfl)) (Prog.Wp.perform ?_)
  refine ⟨hQuiet, ⟨_, hSender.account⟩, fun hType => by contradiction, fun id => ?_⟩
  refine Prog.Wp.perform ⟨⟨id, _, rfl, rfl⟩, fun members => ?_⟩
  refine Prog.Wp.bind deliverySpec_mono ?_ (pushToMembers_wp sender.userId _ members rfl)
  rintro copies k' ⟨lookups, rfl, hUsers, rfl⟩
  have hLookups : k.lookups ++ lookups = lookups := by rw [hQuiet.lookups, List.nil_append]
  have hPushed : Promise c line _ { k with
      stored := some (id, groupMessageOf sender command)
      audience := some members
      lookups := lookups } :=
    .pushed rfl hParse hSender.bound (.group hType rfl hUsers)
  rw [hLookups]
  exact hPushed

/-! ## All requests -/

/-- A page stores nothing if its items do not. -/
theorem historyItems_silent {item : StoredMessage → Service OutboundMessage}
    (hItem : ∀ message, (item message).Uses Silent) (page : List StoredMessage) :
    (historyItems item page).Uses Silent := by
  induction page with
  | nil => trivial
  | cons message rest ih =>
      exact Prog.Uses.bind (hItem message) fun _ => Prog.Uses.bind ih fun _ => trivial

theorem groupHistoryItem_silent (c : Nat) (message : StoredMessage) :
    (groupHistoryItem c message).Uses Silent :=
  ⟨trivial, fun _ => trivial⟩

theorem directHistoryItem_silent (c : Nat) (message : StoredMessage) :
    (directHistoryItem c message).Uses Silent :=
  ⟨trivial, fun _ => ⟨trivial, fun _ => trivial⟩⟩

theorem handleHistoryQuery_silent (c : Nat) (sender : Session) (command : ClientCommand) :
    (handleHistoryQuery c sender command).Uses Silent := by
  unfold handleHistoryQuery
  apply Prog.Uses.ite
  · refine Prog.Uses.perform_bind trivial fun isMember => Prog.Uses.ite Prog.Uses.pure ?_
    refine Prog.Uses.perform_bind trivial fun page => ?_
    exact Prog.Uses.bind (historyItems_silent (groupHistoryItem_silent c) _) fun _ => trivial
  · refine Prog.Uses.perform_bind trivial fun peer => ?_
    cases peer with
    | none => trivial
    | some peer =>
        refine Prog.Uses.perform_bind trivial fun page => ?_
        exact Prog.Uses.bind (historyItems_silent (directHistoryItem_silent c) _) fun _ => trivial

theorem handleUnreadQuery_silent (c : Nat) (sender : Session) (command : ClientCommand) :
    (handleUnreadQuery c sender command).Uses Silent := by
  refine Prog.Uses.perform_bind trivial fun groupIds => ?_
  refine Prog.Uses.perform_bind trivial fun page => ?_
  refine Prog.Uses.bind (historyItems_silent (fun message => ?_) _) fun _ => trivial
  exact Prog.Uses.ite (groupHistoryItem_silent c message) (directHistoryItem_silent c message)

/-- `register` stores no message. -/
theorem handleRegister_silent (c : Nat) (command : ClientCommand) :
    (handleRegister c command).Uses Silent := by
  refine Prog.Uses.perform_bind trivial fun session => Prog.Uses.ite Prog.Uses.pure ?_
  refine Prog.Uses.perform_bind trivial fun result => ?_
  cases result <;> trivial

/-- `create_group` stores no message. -/
theorem handleCreateGroup_silent (c : Nat) (sender : Session) (command : ClientCommand) :
    (handleCreateGroup c sender command).Uses Silent := by
  refine Prog.Uses.perform_bind trivial fun created => ?_
  cases created with
  | error reason => trivial
  | ok group =>
      refine Prog.Uses.perform_bind trivial fun joined => ?_
      cases joined with
      | error reason => trivial
      | ok done => exact ⟨trivial, fun _ => trivial⟩

theorem handleGroupJoin_silent (c : Nat) (sender : Session) (command : ClientCommand) :
    (handleGroupJoin c sender command).Uses Silent := by
  refine Prog.Uses.perform_bind trivial fun joined => ?_
  cases joined with
  | error reason => trivial
  | ok done => exact ⟨trivial, fun _ => trivial⟩

theorem handleGroupLeave_silent (c : Nat) (sender : Session) (command : ClientCommand) :
    (handleGroupLeave c sender command).Uses Silent := by
  refine Prog.Uses.perform_bind trivial fun left => ?_
  cases left with
  | error reason => trivial
  | ok done => exact ⟨trivial, fun _ => trivial⟩

/-- The commands behind a session: two of them deliver, the others are silent. -/
theorem outlined_session {sender : Session} {command : ClientCommand} (hQuiet : k.Quiet)
    (hSender : k.Sender c sender) (hParse : parseClientCommand line = .ok command) :
    Outlined c line (handleSession c sender command) k := by
  by_cases hGroup : command.type = .groupChat
  · simp only [handleSession, hGroup]
    exact outlined_groupChat hQuiet hSender hParse hGroup
  by_cases hDirect : command.type = .directChat
  · simp only [handleSession, hDirect]
    exact outlined_directChat hQuiet hSender hParse hDirect
  refine outlined_silent ?_ ?_ hQuiet
  · unfold handleSession
    split
    · exact ⟨trivial, fun _ => trivial⟩
    · exact handleCreateGroup_silent c sender command
    · exact handleGroupJoin_silent c sender command
    · exact handleGroupLeave_silent c sender command
    · contradiction
    · exact handleHistoryQuery_silent c sender command
    · contradiction
    · exact handleUnreadQuery_silent c sender command
    · trivial
  · exact handleSession_returns.mono fun _ => quiet_of_answers hDirect hGroup

/-- Every request keeps its promise, whatever happens between its calls. -/
theorem outlined_clientLine (c : Nat) (line : Bytes) (hQuiet : k.Quiet) :
    Outlined c line (handleClientLine c line) k := by
  unfold handleClientLine
  split
  · exact .quiet hQuiet (quiet_reply rfl rfl)
  · rename_i command hParse
    unfold handleCommand
    split
    · exact .quiet hQuiet (quiet_reply rfl rfl)
    · rename_i hType
      refine outlined_silent (handleRegister_silent c command) ?_ hQuiet
      refine handleRegister_returns.mono fun _ => quiet_of_answers ?_ ?_ <;> simp [hType]
    · exact outlined_login hQuiet
    · refine Prog.Wp.perform ⟨.quiet hQuiet (quiet_reply rfl rfl), ?_⟩
      intro session user hId hName
      refine outlined_session (hQuiet.meet c session user) ?_ hParse
      exact ⟨List.mem_cons_self, user, List.mem_cons_self, hId, hName⟩

end CppChat.Ports.Delivery
