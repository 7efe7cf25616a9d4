import CppChat.Ports.ChatCalls
import CppChat.Ports.CommandText
import CppChat.Ports.SessionIndexes
import CppChat.Ports.UsersTable

/-!
# Two notions of equal names

In MySQL mode an account is looked up under the collation of the `users` table,
and a session under the bytes of its name.  A login and a `dm` use both with the
spelling the client sent: `alice` and `ALICE` are one account, and only one of
them is the name the account is online under.

Requests are handled one at a time.  The sessions and the `users` table are
modelled; the stores of groups, members and messages answer anything, from one
call to the next, and any call on the `users` table may fail.

## Main results

* `step_accounts`: every session carries the id and the stored name of a row.
* `online_iff`: the two lookups agree about a name exactly when the account is
  offline or the name is the stored one, byte for byte; the same condition decides
  whether a second login is refused and a `dm` pushed.
-/

namespace CppChat.Ports.UsernameCollation

open CppChat.Verified
open CppChat.Verified.AtomicProgram
open CppChat.Ports.Protocol
open CppChat.Ports.Sessions
open CppChat.Ports.Sessions.SessionManager
open CppChat.Ports.Users
open CppChat.Ports.Messages
open CppChat.Ports.Chat

variable {collation : Collation} {crypto : Crypto}

/-! ## The service in MySQL mode -/

/-- What the `n`-th call of a request meets: the answer of the other stores, and
the fate of its calls on the `users` table. -/
structure Env where
  answers : Nat → (op : ServiceCall) → op.Result
  io : Nat → UserIo := fun _ => {}

/-- The sessions, the accounts, and the number of calls the request has made. -/
structure PoolState (collation : Collation) where
  sessions : SessionManager := {}
  users : PooledUserStore collation
  calls : Nat := 0

/-- One more call. -/
def PoolState.called (s : PoolState collation) : PoolState collation :=
  { s with calls := s.calls + 1 }

/-- The calls on the table of accounts. -/
def exec (crypto : Crypto) (env : Env) :
    (op : ServiceCall) → PoolState collation → op.Result × PoolState collation
  | .findByConnection c, s => (s.sessions.findByConnection c, s.called)
  | .isUsernameOnline n, s => (s.sessions.isUsernameOnline n, s.called)
  | .bind session, s => ((), { s.called with sessions := s.sessions.bind session })
  | .unbindConnection c, s =>
      ((), { s.called with sessions := s.sessions.unbindConnection c })
  | .find u, s => (s.sessions.find u, s.called)
  | .findByUsername n, s => (s.sessions.findByUsername n, s.called)
  | .sessionJoinGroup g u, s =>
      ((), { s.called with sessions := s.sessions.joinGroup g u })
  | .sessionLeaveGroup g u, s =>
      ((), { s.called with sessions := s.sessions.leaveGroup g u })
  | .registerUser n p, s =>
      ((s.users.registerUser crypto (env.io s.calls) n p).1,
        { s.called with users := (s.users.registerUser crypto (env.io s.calls) n p).2 })
  | .verifyLogin n p, s => (s.users.verifyLogin crypto (env.io s.calls) n p, s.called)
  | .findUserById u, s => (s.users.findUserById (env.io s.calls) u, s.called)
  | .findUserByUsername n, s => (s.users.findUserByUsername (env.io s.calls) n, s.called)
  | op, s => (env.answers s.calls op, s.called)

/-- One request, with nothing in between. -/
def handleLine (crypto : Crypto) (env : Env) (s : PoolState collation) (c : Nat)
    (line : Bytes) : List OutboundMessage × PoolState collation :=
  (handleClientLine c line).run (exec crypto env) { s with calls := 0 }

/-- What a client can make the service do, and what the request meets. -/
inductive Request where
  | line (env : Env) (connectionId : Nat) (payload : Bytes)
  | disconnect (connectionId : Nat)

/-- What one request leaves of the state. -/
def serve (crypto : Crypto) (s : PoolState collation) : Request → PoolState collation
  | .line env c payload => (handleLine crypto env s c payload).2
  | .disconnect c => { s with sessions := s.sessions.unbindConnection c }

/-- The state after a sequential run of requests, on any table. -/
def serveAll (crypto : Crypto) (table : UsersTable collation) (requests : List Request) :
    PoolState collation :=
  requests.foldl (serve crypto) { users := { table := table } }

/-! ## Sessions are rows -/

/-- The indexes of the sessions agree, and every session carries the id and the
name of a row. -/
structure Accounts (s : PoolState collation) : Prop where
  consistent : s.sessions.Consistent
  named : s.sessions.Named
  account : ∀ u session, s.sessions.find u = some session →
    ∃ row ∈ s.users.table.rows, row.id = u ∧ row.username = session.username

variable {s : PoolState collation} {env : Env}

/-- A row of an account that is online has the name of its session. -/
theorem Accounts.username_eq (h : Accounts s) {row : UserRecord} {session : Session}
    (hRow : row ∈ s.users.table.rows) (hOnline : s.sessions.find row.id = some session) :
    session.username = row.username := by
  obtain ⟨row', hRow', hId, hName⟩ := h.account row.id session hOnline
  rw [← hName, s.users.table.id_unique row' hRow' row hRow hId]

/-- A bind of a verified account keeps the invariant. -/
theorem Accounts.bind (h : Accounts s) {user : UserRecord}
    (hUser : user ∈ s.users.table.rows) (c : Nat) :
    Accounts { s with
      sessions := s.sessions.bind
        { userId := user.id, connectionId := c, username := user.username } } where
  consistent := h.consistent.bind _
  named := by
    apply h.named.bind h.consistent
    intro v session hSession hName
    obtain ⟨row, hRow, hId, hRowName⟩ := h.account v session hSession
    have hSame : collation.same row.username user.username = true := by
      rw [hRowName, hName]
      exact collation.refl _
    rw [← hId, s.users.table.username_unique row hRow user hUser hSame]
  account := by
    intro u session hSession
    have hFind := h.consistent.find_bind
      { userId := user.id, connectionId := c, username := user.username } u
    rw [show (s.sessions.bind _).sessions.lookup u = some session from hSession] at hFind
    split at hFind
    · rename_i hu
      rw [Option.some.inj hFind, hu]
      exact ⟨user, hUser, rfl, rfl⟩
    · split at hFind
      · contradiction
      · exact h.account u session hFind.symm

theorem Accounts.unbindConnection (h : Accounts s) (c : Nat) :
    Accounts { s with sessions := s.sessions.unbindConnection c } where
  consistent := h.consistent.unbindConnection c
  named := h.named.unbindConnection c
  account := by
    intro u session hSession
    have hFind := sessions_unbindConnection s.sessions c u
    rw [show (s.sessions.unbindConnection c).sessions.lookup u = some session from hSession]
      at hFind
    split at hFind
    · contradiction
    · exact h.account u session hFind.symm

/-- The number of calls is not part of the invariant. -/
theorem Accounts.calls (h : Accounts s) (n : Nat) : Accounts { s with calls := n } :=
  ⟨h.consistent, h.named, h.account⟩

/-- Every call but a bind keeps the invariant. -/
theorem exec_accounts (op : ServiceCall) (hBind : ∀ session, op ≠ .bind session)
    (h : Accounts s) : Accounts (exec crypto env op s).2 := by
  cases op with
  | bind session => exact absurd rfl (hBind session)
  | unbindConnection c => exact (h.unbindConnection c).calls _
  | sessionJoinGroup g u =>
      exact ⟨h.consistent.joinGroup g u, h.named.joinGroup g u, h.account⟩
  | sessionLeaveGroup g u =>
      refine ⟨h.consistent.leaveGroup g u, h.named.leaveGroup g u, ?_⟩
      intro v session hSession
      have hSame : (s.sessions.leaveGroup g u).find v = s.sessions.find v := by simp [find]
      exact h.account v session (hSame.symm.trans hSession)
  | registerUser n p =>
      refine ⟨h.consistent, h.named, ?_⟩
      intro u session hSession
      obtain ⟨row, hRow, hId⟩ := h.account u session hSession
      exact ⟨row, PooledUserStore.rows_registerUser n p row hRow, hId⟩
  | _ => exact h.calls _

/-! ## The two commands that mix the lookups -/

/-- A login under the client's spelling. -/
theorem handleLogin_run (env : Env) (s : PoolState collation) (c : Nat)
    (command : ClientCommand) :
    (handleLogin c command).run (exec crypto env) s =
      if (s.sessions.findByConnection c).isSome then
        (reply c (.loginFailed (ascii "already logged in")), s.called)
      else if s.sessions.isUsernameOnline command.username then
        (reply c (.loginFailed (ascii "user already online")), s.called.called)
      else
        match s.users.verifyLogin crypto (env.io (s.calls + 2)) command.username
          command.password with
        | none =>
            (reply c (.loginFailed (ascii "invalid username or password")),
              s.called.called.called)
        | some user =>
            (reply c (.loginSuccess user.id user.username),
              { s with
                sessions := s.sessions.bind
                  { userId := user.id, connectionId := c, username := user.username }
                calls := s.calls + 4 }) := by
  have hFind : exec crypto env (.findByConnection c) s =
      (s.sessions.findByConnection c, s.called) := rfl
  have hOnline : exec crypto env (.isUsernameOnline command.username) s.called =
      (s.sessions.isUsernameOnline command.username, s.called.called) := rfl
  have hVerify : exec crypto env (.verifyLogin command.username command.password)
      s.called.called =
        (s.users.verifyLogin crypto (env.io (s.calls + 2)) command.username command.password,
          s.called.called.called) := rfl
  refine (Prog.run_perform hFind).trans ?_
  split
  · rfl
  refine (Prog.run_perform hOnline).trans ?_
  split
  · rfl
  refine (Prog.run_perform hVerify).trans ?_
  cases s.users.verifyLogin crypto (env.io (s.calls + 2)) command.username command.password <;>
    rfl

/-- A `dm` under the client's spelling. -/
theorem handleDirectChat_run {command : ClientCommand} {receiver : UserRecord}
    (h : s.users.findUserByUsername (env.io s.calls) command.targetUsername = some receiver)
    (c : Nat) (sender : Session) :
    ∃ id, ((handleDirectChat c sender command).run (exec crypto env) s).1 =
      match s.sessions.findByUsername command.targetUsername with
      | none => reply c (.messageAck id true false)
      | some target =>
          { connectionId := target.connectionId
            response := .directMessage sender.username command.body } ::
            reply c (.messageAck id true true) := by
  have hUser : exec crypto env (.findUserByUsername command.targetUsername) s =
      (some receiver, s.called) := Prod.ext h rfl
  let message : Message :=
    { type := .directChat, senderId := sender.userId, receiverId := receiver.id,
      body := command.body }
  have hAppend : exec crypto env (.append message) s.called =
      (env.answers (s.calls + 1) (.append message), s.called.called) := rfl
  have hOnline : exec crypto env (.findByUsername command.targetUsername) s.called.called =
      (s.sessions.findByUsername command.targetUsername, s.called.called.called) := rfl
  refine ⟨StoredMessage.id (env.answers (s.calls + 1) (.append message)), ?_⟩
  refine (congrArg Prod.fst (Prog.run_perform hUser)).trans ?_
  refine (congrArg Prod.fst (Prog.run_perform hAppend)).trans ?_
  refine (congrArg Prod.fst (Prog.run_perform hOnline)).trans ?_
  cases s.sessions.findByUsername command.targetUsername <;> rfl

/-! ## Runs -/

theorem handleLogin_accounts (h : Accounts s) (c : Nat) (command : ClientCommand) :
    Accounts ((handleLogin c command).run (exec crypto env) s).2 := by
  rw [handleLogin_run]
  split
  · exact h.calls _
  split
  · exact h.calls _
  split
  · exact h.calls _
  · rename_i user hVerify
    exact (h.bind (PooledUserStore.verifyLogin_mem hVerify) c).calls _

theorem handleCommand_accounts (h : Accounts s) (c : Nat) (command : ClientCommand) :
    Accounts ((handleCommand c command).run (exec crypto env) s).2 := by
  by_cases hType : command.type = .login
  · have hProgram : handleCommand c command = handleLogin c command := by
      unfold handleCommand
      rw [hType]
    rw [hProgram]
    exact handleLogin_accounts h c command
  · have hUses : (handleCommand c command).Uses fun op => ∀ session, op ≠ .bind session := by
      apply (handleCommand_uses c command).mono
      rintro op hMade session rfl
      exact hType hMade.1
    exact Prog.run_invariant (fun op s hOp hs => exec_accounts op hOp hs) _ s hUses h

theorem step_accounts (h : Accounts s) (request : Request) :
    Accounts (serve crypto s request) := by
  cases request with
  | disconnect c => exact h.unbindConnection c
  | line env c payload =>
      show Accounts ((handleClientLine c payload).run (exec crypto env) _).2
      unfold handleClientLine
      cases parseClientCommand payload with
      | error reason => exact h.calls _
      | ok command => exact handleCommand_accounts (h.calls 0) c command

theorem serveAll_accounts (crypto : Crypto) (table : UsersTable collation)
    (requests : List Request) : Accounts (serveAll crypto table requests) := by
  have hInit : Accounts ({ users := { table := table } } : PoolState collation) :=
    ⟨Consistent.empty, Named.empty, fun u session hSession => by simp [find] at hSession⟩
  have hStep : ∀ (s : PoolState collation) request, True → Accounts s →
      Accounts (serve crypto s request) := fun _ request _ h => step_accounts h request
  exact Transition.foldl_invariant hStep requests _ (fun _ _ => trivial) hInit

/-! ## When the two lookups agree -/

/-- A session is found under the name its row stores. -/
theorem Accounts.findByUsername_stored (h : Accounts s) {row : UserRecord}
    (hRow : row ∈ s.users.table.rows) :
    s.sessions.findByUsername row.username = s.sessions.find row.id := by
  cases hOnline : s.sessions.find row.id with
  | some session =>
      have hId : session.userId = row.id := h.consistent.userId_eq _ _ hOnline
      rw [h.named.findByUsername_iff h.consistent, hId]
      exact ⟨hOnline, h.username_eq hRow hOnline⟩
  | none =>
      cases hNamed : s.sessions.findByUsername row.username with
      | none => rfl
      | some session =>
          obtain ⟨hFind, hName⟩ := (h.named.findByUsername_iff h.consistent).mp hNamed
          obtain ⟨row', hRow', hId, hName'⟩ := h.account _ _ hFind
          have hSame : collation.same row'.username row.username = true := by
            rw [hName', hName]
            exact collation.refl _
          rw [← hId, s.users.table.username_unique row' hRow' row hRow hSame, hOnline] at hFind
          contradiction

/-- An account is online under no spelling but the stored one. -/
theorem Accounts.findByUsername_other (h : Accounts s) {row : UserRecord} {n : Bytes}
    (hRow : row ∈ s.users.table.rows) (hSame : collation.same row.username n = true)
    (hOther : n ≠ row.username) : s.sessions.findByUsername n = none := by
  cases hNamed : s.sessions.findByUsername n with
  | none => rfl
  | some session =>
      obtain ⟨hFind, hName⟩ := (h.named.findByUsername_iff h.consistent).mp hNamed
      obtain ⟨row', hRow', -, hName'⟩ := h.account _ _ hFind
      have hEq : collation.same row'.username row.username = true := by
        rw [hName', hName]
        exact collation.symm _ _ hSame
      rw [← hName, ← hName', s.users.table.username_unique row' hRow' row hRow hEq] at hOther
      contradiction

theorem Accounts.lookups_agree_iff (h : Accounts s) {row : UserRecord} {n : Bytes}
    (hRow : row ∈ s.users.table.rows) (hSame : collation.same row.username n = true) :
    s.sessions.findByUsername n = s.sessions.find row.id ↔
      s.sessions.find row.id = none ∨ n = row.username := by
  by_cases hName : n = row.username
  · rw [hName]
    exact iff_of_true (h.findByUsername_stored hRow) (Or.inr rfl)
  · rw [h.findByUsername_other hRow hSame hName]
    simp [hName, eq_comm]

/-! ## What follows for a login and a `dm` -/

/-- An online account is online under its stored name only. -/
theorem Accounts.isUsernameOnline_iff (h : Accounts s) {row : UserRecord} {n : Bytes}
    {session : Session} (hRow : row ∈ s.users.table.rows)
    (hSame : collation.same row.username n = true)
    (hOnline : s.sessions.find row.id = some session) :
    s.sessions.isUsernameOnline n = true ↔ n = row.username := by
  unfold isUsernameOnline
  by_cases hName : n = row.username
  · rw [hName, h.findByUsername_stored hRow, hOnline]
    simp
  · rw [h.findByUsername_other hRow hSame hName]
    simp [hName]

/-- A login is refused for one of three reasons. -/
theorem login_refused_iff {payload : Bytes} {command : ClientCommand}
    (hParse : parseClientCommand payload = .ok command) (hType : command.type = .login)
    (c : Nat) :
    (∃ reason, (handleLine crypto env s c payload).1 = reply c (.loginFailed reason)) ↔
      s.sessions.isUsernameOnline command.username = true ∨
        (s.sessions.findByConnection c).isSome = true ∨
        s.users.verifyLogin crypto (env.io 2) command.username command.password = none := by
  have hRun : handleLine crypto env s c payload =
      (handleLogin c command).run (exec crypto env) { s with calls := 0 } := by
    unfold handleLine handleClientLine handleCommand
    rw [hParse]
    simp only [hType]
  rw [hRun, handleLogin_run]
  dsimp only
  by_cases hBound : (s.sessions.findByConnection c).isSome = true
  · rw [if_pos hBound]
    exact iff_of_true ⟨_, rfl⟩ (Or.inr (Or.inl hBound))
  by_cases hOnline : s.sessions.isUsernameOnline command.username = true
  · rw [if_neg hBound, if_pos hOnline]
    exact iff_of_true ⟨_, rfl⟩ (Or.inl hOnline)
  rw [if_neg hBound, if_neg hOnline]
  cases s.users.verifyLogin crypto (env.io 2) command.username command.password with
  | none => exact iff_of_true ⟨_, rfl⟩ (Or.inr (Or.inr rfl))
  | some user => simp [hBound, hOnline, reply]

/-- A `dm` is pushed to the session found under the client's spelling. -/
theorem dm_pushed_iff {payload : Bytes} {command : ClientCommand} {sender : Session}
    {receiver : UserRecord} (hParse : parseClientCommand payload = .ok command)
    (hType : command.type = .directChat) {c : Nat}
    (hSender : s.sessions.findByConnection c = some sender)
    (hReceiver : s.users.findUserByUsername (env.io 1) command.targetUsername = some receiver)
    (target : Nat) :
    (∃ id, (handleLine crypto env s c payload).1 =
      { connectionId := target, response := .directMessage sender.username command.body } ::
        reply c (.messageAck id true true)) ↔
      ∃ session, s.sessions.findByUsername command.targetUsername = some session ∧
        session.connectionId = target := by
  have hSession : ¬NeedsNoSession command := by simp [NeedsNoSession, hType]
  have hFind : exec crypto env (.findByConnection c) { s with calls := 0 } =
      (some sender, { s with calls := 1 }) := Prod.ext hSender rfl
  have hRun : handleLine crypto env s c payload =
      (handleDirectChat c sender command).run (exec crypto env) { s with calls := 1 } := by
    unfold handleLine handleClientLine
    rw [hParse]
    dsimp only
    rw [handleCommand_eq_session hSession]
    refine (Prog.run_perform hFind).trans ?_
    show (handleSession c sender command).run _ _ = _
    unfold handleSession
    rw [hType]
  obtain ⟨id, hOut⟩ := @handleDirectChat_run _ crypto { s with calls := 1 } env command receiver
    hReceiver c sender
  rw [hRun, hOut]
  dsimp only
  cases s.sessions.findByUsername command.targetUsername with
  | none => simp [reply]
  | some session => simp [reply]

/-- In every state a run reaches, for every name the table finds an account for:
the session manager finds the account's session under this name exactly when
there is none or the name is the stored one.  While the account is online the same
condition decides whether a login as the account is refused for being online, and
whether a `dm` to it is pushed and acknowledged as delivered. -/
theorem online_iff (crypto : Crypto) (table : UsersTable collation) (requests : List Request)
    (n : Bytes) (row : UserRecord) :
    let s := serveAll crypto table requests
    s.users.findUserByUsername {} n = some row →
    (s.sessions.findByUsername n = s.sessions.find row.id ↔
      s.sessions.find row.id = none ∨ n = row.username) ∧
    ∀ session, s.sessions.find row.id = some session →
      ∀ env c payload command, parseClientCommand payload = .ok command →
        (command.type = .login → command.username = n →
          ((∃ reason, (handleLine crypto env s c payload).1 =
              reply c (.loginFailed reason)) ↔
            n = row.username ∨ (s.sessions.findByConnection c).isSome = true ∨
              s.users.verifyLogin crypto (env.io 2) n command.password = none)) ∧
        (command.type = .directChat → command.targetUsername = n →
          ∀ sender, s.sessions.findByConnection c = some sender →
            s.users.findUserByUsername (env.io 1) n = some row →
              ((∃ id, (handleLine crypto env s c payload).1 =
                { connectionId := session.connectionId
                  response := .directMessage sender.username command.body } ::
                  reply c (.messageAck id true true)) ↔
                n = row.username)) := by
  intro s hFound
  have h : Accounts s := serveAll_accounts crypto table requests
  obtain ⟨hRow, hSame⟩ := PooledUserStore.findUserByUsername_eq_some hFound
  refine ⟨h.lookups_agree_iff hRow hSame, ?_⟩
  intro session hOnline env c payload command hParse
  constructor
  · rintro hType rfl
    rw [login_refused_iff hParse hType, h.isUsernameOnline_iff hRow hSame hOnline]
  · rintro hType rfl sender hSender hReceiver
    rw [dm_pushed_iff hParse hType hSender hReceiver]
    by_cases hName : command.targetUsername = row.username
    · rw [hName, h.findByUsername_stored hRow, hOnline]
      exact iff_of_true ⟨session, rfl, rfl⟩ rfl
    · rw [h.findByUsername_other hRow hSame hName]
      refine iff_of_false ?_ hName
      rintro ⟨_, hNone, _⟩
      contradiction

/-! ## A name in another case -/

/-- The lower-case form of a letter `A` to `Z`. -/
def foldCase (b : UInt8) : UInt8 := if 65 ≤ b ∧ b ≤ 90 then b + 32 else b

/-- What `utf8mb4_unicode_ci` says of names made of the letters `a` to `z`. -/
def caseInsensitive : Collation where
  same a b := a.map foldCase == b.map foldCase
  refl := by simp
  symm a b h := by
    rw [beq_iff_eq] at h ⊢
    exact h.symm
  trans a b c hab hbc := by
    rw [beq_iff_eq] at hab hbc ⊢
    exact hab.trans hbc

/-- Stores that answer as empty ones do, and a database that never fails. -/
def quiet : Env := { answers := fun _ op => (op.exec sampleCrypto {}).1 }

/-- Alice registers and logs in; bob does the same. -/
def aliceAndBob : List Request :=
  [.line quiet 1 (registerLine "alice"), .line quiet 1 (loginLine "alice"),
    .line quiet 2 (registerLine "bob"), .line quiet 2 (loginLine "bob")]

/-- A table without accounts. -/
def noAccounts : UsersTable caseInsensitive := UsersTable.empty

/-- The account of Alice. -/
def aliceRow : UserRecord :=
  { id := 1, username := ascii "alice",
    passwordHash := hashPasswordPbkdf2 sampleCrypto 0 (ascii "pw") }

/-- Under the spelling she registered, Alice is found, refused a second login and
reached by Bob. -/
theorem online_iff_stored :
    let s := serveAll sampleCrypto noAccounts aliceAndBob
    s.sessions.findByUsername (ascii "alice") = s.sessions.find 1 ∧
    (∃ reason, (handleLine sampleCrypto quiet s 3 (loginLine "alice")).1 =
      reply 3 (.loginFailed reason)) ∧
    ∃ id, (handleLine sampleCrypto quiet s 2 (dmLine (ascii "alice") (ascii "hi"))).1 =
      { connectionId := 1, response := .directMessage (ascii "bob") (ascii "hi") } ::
        reply 2 (.messageAck id true true) := by
  intro s
  obtain ⟨hAgree, hRequests⟩ := online_iff sampleCrypto noAccounts aliceAndBob (ascii "alice")
    aliceRow (by decide +kernel)
  have hRequests := hRequests { userId := 1, connectionId := 1, username := ascii "alice" }
    (by decide +kernel) quiet
  refine ⟨hAgree.mpr (Or.inr rfl), ?_, ?_⟩
  · exact ((hRequests 3 (loginLine "alice")
      { type := .login, username := ascii "alice", password := ascii "pw" }
      (by decide +kernel)).1 rfl rfl).mpr (Or.inl rfl)
  · exact ((hRequests 2 (dmLine (ascii "alice") (ascii "hi"))
      { type := .directChat, targetUsername := ascii "alice", body := ascii "hi" }
      (by decide +kernel)).2 rfl rfl
      { userId := 2, connectionId := 2, username := ascii "bob" } (by decide +kernel)
      (by decide +kernel)).mpr rfl

/-- Under another spelling the table finds Alice's account and the session manager
does not find her session: a second login succeeds, and Bob's message is
acknowledged as not delivered. -/
theorem online_otherCase :
    let s := serveAll sampleCrypto noAccounts aliceAndBob
    s.users.findUserByUsername {} (ascii "ALICE") = some aliceRow ∧
    s.sessions.find 1 = some { userId := 1, connectionId := 1, username := ascii "alice" } ∧
    s.sessions.findByUsername (ascii "ALICE") = none ∧
    (handleLine sampleCrypto quiet s 3 (loginLine "ALICE")).1 =
      reply 3 (.loginSuccess 1 (ascii "alice")) ∧
    ∃ id, (handleLine sampleCrypto quiet s 2 (dmLine (ascii "ALICE") (ascii "hi"))).1 =
      reply 2 (.messageAck id true false) := by
  -- one evaluation of the run for all of it
  have hRun : let s := serveAll sampleCrypto noAccounts aliceAndBob
      s.users.findUserByUsername {} (ascii "ALICE") = some aliceRow ∧
      s.sessions.find 1 = some { userId := 1, connectionId := 1, username := ascii "alice" } ∧
      s.sessions.findByUsername (ascii "ALICE") = none ∧
      (handleLine sampleCrypto quiet s 3 (loginLine "ALICE")).1 =
        reply 3 (.loginSuccess 1 (ascii "alice")) ∧
      (handleLine sampleCrypto quiet s 2 (dmLine (ascii "ALICE") (ascii "hi"))).1 =
        reply 2 (.messageAck 1 true false) := by
    decide +kernel
  obtain ⟨hUser, hSession, hName, hLogin, hAck⟩ := hRun
  exact ⟨hUser, hSession, hName, hLogin, 1, hAck⟩

end CppChat.Ports.UsernameCollation
