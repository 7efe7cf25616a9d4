import CppChat.Verified.Transition
import CppChat.Ports.ChatCalls

/-!
# Logins behind the thread pool

The pool runs `handle_client_line` for several connections at once.  Here each
connection has at most one request in flight, the workers' steps interleave
freely, and the reactor may run `handle_disconnect` at any moment.  What
follows a call and touches nothing shared belongs to that call's step, so a
request produces its replies in the step of its last call.

A login checks the connection, checks the name, verifies the password and
binds, and the session lock is free between any two of these.  Two logins of
one user can both pass the name check before either binds, and the later
`bind` then displaces the earlier session without a word.  What the check is
meant to ensure is `bindsOffline`: the `bind` runs while its user has no
session.

## Main results

* `step_inv`: a step that meets `bindsOffline` keeps the login invariant.
* `login_exclusive`: in a run of such steps a logged-in connection keeps its session, and
  no other connection is logged in as the same user.
* `login_displaced`: a run in which two logins interleave and the first loses its
  session.
-/

namespace CppChat.Ports.ConcurrentLogin

open CppChat.Verified
open CppChat.Verified.AtomicProgram
open CppChat.Verified.Transition
open CppChat.Ports.Protocol
open CppChat.Ports.Sessions
open CppChat.Ports.Users
open CppChat.Ports.Chat

/-! ## The system -/

/-- What an observer of the service sees: a reply, or the end of a login by
`logout` or `handle_disconnect`. -/
inductive Event where
  | produced (message : OutboundMessage)
  | released (connectionId : Nat)
deriving DecidableEq, Repr

/-- The shared state, what is left of the request of each busy connection, and
the events so far, newest first. -/
structure Workers where
  chat : ChatState := {}
  inFlight : UnorderedMap Nat (Service (List OutboundMessage)) := ∅
  log : List Event := []

/-- A worker starts a request, a worker makes one call, or a connection is gone. -/
inductive Action where
  | start (connectionId : Nat) (payload : Bytes)
  | work (connectionId : Nat)
  | disconnect (connectionId : Nat)

/-- The event of a call: `unbind_connection` ends a login. -/
def callEvents : ServiceCall → List Event
  | .unbindConnection c => [.released c]
  | _ => []

/-- Keep what is left of a request, or record the replies of a finished one. -/
def Workers.settle (w : Workers) (c : Nat) : Service (List OutboundMessage) → Workers
  | .done out =>
      { w with inFlight := w.inFlight.erase c, log := out.map Event.produced ++ w.log }
  | .call op next => { w with inFlight := w.inFlight.insert c (.call op next) }

/-- Perform one call on the shared state. -/
def Workers.exec (crypto : Crypto) (w : Workers) (op : ServiceCall) : Workers :=
  { w with chat := (op.exec crypto w.chat).2, log := callEvents op ++ w.log }

/-- The next call of the request of a connection. -/
def Workers.advance (crypto : Crypto) (w : Workers) (c : Nat) :
    Service (List OutboundMessage) → Option Workers
  | .done _ => none
  | .call op next =>
      some ((w.exec crypto op).settle c (next (op.exec crypto w.chat).1))

/-- One step of the workers; a connection has at most one request in flight. -/
def step (crypto : Crypto) (w : Workers) : Action → Option Workers
  | .start c payload =>
      if (w.inFlight.lookup c).isSome then none
      else some (w.settle c (handleClientLine c payload))
  | .work c => (w.inFlight.lookup c).bind (w.advance crypto c)
  | .disconnect c => some (w.exec crypto (.unbindConnection c))

/-- When the step is a `bind`, its user has no session. -/
def bindsOffline (w : Workers) : Action → Bool
  | .work c =>
      match (w.inFlight.lookup c).bind Prog.nextCall with
      | some (.bind session) => (w.chat.sessions.find session.userId).isNone
      | _ => true
  | _ => true

/-! ## Who is logged in -/

/-- A `login_success` for the user. -/
def grants (u : Nat) : Response → Bool
  | .loginSuccess userId _ => userId == u
  | _ => false

/-- The connection obtained `login_success` for the user and has neither logged
out nor disconnected since. -/
def loggedIn (c u : Nat) : List Event → Bool
  | [] => false
  | .produced message :: rest =>
      (message.connectionId == c && grants u message.response) || loggedIn c u rest
  | .released c' :: rest => c' != c && loggedIn c u rest

/-- Replies without a `login_success`. -/
def NoLogin (out : List OutboundMessage) : Prop :=
  ∀ message ∈ out, ∀ u, grants u message.response = false

theorem loggedIn_produced_of_noLogin {out : List OutboundMessage} (h : NoLogin out)
    (c u : Nat) (log : List Event) :
    loggedIn c u (out.map Event.produced ++ log) = loggedIn c u log := by
  induction out with
  | nil => rfl
  | cons message rest ih =>
      obtain ⟨hFirst, hRest⟩ := List.forall_mem_cons.mp h
      show ((message.connectionId == c && grants u message.response) ||
        loggedIn c u (rest.map Event.produced ++ log)) = loggedIn c u log
      rw [hFirst u, ih hRest, Bool.and_false, Bool.false_or]

theorem loggedIn_callEvents {op : ServiceCall} {c u : Nat} {log : List Event}
    (h : loggedIn c u (callEvents op ++ log)) :
    loggedIn c u log ∧ op ≠ .unbindConnection c := by
  cases op with
  | unbindConnection c' =>
      have hBoth : (c' != c && loggedIn c u log) = true := h
      rw [Bool.and_eq_true, bne_iff_ne] at hBoth
      refine ⟨hBoth.2, ?_⟩
      intro hEq
      injection hEq with hc
      exact hBoth.1 hc
  | _ => exact ⟨h, nofun⟩

/-! ## What one call does to the sessions -/

/-- Any call but `bind`. -/
def NoBind : ServiceCall → Prop
  | .bind _ => False
  | _ => True

/-- No call but `bind` changes the session of a connection, except that
`unbind_connection` ends it. -/
theorem exec_findByConnection {crypto : Crypto} {op : ServiceCall} {s : ChatState}
    (hCons : s.sessions.Consistent) (hOp : NoBind op) (c : Nat) :
    (op.exec crypto s).2.sessions.findByConnection c =
      if op = .unbindConnection c then none else s.sessions.findByConnection c := by
  cases op with
  | bind session => exact hOp.elim
  | unbindConnection c' =>
      show (s.sessions.unbindConnection c').findByConnection c = _
      rw [hCons.findByConnection_unbindConnection]
      by_cases hEq : c = c'
      · subst hEq
        rw [if_pos rfl, if_pos rfl]
      · rw [if_neg hEq, if_neg]
        intro hCall
        injection hCall with hc
        exact hEq hc.symm
  | sessionLeaveGroup g u =>
      rw [if_neg nofun]
      exact s.sessions.findByConnection_leaveGroup g u c
  | _ =>
      rw [if_neg nofun]
      rfl

/-! ## The stages of a login -/

/-- A login with a verified user, about to bind. -/
def bindUser (c : Nat) (user : UserRecord) : Service (List OutboundMessage) := do
  let _ : Unit ← perform (.bind
    { userId := user.id, connectionId := c, username := user.username })
  return reply c (.loginSuccess user.id user.username)

/-- A login that has found the name offline, about to check the password. -/
def checkPassword (c : Nat) (command : ClientCommand) : Service (List OutboundMessage) := do
  let verified : Option UserRecord ←
    perform (.verifyLogin command.username command.password)
  match verified with
  | none => return reply c (.loginFailed (ascii "invalid username or password"))
  | some user => bindUser c user

/-- A login that has found its connection free, about to check the name. -/
def checkName (c : Nat) (command : ClientCommand) : Service (List OutboundMessage) := do
  let online : Bool ← perform (.isUsernameOnline command.username)
  if online then
    return reply c (.loginFailed (ascii "user already online"))
  checkPassword c command

/-- Where the request of a connection stands: it can no longer log anybody in,
or it is a login in one of its four stages.  From the second stage on the
connection is known to be free, and nobody else can take it. -/
inductive Stage (m : SessionManager) (c : Nat) : Service (List OutboundMessage) → Prop
  | quiet {p : Service (List OutboundMessage)} (hUses : p.Uses NoBind)
      (hReturns : p.Returns NoLogin) : Stage m c p
  | checkConnection (command : ClientCommand) : Stage m c (handleLogin c command)
  | checkName (command : ClientCommand) (hFree : m.findByConnection c = none) :
      Stage m c (checkName c command)
  | checkPassword (command : ClientCommand) (hFree : m.findByConnection c = none) :
      Stage m c (checkPassword c command)
  | bindUser (user : UserRecord) (hFree : m.findByConnection c = none) :
      Stage m c (bindUser c user)

theorem Stage.mono {m m' : SessionManager} {c : Nat} {p : Service (List OutboundMessage)}
    (h : m.findByConnection c = none → m'.findByConnection c = none)
    (hStage : Stage m c p) : Stage m' c p := by
  cases hStage with
  | quiet hUses hReturns => exact .quiet hUses hReturns
  | checkConnection command => exact .checkConnection command
  | checkName command hFree => exact .checkName command (h hFree)
  | checkPassword command hFree => exact .checkPassword command (h hFree)
  | bindUser user hFree => exact .bindUser user (h hFree)

theorem noLogin_reply {response : Response} (h : ∀ u, grants u response = false) (c : Nat) :
    NoLogin (reply c response) := by
  intro message hMem
  rw [List.mem_singleton.mp hMem]
  exact h

theorem Stage.reply {m : SessionManager} {response : Response}
    (h : ∀ u, grants u response = false) (c : Nat) :
    Stage m c (pure (Chat.reply c response)) :=
  .quiet trivial (noLogin_reply h c)

/-- Every request starts in a stage. -/
theorem stage_handleClientLine (m : SessionManager) (c : Nat) (payload : Bytes) :
    Stage m c (handleClientLine c payload) := by
  unfold handleClientLine
  cases parseClientCommand payload with
  | error reason => exact .reply (fun _ => rfl) c
  | ok command =>
      show Stage m c (handleCommand c command)
      by_cases hLogin : command.type = .login
      · rw [handleCommand, hLogin]
        exact .checkConnection command
      · apply Stage.quiet
        · apply (handleCommand_uses c command).mono
          intro op hMade
          cases op with
          | bind session => exact hLogin hMade.1
          | _ => trivial
        · apply (handleCommand_returns c command).mono
          intro out hAnswers message hMem u
          have hAnswer := hAnswers message hMem
          unfold OutboundMessage.AnswersTo at hAnswer
          cases hResponse : message.response with
          | loginSuccess userId username =>
              rw [hResponse] at hAnswer
              exact absurd hAnswer.1 hLogin
          | _ => rfl

/-- Replies given in a stage grant nothing. -/
theorem Stage.noLogin {m : SessionManager} {c : Nat} {out : List OutboundMessage}
    (h : Stage m c (.done out)) : NoLogin out := by
  generalize hp : (Prog.done out : Service (List OutboundMessage)) = p at h
  cases h with
  | quiet hUses hReturns =>
      subst hp
      exact hReturns
  | checkConnection command => exact absurd hp nofun
  | checkName command hFree => exact absurd hp nofun
  | checkPassword command hFree => exact absurd hp nofun
  | bindUser user hFree => exact absurd hp nofun

/-! ## The invariant -/

/-- The indexes agree, every request in flight is in a stage, and whoever is
logged in by the log has the session. -/
structure Inv (w : Workers) : Prop where
  consistent : w.chat.sessions.Consistent
  stage : ∀ c p, w.inFlight.lookup c = some p → Stage w.chat.sessions c p
  holds : ∀ c u, loggedIn c u w.log →
    ∃ session, w.chat.sessions.findByConnection c = some session ∧ session.userId = u

theorem inv_init : Inv {} where
  consistent := SessionManager.Consistent.empty
  stage := by simp
  holds := by simp [loggedIn]

/-- Putting a request back, when the rest of the system is in order. -/
theorem inv_settle {w : Workers} {c : Nat} {p : Service (List OutboundMessage)}
    (hCons : w.chat.sessions.Consistent)
    (hOthers : ∀ c' p', c' ≠ c → w.inFlight.lookup c' = some p' →
      Stage w.chat.sessions c' p')
    (hHolds : ∀ c' u, loggedIn c' u w.log →
      ∃ session, w.chat.sessions.findByConnection c' = some session ∧ session.userId = u)
    (hStage : Stage w.chat.sessions c p) : Inv (w.settle c p) := by
  cases p with
  | done out =>
      refine ⟨hCons, ?_, ?_⟩
      · intro c' p' hLookup
        have hErase : (w.inFlight.erase c).lookup c' = some p' := hLookup
        rw [UnorderedMap.lookup_erase] at hErase
        by_cases hEq : c' = c
        · rw [if_pos hEq] at hErase
          contradiction
        · rw [if_neg hEq] at hErase
          exact hOthers c' p' hEq hErase
      · intro c' u hLog
        have hLog' : loggedIn c' u (out.map Event.produced ++ w.log) = true := hLog
        rw [loggedIn_produced_of_noLogin hStage.noLogin] at hLog'
        exact hHolds c' u hLog'
  | call op next =>
      refine ⟨hCons, ?_, hHolds⟩
      intro c' p' hLookup
      have hInsert : (w.inFlight.insert c (.call op next)).lookup c' = some p' := hLookup
      rw [UnorderedMap.lookup_insert] at hInsert
      by_cases hEq : c' = c
      · rw [if_pos hEq] at hInsert
        rw [← Option.some.inj hInsert, hEq]
        exact hStage
      · rw [if_neg hEq] at hInsert
        exact hOthers c' p' hEq hInsert

/-- A call other than `bind` keeps all but the stage of its own request. -/
theorem exec_inv {crypto : Crypto} {w : Workers} {op : ServiceCall} (h : Inv w)
    (hOp : NoBind op) : Inv (w.exec crypto op) where
  consistent := exec_consistent crypto op w.chat h.consistent
  stage := by
    intro c p hLookup
    apply (h.stage c p hLookup).mono
    intro hFree
    show (op.exec crypto w.chat).2.sessions.findByConnection c = none
    rw [exec_findByConnection h.consistent hOp, hFree]
    split <;> rfl
  holds := by
    intro c u hLog
    obtain ⟨hBefore, hNot⟩ := loggedIn_callEvents hLog
    obtain ⟨session, hFind, hUser⟩ := h.holds c u hBefore
    refine ⟨session, ?_, hUser⟩
    show (op.exec crypto w.chat).2.sessions.findByConnection c = some session
    rw [exec_findByConnection h.consistent hOp, if_neg hNot]
    exact hFind

/-- A step of a request whose next call is not `bind`, into a stage again. -/
theorem advance_inv {crypto : Crypto} {w : Workers} {c : Nat}
    {p : Service (List OutboundMessage)} (op : ServiceCall) (h : Inv w) (hOp : NoBind op)
    (hStage : Stage (op.exec crypto w.chat).2.sessions c p) :
    Inv ((w.exec crypto op).settle c p) := by
  have hExec : Inv (w.exec crypto op) := exec_inv h hOp
  apply inv_settle hExec.consistent _ hExec.holds hStage
  intro c' p' _ hLookup
  exact hExec.stage c' p' hLookup

/-- The `bind` of a login, when its user has no session. -/
theorem bind_inv {crypto : Crypto} {w : Workers} {c : Nat} {user : UserRecord} (h : Inv w)
    (hFree : w.chat.sessions.findByConnection c = none)
    (hOffline : w.chat.sessions.find user.id = none) :
    Inv ((w.exec crypto (.bind
        { userId := user.id, connectionId := c, username := user.username })).settle c
      (.done (reply c (.loginSuccess user.id user.username)))) := by
  have hFind : ∀ c', (w.chat.sessions.bind
      { userId := user.id, connectionId := c, username := user.username }).findByConnection
        c' = if c' = c then some { userId := user.id, connectionId := c,
                                   username := user.username }
          else w.chat.sessions.findByConnection c' :=
    h.consistent.findByConnection_bind hOffline hFree
  refine ⟨h.consistent.bind _, ?_, ?_⟩
  · intro c' p' hLookup
    have hErase : (w.inFlight.erase c).lookup c' = some p' := hLookup
    rw [UnorderedMap.lookup_erase] at hErase
    by_cases hEq : c' = c
    · rw [if_pos hEq] at hErase
      contradiction
    · rw [if_neg hEq] at hErase
      apply (h.stage c' p' hErase).mono
      intro hFree'
      exact (hFind c').trans ((if_neg hEq).trans hFree')
  · intro c' u hLog
    have hCases : (c == c' && user.id == u || loggedIn c' u w.log) = true := hLog
    by_cases hEq : c' = c
    · refine ⟨_, (hFind c').trans (if_pos hEq), ?_⟩
      rw [Bool.or_eq_true, Bool.and_eq_true, beq_iff_eq, beq_iff_eq] at hCases
      rcases hCases with hNew | hOld
      · exact hNew.2
      · -- The connection was free, so the log had nobody logged in on it.
        obtain ⟨session, hSome, _⟩ := h.holds c' u hOld
        rw [hEq, hFree] at hSome
        contradiction
    · have hOld : loggedIn c' u w.log = true := by
        rw [Bool.or_eq_true, Bool.and_eq_true, beq_iff_eq] at hCases
        rcases hCases with hNew | hOld
        · exact absurd hNew.1.symm hEq
        · exact hOld
      obtain ⟨session, hSome, hUser⟩ := h.holds c' u hOld
      exact ⟨session, (hFind c').trans ((if_neg hEq).trans hSome), hUser⟩

theorem work_inv {crypto : Crypto} {w w' : Workers} {c : Nat}
    {p : Service (List OutboundMessage)} (h : Inv w)
    (hOk : ∀ session, p.nextCall = some (.bind session) →
      w.chat.sessions.find session.userId = none)
    (hStage : Stage w.chat.sessions c p) (hStep : w.advance crypto c p = some w') :
    Inv w' := by
  cases hStage with
  | quiet hUses hReturns =>
      cases p with
      | done out => exact absurd hStep nofun
      | call op next =>
          injection hStep with hEq
          rw [← hEq]
          exact advance_inv op h hUses.1 (.quiet (hUses.2 _) (hReturns _))
  | checkConnection command =>
      injection hStep with hEq
      rw [← hEq]
      have hNext : Stage w.chat.sessions c
          (if (w.chat.sessions.findByConnection c).isSome then
            pure (reply c (.loginFailed (ascii "already logged in")))
          else checkName c command) := by
        cases hFind : w.chat.sessions.findByConnection c with
        | none => exact .checkName command hFind
        | some session => exact .reply (fun _ => rfl) c
      exact advance_inv (.findByConnection c) h trivial hNext
  | checkName command hFree =>
      injection hStep with hEq
      rw [← hEq]
      have hNext : Stage w.chat.sessions c
          (if w.chat.sessions.isUsernameOnline command.username then
            pure (reply c (.loginFailed (ascii "user already online")))
          else checkPassword c command) := by
        cases w.chat.sessions.isUsernameOnline command.username with
        | true => exact .reply (fun _ => rfl) c
        | false => exact .checkPassword command hFree
      exact advance_inv (.isUsernameOnline command.username) h trivial hNext
  | checkPassword command hFree =>
      injection hStep with hEq
      rw [← hEq]
      have hNext : Stage w.chat.sessions c
          (match w.chat.users.verifyLogin crypto command.username command.password with
            | none => pure (reply c (.loginFailed (ascii "invalid username or password")))
            | some user => bindUser c user) := by
        cases w.chat.users.verifyLogin crypto command.username command.password with
        | none => exact .reply (fun _ => rfl) c
        | some user => exact .bindUser user hFree
      exact advance_inv (.verifyLogin command.username command.password) h trivial hNext
  | bindUser user hFree =>
      injection hStep with hEq
      rw [← hEq]
      exact bind_inv h hFree (hOk _ rfl)

/-- A step that meets `bindsOffline` keeps the invariant. -/
theorem step_inv {crypto : Crypto} (w : Workers) (a : Action) (w' : Workers) (h : Inv w)
    (hOk : bindsOffline w a) (hStep : step crypto w a = some w') : Inv w' := by
  cases a with
  | start c payload =>
      rw [step] at hStep
      split at hStep
      · contradiction
      · injection hStep with hEq
        rw [← hEq]
        apply inv_settle h.consistent _ h.holds (stage_handleClientLine _ c payload)
        intro c' p' _ hLookup
        exact h.stage c' p' hLookup
  | work c =>
      rw [step] at hStep
      cases hLookup : w.inFlight.lookup c with
      | none =>
          rw [hLookup] at hStep
          contradiction
      | some p =>
          rw [hLookup] at hStep
          refine work_inv h ?_ (h.stage c p hLookup) hStep
          intro session hCall
          rw [bindsOffline, hLookup, Option.bind_some, hCall] at hOk
          exact Option.isNone_iff_eq_none.mp hOk
  | disconnect c =>
      injection hStep with hEq
      rw [← hEq]
      exact exec_inv h trivial

/-- In every run whose `bind` calls each find their user offline, whoever has
obtained `login_success` and neither logged out nor disconnected still has the
session, and no other connection has been logged in as the same user. -/
theorem login_exclusive (crypto : Crypto) (acts : List Action) (w : Workers)
    (hMeet : StepsMeet (step crypto) (fun w a => bindsOffline w a) {} acts)
    (hRun : run (step crypto) {} acts = some w) :
    (∀ c u, loggedIn c u w.log →
      ∃ session, w.chat.sessions.findByConnection c = some session ∧
        session.userId = u ∧ session.connectionId = c) ∧
    ∀ c₁ c₂ u, loggedIn c₁ u w.log → loggedIn c₂ u w.log → c₁ = c₂ := by
  have hInv : Inv w := run_invariant_of_stepsMeet step_inv acts {} w inv_init hMeet hRun
  have hHolds : ∀ c u, loggedIn c u w.log →
      ∃ session, w.chat.sessions.findByConnection c = some session ∧
        session.userId = u ∧ session.connectionId = c := by
    intro c u hLog
    obtain ⟨session, hFind, hUser⟩ := hInv.holds c u hLog
    have hSession := hInv.consistent.findByConnection_iff.mp hFind
    exact ⟨session, hFind, hUser, hSession.2⟩
  refine ⟨hHolds, ?_⟩
  intro c₁ c₂ u h₁ h₂
  obtain ⟨s₁, hFind₁, hUser₁, hConn₁⟩ := hHolds c₁ u h₁
  obtain ⟨s₂, hFind₂, hUser₂, hConn₂⟩ := hHolds c₂ u h₂
  have hLookup₁ := (hInv.consistent.findByConnection_iff.mp hFind₁).1
  have hLookup₂ := (hInv.consistent.findByConnection_iff.mp hFind₂).1
  rw [hUser₁] at hLookup₁
  rw [hUser₂, hLookup₁] at hLookup₂
  have hSame : s₁ = s₂ := Option.some.inj hLookup₂
  rw [← hConn₁, ← hConn₂, hSame]

/-- A user logs in, a second connection tries the same and is refused. -/
theorem login_exclusive_secondRefused :
    ∃ w, run (step sampleCrypto) {}
        [.start 1 (registerLine "alice"), .work 1, .work 1,
          .start 1 (loginLine "alice"), .work 1, .work 1, .work 1, .work 1,
          .start 2 (loginLine "alice"), .work 2, .work 2] = some w ∧
      loggedIn 1 1 w.log = true ∧
      ∃ session, w.chat.sessions.findByConnection 1 = some session ∧ session.userId = 1 ∧
        session.connectionId = 1 := by
  obtain ⟨w, hRun, hLog⟩ := Option.map_eq_some_iff.mp
    (show (run (step sampleCrypto) {}
      [.start 1 (registerLine "alice"), .work 1, .work 1,
        .start 1 (loginLine "alice"), .work 1, .work 1, .work 1, .work 1,
        .start 2 (loginLine "alice"), .work 2, .work 2]).map
          (fun w => loggedIn 1 1 w.log) = some true by decide +kernel)
  have hHolds := (login_exclusive sampleCrypto _ w (by decide +kernel) hRun).1
  exact ⟨w, hRun, hLog, hHolds 1 1 hLog⟩

/-- Both connections pass the name check before either binds: each obtains
`login_success` for user 1, and the first one is left without its session. -/
theorem login_displaced :
    (run (step sampleCrypto) {}
      [.start 1 (registerLine "alice"), .work 1, .work 1,
        .start 1 (loginLine "alice"), .start 2 (loginLine "alice"),
        .work 1, .work 1, .work 2, .work 2, .work 1, .work 1, .work 2, .work 2]).map
      (fun w => (loggedIn 1 1 w.log, loggedIn 2 1 w.log,
        w.chat.sessions.findByConnection 1)) = some (true, true, none) := by
  decide +kernel

end CppChat.Ports.ConcurrentLogin
