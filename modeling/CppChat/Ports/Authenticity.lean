import Mathlib.Data.List.Induction
import CppChat.Ports.ServedRequests

/-!
# Who a request acts for

A request acts for the user of its connection's session, never for a user its
payload names.  The history behind a session is a run of exchanges: the last one
on the connection that touched its session is a login with the user's password.

## Main results

* `sessionOf_of_findByConnection`: a session has a login behind it, and nothing on
  its connection has ended it since.
* `Served.actor`: a message, a group or a change of membership is the work of the
  user whose session the connection has.
* `actions_authentic`: every message, group and membership change of a sequential
  run goes back to a login of its author on the connection that sent the request.
-/

namespace CppChat.Ports.Chat

open CppChat.Verified
open CppChat.Verified.AtomicProgram
open CppChat.Ports.Protocol
open CppChat.Ports.Sessions
open CppChat.Ports.Users
open CppChat.Ports.Groups
open CppChat.Ports.Messages

/-! ## Exchanges -/

/-- A request and the state it is served in. -/
structure Exchange where
  state : ChatState
  request : Request

/-- The exchanges of a run. -/
def exchanges (crypto : Crypto) : ChatState → List Request → List Exchange
  | _, [] => []
  | s, request :: rest =>
      { state := s, request := request } :: exchanges crypto (serve crypto s request) rest

theorem exchanges_concat (crypto : Crypto) (requests : List Request) (request : Request) :
    ∀ s, exchanges crypto s (requests ++ [request]) =
      exchanges crypto s requests ++
        [{ state := requests.foldl (serve crypto) s, request := request }] := by
  induction requests with
  | nil => intro s; rfl
  | cons first rest ih =>
      intro s
      rw [List.cons_append, exchanges, exchanges, ih, List.foldl_cons, List.cons_append]

theorem serveAll_concat (crypto : Crypto) (requests : List Request) (request : Request) :
    serveAll crypto (requests ++ [request]) =
      serve crypto (serveAll crypto requests) request := by
  rw [serveAll, List.foldl_append]
  rfl

/-- A login on a connection: the password matches the stored hash of the account,
and the answer says so. -/
def Exchange.LogsIn (crypto : Crypto) (x : Exchange) (c u : Nat) : Prop :=
  ∃ payload command user, x.request = .line c payload ∧
    parseClientCommand payload = .ok command ∧ command.type = .login ∧
    x.state.users.findUserByUsername command.username = some user ∧ user.id = u ∧
    verifyPasswordPbkdf2 crypto command.password user.passwordHash = true ∧
    replies crypto x.state x.request = reply c (.loginSuccess u user.username)

/-- A disconnect of the connection, a `logout` on it, or a login that succeeds
on it. -/
def Exchange.TouchesSession (crypto : Crypto) (x : Exchange) (c : Nat) : Prop :=
  x.request = .disconnect c ∨
    ∃ payload, x.request = .line c payload ∧
      ((∃ command, parseClientCommand payload = .ok command ∧ command.type = .logout) ∨
        ∃ u name, replies crypto x.state x.request = reply c (.loginSuccess u name))

/-- The last exchange that touched the session of the connection is a login of
the user. -/
def SessionOf (crypto : Crypto) (history : List Exchange) (c u : Nat) : Prop :=
  ∃ before login after, history = before ++ login :: after ∧ login.LogsIn crypto c u ∧
    ∀ x ∈ after, ¬x.TouchesSession crypto c

variable {crypto : Crypto} {s s' : ChatState}

theorem SessionOf.snoc {history : List Exchange} {x : Exchange} {c u : Nat}
    (h : SessionOf crypto history c u) (hx : ¬x.TouchesSession crypto c) :
    SessionOf crypto (history ++ [x]) c u := by
  obtain ⟨before, login, after, rfl, hLogin, hAfter⟩ := h
  refine ⟨before, login, after ++ [x], by simp, hLogin, ?_⟩
  intro y hy
  rcases List.mem_append.mp hy with hOld | hNew
  · exact hAfter y hOld
  · rw [List.mem_singleton.mp hNew]
    exact hx

/-! ## Sessions and logins -/

/-- A login finds its user offline. -/
theorem ServiceInv.offline (h : ServiceInv s) {n : Bytes} {user : UserRecord}
    (hOnline : s.sessions.isUsernameOnline n = false)
    (hUser : s.users.findUserByUsername n = some user) :
    s.sessions.find user.id = none := by
  rw [← h.findByUsername_eq hUser]
  exact Option.not_isSome_iff_eq_none.mp (by
    rw [show (s.sessions.findByUsername n).isSome = false from hOnline]
    exact Bool.false_ne_true)

/-- A session that is there after a request was there before, or is the one the
request has logged in. -/
theorem Served.findByConnection {request : Request} {out : List OutboundMessage}
    (hServed : Served crypto s request out s') (h : ServiceInv s) {c : Nat}
    {session : Session} (hFind : s'.sessions.findByConnection c = some session) :
    s.sessions.findByConnection c = some session ∨
      ∃ payload command user, request = .line c payload ∧
        parseClientCommand payload = .ok command ∧ command.type = .login ∧
        s.users.verifyLogin crypto command.username command.password = some user ∧
        user.id = session.userId ∧ out = reply c (.loginSuccess user.id user.username) := by
  cases hServed with
  | @loggedIn c' payload command user hParse hType hFree hOnline hVerify =>
      have hOffline := h.offline hOnline (UserStore.verifyLogin_eq_some hVerify).1
      have hFind : (s.sessions.bind
          { userId := user.id, connectionId := c', username := user.username }).findByConnection
            c = some session := hFind
      rw [h.consistent.findByConnection_bind hOffline hFree] at hFind
      split at hFind
      · rename_i hc
        have hc : c = c' := hc
        subst hc
        refine Or.inr ⟨payload, command, user, rfl, hParse, hType, hVerify, ?_, rfl⟩
        rw [← Option.some.inj hFind]
      · exact Or.inl hFind
  | loggedOut _ _ | disconnected => exact Or.inl (h.consistent.kept_of_unbindConnection hFind)
  | left _ _ _ =>
      rw [SessionManager.findByConnection_leaveGroup] at hFind
      exact Or.inl hFind
  | _ => exact Or.inl hFind

/-- A `logout` leaves its connection without a session. -/
theorem findByConnection_of_logout (h : ServiceInv s) {c : Nat} {payload : Bytes}
    {command : ClientCommand} (hParse : parseClientCommand payload = .ok command)
    (hType : command.type = .logout) :
    (serve crypto s (.line c payload)).sessions.findByConnection c = none := by
  have hNeeds : ¬NeedsNoSession command := by
    rintro (hPing | hRegister | hLogin)
    · rw [hPing] at hType; contradiction
    · rw [hRegister] at hType; contradiction
    · rw [hLogin] at hType; contradiction
  rw [serve, handleLine_ok c hParse]
  cases hFind : s.sessions.findByConnection c with
  | none =>
      rw [handleCommand_run_of_none hNeeds hFind]
      exact hFind
  | some sender =>
      rw [handleCommand_run_of_some hNeeds hFind, handleSession, hType]
      show (s.sessions.unbindConnection c).findByConnection c = none
      rw [h.consistent.findByConnection_unbindConnection, if_pos rfl]

/-- A connection that has a session gets no login. -/
theorem no_login_of_bound {c : Nat} {session : Session}
    (hBound : s.sessions.findByConnection c = some session) (payload : Bytes) (u : Nat)
    (name : Bytes) :
    replies crypto s (.line c payload) ≠ reply c (.loginSuccess u name) := by
  intro hReplies
  cases hParse : parseClientCommand payload with
  | error reason =>
      rw [replies, handleLine_error c hParse] at hReplies
      simp [reply] at hReplies
  | ok command =>
      rw [replies, handleLine_ok c hParse] at hReplies
      -- the reply table knows only one command that leads to this answer
      have hAnswers : Answers c command
          ((handleCommand c command).run (ServiceCall.exec crypto) s).1 :=
        Prog.run_returns _ s (handleCommand_returns c command)
      rw [hReplies] at hAnswers
      have hType : command.type = .login :=
        (hAnswers { connectionId := c, response := .loginSuccess u name }
          (List.mem_singleton.mpr rfl)).1
      have hCommand : handleCommand c command = handleLogin c command := by
        simp only [handleCommand, hType]
      rw [hCommand, handleLogin_run, hBound] at hReplies
      simp [reply] at hReplies

/-- What a request leaves of a session it did not log in has not been touched. -/
theorem not_touchesSession (h : ServiceInv s) {request : Request} {c : Nat}
    {session session' : Session} (hBefore : s.sessions.findByConnection c = some session)
    (hAfter : (serve crypto s request).sessions.findByConnection c = some session') :
    ¬(Exchange.mk s request).TouchesSession crypto c := by
  rintro (hDisconnect | ⟨payload, hLine, ⟨command, hParse, hType⟩ | ⟨u, name, hReplies⟩⟩)
  · have hDisconnect : request = .disconnect c := hDisconnect
    subst hDisconnect
    have hAfter : (s.sessions.unbindConnection c).findByConnection c = some session' := hAfter
    rw [h.consistent.findByConnection_unbindConnection, if_pos rfl] at hAfter
    contradiction
  · have hLine : request = .line c payload := hLine
    rw [hLine, findByConnection_of_logout h hParse hType] at hAfter
    contradiction
  · have hLine : request = .line c payload := hLine
    subst hLine
    exact no_login_of_bound hBefore payload u name hReplies

/-- One more request: its exchange extends the history of the session it keeps,
or is itself the login. -/
theorem sessionOf_concat (h : ServiceInv s) {history : List Exchange}
    (hHistory : ∀ c session, s.sessions.findByConnection c = some session →
      SessionOf crypto history c session.userId)
    (request : Request) {c : Nat} {session : Session}
    (hFind : (serve crypto s request).sessions.findByConnection c = some session) :
    SessionOf crypto (history ++ [{ state := s, request := request }]) c session.userId := by
  rcases (served crypto s request).findByConnection h hFind with
    hBefore | ⟨payload, command, user, rfl, hParse, hType, hVerify, hId, hReplies⟩
  · exact (hHistory c session hBefore).snoc (not_touchesSession h hBefore hFind)
  · obtain ⟨hUser, hPassword⟩ := UserStore.verifyLogin_eq_some hVerify
    refine ⟨history, _, [], rfl, ?_, fun x hx => absurd hx List.not_mem_nil⟩
    exact ⟨payload, command, user, rfl, hParse, hType, hUser, hId, hPassword, hId ▸ hReplies⟩

/-- Every session of a run has a login behind it that nothing has ended. -/
theorem sessionOf_of_findByConnection (crypto : Crypto) (requests : List Request) :
    ∀ c session, (serveAll crypto requests).sessions.findByConnection c = some session →
      SessionOf crypto (exchanges crypto {} requests) c session.userId := by
  induction requests using List.reverseRec with
  | nil =>
      intro c session hFind
      contradiction
  | append_singleton requests request ih =>
      intro c session hFind
      rw [serveAll_concat] at hFind
      rw [exchanges_concat]
      exact sessionOf_concat (serviceInv_of_reachable ⟨requests, rfl⟩) ih request hFind

/-! ## What a request does in a user's name -/

/-- The state has a message, a group or a membership of the user that it did not
have before, or has lost a membership. -/
inductive ActsFor (u : Nat) (s s' : ChatState) : Prop
  | message (m : StoredMessage) (hNew : m ∈ s'.messages.numbered)
      (hOld : m ∉ s.messages.numbered) (hSender : m.senderId = u)
  | group (g : Nat) (group : GroupRecord) (hNew : s'.groups.findGroup g = some group)
      (hOld : s.groups.findGroup g ≠ some group) (hOwner : group.ownerId = u)
  | membership (g : Nat)
      (hChange : s'.members.isGroupMember g u ≠ s.members.isGroupMember g u)

theorem ActsFor.sender {u v : Nat} {message : Message}
    (h : ActsFor u s { s with messages := (s.messages.append message).2 })
    (hSender : message.senderId = v) : v = u := by
  cases h with
  | message m hNew hOld hu =>
      have hNew : m ∈ (s.messages.append message).2.numbered := hNew
      rw [MessageStore.numbered_append] at hNew
      rcases List.mem_append.mp hNew with hKept | hLast
      · exact absurd hKept hOld
      · rw [List.mem_singleton.mp hLast] at hu
        exact hSender.symm.trans hu
  | group g group hNew hOld _ => exact absurd hNew hOld
  | membership g hChange => exact absurd rfl hChange

/-- A join changes nobody's membership but the user's own. -/
theorem joinGroup_member {members : GroupMemberStore} {g v u g' : Nat}
    (h : (members.joinGroup g v).2.isGroupMember g' u ≠ members.isGroupMember g' u) :
    v = u := by
  by_contra hNe
  apply h
  rw [Bool.eq_iff_iff, GroupMemberStore.isGroupMember_joinGroup]
  simp [Ne.symm hNe]

theorem leaveGroup_member {members : GroupMemberStore} {g v u g' : Nat}
    (h : (members.leaveGroup g v).2.isGroupMember g' u ≠ members.isGroupMember g' u) :
    v = u := by
  by_contra hNe
  apply h
  rw [Bool.eq_iff_iff, GroupMemberStore.isGroupMember_leaveGroup]
  simp [Ne.symm hNe]

theorem createGroup_owner {groups : GroupStore} {name : Bytes} {v g : Nat}
    {group : GroupRecord} (hNew : (groups.createGroup name v).2.findGroup g = some group)
    (hOld : groups.findGroup g ≠ some group) : group.ownerId = v := by
  unfold GroupStore.createGroup at hNew
  split at hNew
  · exact absurd hNew hOld
  · unfold GroupStore.findGroup at hNew
    dsimp only at hNew
    rw [UnorderedMap.lookup_insert] at hNew
    split at hNew
    · rw [← Option.some.inj hNew]
    · exact absurd hNew hOld

/-- Only the user of the connection's session acts. -/
theorem Served.actor {request : Request} {out : List OutboundMessage} {u : Nat}
    (hServed : Served crypto s request out s') (hActs : ActsFor u s s') :
    ∃ c payload sender, request = .line c payload ∧
      s.sessions.findByConnection c = some sender ∧ sender.userId = u := by
  cases hServed with
  | created hAuth _ _ =>
      refine ⟨_, _, _, rfl, hAuth.bound, ?_⟩
      cases hActs with
      | message m hNew hOld _ => exact absurd hNew hOld
      | group g group hNew hOld hOwner => exact (createGroup_owner hNew hOld).symm.trans hOwner
      | membership g hChange => exact joinGroup_member hChange
  | joined hAuth _ =>
      refine ⟨_, _, _, rfl, hAuth.bound, ?_⟩
      cases hActs with
      | message m hNew hOld _ => exact absurd hNew hOld
      | group g group hNew hOld _ => exact absurd hNew hOld
      | membership g hChange => exact joinGroup_member hChange
  | left hAuth _ _ =>
      refine ⟨_, _, _, rfl, hAuth.bound, ?_⟩
      cases hActs with
      | message m hNew hOld _ => exact absurd hNew hOld
      | group g group hNew hOld _ => exact absurd hNew hOld
      | membership g hChange => exact leaveGroup_member hChange
  | directSent hAuth _ _ => exact ⟨_, _, _, rfl, hAuth.bound, hActs.sender rfl⟩
  | groupSent hAuth _ _ => exact ⟨_, _, _, rfl, hAuth.bound, hActs.sender rfl⟩
  | _ =>
      cases hActs with
      | message m hNew hOld _ => exact absurd hNew hOld
      | group g group hNew hOld _ => exact absurd hNew hOld
      | membership g hChange => exact absurd rfl hChange

/-- A request that acts for a user comes over a connection the user has logged in
on. -/
theorem actor_loggedIn (crypto : Crypto) (requests : List Request) (request : Request)
    {u : Nat} (hActs : ActsFor u (serveAll crypto requests)
      (serve crypto (serveAll crypto requests) request)) :
    ∃ c payload, request = .line c payload ∧
      SessionOf crypto (exchanges crypto {} requests) c u := by
  obtain ⟨c, payload, sender, hLine, hBound, hUser⟩ :=
    (served crypto (serveAll crypto requests) request).actor hActs
  rw [← hUser]
  exact ⟨c, payload, hLine, sessionOf_of_findByConnection crypto requests c sender hBound⟩

/-- What holds at the end of a run and not at its start was brought about by one
of its requests. -/
theorem exists_step_of_serveAll (crypto : Crypto) (p : ChatState → Prop) (hInit : ¬p {}) :
    ∀ requests : List Request, p (serveAll crypto requests) →
      ∃ before request after, requests = before ++ request :: after ∧
        ¬p (serveAll crypto before) ∧ p (serve crypto (serveAll crypto before) request) := by
  intro requests
  induction requests using List.reverseRec with
  | nil => exact fun h => absurd h hInit
  | append_singleton requests request ih =>
      intro h
      by_cases hBefore : p (serveAll crypto requests)
      · obtain ⟨before, first, after, rfl, hNot, hStep⟩ := ih hBefore
        exact ⟨before, first, after ++ [request], by simp, hNot, hStep⟩
      · rw [serveAll_concat] at h
        exact ⟨requests, request, [], rfl, hBefore, h⟩

/-- In every sequential run, every message, every group and every change of a
membership goes back to a request on a connection where the last exchange that
touched the session was a login of its user. -/
theorem actions_authentic (crypto : Crypto) (requests : List Request) :
    (∀ m ∈ (serveAll crypto requests).messages.numbered,
      ∃ before c payload after, requests = before ++ .line c payload :: after ∧
        m ∉ (serveAll crypto before).messages.numbered ∧
        m ∈ (serve crypto (serveAll crypto before) (.line c payload)).messages.numbered ∧
        SessionOf crypto (exchanges crypto {} before) c m.senderId) ∧
    (∀ g group, (serveAll crypto requests).groups.findGroup g = some group →
      ∃ before c payload after, requests = before ++ .line c payload :: after ∧
        (serveAll crypto before).groups.findGroup g ≠ some group ∧
        (serve crypto (serveAll crypto before) (.line c payload)).groups.findGroup g =
          some group ∧
        SessionOf crypto (exchanges crypto {} before) c group.ownerId) ∧
    ∀ before request after, requests = before ++ request :: after →
      ∀ g u, (serve crypto (serveAll crypto before) request).members.isGroupMember g u ≠
          (serveAll crypto before).members.isGroupMember g u →
        ∃ c payload, request = .line c payload ∧
          SessionOf crypto (exchanges crypto {} before) c u := by
  refine ⟨?_, ?_, ?_⟩
  · intro m hm
    have hInit : ¬m ∈ ({} : ChatState).messages.numbered := List.not_mem_nil
    obtain ⟨before, request, after, hSplit, hOld, hNew⟩ :=
      exists_step_of_serveAll crypto (fun s => m ∈ s.messages.numbered) hInit requests hm
    obtain ⟨c, payload, rfl, hSession⟩ :=
      actor_loggedIn crypto before request (.message m hNew hOld rfl)
    exact ⟨before, c, payload, after, hSplit, hOld, hNew, hSession⟩
  · intro g group hGroup
    have hInit : ¬({} : ChatState).groups.findGroup g = some group := by
      simp [GroupStore.findGroup]
    obtain ⟨before, request, after, hSplit, hOld, hNew⟩ :=
      exists_step_of_serveAll crypto (fun s => s.groups.findGroup g = some group) hInit
        requests hGroup
    obtain ⟨c, payload, rfl, hSession⟩ :=
      actor_loggedIn crypto before request (.group g group hNew hOld rfl)
    exact ⟨before, c, payload, after, hSplit, hOld, hNew, hSession⟩
  · intro before request after _ g u hChange
    exact actor_loggedIn crypto before request (.membership g hChange)

end CppChat.Ports.Chat
