import CppChat.Verified.Transition
import CppChat.Ports.SessionManager

/-!
# The three session indexes agree

`SessionManager` shows that the user index and the connection index are inverse
to each other after every operation.  The third index, from names to users, is
keyed by data the caller supplies: two users bound under one name share an
entry, and the later one takes it.  `Named` is the relation this index keeps as
long as nobody binds a name that another online user has.

A run of the session manager is a list of `SessionCall`s on an empty manager.

## Main results

* `Named.bind`, `Named.unbind`, `Named.unbindConnection`: each operation keeps the
  name index.
* `indexes_agree`: after every list of calls the first two indexes are inverse;
  when the names come from an injective map all three agree; and a `bind` moves
  no session but those it displaces.
-/

namespace CppChat.Ports.Sessions

open CppChat.Verified

namespace SessionManager

variable {m : SessionManager}

/-! ## Unbinding a user -/

theorem Consistent.usersByConnection_unbind (h : Consistent m) (u c : Nat) :
    (m.unbind u).usersByConnection.lookup c =
      if m.usersByConnection.lookup c = some u then none
      else m.usersByConnection.lookup c :=
  h.usersByConnection_dropUser u c

/-- `unbind` ends one session. -/
theorem sessions_unbind (m : SessionManager) (u v : Nat) :
    (m.unbind u).sessions.lookup v = if v = u then none else m.sessions.lookup v := by
  show ((m.dropUser u).sessions.erase u).lookup v = _
  rw [sessions_dropUser, UnorderedMap.lookup_erase]

/-- `unbind` keeps the indexes consistent. -/
theorem Consistent.unbind (h : Consistent m) (u : Nat) : Consistent (m.unbind u) where
  userId_eq := by
    intro v s hs
    rw [sessions_unbind] at hs
    split at hs
    · contradiction
    · exact h.userId_eq v s hs
  connection_iff := by
    intro c v
    rw [h.usersByConnection_unbind, sessions_unbind]
    by_cases hv : v = u
    · subst hv
      rw [if_pos rfl]
      constructor
      · intro hEq
        split at hEq
        · contradiction
        · rename_i hNot
          exact absurd hEq hNot
      · rintro ⟨_, hNone, _⟩
        contradiction
    · rw [if_neg hv, ← h.connection_iff]
      split
      · rename_i hOwner
        rw [hOwner]
        simp [Ne.symm hv]
      · rfl

/-! ## The name index -/

/-- The name index lists exactly the names of the sessions. -/
structure Named (m : SessionManager) : Prop where
  username_iff : ∀ n u, m.usersByUsername.lookup n = some u ↔
    ∃ s, m.sessions.lookup u = some s ∧ s.username = n

theorem Named.empty : Named {} where
  username_iff := by simp

/-- The name of a session leads to its user. -/
theorem Named.lookup_username (h : Named m) {u : Nat} {s : Session}
    (hs : m.sessions.lookup u = some s) :
    m.usersByUsername.lookup s.username = some u :=
  (h.username_iff _ _).mpr ⟨s, hs, rfl⟩

/-- Two users online under one name are the same user. -/
theorem Named.user_unique (h : Named m) {u u' : Nat} {s s' : Session}
    (hs : m.sessions.lookup u = some s) (hs' : m.sessions.lookup u' = some s')
    (hName : s.username = s'.username) : u = u' := by
  have h1 := h.lookup_username hs
  have h2 := h.lookup_username hs'
  rw [hName, h2] at h1
  exact (Option.some.inj h1).symm

/-- The name a session is online under, if there is a session. -/
def nameOf (session : Option Session) : Option Bytes := session.map Session.username

@[simp] theorem nameOf_eq_some {session : Option Session} {n : Bytes} :
    nameOf session = some n ↔ ∃ s, session = some s ∧ s.username = n := by
  cases session <;> simp [nameOf]

/-- What erasing the name of a session does to the index. -/
theorem lookup_erase_nameOf (names : UnorderedMap Bytes Nat) (session : Option Session)
    (n : Bytes) :
    (match session with
      | some old => names.erase old.username
      | none => names).lookup n =
      if nameOf session = some n then none else names.lookup n := by
  cases session with
  | none => rfl
  | some old =>
      show (names.erase old.username).lookup n = _
      rw [UnorderedMap.lookup_erase]
      simp only [nameOf, Option.map_some, Option.some.injEq, eq_comm]

/-- The name index loses the name of the old session. -/
theorem usersByUsername_dropUser (m : SessionManager) (u : Nat) (n : Bytes) :
    (m.dropUser u).usersByUsername.lookup n =
      if nameOf (m.find u) = some n then none else m.usersByUsername.lookup n := by
  rw [← lookup_erase_nameOf]
  unfold dropUser find
  cases m.sessions.lookup u <;> rfl

theorem usersByUsername_dropConnection (m : SessionManager) (c : Nat) (n : Bytes) :
    (m.dropConnection c).usersByUsername.lookup n =
      if nameOf (m.findByConnection c) = some n then none
      else m.usersByUsername.lookup n := by
  rw [← lookup_erase_nameOf]
  unfold dropConnection findByConnection
  cases m.usersByConnection.lookup c with
  | none => rfl
  | some previous => cases m.sessions.lookup previous <;> rfl

/-- The name index after `unbind_connection`. -/
theorem usersByUsername_unbindConnection (m : SessionManager) (c : Nat) (n : Bytes) :
    (m.unbindConnection c).usersByUsername.lookup n =
      if nameOf (m.findByConnection c) = some n then none
      else m.usersByUsername.lookup n := by
  rw [← lookup_erase_nameOf]
  unfold unbindConnection findByConnection
  cases m.usersByConnection.lookup c with
  | none => rfl
  | some userId => cases m.sessions.lookup userId <;> rfl

/-- A dropped user no longer owns its connection. -/
theorem Consistent.findByConnection_dropUser (h : Consistent m) (u c : Nat) :
    (m.dropUser u).findByConnection c =
      if m.usersByConnection.lookup c = some u then none else m.findByConnection c := by
  unfold findByConnection
  rw [h.usersByConnection_dropUser, sessions_dropUser]
  by_cases hOwner : m.usersByConnection.lookup c = some u
  · simp only [if_pos hOwner]
  · simp only [if_neg hOwner]

theorem findByConnection_of_owner {c u : Nat}
    (hOwner : m.usersByConnection.lookup c = some u) :
    m.findByConnection c = m.find u := by
  unfold findByConnection
  rw [hOwner]
  rfl

/-- The name index after a `bind`: the new name is entered, and the names of the
displaced sessions are removed. -/
theorem Consistent.usersByUsername_bind (h : Consistent m) (s : Session) (n : Bytes) :
    (m.bind s).usersByUsername.lookup n =
      if n = s.username then some s.userId
      else if nameOf (m.findByConnection s.connectionId) = some n ∨
          nameOf (m.find s.userId) = some n then none
      else m.usersByUsername.lookup n := by
  unfold SessionManager.bind
  simp only [UnorderedMap.lookup_insert, usersByUsername_dropConnection,
    usersByUsername_dropUser, h.findByConnection_dropUser]
  congr 1
  by_cases hOwner : m.usersByConnection.lookup s.connectionId = some s.userId
  · rw [if_pos hOwner, findByConnection_of_owner hOwner]
    simp [nameOf]
  · rw [if_neg hOwner]
    by_cases hc : nameOf (m.findByConnection s.connectionId) = some n
    · rw [if_pos hc, if_pos (Or.inl hc)]
    · rw [if_neg hc]
      simp only [hc, false_or]

/-- A `bind` keeps the name index when no other user is online under the name. -/
theorem Named.bind (hn : Named m) (h : Consistent m) (s : Session)
    (hFree : ∀ v s', m.sessions.lookup v = some s' → s'.username = s.username →
      v = s.userId) :
    Named (m.bind s) where
  username_iff := by
    intro n v
    rw [h.usersByUsername_bind, h.find_bind]
    by_cases hv : v = s.userId
    · rw [if_pos hv, hv]
      by_cases hName : n = s.username
      · simp [hName]
      · rw [if_neg hName]
        constructor
        · intro hEq
          split at hEq
          · contradiction
          · rename_i hKept
            -- the user's own old entry is among those removed
            have hOld := (hn.username_iff n s.userId).mp hEq
            exact absurd (Or.inr (nameOf_eq_some.mpr hOld)) hKept
        · rintro ⟨s', hs', hn'⟩
          rw [← Option.some.inj hs'] at hn'
          exact absurd hn'.symm hName
    · rw [if_neg hv]
      by_cases hName : n = s.username
      · rw [if_pos hName]
        constructor
        · intro hEq
          exact absurd (Option.some.inj hEq).symm hv
        · rintro ⟨s', hs', hn'⟩
          split at hs'
          · contradiction
          · exact absurd (hFree v s' hs' (hn'.trans hName)) hv
      · rw [if_neg hName]
        by_cases hOwner : m.usersByConnection.lookup s.connectionId = some v
        · rw [if_pos hOwner, findByConnection_of_owner hOwner]
          constructor
          · intro hEq
            split at hEq
            · contradiction
            · rename_i hKept
              have hOld := (hn.username_iff n v).mp hEq
              exact absurd (Or.inl (nameOf_eq_some.mpr hOld)) hKept
          · rintro ⟨_, hNone, _⟩
            contradiction
        · rw [if_neg hOwner, ← hn.username_iff]
          constructor
          · intro hEq
            split at hEq
            · contradiction
            · exact hEq
          · intro hEq
            rw [if_neg, hEq]
            rintro (hDrop | hDrop)
            · obtain ⟨s', hs', hn'⟩ := nameOf_eq_some.mp hDrop
              obtain ⟨hUser, hConn⟩ := h.findByConnection_iff.mp hs'
              have hSame := hn.lookup_username hUser
              rw [hn', hEq] at hSame
              have hOwns := h.lookup_connection hUser
              rw [hConn, ← Option.some.inj hSame] at hOwns
              exact hOwner hOwns
            · obtain ⟨s', hs', hn'⟩ := nameOf_eq_some.mp hDrop
              have hSame := hn.lookup_username hs'
              rw [hn', hEq] at hSame
              exact hv (Option.some.inj hSame)

/-- Removing one user's session and the name it is online under keeps the name
index. -/
theorem Named.of_removed (hn : Named m) {m' : SessionManager} {u : Nat}
    (hSessions : ∀ v, m'.sessions.lookup v = if v = u then none else m.sessions.lookup v)
    (hNames : ∀ n, m'.usersByUsername.lookup n =
      if nameOf (m.find u) = some n then none else m.usersByUsername.lookup n) :
    Named m' where
  username_iff := by
    intro n v
    rw [hSessions, hNames]
    by_cases hName : nameOf (m.find u) = some n
    · rw [if_pos hName]
      constructor
      · intro hNone
        contradiction
      · rintro ⟨s, hs, hsn⟩
        obtain ⟨old, hOld, hOldName⟩ := nameOf_eq_some.mp hName
        split at hs
        · contradiction
        · rename_i hv
          exact absurd (hn.user_unique hs hOld (hsn.trans hOldName.symm)) hv
    · rw [if_neg hName, hn.username_iff]
      by_cases hv : v = u
      · rw [if_pos hv, hv]
        constructor
        · intro hOld
          exact absurd (nameOf_eq_some.mpr hOld) hName
        · rintro ⟨_, hNone, _⟩
          contradiction
      · rw [if_neg hv]

theorem Named.unbind (hn : Named m) (u : Nat) : Named (m.unbind u) :=
  hn.of_removed (sessions_unbind m u) (usersByUsername_dropUser m u)

theorem Named.unbindConnection (hn : Named m) (c : Nat) : Named (m.unbindConnection c) := by
  cases hOwner : m.usersByConnection.lookup c with
  | none =>
      have hSame : m.unbindConnection c = m := by
        unfold SessionManager.unbindConnection
        rw [hOwner]
      rw [hSame]
      exact hn
  | some u =>
      apply hn.of_removed (u := u)
      · intro v
        rw [sessions_unbindConnection, hOwner]
        simp only [Option.some.injEq, eq_comm]
      · intro n
        rw [usersByUsername_unbindConnection, findByConnection_of_owner hOwner]

theorem Named.joinGroup (hn : Named m) (g u : Nat) : Named (m.joinGroup g u) :=
  ⟨hn.username_iff⟩

theorem Named.leaveGroup (hn : Named m) (g u : Nat) : Named (m.leaveGroup g u) := by
  have hNames : (m.leaveGroup g u).usersByUsername = m.usersByUsername := by
    unfold SessionManager.leaveGroup
    split <;> rfl
  constructor
  rw [hNames, sessions_leaveGroup]
  exact hn.username_iff

/-- Under all three relations a session is found by its user, its connection and
its name, and by nothing else. -/
theorem Named.find_iff (hn : Named m) (h : Consistent m) {s : Session} :
    (m.find s.userId = some s ↔ m.findByConnection s.connectionId = some s) ∧
      (m.find s.userId = some s ↔ m.findByUsername s.username = some s) := by
  constructor
  · rw [h.findByConnection_iff]
    exact ⟨fun hs => ⟨hs, rfl⟩, fun hs => hs.1⟩
  · constructor
    · intro hs
      unfold findByUsername
      rw [hn.lookup_username hs]
      exact hs
    · intro hs
      unfold findByUsername at hs
      split at hs
      · contradiction
      · rename_i u _
        rw [h.userId_eq u s hs]
        exact hs

/-- A name finds exactly the session with that name. -/
theorem Named.findByUsername_iff (hn : Named m) (h : Consistent m) {n : Bytes}
    {s : Session} :
    m.findByUsername n = some s ↔ m.find s.userId = some s ∧ s.username = n := by
  constructor
  · intro hs
    cases hUser : m.usersByUsername.lookup n with
    | none =>
        rw [findByUsername, hUser] at hs
        contradiction
    | some u =>
        rw [findByUsername, hUser] at hs
        obtain ⟨s', hs', hName⟩ := (hn.username_iff n u).mp hUser
        have hEq : s' = s := Option.some.inj (hs'.symm.trans hs)
        subst hEq
        exact ⟨by rw [h.userId_eq u s' hs]; exact hs, hName⟩
  · rintro ⟨hs, hName⟩
    rw [← hName]
    exact (hn.find_iff h).2.mp hs

end SessionManager

/-! ## Runs -/

/-- A call that changes who is online. -/
inductive SessionCall where
  | bind (session : Session)
  | unbind (userId : Nat)
  | unbindConnection (connectionId : Nat)

/-- One call on the manager. -/
def SessionCall.apply (m : SessionManager) : SessionCall → SessionManager
  | .bind session => m.bind session
  | .unbind userId => m.unbind userId
  | .unbindConnection connectionId => m.unbindConnection connectionId

/-- The manager after a list of calls on an empty one. -/
def afterCalls (calls : List SessionCall) : SessionManager :=
  calls.foldl SessionCall.apply {}

open SessionManager

/-- Every call keeps the indexes consistent. -/
theorem SessionCall.apply_consistent {m : SessionManager} (h : m.Consistent)
    (call : SessionCall) : (call.apply m).Consistent := by
  cases call with
  | bind session => exact h.bind session
  | unbind userId => exact h.unbind userId
  | unbindConnection connectionId => exact h.unbindConnection connectionId

/-- Every session carries the name its user has in `names`. -/
def NamesFrom (names : Nat → Bytes) (m : SessionManager) : Prop :=
  ∀ u s, m.sessions.lookup u = some s → s.username = names u

/-- The call binds nothing but the user's name in `names`. -/
def SessionCall.BindsFrom (names : Nat → Bytes) : SessionCall → Prop
  | .bind session => session.username = names session.userId
  | _ => True

theorem SessionCall.apply_namesFrom {names : Nat → Bytes} {m : SessionManager}
    (h : m.Consistent) (hNames : NamesFrom names m) {call : SessionCall}
    (hCall : call.BindsFrom names) : NamesFrom names (call.apply m) := by
  intro u s hs
  cases call with
  | bind session =>
      have hs' := h.find_bind session u
      rw [show (m.bind session).sessions.lookup u = some s from hs] at hs'
      split at hs'
      · rename_i hu
        rw [Option.some.inj hs', hu]
        exact hCall
      · split at hs'
        · contradiction
        · exact hNames u s hs'.symm
  | unbind userId =>
      have hs' := sessions_unbind m userId u
      rw [show (m.unbind userId).sessions.lookup u = some s from hs] at hs'
      split at hs'
      · contradiction
      · exact hNames u s hs'.symm
  | unbindConnection connectionId =>
      have hs' := sessions_unbindConnection m connectionId u
      rw [show (m.unbindConnection connectionId).sessions.lookup u = some s from hs] at hs'
      split at hs'
      · contradiction
      · exact hNames u s hs'.symm

/-- Every call keeps the name index, when no two users have one name. -/
theorem SessionCall.apply_named {names : Nat → Bytes} (hInj : Function.Injective names)
    {m : SessionManager} (h : m.Consistent) (hn : m.Named) (hNames : NamesFrom names m)
    {call : SessionCall} (hCall : call.BindsFrom names) : (call.apply m).Named := by
  cases call with
  | bind session =>
      apply hn.bind h
      intro v s hs hName
      have hCall : session.username = names session.userId := hCall
      rw [hNames v s hs, hCall] at hName
      exact hInj hName
  | unbind userId => exact hn.unbind userId
  | unbindConnection connectionId => exact hn.unbindConnection connectionId

/-- The indexes are consistent after any calls. -/
theorem afterCalls_consistent (calls : List SessionCall) :
    (afterCalls calls).Consistent := by
  have hStep : ∀ m (call : SessionCall), True → m.Consistent →
      (SessionCall.apply m call).Consistent :=
    fun _ call _ h => SessionCall.apply_consistent h call
  exact Transition.foldl_invariant hStep calls {} (fun _ _ => trivial) Consistent.empty

theorem afterCalls_named {names : Nat → Bytes} (hInj : Function.Injective names)
    {calls : List SessionCall} (hCalls : ∀ call ∈ calls, call.BindsFrom names) :
    (afterCalls calls).Named := by
  -- the name index is kept only together with what it rests on
  have hStep : ∀ m (call : SessionCall), call.BindsFrom names →
      (m.Consistent ∧ m.Named ∧ NamesFrom names m) →
        (SessionCall.apply m call).Consistent ∧ (SessionCall.apply m call).Named ∧
          NamesFrom names (SessionCall.apply m call) := by
    rintro m call hCall ⟨h, hn, hNames⟩
    exact ⟨SessionCall.apply_consistent h call,
      SessionCall.apply_named hInj h hn hNames hCall,
      SessionCall.apply_namesFrom h hNames hCall⟩
  have hInit : Consistent {} ∧ Named {} ∧ NamesFrom names {} :=
    ⟨Consistent.empty, Named.empty, fun u s hs => by simp at hs⟩
  exact (Transition.foldl_invariant hStep calls {} hCalls hInit).2.1

/-- After every list of calls the user index and the connection index are
inverse to each other, and a further `bind` moves no session but those of its
user and of the previous owner of its connection.  When every bound name comes
from one injective map, the name index agrees with both. -/
theorem indexes_agree (calls : List SessionCall) :
    let m := afterCalls calls
    (∀ u s, m.sessions.lookup u = some s → s.userId = u) ∧
    (∀ c u, m.usersByConnection.lookup c = some u ↔
      ∃ s, m.sessions.lookup u = some s ∧ s.connectionId = c) ∧
    (∀ session v, v ≠ session.userId →
      m.usersByConnection.lookup session.connectionId ≠ some v →
        (m.bind session).find v = m.find v) ∧
    ∀ names : Nat → Bytes, Function.Injective names →
      (∀ session, .bind session ∈ calls → session.username = names session.userId) →
        (∀ n u, m.usersByUsername.lookup n = some u ↔
          ∃ s, m.sessions.lookup u = some s ∧ s.username = n) ∧
        ∀ u c n s, s.userId = u → s.connectionId = c → s.username = n →
          (m.find u = some s ↔ m.findByConnection c = some s) ∧
          (m.find u = some s ↔ m.findByUsername n = some s) := by
  intro m
  have h : m.Consistent := afterCalls_consistent calls
  refine ⟨h.userId_eq, h.connection_iff, ?_, ?_⟩
  · intro session v hUser hOwner
    rw [find, h.find_bind, if_neg hUser, if_neg hOwner]
    rfl
  · intro names hInj hNames
    have hCalls : ∀ call ∈ calls, call.BindsFrom names := by
      intro call hMem
      cases call with
      | bind session => exact hNames session hMem
      | _ => trivial
    have hn : m.Named := afterCalls_named hInj hCalls
    refine ⟨hn.username_iff, ?_⟩
    rintro u c n s rfl rfl rfl
    exact hn.find_iff h

/-- User 1 takes over the connection of user 2; the name of user `u` is `u` zero
bytes. -/
theorem indexes_agree_takenConnection :
    let calls : List SessionCall :=
      [.bind ⟨1, 10, [0]⟩, .bind ⟨2, 11, [0, 0]⟩, .bind ⟨1, 11, [0]⟩]
    (afterCalls calls).findByUsername [0] = some ⟨1, 11, [0]⟩ := by
  intro calls
  have hInj : Function.Injective fun u => List.replicate u (0 : UInt8) := by
    intro u v hEq
    simpa using congrArg List.length hEq
  have hNames : ∀ session : Session, .bind session ∈ calls →
      session.username = List.replicate session.userId 0 := by
    intro session hMem
    simp only [calls, List.mem_cons, SessionCall.bind.injEq, List.not_mem_nil, or_false]
      at hMem
    rcases hMem with rfl | rfl | rfl <;> rfl
  have hAgree := ((indexes_agree calls).2.2.2 _ hInj hNames).2
  exact (hAgree 1 11 [0] ⟨1, 11, [0]⟩ rfl rfl rfl).2.mp (by decide)

end CppChat.Ports.Sessions
