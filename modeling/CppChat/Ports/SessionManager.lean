import CppChat.Verified.Bytes
import CppChat.Verified.UnorderedMap

/-!
# The session manager

Three indexes describe who is online: a session for every logged-in user, the
user of every logged-in connection, and the user of every online name.  Every
public method locks one mutex for its whole body, so each is one atomic step
here, a function on the record of indexes.

`bind` first removes what the new session displaces, the user's previous
connection and the connection's previous user, and then writes all three
indexes.  `Consistent` is the relation the indexes keep: the user index and
the connection index are inverse to each other.

## Main results

* `Consistent.find_bind`, `Consistent.usersByConnection_bind`: both indexes after
  a `bind`, by cases on the key.
* `Consistent.bind`, `Consistent.unbindConnection`: every operation keeps the two
  indexes inverse.
-/

namespace CppChat.Ports.Sessions

open CppChat.Verified

/-- A logged-in user and the connection it is bound to. -/
structure Session where
  userId : Nat
  connectionId : Nat
  username : Bytes
deriving DecidableEq, Repr

/-- The sessions by user, the users by connection and by name, and the members by
group. -/
structure SessionManager where
  sessions : UnorderedMap Nat Session := ∅
  usersByConnection : UnorderedMap Nat Nat := ∅
  usersByUsername : UnorderedMap Bytes Nat := ∅
  groupMembers : UnorderedMap Nat (UnorderedSet Nat) := ∅

namespace SessionManager

/-- The first half of `bind`: forget the user's previous connection. -/
def dropUser (m : SessionManager) (userId : Nat) : SessionManager :=
  match m.sessions.lookup userId with
  | some existing =>
      { m with
        usersByConnection := m.usersByConnection.erase existing.connectionId
        usersByUsername := m.usersByUsername.erase existing.username }
  | none => m

/-- The second half of `bind`: forget the connection's previous user. -/
def dropConnection (m : SessionManager) (connectionId : Nat) : SessionManager :=
  match m.usersByConnection.lookup connectionId with
  | some previous =>
      { m with
        usersByUsername :=
          match m.sessions.lookup previous with
          | some old => m.usersByUsername.erase old.username
          | none => m.usersByUsername
        sessions := m.sessions.erase previous }
  | none => m

/-- Bind a user to a connection, displacing the previous session of either. -/
def bind (m : SessionManager) (session : Session) : SessionManager :=
  let m' := (m.dropUser session.userId).dropConnection session.connectionId
  { m' with
    usersByConnection := m'.usersByConnection.insert session.connectionId session.userId
    usersByUsername := m'.usersByUsername.insert session.username session.userId
    sessions := m'.sessions.insert session.userId session }

/-- `unbind`. -/
def unbind (m : SessionManager) (userId : Nat) : SessionManager :=
  let m' := m.dropUser userId
  { m' with sessions := m'.sessions.erase userId }

/-- `unbind_connection`. -/
def unbindConnection (m : SessionManager) (connectionId : Nat) : SessionManager :=
  match m.usersByConnection.lookup connectionId with
  | none => m
  | some userId =>
      { m with
        usersByUsername :=
          match m.sessions.lookup userId with
          | some old => m.usersByUsername.erase old.username
          | none => m.usersByUsername
        sessions := m.sessions.erase userId
        usersByConnection := m.usersByConnection.erase connectionId }

/-- `find`. -/
def find (m : SessionManager) (userId : Nat) : Option Session :=
  m.sessions.lookup userId

/-- `find_by_connection`. -/
def findByConnection (m : SessionManager) (connectionId : Nat) : Option Session :=
  match m.usersByConnection.lookup connectionId with
  | none => none
  | some userId => m.sessions.lookup userId

/-- `find_by_username`. -/
def findByUsername (m : SessionManager) (username : Bytes) : Option Session :=
  match m.usersByUsername.lookup username with
  | none => none
  | some userId => m.sessions.lookup userId

/-- `is_username_online`. -/
def isUsernameOnline (m : SessionManager) (username : Bytes) : Bool :=
  (m.findByUsername username).isSome

/-- `join_group`. -/
def joinGroup (m : SessionManager) (groupId userId : Nat) : SessionManager :=
  { m with
    groupMembers := m.groupMembers.insert groupId
      (((m.groupMembers.lookup groupId).getD .empty).insert userId) }

/-- `leave_group`. -/
def leaveGroup (m : SessionManager) (groupId userId : Nat) : SessionManager :=
  match m.groupMembers.lookup groupId with
  | none => m
  | some members =>
      { m with
        groupMembers :=
          if (members.erase userId).isEmpty then m.groupMembers.erase groupId
          else m.groupMembers.insert groupId (members.erase userId) }

/-! ## The group index is separate -/

@[simp] theorem findByConnection_joinGroup (m : SessionManager) (g u c : Nat) :
    (m.joinGroup g u).findByConnection c = m.findByConnection c := rfl

@[simp] theorem usersByConnection_joinGroup (m : SessionManager) (g u : Nat) :
    (m.joinGroup g u).usersByConnection = m.usersByConnection := rfl

@[simp] theorem sessions_joinGroup (m : SessionManager) (g u : Nat) :
    (m.joinGroup g u).sessions = m.sessions := rfl

@[simp] theorem usersByConnection_leaveGroup (m : SessionManager) (g u : Nat) :
    (m.leaveGroup g u).usersByConnection = m.usersByConnection := by
  unfold leaveGroup
  split <;> rfl

@[simp] theorem sessions_leaveGroup (m : SessionManager) (g u : Nat) :
    (m.leaveGroup g u).sessions = m.sessions := by
  unfold leaveGroup
  split <;> rfl

@[simp] theorem findByConnection_leaveGroup (m : SessionManager) (g u c : Nat) :
    (m.leaveGroup g u).findByConnection c = m.findByConnection c := by
  simp [findByConnection]

/-! ## The inverse indexes -/

/-- The user index and the connection index are inverse to each other. -/
structure Consistent (m : SessionManager) : Prop where
  userId_eq : ∀ u s, m.sessions.lookup u = some s → s.userId = u
  connection_iff : ∀ c u, m.usersByConnection.lookup c = some u ↔
    ∃ s, m.sessions.lookup u = some s ∧ s.connectionId = c

/-- No sessions. -/
theorem Consistent.empty : Consistent {} where
  userId_eq := by simp
  connection_iff := by simp

variable {m : SessionManager}

/-- The connection of a session leads to its user. -/
theorem Consistent.lookup_connection (h : Consistent m) {u : Nat} {s : Session}
    (hs : m.sessions.lookup u = some s) :
    m.usersByConnection.lookup s.connectionId = some u :=
  (h.connection_iff _ _).mpr ⟨s, hs, rfl⟩

/-- Two users on one connection are the same user. -/
theorem Consistent.user_unique (h : Consistent m) {u u' : Nat} {s s' : Session}
    (hs : m.sessions.lookup u = some s) (hs' : m.sessions.lookup u' = some s')
    (hc : s.connectionId = s'.connectionId) : u = u' := by
  have h1 := h.lookup_connection hs
  have h2 := h.lookup_connection hs'
  rw [hc, h2] at h1
  exact (Option.some.inj h1).symm

/-- A connection finds exactly its session. -/
theorem Consistent.findByConnection_iff (h : Consistent m) {c : Nat} {s : Session} :
    m.findByConnection c = some s ↔
      m.sessions.lookup s.userId = some s ∧ s.connectionId = c := by
  unfold findByConnection
  constructor
  · intro hFind
    cases hUser : m.usersByConnection.lookup c with
    | none => rw [hUser] at hFind; contradiction
    | some u =>
        rw [hUser] at hFind
        obtain ⟨s', hs', hc⟩ := (h.connection_iff c u).mp hUser
        have hEq : s' = s := Option.some.inj (hs'.symm.trans hFind)
        subst hEq
        exact ⟨by rw [h.userId_eq u s' hs']; exact hs', hc⟩
  · rintro ⟨hs, hc⟩
    rw [(h.connection_iff c s.userId).mpr ⟨s, hs, hc⟩]
    exact hs

/-! ### What each operation does to the two indexes -/

@[simp] theorem sessions_dropUser (m : SessionManager) (u : Nat) :
    (m.dropUser u).sessions = m.sessions := by
  unfold dropUser
  split <;> rfl

/-- Dropping a user removes the one connection that maps to it. -/
theorem Consistent.usersByConnection_dropUser (h : Consistent m) (u c : Nat) :
    (m.dropUser u).usersByConnection.lookup c =
      if m.usersByConnection.lookup c = some u then none
      else m.usersByConnection.lookup c := by
  unfold dropUser
  cases hs : m.sessions.lookup u with
  | none =>
      have hNot : m.usersByConnection.lookup c ≠ some u := by
        intro hc
        obtain ⟨s, hs', _⟩ := (h.connection_iff c u).mp hc
        rw [hs] at hs'
        contradiction
      rw [if_neg hNot]
  | some existing =>
      show (m.usersByConnection.erase existing.connectionId).lookup c = _
      have hIff : m.usersByConnection.lookup c = some u ↔ c = existing.connectionId := by
        rw [h.connection_iff, hs]
        constructor
        · rintro ⟨s, hEq, hc⟩
          rw [← hc, Option.some.inj hEq]
        · intro hc
          exact ⟨existing, rfl, hc.symm⟩
      rw [UnorderedMap.lookup_erase]
      simp only [hIff]

@[simp] theorem usersByConnection_dropConnection (m : SessionManager) (c : Nat) :
    (m.dropConnection c).usersByConnection = m.usersByConnection := by
  unfold dropConnection
  split <;> rfl

/-- The session of the previous user is ended. -/
theorem sessions_dropConnection (m : SessionManager) (c u : Nat) :
    (m.dropConnection c).sessions.lookup u =
      if m.usersByConnection.lookup c = some u then none else m.sessions.lookup u := by
  unfold dropConnection
  cases hUser : m.usersByConnection.lookup c with
  | none => simp
  | some previous =>
      show (m.sessions.erase previous).lookup u = _
      rw [UnorderedMap.lookup_erase]
      by_cases hEq : u = previous
      · simp [hEq]
      · rw [if_neg hEq, if_neg]
        intro hSome
        exact hEq (Option.some.inj hSome).symm

/-- The connection index after a `bind`. -/
theorem Consistent.usersByConnection_bind (h : Consistent m) (s : Session) (c : Nat) :
    (m.bind s).usersByConnection.lookup c =
      if c = s.connectionId then some s.userId
      else if m.usersByConnection.lookup c = some s.userId then none
      else m.usersByConnection.lookup c := by
  unfold bind
  simp only [UnorderedMap.lookup_insert, usersByConnection_dropConnection,
    h.usersByConnection_dropUser]

/-- The user index after a `bind`: the user gets the new session, the previous
owner of the connection loses its own, and every other user keeps its own. -/
theorem Consistent.find_bind (h : Consistent m) (s : Session) (u : Nat) :
    (m.bind s).sessions.lookup u =
      if u = s.userId then some s
      else if m.usersByConnection.lookup s.connectionId = some u then none
      else m.sessions.lookup u := by
  unfold bind
  simp only [UnorderedMap.lookup_insert, sessions_dropConnection, sessions_dropUser,
    h.usersByConnection_dropUser]
  by_cases hu : u = s.userId
  · simp [hu]
  · rw [if_neg hu, if_neg hu]
    by_cases hOwner : m.usersByConnection.lookup s.connectionId = some s.userId
    · have hNe : ¬(some s.userId = some u) := fun hEq => hu (Option.some.inj hEq).symm
      simp [hOwner, hNe]
    · rw [if_neg hOwner]

/-- `bind` keeps the indexes consistent. -/
theorem Consistent.bind (h : Consistent m) (s : Session) : Consistent (m.bind s) where
  userId_eq := by
    intro u s' hs'
    rw [h.find_bind] at hs'
    split at hs'
    · rename_i hu
      rw [← Option.some.inj hs', hu]
    · split at hs'
      · contradiction
      · exact h.userId_eq u s' hs'
  connection_iff := by
    intro c u
    rw [h.usersByConnection_bind, h.find_bind]
    by_cases hc : c = s.connectionId
    · rw [if_pos hc]
      by_cases hu : u = s.userId
      · simp [hu, hc]
      · rw [if_neg hu]
        constructor
        · intro hEq
          exact absurd (Option.some.inj hEq).symm hu
        · rintro ⟨s', hs', hc'⟩
          split at hs'
          · contradiction
          · rename_i hOwner
            have := h.lookup_connection hs'
            rw [hc', hc] at this
            exact absurd this hOwner
    · rw [if_neg hc]
      by_cases hu : u = s.userId
      · subst hu
        rw [if_pos rfl]
        constructor
        · intro hEq
          split at hEq
          · contradiction
          · rename_i hNot
            exact absurd hEq hNot
        · rintro ⟨s', hs', hc'⟩
          rw [← Option.some.inj hs'] at hc'
          exact absurd hc'.symm hc
      · rw [if_neg hu]
        have hLeft : (if m.usersByConnection.lookup c = some s.userId then none
            else m.usersByConnection.lookup c) = some u ↔
              m.usersByConnection.lookup c = some u := by
          split
          · rename_i hOwner
            rw [hOwner]
            simp [Ne.symm hu]
          · rfl
        rw [hLeft, h.connection_iff]
        by_cases hOwner : m.usersByConnection.lookup s.connectionId = some u
        · rw [if_pos hOwner]
          obtain ⟨s₁, hs₁, hc₁⟩ := (h.connection_iff _ _).mp hOwner
          constructor
          · rintro ⟨s₂, hs₂, hc₂⟩
            rw [hs₁] at hs₂
            rw [← Option.some.inj hs₂, hc₁] at hc₂
            exact absurd hc₂.symm hc
          · rintro ⟨_, hNone, _⟩
            contradiction
        · rw [if_neg hOwner]

/-- Both indexes after `unbind_connection`. -/
theorem usersByConnection_unbindConnection (m : SessionManager) (c c' : Nat) :
    (m.unbindConnection c).usersByConnection.lookup c' =
      if c' = c then none else m.usersByConnection.lookup c' := by
  unfold unbindConnection
  cases hUser : m.usersByConnection.lookup c with
  | none =>
      by_cases hEq : c' = c
      · rw [if_pos hEq, hEq]
        exact hUser
      · rw [if_neg hEq]
  | some userId => exact UnorderedMap.lookup_erase _ _ _

/-- `unbind_connection` ends the session of its user. -/
theorem sessions_unbindConnection (m : SessionManager) (c u : Nat) :
    (m.unbindConnection c).sessions.lookup u =
      if m.usersByConnection.lookup c = some u then none else m.sessions.lookup u := by
  unfold unbindConnection
  cases hUser : m.usersByConnection.lookup c with
  | none => simp
  | some userId =>
      show (m.sessions.erase userId).lookup u = _
      rw [UnorderedMap.lookup_erase]
      simp only [Option.some.injEq]
      by_cases hEq : u = userId
      · simp [hEq]
      · rw [if_neg hEq, if_neg (Ne.symm hEq)]

/-- `unbind_connection` keeps the indexes consistent. -/
theorem Consistent.unbindConnection (h : Consistent m) (c : Nat) :
    Consistent (m.unbindConnection c) where
  userId_eq := by
    intro u s hs
    rw [sessions_unbindConnection] at hs
    split at hs
    · contradiction
    · exact h.userId_eq u s hs
  connection_iff := by
    intro c' u
    rw [usersByConnection_unbindConnection, sessions_unbindConnection]
    by_cases hOwner : m.usersByConnection.lookup c = some u
    · rw [if_pos hOwner]
      constructor
      · intro hEq
        split at hEq
        · contradiction
        · rename_i hc
          obtain ⟨s₁, hs₁, hc₁⟩ := (h.connection_iff _ _).mp hOwner
          obtain ⟨s₂, hs₂, hc₂⟩ := (h.connection_iff _ _).mp hEq
          rw [hs₁] at hs₂
          rw [← Option.some.inj hs₂, hc₁] at hc₂
          exact absurd hc₂.symm hc
      · rintro ⟨_, hNone, _⟩
        contradiction
    · rw [if_neg hOwner, ← h.connection_iff]
      by_cases hc : c' = c
      · rw [if_pos hc, hc]
        constructor
        · intro hNone
          contradiction
        · intro hEq
          exact absurd hEq hOwner
      · rw [if_neg hc]

theorem Consistent.joinGroup (h : Consistent m) (g u : Nat) :
    Consistent (m.joinGroup g u) :=
  { userId_eq := h.userId_eq, connection_iff := h.connection_iff }

theorem Consistent.leaveGroup (h : Consistent m) (g u : Nat) :
    Consistent (m.leaveGroup g u) where
  userId_eq := by simpa using h.userId_eq
  connection_iff := by simpa using h.connection_iff

/-! ### What each operation does to the session of a connection -/

/-- Unbinding a connection leaves the sessions of all others alone. -/
theorem Consistent.findByConnection_unbindConnection (h : Consistent m) (c c' : Nat) :
    (m.unbindConnection c).findByConnection c' =
      if c' = c then none else m.findByConnection c' := by
  unfold findByConnection
  rw [usersByConnection_unbindConnection]
  by_cases hEq : c' = c
  · rw [if_pos hEq, if_pos hEq]
  · rw [if_neg hEq, if_neg hEq]
    cases hUser : m.usersByConnection.lookup c' with
    | none => rfl
    | some u =>
        show (m.unbindConnection c).sessions.lookup u = m.sessions.lookup u
        rw [sessions_unbindConnection, if_neg]
        intro hOwner
        obtain ⟨s, hs, hc⟩ := (h.connection_iff c u).mp hOwner
        obtain ⟨s', hs', hc'⟩ := (h.connection_iff c' u).mp hUser
        rw [hs] at hs'
        rw [← Option.some.inj hs', hc] at hc'
        exact hEq hc'.symm

/-- Unbinding a connection makes no session. -/
theorem Consistent.kept_of_unbindConnection (h : Consistent m) {c c' : Nat} {s : Session}
    (hFind : (m.unbindConnection c).findByConnection c' = some s) :
    m.findByConnection c' = some s := by
  rw [h.findByConnection_unbindConnection] at hFind
  split at hFind
  · contradiction
  · exact hFind

/-- A `bind` of a user without a session, on a connection without one, changes
the session of that connection alone. -/
theorem Consistent.findByConnection_bind (h : Consistent m) {session : Session}
    (hOffline : m.find session.userId = none)
    (hFree : m.findByConnection session.connectionId = none) (c : Nat) :
    (m.bind session).findByConnection c =
      if c = session.connectionId then some session else m.findByConnection c := by
  have hUnowned : m.usersByConnection.lookup session.connectionId = none := by
    cases hUser : m.usersByConnection.lookup session.connectionId with
    | none => rfl
    | some u =>
        obtain ⟨s, hs, _⟩ := (h.connection_iff _ _).mp hUser
        rw [findByConnection, hUser] at hFree
        rw [show m.sessions.lookup u = none from hFree] at hs
        contradiction
  unfold findByConnection
  rw [h.usersByConnection_bind]
  by_cases hEq : c = session.connectionId
  · rw [if_pos hEq, if_pos hEq]
    show (m.bind session).sessions.lookup session.userId = some session
    rw [h.find_bind, if_pos rfl]
  · rw [if_neg hEq, if_neg hEq]
    cases hUser : m.usersByConnection.lookup c with
    | none => rfl
    | some u =>
        have hNe : u ≠ session.userId := by
          intro hu
          obtain ⟨s, hs, _⟩ := (h.connection_iff c u).mp hUser
          rw [hu] at hs
          rw [show m.sessions.lookup session.userId = none from hOffline] at hs
          contradiction
        rw [if_neg (fun hSome => hNe (Option.some.inj hSome))]
        show (m.bind session).sessions.lookup u = m.sessions.lookup u
        rw [h.find_bind, if_neg hNe, hUnowned, if_neg (by simp)]

end SessionManager

end CppChat.Ports.Sessions
