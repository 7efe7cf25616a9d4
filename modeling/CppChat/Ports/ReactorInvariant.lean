import Mathlib.Logic.Relation
import CppChat.Verified.Transition
import CppChat.Ports.ReactorCases

/-!
# Sockets, connection ids and who a response is sent to

The kernel reuses socket numbers; the server never reuses a connection id.
This module shows that the two maps between them stay inverse to each other
under any interleaving of accepts, closes, reads, worker pushes and drains,
and what follows for the responses: bytes for a connection go out on the
socket it was accepted on, while it is open.

Every function of the reactor is a chain of five kinds of small changes, and
`Change` lists them.  The invariants are shown for a change, once; each
function contributes only the chain it is made of.

## Main results

* `Change.inv`: a change keeps the invariant.
* `step_changes`: every step of the reactor is a chain of changes.
* `reactor_inverse`: the invariant in every reachable state, with what it says about the
  log of sends.
-/

namespace CppChat.Ports.Network

open CppChat.Verified
open CppChat.Verified.Transition
open CppChat.Ports.PacketCodec

/-! ## The steps -/

/-- The reactor between two steps: its members, and the responses
`drain_responses` has swapped out and not yet delivered. -/
structure Reactor where
  server : TcpServer
  pending : List QueuedResponse := []

/-- What the event loop does, and the push of a worker. -/
inductive Action where
  | accept (accepted : Accepted)
  | close (connectionId : Nat)
  | closeClient (fd : Nat)
  | read (fd : Nat) (io : ReadIo)
  | flush (fd : Nat) (io : SendIo)
  | push (result : WorkerResult)
  | drainCloses
  | swap
  | deliver (io : SendIo)

/-- One step.  `accept4` returns a socket that is not in use, and a drain swaps
the queue only after it has delivered what it swapped before. -/
def Reactor.step (config : ServerConfig) (r : Reactor) : Action → Option Reactor
  | .accept accepted =>
      if (r.server.connectionByFd.lookup accepted.fd).isSome then none
      else some { r with server := r.server.acceptConnection accepted }
  | .close connectionId => some { r with server := r.server.closeConnection connectionId }
  | .closeClient fd => some { r with server := r.server.closeClient fd }
  | .read fd io => some { r with server := r.server.handleClientRead config fd io }
  | .flush fd io => some { r with server := r.server.flushWriteBuffer fd io }
  | .push result => some { r with server := r.server.pushResult config result }
  | .drainCloses => some { r with server := r.server.drainCloseRequests }
  | .swap =>
      if r.pending.isEmpty then
        some { server := { r.server with responseQueue := [] }
               pending := r.server.responseQueue }
      else none
  | .deliver io =>
      match r.pending with
      | [] => none
      | response :: rest =>
          some { server := r.server.deliver config response io, pending := rest }

/-! ## Reading the log -/

/-- The socket a connection is open on, as far as the log tells. -/
def openStep (i : Nat) (fd : Option Nat) : Effect → Option Nat
  | .accept j _ accepted => if j = i then some accepted else fd
  | .close (some j) _ => if j = i then none else fd
  | _ => fd

/-- The descriptor under which a connection is still open at the end of the log. -/
def openFd (log : List Effect) (i : Nat) : Option Nat := log.foldl (openStep i) none

/-- The ids given to accepted connections, oldest first. -/
def acceptedIds (log : List Effect) : List Nat :=
  log.filterMap fun effect => match effect with
    | .accept i _ _ => some i
    | _ => none

/-- The generations given out, in order. -/
def acceptedGenerations (log : List Effect) : List Nat :=
  log.filterMap fun effect => match effect with
    | .accept _ generation _ => some generation
    | _ => none

/-- Every send went out on the socket its connection was accepted on, while the
connection was open and no other connection was open on that socket. -/
def SendsOwned (log : List Effect) : Prop :=
  ∀ before after i fd bytes, log = before ++ .send i fd bytes :: after →
    openFd before i = some fd ∧ ∀ j, openFd before j = some fd → j = i

/-! ## The invariant -/

/-- The two maps are inverse to each other, and every id and generation in use
is below its counter. -/
structure Inverse (srv : TcpServer) : Prop where
  fd_iff : ∀ f i, srv.connectionByFd.lookup f = some i ↔
    ∃ connection, srv.connections.lookup i = some connection ∧ connection.fd = f ∧
      connection.connectionId = i
  id_eq : ∀ i connection, srv.connections.lookup i = some connection →
    connection.connectionId = i
  below : ∀ i connection, srv.connections.lookup i = some connection →
    i < srv.nextConnectionId ∧ connection.generation < srv.nextGeneration

/-- The ids and generations given out so far increase, and stay below the
counters: none is given out twice. -/
structure AcceptsFresh (log : List Effect) (nextConnectionId nextGeneration : Nat) :
    Prop where
  ids_below : ∀ i ∈ acceptedIds log, i < nextConnectionId
  ids_increase : (acceptedIds log).Pairwise (· < ·)
  generations_below : ∀ g ∈ acceptedGenerations log, g < nextGeneration
  generations_increase : (acceptedGenerations log).Pairwise (· < ·)

/-- The invariant of the reactor and its log. -/
structure ReactorInv (srv : TcpServer) : Prop extends Inverse srv where
  open_eq : ∀ i, openFd srv.log i = (srv.connections.lookup i).map (·.fd)
  fresh : AcceptsFresh srv.log srv.nextConnectionId srv.nextGeneration
  sends : SendsOwned srv.log

/-- Effects that neither open nor close a connection nor send. -/
def Effect.isNeutral : Effect → Bool
  | .recv _ _ | .enqueue _ _ _ | .sendDone _ _ | .handleDisconnect _ | .close none _ => true
  | _ => false

/-- The kinds of changes the functions of the reactor are made of. -/
inductive Change : TcpServer → TcpServer → Prop
  /-- Queues, epoll and neutral effects. -/
  | neutral {srv srv' : TcpServer} (effects : List Effect)
      (hNeutral : ∀ effect ∈ effects, effect.isNeutral)
      (hFds : srv'.connectionByFd = srv.connectionByFd)
      (hConnections : srv'.connections = srv.connections)
      (hId : srv'.nextConnectionId = srv.nextConnectionId)
      (hGeneration : srv'.nextGeneration = srv.nextGeneration)
      (hLog : srv'.log = srv.log ++ effects) : Change srv srv'
  /-- An update of a connection that keeps its three numbers. -/
  | touch {srv : TcpServer} {i : Nat} {connection connection' : ConnectionState}
      (hLookup : srv.connections.lookup i = some connection)
      (hFd : connection'.fd = connection.fd)
      (hId : connection'.connectionId = connection.connectionId)
      (hGeneration : connection'.generation = connection.generation) :
      Change srv (srv.setConnection i connection')
  /-- Bytes sent on the socket of an open connection. -/
  | send {srv : TcpServer} {i : Nat} {connection : ConnectionState} (bytes : Bytes)
      (hLookup : srv.connections.lookup i = some connection) :
      Change srv (srv.emit [.send i connection.fd bytes])
  | close {srv : TcpServer} (i : Nat) : Change srv (srv.closeConnection i)
  | accept {srv : TcpServer} (accepted : Accepted)
      (hFree : srv.connectionByFd.lookup accepted.fd = none) :
      Change srv (srv.acceptConnection accepted)

/-- A chain of changes. -/
abbrev Changes := Relation.ReflTransGen Change

/-! ## The log grows at its end -/

theorem openFd_append (log effects : List Effect) (i : Nat) :
    openFd (log ++ effects) i = effects.foldl (openStep i) (openFd log i) :=
  List.foldl_append

/-- An effect that opens and closes nothing. -/
theorem openStep_of_neutral {effect : Effect} (h : effect.isNeutral) (i : Nat)
    (fd : Option Nat) : openStep i fd effect = fd := by
  unfold Effect.isNeutral at h
  split at h <;> first | rfl | contradiction

theorem openFd_append_neutral {effects : List Effect}
    (h : ∀ effect ∈ effects, effect.isNeutral) (log : List Effect) (i : Nat) :
    openFd (log ++ effects) i = openFd log i := by
  rw [openFd_append]
  induction effects with
  | nil => rfl
  | cons effect rest ih =>
      obtain ⟨hFirst, hRest⟩ := List.forall_mem_cons.mp h
      rw [List.foldl_cons, openStep_of_neutral hFirst]
      exact ih hRest

theorem acceptedIds_append (log effects : List Effect) :
    acceptedIds (log ++ effects) = acceptedIds log ++ acceptedIds effects :=
  List.filterMap_append

theorem acceptedGenerations_append (log effects : List Effect) :
    acceptedGenerations (log ++ effects) =
      acceptedGenerations log ++ acceptedGenerations effects :=
  List.filterMap_append

theorem accepted_of_neutral {effects : List Effect}
    (h : ∀ effect ∈ effects, effect.isNeutral) :
    acceptedIds effects = [] ∧ acceptedGenerations effects = [] := by
  constructor <;>
  · apply List.filterMap_eq_nil_iff.mpr
    intro effect hMem
    have hNeutral := h effect hMem
    unfold Effect.isNeutral at hNeutral
    split at hNeutral <;> first | rfl | contradiction

theorem AcceptsFresh.append_of_nil {log effects : List Effect} {n g : Nat}
    (h : AcceptsFresh log n g) (hIds : acceptedIds effects = [])
    (hGenerations : acceptedGenerations effects = []) :
    AcceptsFresh (log ++ effects) n g where
  ids_below := by
    rw [acceptedIds_append, hIds, List.append_nil]
    exact h.ids_below
  ids_increase := by
    rw [acceptedIds_append, hIds, List.append_nil]
    exact h.ids_increase
  generations_below := by
    rw [acceptedGenerations_append, hGenerations, List.append_nil]
    exact h.generations_below
  generations_increase := by
    rw [acceptedGenerations_append, hGenerations, List.append_nil]
    exact h.generations_increase

/-- The next accept gets numbers nobody has had. -/
theorem AcceptsFresh.accept {log : List Effect} {n g : Nat} (h : AcceptsFresh log n g)
    (fd : Nat) : AcceptsFresh (log ++ [.accept n g fd]) (n + 1) (g + 1) where
  ids_below := by
    intro i hMem
    rw [acceptedIds_append, List.mem_append] at hMem
    rcases hMem with hOld | hNew
    · exact Nat.lt_succ_of_lt (h.ids_below i hOld)
    · rw [List.mem_singleton.mp hNew]
      exact Nat.lt_succ_self n
  ids_increase := by
    rw [acceptedIds_append, List.pairwise_append]
    refine ⟨h.ids_increase, List.pairwise_singleton _ _, ?_⟩
    intro i hi j hj
    rw [List.mem_singleton.mp hj]
    exact h.ids_below i hi
  generations_below := by
    intro i hMem
    rw [acceptedGenerations_append, List.mem_append] at hMem
    rcases hMem with hOld | hNew
    · exact Nat.lt_succ_of_lt (h.generations_below i hOld)
    · rw [List.mem_singleton.mp hNew]
      exact Nat.lt_succ_self g
  generations_increase := by
    rw [acceptedGenerations_append, List.pairwise_append]
    refine ⟨h.generations_increase, List.pairwise_singleton _ _, ?_⟩
    intro i hi j hj
    rw [List.mem_singleton.mp hj]
    exact h.generations_below i hi

/-- New sends must go to the connection that has the descriptor open. -/
theorem sendsOwned_append {log effects : List Effect} (h : SendsOwned log)
    (hNew : ∀ before after i fd bytes, effects = before ++ .send i fd bytes :: after →
      openFd (log ++ before) i = some fd ∧
        ∀ j, openFd (log ++ before) j = some fd → j = i) :
    SendsOwned (log ++ effects) := by
  intro before after i fd bytes hSplit
  rcases List.append_eq_append_iff.mp hSplit with ⟨rest, hBefore, hEffects⟩ | ⟨rest, hLog, hRest⟩
  · rw [hBefore]
    exact hNew rest after i fd bytes hEffects
  · cases rest with
    | nil =>
        rw [List.append_nil] at hLog
        rw [← hLog, ← List.append_nil log]
        exact hNew [] after i fd bytes hRest.symm
    | cons effect rest =>
        injection hRest with hEffect hTail
        rw [← hEffect] at hLog
        exact h before rest i fd bytes hLog

/-- Effects without a send need no check. -/
theorem sendsOwned_append_of_not_send {log effects : List Effect} (h : SendsOwned log)
    (hNot : ∀ i fd bytes, .send i fd bytes ∉ effects) : SendsOwned (log ++ effects) := by
  apply sendsOwned_append h
  intro before after i fd bytes hSplit
  have hMem : .send i fd bytes ∈ effects := by
    rw [hSplit]
    exact List.mem_append_right _ List.mem_cons_self
  exact absurd hMem (hNot i fd bytes)

/-! ## A change keeps the invariant -/

/-- A change of nothing but queues and modes. -/
theorem Change.neutral_inv {srv srv' : TcpServer} {effects : List Effect}
    (hNeutral : ∀ effect ∈ effects, effect.isNeutral)
    (hFds : srv'.connectionByFd = srv.connectionByFd)
    (hConnections : srv'.connections = srv.connections)
    (hId : srv'.nextConnectionId = srv.nextConnectionId)
    (hGeneration : srv'.nextGeneration = srv.nextGeneration)
    (hLog : srv'.log = srv.log ++ effects) (h : ReactorInv srv) : ReactorInv srv' where
  fd_iff := by
    rw [hFds, hConnections]
    exact h.fd_iff
  id_eq := by
    rw [hConnections]
    exact h.id_eq
  below := by
    rw [hConnections, hId, hGeneration]
    exact h.below
  open_eq := by
    intro i
    rw [hLog, openFd_append_neutral hNeutral, hConnections]
    exact h.open_eq i
  fresh := by
    obtain ⟨hIds, hGenerations⟩ := accepted_of_neutral hNeutral
    rw [hLog, hId, hGeneration]
    exact h.fresh.append_of_nil hIds hGenerations
  sends := by
    rw [hLog]
    apply sendsOwned_append_of_not_send h.sends
    intro i fd bytes hMem
    have := hNeutral _ hMem
    contradiction

theorem setConnection_lookup (srv : TcpServer) (i j : Nat) (connection : ConnectionState) :
    (srv.setConnection i connection).connections.lookup j =
      if j = i then some connection else srv.connections.lookup j :=
  UnorderedMap.lookup_insert _ _ _ _

/-- The connection after its buffer has been written back. -/
theorem findConnectionByFd_setConnection {srv : TcpServer} {fd i : Nat}
    (hFd : srv.connectionByFd.lookup fd = some i) (connection : ConnectionState) :
    (srv.setConnection i connection).findConnectionByFd fd = some (i, connection) := by
  have hMapped : (srv.setConnection i connection).connectionByFd.lookup fd = some i := hFd
  rw [TcpServer.findConnectionByFd, hMapped]
  simp [TcpServer.findConnection, setConnection_lookup]

/-- A connection is written back under the same id and descriptor. -/
theorem Change.touch_inv {srv : TcpServer} {i : Nat}
    {connection connection' : ConnectionState}
    (hLookup : srv.connections.lookup i = some connection)
    (hFd : connection'.fd = connection.fd)
    (hId : connection'.connectionId = connection.connectionId)
    (hGeneration : connection'.generation = connection.generation) (h : ReactorInv srv) :
    ReactorInv (srv.setConnection i connection') where
  fd_iff := by
    intro f j
    show srv.connectionByFd.lookup f = some j ↔ _
    rw [h.fd_iff, setConnection_lookup]
    by_cases hEq : j = i
    · subst hEq
      simp [hLookup, hFd, hId]
    · rw [if_neg hEq]
  id_eq := by
    intro j other hOther
    rw [setConnection_lookup] at hOther
    by_cases hEq : j = i
    · rw [if_pos hEq] at hOther
      rw [← Option.some.inj hOther, hId, hEq]
      exact h.id_eq i connection hLookup
    · rw [if_neg hEq] at hOther
      exact h.id_eq j other hOther
  below := by
    intro j other hOther
    rw [setConnection_lookup] at hOther
    by_cases hEq : j = i
    · rw [if_pos hEq] at hOther
      rw [← Option.some.inj hOther, hGeneration, hEq]
      exact h.below i connection hLookup
    · rw [if_neg hEq] at hOther
      exact h.below j other hOther
  open_eq := by
    intro j
    rw [setConnection_lookup]
    show openFd srv.log j = _
    rw [h.open_eq j]
    by_cases hEq : j = i
    · rw [if_pos hEq, hEq, hLookup, Option.map_some, Option.map_some, hFd]
    · rw [if_neg hEq]
  fresh := h.fresh
  sends := h.sends

/-- Two open connections on one socket are the same connection. -/
theorem Inverse.fd_unique {srv : TcpServer} (h : Inverse srv) {i j : Nat}
    {ci cj : ConnectionState} (hi : srv.connections.lookup i = some ci)
    (hj : srv.connections.lookup j = some cj) (hFd : ci.fd = cj.fd) : i = j := by
  have hMapped : srv.connectionByFd.lookup ci.fd = some i :=
    (h.fd_iff _ _).mpr ⟨ci, hi, rfl, h.id_eq i ci hi⟩
  have hMapped' : srv.connectionByFd.lookup ci.fd = some j :=
    (h.fd_iff _ _).mpr ⟨cj, hj, hFd.symm, h.id_eq j cj hj⟩
  rw [hMapped] at hMapped'
  exact Option.some.inj hMapped'

/-- Bytes are sent to a connection that is open. -/
theorem Change.send_inv {srv : TcpServer} {i : Nat} {connection : ConnectionState}
    (bytes : Bytes) (hLookup : srv.connections.lookup i = some connection)
    (h : ReactorInv srv) : ReactorInv (srv.emit [.send i connection.fd bytes]) where
  fd_iff := h.fd_iff
  id_eq := h.id_eq
  below := h.below
  open_eq := by
    intro j
    show openFd (srv.log ++ [.send i connection.fd bytes]) j = _
    rw [openFd_append]
    exact h.open_eq j
  fresh := h.fresh.append_of_nil rfl rfl
  sends := by
    apply sendsOwned_append h.sends
    intro before after j fd bytes' hSplit
    have hSingle : before = [] ∧ Effect.send j fd bytes' = .send i connection.fd bytes := by
      cases before with
      | nil =>
          injection hSplit with hHead _
          exact ⟨rfl, hHead.symm⟩
      | cons effect rest =>
          injection hSplit with _ hTail
          exact absurd hTail (by simp)
    obtain ⟨hNil, hEffect⟩ := hSingle
    injection hEffect with hj hfd _
    rw [hNil, List.append_nil, hj, hfd, h.open_eq, hLookup]
    refine ⟨rfl, ?_⟩
    intro k hk
    rw [h.open_eq, Option.map_eq_some_iff] at hk
    obtain ⟨other, hOther, hSame⟩ := hk
    exact h.fd_unique hOther hLookup hSame

theorem closeConnection_of_none {srv : TcpServer} {i : Nat}
    (h : srv.connections.lookup i = none) : srv.closeConnection i = srv := by
  rw [TcpServer.closeConnection, h]

/-- What a close of an open connection does. -/
theorem closeConnection_of_some {srv : TcpServer} {i : Nat} {connection : ConnectionState}
    (h : srv.connections.lookup i = some connection) :
    srv.closeConnection i =
      { srv with
        connectionByFd := srv.connectionByFd.erase connection.fd
        connections := srv.connections.erase i
        epollOut := srv.epollOut.erase connection.fd
        log := srv.log ++ [.handleDisconnect i, .close (some i) connection.fd] } := by
  rw [TcpServer.closeConnection, h]

/-- A connection is closed. -/
theorem Change.close_inv {srv : TcpServer} (i : Nat) (h : ReactorInv srv) :
    ReactorInv (srv.closeConnection i) := by
  cases hLookup : srv.connections.lookup i with
  | none =>
      rw [closeConnection_of_none hLookup]
      exact h
  | some connection =>
      rw [closeConnection_of_some hLookup]
      refine
        { fd_iff := ?_
          id_eq := ?_
          below := ?_
          open_eq := ?_
          fresh := h.fresh.append_of_nil rfl rfl
          sends := sendsOwned_append_of_not_send h.sends (by simp) }
      · intro f j
        show (srv.connectionByFd.erase connection.fd).lookup f = some j ↔
          ∃ other, (srv.connections.erase i).lookup j = some other ∧ other.fd = f ∧
            other.connectionId = j
        rw [UnorderedMap.lookup_erase, UnorderedMap.lookup_erase]
        -- Only the closed connection was on the closed socket.
        by_cases hj : j = i
        · rw [if_pos hj]
          constructor
          · intro hFd
            split at hFd
            · contradiction
            · rename_i hNe
              obtain ⟨other, hOther, hFdEq, _⟩ := (h.fd_iff f j).mp hFd
              rw [hj, hLookup] at hOther
              rw [← Option.some.inj hOther] at hFdEq
              exact absurd hFdEq.symm hNe
          · rintro ⟨other, hOther, _⟩
            contradiction
        · rw [if_neg hj]
          by_cases hf : f = connection.fd
          · rw [if_pos hf]
            constructor
            · intro hNone
              contradiction
            · rintro ⟨other, hOther, hFd, _⟩
              rw [hf] at hFd
              exact absurd (h.fd_unique hOther hLookup hFd) hj
          · rw [if_neg hf]
            exact h.fd_iff f j
      · intro j other hOther
        have hErase : (srv.connections.erase i).lookup j = some other := hOther
        rw [UnorderedMap.lookup_erase] at hErase
        split at hErase
        · contradiction
        · exact h.id_eq j other hErase
      · intro j other hOther
        have hErase : (srv.connections.erase i).lookup j = some other := hOther
        rw [UnorderedMap.lookup_erase] at hErase
        split at hErase
        · contradiction
        · exact h.below j other hErase
      · intro j
        show openFd (srv.log ++ [.handleDisconnect i, .close (some i) connection.fd]) j =
          ((srv.connections.erase i).lookup j).map (·.fd)
        rw [openFd_append, UnorderedMap.lookup_erase]
        show (if i = j then none else openFd srv.log j) = _
        by_cases hj : j = i
        · rw [if_pos hj.symm, if_pos hj]
          rfl
        · rw [if_neg (Ne.symm hj), if_neg hj]
          exact h.open_eq j

/-- Numbers that are used up without an accept. -/
theorem AcceptsFresh.skip {log : List Effect} {n g : Nat} (h : AcceptsFresh log n g) :
    AcceptsFresh log (n + 1) (g + 1) where
  ids_below i hi := Nat.lt_succ_of_lt (h.ids_below i hi)
  ids_increase := h.ids_increase
  generations_below g hg := Nat.lt_succ_of_lt (h.generations_below g hg)
  generations_increase := h.generations_increase

/-- A socket that cannot be registered is closed again. -/
theorem Change.giveUp_inv {srv : TcpServer} {accepted : Accepted}
    (hCtl : accepted.ctlOk = false) (h : ReactorInv srv) :
    ReactorInv (srv.acceptConnection accepted) := by
  unfold TcpServer.acceptConnection
  -- The numbers are used up, nothing else changes.
  rw [hCtl, if_neg nofun]
  refine
    { fd_iff := h.fd_iff
      id_eq := h.id_eq
      below := ?_
      open_eq := ?_
      fresh := ?_
      sends := sendsOwned_append_of_not_send h.sends (by simp) }
  · intro i connection hLookup
    have hBelow := h.below i connection hLookup
    exact ⟨Nat.lt_succ_of_lt hBelow.1, Nat.lt_succ_of_lt hBelow.2⟩
  · intro i
    show openFd (srv.log ++ [.close none accepted.fd]) i = _
    rw [openFd_append]
    exact h.open_eq i
  · have hSame : AcceptsFresh (srv.log ++ [.close none accepted.fd])
        srv.nextConnectionId srv.nextGeneration := h.fresh.append_of_nil rfl rfl
    exact hSame.skip

/-- A socket that is registered belongs to a new connection. -/
theorem Change.register_inv {srv : TcpServer} {accepted : Accepted}
    (hCtl : accepted.ctlOk = true) (hFree : srv.connectionByFd.lookup accepted.fd = none)
    (h : ReactorInv srv) : ReactorInv (srv.acceptConnection accepted) := by
  have hNew : srv.connections.lookup srv.nextConnectionId = none := by
    cases hLookup : srv.connections.lookup srv.nextConnectionId with
    | none => rfl
    | some connection => exact absurd (h.below _ _ hLookup).1 (Nat.lt_irrefl _)
  unfold TcpServer.acceptConnection
  rw [hCtl, if_pos rfl]
  refine
    { fd_iff := ?_
      id_eq := ?_
      below := ?_
      open_eq := ?_
      fresh := h.fresh.accept accepted.fd
      sends := sendsOwned_append_of_not_send h.sends (by simp) }
  · intro f j
    show (srv.connectionByFd.insert accepted.fd srv.nextConnectionId).lookup f = some j ↔
      ∃ other, (srv.connections.insert srv.nextConnectionId _).lookup j = some other ∧
        other.fd = f ∧ other.connectionId = j
    rw [UnorderedMap.lookup_insert, UnorderedMap.lookup_insert]
    by_cases hj : j = srv.nextConnectionId
    · rw [if_pos hj]
      constructor
      · intro hFd
        split at hFd
        · rename_i hf
          exact ⟨_, rfl, hf.symm, hj.symm⟩
        · obtain ⟨other, hOther, _⟩ := (h.fd_iff f j).mp hFd
          rw [hj, hNew] at hOther
          contradiction
      · rintro ⟨other, hOther, hFd, _⟩
        rw [← Option.some.inj hOther] at hFd
        rw [if_pos hFd.symm, hj]
    · rw [if_neg hj]
      by_cases hf : f = accepted.fd
      · rw [if_pos hf]
        constructor
        · intro hEq
          exact absurd (Option.some.inj hEq).symm hj
        · intro hOther
          rw [← h.fd_iff, hf, hFree] at hOther
          contradiction
      · rw [if_neg hf]
        exact h.fd_iff f j
  · intro j other hOther
    have hInsert : (srv.connections.insert srv.nextConnectionId _).lookup j =
      some other := hOther
    rw [UnorderedMap.lookup_insert] at hInsert
    split at hInsert
    · rename_i hj
      rw [← Option.some.inj hInsert, hj]
    · exact h.id_eq j other hInsert
  · intro j other hOther
    have hInsert : (srv.connections.insert srv.nextConnectionId _).lookup j =
      some other := hOther
    rw [UnorderedMap.lookup_insert] at hInsert
    split at hInsert
    · rename_i hj
      rw [← Option.some.inj hInsert, hj]
      exact ⟨Nat.lt_succ_self _, Nat.lt_succ_self _⟩
    · have hBelow := h.below j other hInsert
      exact ⟨Nat.lt_succ_of_lt hBelow.1, Nat.lt_succ_of_lt hBelow.2⟩
  · intro j
    show openFd (srv.log ++ [.accept srv.nextConnectionId srv.nextGeneration
      accepted.fd]) j = ((srv.connections.insert srv.nextConnectionId _).lookup j).map _
    rw [openFd_append, UnorderedMap.lookup_insert]
    show (if srv.nextConnectionId = j then some accepted.fd else openFd srv.log j) = _
    by_cases hj : j = srv.nextConnectionId
    · rw [if_pos hj.symm, if_pos hj]
      rfl
    · rw [if_neg (Ne.symm hj), if_neg hj]
      exact h.open_eq j

/-- A connection is accepted on a descriptor that is free. -/
theorem Change.accept_inv {srv : TcpServer} (accepted : Accepted)
    (hFree : srv.connectionByFd.lookup accepted.fd = none) (h : ReactorInv srv) :
    ReactorInv (srv.acceptConnection accepted) := by
  cases hCtl : accepted.ctlOk with
  | false => exact Change.giveUp_inv hCtl h
  | true => exact Change.register_inv hCtl hFree h

/-- Every change keeps the invariant. -/
theorem Change.inv {srv srv' : TcpServer} (hChange : Change srv srv') (h : ReactorInv srv) :
    ReactorInv srv' := by
  cases hChange with
  | neutral effects hNeutral hFds hConnections hId hGeneration hLog =>
      exact Change.neutral_inv hNeutral hFds hConnections hId hGeneration hLog h
  | touch hLookup hFd hId hGeneration => exact Change.touch_inv hLookup hFd hId hGeneration h
  | send bytes hLookup => exact Change.send_inv bytes hLookup h
  | close i => exact Change.close_inv i h
  | accept accepted hFree => exact Change.accept_inv accepted hFree h

/-- Several changes, one after the other. -/
theorem Changes.inv {srv srv' : TcpServer} (hChanges : Changes srv srv')
    (h : ReactorInv srv) : ReactorInv srv' := by
  induction hChanges with
  | refl => exact h
  | tail _ hChange ih => exact hChange.inv ih

/-! ## The functions of the reactor are chains of changes -/

theorem Changes.single {srv srv' : TcpServer} (h : Change srv srv') : Changes srv srv' :=
  Relation.ReflTransGen.single h

theorem changes_emit (srv : TcpServer) {effects : List Effect}
    (h : ∀ effect ∈ effects, effect.isNeutral) : Changes srv (srv.emit effects) :=
  .single (.neutral effects h rfl rfl rfl rfl rfl)

theorem changes_closeConnection (srv : TcpServer) (i : Nat) :
    Changes srv (srv.closeConnection i) :=
  .single (.close i)

theorem changes_closeClient (srv : TcpServer) (fd : Nat) :
    Changes srv (srv.closeClient fd) := by
  unfold TcpServer.closeClient
  cases srv.connectionByFd.lookup fd with
  | none =>
      have hNeutral : ∀ effect ∈ [Effect.close none fd], effect.isNeutral := by
        intro effect hMem
        rw [List.mem_singleton.mp hMem]
        rfl
      exact .single (.neutral [.close none fd] hNeutral rfl rfl rfl rfl rfl)
  | some i => exact changes_closeConnection srv i

theorem changes_setConnection {srv : TcpServer} {i : Nat}
    {connection connection' : ConnectionState}
    (hLookup : srv.connections.lookup i = some connection)
    (hFd : connection'.fd = connection.fd)
    (hId : connection'.connectionId = connection.connectionId)
    (hGeneration : connection'.generation = connection.generation) :
    Changes srv (srv.setConnection i connection') :=
  .single (.touch hLookup hFd hId hGeneration)

/-- Switching `EPOLLOUT` touches nothing else. -/
theorem changes_setWriteMode (srv : TcpServer) (fd : Nat) (enable ctlOk : Bool) :
    Changes srv (srv.setWriteMode fd enable ctlOk).2 := by
  unfold TcpServer.setWriteMode
  split
  · exact .single (.neutral [] (by simp) rfl rfl rfl rfl (List.append_nil _).symm)
  · exact .refl

/-- A send on the socket of an open connection. -/
theorem changes_afterSend {srv : TcpServer} {i : Nat} {connection : ConnectionState}
    (hLookup : srv.connections.lookup i = some connection) (bytes : Bytes) :
    Changes srv (srv.afterSend connection.fd i bytes) :=
  .single (.send bytes hLookup)

theorem changes_withRest {srv : TcpServer} {i : Nat} {connection : ConnectionState}
    (hLookup : srv.connections.lookup i = some connection) (rest : Bytes) :
    Changes srv (srv.withRest i connection rest) :=
  changes_setConnection hLookup rfl rfl rfl

/-- A send after which this waits. -/
theorem changes_afterSend_withRest {srv : TcpServer} {i : Nat} {connection : ConnectionState}
    (hLookup : srv.connections.lookup i = some connection) (bytes rest : Bytes) :
    Changes srv ((srv.afterSend connection.fd i bytes).withRest i connection rest) := by
  have hStored : (srv.afterSend connection.fd i bytes).connections.lookup i =
      some connection := hLookup
  exact (changes_afterSend hLookup bytes).trans (changes_withRest hStored rest)

/-- `handle_client_read` as a chain of changes. -/
theorem changes_handleClientRead (config : ServerConfig) (srv : TcpServer) (fd : Nat)
    (io : ReadIo) : Changes srv (srv.handleClientRead config fd io) := by
  have hRecv : ∀ {i connection out}, ReadFrom srv fd io i connection out →
      Changes srv (srv.afterRecv fd i connection out.2) := by
    intro i connection out hRead
    have hTouch : Changes srv (srv.setConnection i { connection with readBuffer := out.2 }) :=
      changes_setConnection hRead.lookup rfl rfl rfl
    exact hTouch.trans (changes_emit _ (by simp [Effect.isNeutral]))
  have hActive : ∀ {i connection out}, ReadFrom srv fd io i connection out →
      Changes srv (srv.afterPackets fd i connection out.2 io.now) := by
    intro i connection out hRead
    have hStored : (srv.afterRecv fd i connection out.2).connections.lookup i =
        some { connection with readBuffer := out.2 } := by
      show (srv.setConnection i _).connections.lookup i = _
      rw [setConnection_lookup, if_pos rfl]
    exact (hRecv hRead).trans (changes_setConnection hStored rfl rfl rfl)
  have hCase := handleClientRead_case config srv fd io
  generalize srv.handleClientRead config fd io = srv' at hCase ⊢
  cases hCase with
  | unread => exact .refl
  | dropped hRead => exact (hRecv hRead).trans (changes_closeClient _ fd)
  | incomplete hRead => exact hRecv hRead
  | enqueued hRead =>
      exact (hActive hRead).trans (changes_emit _ (by simp [Effect.isNeutral]))
  | refused hRead => exact (hActive hRead).trans (changes_closeClient _ fd)

/-- `send_to_client` as a chain of changes. -/
theorem changes_sendToClient {srv : TcpServer} {i : Nat} {connection : ConnectionState}
    (config : ServerConfig) (data : Bytes) (io : SendIo)
    (hLookup : srv.connections.lookup i = some connection) :
    Changes srv (srv.sendToClient config i connection data io).2 := by
  have hSent := changes_afterSend hLookup
  have hBlocked := changes_afterSend_withRest hLookup
  have hDone : ∀ srv' : TcpServer, Changes srv' (srv'.emit [.sendDone i data]) :=
    fun srv' => changes_emit srv' (by simp [Effect.isNeutral])
  have hCase := sendToClient_case config srv i connection data io
  generalize srv.sendToClient config i connection data io = result at hCase ⊢
  cases hCase with
  | invalid => exact .refl
  | overflow => exact changes_withRest hLookup _
  | appended => exact (changes_withRest hLookup _).trans (hDone _)
  | sent => exact (hSent _).trans (hDone _)
  | failed => exact hSent _
  | blocked => exact hBlocked _ _
  | waits =>
      exact ((hBlocked _ _).trans (changes_setWriteMode _ _ true true)).trans (hDone _)

theorem Inverse.findConnectionByFd_fd {srv : TcpServer} (h : Inverse srv) {fd i : Nat}
    {connection : ConnectionState}
    (hFind : srv.findConnectionByFd fd = some (i, connection)) : connection.fd = fd := by
  obtain ⟨hMapped, hLookup⟩ := findConnectionByFd_eq_some hFind
  obtain ⟨other, hOther, hFd, _⟩ := (h.fd_iff fd i).mp hMapped
  rw [hLookup] at hOther
  rw [Option.some.inj hOther]
  exact hFd

/-- `flush_write_buffer` as a chain of changes. -/
theorem changes_flushWriteBuffer {srv : TcpServer} (h : Inverse srv) (fd : Nat)
    (io : SendIo) : Changes srv (srv.flushWriteBuffer fd io) := by
  have hSent : ∀ {i connection}, FlushFrom srv fd i connection → ∀ bytes,
      Changes srv (srv.afterSend fd i bytes) := by
    intro i connection hFlush bytes
    rw [← h.findConnectionByFd_fd hFlush.find]
    exact changes_afterSend hFlush.lookup bytes
  have hKept : ∀ {i connection}, FlushFrom srv fd i connection → ∀ bytes rest,
      Changes srv ((srv.afterSend fd i bytes).withRest i connection rest) := by
    intro i connection hFlush bytes rest
    rw [← h.findConnectionByFd_fd hFlush.find]
    exact changes_afterSend_withRest hFlush.lookup bytes rest
  have hCase := flushWriteBuffer_case srv fd io
  generalize srv.flushWriteBuffer fd io = srv' at hCase ⊢
  cases hCase with
  | nothing => exact .refl
  | blocked hFlush => exact hKept hFlush _ _
  | failed hFlush => exact (hSent hFlush _).trans (changes_closeConnection _ _)
  | notSwitched hFlush => exact (hKept hFlush _ _).trans (changes_closeConnection _ _)
  | closed hFlush =>
      exact ((hKept hFlush _ _).trans (changes_setWriteMode _ fd false true)).trans
        (changes_closeConnection _ _)
  | flushed hFlush => exact (hKept hFlush _ _).trans (changes_setWriteMode _ fd false true)

/-- A worker only queues. -/
theorem changes_pushResult (config : ServerConfig) (srv : TcpServer)
    (result : WorkerResult) : Changes srv (srv.pushResult config result) := by
  obtain ⟨_, _, hPushed⟩ := srv.pushResult_queues config result
  rw [hPushed]
  exact .single (.neutral [] (by simp) rfl rfl rfl rfl (List.append_nil _).symm)

/-- A loop of chains is a chain. -/
theorem changes_foldl {α : Type} {f : TcpServer → α → TcpServer}
    (hf : ∀ srv a, Changes srv (f srv a)) (items : List α) :
    ∀ srv, Changes srv (items.foldl f srv) := by
  induction items with
  | nil => exact fun srv => .refl
  | cons item rest ih => exact fun srv => (hf srv item).trans (ih _)

theorem changes_closeIfCurrent (srv : TcpServer) (request : QueuedClose) :
    Changes srv (srv.closeIfCurrent request) := by
  unfold TcpServer.closeIfCurrent
  split
  · exact changes_closeConnection srv _
  · exact .refl

/-- `drain_close_requests` as a chain of changes. -/
theorem changes_drainCloseRequests (srv : TcpServer) :
    Changes srv srv.drainCloseRequests := by
  have hSwap : Changes srv { srv with closeQueue := [] } :=
    .single (.neutral [] (by simp) rfl rfl rfl rfl (List.append_nil _).symm)
  exact hSwap.trans (changes_foldl changes_closeIfCurrent _ _)

/-- One reply as a chain of changes. -/
theorem changes_deliver (config : ServerConfig) (srv : TcpServer)
    (response : QueuedResponse) (io : SendIo) :
    Changes srv (srv.deliver config response io) := by
  have hSent : ∀ {connection done srv'},
      srv.connections.lookup response.connectionId = some connection →
      srv.sendToClient config response.connectionId connection response.data io =
        (done, srv') → Changes srv srv' := by
    intro connection done srv' hLookup hSend
    have hChanges := changes_sendToClient config response.data io hLookup
    rw [hSend] at hChanges
    exact hChanges
  have hCase := deliver_case config srv response io
  generalize srv.deliver config response io = delivered at hCase ⊢
  cases hCase with
  | nothing => exact .refl
  | failed hLookup hSend => exact (hSent hLookup hSend).trans (changes_closeConnection _ _)
  | sent hLookup hSend => exact hSent hLookup hSend
  | finished hLookup hSend => exact (hSent hLookup hSend).trans (changes_closeConnection _ _)
  | marked hLookup hSend hStored =>
      exact (hSent hLookup hSend).trans (changes_setConnection hStored rfl rfl rfl)

/-- Every step of the reactor is a chain of changes. -/
theorem step_changes {config : ServerConfig} {r r' : Reactor} {a : Action}
    (h : Inverse r.server) (hStep : r.step config a = some r') :
    Changes r.server r'.server := by
  cases a with
  | accept accepted =>
      rw [Reactor.step] at hStep
      split at hStep
      · contradiction
      · rename_i hFree
        injection hStep with hEq
        rw [← hEq]
        rw [Bool.not_eq_true, Option.isSome_eq_false_iff, Option.isNone_iff_eq_none] at hFree
        exact .single (.accept accepted hFree)
  | close i =>
      injection hStep with hEq
      rw [← hEq]
      exact changes_closeConnection _ i
  | closeClient fd =>
      injection hStep with hEq
      rw [← hEq]
      exact changes_closeClient _ fd
  | read fd io =>
      injection hStep with hEq
      rw [← hEq]
      exact changes_handleClientRead config _ fd io
  | flush fd io =>
      injection hStep with hEq
      rw [← hEq]
      exact changes_flushWriteBuffer h fd io
  | push result =>
      injection hStep with hEq
      rw [← hEq]
      exact changes_pushResult config _ result
  | drainCloses =>
      injection hStep with hEq
      rw [← hEq]
      exact changes_drainCloseRequests _
  | swap =>
      rw [Reactor.step] at hStep
      split at hStep
      · injection hStep with hEq
        rw [← hEq]
        exact .single (.neutral [] (by simp) rfl rfl rfl rfl (List.append_nil _).symm)
      · contradiction
  | deliver io =>
      rw [Reactor.step] at hStep
      split at hStep
      · contradiction
      · injection hStep with hEq
        rw [← hEq]
        exact changes_deliver config _ _ io

/-! ## What a delivery emits -/

/-- What happens between two states shows in the log only as effects that
satisfy `p`. -/
def Emits (p : Effect → Prop) (srv srv' : TcpServer) : Prop :=
  ∃ effects, srv'.log = srv.log ++ effects ∧ ∀ effect ∈ effects, p effect

theorem Emits.of_log_eq {p : Effect → Prop} {srv srv' : TcpServer}
    (h : srv'.log = srv.log) : Emits p srv srv' :=
  ⟨[], by rw [h, List.append_nil], by simp⟩

/-- One step after the other. -/
theorem Emits.trans {p : Effect → Prop} {srv srv' srv'' : TcpServer}
    (h : Emits p srv srv') (h' : Emits p srv' srv'') : Emits p srv srv'' := by
  obtain ⟨effects, hLog, hAll⟩ := h
  obtain ⟨effects', hLog', hAll'⟩ := h'
  refine ⟨effects ++ effects', by rw [hLog', hLog, List.append_assoc], ?_⟩
  intro effect hMem
  rcases List.mem_append.mp hMem with hOld | hNew
  · exact hAll effect hOld
  · exact hAll' effect hNew

/-- Less may be said of the effects. -/
theorem Emits.mono {p q : Effect → Prop} {srv srv' : TcpServer} (h : Emits p srv srv')
    (hpq : ∀ effect, p effect → q effect) : Emits q srv srv' := by
  obtain ⟨effects, hLog, hAll⟩ := h
  exact ⟨effects, hLog, fun effect hMem => hpq effect (hAll effect hMem)⟩

theorem emits_emit {p : Effect → Prop} (srv : TcpServer) {effect : Effect}
    (h : p effect) : Emits p srv (srv.emit [effect]) := by
  refine ⟨[effect], rfl, ?_⟩
  intro other hMem
  rw [List.mem_singleton.mp hMem]
  exact h

/-- A close emits its two effects, or nothing. -/
theorem emits_closeConnection {p : Effect → Prop} (srv : TcpServer) {i : Nat}
    (hDisconnect : p (.handleDisconnect i)) (hClose : ∀ fd, p (.close (some i) fd)) :
    Emits p srv (srv.closeConnection i) := by
  cases hLookup : srv.connections.lookup i with
  | none => exact .of_log_eq (by rw [closeConnection_of_none hLookup])
  | some connection =>
      refine ⟨_, by rw [closeConnection_of_some hLookup], ?_⟩
      intro effect hMem
      simp only [List.mem_cons, List.not_mem_nil, or_false] at hMem
      rcases hMem with hEq | hEq <;> rw [hEq]
      · exact hDisconnect
      · exact hClose connection.fd

theorem emits_withWriteMode {p : Effect → Prop} (srv : TcpServer) (fd : Nat)
    (enable : Bool) : Emits p srv (srv.withWriteMode fd enable) :=
  .of_log_eq rfl

/-- `send_to_client` sends on the socket of its connection, and reports its own
message. -/
theorem emits_sendToClient {p : Effect → Prop} {srv : TcpServer} {i : Nat}
    {connection : ConnectionState} (config : ServerConfig) {data : Bytes} (io : SendIo)
    (hSend : ∀ bytes, p (.send i connection.fd bytes)) (hDone : p (.sendDone i data)) :
    Emits p srv (srv.sendToClient config i connection data io).2 := by
  have hSent : ∀ bytes, Emits p srv (srv.afterSend connection.fd i bytes) :=
    fun bytes => emits_emit srv (hSend bytes)
  have hBlocked : ∀ bytes rest, Emits p srv
      ((srv.afterSend connection.fd i bytes).withRest i connection rest) :=
    fun bytes rest => (hSent bytes).trans (.of_log_eq rfl)
  have hCase := sendToClient_case config srv i connection data io
  generalize srv.sendToClient config i connection data io = result at hCase ⊢
  cases hCase with
  | invalid => exact .of_log_eq rfl
  | overflow => exact .of_log_eq rfl
  | appended => exact emits_emit (srv.withRest i connection _) hDone
  | sent => exact (hSent _).trans (emits_emit _ hDone)
  | failed => exact hSent _
  | blocked => exact hBlocked _ _
  | waits =>
      exact ((hBlocked _ _).trans (emits_withWriteMode _ _ true)).trans (emits_emit _ hDone)

/-- The effects the delivery of a response may have: sends on the open socket of
the connection it is addressed to, a report of its own data, and the close of
that connection. -/
def ForResponse (srv : TcpServer) (response : QueuedResponse) : Effect → Prop
  | .send i fd _ => i = response.connectionId ∧
      ∃ connection, srv.connections.lookup i = some connection ∧ connection.fd = fd
  | .sendDone i data => i = response.connectionId ∧ data = response.data
  | .handleDisconnect i => i = response.connectionId
  | .close owner _ => owner = some response.connectionId
  | _ => False

/-- A reply has effects on its own connection only. -/
theorem emits_deliver (config : ServerConfig) (srv : TcpServer) (response : QueuedResponse)
    (io : SendIo) :
    Emits (ForResponse srv response) srv (srv.deliver config response io) := by
  have hSent : ∀ {connection done srv'},
      srv.connections.lookup response.connectionId = some connection →
      srv.sendToClient config response.connectionId connection response.data io =
        (done, srv') → Emits (ForResponse srv response) srv srv' := by
    intro connection done srv' hLookup hSend
    have hEmits : Emits (ForResponse srv response) srv (srv.sendToClient config
        response.connectionId connection response.data io).2 :=
      emits_sendToClient config io (fun _ => ⟨rfl, connection, hLookup, rfl⟩) ⟨rfl, rfl⟩
    rw [hSend] at hEmits
    exact hEmits
  have hClose : ∀ srv' : TcpServer, Emits (ForResponse srv response) srv'
      (srv'.closeConnection response.connectionId) :=
    fun srv' => emits_closeConnection srv' rfl fun _ => rfl
  have hCase := deliver_case config srv response io
  generalize srv.deliver config response io = delivered at hCase ⊢
  cases hCase with
  | nothing => exact .of_log_eq rfl
  | failed hLookup hSend => exact (hSent hLookup hSend).trans (hClose _)
  | sent hLookup hSend => exact hSent hLookup hSend
  | finished hLookup hSend => exact (hSent hLookup hSend).trans (hClose _)
  | marked hLookup hSend => exact (hSent hLookup hSend).trans (.of_log_eq rfl)

/-! ## All runs -/

/-- One step keeps the joint invariant. -/
theorem step_reactorInv {config : ServerConfig} (r : Reactor) (a : Action) (r' : Reactor)
    (h : ReactorInv r.server) (hStep : r.step config a = some r') : ReactorInv r'.server :=
  (step_changes h.toInverse hStep).inv h

theorem reactorInv_init (listenFd wakeFd : Nat) :
    ReactorInv { listenFd := listenFd, wakeFd := wakeFd } where
  fd_iff := by simp
  id_eq := by simp
  below := by simp
  open_eq := fun _ => rfl
  fresh := ⟨by simp [acceptedIds], by simp [acceptedIds], by simp [acceptedGenerations],
    by simp [acceptedGenerations]⟩
  sends := by simp [SendsOwned]

/-- Every run keeps the joint invariant. -/
theorem run_reactorInv {config : ServerConfig} {listenFd wakeFd : Nat} {acts : List Action}
    {r : Reactor}
    (hRun : run (Reactor.step config) { server := { listenFd := listenFd, wakeFd := wakeFd } }
      acts = some r) : ReactorInv r.server :=
  run_invariant step_reactorInv (reactorInv_init listenFd wakeFd) hRun

/-- In every state the reactor can reach:
the two maps are inverse to each other; ids and generations in use are below
their counters, and those given out so far strictly increase, so none is used
twice; every send in the log went out on the socket accepted for its
connection, while that connection, and no other, was open on it; and the next
delivery sends only to the connection its response is addressed to. -/
theorem reactor_inverse (config : ServerConfig) (listenFd wakeFd : Nat)
    (acts : List Action) (r : Reactor)
    (hRun : run (Reactor.step config) { server := { listenFd := listenFd, wakeFd := wakeFd } }
      acts = some r) :
    (∀ f i, r.server.connectionByFd.lookup f = some i ↔
      ∃ connection, r.server.connections.lookup i = some connection ∧ connection.fd = f ∧
        connection.connectionId = i) ∧
    (∀ i connection, r.server.connections.lookup i = some connection →
      connection.connectionId = i ∧ i < r.server.nextConnectionId ∧
        connection.generation < r.server.nextGeneration) ∧
    AcceptsFresh r.server.log r.server.nextConnectionId r.server.nextGeneration ∧
    SendsOwned r.server.log ∧
    ∀ response io, Emits (ForResponse r.server response) r.server
      (r.server.deliver config response io) := by
  have hInv := run_reactorInv hRun
  refine ⟨hInv.fd_iff, ?_, hInv.fresh, hInv.sends, ?_⟩
  · intro i connection hLookup
    exact ⟨hInv.id_eq i connection hLookup, hInv.below i connection hLookup⟩
  · intro response io
    exact emits_deliver config r.server response io

/-- Connection 1 is closed while a response to it waits, and its socket goes to
connection 2: the response is dropped. -/
theorem reactor_inverse_reusedSocket :
    ∃ r, run (Reactor.step {}) { server := { listenFd := 3, wakeFd := 4 } }
        [.accept { fd := 7 },
          .push { connectionId := 1, generation := 1,
                  messages := [{ connectionId := 1, data := ascii "hello" }] },
          .swap, .close 1, .accept { fd := 7 }, .deliver {}] = some r ∧
      r.server.connectionByFd.lookup 7 = some 2 ∧ r.pending = [] ∧
      (∃ connection, r.server.connections.lookup 2 = some connection ∧ connection.fd = 7 ∧
        connection.connectionId = 2) ∧
      SendsOwned r.server.log := by
  obtain ⟨r, hRun, hView⟩ := Option.map_eq_some_iff.mp
    (show (run (Reactor.step {}) { server := { listenFd := 3, wakeFd := 4 } }
      [.accept { fd := 7 },
        .push { connectionId := 1, generation := 1,
                messages := [{ connectionId := 1, data := ascii "hello" }] },
        .swap, .close 1, .accept { fd := 7 }, .deliver {}]).map
          (fun r => (r.server.connectionByFd.lookup 7, r.pending)) = some (some 2, []) by
      decide +kernel)
  injection hView with hFd hPending
  obtain ⟨hIff, _, _, hSends, _⟩ := reactor_inverse {} 3 4 _ r hRun
  exact ⟨r, hRun, hFd, hPending, (hIff 7 2).mp hFd, hSends⟩

end CppChat.Ports.Network
