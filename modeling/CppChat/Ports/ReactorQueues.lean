import CppChat.Ports.ReactorInvariant

/-!
# What the reactor leaves alone

Some facts about the functions of the reactor that hold whatever a connection is
doing.  Accepting, reading, writing and closing touch neither the response queue
nor the close queue: these belong to the workers and to `drain_responses`.  And a
connection id that has been given out is never open again once it is closed, and
keeps its generation while it is open.  A batch of packets is handed to the thread
pool under the id and the generation of an open connection.

## Main results

* `event_untouched`, `untouched_deliver`: both queues after a step.
* `Changes.reopensNothing`: an old id that is open after a chain of changes was open before it.
* `handleClientRead_taskOpen`: a batch belongs to an open connection.
-/

namespace CppChat.Ports.Network

open CppChat.Verified
open CppChat.Ports.PacketCodec

/-! ## The queues -/

/-- Both queues are as before. -/
structure SameQueues (srv srv' : TcpServer) : Prop where
  responses : srv'.responseQueue = srv.responseQueue
  closes : srv'.closeQueue = srv.closeQueue

/-- The queues, and the two sockets of the server itself. -/
structure Untouched (srv srv' : TcpServer) : Prop extends SameQueues srv srv' where
  listenFd : srv'.listenFd = srv.listenFd
  wakeFd : srv'.wakeFd = srv.wakeFd

theorem Untouched.refl (srv : TcpServer) : Untouched srv srv := ⟨⟨rfl, rfl⟩, rfl, rfl⟩

/-- One step after the other. -/
theorem Untouched.trans {srv srv' srv'' : TcpServer} (h : Untouched srv srv')
    (h' : Untouched srv' srv'') : Untouched srv srv'' :=
  ⟨⟨h'.responses.trans h.responses, h'.closes.trans h.closes⟩,
    h'.listenFd.trans h.listenFd, h'.wakeFd.trans h.wakeFd⟩

theorem Untouched.closeConnection {srv srv' : TcpServer} (h : Untouched srv srv') (i : Nat) :
    Untouched srv (srv'.closeConnection i) := by
  unfold TcpServer.closeConnection
  split <;> exact ⟨⟨h.responses, h.closes⟩, h.listenFd, h.wakeFd⟩

theorem Untouched.closeClient {srv srv' : TcpServer} (h : Untouched srv srv') (fd : Nat) :
    Untouched srv (srv'.closeClient fd) := by
  unfold TcpServer.closeClient
  split
  · exact ⟨⟨h.responses, h.closes⟩, h.listenFd, h.wakeFd⟩
  · exact h.closeConnection _

theorem untouched_closeIfCurrent (srv : TcpServer) (request : QueuedClose) :
    Untouched srv (srv.closeIfCurrent request) := by
  unfold TcpServer.closeIfCurrent
  split
  · exact (Untouched.refl srv).closeConnection _
  · exact .refl srv

theorem untouched_acceptConnection (srv : TcpServer) (accepted : Accepted) :
    Untouched srv (srv.acceptConnection accepted) := by
  unfold TcpServer.acceptConnection
  dsimp only
  split <;> exact ⟨⟨rfl, rfl⟩, rfl, rfl⟩

/-- A read queues nothing. -/
theorem untouched_handleClientRead (config : ServerConfig) (srv : TcpServer) (fd : Nat)
    (io : ReadIo) : Untouched srv (srv.handleClientRead config fd io) := by
  have hCase := handleClientRead_case config srv fd io
  generalize srv.handleClientRead config fd io = srv' at hCase ⊢
  cases hCase with
  | unread => exact .refl srv
  | dropped =>
      apply Untouched.closeClient
      exact ⟨⟨rfl, rfl⟩, rfl, rfl⟩
  | incomplete => exact ⟨⟨rfl, rfl⟩, rfl, rfl⟩
  | enqueued => exact ⟨⟨rfl, rfl⟩, rfl, rfl⟩
  | refused =>
      apply Untouched.closeClient
      exact ⟨⟨rfl, rfl⟩, rfl, rfl⟩

/-- A reply that is sent queues no other. -/
theorem untouched_sendToClient (config : ServerConfig) (srv : TcpServer) (i : Nat)
    (connection : ConnectionState) (data : Bytes) (io : SendIo) :
    Untouched srv (srv.sendToClient config i connection data io).2 := by
  have hCase := sendToClient_case config srv i connection data io
  generalize srv.sendToClient config i connection data io = result at hCase ⊢
  cases hCase <;> exact ⟨⟨rfl, rfl⟩, rfl, rfl⟩

/-- A flush queues nothing. -/
theorem untouched_flushWriteBuffer (srv : TcpServer) (fd : Nat) (io : SendIo) :
    Untouched srv (srv.flushWriteBuffer fd io) := by
  have hCase := flushWriteBuffer_case srv fd io
  generalize srv.flushWriteBuffer fd io = srv' at hCase ⊢
  cases hCase with
  | nothing => exact .refl srv
  | blocked => exact ⟨⟨rfl, rfl⟩, rfl, rfl⟩
  | failed | notSwitched | closed =>
      apply Untouched.closeConnection
      exact ⟨⟨rfl, rfl⟩, rfl, rfl⟩
  | flushed => exact ⟨⟨rfl, rfl⟩, rfl, rfl⟩

/-- Delivering a reply queues no other. -/
theorem untouched_deliver (config : ServerConfig) (srv : TcpServer)
    (response : QueuedResponse) (io : SendIo) :
    Untouched srv (srv.deliver config response io) := by
  have hSent : ∀ {connection done srv'},
      srv.sendToClient config response.connectionId connection response.data io =
        (done, srv') → Untouched srv srv' := by
    intro connection done srv' hSend
    have hUntouched := untouched_sendToClient config srv response.connectionId connection
      response.data io
    rw [hSend] at hUntouched
    exact hUntouched
  have hCase := deliver_case config srv response io
  generalize srv.deliver config response io = delivered at hCase ⊢
  cases hCase with
  | nothing => exact .refl srv
  | failed hLookup hSend => exact (hSent hSend).closeConnection _
  | sent hLookup hSend => exact hSent hSend
  | finished hLookup hSend => exact (hSent hSend).closeConnection _
  | marked hLookup hSend =>
      have h := hSent hSend
      exact ⟨⟨h.responses, h.closes⟩, h.listenFd, h.wakeFd⟩

/-- The steps of the reactor that belong to an event. -/
def Action.ofEvent : Action → Bool
  | .accept _ | .close _ | .closeClient _ | .read _ _ | .flush _ _ => true
  | _ => false

/-- Only workers and drains touch the queues. -/
theorem event_untouched {config : ServerConfig} {r r' : Reactor} {a : Action}
    (hEvent : a.ofEvent = true) (hStep : r.step config a = some r') :
    Untouched r.server r'.server := by
  cases a with
  | accept accepted =>
      rw [Reactor.step] at hStep
      split at hStep
      · contradiction
      · rw [← Option.some.inj hStep]
        exact untouched_acceptConnection _ accepted
  | close i =>
      rw [← Option.some.inj hStep]
      exact (Untouched.refl _).closeConnection i
  | closeClient fd =>
      rw [← Option.some.inj hStep]
      exact (Untouched.refl _).closeClient fd
  | read fd io =>
      rw [← Option.some.inj hStep]
      exact untouched_handleClientRead config _ fd io
  | flush fd io =>
      rw [← Option.some.inj hStep]
      exact untouched_flushWriteBuffer _ fd io
  | _ => contradiction

/-! ## Old connections -/

/-- The id is open under this generation. -/
def OpenAt (srv : TcpServer) (i generation : Nat) : Prop :=
  ∃ connection, srv.connections.lookup i = some connection ∧
    connection.generation = generation

/-- An id that has been given out and is open afterwards was open before, under
the same generation. -/
def ReopensNothing (srv srv' : TcpServer) : Prop :=
  srv.nextConnectionId ≤ srv'.nextConnectionId ∧
    ∀ i generation, i < srv.nextConnectionId → OpenAt srv' i generation →
      OpenAt srv i generation

theorem ReopensNothing.of_eq {srv srv' : TcpServer} (h : srv'.connections = srv.connections)
    (hNext : srv'.nextConnectionId = srv.nextConnectionId) : ReopensNothing srv srv' := by
  refine ⟨Nat.le_of_eq hNext.symm, ?_⟩
  intro i generation _ hOpen
  rw [OpenAt, h] at hOpen
  exact hOpen

/-- No change reopens a connection. -/
theorem Change.reopensNothing {srv srv' : TcpServer} (h : Change srv srv') :
    ReopensNothing srv srv' := by
  cases h with
  | neutral effects hNeutral hFds hConnections hId hGeneration hLog =>
      exact .of_eq hConnections hId
  | @touch i connection connection' hLookup hFd hId hGeneration =>
      refine ⟨Nat.le_refl _, ?_⟩
      rintro j generation - ⟨other, hOther, hGen⟩
      rw [setConnection_lookup] at hOther
      split at hOther
      · rename_i hj
        rw [← Option.some.inj hOther, hGeneration] at hGen
        exact ⟨connection, by rw [hj]; exact hLookup, hGen⟩
      · exact ⟨other, hOther, hGen⟩
  | send bytes hLookup => exact .of_eq rfl rfl
  | close i =>
      cases hLookup : srv.connections.lookup i with
      | none =>
          rw [closeConnection_of_none hLookup]
          exact .of_eq rfl rfl
      | some connection =>
          unfold TcpServer.closeConnection
          rw [hLookup]
          refine ⟨Nat.le_refl _, ?_⟩
          rintro j generation - ⟨other, hOther, hGen⟩
          rw [UnorderedMap.lookup_erase] at hOther
          split at hOther
          · contradiction
          · exact ⟨other, hOther, hGen⟩
  | accept accepted hFree =>
      unfold TcpServer.acceptConnection
      dsimp only
      split
      · refine ⟨Nat.le_succ _, ?_⟩
        rintro j generation hj ⟨other, hOther, hGen⟩
        rw [UnorderedMap.lookup_insert, if_neg (Nat.ne_of_lt hj)] at hOther
        exact ⟨other, hOther, hGen⟩
      · exact ⟨Nat.le_succ _, fun j generation _ hOpen => hOpen⟩

/-- Nor does a chain of changes. -/
theorem Changes.reopensNothing {srv srv' : TcpServer} (h : Changes srv srv') :
    ReopensNothing srv srv' := by
  induction h with
  | refl => exact .of_eq rfl rfl
  | tail _ hChange ih =>
      obtain ⟨hNext, hOpen⟩ := hChange.reopensNothing
      refine ⟨Nat.le_trans ih.1 hNext, ?_⟩
      intro i generation hi hOpen'
      exact ih.2 i generation hi (hOpen i generation (Nat.lt_of_lt_of_le hi ih.1) hOpen')

/-- A connection has one generation. -/
theorem OpenAt.generation_eq {srv : TcpServer} {i g g' : Nat} (h : OpenAt srv i g)
    (h' : OpenAt srv i g') : g = g' := by
  obtain ⟨connection, hLookup, rfl⟩ := h
  obtain ⟨other, hOther, rfl⟩ := h'
  rw [hLookup] at hOther
  rw [Option.some.inj hOther]

/-- The check of a close request and of a response. -/
theorem OpenAt.isCurrentConnection {srv : TcpServer} {i g : Nat} (h : OpenAt srv i g) :
    srv.isCurrentConnection i g = true := by
  obtain ⟨connection, hLookup, rfl⟩ := h
  simp [TcpServer.isCurrentConnection, hLookup]

/-- Whatever passes the check is open, under some generation. -/
theorem openAt_of_isCurrentConnection {srv : TcpServer} {i g : Nat}
    (h : srv.isCurrentConnection i g = true) : ∃ g', OpenAt srv i g' := by
  unfold TcpServer.isCurrentConnection at h
  split at h
  · contradiction
  · rename_i connection hLookup
    exact ⟨connection.generation, connection, hLookup, rfl⟩

/-- A connection that was closed is not open. -/
theorem not_openAt_closeConnection (srv : TcpServer) (i g : Nat) :
    ¬OpenAt (srv.closeConnection i) i g := by
  rintro ⟨connection, hLookup, -⟩
  unfold TcpServer.closeConnection at hLookup
  split at hLookup
  · rename_i hNone
    rw [hNone] at hLookup
    contradiction
  · rw [UnorderedMap.lookup_erase, if_pos rfl] at hLookup
    contradiction

/-! ## Batches -/

/-- Every batch handed to the thread pool on the way belongs to a connection that is
open at its end. -/
def TaskOpen (srv srv' : TcpServer) : Prop :=
  ∃ effects, srv'.log = srv.log ++ effects ∧
    ∀ i generation payloads, .enqueue i generation payloads ∈ effects → OpenAt srv' i generation

theorem taskOpen_of_emits {srv srv' : TcpServer}
    (h : Emits (fun effect => ∀ i g payloads, effect ≠ .enqueue i g payloads) srv srv') :
    TaskOpen srv srv' := by
  obtain ⟨effects, hLog, hNone⟩ := h
  exact ⟨effects, hLog, fun i g payloads hMem => absurd rfl (hNone _ hMem i g payloads)⟩

theorem emits_closeClient {p : Effect → Prop} (srv : TcpServer) (fd : Nat)
    (hDisconnect : ∀ i, p (.handleDisconnect i)) (hClose : ∀ owner fd, p (.close owner fd)) :
    Emits p srv (srv.closeClient fd) := by
  unfold TcpServer.closeClient
  split
  · refine ⟨[.close none fd], rfl, ?_⟩
    intro effect hMem
    rw [List.mem_singleton.mp hMem]
    exact hClose none fd
  · exact emits_closeConnection srv (hDisconnect _) (hClose _)

/-- A read hands over the batch it has stored, or none. -/
theorem handleClientRead_batch (config : ServerConfig) (srv : TcpServer) (fd : Nat)
    (io : ReadIo) :
    (∃ i connection out, ReadFrom srv fd io i connection out ∧ io.enqueued = true ∧
      srv.handleClientRead config fd io =
        (srv.afterPackets fd i connection out.2 io.now).emit
          [.enqueue connection.connectionId connection.generation
            (out.1.packets.map Packet.payload)]) ∨
    Emits (fun effect => ∀ i g payloads, effect ≠ .enqueue i g payloads) srv
      (srv.handleClientRead config fd io) := by
  have hRecv : ∀ i (connection : ConnectionState),
      Emits (fun effect => ∀ i g payloads, effect ≠ .enqueue i g payloads) srv
        ((srv.setConnection i connection).emit [.recv i fd]) :=
    fun i connection => emits_emit (srv.setConnection i connection)
      (fun _ _ _ hEq => by contradiction)
  have hClose : ∀ received : TcpServer,
      Emits (fun effect => ∀ i g payloads, effect ≠ .enqueue i g payloads) srv received →
        Emits (fun effect => ∀ i g payloads, effect ≠ .enqueue i g payloads) srv
          (received.closeClient fd) := by
    intro received hReceived
    exact hReceived.trans (emits_closeClient received fd
      (fun _ _ _ _ hEq => by contradiction) (fun _ _ _ _ _ hEq => by contradiction))
  have hCase := handleClientRead_case config srv fd io
  generalize srv.handleClientRead config fd io = srv' at hCase ⊢
  cases hCase with
  | unread => exact .inr (.of_log_eq rfl)
  | dropped => exact .inr (hClose _ (hRecv _ _))
  | incomplete => exact .inr (hRecv _ _)
  | enqueued hRead hGoes hLength hTaken => exact .inl ⟨_, _, _, hRead, hTaken, rfl⟩
  | refused => exact .inr (hClose _ (hRecv _ _))

/-- A read hands its batch over under the id and the generation it is read under. -/
theorem handleClientRead_taskOpen (config : ServerConfig) {srv : TcpServer} (h : Inverse srv)
    (fd : Nat) (io : ReadIo) : TaskOpen srv (srv.handleClientRead config fd io) := by
  rcases handleClientRead_batch config srv fd io with
    ⟨i, connection, out, hRead, _, hEq⟩ | hNone
  · have hId := h.id_eq i connection hRead.lookup
    rw [hEq]
    refine ⟨[.recv i fd, .enqueue connection.connectionId connection.generation
      (out.1.packets.map Packet.payload)], by simp [TcpServer.emit, TcpServer.setConnection], ?_⟩
    intro j g payloads hMem
    have hBatch : j = connection.connectionId ∧ g = connection.generation ∧
        payloads = out.1.packets.map Packet.payload := by simpa using hMem
    rw [hBatch.1, hBatch.2.1, hId]
    refine ⟨{ connection with readBuffer := out.2, lastActiveAt := io.now }, ?_, rfl⟩
    simp [TcpServer.emit, setConnection_lookup, hId]
  · exact taskOpen_of_emits hNone

end CppChat.Ports.Network
