import CppChat.Ports.ReactorInvariant

/-!
# What a function of the reactor leaves alone

Reading from a socket, flushing it, closing it and delivering a response each
concern one connection.  `OnlyFor i fd` says so: the log grows by effects on
connection `i` only, the other connections stay as they are, no socket gets a
new owner, and epoll is touched for the socket `fd` at most.

## Main results

* `onlyFor_handleClientRead`, `onlyFor_flushWriteBuffer`: reads and flushes concern the
  connection their socket belongs to.
* `onlyFor_deliver`: a delivery concerns the connection it is addressed to.
-/

namespace CppChat.Ports.Network

open CppChat.Verified
open CppChat.Ports.PacketCodec

/-- The connection an effect is about. -/
def Effect.owner : Effect → Option Nat
  | .accept i _ _ => some i
  | .recv i _ => some i
  | .enqueue i _ _ => some i
  | .send i _ _ => some i
  | .sendDone i _ => some i
  | .handleDisconnect i => some i
  | .close owner _ => owner

/-- All that happens between two states is done to one connection and on its
socket, which it keeps as long as it is open. -/
structure OnlyFor (i fd : Nat) (srv srv' : TcpServer) : Prop where
  effects : Emits (fun effect => effect.owner = some i) srv srv'
  others : ∀ j, j ≠ i → srv'.connections.lookup j = srv.connections.lookup j
  mapped : ∀ f j, srv'.connectionByFd.lookup f = some j → srv.connectionByFd.lookup f = some j
  armed : ∀ f, f ≠ fd → srv'.epollOut.lookup f = srv.epollOut.lookup f
  counter : srv'.nextConnectionId = srv.nextConnectionId
  socket : ∀ connection, srv'.connections.lookup i = some connection → connection.fd = fd

/-! ## Chains -/

namespace OnlyFor

variable {i fd : Nat} {srv srv' srv'' : TcpServer}

/-- Nothing has happened. -/
theorem refl (h : ∀ connection, srv.connections.lookup i = some connection →
    connection.fd = fd) : OnlyFor i fd srv srv where
  effects := .of_log_eq rfl
  others := fun _ _ => rfl
  mapped := fun _ _ hMapped => hMapped
  armed := fun _ _ => rfl
  counter := rfl
  socket := h

/-- One step after the other. -/
theorem trans (h : OnlyFor i fd srv srv') (h' : OnlyFor i fd srv' srv'') :
    OnlyFor i fd srv srv'' where
  effects := h.effects.trans h'.effects
  others := fun j hj => (h'.others j hj).trans (h.others j hj)
  mapped := fun f j hMapped => h.mapped f j (h'.mapped f j hMapped)
  armed := fun f hf => (h'.armed f hf).trans (h.armed f hf)
  counter := h'.counter.trans h.counter
  socket := h'.socket

theorem emit (h : OnlyFor i fd srv srv') {effect : Effect} (hOwner : effect.owner = some i) :
    OnlyFor i fd srv (srv'.emit [effect]) where
  effects := h.effects.trans (emits_emit srv' hOwner)
  others := h.others
  mapped := h.mapped
  armed := h.armed
  counter := h.counter
  socket := h.socket

theorem setConnection (h : OnlyFor i fd srv srv') {connection : ConnectionState}
    (hFd : connection.fd = fd) : OnlyFor i fd srv (srv'.setConnection i connection) where
  effects := h.effects.trans (.of_log_eq rfl)
  others := by
    intro j hj
    rw [setConnection_lookup, if_neg hj]
    exact h.others j hj
  mapped := h.mapped
  armed := h.armed
  counter := h.counter
  socket := by
    intro other hOther
    rw [setConnection_lookup, if_pos rfl] at hOther
    rw [← Option.some.inj hOther]
    exact hFd

theorem setWriteMode (h : OnlyFor i fd srv srv') (enable ctlOk : Bool) :
    OnlyFor i fd srv (srv'.setWriteMode fd enable ctlOk).2 := by
  unfold TcpServer.setWriteMode
  cases ctlOk with
  | false => exact h
  | true =>
      have hArmed : ∀ f, f ≠ fd →
          (srv'.epollOut.insert fd enable).lookup f = srv.epollOut.lookup f := by
        intro f hf
        rw [UnorderedMap.lookup_insert, if_neg hf]
        exact h.armed f hf
      exact ⟨h.effects.trans (.of_log_eq rfl), h.others, h.mapped, hArmed, h.counter, h.socket⟩

/-- Closing the connection leaves the others alone. -/
theorem closeConnection (h : OnlyFor i fd srv srv') :
    OnlyFor i fd srv (srv'.closeConnection i) := by
  have hEffects : Emits (fun effect => effect.owner = some i) srv' (srv'.closeConnection i) :=
    emits_closeConnection srv' rfl fun _ => rfl
  cases hLookup : srv'.connections.lookup i with
  | none =>
      rw [closeConnection_of_none hLookup]
      exact h
  | some connection =>
      have hFd := h.socket connection hLookup
      rw [closeConnection_of_some hLookup, hFd] at hEffects ⊢
      refine ⟨h.effects.trans hEffects, ?_, ?_, ?_, h.counter, ?_⟩
      · intro j hj
        show (srv'.connections.erase i).lookup j = _
        rw [UnorderedMap.lookup_erase, if_neg hj]
        exact h.others j hj
      · intro f j hMapped
        have hErased : (srv'.connectionByFd.erase fd).lookup f = some j := hMapped
        rw [UnorderedMap.lookup_erase] at hErased
        split at hErased
        · contradiction
        · exact h.mapped f j hErased
      · intro f hf
        show (srv'.epollOut.erase fd).lookup f = _
        rw [UnorderedMap.lookup_erase, if_neg hf]
        exact h.armed f hf
      · intro other hOther
        have hErased : (srv'.connections.erase i).lookup i = some other := hOther
        rw [UnorderedMap.lookup_erase, if_pos rfl] at hErased
        contradiction

/-- So does closing it through its descriptor. -/
theorem closeClient (h : OnlyFor i fd srv srv')
    (hMapped : srv'.connectionByFd.lookup fd = some i) :
    OnlyFor i fd srv (srv'.closeClient fd) := by
  rw [TcpServer.closeClient, hMapped]
  exact h.closeConnection

end OnlyFor

/-- A connection has one socket. -/
theorem socket_of_lookup {srv : TcpServer} {i : Nat} {connection : ConnectionState}
    (hLookup : srv.connections.lookup i = some connection) :
    ∀ other, srv.connections.lookup i = some other → other.fd = connection.fd := by
  intro other hOther
  rw [hLookup] at hOther
  rw [Option.some.inj hOther]

/-! ## Finding a connection by its socket -/

/-- The owner of a mapped socket is open. -/
theorem Inverse.findConnectionByFd {srv : TcpServer} (h : Inverse srv) {fd i : Nat}
    (hMapped : srv.connectionByFd.lookup fd = some i) :
    ∃ connection, srv.findConnectionByFd fd = some (i, connection) := by
  obtain ⟨connection, hLookup, _⟩ := (h.fd_iff fd i).mp hMapped
  refine ⟨connection, ?_⟩
  rw [TcpServer.findConnectionByFd, hMapped]
  show (srv.connections.lookup i).map _ = _
  rw [hLookup]
  rfl

theorem found_eq {srv : TcpServer} {fd i j : Nat} {connection other : ConnectionState}
    (hFind : srv.findConnectionByFd fd = some (i, connection))
    (hOther : srv.findConnectionByFd fd = some (j, other)) : other = connection := by
  rw [hFind] at hOther
  injection hOther with hPair
  injection hPair with _ hSame
  exact hSame.symm

/-! ## Reads -/

/-- A read receives from the owner of the socket first, and does the rest to it
as well. -/
theorem handleClientRead_recv {config : ServerConfig} {srv : TcpServer} {fd i : Nat}
    {connection : ConnectionState} (h : Inverse srv)
    (hFind : srv.findConnectionByFd fd = some (i, connection))
    (hOpen : connection.closing = false) (io : ReadIo) :
    ∃ received : TcpServer, received.log = srv.log ++ [.recv i fd] ∧
      OnlyFor i fd srv received ∧
      OnlyFor i fd received (srv.handleClientRead config fd io) := by
  obtain ⟨hMapped, hLookup⟩ := findConnectionByFd_eq_some hFind
  have hId := h.id_eq i connection hLookup
  have hFd := h.findConnectionByFd_fd hFind
  have hSocket := socket_of_lookup hLookup
  rw [hFd] at hSocket
  have hRecv : ∀ readBuffer, OnlyFor i fd srv (srv.afterRecv fd i connection readBuffer) := by
    intro readBuffer
    have hStored : OnlyFor i fd srv
        (srv.setConnection i { connection with readBuffer := readBuffer }) :=
      (OnlyFor.refl hSocket).setConnection hFd
    exact hStored.emit rfl
  have hStay := fun readBuffer => OnlyFor.refl (hRecv readBuffer).socket
  have hActive : ∀ readBuffer, OnlyFor i fd (srv.afterRecv fd i connection readBuffer)
      (srv.afterPackets fd i connection readBuffer io.now) :=
    fun readBuffer => (hStay readBuffer).setConnection hFd
  have hCase := handleClientRead_case config srv fd io
  generalize srv.handleClientRead config fd io = srv' at hCase ⊢
  cases hCase with
  | unread hNone =>
      rw [hNone i connection hFind] at hOpen
      contradiction
  | dropped hRead =>
      obtain ⟨rfl, rfl⟩ := hRead.found hFind
      exact ⟨_, rfl, hRecv _, (hStay _).closeClient hMapped⟩
  | incomplete hRead =>
      obtain ⟨rfl, rfl⟩ := hRead.found hFind
      exact ⟨_, rfl, hRecv _, hStay _⟩
  | enqueued hRead =>
      obtain ⟨rfl, rfl⟩ := hRead.found hFind
      exact ⟨_, rfl, hRecv _, (hActive _).emit (congrArg some hId)⟩
  | refused hRead =>
      obtain ⟨rfl, rfl⟩ := hRead.found hFind
      exact ⟨_, rfl, hRecv _, (hActive _).closeClient hMapped⟩

/-- A connection that is closing is not read. -/
theorem handleClientRead_of_closing {config : ServerConfig} {srv : TcpServer} {fd : Nat}
    (h : ∀ i connection, srv.findConnectionByFd fd = some (i, connection) → connection.closing)
    (io : ReadIo) : srv.handleClientRead config fd io = srv := by
  have hCase := handleClientRead_case config srv fd io
  have hNobody : ∀ {j other out}, ¬ReadFrom srv fd io j other out := by
    intro j other out hRead
    have hReads := hRead.reads
    rw [h j other hRead.find] at hReads
    contradiction
  generalize srv.handleClientRead config fd io = srv' at hCase ⊢
  cases hCase with
  | unread => rfl
  | dropped hRead | incomplete hRead | enqueued hRead | refused hRead =>
      exact absurd hRead hNobody

/-- A read event is about one connection. -/
theorem onlyFor_handleClientRead {config : ServerConfig} {srv : TcpServer} {fd i : Nat}
    (h : Inverse srv) (hMapped : srv.connectionByFd.lookup fd = some i) (io : ReadIo) :
    OnlyFor i fd srv (srv.handleClientRead config fd io) := by
  obtain ⟨connection, hFind⟩ := h.findConnectionByFd hMapped
  cases hClosing : connection.closing with
  | false =>
      obtain ⟨received, _, hRecv, hRest⟩ := handleClientRead_recv h hFind hClosing io
      exact hRecv.trans hRest
  | true =>
      have hSocket := socket_of_lookup (findConnectionByFd_eq_some hFind).2
      rw [h.findConnectionByFd_fd hFind] at hSocket
      rw [handleClientRead_of_closing]
      · exact .refl hSocket
      · intro j other hOther
        rw [found_eq hFind hOther]
        exact hClosing

/-! ## Flushes -/

/-- A flush sends for the owner of the socket first, and does the rest to it as
well. -/
theorem flushWriteBuffer_send {srv : TcpServer} {fd i : Nat} {connection : ConnectionState}
    (h : Inverse srv) (hFind : srv.findConnectionByFd fd = some (i, connection))
    (hWaiting : connection.writeBuffer ≠ []) (io : SendIo) :
    ∃ (sent : TcpServer) (bytes : Bytes), sent.log = srv.log ++ [.send i fd bytes] ∧
      OnlyFor i fd srv sent ∧ OnlyFor i fd sent (srv.flushWriteBuffer fd io) := by
  obtain ⟨_, hLookup⟩ := findConnectionByFd_eq_some hFind
  have hId := h.id_eq i connection hLookup
  have hFd := h.findConnectionByFd_fd hFind
  have hSocket := socket_of_lookup hLookup
  rw [hFd] at hSocket
  have hSent : ∀ bytes, OnlyFor i fd srv (srv.afterSend fd i bytes) :=
    fun bytes => (OnlyFor.refl hSocket).emit rfl
  have hStay := fun bytes => OnlyFor.refl (hSent bytes).socket
  have hRest : ∀ bytes rest, OnlyFor i fd (srv.afterSend fd i bytes)
      ((srv.afterSend fd i bytes).withRest i connection rest) :=
    fun bytes rest => (hStay bytes).setConnection hFd
  have hCase := flushWriteBuffer_case srv fd io
  generalize srv.flushWriteBuffer fd io = srv' at hCase ⊢
  cases hCase with
  | nothing hNone => exact absurd (hNone i connection hFind) hWaiting
  | blocked hFlush =>
      obtain ⟨rfl, rfl⟩ := hFlush.found hFind
      exact ⟨_, _, rfl, hSent _, hRest _ _⟩
  | failed hFlush =>
      obtain ⟨rfl, rfl⟩ := hFlush.found hFind
      rw [hId]
      exact ⟨_, _, rfl, hSent _, (hStay _).closeConnection⟩
  | notSwitched hFlush =>
      obtain ⟨rfl, rfl⟩ := hFlush.found hFind
      rw [hId]
      exact ⟨_, _, rfl, hSent _, (hRest _ _).closeConnection⟩
  | closed hFlush =>
      obtain ⟨rfl, rfl⟩ := hFlush.found hFind
      rw [hId]
      exact ⟨_, _, rfl, hSent _, ((hRest _ _).setWriteMode false true).closeConnection⟩
  | flushed hFlush =>
      obtain ⟨rfl, rfl⟩ := hFlush.found hFind
      exact ⟨_, _, rfl, hSent _, (hRest _ _).setWriteMode false true⟩

/-- With nothing to write, `flush_write_buffer` does nothing. -/
theorem flushWriteBuffer_of_empty {srv : TcpServer} {fd : Nat}
    (h : ∀ i connection, srv.findConnectionByFd fd = some (i, connection) →
      connection.writeBuffer = []) (io : SendIo) : srv.flushWriteBuffer fd io = srv := by
  have hCase := flushWriteBuffer_case srv fd io
  have hNobody : ∀ {j other}, ¬FlushFrom srv fd j other :=
    fun hFlush => hFlush.waiting (h _ _ hFlush.find)
  generalize srv.flushWriteBuffer fd io = srv' at hCase ⊢
  cases hCase with
  | nothing => rfl
  | blocked hFlush | failed hFlush | notSwitched hFlush | closed hFlush | flushed hFlush =>
      exact absurd hFlush hNobody

/-- A flush concerns the connection its socket belongs to, or nobody. -/
theorem onlyFor_flushWriteBuffer {srv : TcpServer} {fd i : Nat} (h : Inverse srv)
    (hSocket : ∀ connection, srv.connections.lookup i = some connection → connection.fd = fd)
    (hMapped : ∀ j, srv.connectionByFd.lookup fd = some j → j = i) (io : SendIo) :
    OnlyFor i fd srv (srv.flushWriteBuffer fd io) := by
  cases hFind : srv.findConnectionByFd fd with
  | none =>
      rw [TcpServer.flushWriteBuffer, hFind]
      exact .refl hSocket
  | some found =>
      obtain ⟨j, connection⟩ := found
      have hj : j = i := hMapped j (findConnectionByFd_eq_some hFind).1
      rw [hj] at hFind
      by_cases hEmpty : connection.writeBuffer = []
      · rw [flushWriteBuffer_of_empty]
        · exact .refl hSocket
        · intro k other hOther
          rw [found_eq hFind hOther]
          exact hEmpty
      · obtain ⟨sent, _, _, hSent, hRest⟩ := flushWriteBuffer_send h hFind hEmpty io
        exact hSent.trans hRest

/-! ## Deliveries -/

/-- A reply is about one connection. -/
theorem onlyFor_sendToClient {srv : TcpServer} {i : Nat} {connection : ConnectionState}
    (config : ServerConfig) (data : Bytes) (io : SendIo)
    (hLookup : srv.connections.lookup i = some connection) :
    OnlyFor i connection.fd srv (srv.sendToClient config i connection data io).2 := by
  have hStay : OnlyFor i connection.fd srv srv := .refl (socket_of_lookup hLookup)
  have hSent : ∀ bytes, OnlyFor i connection.fd srv (srv.afterSend connection.fd i bytes) :=
    fun bytes => hStay.emit rfl
  have hAppended : ∀ rest, OnlyFor i connection.fd srv (srv.withRest i connection rest) :=
    fun rest => hStay.setConnection rfl
  have hBlocked : ∀ bytes rest, OnlyFor i connection.fd srv
      ((srv.afterSend connection.fd i bytes).withRest i connection rest) :=
    fun bytes rest => (hSent bytes).setConnection rfl
  have hCase := sendToClient_case config srv i connection data io
  generalize srv.sendToClient config i connection data io = result at hCase ⊢
  cases hCase with
  | invalid => exact hStay
  | overflow => exact hAppended _
  | appended => exact (hAppended _).emit rfl
  | sent => exact (hSent _).emit rfl
  | failed => exact hSent _
  | blocked => exact hBlocked _ _
  | waits => exact ((hBlocked _ _).setWriteMode true true).emit rfl

theorem onlyFor_deliver {srv : TcpServer} {response : QueuedResponse}
    {connection : ConnectionState} (config : ServerConfig) (io : SendIo)
    (hLookup : srv.connections.lookup response.connectionId = some connection) :
    OnlyFor response.connectionId connection.fd srv (srv.deliver config response io) := by
  have hSent : ∀ {other done srv'},
      srv.connections.lookup response.connectionId = some other →
      srv.sendToClient config response.connectionId other response.data io = (done, srv') →
      OnlyFor response.connectionId connection.fd srv srv' := by
    intro other done srv' hOther hSend
    have hOnly := onlyFor_sendToClient config response.data io hOther
    rw [hSend, socket_of_lookup hLookup other hOther] at hOnly
    exact hOnly
  have hCase := deliver_case config srv response io
  generalize srv.deliver config response io = delivered at hCase ⊢
  cases hCase with
  | nothing => exact .refl (socket_of_lookup hLookup)
  | failed hOther hSend => exact (hSent hOther hSend).closeConnection
  | sent hOther hSend => exact hSent hOther hSend
  | finished hOther hSend => exact (hSent hOther hSend).closeConnection
  | marked hOther hSend hStored =>
      have hFd := (hSent hOther hSend).socket _ hStored
      exact (hSent hOther hSend).setConnection hFd

end CppChat.Ports.Network
