import CppChat.Ports.WritePath

/-!
# A property of every open connection

Many invariants of the reactor speak about one connection at a time: how long its
buffers are, when it was last active.  Such a property survives a function of the
reactor if it survives what the function writes back into the connection it works on;
a connection the function has spoiled must be closed before it returns.  Here this is
said once for each function, for an arbitrary property.

## Main results

* `EachOther.closeConnection`: closing a connection makes up for what was done to it.
* `EachConnection.handleClientRead`, `EachConnection.deliver`,
  `EachConnection.flushWriteBuffer`: what a function may write back.
* `EachConnection.step`: what is kept by everything that is written back, is kept by
  every step of the reactor.
-/

namespace CppChat.Ports.Network

open CppChat.Verified
open CppChat.Ports.PacketCodec

/-- Every open connection has the property. -/
def EachConnection (p : ConnectionState → Prop) (srv : TcpServer) : Prop :=
  ∀ i connection, srv.connections.lookup i = some connection → p connection

/-- Every open connection has the property, except perhaps one. -/
def EachOther (p : ConnectionState → Prop) (i : Nat) (srv : TcpServer) : Prop :=
  ∀ j connection, j ≠ i → srv.connections.lookup j = some connection → p connection

variable {p : ConnectionState → Prop} {srv srv' : TcpServer} {i : Nat}

/-- Only the connections matter. -/
theorem EachConnection.congr (h : EachConnection p srv)
    (hSame : srv'.connections = srv.connections) : EachConnection p srv' := by
  unfold EachConnection
  rw [hSame]
  exact h

/-- What holds of all connections holds of the others. -/
theorem EachConnection.other (h : EachConnection p srv) (i : Nat) : EachOther p i srv :=
  fun j connection _ hLookup => h j connection hLookup

theorem EachOther.congr (h : EachOther p i srv) (hSame : srv'.connections = srv.connections) :
    EachOther p i srv' := by
  unfold EachOther
  rw [hSame]
  exact h

/-- Writing one connection back leaves the others alone. -/
theorem EachOther.setConnection (h : EachOther p i srv) (connection : ConnectionState) :
    EachOther p i (srv.setConnection i connection) := by
  intro j other hj hLookup
  rw [setConnection_lookup, if_neg hj] at hLookup
  exact h j other hj hLookup

/-- A connection that has the property is written back. -/
theorem EachConnection.setConnection (h : EachConnection p srv) {connection : ConnectionState}
    (hp : p connection) : EachConnection p (srv.setConnection i connection) := by
  intro j other hLookup
  rw [setConnection_lookup] at hLookup
  split at hLookup
  · rw [← Option.some.inj hLookup]
    exact hp
  · exact h j other hLookup

/-! ## Closing -/

/-- The connections after one is closed. -/
theorem closeConnection_lookup (srv : TcpServer) (i j : Nat) :
    (srv.closeConnection i).connections.lookup j =
      if j = i then none else srv.connections.lookup j := by
  split
  · rename_i hEq
    rw [hEq]
    exact closeConnection_lookup_self srv i
  · rename_i hNe
    cases hLookup : srv.connections.lookup i with
    | none => rw [closeConnection_of_none hLookup]
    | some connection =>
        rw [closeConnection_of_some hLookup]
        show (srv.connections.erase i).lookup j = _
        rw [UnorderedMap.lookup_erase, if_neg hNe]

/-- Closing a connection makes up for what was done to it. -/
theorem EachOther.closeConnection (h : EachOther p i srv) :
    EachConnection p (srv.closeConnection i) := by
  intro j connection hLookup
  rw [closeConnection_lookup] at hLookup
  split at hLookup
  · contradiction
  · rename_i hNe
    exact h j connection hNe hLookup

/-- Closing a connection leaves fewer to speak of. -/
theorem EachConnection.closeConnection (h : EachConnection p srv) (i : Nat) :
    EachConnection p (srv.closeConnection i) :=
  (h.other i).closeConnection

theorem EachConnection.closeClient (h : EachConnection p srv) (fd : Nat) :
    EachConnection p (srv.closeClient fd) := by
  unfold TcpServer.closeClient
  split
  · exact h.congr rfl
  · exact h.closeConnection _

/-- Closing a socket closes the connection known under it. -/
theorem EachOther.closeClient (h : EachOther p i srv) {fd : Nat}
    (hFd : srv.connectionByFd.lookup fd = some i) : EachConnection p (srv.closeClient fd) := by
  rw [TcpServer.closeClient, hFd]
  exact h.closeConnection

theorem EachConnection.closeIfCurrent (h : EachConnection p srv) (request : QueuedClose) :
    EachConnection p (srv.closeIfCurrent request) := by
  unfold TcpServer.closeIfCurrent
  split
  · exact h.closeConnection _
  · exact h

theorem EachConnection.drainCloseRequests (h : EachConnection p srv) :
    EachConnection p srv.drainCloseRequests := by
  unfold TcpServer.drainCloseRequests
  have hStep : ∀ (srv : TcpServer) (request : QueuedClose), True → EachConnection p srv →
      EachConnection p (srv.closeIfCurrent request) :=
    fun _ request _ hEach => hEach.closeIfCurrent request
  exact Transition.foldl_invariant hStep srv.closeQueue _ (fun _ _ => trivial) (h.congr rfl)

/-! ## Accepting and reading -/

/-- A new connection must have the property. -/
theorem EachConnection.acceptConnection (h : EachConnection p srv) (accepted : Accepted)
    (hNew : p { connectionId := srv.nextConnectionId, fd := accepted.fd,
                lastActiveAt := accepted.now, generation := srv.nextGeneration }) :
    EachConnection p (srv.acceptConnection accepted) := by
  unfold TcpServer.acceptConnection
  dsimp only
  split
  · exact h.setConnection (i := srv.nextConnectionId) hNew
  · exact h.congr rfl

/-- A read that does not close the connection leaves less than a frame in its buffer, and
no more than the limit. -/
theorem EachConnection.handleClientRead (h : EachConnection p srv) {config : ServerConfig}
    (fd : Nat) (io : ReadIo)
    (hRead : ∀ connection readBuffer lastActiveAt, p connection →
      readBuffer.length ≤ config.maxReadBufferBytes →
      readBuffer.length < kPacketHeaderSize + kMaxPacketPayloadSize →
      lastActiveAt = connection.lastActiveAt ∨ lastActiveAt = io.now →
      p { connection with readBuffer := readBuffer, lastActiveAt := lastActiveAt }) :
    EachConnection p (srv.handleClientRead config fd io) := by
  have hOthers : ∀ i (connection' : ConnectionState), EachOther p i
      ((srv.setConnection i connection').emit [.recv i fd]) :=
    fun i connection' => ((h.other i).setConnection connection').congr rfl
  have hCase := handleClientRead_case config srv fd io
  generalize srv.handleClientRead config fd io = srv' at hCase ⊢
  cases hCase with
  | unread => exact h
  | dropped hFrom => exact (hOthers _ _).closeClient hFrom.mapped
  | incomplete hFrom hGoes hLength =>
      have hShort := hFrom.length_lt hGoes
      have hQuiet := hRead _ _ _ (h _ _ hFrom.lookup) hLength hShort (.inl rfl)
      exact (h.setConnection hQuiet).congr rfl
  | @enqueued i connection out hFrom hGoes hLength =>
      have hShort := hFrom.length_lt hGoes
      have hQuiet := hRead _ _ _ (h _ _ hFrom.lookup) hLength hShort (.inl rfl)
      have hActive := hRead _ _ _ (h _ _ hFrom.lookup) hLength hShort (.inr rfl)
      have hReceived : EachConnection p (srv.afterRecv fd i connection out.2) :=
        (h.setConnection hQuiet).congr rfl
      exact (hReceived.setConnection hActive).congr rfl
  | refused hFrom => exact ((hOthers _ _).setConnection _).closeClient hFrom.mapped

/-! ## Writing -/

section Write

variable {config : ServerConfig}
  (hWrite : ∀ connection writeBuffer, p connection →
    writeBuffer.length ≤ config.maxWriteBufferBytes →
    p { connection with writeBuffer := writeBuffer })

include hWrite

/-- A message that `send_to_client` has taken leaves the limit kept; one it has not
taken may spoil its own connection. -/
theorem EachConnection.sendToClient (h : EachConnection p srv) {connection : ConnectionState}
    (hLookup : srv.connections.lookup i = some connection) (data : Bytes) (io : SendIo) :
    EachOther p i (srv.sendToClient config i connection data io).2 ∧
      ((srv.sendToClient config i connection data io).1 = true →
        EachConnection p (srv.sendToClient config i connection data io).2) := by
  have hSpoilt : ∀ connection' : ConnectionState,
      EachOther p i (srv.setConnection i connection') :=
    fun connection' => (h.other i).setConnection connection'
  have hCase := sendToClient_case config srv i connection data io
  generalize srv.sendToClient config i connection data io = result at hCase ⊢
  cases hCase with
  | invalid => exact ⟨h.other i, fun hTrue => absurd hTrue (by simp)⟩
  | overflow => exact ⟨(hSpoilt _).congr rfl, fun hTrue => absurd hTrue (by simp)⟩
  | appended hPacket hWaiting hLength =>
      have hKept := hWrite connection _ (h i connection hLookup) hLength
      exact ⟨(hSpoilt _).congr rfl, fun _ => (h.setConnection hKept).congr rfl⟩
  | sent => exact ⟨(h.other i).congr rfl, fun _ => h.congr rfl⟩
  | failed => exact ⟨(h.other i).congr rfl, fun hTrue => absurd hTrue (by simp)⟩
  | blocked => exact ⟨(hSpoilt _).congr rfl, fun hTrue => absurd hTrue (by simp)⟩
  | waits hPacket hNothing hStatus hLength =>
      have hKept := hWrite connection _ (h i connection hLookup) hLength
      exact ⟨(hSpoilt _).congr rfl, fun _ => (h.setConnection hKept).congr rfl⟩

/-- A delivery closes the connection that could not take its message. -/
theorem EachConnection.deliver (h : EachConnection p srv)
    (hClosing : ∀ connection, p connection → p { connection with closing := true })
    (response : QueuedResponse) (io : SendIo) :
    EachConnection p (srv.deliver config response io) := by
  have hCase := deliver_case config srv response io
  generalize srv.deliver config response io = delivered at hCase ⊢
  cases hCase with
  | nothing => exact h
  | failed hLookup hSend =>
      have hOthers := (h.sendToClient hWrite hLookup response.data io).1
      rw [hSend] at hOthers
      exact hOthers.closeConnection
  | sent hLookup hSend =>
      have hSent := (h.sendToClient hWrite hLookup response.data io).2
      rw [hSend] at hSent
      exact hSent rfl
  | finished hLookup hSend =>
      have hSent := (h.sendToClient hWrite hLookup response.data io).1
      rw [hSend] at hSent
      exact hSent.closeConnection
  | marked hLookup hSend hStored =>
      have hSent := (h.sendToClient hWrite hLookup response.data io).2
      rw [hSend] at hSent
      have hEach := hSent rfl
      exact hEach.setConnection (hClosing _ (hEach _ _ hStored))

end Write

/-- A flush only takes from the front of the buffer. -/
theorem EachConnection.flushWriteBuffer (h : EachConnection p srv) (fd : Nat) (io : SendIo)
    (hFlush : ∀ connection writeBuffer, p connection →
      writeBuffer.length ≤ connection.writeBuffer.length →
      p { connection with writeBuffer := writeBuffer }) :
    EachConnection p (srv.flushWriteBuffer fd io) := by
  have hRest : ∀ {i connection}, FlushFrom srv fd i connection → ∀ bytes writeBuffer,
      writeBuffer.length ≤ connection.writeBuffer.length →
      EachConnection p ((srv.afterSend fd i bytes).withRest i connection writeBuffer) := by
    intro i connection hFrom bytes writeBuffer hShorter
    have hp := hFlush connection writeBuffer (h i connection hFrom.lookup) hShorter
    exact (h.setConnection hp).congr rfl
  have hCase := flushWriteBuffer_case srv fd io
  generalize srv.flushWriteBuffer fd io = srv' at hCase ⊢
  cases hCase with
  | nothing => exact h
  | blocked hFrom => exact hRest hFrom _ _ (by simp)
  | @failed i connection bytes hFrom =>
      have hSent : EachConnection p (srv.afterSend fd i bytes) := h.congr rfl
      exact hSent.closeConnection _
  | notSwitched hFrom => exact (hRest hFrom _ [] (Nat.zero_le _)).closeConnection _
  | @closed i connection bytes hFrom =>
      have hDone : EachConnection p
          (((srv.afterSend fd i bytes).withRest i connection []).withWriteMode fd false) :=
        (hRest hFrom bytes [] (Nat.zero_le _)).congr rfl
      exact hDone.closeConnection _
  | flushed hFrom => exact (hRest hFrom _ [] (Nat.zero_le _)).congr rfl

/-- A worker touches no connection. -/
theorem EachConnection.pushResult (h : EachConnection p srv) (config : ServerConfig)
    (result : WorkerResult) : EachConnection p (srv.pushResult config result) := by
  obtain ⟨_, _, hPushed⟩ := srv.pushResult_queues config result
  rw [hPushed]
  exact h.congr rfl

/-! ## A step of the reactor -/

/-- A property of a connection that survives everything the reactor writes back. -/
structure Kept (config : ServerConfig) (p : ConnectionState → Prop) : Prop where
  fresh : ∀ i fd now generation,
    p { connectionId := i, fd := fd, lastActiveAt := now, generation := generation }
  read : ∀ connection readBuffer lastActiveAt, p connection →
    readBuffer.length ≤ config.maxReadBufferBytes →
    readBuffer.length < kPacketHeaderSize + kMaxPacketPayloadSize →
    p { connection with readBuffer := readBuffer, lastActiveAt := lastActiveAt }
  write : ∀ connection writeBuffer, p connection →
    writeBuffer.length ≤ config.maxWriteBufferBytes →
    p { connection with writeBuffer := writeBuffer }
  flush : ∀ connection writeBuffer, p connection →
    writeBuffer.length ≤ connection.writeBuffer.length →
    p { connection with writeBuffer := writeBuffer }
  closing : ∀ connection, p connection → p { connection with closing := true }

/-- A property that is kept holds of every connection after a step. -/
theorem EachConnection.step {config : ServerConfig} (hKept : Kept config p) {r r' : Reactor}
    {a : Action} (h : EachConnection p r.server) (hStep : r.step config a = some r') :
    EachConnection p r'.server := by
  cases a with
  | accept accepted =>
      rw [Reactor.step] at hStep
      split at hStep
      · contradiction
      · rw [← Option.some.inj hStep]
        exact h.acceptConnection accepted (hKept.fresh _ _ _ _)
  | close i =>
      rw [← Option.some.inj hStep]
      exact h.closeConnection i
  | closeClient fd =>
      rw [← Option.some.inj hStep]
      exact h.closeClient fd
  | read fd io =>
      rw [← Option.some.inj hStep]
      apply h.handleClientRead
      intro connection readBuffer lastActiveAt hp hLimit hFrame _
      exact hKept.read connection readBuffer lastActiveAt hp hLimit hFrame
  | flush fd io =>
      rw [← Option.some.inj hStep]
      exact h.flushWriteBuffer fd io hKept.flush
  | push result =>
      rw [← Option.some.inj hStep]
      exact h.pushResult config result
  | drainCloses =>
      rw [← Option.some.inj hStep]
      exact h.drainCloseRequests
  | swap =>
      rw [Reactor.step] at hStep
      split at hStep
      · rw [← Option.some.inj hStep]
        exact h.congr rfl
      · contradiction
  | deliver io =>
      rw [Reactor.step] at hStep
      split at hStep
      · contradiction
      · rw [← Option.some.inj hStep]
        exact h.deliver hKept.write hKept.closing _ io

end CppChat.Ports.Network
