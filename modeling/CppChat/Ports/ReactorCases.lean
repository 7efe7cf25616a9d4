import CppChat.Ports.TcpServer

/-!
# The ways through a handler

`handle_client_read`, `send_to_client`, `flush_write_buffer` and a round of
`drain_responses` end in many places, and most facts about them hold on each way for a
reason of its own.  Here the ways are listed,
each with the tests that lead to it and the state it ends in.  A proof about a handler
goes through this list instead of the nested tests.

## Main results

* `handleClientRead_case`: a read finds nobody, drops its connection, or keeps what it got.
* `sendToClient_case`: a message is refused, appended, sent, or waits for the socket.
* `flushWriteBuffer_case`: a flush has nothing to do, leaves a rest, closes, or is done.
* `deliver_case`: a response is dropped, or sent with one of four ends.
-/

namespace CppChat.Ports.Network

open CppChat.Verified
open CppChat.Ports.PacketCodec

variable {config : ServerConfig} {srv : TcpServer}

theorem findConnectionByFd_eq_some {srv : TcpServer} {fd i : Nat}
    {connection : ConnectionState} (h : srv.findConnectionByFd fd = some (i, connection)) :
    srv.connectionByFd.lookup fd = some i ∧ srv.connections.lookup i = some connection := by
  unfold TcpServer.findConnectionByFd at h
  cases hFd : srv.connectionByFd.lookup fd with
  | none =>
      rw [hFd] at h
      contradiction
  | some j =>
      rw [hFd] at h
      obtain ⟨other, hFind, hPair⟩ := Option.map_eq_some_iff.mp h
      injection hPair with hj hOther
      rw [← hj, ← hOther]
      exact ⟨rfl, hFind⟩

/-! ## Reading -/

/-- The reactor when `recv_packets_et` has returned. -/
abbrev TcpServer.afterRecv (srv : TcpServer) (fd i : Nat) (connection : ConnectionState)
    (readBuffer : Bytes) : TcpServer :=
  (srv.setConnection i { connection with readBuffer := readBuffer }).emit [.recv i fd]

/-- The reactor when `last_active_at` has been set as well. -/
abbrev TcpServer.afterPackets (srv : TcpServer) (fd i : Nat) (connection : ConnectionState)
    (readBuffer : Bytes) (now : Nat) : TcpServer :=
  (srv.afterRecv fd i connection readBuffer).setConnection i
    { connection with readBuffer := readBuffer, lastActiveAt := now }

/-- The connection ends with this read. -/
abbrev EndsConnection (result : RecvPacketResult) : Prop :=
  result.status = .closed ∨ result.status = .protocolError ∨ result.status = .ioError

/-- The read is for this connection, and `recv_packets_et` returns this. -/
structure ReadFrom (srv : TcpServer) (fd : Nat) (io : ReadIo) (i : Nat)
    (connection : ConnectionState) (out : RecvPacketResult × Bytes) : Prop where
  find : srv.findConnectionByFd fd = some (i, connection)
  reads : connection.closing = false
  recv : recvPacketsEt io.script connection.readBuffer kMaxPacketPayloadSize = out

theorem ReadFrom.lookup {fd i : Nat} {io : ReadIo} {connection : ConnectionState}
    {out : RecvPacketResult × Bytes} (h : ReadFrom srv fd io i connection out) :
    srv.connections.lookup i = some connection :=
  (findConnectionByFd_eq_some h.find).2

theorem ReadFrom.mapped {fd i : Nat} {io : ReadIo} {connection : ConnectionState}
    {out : RecvPacketResult × Bytes} (h : ReadFrom srv fd io i connection out) :
    srv.connectionByFd.lookup fd = some i :=
  (findConnectionByFd_eq_some h.find).1

/-- A read is from the connection of its descriptor. -/
theorem ReadFrom.found {fd i j : Nat} {io : ReadIo} {connection other : ConnectionState}
    {out : RecvPacketResult × Bytes} (h : ReadFrom srv fd io j other out)
    (hFind : srv.findConnectionByFd fd = some (i, connection)) :
    i = j ∧ connection = other := by
  simpa [h.find, eq_comm] using hFind

/-- A connection that goes on keeps less than a frame. -/
theorem ReadFrom.length_lt {fd i : Nat} {io : ReadIo} {connection : ConnectionState}
    {out : RecvPacketResult × Bytes} (h : ReadFrom srv fd io i connection out)
    (hGoes : ¬EndsConnection out.1) :
    out.2.length < kPacketHeaderSize + kMaxPacketPayloadSize := by
  rw [← h.recv] at hGoes ⊢
  exact recvPacketsEt_length_lt hGoes

/-- The ways a read can end. -/
inductive ReadCase (config : ServerConfig) (srv : TcpServer) (fd : Nat) (io : ReadIo) :
    TcpServer → Prop
  | unread (hNone : ∀ i connection, srv.findConnectionByFd fd = some (i, connection) →
        connection.closing = true) :
      ReadCase config srv fd io srv
  | dropped {i : Nat} {connection : ConnectionState} {out : RecvPacketResult × Bytes}
      (hRead : ReadFrom srv fd io i connection out)
      (hBad : EndsConnection out.1 ∨ out.2.length > config.maxReadBufferBytes) :
      ReadCase config srv fd io ((srv.afterRecv fd i connection out.2).closeClient fd)
  | incomplete {i : Nat} {connection : ConnectionState} {out : RecvPacketResult × Bytes}
      (hRead : ReadFrom srv fd io i connection out) (hGoes : ¬EndsConnection out.1)
      (hLength : out.2.length ≤ config.maxReadBufferBytes) (hNone : out.1.packets = []) :
      ReadCase config srv fd io (srv.afterRecv fd i connection out.2)
  | enqueued {i : Nat} {connection : ConnectionState} {out : RecvPacketResult × Bytes}
      (hRead : ReadFrom srv fd io i connection out) (hGoes : ¬EndsConnection out.1)
      (hLength : out.2.length ≤ config.maxReadBufferBytes) (hTaken : io.enqueued = true) :
      ReadCase config srv fd io
        ((srv.afterPackets fd i connection out.2 io.now).emit
          [.enqueue connection.connectionId connection.generation
            (out.1.packets.map Packet.payload)])
  | refused {i : Nat} {connection : ConnectionState} {out : RecvPacketResult × Bytes}
      (hRead : ReadFrom srv fd io i connection out) (hFull : io.enqueued = false) :
      ReadCase config srv fd io
        ((srv.afterPackets fd i connection out.2 io.now).closeClient fd)

/-- Each way through `handle_client_read`. -/
theorem handleClientRead_case (config : ServerConfig) (srv : TcpServer) (fd : Nat)
    (io : ReadIo) : ReadCase config srv fd io (srv.handleClientRead config fd io) := by
  unfold TcpServer.handleClientRead
  split
  · rename_i hNone
    refine .unread fun i connection hFind => ?_
    rw [hNone] at hFind
    contradiction
  rename_i i connection hFind
  split
  · rename_i hClosing
    refine .unread fun j other hOther => ?_
    rw [hFind] at hOther
    cases hOther
    exact hClosing
  rename_i hOpen
  have hRead : ReadFrom srv fd io i connection
      (recvPacketsEt io.script connection.readBuffer kMaxPacketPayloadSize) :=
    ⟨hFind, by simpa using hOpen, rfl⟩
  dsimp only
  generalize recvPacketsEt io.script connection.readBuffer kMaxPacketPayloadSize = out at hRead
  split
  · rename_i hBad
    exact .dropped hRead (.inl hBad)
  rename_i hGoes
  split
  · rename_i hBad
    exact .dropped hRead (.inr hBad)
  rename_i hLimit
  split
  · rename_i hNone
    exact .incomplete hRead hGoes (Nat.not_lt.mp hLimit) (List.isEmpty_iff.mp hNone)
  split
  · rename_i hTaken
    exact .enqueued hRead hGoes (Nat.not_lt.mp hLimit) hTaken
  · rename_i hFull
    exact .refused hRead (by simpa using hFull)

/-! ## Sending -/

/-- The reactor when the kernel has taken some bytes. -/
abbrev TcpServer.afterSend (srv : TcpServer) (fd i : Nat) (bytes : Bytes) : TcpServer :=
  srv.emit [.send i fd bytes]

/-- The rest of a packet waits. -/
abbrev TcpServer.withRest (srv : TcpServer) (i : Nat) (connection : ConnectionState)
    (rest : Bytes) : TcpServer :=
  srv.setConnection i { connection with writeBuffer := rest }

/-- `EPOLLOUT` has been switched. -/
abbrev TcpServer.withWriteMode (srv : TcpServer) (fd : Nat) (enable : Bool) : TcpServer :=
  { srv with epollOut := srv.epollOut.insert fd enable }

theorem setWriteMode_ok (srv : TcpServer) (fd : Nat) (enable : Bool) :
    srv.setWriteMode fd enable true = (true, srv.withWriteMode fd enable) :=
  rfl

/-- The ways a send can end, with what it returns. -/
inductive SendCase (config : ServerConfig) (srv : TcpServer) (i : Nat)
    (connection : ConnectionState) (data : Bytes) (io : SendIo) : Bool × TcpServer → Prop
  | invalid : SendCase config srv i connection data io (false, srv)
  | overflow {rest : Bytes} :
      SendCase config srv i connection data io (false, srv.withRest i connection rest)
  | appended {packet : Bytes} (hPacket : encodePacket data = .ok packet)
      (hWaiting : connection.writeBuffer ≠ [])
      (hLength : (connection.writeBuffer ++ packet).length ≤ config.maxWriteBufferBytes) :
      SendCase config srv i connection data io
        (true, (srv.withRest i connection (connection.writeBuffer ++ packet)).emit
          [.sendDone i data])
  | sent {packet : Bytes} (hPacket : encodePacket data = .ok packet)
      (hNothing : connection.writeBuffer = [])
      (hStatus : (sendAll io.script packet.length).status = .ok) :
      SendCase config srv i connection data io
        (true, (srv.afterSend connection.fd i
          (packet.take (sendAll io.script packet.length).sent)).emit [.sendDone i data])
  | failed {bytes : Bytes} :
      SendCase config srv i connection data io (false, srv.afterSend connection.fd i bytes)
  | blocked {bytes rest : Bytes} :
      SendCase config srv i connection data io
        (false, (srv.afterSend connection.fd i bytes).withRest i connection rest)
  | waits {packet : Bytes} (hPacket : encodePacket data = .ok packet)
      (hNothing : connection.writeBuffer = [])
      (hStatus : (sendAll io.script packet.length).status = .wouldBlock)
      (hLength : (packet.drop (sendAll io.script packet.length).sent).length ≤
        config.maxWriteBufferBytes) :
      SendCase config srv i connection data io
        (true, (((srv.afterSend connection.fd i
          (packet.take (sendAll io.script packet.length).sent)).withRest i connection
            (packet.drop (sendAll io.script packet.length).sent)).withWriteMode
              connection.fd true).emit [.sendDone i data])

/-- Each way through `send_to_client`. -/
theorem sendToClient_case (config : ServerConfig) (srv : TcpServer) (i : Nat)
    (connection : ConnectionState) (data : Bytes) (io : SendIo) :
    SendCase config srv i connection data io
      (srv.sendToClient config i connection data io) := by
  unfold TcpServer.sendToClient
  cases hPacket : encodePacket data with
  | error text => exact .invalid
  | ok packet =>
      dsimp only
      split
      · rename_i hWaiting
        split
        · exact .overflow
        · rename_i hLimit
          exact .appended hPacket (by simpa using hWaiting) (Nat.not_lt.mp hLimit)
      · rename_i hNothing
        have hNothing : connection.writeBuffer = [] := by simpa using hNothing
        split
        · rename_i hStatus
          exact .sent hPacket hNothing hStatus
        · exact .failed
        · rename_i hStatus
          split
          · exact .blocked
          · rename_i hLimit
            cases io.ctlOk with
            | false => exact .blocked
            | true => exact .waits hPacket hNothing hStatus (Nat.not_lt.mp hLimit)

/-! ## Flushing -/

/-- The flush is for this connection, and something waits. -/
structure FlushFrom (srv : TcpServer) (fd i : Nat) (connection : ConnectionState) : Prop where
  find : srv.findConnectionByFd fd = some (i, connection)
  waiting : connection.writeBuffer ≠ []

theorem FlushFrom.lookup {fd i : Nat} {connection : ConnectionState}
    (h : FlushFrom srv fd i connection) : srv.connections.lookup i = some connection :=
  (findConnectionByFd_eq_some h.find).2

/-- A flush is of the connection of its descriptor. -/
theorem FlushFrom.found {fd i j : Nat} {connection other : ConnectionState}
    (h : FlushFrom srv fd j other)
    (hFind : srv.findConnectionByFd fd = some (i, connection)) :
    i = j ∧ connection = other := by
  simpa [h.find, eq_comm] using hFind

/-- The ways a flush can end. -/
inductive FlushCase (srv : TcpServer) (fd : Nat) (io : SendIo) : TcpServer → Prop
  | nothing (hNone : ∀ i connection, srv.findConnectionByFd fd = some (i, connection) →
        connection.writeBuffer = []) :
      FlushCase srv fd io srv
  | blocked {i : Nat} {connection : ConnectionState}
      (hFlush : FlushFrom srv fd i connection)
      (hStatus : (sendAll io.script connection.writeBuffer.length).status = .wouldBlock) :
      FlushCase srv fd io
        ((srv.afterSend fd i (connection.writeBuffer.take
          (sendAll io.script connection.writeBuffer.length).sent)).withRest i connection
            (connection.writeBuffer.drop
              (sendAll io.script connection.writeBuffer.length).sent))
  | failed {i : Nat} {connection : ConnectionState} {bytes : Bytes}
      (hFlush : FlushFrom srv fd i connection)
      (hStatus : (sendAll io.script connection.writeBuffer.length).status ≠ .wouldBlock) :
      FlushCase srv fd io
        ((srv.afterSend fd i bytes).closeConnection connection.connectionId)
  | notSwitched {i : Nat} {connection : ConnectionState} {bytes : Bytes}
      (hFlush : FlushFrom srv fd i connection)
      (hStatus : (sendAll io.script connection.writeBuffer.length).status ≠ .wouldBlock) :
      FlushCase srv fd io
        (((srv.afterSend fd i bytes).withRest i connection []).closeConnection
          connection.connectionId)
  | closed {i : Nat} {connection : ConnectionState} {bytes : Bytes}
      (hFlush : FlushFrom srv fd i connection)
      (hStatus : (sendAll io.script connection.writeBuffer.length).status ≠ .wouldBlock) :
      FlushCase srv fd io
        ((((srv.afterSend fd i bytes).withRest i connection []).withWriteMode fd
          false).closeConnection connection.connectionId)
  | flushed {i : Nat} {connection : ConnectionState}
      (hFlush : FlushFrom srv fd i connection)
      (hStatus : (sendAll io.script connection.writeBuffer.length).status = .ok)
      (hOpen : connection.closing = false) :
      FlushCase srv fd io
        (((srv.afterSend fd i (connection.writeBuffer.take
          (sendAll io.script connection.writeBuffer.length).sent)).withRest i connection
            []).withWriteMode fd false)

/-- Each way through `flush_write_buffer`. -/
theorem flushWriteBuffer_case (srv : TcpServer) (fd : Nat) (io : SendIo) :
    FlushCase srv fd io (srv.flushWriteBuffer fd io) := by
  unfold TcpServer.flushWriteBuffer
  split
  · rename_i hNone
    refine .nothing fun i connection hFind => ?_
    rw [hNone] at hFind
    contradiction
  rename_i i connection hFind
  split
  · rename_i hEmpty
    refine .nothing fun j other hOther => ?_
    rw [hFind] at hOther
    cases hOther
    exact List.isEmpty_iff.mp hEmpty
  rename_i hWaiting
  have hFlush : FlushFrom srv fd i connection := ⟨hFind, by simpa using hWaiting⟩
  dsimp only
  split
  · rename_i hStatus
    exact .blocked hFlush hStatus
  · rename_i hStatus
    exact .failed hFlush (by rw [hStatus]; decide)
  · rename_i hStatus
    have hDone : (sendAll io.script connection.writeBuffer.length).status ≠ .wouldBlock := by
      rw [hStatus]
      decide
    cases io.ctlOk with
    | false => exact .notSwitched hFlush hDone
    | true =>
        rw [setWriteMode_ok]
        dsimp only
        split
        · exact .closed hFlush hDone
        · rename_i hOpen
          exact .flushed hFlush hStatus (by simpa using hOpen)

/-! ## Delivering -/

/-- The ways the delivery of a response can end. -/
inductive DeliverCase (config : ServerConfig) (srv : TcpServer) (response : QueuedResponse)
    (io : SendIo) : TcpServer → Prop
  | nothing : DeliverCase config srv response io srv
  | failed {connection : ConnectionState} {srv' : TcpServer}
      (hLookup : srv.connections.lookup response.connectionId = some connection)
      (hSend : srv.sendToClient config response.connectionId connection response.data io =
        (false, srv')) :
      DeliverCase config srv response io (srv'.closeConnection response.connectionId)
  | sent {connection : ConnectionState} {srv' : TcpServer}
      (hLookup : srv.connections.lookup response.connectionId = some connection)
      (hSend : srv.sendToClient config response.connectionId connection response.data io =
        (true, srv')) :
      DeliverCase config srv response io srv'
  | finished {connection : ConnectionState} {srv' : TcpServer}
      (hLookup : srv.connections.lookup response.connectionId = some connection)
      (hSend : srv.sendToClient config response.connectionId connection response.data io =
        (true, srv')) :
      DeliverCase config srv response io (srv'.closeConnection response.connectionId)
  | marked {connection connection' : ConnectionState} {srv' : TcpServer}
      (hLookup : srv.connections.lookup response.connectionId = some connection)
      (hSend : srv.sendToClient config response.connectionId connection response.data io =
        (true, srv'))
      (hStored : srv'.connections.lookup response.connectionId = some connection')
      (hWaiting : connection'.writeBuffer ≠ []) :
      DeliverCase config srv response io
        (srv'.setConnection response.connectionId { connection' with closing := true })

/-- Each way through the loop of `drain_responses`. -/
theorem deliver_case (config : ServerConfig) (srv : TcpServer) (response : QueuedResponse)
    (io : SendIo) :
    DeliverCase config srv response io (srv.deliver config response io) := by
  unfold TcpServer.deliver
  split
  · exact .nothing
  rename_i connection hLookup
  split
  · exact .nothing
  split
  · rename_i srv' hSend
    exact .failed hLookup hSend
  rename_i srv' hSend
  split
  · split
    · exact .sent hLookup hSend
    rename_i connection' hStored
    split
    · exact .finished hLookup hSend
    · rename_i hWaiting
      exact .marked hLookup hSend hStored (by simpa using hWaiting)
  · exact .sent hLookup hSend

end CppChat.Ports.Network
