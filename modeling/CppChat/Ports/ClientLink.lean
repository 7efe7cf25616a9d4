import CppChat.Ports.EachConnection
import CppChat.Ports.ReactorQueues

/-!
# A client at the other end of a connection

The test scripts of the repository speak the packet format from the other side:
`send_packet` writes a header and a payload, and `recv_packet` reads a header and then
as many bytes as it announces.  Here such a client is joined to the reactor by one
connection.  The network between them cuts both streams where it likes; the reactor
meanwhile serves everybody else.

The kernel keeps what the client has written until the server reads it, and what it has
accepted from the server until the client reads that.  Reading JSON out of a payload is
not part of the client here.

## Main results

* `step_behind`: also when a send fails or its connection is closed, the kernel has got no
  complete packet that was not reported as done.
* `Heard.recv`: a client reads the messages that were reported as done.
-/

namespace CppChat.Ports.Network

open CppChat.Verified
open CppChat.Verified.Transition
open CppChat.Verified.Framing
open CppChat.Ports.PacketCodec

/-! ## The client -/

/-- The call of `recv_exact` that `recv_packet` is in. -/
inductive Awaited where
  | header
  | payload (size : Nat)
deriving DecidableEq, Repr

/-- How a `recv` of the client fails. -/
inductive RecvFailure where
  | timeout
  | error
  | closed
deriving DecidableEq, Repr

/-- Why a client has given up. -/
inductive Failure where
  | recv (failure : RecvFailure)
  | emptyPayload
  | send
deriving DecidableEq, Repr

/-- A client, with the payloads it has given to `send_packet` and those `recv_packet` has
read. -/
structure Client where
  awaited : Awaited := .header
  chunks : Bytes := []
  sent : List Bytes := []
  packets : List Bytes := []
  failure : Option Failure := none
deriving DecidableEq, Repr

namespace Client

/-- How many bytes `recv_exact` has been asked for. -/
def wanted (client : Client) : Nat :=
  match client.awaited with
  | .header => 4
  | .payload size => size

/-- `recv_exact` gets a chunk.  When it has all it wants, `recv_packet` goes on to the
payload, or is done with it. -/
def receive (client : Client) (chunk : Bytes) : Client :=
  let chunks := client.chunks ++ chunk
  if chunks.length < client.wanted then { client with chunks := chunks }
  else
    match client.awaited with
    | .header =>
        if readBE32 chunks = 0 then { client with failure := some .emptyPayload }
        else { client with awaited := .payload (readBE32 chunks), chunks := [] }
    | .payload _ =>
        { client with awaited := .header, chunks := [], packets := client.packets ++ [chunks] }

/-- What has been read of a packet that is not complete. -/
def unfinished (client : Client) : Bytes :=
  match client.awaited with
  | .header => client.chunks
  | .payload size => be32 size ++ client.chunks

end Client

/-- What `send_packet` writes. -/
def clientFrame (payload : Bytes) : Bytes := be32 payload.length ++ payload

/-! ## The connection between them -/

/-- The reactor and a client.  `upstream` has been written by the client and not been read
by the server; `taken` counts the bytes the client has received. -/
structure Link where
  reactor : Reactor
  client : Client := {}
  upstream : Bytes := []
  taken : Nat := 0

/-- A step of the server, or one of the client at the other end. -/
inductive LinkAction where
  | server (action : Action)
  /-- `send_packet`, which the kernel cuts short when it fails. -/
  | sendPacket (payload : Bytes) (written : Nat)
  /-- A `recv` of the client that returns so many bytes. -/
  | recv (count : Nat)
  | fail (failure : RecvFailure)

/-- The connection whose socket `handle_client_read` receives from. -/
def TcpServer.readsFrom (srv : TcpServer) (fd : Nat) : Option Nat :=
  match srv.findConnectionByFd fd with
  | none => none
  | some (i, connection) => if connection.closing then none else some i

/-- The bytes a call of `recv_packets_et` takes from its socket. -/
def ReadIo.taken (io : ReadIo) : Bytes := (readLoop io.script []).2

/-- A step of the server, or of the client at the other end of connection `i`.  The server
reads from this connection what the client has written. -/
def Link.step (config : ServerConfig) (i : Nat) (link : Link) : LinkAction → Option Link
  | .server action =>
      (link.reactor.step config action).bind fun reactor =>
        match action with
        | .read fd io =>
            if link.reactor.server.readsFrom fd = some i then
              if io.taken.isPrefixOf link.upstream then
                some { link with
                  reactor := reactor
                  upstream := link.upstream.drop io.taken.length }
              else none
            else some { link with reactor := reactor }
        | _ => some { link with reactor := reactor }
  | .sendPacket payload written =>
      if link.client.failure.isSome then none
      else if payload.length < 2 ^ 32 then
        let client := { link.client with sent := link.client.sent ++ [payload] }
        if written < (clientFrame payload).length then
          some { link with
            client := { client with failure := some .send }
            upstream := link.upstream ++ (clientFrame payload).take written }
        else some { link with
          client := client
          upstream := link.upstream ++ clientFrame payload }
      else some { link with client := { link.client with failure := some .send } }
  | .recv count =>
      let waiting := (sentBytes link.reactor.server.log i).drop link.taken
      if link.client.failure.isNone ∧ 0 < count ∧
          count ≤ link.client.wanted - link.client.chunks.length ∧ count ≤ waiting.length then
        some { link with
          client := link.client.receive (waiting.take count)
          taken := link.taken + count }
      else none
  | .fail failure =>
      if link.client.failure.isSome then none
      else some { link with client := { link.client with failure := some (.recv failure) } }

/-! ## What the kernel has got for a connection -/

/-- The messages reported as done, and of at most one more message a part of its packet. -/
abbrev SendsBehind (srv : TcpServer) (i : Nat) : Prop :=
  Behind packetFormat (sentBytes srv.log i) (doneMessages srv.log i)

/-- Effects that are no sends. -/
def Effect.isSilent : Effect → Bool
  | .send _ _ _ | .sendDone _ _ => false
  | _ => true

theorem streams_of_silent {effects : List Effect} (h : ∀ effect ∈ effects, effect.isSilent)
    (i : Nat) : sentBytes effects i = [] ∧ doneMessages effects i = [] := by
  constructor
  · apply List.flatMap_eq_nil_iff.mpr
    intro effect hMem
    cases effect with
    | send j fd bytes => exact absurd (h _ hMem) (by simp [Effect.isSilent])
    | _ => rfl
  · apply List.filterMap_eq_nil_iff.mpr
    intro effect hMem
    cases effect with
    | sendDone j data => exact absurd (h _ hMem) (by simp [Effect.isSilent])
    | _ => rfl

variable {srv srv' : TcpServer} {i : Nat} {connection : ConnectionState}

theorem SendsBehind.of_silent (h : SendsBehind srv i)
    (hSilent : Emits (fun effect => effect.isSilent) srv srv') : SendsBehind srv' i := by
  obtain ⟨effects, hLog, hAll⟩ := hSilent
  obtain ⟨hSent, hDone⟩ := log_append_of_quiet srv.log (streams_of_silent hAll i)
  unfold SendsBehind
  rw [hLog, hSent, hDone]
  exact h

/-- What is done for another connection does not matter. -/
theorem SendsBehind.of_other (h : SendsBehind srv i) {j : Nat} (hj : j ≠ i)
    (hOwner : Emits (fun effect => effect.owner = some j) srv srv') : SendsBehind srv' i := by
  obtain ⟨effects, hLog, hAll⟩ := hOwner
  have hNone := @log_of_owner_ne effects i (by
    intro effect hMem hEq
    rw [hAll effect hMem] at hEq
    exact hj (Option.some.inj hEq))
  obtain ⟨hSent, hDone⟩ := log_append_of_quiet srv.log hNone
  unfold SendsBehind
  rw [hLog, hSent, hDone]
  exact h

/-- The packets of messages are their frames. -/
theorem splits_of_encodeAll {messages : List Bytes} {stream : Bytes}
    (h : encodeAll messages = .ok stream) : Splits packetFormat stream messages [] := by
  have hValid : ∀ message ∈ messages, validLength message.length = true := by
    intro message hMem
    rw [validLength_iff, ← encodePacket_isOk_iff]
    cases hPacket : encodePacket message with
    | ok packet => exact ⟨packet, rfl⟩
    | error text =>
        obtain ⟨before, after, rfl⟩ := List.append_of_mem hMem
        rw [encodeAll, List.mapM_append, List.mapM_cons, hPacket] at h
        cases hBefore : before.mapM encodePacket with
        | ok packets =>
            rw [hBefore] at h
            contradiction
        | error other =>
            rw [hBefore] at h
            contradiction
  rw [encodeAll, mapM_encodePacket hValid] at h
  injection h with hStream
  exact { valid := hValid, joined := by rw [List.append_nil, hStream] }

/-- The stream of an open connection, with what waits for it. -/
theorem Written.splits (h : Written srv i connection) :
    Splits packetFormat (sentBytes srv.log i ++ connection.writeBuffer)
      (doneMessages srv.log i) [] :=
  splits_of_encodeAll h.stream

/-- The frame of one byte. -/
theorem validLength_one : packetFormat.valid ([0] : Bytes).length = true := by decide

theorem Written.behind (h : Written srv i connection) : SendsBehind srv i :=
  h.splits.behind validLength_one

/-- A part of what waits has been sent. -/
theorem Written.behind_take (h : Written srv i connection) (n : Nat) :
    Behind packetFormat (sentBytes srv.log i ++ connection.writeBuffer.take n)
      (doneMessages srv.log i) := by
  have hSplits := h.splits
  rw [← List.take_append_drop n connection.writeBuffer, ← List.append_assoc] at hSplits
  exact hSplits.behind validLength_one

/-- A part of a packet has been sent, and nothing was waiting. -/
theorem Written.behind_packet (h : Written srv i connection)
    (hNothing : connection.writeBuffer = []) {data packet : Bytes}
    (hPacket : encodePacket data = .ok packet) {n : Nat} (hn : n < packet.length) :
    Behind packetFormat (sentBytes srv.log i ++ packet.take n) (doneMessages srv.log i) := by
  have hSplits := splits_of_encodeAll (encodeAll_concat h.stream hPacket)
  rw [hNothing, List.append_nil, ← List.take_append_drop n packet, ← List.append_assoc]
    at hSplits
  refine ⟨data, packet.drop n, ?_, hSplits⟩
  intro hNil
  rw [List.drop_eq_nil_iff] at hNil
  omega

/-! ## Sends that fail -/

theorem emits_silent_close (srv : TcpServer) (i : Nat) :
    Emits (fun effect => effect.isSilent) srv (srv.closeConnection i) :=
  emits_closeConnection srv rfl fun _ => rfl

/-- Something has been sent, and what follows is silent. -/
theorem behind_of_sent {bytes : Bytes} {fd : Nat}
    (h : Behind packetFormat (sentBytes srv.log i ++ bytes) (doneMessages srv.log i))
    (hSilent : Emits (fun effect => effect.isSilent) (srv.afterSend fd i bytes) srv') :
    SendsBehind srv' i := by
  obtain ⟨hSent, hDone⟩ := log_send srv.log i fd bytes
  refine SendsBehind.of_silent ?_ hSilent
  show Behind packetFormat (sentBytes (srv.log ++ [.send i fd bytes]) i)
    (doneMessages (srv.log ++ [.send i fd bytes]) i)
  rw [hSent, hDone]
  exact h

/-- A flush sends the front of what waits, or nothing. -/
theorem flushWriteBuffer_sends (srv : TcpServer) (fd : Nat) (io : SendIo) :
    srv.flushWriteBuffer fd io = srv ∨
      ∃ i connection n, srv.findConnectionByFd fd = some (i, connection) ∧
        Emits (fun effect => effect.isSilent)
          (srv.afterSend fd i (connection.writeBuffer.take n)) (srv.flushWriteBuffer fd io) := by
  cases hFind : srv.findConnectionByFd fd with
  | none => exact .inl (by rw [TcpServer.flushWriteBuffer, hFind])
  | some found =>
      obtain ⟨i, connection⟩ := found
      by_cases hEmpty : connection.writeBuffer = []
      · refine .inl (flushWriteBuffer_of_empty ?_ io)
        intro j other hOther
        rw [found_eq hFind hOther]
        exact hEmpty
      refine .inr ⟨i, connection, (sendAll io.script connection.writeBuffer.length).sent, rfl, ?_⟩
      rw [TcpServer.flushWriteBuffer, hFind]
      dsimp only
      rw [if_neg (by simpa using hEmpty)]
      split
      · exact .of_log_eq rfl
      · exact emits_silent_close _ _
      · cases io.ctlOk with
        | false =>
            rw [TcpServer.setWriteMode, if_neg Bool.false_ne_true]
            exact Emits.trans (.of_log_eq rfl) (emits_silent_close _ _)
        | true =>
            rw [setWriteMode_ok]
            dsimp only
            split
            · exact Emits.trans (.of_log_eq rfl) (emits_silent_close _ _)
            · exact .of_log_eq rfl

/-- A send that is not reported as done has sent nothing, or a part of a packet that
nothing was waiting in front of. -/
theorem sendToClient_fails {config : ServerConfig} {data : Bytes} {io : SendIo}
    (hSend : srv.sendToClient config i connection data io = (false, srv')) :
    srv'.log = srv.log ∨ connection.writeBuffer = [] ∧
      ∃ packet n, encodePacket data = .ok packet ∧ n < packet.length ∧
        srv'.log = srv.log ++ [.send i connection.fd (packet.take n)] := by
  unfold TcpServer.sendToClient at hSend
  cases hPacket : encodePacket data with
  | error text =>
      rw [hPacket] at hSend
      rw [← (Prod.mk.inj hSend).2]
      exact .inl rfl
  | ok packet =>
      rw [hPacket] at hSend
      dsimp only at hSend
      split at hSend
      · split at hSend
        · rw [← (Prod.mk.inj hSend).2]
          exact .inl rfl
        · exact absurd (Prod.mk.inj hSend).1 (by simp)
      · rename_i hNothing
        have hNothing : connection.writeBuffer = [] := by simpa using hNothing
        have hPart : ∀ status, (sendAll io.script packet.length).status = status →
            status ≠ .ok → (sendAll io.script packet.length).sent < packet.length := by
          intro status hStatus hNot
          rcases sendAll_spec io.script packet.length with hOk | hLess
          · exact absurd (hStatus.symm.trans hOk.1) hNot
          · exact hLess.2
        split at hSend
        · exact absurd (Prod.mk.inj hSend).1 (by simp)
        · rename_i hStatus
          rw [← (Prod.mk.inj hSend).2]
          exact .inr ⟨hNothing, packet, _, rfl, hPart _ hStatus (by decide), rfl⟩
        · rename_i hStatus
          split at hSend
          · rw [← (Prod.mk.inj hSend).2]
            exact .inr ⟨hNothing, packet, _, rfl, hPart _ hStatus (by decide), rfl⟩
          · cases hCtl : io.ctlOk with
            | false =>
                rw [hCtl] at hSend
                rw [← (Prod.mk.inj hSend).2]
                exact .inr ⟨hNothing, packet, _, rfl, hPart _ hStatus (by decide), rfl⟩
            | true =>
                rw [hCtl, setWriteMode_ok] at hSend
                exact absurd (Prod.mk.inj hSend).1 (by simp)

/-! ## Every step of the reactor -/

theorem emits_silent_handleClientRead (config : ServerConfig) (srv : TcpServer) (fd : Nat)
    (io : ReadIo) : Emits (fun effect => effect.isSilent) srv
      (srv.handleClientRead config fd io) := by
  have hRecv : ∀ i connection, Emits (fun effect => effect.isSilent) srv
      ((srv.setConnection i connection).emit [.recv i fd]) :=
    fun i connection => emits_emit (srv.setConnection i connection) rfl
  have hClose : ∀ received : TcpServer, Emits (fun effect => effect.isSilent) received
      (received.closeClient fd) :=
    fun received => emits_closeClient received fd (fun _ => rfl) fun _ _ => rfl
  have hCase := handleClientRead_case config srv fd io
  generalize srv.handleClientRead config fd io = srv' at hCase ⊢
  cases hCase with
  | unread => exact .of_log_eq rfl
  | dropped => exact (hRecv _ _).trans (hClose _)
  | incomplete => exact hRecv _ _
  | @enqueued i connection out =>
      have hActive : Emits (fun effect => effect.isSilent) srv
          (srv.afterPackets fd i connection out.2 io.now) :=
        (hRecv i _).trans (.of_log_eq rfl)
      exact hActive.trans (emits_emit _ rfl)
  | refused => exact ((hRecv _ _).trans (.of_log_eq rfl)).trans (hClose _)

theorem emits_silent_drainCloseRequests (srv : TcpServer) :
    Emits (fun effect => effect.isSilent) srv srv.drainCloseRequests := by
  have hStep : ∀ (after : TcpServer) (request : QueuedClose), True →
      Emits (fun effect => effect.isSilent) srv after →
        Emits (fun effect => effect.isSilent) srv (after.closeIfCurrent request) := by
    intro after request _ hEmits
    unfold TcpServer.closeIfCurrent
    split
    · exact hEmits.trans (emits_silent_close _ _)
    · exact hEmits
  exact foldl_invariant hStep srv.closeQueue { srv with closeQueue := [] } (fun _ _ => trivial)
    (.of_log_eq rfl)

/-- A delivery sends a part of one packet at most before it closes the connection. -/
theorem deliver_behind {config : ServerConfig} (hWrite : WriteInv srv)
    (h : ∀ i, SendsBehind srv i) (response : QueuedResponse) (io : SendIo) (i : Nat) :
    SendsBehind (srv.deliver config response io) i := by
  have hCase := deliver_case config srv response io
  generalize hDelivered : srv.deliver config response io = delivered at hCase ⊢
  by_cases hi : response.connectionId = i
  · have hDone : ∀ {connection srv'},
        srv.connections.lookup response.connectionId = some connection →
        srv.sendToClient config response.connectionId connection response.data io =
          (true, srv') → SendsBehind srv' i := by
      intro connection srv' hLookup hSend
      obtain ⟨_, _, hWritten⟩ :=
        sendToClient_written hLookup (hWrite.written _ _ hLookup) hSend
      rw [← hi]
      exact hWritten.behind
    cases hCase with
    | nothing => exact h i
    | @failed connection srv' hLookup hSend =>
        refine SendsBehind.of_silent ?_ (emits_silent_close srv' _)
        rcases sendToClient_fails hSend with hLog | ⟨hNothing, packet, n, hPacket, hn, hLog⟩
        · exact (h i).of_silent (.of_log_eq hLog)
        · have hPart := (hWrite.written _ _ hLookup).behind_packet hNothing hPacket hn
          rw [← hi]
          exact behind_of_sent hPart (.of_log_eq hLog)
    | sent hLookup hSend => exact hDone hLookup hSend
    | finished hLookup hSend =>
        exact (hDone hLookup hSend).of_silent (emits_silent_close _ _)
    | marked hLookup hSend => exact (hDone hLookup hSend).of_silent (.of_log_eq rfl)
  · cases hLookup : srv.connections.lookup response.connectionId with
    | none =>
        have hFind : srv.findConnection response.connectionId = none := hLookup
        rw [TcpServer.deliver, hFind] at hDelivered
        rw [← hDelivered]
        exact h i
    | some connection =>
        have hOnly := onlyFor_deliver config io hLookup
        rw [hDelivered] at hOnly
        exact (h i).of_other hi hOnly.effects

/-- Also when a send fails or its connection is closed, the kernel has got no complete
packet that was not reported as done. -/
theorem step_behind {config : ServerConfig} {r r' : Reactor} {a : Action}
    (hWrite : WriteInv r.server) (h : ∀ i, SendsBehind r.server i)
    (hStep : r.step config a = some r') (i : Nat) : SendsBehind r'.server i := by
  cases a with
  | accept accepted =>
      rw [Reactor.step] at hStep
      split at hStep
      · contradiction
      · rw [← Option.some.inj hStep]
        refine (h i).of_silent ?_
        show Emits _ r.server (r.server.acceptConnection accepted)
        unfold TcpServer.acceptConnection
        dsimp only
        split
        · exact ⟨[.accept _ _ accepted.fd], rfl, by simp [Effect.isSilent]⟩
        · exact ⟨[.close none accepted.fd], rfl, by simp [Effect.isSilent]⟩
  | close j =>
      rw [← Option.some.inj hStep]
      exact (h i).of_silent (emits_silent_close _ j)
  | closeClient fd =>
      rw [← Option.some.inj hStep]
      exact (h i).of_silent (emits_closeClient _ fd (fun _ => rfl) fun _ _ => rfl)
  | read fd io =>
      rw [← Option.some.inj hStep]
      exact (h i).of_silent (emits_silent_handleClientRead config _ fd io)
  | flush fd io =>
      rw [← Option.some.inj hStep]
      show SendsBehind (r.server.flushWriteBuffer fd io) i
      rcases flushWriteBuffer_sends r.server fd io with hSame | ⟨j, connection, n, hFind, hRest⟩
      · rw [hSame]
        exact h i
      · by_cases hj : j = i
        · have hLookup := (findConnectionByFd_eq_some hFind).2
          rw [hj] at hLookup hRest
          exact behind_of_sent ((hWrite.written i connection hLookup).behind_take n) hRest
        · exact ((h i).of_other hj (emits_emit _ rfl)).of_silent hRest
  | push result =>
      rw [← Option.some.inj hStep]
      obtain ⟨_, _, hPushed⟩ := r.server.pushResult_queues config result
      refine (h i).of_silent (.of_log_eq ?_)
      show (r.server.pushResult config result).log = _
      rw [hPushed]
  | drainCloses =>
      rw [← Option.some.inj hStep]
      exact (h i).of_silent (emits_silent_drainCloseRequests _)
  | swap =>
      rw [Reactor.step] at hStep
      split at hStep
      · rw [← Option.some.inj hStep]
        exact (h i).of_silent (.of_log_eq rfl)
      · contradiction
  | deliver io =>
      rw [Reactor.step] at hStep
      split at hStep
      · contradiction
      · rw [← Option.some.inj hStep]
        exact deliver_behind hWrite h _ io i

/-! ## The way to the client -/

/-- `recv_exact` has not got all it wants, and what it wants is a header or a payload. -/
def Client.Waits (client : Client) : Prop :=
  match client.awaited with
  | .header => client.chunks.length < kPacketHeaderSize
  | .payload size => validLength size = true ∧ client.chunks.length < size

/-- A chunk of the length asked for at most, and a header the server may send: the client
accounts for everything it has read. -/
theorem Client.receive_splits {client : Client} {seen chunk : Bytes} (hWaits : client.Waits)
    (h : Splits packetFormat seen client.packets client.unfinished)
    (hChunk : client.chunks.length + chunk.length ≤ client.wanted)
    (hHeader : kPacketHeaderSize ≤ (client.unfinished ++ chunk).length →
      validLength (readBE32 (client.unfinished ++ chunk)) = true) :
    (client.receive chunk).Waits ∧ (client.receive chunk).failure = client.failure ∧
      Splits packetFormat (seen ++ chunk) (client.receive chunk).packets
        (client.receive chunk).unfinished := by
  have hGrow := h.grow chunk
  obtain ⟨awaited, chunks, sent, packets, failure⟩ := client
  cases awaited with
  | header =>
      have hWaits : chunks.length < kPacketHeaderSize := hWaits
      have hChunk : chunks.length + chunk.length ≤ kPacketHeaderSize := hChunk
      have hGrow : Splits packetFormat (seen ++ chunk) packets (chunks ++ chunk) := hGrow
      generalize hNext : Client.receive _ chunk = next
      rw [Client.receive] at hNext
      dsimp only at hNext
      split at hNext
      · rename_i hShort
        rw [← hNext]
        exact ⟨hShort, rfl, hGrow⟩
      · rename_i hLong
        have hLength : kPacketHeaderSize ≤ (chunks ++ chunk).length := Nat.not_lt.mp hLong
        have hValid : validLength (readBE32 (chunks ++ chunk)) = true := hHeader hLength
        have hPos := ((validLength_iff _).mp hValid).1
        rw [if_neg (by omega)] at hNext
        rw [← hNext]
        refine ⟨⟨hValid, hPos⟩, rfl, ?_⟩
        have hSame : be32 (readBE32 (chunks ++ chunk)) ++ [] = chunks ++ chunk := by
          rw [List.append_nil, be32_readBE32 hLength, List.take_of_length_le]
          rw [List.length_append]
          exact hChunk
        show Splits packetFormat (seen ++ chunk) packets (be32 _ ++ [])
        rw [hSame]
        exact hGrow
  | payload size =>
      obtain ⟨hValid, hWaits⟩ : validLength size = true ∧ chunks.length < size := hWaits
      have hChunk : chunks.length + chunk.length ≤ size := hChunk
      have hGrow : Splits packetFormat (seen ++ chunk) packets (be32 size ++ chunks ++ chunk) :=
        hGrow
      rw [List.append_assoc] at hGrow
      generalize hNext : Client.receive _ chunk = next
      rw [Client.receive] at hNext
      dsimp only at hNext
      split at hNext
      · rename_i hShort
        rw [← hNext]
        exact ⟨⟨hValid, hShort⟩, rfl, hGrow⟩
      · rename_i hLong
        have hLong : size ≤ (chunks ++ chunk).length := Nat.not_lt.mp hLong
        have hLength : (chunks ++ chunk).length = size := by
          rw [List.length_append] at hLong ⊢
          omega
        rw [← hNext]
        refine ⟨show ([] : Bytes).length < kPacketHeaderSize by decide, rfl, ?_⟩
        have hFrame : be32 size ++ (chunks ++ chunk) = packetFormat.frame (chunks ++ chunk) := by
          rw [← hLength]
          rfl
        rw [hFrame] at hGrow
        exact hGrow.finish (by rw [hLength]; exact hValid)

theorem Client.Waits.length_le {client : Client} (h : client.Waits) :
    client.chunks.length ≤ client.wanted := by
  obtain ⟨awaited, chunks, sent, packets, failure⟩ := client
  cases awaited with
  | header => exact Nat.le_of_lt h
  | payload size => exact Nat.le_of_lt h.2

/-- A client that waits has no complete packet in hand. -/
theorem Client.Waits.not_holdsFrame {client : Client} (h : client.Waits) :
    ¬HoldsFrame packetFormat client.unfinished := by
  obtain ⟨awaited, chunks, sent, packets, failure⟩ := client
  rintro ⟨hWidth, -, hFits⟩
  cases awaited with
  | header => exact absurd hWidth (Nat.not_le.mpr h)
  | payload size =>
      obtain ⟨hValid, hShort⟩ : validLength size = true ∧ chunks.length < size := h
      have hGet : packetFormat.get (be32 size ++ chunks) = size :=
        packetFormat.get_put size chunks hValid
      have hFits : kPacketHeaderSize + packetFormat.get (be32 size ++ chunks) ≤
        (be32 size ++ chunks).length := hFits
      rw [hGet, List.length_append, be32_length] at hFits
      have : kPacketHeaderSize = 4 := rfl
      omega

/-- The client accounts for all bytes it has taken, and has had no reason to give up on
what it read. -/
structure Heard (link : Link) (i : Nat) : Prop where
  taken : link.taken ≤ (sentBytes link.reactor.server.log i).length
  waits : link.client.Waits
  read : Splits packetFormat ((sentBytes link.reactor.server.log i).take link.taken)
    link.client.packets link.client.unfinished
  sane : link.client.failure ≠ some .emptyPayload

/-- The log only grows. -/
theorem Changes.log_extends (h : Changes srv srv') : srv.log <+: srv'.log := by
  induction h with
  | refl => exact List.prefix_refl _
  | tail _ hChange ih =>
      refine ih.trans ?_
      cases hChange with
      | neutral effects _ _ _ _ _ hLog => exact ⟨effects, hLog.symm⟩
      | touch => exact List.prefix_refl _
      | send => exact List.prefix_append _ _
      | close j =>
          obtain ⟨effects, hLog, -⟩ := emits_silent_close _ j
          exact ⟨effects, hLog.symm⟩
      | accept accepted =>
          unfold TcpServer.acceptConnection
          dsimp only
          split <;> exact List.prefix_append _ _

/-- What the server does meanwhile does not change what the client has taken. -/
theorem Heard.of_log_extends {link link' : Link} (h : Heard link i)
    (hLog : link.reactor.server.log <+: link'.reactor.server.log)
    (hTaken : link'.taken = link.taken) (hAwaited : link'.client.awaited = link.client.awaited)
    (hChunks : link'.client.chunks = link.client.chunks)
    (hPackets : link'.client.packets = link.client.packets)
    (hSane : link'.client.failure ≠ some .emptyPayload) : Heard link' i := by
  obtain ⟨effects, hLog⟩ := hLog
  have hSent : sentBytes link'.reactor.server.log i =
      sentBytes link.reactor.server.log i ++ sentBytes effects i := by
    rw [← hLog, sentBytes_append]
  have hUnfinished : link'.client.unfinished = link.client.unfinished := by
    rw [Client.unfinished, Client.unfinished, hAwaited, hChunks]
  refine ⟨?_, ?_, ?_, hSane⟩
  · rw [hSent, hTaken, List.length_append]
    exact Nat.le_add_right_of_le h.taken
  · unfold Client.Waits
    rw [hAwaited, hChunks]
    exact h.waits
  · rw [hSent, hTaken, hPackets, hUnfinished, List.take_append_of_le_length h.taken]
    exact h.read

/-- The client reads on. -/
theorem Heard.recv {link : Link} {count : Nat} (h : Heard link i)
    (hBehind : SendsBehind link.reactor.server i)
    (hWanted : count ≤ link.client.wanted - link.client.chunks.length)
    (hWaiting : count ≤ ((sentBytes link.reactor.server.log i).drop link.taken).length) :
    Heard { link with
      client := link.client.receive
        (((sentBytes link.reactor.server.log i).drop link.taken).take count)
      taken := link.taken + count } i := by
  have hTake := List.take_add (l := sentBytes link.reactor.server.log i) (i := link.taken)
    (j := count)
  generalize hChunk : ((sentBytes link.reactor.server.log i).drop link.taken).take count = chunk
    at hTake ⊢
  have hLength : chunk.length = count := by
    rw [← hChunk, List.length_take]
    omega
  have hFits : link.client.chunks.length + chunk.length ≤ link.client.wanted := by
    have hRoom := h.waits.length_le
    omega
  have hSplit : sentBytes link.reactor.server.log i =
      (sentBytes link.reactor.server.log i).take (link.taken + count) ++
        (sentBytes link.reactor.server.log i).drop (link.taken + count) :=
    (List.take_append_drop _ _).symm
  have hSeen := h.read.grow chunk
  rw [← hTake] at hSeen
  obtain ⟨hWaits, hFailure, hRead⟩ := Client.receive_splits h.waits h.read hFits
    fun hWidth => hBehind.valid_header hSplit hSeen hWidth
  refine ⟨?_, hWaits, ?_, ?_⟩
  · rw [List.length_drop] at hWaiting
    have hTaken := h.taken
    show link.taken + count ≤ (sentBytes link.reactor.server.log i).length
    omega
  · show Splits packetFormat ((sentBytes link.reactor.server.log i).take (link.taken + count)) _ _
    rw [hTake]
    exact hRead
  · show (link.client.receive chunk).failure ≠ _
    rw [hFailure]
    exact h.sane

end CppChat.Ports.Network
