import CppChat.Ports.ConnectionFrame

/-!
# The write path

Three places write to a connection: `send_to_client` sends a packet directly,
appends it to a buffer that is still waiting, or stores what the kernel did not
take; `flush_write_buffer` sends what waits.  They share the write buffer, the
epoll interest and the closing flag.

`Written` says what holds of an open connection between two steps: the bytes
the kernel took, followed by the buffer, are the packets of the messages whose
send was reported as done; `EPOLLOUT` is armed exactly while something waits;
and a connection marked for closing has something to wait for.

## Main results

* `sendToClient_written`, `flushWriteBuffer_written`: the two functions keep `Written`.
* `step_writeInv`: every step of the reactor keeps it for every open connection.
* `writePath_stream`: it holds in every reachable state, and a flush closes a connection
  marked for closing unless the kernel takes too little.
-/

namespace CppChat.Ports.Network

open CppChat.Verified
open CppChat.Verified.Transition
open CppChat.Ports.PacketCodec

/-! ## Reading the log -/

/-- The bytes the kernel has accepted for a connection. -/
def sentBytes (log : List Effect) (i : Nat) : Bytes :=
  log.flatMap fun effect => match effect with
    | .send j _ bytes => if j = i then bytes else []
    | _ => []

/-- The messages for which `send_to_client` returned `true`. -/
def doneMessages (log : List Effect) (i : Nat) : List Bytes :=
  log.filterMap fun effect => match effect with
    | .sendDone j data => if j = i then some data else none
    | _ => none

/-- The packets of some messages, one after the other. -/
def encodeAll (messages : List Bytes) : Except Bytes Bytes :=
  (messages.mapM encodePacket).map List.flatten

theorem sentBytes_append (log effects : List Effect) (i : Nat) :
    sentBytes (log ++ effects) i = sentBytes log i ++ sentBytes effects i :=
  List.flatMap_append

theorem doneMessages_append (log effects : List Effect) (i : Nat) :
    doneMessages (log ++ effects) i = doneMessages log i ++ doneMessages effects i :=
  List.filterMap_append

/-- Effects on others leave no trace. -/
theorem log_of_owner_ne {effects : List Effect} {i : Nat}
    (h : ∀ effect ∈ effects, effect.owner ≠ some i) :
    sentBytes effects i = [] ∧ doneMessages effects i = [] := by
  induction effects with
  | nil => exact ⟨rfl, rfl⟩
  | cons effect rest ih =>
      obtain ⟨hFirst, hRest⟩ := List.forall_mem_cons.mp h
      obtain ⟨hSent, hDone⟩ := ih hRest
      have hHead : sentBytes [effect] i = [] ∧ doneMessages [effect] i = [] := by
        cases effect with
        | send j fd bytes =>
            have hj : j ≠ i := fun hEq => hFirst (congrArg some hEq)
            simp [sentBytes, doneMessages, hj]
        | sendDone j data =>
            have hj : j ≠ i := fun hEq => hFirst (congrArg some hEq)
            simp [sentBytes, doneMessages, hj]
        | _ => simp [sentBytes, doneMessages]
      have hSplit : effect :: rest = [effect] ++ rest := rfl
      rw [hSplit, sentBytes_append, doneMessages_append, hHead.1, hHead.2, hSent, hDone]
      exact ⟨rfl, rfl⟩

theorem encodeAll_concat {messages : List Bytes} {data stream packet : Bytes}
    (h : encodeAll messages = .ok stream) (hData : encodePacket data = .ok packet) :
    encodeAll (messages ++ [data]) = .ok (stream ++ packet) := by
  unfold encodeAll at h ⊢
  rw [List.mapM_append, List.mapM_cons, List.mapM_nil]
  cases hPackets : messages.mapM encodePacket with
  | error text =>
      rw [hPackets] at h
      contradiction
  | ok packets =>
      rw [hPackets] at h
      injection h with hStream
      rw [hData, ← hStream]
      show Except.ok (List.flatten (packets ++ [packet])) = _
      rw [List.flatten_append, List.flatten_singleton]

/-! ## The invariant -/

/-- The write side of an open connection. -/
structure Written (srv : TcpServer) (i : Nat) (connection : ConnectionState) : Prop where
  stream : encodeAll (doneMessages srv.log i) =
    .ok (sentBytes srv.log i ++ connection.writeBuffer)
  armed : connection.writeBuffer ≠ [] ↔ srv.epollOut.lookup connection.fd = some true
  closing : connection.closing → connection.writeBuffer ≠ []

/-- Every open connection is written correctly, and nothing has been written for
ids that are still to be given out. -/
structure WriteInv (srv : TcpServer) : Prop where
  written : ∀ i connection, srv.connections.lookup i = some connection →
    Written srv i connection
  unused : ∀ i, srv.nextConnectionId ≤ i →
    sentBytes srv.log i = [] ∧ doneMessages srv.log i = []

/-- The write side depends on the log, on epoll and on three fields. -/
theorem Written.of_same {srv srv' : TcpServer} {i : Nat}
    {connection connection' : ConnectionState} (h : Written srv i connection)
    (hSent : sentBytes srv'.log i = sentBytes srv.log i)
    (hDone : doneMessages srv'.log i = doneMessages srv.log i)
    (hArmed : srv'.epollOut.lookup connection.fd = srv.epollOut.lookup connection.fd)
    (hFd : connection'.fd = connection.fd)
    (hBuffer : connection'.writeBuffer = connection.writeBuffer)
    (hClosing : connection'.closing = connection.closing) : Written srv' i connection' where
  stream := by
    rw [hSent, hDone, hBuffer]
    exact h.stream
  armed := by
    rw [hBuffer, hFd, hArmed]
    exact h.armed
  closing := by
    rw [hBuffer, hClosing]
    exact h.closing

/-- What concerns one connection has to be checked for that connection. -/
theorem WriteInv.of_onlyFor {srv srv' : TcpServer} {i : Nat} {connection : ConnectionState}
    (h : WriteInv srv) (hInv : Inverse srv)
    (hLookup : srv.connections.lookup i = some connection)
    (hOnly : OnlyFor i connection.fd srv srv')
    (hSelf : ∀ connection', srv'.connections.lookup i = some connection' →
      Written srv' i connection') : WriteInv srv' := by
  obtain ⟨effects, hLog, hOwners⟩ := hOnly.effects
  have hOthers : ∀ j, j ≠ i → sentBytes srv'.log j = sentBytes srv.log j ∧
      doneMessages srv'.log j = doneMessages srv.log j := by
    intro j hj
    have hNone := @log_of_owner_ne effects j (by
      intro effect hMem hOwner
      rw [hOwners effect hMem] at hOwner
      exact hj (Option.some.inj hOwner).symm)
    rw [hLog, sentBytes_append, doneMessages_append, hNone.1, hNone.2, List.append_nil,
      List.append_nil]
    exact ⟨rfl, rfl⟩
  constructor
  · intro j other hOther
    by_cases hj : j = i
    · rw [hj] at hOther ⊢
      exact hSelf other hOther
    · rw [hOnly.others j hj] at hOther
      -- Another open connection is on another socket.
      have hFd : other.fd ≠ connection.fd := fun hEq => hj (hInv.fd_unique hOther hLookup hEq)
      obtain ⟨hSent, hDone⟩ := hOthers j hj
      exact (h.written j other hOther).of_same hSent hDone (hOnly.armed _ hFd) rfl rfl rfl
  · intro j hj
    rw [hOnly.counter] at hj
    have hBelow := (hInv.below i connection hLookup).1
    obtain ⟨hSent, hDone⟩ := hOthers j (by omega)
    rw [hSent, hDone]
    exact h.unused j hj

/-- Changes of the queues do not matter. -/
theorem WriteInv.congr {srv srv' : TcpServer} (h : WriteInv srv)
    (hConnections : srv'.connections = srv.connections)
    (hEpoll : srv'.epollOut = srv.epollOut) (hLog : srv'.log = srv.log)
    (hId : srv'.nextConnectionId = srv.nextConnectionId) : WriteInv srv' where
  written := by
    intro i connection hLookup
    rw [hConnections] at hLookup
    exact (h.written i connection hLookup).of_same (by rw [hLog]) (by rw [hLog])
      (by rw [hEpoll]) rfl rfl rfl
  unused := by
    rw [hId, hLog]
    exact h.unused

/-! ## Accepting and closing -/

/-- No connection is on a socket that is not mapped. -/
theorem Inverse.fd_ne {srv : TcpServer} (h : Inverse srv) {fd i : Nat}
    {connection : ConnectionState} (hFree : srv.connectionByFd.lookup fd = none)
    (hLookup : srv.connections.lookup i = some connection) : connection.fd ≠ fd := by
  intro hEq
  have hMapped : srv.connectionByFd.lookup fd = some i :=
    (h.fd_iff fd i).mpr ⟨connection, hLookup, hEq, h.id_eq i connection hLookup⟩
  rw [hFree] at hMapped
  contradiction

/-- Effects of which none sends leave the streams as they are. -/
theorem log_append_of_quiet (log : List Effect) {effects : List Effect} {i : Nat}
    (h : sentBytes effects i = [] ∧ doneMessages effects i = []) :
    sentBytes (log ++ effects) i = sentBytes log i ∧
      doneMessages (log ++ effects) i = doneMessages log i := by
  rw [sentBytes_append, doneMessages_append, h.1, h.2, List.append_nil, List.append_nil]
  exact ⟨rfl, rfl⟩

/-- A new connection has nothing to write, and `EPOLLOUT` is not armed for it. -/
theorem WriteInv.accept {srv : TcpServer} (h : WriteInv srv) (hInv : Inverse srv)
    {accepted : Accepted} (hFree : srv.connectionByFd.lookup accepted.fd = none) :
    WriteInv (srv.acceptConnection accepted) := by
  unfold TcpServer.acceptConnection
  cases hCtl : accepted.ctlOk with
  | false =>
      rw [if_neg nofun]
      have hLog := fun i => @log_append_of_quiet srv.log [.close none accepted.fd] i ⟨rfl, rfl⟩
      constructor
      · intro i connection hLookup
        exact (h.written i connection hLookup).of_same (hLog i).1 (hLog i).2 rfl rfl rfl rfl
      · intro i hi
        obtain ⟨hSent, hDone⟩ := h.unused i (Nat.le_of_succ_le hi)
        exact ⟨(hLog i).1.trans hSent, (hLog i).2.trans hDone⟩
  | true =>
      rw [if_pos rfl]
      have hLog := fun i => @log_append_of_quiet srv.log
        [.accept srv.nextConnectionId srv.nextGeneration accepted.fd] i ⟨rfl, rfl⟩
      constructor
      · intro i connection hLookup
        have hInsert : (srv.connections.insert srv.nextConnectionId _).lookup i =
          some connection := hLookup
        rw [UnorderedMap.lookup_insert] at hInsert
        split at hInsert
        · rename_i hNew
          rw [← Option.some.inj hInsert]
          obtain ⟨hSent, hDone⟩ := h.unused i (Nat.le_of_eq hNew.symm)
          refine ⟨?_, ?_, nofun⟩
          · rw [(hLog i).1, (hLog i).2, hSent, hDone]
            rfl
          · show ([] : Bytes) ≠ [] ↔
              (srv.epollOut.insert accepted.fd false).lookup accepted.fd = some true
            rw [UnorderedMap.lookup_insert, if_pos rfl]
            simp
        · have hFd := hInv.fd_ne hFree hInsert
          have hArmed : (srv.epollOut.insert accepted.fd false).lookup connection.fd =
              srv.epollOut.lookup connection.fd := by
            rw [UnorderedMap.lookup_insert, if_neg hFd]
          exact (h.written i connection hInsert).of_same (hLog i).1 (hLog i).2 hArmed rfl rfl
            rfl
      · intro i hi
        obtain ⟨hSent, hDone⟩ := h.unused i (Nat.le_of_succ_le hi)
        exact ⟨(hLog i).1.trans hSent, (hLog i).2.trans hDone⟩

theorem closeConnection_lookup_self (srv : TcpServer) (i : Nat) :
    (srv.closeConnection i).connections.lookup i = none := by
  cases hLookup : srv.connections.lookup i with
  | none => rw [closeConnection_of_none hLookup, hLookup]
  | some connection =>
      rw [closeConnection_of_some hLookup]
      show (srv.connections.erase i).lookup i = none
      rw [UnorderedMap.lookup_erase, if_pos rfl]

/-- Nothing is left to check of a connection that has been closed. -/
theorem written_of_closed (srv : TcpServer) (i : Nat) :
    ∀ connection, (srv.closeConnection i).connections.lookup i = some connection →
      Written (srv.closeConnection i) i connection := by
  intro connection hLookup
  rw [closeConnection_lookup_self] at hLookup
  contradiction

theorem WriteInv.closeConnection {srv : TcpServer} (h : WriteInv srv) (hInv : Inverse srv)
    (i : Nat) : WriteInv (srv.closeConnection i) := by
  cases hLookup : srv.connections.lookup i with
  | none =>
      rw [closeConnection_of_none hLookup]
      exact h
  | some connection =>
      have hStay : OnlyFor i connection.fd srv srv := .refl (socket_of_lookup hLookup)
      exact h.of_onlyFor hInv hLookup hStay.closeConnection (written_of_closed srv i)

theorem WriteInv.closeClient {srv : TcpServer} (h : WriteInv srv) (hInv : Inverse srv)
    (fd : Nat) : WriteInv (srv.closeClient fd) := by
  unfold TcpServer.closeClient
  cases hMapped : srv.connectionByFd.lookup fd with
  | some i => exact h.closeConnection hInv i
  | none =>
      have hLog := fun i => @log_append_of_quiet srv.log [.close none fd] i ⟨rfl, rfl⟩
      constructor
      · intro i connection hLookup
        have hFd := hInv.fd_ne hMapped hLookup
        have hArmed : (srv.epollOut.erase fd).lookup connection.fd =
            srv.epollOut.lookup connection.fd := by
          rw [UnorderedMap.lookup_erase, if_neg hFd]
        exact (h.written i connection hLookup).of_same (hLog i).1 (hLog i).2 hArmed rfl rfl rfl
      · intro i hi
        obtain ⟨hSent, hDone⟩ := h.unused i hi
        exact ⟨(hLog i).1.trans hSent, (hLog i).2.trans hDone⟩

/-! ## Reading -/

/-- A read does not touch the write side of its connection. -/
theorem handleClientRead_written {config : ServerConfig} {srv : TcpServer} {fd i : Nat}
    {connection : ConnectionState} (hFind : srv.findConnectionByFd fd = some (i, connection))
    (h : Written srv i connection) (io : ReadIo) :
    ∀ connection', (srv.handleClientRead config fd io).connections.lookup i =
      some connection' → Written (srv.handleClientRead config fd io) i connection' := by
  obtain ⟨hMapped, hLookup⟩ := findConnectionByFd_eq_some hFind
  have hClose : ∀ srv' : TcpServer, srv'.connectionByFd.lookup fd = some i →
      ∀ connection', (srv'.closeClient fd).connections.lookup i = some connection' →
        Written (srv'.closeClient fd) i connection' := by
    intro srv' hMapped'
    rw [TcpServer.closeClient, hMapped']
    exact written_of_closed srv' i
  have hCase := handleClientRead_case config srv fd io
  generalize srv.handleClientRead config fd io = srv' at hCase ⊢
  cases hCase with
  | unread =>
      intro connection' hLookup'
      rw [hLookup] at hLookup'
      rw [← Option.some.inj hLookup']
      exact h
  | dropped hRead =>
      obtain ⟨rfl, rfl⟩ := hRead.found hFind
      exact hClose _ hMapped
  | @incomplete _ _ out hRead =>
      obtain ⟨rfl, rfl⟩ := hRead.found hFind
      intro connection' hLookup'
      have hStored : (srv.setConnection i { connection with
        readBuffer := out.2 }).connections.lookup i = some connection' := hLookup'
      rw [setConnection_lookup, if_pos rfl] at hStored
      rw [← Option.some.inj hStored]
      have hLog := @log_append_of_quiet srv.log [.recv i fd] i ⟨rfl, rfl⟩
      exact h.of_same hLog.1 hLog.2 rfl rfl rfl rfl
  | @enqueued _ _ out hRead =>
      obtain ⟨rfl, rfl⟩ := hRead.found hFind
      intro connection' hLookup'
      have hStored : (srv.afterPackets fd i connection out.2 io.now).connections.lookup i =
        some connection' := hLookup'
      rw [setConnection_lookup, if_pos rfl] at hStored
      rw [← Option.some.inj hStored]
      have hRecv := @log_append_of_quiet srv.log [.recv i fd] i ⟨rfl, rfl⟩
      have hEnqueue := @log_append_of_quiet (srv.log ++ [.recv i fd])
        [.enqueue connection.connectionId connection.generation
          (out.1.packets.map Packet.payload)] i ⟨rfl, rfl⟩
      exact h.of_same (hEnqueue.1.trans hRecv.1) (hEnqueue.2.trans hRecv.2) rfl rfl rfl rfl
  | refused hRead =>
      obtain ⟨rfl, rfl⟩ := hRead.found hFind
      exact hClose _ hMapped

theorem WriteInv.handleClientRead {srv : TcpServer} (h : WriteInv srv) (hInv : Inverse srv)
    (config : ServerConfig) (fd : Nat) (io : ReadIo) :
    WriteInv (srv.handleClientRead config fd io) := by
  cases hFind : srv.findConnectionByFd fd with
  | none =>
      rw [TcpServer.handleClientRead, hFind]
      exact h
  | some found =>
      obtain ⟨i, connection⟩ := found
      obtain ⟨hMapped, hLookup⟩ := findConnectionByFd_eq_some hFind
      have hFd := hInv.findConnectionByFd_fd hFind
      subst hFd
      exact h.of_onlyFor hInv hLookup (onlyFor_handleClientRead hInv hMapped io)
        (handleClientRead_written hFind (h.written i connection hLookup) io)

/-! ## Sending -/

/-- What the kernel leaves of a send that would block is not empty. -/
theorem drop_sendAll_ne_nil {script : List SendOutcome} {bytes : Bytes}
    (h : (sendAll script bytes.length).status ≠ .ok) :
    bytes.drop (sendAll script bytes.length).sent ≠ [] := by
  intro hNil
  rw [List.drop_eq_nil_iff] at hNil
  rcases sendAll_spec script bytes.length with hOk | hLess
  · exact h hOk.1
  · omega

/-- A send that finishes has sent everything. -/
theorem take_sendAll {script : List SendOutcome} {bytes : Bytes}
    (h : (sendAll script bytes.length).status = .ok) :
    bytes.take (sendAll script bytes.length).sent = bytes := by
  rcases sendAll_spec script bytes.length with hOk | hLess
  · rw [hOk.2, List.take_length]
  · exact absurd h hLess.1

theorem log_send (log : List Effect) (i fd : Nat) (bytes : Bytes) :
    sentBytes (log ++ [.send i fd bytes]) i = sentBytes log i ++ bytes ∧
      doneMessages (log ++ [.send i fd bytes]) i = doneMessages log i := by
  rw [sentBytes_append, doneMessages_append]
  simp [sentBytes, doneMessages]

theorem log_sendDone (log : List Effect) (i : Nat) (data : Bytes) :
    sentBytes (log ++ [.sendDone i data]) i = sentBytes log i ∧
      doneMessages (log ++ [.sendDone i data]) i = doneMessages log i ++ [data] := by
  rw [sentBytes_append, doneMessages_append]
  simp [sentBytes, doneMessages]

/-- The three ways in which a send is reported as done: the packet waits behind
what was waiting, or it has been sent, or a rest of it waits. -/
theorem sendToClient_cases {config : ServerConfig} {srv srv' : TcpServer} {i : Nat}
    {connection : ConnectionState} {data : Bytes} {io : SendIo}
    (hSend : srv.sendToClient config i connection data io = (true, srv')) :
    ∃ packet, encodePacket data = .ok packet ∧
      ((connection.writeBuffer ≠ [] ∧
          srv' = (srv.setConnection i { connection with
            writeBuffer := connection.writeBuffer ++ packet }).emit [.sendDone i data]) ∨
        (connection.writeBuffer = [] ∧
          srv' = (srv.emit [.send i connection.fd packet]).emit [.sendDone i data]) ∨
        (connection.writeBuffer = [] ∧ ∃ n, packet.drop n ≠ [] ∧
          srv' = TcpServer.emit
            { (srv.emit [.send i connection.fd (packet.take n)]).setConnection i
                { connection with writeBuffer := packet.drop n } with
              epollOut := srv.epollOut.insert connection.fd true } [.sendDone i data])) := by
  have hCase := sendToClient_case config srv i connection data io
  rw [hSend] at hCase
  cases hCase with
  | appended hPacket hWaiting => exact ⟨_, hPacket, .inl ⟨hWaiting, rfl⟩⟩
  | sent hPacket hNothing hStatus =>
      rw [take_sendAll hStatus]
      exact ⟨_, hPacket, .inr (.inl ⟨hNothing, rfl⟩)⟩
  | waits hPacket hNothing hStatus =>
      have hRest := drop_sendAll_ne_nil (by rw [hStatus]; nofun)
      exact ⟨_, hPacket, .inr (.inr ⟨hNothing, _, hRest, rfl⟩)⟩

/-- A send that is reported as done keeps the write side correct. -/
theorem sendToClient_written {config : ServerConfig} {srv srv' : TcpServer} {i : Nat}
    {connection : ConnectionState} {data : Bytes} {io : SendIo}
    (hLookup : srv.connections.lookup i = some connection) (h : Written srv i connection)
    (hSend : srv.sendToClient config i connection data io = (true, srv')) :
    ∃ connection', srv'.connections.lookup i = some connection' ∧
      Written srv' i connection' := by
  obtain ⟨packet, hPacket, hCases⟩ := sendToClient_cases hSend
  have hFramed := encodeAll_concat h.stream hPacket
  rcases hCases with ⟨hWaiting, hEq⟩ | ⟨hEmpty, hEq⟩ | ⟨hEmpty, n, hRest, hEq⟩
  · obtain ⟨hSent, hDone⟩ := log_sendDone srv.log i data
    rw [hEq]
    refine ⟨{ connection with writeBuffer := connection.writeBuffer ++ packet }, ?_, ?_, ?_,
      fun _ => List.append_ne_nil_of_left_ne_nil hWaiting packet⟩
    · show (srv.setConnection i _).connections.lookup i = _
      rw [setConnection_lookup, if_pos rfl]
    · show encodeAll (doneMessages (srv.log ++ [.sendDone i data]) i) =
        .ok (sentBytes (srv.log ++ [.sendDone i data]) i ++ (connection.writeBuffer ++ packet))
      rw [hSent, hDone, ← List.append_assoc]
      exact hFramed
    · show connection.writeBuffer ++ packet ≠ [] ↔
        srv.epollOut.lookup connection.fd = some true
      rw [← h.armed]
      simp [hWaiting]
  · obtain ⟨hSent, hDone⟩ := log_send srv.log i connection.fd packet
    obtain ⟨hSent', hDone'⟩ := log_sendDone (srv.log ++ [.send i connection.fd packet]) i data
    rw [hEmpty, List.append_nil] at hFramed
    rw [hEq]
    refine ⟨connection, hLookup, ?_, h.armed, h.closing⟩
    show encodeAll (doneMessages
        (srv.log ++ [.send i connection.fd packet] ++ [.sendDone i data]) i) =
      .ok (sentBytes (srv.log ++ [.send i connection.fd packet] ++ [.sendDone i data]) i ++
        connection.writeBuffer)
    rw [hSent', hDone', hSent, hDone, hEmpty, List.append_nil]
    exact hFramed
  · obtain ⟨hSent, hDone⟩ := log_send srv.log i connection.fd (packet.take n)
    obtain ⟨hSent', hDone'⟩ :=
      log_sendDone (srv.log ++ [.send i connection.fd (packet.take n)]) i data
    rw [hEmpty, List.append_nil] at hFramed
    rw [hEq]
    refine ⟨{ connection with writeBuffer := packet.drop n }, ?_, ?_, ?_, fun _ => hRest⟩
    · show ((srv.emit _).setConnection i _).connections.lookup i = _
      rw [setConnection_lookup, if_pos rfl]
    · show encodeAll (doneMessages
          (srv.log ++ [.send i connection.fd (packet.take n)] ++ [.sendDone i data]) i) =
        .ok (sentBytes
          (srv.log ++ [.send i connection.fd (packet.take n)] ++ [.sendDone i data]) i ++
            packet.drop n)
      rw [hSent', hDone', hSent, hDone, List.append_assoc, List.take_append_drop]
      exact hFramed
    · show packet.drop n ≠ [] ↔
        (srv.epollOut.insert connection.fd true).lookup connection.fd = some true
      rw [UnorderedMap.lookup_insert, if_pos rfl]
      simp [hRest]

theorem deliver_written {srv : TcpServer} {response : QueuedResponse}
    {connection : ConnectionState} (config : ServerConfig) (io : SendIo)
    (hLookup : srv.connections.lookup response.connectionId = some connection)
    (h : Written srv response.connectionId connection) :
    ∀ connection', (srv.deliver config response io).connections.lookup
      response.connectionId = some connection' →
      Written (srv.deliver config response io) response.connectionId connection' := by
  have hFind : srv.findConnection response.connectionId = some connection := hLookup
  have hSame : ∀ (srv' : TcpServer) (stored : ConnectionState),
      srv'.connections.lookup response.connectionId = some stored →
      Written srv' response.connectionId stored →
      ∀ connection', srv'.connections.lookup response.connectionId = some connection' →
        Written srv' response.connectionId connection' := by
    intro srv' stored hStored hWritten connection' hLookup'
    rw [hStored] at hLookup'
    rw [← Option.some.inj hLookup']
    exact hWritten
  rw [TcpServer.deliver, hFind]
  dsimp only
  split
  · exact hSame srv connection hLookup h
  · split
    · exact written_of_closed _ _
    · rename_i srv' hSend
      obtain ⟨stored, hStored, hWritten⟩ := sendToClient_written hLookup h hSend
      have hFind' : srv'.findConnection response.connectionId = some stored := hStored
      split
      · rw [hFind']
        dsimp only
        split
        · exact written_of_closed _ _
        · -- Only a connection with something to wait for is marked for closing.
          rename_i hWaiting
          have hNonempty : stored.writeBuffer ≠ [] := by simpa using hWaiting
          apply hSame _ { stored with closing := true }
          · rw [setConnection_lookup, if_pos rfl]
          · exact ⟨hWritten.stream, hWritten.armed, fun _ => hNonempty⟩
      · exact hSame srv' stored hStored hWritten

theorem WriteInv.deliver {srv : TcpServer} (h : WriteInv srv) (hInv : Inverse srv)
    (config : ServerConfig) (response : QueuedResponse) (io : SendIo) :
    WriteInv (srv.deliver config response io) := by
  cases hLookup : srv.connections.lookup response.connectionId with
  | none =>
      have hFind : srv.findConnection response.connectionId = none := hLookup
      rw [TcpServer.deliver, hFind]
      exact h
  | some connection =>
      exact h.of_onlyFor hInv hLookup (onlyFor_deliver config io hLookup)
        (deliver_written config io hLookup (h.written _ _ hLookup))

/-! ## Flushing -/

/-- The three ends of a flush: a rest waits on, or the connection is closed, or
everything has been sent on a connection that is not marked for closing. -/
theorem flushWriteBuffer_cases {srv : TcpServer} {fd i : Nat} {connection : ConnectionState}
    (hInv : Inverse srv) (hFind : srv.findConnectionByFd fd = some (i, connection))
    (hWaiting : connection.writeBuffer ≠ []) (io : SendIo) :
    ((sendAll io.script connection.writeBuffer.length).status = .wouldBlock ∧
        ∃ n, connection.writeBuffer.drop n ≠ [] ∧
          srv.flushWriteBuffer fd io =
            (srv.emit [.send i fd (connection.writeBuffer.take n)]).setConnection i
              { connection with writeBuffer := connection.writeBuffer.drop n }) ∨
      ((sendAll io.script connection.writeBuffer.length).status ≠ .wouldBlock ∧
        (srv.flushWriteBuffer fd io).connections.lookup i = none) ∨
      (connection.closing = false ∧
        srv.flushWriteBuffer fd io =
          { (srv.emit [.send i fd connection.writeBuffer]).setConnection i
              { connection with writeBuffer := [] } with
            epollOut := srv.epollOut.insert fd false }) := by
  have hId := hInv.id_eq i connection (findConnectionByFd_eq_some hFind).2
  have hCase := flushWriteBuffer_case srv fd io
  generalize srv.flushWriteBuffer fd io = srv' at hCase ⊢
  cases hCase with
  | nothing hNone => exact absurd (hNone i connection hFind) hWaiting
  | blocked hFlush hStatus =>
      obtain ⟨rfl, rfl⟩ := hFlush.found hFind
      exact .inl ⟨hStatus, _, drop_sendAll_ne_nil (by rw [hStatus]; decide), rfl⟩
  | failed hFlush hStatus | notSwitched hFlush hStatus | closed hFlush hStatus =>
      obtain ⟨rfl, rfl⟩ := hFlush.found hFind
      rw [hId]
      exact .inr (.inl ⟨hStatus, closeConnection_lookup_self _ i⟩)
  | flushed hFlush hStatus hOpen =>
      obtain ⟨rfl, rfl⟩ := hFlush.found hFind
      rw [take_sendAll hStatus]
      exact .inr (.inr ⟨hOpen, rfl⟩)

theorem flushWriteBuffer_written {srv : TcpServer} {fd i : Nat}
    {connection : ConnectionState} (hInv : Inverse srv)
    (hFind : srv.findConnectionByFd fd = some (i, connection))
    (hWaiting : connection.writeBuffer ≠ []) (h : Written srv i connection) (io : SendIo) :
    ∀ connection', (srv.flushWriteBuffer fd io).connections.lookup i = some connection' →
      Written (srv.flushWriteBuffer fd io) i connection' := by
  have hFd := hInv.findConnectionByFd_fd hFind
  intro connection' hLookup'
  rcases flushWriteBuffer_cases hInv hFind hWaiting io with
    ⟨_, n, hRest, hEq⟩ | ⟨_, hClosed⟩ | ⟨hOpen, hEq⟩
  · rw [hEq, setConnection_lookup, if_pos rfl] at hLookup'
    rw [hEq, ← Option.some.inj hLookup']
    obtain ⟨hSent, hDone⟩ := log_send srv.log i fd (connection.writeBuffer.take n)
    refine ⟨?_, ?_, fun _ => hRest⟩
    · show encodeAll (doneMessages (srv.log ++ [.send i fd _]) i) =
        .ok (sentBytes (srv.log ++ [.send i fd _]) i ++ connection.writeBuffer.drop n)
      rw [hSent, hDone, List.append_assoc, List.take_append_drop]
      exact h.stream
    · show connection.writeBuffer.drop n ≠ [] ↔
        srv.epollOut.lookup connection.fd = some true
      rw [← h.armed]
      simp only [ne_eq, hRest, hWaiting]
  · rw [hClosed] at hLookup'
    contradiction
  · rw [hEq] at hLookup' ⊢
    have hStored : ((srv.emit [.send i fd connection.writeBuffer]).setConnection i
        { connection with writeBuffer := [] }).connections.lookup i = some connection' :=
      hLookup'
    rw [setConnection_lookup, if_pos rfl] at hStored
    rw [← Option.some.inj hStored]
    obtain ⟨hSent, hDone⟩ := log_send srv.log i fd connection.writeBuffer
    refine ⟨?_, ?_, ?_⟩
    · show encodeAll (doneMessages (srv.log ++ [.send i fd connection.writeBuffer]) i) =
        .ok (sentBytes (srv.log ++ [.send i fd connection.writeBuffer]) i ++ [])
      rw [hSent, hDone, List.append_nil]
      exact h.stream
    · show ([] : Bytes) ≠ [] ↔
        (srv.epollOut.insert fd false).lookup connection.fd = some true
      rw [hFd, UnorderedMap.lookup_insert, if_pos rfl]
      simp
    · intro hClosing
      have hMarked : connection.closing = true := hClosing
      rw [hOpen] at hMarked
      contradiction

theorem WriteInv.flushWriteBuffer {srv : TcpServer} (h : WriteInv srv) (hInv : Inverse srv)
    (fd : Nat) (io : SendIo) : WriteInv (srv.flushWriteBuffer fd io) := by
  cases hFind : srv.findConnectionByFd fd with
  | none =>
      rw [TcpServer.flushWriteBuffer, hFind]
      exact h
  | some found =>
      obtain ⟨i, connection⟩ := found
      obtain ⟨hMapped, hLookup⟩ := findConnectionByFd_eq_some hFind
      by_cases hEmpty : connection.writeBuffer = []
      · rw [flushWriteBuffer_of_empty]
        · exact h
        · intro j other hOther
          rw [found_eq hFind hOther]
          exact hEmpty
      · have hFd := hInv.findConnectionByFd_fd hFind
        subst hFd
        have hOnly : OnlyFor i connection.fd srv (srv.flushWriteBuffer connection.fd io) := by
          apply onlyFor_flushWriteBuffer hInv (socket_of_lookup hLookup)
          intro j hj
          rw [hMapped] at hj
          exact (Option.some.inj hj).symm
        exact h.of_onlyFor hInv hLookup hOnly
          (flushWriteBuffer_written hInv hFind hEmpty (h.written i connection hLookup) io)

/-! ## All runs -/

theorem WriteInv.drainCloseRequests {srv : TcpServer} (h : WriteInv srv)
    (hInv : ReactorInv srv) : WriteInv srv.drainCloseRequests := by
  have hLoop : ∀ (requests : List QueuedClose) (srv : TcpServer), ReactorInv srv →
      WriteInv srv → WriteInv (requests.foldl TcpServer.closeIfCurrent srv) := by
    intro requests
    induction requests with
    | nil => exact fun srv _ hWrite => hWrite
    | cons request rest ih =>
        intro srv hReactor hWrite
        rw [List.foldl_cons, TcpServer.closeIfCurrent]
        split
        · exact ih _ (Change.close_inv _ hReactor)
            (hWrite.closeConnection hReactor.toInverse _)
        · exact ih _ hReactor hWrite
  have hSwap : Change srv { srv with closeQueue := [] } :=
    .neutral [] (by simp) rfl rfl rfl rfl (List.append_nil _).symm
  exact hLoop _ _ (hSwap.inv hInv) (h.congr rfl rfl rfl rfl)

/-- Every step of the reactor keeps the write side of every connection correct. -/
theorem step_writeInv {config : ServerConfig} (r : Reactor) (a : Action) (r' : Reactor)
    (h : ReactorInv r.server ∧ WriteInv r.server) (hStep : r.step config a = some r') :
    ReactorInv r'.server ∧ WriteInv r'.server := by
  obtain ⟨hInv, hWrite⟩ := h
  refine ⟨step_reactorInv r a r' hInv hStep, ?_⟩
  cases a with
  | accept accepted =>
      rw [Reactor.step] at hStep
      split at hStep
      · contradiction
      · rename_i hFree
        injection hStep with hEq
        rw [← hEq]
        rw [Bool.not_eq_true, Option.isSome_eq_false_iff, Option.isNone_iff_eq_none] at hFree
        exact hWrite.accept hInv.toInverse hFree
  | close i =>
      injection hStep with hEq
      rw [← hEq]
      exact hWrite.closeConnection hInv.toInverse i
  | closeClient fd =>
      injection hStep with hEq
      rw [← hEq]
      exact hWrite.closeClient hInv.toInverse fd
  | read fd io =>
      injection hStep with hEq
      rw [← hEq]
      exact hWrite.handleClientRead hInv.toInverse config fd io
  | flush fd io =>
      injection hStep with hEq
      rw [← hEq]
      exact hWrite.flushWriteBuffer hInv.toInverse fd io
  | push result =>
      injection hStep with hEq
      rw [← hEq]
      show WriteInv (r.server.pushResult config result)
      obtain ⟨_, _, hPushed⟩ := r.server.pushResult_queues config result
      rw [hPushed]
      exact hWrite.congr rfl rfl rfl rfl
  | drainCloses =>
      injection hStep with hEq
      rw [← hEq]
      exact hWrite.drainCloseRequests hInv
  | swap =>
      rw [Reactor.step] at hStep
      split at hStep
      · injection hStep with hEq
        rw [← hEq]
        exact hWrite.congr rfl rfl rfl rfl
      · contradiction
  | deliver io =>
      rw [Reactor.step] at hStep
      split at hStep
      · contradiction
      · injection hStep with hEq
        rw [← hEq]
        exact hWrite.deliver hInv.toInverse config _ io

theorem writeInv_init (listenFd wakeFd : Nat) :
    WriteInv { listenFd := listenFd, wakeFd := wakeFd } where
  written := by simp
  unused := fun _ _ => ⟨rfl, rfl⟩

/-- In every state the reactor can reach, for every open connection: the bytes
the kernel has accepted, followed by the write buffer, are the packets of the
messages whose send was reported as done, in order; `EPOLLOUT` is armed exactly
while the buffer is not empty; and a connection marked for closing has a
buffer that is not empty, so that the next flush the kernel does not block closes it, and
one it blocks leaves it marked. -/
theorem writePath_stream (config : ServerConfig) (listenFd wakeFd : Nat)
    (acts : List Action) (r : Reactor)
    (hRun : run (Reactor.step config) { server := { listenFd := listenFd, wakeFd := wakeFd } }
      acts = some r)
    (i : Nat) (connection : ConnectionState)
    (hOpen : r.server.connections.lookup i = some connection) :
    encodeAll (doneMessages r.server.log i) =
      .ok (sentBytes r.server.log i ++ connection.writeBuffer) ∧
    (connection.writeBuffer ≠ [] ↔ r.server.epollOut.lookup connection.fd = some true) ∧
    (connection.closing → connection.writeBuffer ≠ []) ∧
    (connection.closing → ∀ io,
      if (sendAll io.script connection.writeBuffer.length).status = .wouldBlock then
        ∃ connection', (r.server.flushWriteBuffer connection.fd io).connections.lookup i =
          some connection' ∧ connection'.closing ∧ connection'.writeBuffer ≠ []
      else (r.server.flushWriteBuffer connection.fd io).connections.lookup i = none) := by
  obtain ⟨hInv, hWrite⟩ := run_invariant step_writeInv
    ⟨reactorInv_init listenFd wakeFd, writeInv_init listenFd wakeFd⟩ hRun
  have hWritten := hWrite.written i connection hOpen
  refine ⟨hWritten.stream, hWritten.armed, hWritten.closing, ?_⟩
  intro hClosing io
  have hMapped : r.server.connectionByFd.lookup connection.fd = some i :=
    (hInv.fd_iff _ _).mpr ⟨connection, hOpen, rfl, hInv.id_eq i connection hOpen⟩
  obtain ⟨stored, hFind⟩ := hInv.toInverse.findConnectionByFd hMapped
  have hSame : stored = connection := by
    have hStored := (findConnectionByFd_eq_some hFind).2
    rw [hOpen] at hStored
    exact (Option.some.inj hStored).symm
  rw [hSame] at hFind
  rcases flushWriteBuffer_cases hInv.toInverse hFind (hWritten.closing hClosing) io with
    ⟨hBlocked, n, hRest, hEq⟩ | ⟨hDone, hClosed⟩ | ⟨hNot, _⟩
  · rw [if_pos hBlocked, hEq]
    refine ⟨{ connection with writeBuffer := connection.writeBuffer.drop n }, ?_, hClosing,
      hRest⟩
    rw [setConnection_lookup, if_pos rfl]
  · rw [if_neg hDone]
    exact hClosed
  · rw [hNot] at hClosing
    contradiction

/-- Three bytes of the first packet go out at once and four with a flush; the
second packet waits behind the first, on a connection marked for closing. -/
theorem writePath_stream_partialSends :
    ∃ r connection,
      run (Reactor.step {}) { server := { listenFd := 3, wakeFd := 4 } }
        [.accept { fd := 7 },
          .push { connectionId := 1, generation := 1,
                  messages := [{ connectionId := 1, data := ascii "hello" },
                    { connectionId := 1, data := ascii "bye", closeAfterSend := true }] },
          .swap, .deliver { script := [.sent 3 (by decide)] }, .deliver {},
          .flush 7 { script := [.eintr, .sent 4 (by decide)] }] = some r ∧
      r.server.connections.lookup 1 = some connection ∧
      connection.closing ∧ connection.writeBuffer = ascii "lo" ++ be32 3 ++ ascii "bye" ∧
      doneMessages r.server.log 1 = [ascii "hello", ascii "bye"] ∧
      encodeAll (doneMessages r.server.log 1) =
        .ok (sentBytes r.server.log 1 ++ connection.writeBuffer) ∧
      r.server.epollOut.lookup connection.fd = some true ∧
      (r.server.flushWriteBuffer connection.fd
        { script := [.sent 9 (by decide)] }).connections.lookup 1 = none := by
  obtain ⟨r, hRun, hView⟩ := Option.bind_eq_some_iff.mp
    (show ((run (Reactor.step {}) { server := { listenFd := 3, wakeFd := 4 } }
      [.accept { fd := 7 },
        .push { connectionId := 1, generation := 1,
                messages := [{ connectionId := 1, data := ascii "hello" },
                  { connectionId := 1, data := ascii "bye", closeAfterSend := true }] },
        .swap, .deliver { script := [.sent 3 (by decide)] }, .deliver {},
        .flush 7 { script := [.eintr, .sent 4 (by decide)] }]).bind fun r =>
          (r.server.connections.lookup 1).map fun connection =>
            (connection.closing, connection.writeBuffer, doneMessages r.server.log 1)) =
        some (true, ascii "lo" ++ be32 3 ++ ascii "bye", [ascii "hello", ascii "bye"]) by
      decide +kernel)
  obtain ⟨connection, hOpen, hState⟩ := Option.map_eq_some_iff.mp hView
  injection hState with hClosing hState
  injection hState with hBuffer hDone
  obtain ⟨hStream, hArmed, hWaits, hFlush⟩ :=
    writePath_stream {} 3 4 _ r hRun 1 connection hOpen
  have hClosed := hFlush hClosing { script := [.sent 9 (by decide)] }
  rw [hBuffer, if_neg (by decide +kernel)] at hClosed
  exact ⟨r, connection, hRun, hOpen, hClosing, hBuffer, hDone, hStream,
    hArmed.mp (hWaits hClosing), hClosed⟩

end CppChat.Ports.Network
