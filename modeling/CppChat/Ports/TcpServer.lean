import CppChat.Ports.PacketCodec
import CppChat.Verified.UnorderedMap

/-!
# The reactor

One thread runs the epoll loop: it accepts, reads and closes connections and
writes the responses the workers have queued.  A connection is known under two
numbers, the socket it uses and the id the server gave it, and two maps lead
from one to the other.

The kernel enters as arguments: which socket `accept4` returns, what the calls
of `recv` and `send` deliver, and whether an `epoll_ctl` succeeds.  What the
reactor does to the outside is recorded in `log`, oldest first, with the
connection it does it for; the log has no influence on the reactor.

Times are seconds, sizes are natural numbers, and the id counters do not wrap
around.  Log lines are not modelled.
-/

namespace CppChat.Ports.Network

open CppChat.Verified
open CppChat.Ports.PacketCodec

/-! ## State -/

/-- A reply that waits for the event loop. -/
structure QueuedResponse where
  connectionId : Nat := 0
  generation : Nat := 0
  data : Bytes := []
  closeAfterSend : Bool := false
deriving DecidableEq, Repr

/-- A connection to be closed by the event loop. -/
structure QueuedClose where
  connectionId : Nat := 0
  generation : Nat := 0
deriving DecidableEq, Repr

/-- A connection with its buffers. -/
structure ConnectionState where
  connectionId : Nat
  fd : Nat
  readBuffer : Bytes := []
  writeBuffer : Bytes := []
  lastActiveAt : Nat := 0
  closing : Bool := false
  generation : Nat
deriving DecidableEq, Repr

/-- What the reactor does to the outside, and for which connection.  A socket
that is closed without belonging to a connection has no owner. -/
inductive Effect where
  | accept (connectionId generation fd : Nat)
  | recv (connectionId fd : Nat)
  | enqueue (connectionId generation : Nat) (payloads : List Bytes)
  | send (connectionId fd : Nat) (accepted : Bytes)
  | sendDone (connectionId : Nat) (data : Bytes)
  | handleDisconnect (connectionId : Nat)
  | close (owner : Option Nat) (fd : Nat)
deriving DecidableEq, Repr

/-- The settings the server reads. -/
structure ServerConfig where
  heartbeatTimeoutSeconds : Nat := 60
  maxReadBufferBytes : Nat := 2 * 1024 * 1024
  maxWriteBufferBytes : Nat := 2 * 1024 * 1024
  maxResponseQueueSize : Nat := 10000

/-- The members of `TcpServer`, and the sockets registered with epoll: whether
`EPOLLOUT` is armed for each. -/
structure TcpServer where
  listenFd : Nat
  wakeFd : Nat
  connectionByFd : UnorderedMap Nat Nat := ∅
  connections : UnorderedMap Nat ConnectionState := ∅
  nextConnectionId : Nat := 1
  nextGeneration : Nat := 1
  responseQueue : List QueuedResponse := []
  closeQueue : List QueuedClose := []
  epollOut : UnorderedMap Nat Bool := ∅
  log : List Effect := []

/-- One call of `send_all` and the `epoll_ctl` that may follow it. -/
structure SendIo where
  script : List SendOutcome := []
  ctlOk : Bool := true

/-- One call of `recv_packets_et`, the clock, and whether the thread pool takes
the task. -/
structure ReadIo where
  script : List RecvOutcome := []
  now : Nat := 0
  enqueued : Bool := true

/-- A socket returned by `accept4`, and whether it can be registered. -/
structure Accepted where
  fd : Nat
  ctlOk : Bool := true
  now : Nat := 0

/-- A reply as the network layer gets it from the service. -/
structure Outgoing where
  connectionId : Nat
  data : Bytes
  closeAfterSend : Bool := false

/-- The replies to one request, with the connection it came from. -/
structure WorkerResult where
  connectionId : Nat
  generation : Nat
  messages : List Outgoing

/-- What happens around one `drain_responses`: the results workers push before
the queue is swapped and before the close requests are drained again, and the
sends. -/
structure DrainIo where
  beforeSwap : List WorkerResult := []
  sends : List SendIo := []
  beforeCloses : List WorkerResult := []

/-- An event of `epoll_wait`. -/
structure EpollEvent where
  fd : Nat
  error : Bool := false
  hangup : Bool := false
  readHangup : Bool := false
  readable : Bool := false
  writable : Bool := false
deriving DecidableEq, Repr

/-- The kernel and the workers while one event is processed. -/
structure EventIo where
  pushed : List WorkerResult := []
  accepts : List Accepted := []
  read : ReadIo := {}
  flush : SendIo := {}
  drain : DrainIo := {}

namespace TcpServer

/-- Add to the log. -/
def emit (srv : TcpServer) (effects : List Effect) : TcpServer :=
  { srv with log := srv.log ++ effects }

/-- Write a connection back under its id. -/
def setConnection (srv : TcpServer) (connectionId : Nat) (connection : ConnectionState) :
    TcpServer :=
  { srv with connections := srv.connections.insert connectionId connection }

/-! ## Looking up connections -/

/-- `find_connection`. -/
def findConnection (srv : TcpServer) (connectionId : Nat) : Option ConnectionState :=
  srv.connections.lookup connectionId

/-- `find_connection_by_fd`, through the id. -/
def findConnectionByFd (srv : TcpServer) (fd : Nat) : Option (Nat × ConnectionState) :=
  match srv.connectionByFd.lookup fd with
  | none => none
  | some connectionId =>
      (srv.findConnection connectionId).map fun connection => (connectionId, connection)

/-- Generation `0` stands for any. -/
def isCurrentConnection (srv : TcpServer) (connectionId generation : Nat) : Bool :=
  match srv.connections.lookup connectionId with
  | none => false
  | some connection => generation == 0 || connection.generation == generation

/-! ## Accepting and closing -/

/-- One round of the accept loop: a new id and generation for the socket, which
is given up when it cannot be registered. -/
def acceptConnection (srv : TcpServer) (accepted : Accepted) : TcpServer :=
  let counted : TcpServer :=
    { srv with
      nextConnectionId := srv.nextConnectionId + 1
      nextGeneration := srv.nextGeneration + 1 }
  if accepted.ctlOk then
    { counted with
      connectionByFd := srv.connectionByFd.insert accepted.fd srv.nextConnectionId
      connections := srv.connections.insert srv.nextConnectionId
        { connectionId := srv.nextConnectionId, fd := accepted.fd,
          lastActiveAt := accepted.now, generation := srv.nextGeneration }
      epollOut := srv.epollOut.insert accepted.fd false
      log := srv.log ++
        [.accept srv.nextConnectionId srv.nextGeneration accepted.fd] }
  else counted.emit [.close none accepted.fd]

/-- Accept until `accept4` has no more. -/
def acceptConnections (srv : TcpServer) (accepts : List Accepted) : TcpServer :=
  accepts.foldl acceptConnection srv

/-- `close_connection`: the service is told, the connection forgotten, its
descriptor closed. -/
def closeConnection (srv : TcpServer) (connectionId : Nat) : TcpServer :=
  match srv.connections.lookup connectionId with
  | none => srv
  | some connection =>
      { srv with
        connectionByFd := srv.connectionByFd.erase connection.fd
        connections := srv.connections.erase connectionId
        epollOut := srv.epollOut.erase connection.fd
        log := srv.log ++
          [.handleDisconnect connectionId, .close (some connectionId) connection.fd] }

/-- Close whatever is known under a socket; a socket nothing is known about is
closed all the same. -/
def closeClient (srv : TcpServer) (fd : Nat) : TcpServer :=
  match srv.connectionByFd.lookup fd with
  | none => { srv with epollOut := srv.epollOut.erase fd, log := srv.log ++ [.close none fd] }
  | some connectionId => srv.closeConnection connectionId

/-- Close the connections that have been idle for longer than the timeout. -/
def checkHeartbeats (config : ServerConfig) (srv : TcpServer) (now : Nat) : TcpServer :=
  let timedOut := srv.connections.entries.filterMap fun entry =>
    if now - entry.2.lastActiveAt > config.heartbeatTimeoutSeconds then some entry.1 else none
  timedOut.foldl closeConnection srv

/-! ## Reading -/

/-- `handle_client_read`. -/
def handleClientRead (config : ServerConfig) (srv : TcpServer) (fd : Nat) (io : ReadIo) :
    TcpServer :=
  match srv.findConnectionByFd fd with
  | none => srv
  | some (connectionId, connection) =>
      if connection.closing then srv
      else
        let (result, readBuffer) :=
          recvPacketsEt io.script connection.readBuffer kMaxPacketPayloadSize
        let received := (srv.setConnection connectionId
          { connection with readBuffer := readBuffer }).emit [.recv connectionId fd]
        if result.status = .closed ∨ result.status = .protocolError ∨
            result.status = .ioError then
          received.closeClient fd
        else if readBuffer.length > config.maxReadBufferBytes then
          received.closeClient fd
        else if result.packets.isEmpty then received
        else
          let active := received.setConnection connectionId
            { connection with readBuffer := readBuffer, lastActiveAt := io.now }
          if io.enqueued then
            active.emit [.enqueue connection.connectionId connection.generation
              (result.packets.map Packet.payload)]
          else active.closeClient fd

/-! ## Writing -/

/-- Switch `EPOLLOUT` for a socket. -/
def setWriteMode (srv : TcpServer) (fd : Nat) (enable ctlOk : Bool) : Bool × TcpServer :=
  if ctlOk then (true, { srv with epollOut := srv.epollOut.insert fd enable })
  else (false, srv)

/-- Frame a message and send it, or append it to what waits already.  The
connection is the one stored under the id. -/
def sendToClient (config : ServerConfig) (srv : TcpServer) (connectionId : Nat)
    (connection : ConnectionState) (data : Bytes) (io : SendIo) : Bool × TcpServer :=
  match encodePacket data with
  | .error _ => (false, srv)
  | .ok packet =>
      if !connection.writeBuffer.isEmpty then
        let writeBuffer := connection.writeBuffer ++ packet
        let appended := srv.setConnection connectionId
          { connection with writeBuffer := writeBuffer }
        if writeBuffer.length > config.maxWriteBufferBytes then (false, appended)
        else (true, appended.emit [.sendDone connectionId data])
      else
        let result := sendAll io.script packet.length
        let sent := srv.emit [.send connectionId connection.fd (packet.take result.sent)]
        match result.status with
        | .ok => (true, sent.emit [.sendDone connectionId data])
        | .ioError => (false, sent)
        | .wouldBlock =>
            let writeBuffer := packet.drop result.sent
            let waiting := sent.setConnection connectionId
              { connection with writeBuffer := writeBuffer }
            if writeBuffer.length > config.maxWriteBufferBytes then (false, waiting)
            else
              match waiting.setWriteMode connection.fd true io.ctlOk with
              | (false, srv') => (false, srv')
              | (true, srv') => (true, srv'.emit [.sendDone connectionId data])

/-- Send what waits; when all of it is out, a connection marked for closing is
closed. -/
def flushWriteBuffer (srv : TcpServer) (fd : Nat) (io : SendIo) : TcpServer :=
  match srv.findConnectionByFd fd with
  | none => srv
  | some (connectionId, connection) =>
      if connection.writeBuffer.isEmpty then srv
      else
        let result := sendAll io.script connection.writeBuffer.length
        let sent := srv.emit
          [.send connectionId fd (connection.writeBuffer.take result.sent)]
        match result.status with
        | .wouldBlock =>
            sent.setConnection connectionId
              { connection with writeBuffer := connection.writeBuffer.drop result.sent }
        | .ioError => sent.closeConnection connection.connectionId
        | .ok =>
            let cleared := sent.setConnection connectionId
              { connection with writeBuffer := [] }
            match cleared.setWriteMode fd false io.ctlOk with
            | (false, srv') => srv'.closeConnection connection.connectionId
            | (true, srv') =>
                if connection.closing then srv'.closeConnection connection.connectionId
                else srv'

/-! ## The queues -/

/-- The end of `process_packet_async`: queue the replies of a request, or ask
for its connection to be closed when they are too many.  Replies to another
connection carry generation `0`. -/
def pushResult (config : ServerConfig) (srv : TcpServer) (result : WorkerResult) :
    TcpServer :=
  if srv.responseQueue.length + result.messages.length > config.maxResponseQueueSize then
    { srv with closeQueue := srv.closeQueue ++
        [{ connectionId := result.connectionId, generation := result.generation }] }
  else
    { srv with responseQueue := srv.responseQueue ++ result.messages.map fun message =>
        { connectionId := message.connectionId
          generation := if message.connectionId = result.connectionId then result.generation
            else 0
          data := message.data
          closeAfterSend := message.closeAfterSend } }

/-- A worker touches the two queues and nothing else. -/
theorem pushResult_queues (config : ServerConfig) (srv : TcpServer) (result : WorkerResult) :
    ∃ responses closes, srv.pushResult config result =
      { srv with responseQueue := responses, closeQueue := closes } := by
  unfold pushResult
  split
  · exact ⟨srv.responseQueue, _, rfl⟩
  · exact ⟨_, srv.closeQueue, rfl⟩

/-- One request to close, unless the connection is another one by now. -/
def closeIfCurrent (srv : TcpServer) (request : QueuedClose) : TcpServer :=
  if srv.isCurrentConnection request.connectionId request.generation then
    srv.closeConnection request.connectionId
  else srv

/-- `drain_close_requests`. -/
def drainCloseRequests (srv : TcpServer) : TcpServer :=
  srv.closeQueue.foldl closeIfCurrent { srv with closeQueue := [] }

/-- One round of the loop of `drain_responses`. -/
def deliver (config : ServerConfig) (srv : TcpServer) (response : QueuedResponse)
    (io : SendIo) : TcpServer :=
  match srv.findConnection response.connectionId with
  | none => srv
  | some connection =>
      if !srv.isCurrentConnection response.connectionId response.generation then srv
      else
        match srv.sendToClient config response.connectionId connection response.data io with
        | (false, srv') => srv'.closeConnection response.connectionId
        | (true, srv') =>
            if response.closeAfterSend then
              match srv'.findConnection response.connectionId with
              | none => srv'
              | some connection' =>
                  if connection'.writeBuffer.isEmpty then
                    srv'.closeConnection response.connectionId
                  else
                    srv'.setConnection response.connectionId
                      { connection' with closing := true }
            else srv'

/-- The loop of `drain_responses`. -/
def deliverAll (config : ServerConfig) :
    List QueuedResponse → List SendIo → TcpServer → TcpServer
  | [], _, srv => srv
  | response :: rest, ios, srv =>
      deliverAll config rest ios.tail (srv.deliver config response (ios.headD {}))

/-- `drain_responses`: the close requests, the replies, and the close requests again. -/
def drainResponses (config : ServerConfig) (srv : TcpServer) (io : DrainIo) : TcpServer :=
  let drained := srv.drainCloseRequests
  let pushed := io.beforeSwap.foldl (pushResult config) drained
  let delivered := deliverAll config pushed.responseQueue io.sends
    { pushed with responseQueue := [] }
  (io.beforeCloses.foldl (pushResult config) delivered).drainCloseRequests

/-! ## The event loop -/

/-- A client event: any error or hang-up closes, otherwise read, then write. -/
def processClient (config : ServerConfig) (srv : TcpServer) (event : EpollEvent)
    (io : EventIo) : TcpServer :=
  if event.error || event.hangup || event.readHangup then srv.closeClient event.fd
  else
    let read := if event.readable then srv.handleClientRead config event.fd io.read else srv
    if event.writable then read.flushWriteBuffer event.fd io.flush else read

/-- One event of a batch. -/
def processEvent (config : ServerConfig) (srv : TcpServer) (event : EpollEvent)
    (io : EventIo) : TcpServer :=
  let pushed := io.pushed.foldl (pushResult config) srv
  if event.fd = srv.listenFd then pushed.acceptConnections io.accepts
  else if event.fd = srv.wakeFd then pushed.drainResponses config io.drain
  else pushed.processClient config event io

/-- The events of a batch, in the order `epoll_wait` returned them. -/
def processEvents (config : ServerConfig) (srv : TcpServer)
    (batch : List (EpollEvent × EventIo)) : TcpServer :=
  batch.foldl (fun srv item => srv.processEvent config item.1 item.2) srv

end TcpServer

end CppChat.Ports.Network
