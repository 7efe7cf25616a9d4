import CppChat.Ports.EachConnection
import CppChat.Ports.MessageOrder

/-!
# The four limits

Four limits keep the memory of the server within bounds, and each is enforced in its
own way.  The thread pool refuses a task before it is queued; a worker compares the
response queue with its limit before it appends; `send_to_client` appends first and
fails when the write buffer has become too long; a read first lets the read buffer
grow and looks at it when the frames have been split off.  In the last two cases the
connection is closed before the event loop goes on.

A read buffer has a second bound that no check enforces: what the decoder leaves is
less than one frame.

## Main results

* `step_capped`: every step keeps all four limits.
* `backpressure_caps`: they hold in every state of every run.
-/

namespace CppChat.Ports.ServerRuns

open CppChat.Verified
open CppChat.Verified.Transition
open CppChat.Ports.PacketCodec
open CppChat.Ports.Protocol
open CppChat.Ports.Users
open CppChat.Ports.Chat
open CppChat.Ports.Network
open CppChat.Ports.ConnectionTeardown (PoolConfig)

/-- The buffers of a connection outside an event handler. -/
structure Capped (config : ServerConfig) (connection : ConnectionState) : Prop where
  read : connection.readBuffer.length ≤ config.maxReadBufferBytes
  frame : connection.readBuffer.length < kPacketHeaderSize + kMaxPacketPayloadSize
  write : connection.writeBuffer.length ≤ config.maxWriteBufferBytes

/-- The two queues, and the buffers of every open connection. -/
structure Caps (config : ServerConfig) (pool : PoolConfig) (s : Server) : Prop where
  responses : s.net.responseQueue.length ≤ config.maxResponseQueueSize
  tasks : s.tasks.length ≤ pool.queueBound
  connections : EachConnection (Capped config) s.net

variable {crypto : Crypto} {config : ServerConfig} {pool : PoolConfig} {s s' : Server}

/-! ## The connections -/

/-- Both buffers are checked, or only become shorter, wherever they are written back. -/
theorem capped_kept (config : ServerConfig) : Kept config (Capped config) where
  fresh := fun _ _ _ _ =>
    { read := Nat.zero_le _
      frame := Nat.lt_add_right kMaxPacketPayloadSize (show 0 < kPacketHeaderSize by decide)
      write := Nat.zero_le _ }
  read := fun _ _ _ hCapped hLimit hFrame => ⟨hLimit, hFrame, hCapped.write⟩
  write := fun _ _ hCapped hLimit => ⟨hCapped.read, hCapped.frame, hLimit⟩
  flush := fun _ _ hCapped hShorter =>
    ⟨hCapped.read, hCapped.frame, hShorter.trans hCapped.write⟩
  closing := fun _ hCapped => ⟨hCapped.read, hCapped.frame, hCapped.write⟩

/-! ## The queues -/

/-- A worker compares before it appends. -/
theorem pushResult_capped (srv : TcpServer) (result : WorkerResult)
    (h : srv.responseQueue.length ≤ config.maxResponseQueueSize) :
    (srv.pushResult config result).responseQueue.length ≤ config.maxResponseQueueSize := by
  unfold TcpServer.pushResult
  split
  · exact h
  · rename_i hRoom
    simp only [List.length_append, List.length_map]
    omega

/-- A read hands a batch over only if the pool takes it. -/
theorem handleClientRead_enqueued (srv : TcpServer) (fd : Nat) (io : ReadIo)
    (hFull : io.enqueued = false) :
    Emits (fun effect => ∀ i g payloads, effect ≠ .enqueue i g payloads) srv
      (srv.handleClientRead config fd io) := by
  rcases handleClientRead_batch config srv fd io with ⟨_, _, _, _, hTaken, _⟩ | hNone
  · rw [hFull] at hTaken
    contradiction
  · exact hNone

theorem enqueued_eq_none {srv srv' : TcpServer}
    (h : Emits (fun effect => ∀ i g payloads, effect ≠ .enqueue i g payloads) srv srv') :
    enqueued (newEffects srv srv') = none := by
  obtain ⟨effects, hLog, hNone⟩ := h
  rw [newEffects, hLog, List.drop_left, enqueued, List.findSome?_eq_none_iff]
  intro effect hMem
  cases effect with
  | enqueue i g payloads => exact absurd rfl (hNone _ hMem i g payloads)
  | _ => rfl

/-- The pool takes a batch only if there is room in its queue. -/
theorem submit_capped {action : Network.Action} {r : Reactor}
    (hEvent : isEvent pool s action = true)
    (hStep : Reactor.step config { server := s.net } action = some r)
    (h : s.tasks.length ≤ pool.queueBound) :
    ((s.withNet crypto r.server).submit
      (batchOf (newEffects s.net r.server) action)).tasks.length ≤ pool.queueBound := by
  cases hBatch : batchOf (newEffects s.net r.server) action with
  | none => exact h
  | some batch =>
      cases action with
      | read fd io =>
          rw [← Option.some.inj hStep] at hBatch
          have hRoom : io.enqueued = decide (s.tasks.length < pool.queueBound) := by
            simpa [isEvent] using hEvent
          cases hTaken : io.enqueued with
          | false =>
              rw [batchOf, enqueued_eq_none (handleClientRead_enqueued _ fd io hTaken)] at hBatch
              contradiction
          | true =>
              rw [hTaken] at hRoom
              have hLength := of_decide_eq_true hRoom.symm
              simpa [Server.submit, Server.withNet] using Nat.succ_le_of_lt hLength
      | _ => contradiction

/-! ## Runs -/

/-- Every step keeps all four limits. -/
theorem step_capped (h : Caps config pool s) {a : Action}
    (hStep : Stepped crypto config pool s a s') : Caps config pool s' := by
  cases hStep with
  | event hPhase hEvent hNet =>
      obtain ⟨hNet', -, -⟩ := submit_net (s.withNet crypto _) (batchOf _ _)
      constructor
      · rw [hNet']
        have hQueues := event_untouched (isEvent_ofEvent hEvent) hNet
        exact hQueues.responses ▸ h.responses
      · exact submit_capped hEvent hNet h.tasks
      · rw [hNet']
        exact h.connections.step (capped_kept config) hNet
  | drain hPhase => exact ⟨h.responses, h.tasks, h.connections⟩
  | @closeNext request rest hPhase =>
      have hQueues := untouched_closeIfCurrent s.net request
      exact ⟨hQueues.responses ▸ h.responses, h.tasks, h.connections.closeIfCurrent request⟩
  | @closeNextAgain request rest hPhase =>
      have hQueues := untouched_closeIfCurrent s.net request
      exact ⟨hQueues.responses ▸ h.responses, h.tasks, h.connections.closeIfCurrent request⟩
  | swap hPhase => exact ⟨Nat.zero_le _, h.tasks, h.connections⟩
  | @deliver item rest io hPhase =>
      have hQueues := untouched_deliver config s.net item.1 io
      have hKept := capped_kept config
      exact ⟨hQueues.responses ▸ h.responses, h.tasks,
        h.connections.deliver hKept.write hKept.closing item.1 io⟩
  | drainAgain hPhase => exact ⟨h.responses, h.tasks, h.connections⟩
  | endDrain hPhase => exact ⟨h.responses, h.tasks, h.connections⟩
  | @take worker task rest hTasks hThread hFree =>
      have hLength := h.tasks
      rw [hTasks, List.length_cons] at hLength
      exact ⟨h.responses, Nat.le_of_succ_le hLength, h.connections⟩
  | call hJob hCurrent => exact ⟨h.responses, h.tasks, h.connections⟩
  | @push worker job out hJob hCurrent =>
      exact ⟨pushResult_capped s.net (resultOf job out) h.responses, h.tasks,
        h.connections.pushResult config (resultOf job out)⟩
  | start hJob hCurrent hRest => exact ⟨h.responses, h.tasks, h.connections⟩
  | leave hJob hCurrent hRest => exact ⟨h.responses, h.tasks, h.connections⟩

/-- Empty buffers are below every limit. -/
theorem caps_init (listenFd wakeFd : Nat) : Caps config pool (Server.init listenFd wakeFd) where
  responses := Nat.zero_le _
  tasks := Nat.zero_le _
  connections := fun _ _ hLookup => by contradiction

/-- A queue limit of 0 counts as 1. -/
theorem queueBound_eq (pool : PoolConfig) : pool.queueBound = max 1 pool.maxQueueSize := by
  unfold PoolConfig.queueBound
  split <;> omega

/--
**The limits hold in every state.**  For every configuration, and every order of accepts,
reads, pushes, partial sends, flushes, drains and closes:

* the response queue is not longer than `max_response_queue_size`;
* the task queue is not longer than `max_thread_pool_queue_size`, or one if that is zero;
* the write buffer of every open connection is within `max_write_buffer_bytes`;
* its read buffer is within `max_read_buffer_bytes`, and shorter than the longest frame.
-/
theorem backpressure_caps (crypto : Crypto) (config : ServerConfig) (pool : PoolConfig)
    (listenFd wakeFd : Nat) (acts : List Action) (s : Server)
    (hRun : run (step crypto config pool) (Server.init listenFd wakeFd) acts = some s) :
    s.net.responseQueue.length ≤ config.maxResponseQueueSize ∧
      s.tasks.length ≤ max 1 pool.maxQueueSize ∧
      ∀ i connection, s.net.connections.lookup i = some connection →
        connection.writeBuffer.length ≤ config.maxWriteBufferBytes ∧
          connection.readBuffer.length ≤
            min config.maxReadBufferBytes (kPacketHeaderSize + kMaxPacketPayloadSize - 1) := by
  have hCaps := run_invariant
    (fun _ _ _ hBefore hStep => step_capped hBefore (stepped hStep))
    (caps_init listenFd wakeFd) hRun
  refine ⟨hCaps.responses, ?_, ?_⟩
  · rw [← queueBound_eq]
    exact hCaps.tasks
  · intro i connection hLookup
    have hCapped := hCaps.connections i connection hLookup
    refine ⟨hCapped.write, Nat.le_min.mpr ⟨hCapped.read, ?_⟩⟩
    exact Nat.le_sub_one_of_lt hCapped.frame

theorem halfHeader_le : [(0 : UInt8), 0].length ≤ kReadChunkSize := by
  decide

/-- The reply to a request waits in a write buffer, and half a frame in a read buffer. -/
def blockedReply : List Action :=
  [.event (.accept { fd := 7 }), .event (.read 7 (readOf [loginLine "alice"])), .take 0] ++
  List.replicate 6 (.work 0) ++
  [.event (.read 7 { script := [.bytes ⟨[0, 0], Nat.two_pos, halfHeader_le⟩] }), .drain, .swap,
    .deliver {}]

theorem backpressure_caps_blockedReply :
    ∃ s connection, run (step sampleCrypto { maxWriteBufferBytes := 200 } ⟨2, 4⟩)
        (Server.init 3 4) blockedReply = some s ∧
      s.net.connections.lookup 1 = some connection ∧ connection.writeBuffer ≠ [] ∧
      connection.readBuffer = [0, 0] ∧ connection.writeBuffer.length ≤ 200 := by
  obtain ⟨s, hRun, hView⟩ := Option.map_eq_some_iff.mp
    (show (run (step sampleCrypto { maxWriteBufferBytes := 200 } ⟨2, 4⟩) (Server.init 3 4)
        blockedReply).map (fun s => (s.net.connections.lookup 1).any fun connection =>
          !connection.writeBuffer.isEmpty && decide (connection.readBuffer = [0, 0])) =
        some true by decide +kernel)
  obtain ⟨connection, hLookup, hBuffers⟩ := (Option.any_eq_true _ _).mp hView
  obtain ⟨hWrite, hRead⟩ := Bool.and_eq_true_iff.mp hBuffers
  have hCaps := backpressure_caps sampleCrypto { maxWriteBufferBytes := 200 } ⟨2, 4⟩ 3 4
    blockedReply s hRun
  exact ⟨s, connection, hRun, hLookup, by simpa using hWrite, of_decide_eq_true hRead,
    (hCaps.2.2 1 connection hLookup).1⟩

end CppChat.Ports.ServerRuns
