import CppChat.Ports.EachConnection

/-!
# How far a read buffer can grow

`handle_client_read` compares the read buffer with its limit after `recv_packets_et`
has returned.  By then the first loop of `recv_packets_et` has appended whatever the
socket would give, and it gives as much as the peer sends before the loop sees
`EAGAIN`.  Between two reads the limit holds; inside a read the buffer is bounded by
what arrives, and by nothing else.

The sizes a read buffer has while `recv_packets_et` runs are recorded for the reactor
as a whole, next to its state; the record has no influence on the run.

## Main results

* `readSizes_le_iff`: the sizes in the read loop, bounded by what arrives.
* `decodeSizes_le`: the decoding loop only makes the buffer shorter.
* `readBuffer_bounded`: a read buffer stays within one chunk of its limit in exactly the
  runs in which no read finds more than that.
-/

namespace CppChat.Ports.Network

open CppChat.Verified
open CppChat.Verified.Transition
open CppChat.Ports.PacketCodec

/-! ## The sizes of a buffer -/

/-- The size of the buffer at every call of `recv`, until the loop ends. -/
def readSizes : List RecvOutcome → Bytes → List Nat
  | [], readBuffer => [readBuffer.length]
  | .bytes chunk :: rest, readBuffer =>
      readBuffer.length :: readSizes rest (readBuffer ++ chunk.data)
  | .closed :: _, readBuffer => [readBuffer.length]
  | .eintr :: rest, readBuffer => readBuffer.length :: readSizes rest readBuffer
  | .error _ :: _, readBuffer => [readBuffer.length]

/-- The size of the buffer in every round of the decoding loop. -/
def decodeSizes (maxPayloadSize : Nat) : Nat → Bytes → List Nat
  | 0, readBuffer => [readBuffer.length]
  | fuel + 1, readBuffer =>
      if readBuffer.length < kPacketHeaderSize then [readBuffer.length]
      else if readBE32 readBuffer = 0 ∨ readBE32 readBuffer > maxPayloadSize then
        [readBuffer.length]
      else if readBuffer.length < kPacketHeaderSize + readBE32 readBuffer then
        [readBuffer.length]
      else
        readBuffer.length :: decodeSizes maxPayloadSize fuel
          (readBuffer.drop (kPacketHeaderSize + readBE32 readBuffer))

/-- The sizes of the buffer in one call of `recv_packets_et`. -/
def recvSizes (script : List RecvOutcome) (readBuffer : Bytes) (maxPayloadSize : Nat) :
    List Nat :=
  match readLoop script readBuffer with
  | (.drained, buffer) =>
      readSizes script readBuffer ++ decodeSizes maxPayloadSize buffer.length buffer
  | _ => readSizes script readBuffer

/-- The number of bytes a socket has to offer before `EAGAIN`, an error or the end of
the stream. -/
def available : List RecvOutcome → Nat
  | .bytes chunk :: rest => chunk.data.length + available rest
  | .eintr :: rest => available rest
  | _ => 0

/-- The loop takes in everything the socket has. -/
theorem readLoop_length (script : List RecvOutcome) :
    ∀ readBuffer : Bytes,
      (readLoop script readBuffer).2.length = readBuffer.length + available script := by
  induction script with
  | nil => exact fun _ => rfl
  | cons outcome rest ih =>
      intro readBuffer
      cases outcome with
      | bytes chunk =>
          rw [readLoop, ih, available, List.length_append]
          omega
      | eintr => exact ih readBuffer
      | closed => rfl
      | error errno => rfl

/-- The read loop only makes the buffer longer, and its last size is the largest. -/
theorem readSizes_le_iff (script : List RecvOutcome) (bound : Nat) :
    ∀ readBuffer : Bytes, (∀ size ∈ readSizes script readBuffer, size ≤ bound) ↔
      readBuffer.length + available script ≤ bound := by
  induction script with
  | nil =>
      intro readBuffer
      simp [readSizes, available]
  | cons outcome rest ih =>
      intro readBuffer
      cases outcome with
      | bytes chunk =>
          rw [readSizes, List.forall_mem_cons, ih, available, List.length_append]
          omega
      | eintr =>
          rw [readSizes, List.forall_mem_cons, ih, available]
          omega
      | closed => simp [readSizes, available]
      | error errno => simp [readSizes, available]

/-- Decoding only makes the buffer shorter. -/
theorem decodeSizes_le (maxPayloadSize fuel : Nat) :
    ∀ readBuffer : Bytes, ∀ size ∈ decodeSizes maxPayloadSize fuel readBuffer,
      size ≤ readBuffer.length := by
  induction fuel with
  | zero =>
      intro readBuffer size hMem
      rw [List.mem_singleton.mp hMem]
  | succ fuel ih =>
      intro readBuffer size hMem
      unfold decodeSizes at hMem
      split at hMem
      · rw [List.mem_singleton.mp hMem]
      split at hMem
      · rw [List.mem_singleton.mp hMem]
      split at hMem
      · rw [List.mem_singleton.mp hMem]
      · rcases List.mem_cons.mp hMem with hEq | hRest
        · rw [hEq]
        · have hShorter := ih _ size hRest
          rw [List.length_drop] at hShorter
          omega

/-- The buffer is largest between the two loops. -/
theorem recvSizes_le_iff (script : List RecvOutcome) (readBuffer : Bytes)
    (maxPayloadSize bound : Nat) :
    (∀ size ∈ recvSizes script readBuffer maxPayloadSize, size ≤ bound) ↔
      readBuffer.length + available script ≤ bound := by
  rw [← readSizes_le_iff script bound readBuffer]
  have hLength := readLoop_length script readBuffer
  unfold recvSizes
  split
  · rename_i buffer hLoop
    rw [hLoop] at hLength
    have hLength : buffer.length = readBuffer.length + available script := hLength
    refine ⟨fun hAll size hMem => hAll size (List.mem_append_left _ hMem), ?_⟩
    intro hRead size hMem
    rcases List.mem_append.mp hMem with hMem | hMem
    · exact hRead size hMem
    · have hDecode := decodeSizes_le maxPayloadSize buffer.length buffer size hMem
      have hBound := (readSizes_le_iff script bound readBuffer).mp hRead
      omega
  · exact Iff.rfl

/-! ## Runs -/

/-- The reactor, and every size a read buffer has had inside `recv_packets_et`. -/
structure Watched where
  reactor : Reactor
  sizes : List Nat := []

/-- A server that has just started, with no sizes noted. -/
def Watched.init (listenFd wakeFd : Nat) : Watched :=
  { reactor := { server := { listenFd := listenFd, wakeFd := wakeFd } } }

/-- The connection a read is for, if it is read at all. -/
def TcpServer.readFrom (srv : TcpServer) (fd : Nat) : Option ConnectionState :=
  match srv.findConnectionByFd fd with
  | none => none
  | some (_, connection) => if connection.closing then none else some connection

/-- The sizes of the read buffer in one step; only a read calls `recv_packets_et`. -/
def sizesIn (srv : TcpServer) : Action → List Nat
  | .read fd io =>
      match srv.readFrom fd with
      | none => []
      | some connection => recvSizes io.script connection.readBuffer kMaxPacketPayloadSize
  | _ => []

/-- A step of the reactor, which adds the sizes that the buffer takes in a read. -/
def Watched.step (config : ServerConfig) (w : Watched) (a : Action) : Option Watched :=
  (w.reactor.step config a).map fun reactor =>
    { reactor := reactor, sizes := w.sizes ++ sizesIn w.reactor.server a }

/-- The read buffers never exceed their limit by more than one chunk, inside
`recv_packets_et` and outside. -/
structure ReadBounded (config : ServerConfig) (w : Watched) : Prop where
  inside : ∀ size ∈ w.sizes, size ≤ config.maxReadBufferBytes + kReadChunkSize
  outside : ∀ i connection, w.reactor.server.connections.lookup i = some connection →
    connection.readBuffer.length ≤ config.maxReadBufferBytes + kReadChunkSize

/-- What is buffered and what the socket has to offer is at most the limit and one
chunk. -/
def FitsRead (config : ServerConfig) (w : Watched) : Action → Prop
  | .read fd io => ∀ connection, w.reactor.server.readFrom fd = some connection →
      connection.readBuffer.length + available io.script ≤
        config.maxReadBufferBytes + kReadChunkSize
  | _ => True

/-- Between two reads the limit itself holds. -/
def WithinLimit (config : ServerConfig) (w : Watched) : Prop :=
  EachConnection (fun connection =>
    connection.readBuffer.length ≤ config.maxReadBufferBytes) w.reactor.server

variable {config : ServerConfig} {w w' : Watched} {a : Action}

/-- After a read event the buffer is within its limit. -/
theorem step_withinLimit (h : WithinLimit config w) (hStep : w.step config a = some w') :
    WithinLimit config w' := by
  obtain ⟨r, hReactor, rfl⟩ := Option.map_eq_some_iff.mp hStep
  have hKept : Kept config fun connection =>
      connection.readBuffer.length ≤ config.maxReadBufferBytes :=
    { fresh := fun _ _ _ _ => Nat.zero_le _
      read := fun _ _ _ _ hLimit _ => hLimit
      write := fun _ _ hp _ => hp
      flush := fun _ _ hp _ => hp
      closing := fun _ hp => hp }
  exact EachConnection.step hKept h hReactor

theorem WithinLimit.outside (h : WithinLimit config w) :
    ∀ i connection, w.reactor.server.connections.lookup i = some connection →
      connection.readBuffer.length ≤ config.maxReadBufferBytes + kReadChunkSize :=
  fun i connection hLookup => Nat.le_add_right_of_le (h i connection hLookup)

theorem sizesIn_le_iff (config : ServerConfig) (w : Watched) (a : Action) :
    (∀ size ∈ sizesIn w.reactor.server a,
        size ≤ config.maxReadBufferBytes + kReadChunkSize) ↔ FitsRead config w a := by
  cases a with
  | read fd io =>
      rw [FitsRead, sizesIn]
      cases hRead : w.reactor.server.readFrom fd with
      | none => simp
      | some connection =>
          rw [recvSizes_le_iff]
          simp
  | _ => simp [FitsRead, sizesIn]

/-- A step keeps the bound exactly if its read, if it is one, finds no more than fits. -/
theorem step_readBounded (h : WithinLimit config w) (hStep : w.step config a = some w') :
    ReadBounded config w' ↔ ReadBounded config w ∧ FitsRead config w a := by
  have hAfter := (step_withinLimit h hStep).outside
  obtain ⟨r, hReactor, rfl⟩ := Option.map_eq_some_iff.mp hStep
  rw [← sizesIn_le_iff]
  constructor
  · intro hBounded
    have hAll := List.forall_mem_append.mp hBounded.inside
    exact ⟨⟨hAll.1, h.outside⟩, hAll.2⟩
  · rintro ⟨hBounded, hRead⟩
    exact ⟨List.forall_mem_append.mpr ⟨hBounded.inside, hRead⟩, hAfter⟩

/--
**A read buffer is bounded by what arrives.**  For every configuration, a run keeps all
read buffers within `max_read_buffer_bytes` and one chunk, at every call of `recv`, in
every round of the decoding loop and between two events, if and only if no read finds
more: what is buffered and what the socket offers before `EAGAIN`, together, are within
that bound.
-/
theorem readBuffer_bounded (config : ServerConfig) (listenFd wakeFd : Nat)
    (acts : List Action) (w : Watched)
    (hRun : run (Watched.step config) (Watched.init listenFd wakeFd) acts = some w) :
    ReadBounded config w ↔
      StepsMeet (Watched.step config) (FitsRead config) (Watched.init listenFd wakeFd) acts := by
  have hEmpty : ∀ i connection,
      (Watched.init listenFd wakeFd).reactor.server.connections.lookup i ≠ some connection :=
    fun _ _ hLookup => by contradiction
  have hInit : WithinLimit config (Watched.init listenFd wakeFd) :=
    fun i connection hLookup => absurd hLookup (hEmpty i connection)
  have hBounded : ReadBounded config (Watched.init listenFd wakeFd) :=
    { inside := fun _ hMem => by contradiction
      outside := hInit.outside }
  have hExact := run_iff_stepsMeet
    (fun _ _ _ hBefore hStep => step_withinLimit hBefore hStep)
    (fun _ _ _ hBefore hStep => step_readBounded hBefore hStep) acts _ w hInit hRun
  exact hExact.trans (and_iff_right hBounded)

/-- One chunk of the largest size. -/
def fullChunk : ReadChunk where
  data := List.replicate kReadChunkSize 0
  nonempty := by rw [List.length_replicate]; decide
  bounded := by rw [List.length_replicate]

/-- A peer that sends a number of chunks, as fast as they are read. -/
def flood (chunks : Nat) : List RecvOutcome := List.replicate chunks (.bytes fullChunk)

theorem available_flood (chunks : Nat) : available (flood chunks) = chunks * kReadChunkSize := by
  induction chunks with
  | zero => exact (Nat.zero_mul _).symm
  | succ chunks ih =>
      rw [flood, List.replicate_succ, available, ← flood, ih, fullChunk, List.length_replicate,
        Nat.succ_mul, Nat.add_comm]

/-- A connection is accepted and read once. -/
def readOnce (script : List RecvOutcome) : List Action :=
  [.accept { fd := 7 }, .read 7 { script := script }]

theorem run_readOnce (config : ServerConfig) (script : List RecvOutcome) :
    ∃ w, run (Watched.step config) (Watched.init 3 4) (readOnce script) = some w ∧
      w.sizes = recvSizes script [] kMaxPacketPayloadSize :=
  ⟨_, rfl, rfl⟩

theorem readBuffer_bounded_oneChunk :
    ∃ w, run (Watched.step {}) (Watched.init 3 4) (readOnce (flood 1)) = some w ∧
      ReadBounded {} w := by
  obtain ⟨w, hRun, -⟩ := run_readOnce {} (flood 1)
  refine ⟨w, hRun, (readBuffer_bounded {} 3 4 _ w hRun).mpr ?_⟩
  refine ⟨trivial, fun w hAccept => ⟨?_, fun _ _ => trivial⟩⟩
  rw [← Option.some.inj hAccept]
  intro connection hRead
  rw [← Option.some.inj hRead, available_flood]
  decide

/-- With the default limit of 2 MiB, 514 chunks arrive before the loop sees `EAGAIN`. -/
theorem readBuffer_flooded :
    ∃ w, run (Watched.step {}) (Watched.init 3 4) (readOnce (flood 514)) = some w ∧
      kPacketHeaderSize + kMaxPacketPayloadSize ≤ ({} : ServerConfig).maxReadBufferBytes ∧
      ¬ReadBounded {} w := by
  obtain ⟨w, hRun, hSizes⟩ := run_readOnce {} (flood 514)
  refine ⟨w, hRun, by decide, fun hBounded => ?_⟩
  have hInside := hBounded.inside
  rw [hSizes, recvSizes_le_iff, available_flood] at hInside
  exact absurd hInside (by decide)

end CppChat.Ports.Network
