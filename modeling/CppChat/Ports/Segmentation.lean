import CppChat.Ports.ReactorQueues

/-!
# Reading a stream in pieces

How many read events a stream takes is up to the network.  The decoder itself does not
depend on it: `recv_packets_et` keeps the incomplete tail, and over any number of calls
the frames are the frames of the stream.  `handle_client_read` is another matter.  It
looks at the buffer that is left before it looks at the packets, and when that starts
with an invalid header or is longer than the limit it closes the connection and drops
the packets it has just decoded.  Whether they are executed then depends on where the
stream was cut.

## Main results

* `read_cases`: a read event either submits the frames it completes, or closes.
* `everyCutLeaves_iff`: what every cut of a stream leaves fits, expressed by its frames.
* `segmentation_independent`: exactly the streams whose frames are submitted however the
  stream is cut.
* `segmentation_dependent`: a frame and an invalid header, in one read and in two.
-/

namespace CppChat.Ports.Network

open CppChat.Verified
open CppChat.Verified.Framing
open CppChat.Ports.PacketCodec

/-- All payloads handed to the thread pool, in order. -/
def submitted (log : List Effect) : List Bytes :=
  log.flatMap fun effect => match effect with
    | .enqueue _ _ payloads => payloads
    | _ => []

/-- Read events of one socket. -/
def TcpServer.readEvents (config : ServerConfig) (srv : TcpServer) (fd : Nat)
    (ios : List ReadIo) : TcpServer :=
  ios.foldl (fun srv io => srv.handleClientRead config fd io) srv

/-- The read events bring a stream: every read ends in `EAGAIN`, and the thread pool
takes every batch. -/
structure Brings (stream : Bytes) (ios : List ReadIo) : Prop where
  eagain : ∀ io ∈ ios, EndsInEagain io.script
  taken : ∀ io ∈ ios, io.enqueued = true
  whole : (ios.map fun io => received io.script).flatten = stream

/-- The socket belongs to a connection that is read and has seen `seen`; `handed` are
the frames in it, and the read buffer is what is left. -/
def Reading (srv : TcpServer) (fd : Nat) (seen : Bytes) (handed : List Bytes) : Prop :=
  ∃ i connection, srv.findConnectionByFd fd = some (i, connection) ∧
    connection.closing = false ∧ Splits packetFormat seen handed connection.readBuffer ∧
    ¬HoldsFrame packetFormat connection.readBuffer

/-- What a read may leave without losing its connection. -/
def Leaves (config : ServerConfig) (rest : Bytes) : Prop :=
  ¬Malformed packetFormat rest ∧ rest.length ≤ config.maxReadBufferBytes

variable {config : ServerConfig} {srv : TcpServer} {fd : Nat} {io : ReadIo}

/-! ## One read event -/

theorem submitted_append (log effects : List Effect) :
    submitted (log ++ effects) = submitted log ++ submitted effects :=
  List.flatMap_append

theorem submitted_of_emits {srv srv' : TcpServer}
    (h : Emits (fun effect => ∀ i g payloads, effect ≠ .enqueue i g payloads) srv srv') :
    submitted srv'.log = submitted srv.log := by
  obtain ⟨effects, hLog, hNone⟩ := h
  have hNothing : submitted effects = [] := by
    apply List.flatMap_eq_nil_iff.mpr
    intro effect hMem
    cases effect with
    | enqueue i g payloads => exact absurd rfl (hNone _ hMem i g payloads)
    | _ => rfl
  rw [hLog, submitted_append, hNothing, List.append_nil]

/-- A closed socket is not known any more, and closing submits nothing. -/
theorem closeClient_gone {srv : TcpServer} {fd i : Nat}
    (hFd : srv.connectionByFd.lookup fd = some i) :
    (srv.closeClient fd).findConnectionByFd fd = none ∧
      submitted (srv.closeClient fd).log = submitted srv.log := by
  refine ⟨?_, submitted_of_emits (emits_closeClient srv fd (fun _ _ _ _ h => by contradiction)
    (fun _ _ _ _ _ h => by contradiction))⟩
  rw [TcpServer.closeClient, hFd]
  dsimp only
  cases hLookup : srv.connections.lookup i with
  | none =>
      rw [closeConnection_of_none hLookup, TcpServer.findConnectionByFd, hFd]
      simp [TcpServer.findConnection, hLookup]
  | some connection =>
      rw [closeConnection_of_some hLookup, TcpServer.findConnectionByFd]
      dsimp only
      rw [UnorderedMap.lookup_erase]
      split
      · rfl
      · rename_i hSome
        split at hSome
        · contradiction
        · rw [hFd] at hSome
          rw [← Option.some.inj hSome]
          simp [TcpServer.findConnection]

section Read

variable {i : Nat} {connection : ConnectionState} {out : RecvPacketResult × Bytes}

/-- An invalid header, or a rest that is too long, closes the connection, and what has
been decoded is dropped. -/
theorem handleClientRead_drops (hFind : srv.findConnectionByFd fd = some (i, connection))
    (hOpen : connection.closing = false)
    (hOut : recvPacketsEt io.script connection.readBuffer kMaxPacketPayloadSize = out)
    (hBad : out.1.status = .protocolError ∨ out.2.length > config.maxReadBufferBytes) :
    (srv.handleClientRead config fd io).findConnectionByFd fd = none ∧
      submitted (srv.handleClientRead config fd io).log = submitted srv.log := by
  rw [TcpServer.handleClientRead, hFind]
  dsimp only
  rw [if_neg (by rw [hOpen]; decide), hOut]
  have hFd : ((srv.setConnection i { connection with readBuffer := out.2 }).emit
      [.recv i fd]).connectionByFd.lookup fd = some i := (findConnectionByFd_eq_some hFind).1
  have hSame : submitted ((srv.setConnection i { connection with readBuffer := out.2 }).emit
      [.recv i fd]).log = submitted srv.log := by
    simp [TcpServer.emit, TcpServer.setConnection, submitted]
  rw [← hSame]
  rcases hBad with hStatus | hLength
  · rw [if_pos (.inr (.inl hStatus))]
    exact closeClient_gone hFd
  · rw [if_pos hLength, ite_self]
    exact closeClient_gone hFd

/-- Otherwise the packets are handed to the thread pool, and the rest is kept. -/
theorem handleClientRead_submits (hFind : srv.findConnectionByFd fd = some (i, connection))
    (hOpen : connection.closing = false) (hTaken : io.enqueued = true)
    (hOut : recvPacketsEt io.script connection.readBuffer kMaxPacketPayloadSize = out)
    (hStatus : out.1.status = decodedStatus out.1.packets)
    (hLength : out.2.length ≤ config.maxReadBufferBytes) :
    (∃ connection',
        (srv.handleClientRead config fd io).findConnectionByFd fd = some (i, connection') ∧
          connection'.closing = false ∧ connection'.readBuffer = out.2) ∧
      submitted (srv.handleClientRead config fd io).log =
        submitted srv.log ++ out.1.payloads := by
  have hGoes : ¬(out.1.status = .closed ∨ out.1.status = .protocolError ∨
      out.1.status = .ioError) := by
    rw [hStatus, decodedStatus]
    split <;> simp
  rw [TcpServer.handleClientRead, hFind]
  dsimp only
  rw [if_neg (by rw [hOpen]; decide), hOut, if_neg hGoes, if_neg (Nat.not_lt.mpr hLength)]
  have hFd := (findConnectionByFd_eq_some hFind).1
  cases hPackets : out.1.packets with
  | nil =>
      rw [if_pos (show List.isEmpty [] = true from rfl)]
      constructor
      · exact ⟨_, findConnectionByFd_setConnection hFd _, hOpen, rfl⟩
      · simp [TcpServer.emit, TcpServer.setConnection, submitted, RecvPacketResult.payloads,
          hPackets]
  | cons packet packets =>
      rw [if_neg (by simp), if_pos hTaken]
      constructor
      · exact ⟨_, @findConnectionByFd_setConnection ((srv.setConnection i
          { connection with readBuffer := out.2 }).emit [.recv i fd]) fd i hFd _, hOpen, rfl⟩
      · simp [TcpServer.emit, TcpServer.setConnection, submitted, RecvPacketResult.payloads,
          hPackets]

end Read

/-- A read event decodes what is buffered and what arrives.  If what is left fits, the
frames are submitted; if not, the connection is closed and they are dropped. -/
theorem read_cases {seen : Bytes} {handed : List Bytes} (h : Reading srv fd seen handed)
    (hEagain : EndsInEagain io.script) (hTaken : io.enqueued = true) :
    ∃ payloads rest, Splits packetFormat (seen ++ received io.script) (handed ++ payloads) rest ∧
      ¬HoldsFrame packetFormat rest ∧
      ((Leaves config rest ∧
          Reading (srv.handleClientRead config fd io) fd (seen ++ received io.script)
            (handed ++ payloads) ∧
          submitted (srv.handleClientRead config fd io).log =
            submitted srv.log ++ payloads) ∨
        (¬Leaves config rest ∧
          (srv.handleClientRead config fd io).findConnectionByFd fd = none ∧
          submitted (srv.handleClientRead config fd io).log = submitted srv.log)) := by
  obtain ⟨i, connection, hFind, hOpen, hSeen, hStop⟩ := h
  obtain ⟨payloads, hDecoded⟩ := recvPacketsEt_decoded connection.readBuffer hEagain
  generalize hOut : recvPacketsEt io.script connection.readBuffer kMaxPacketPayloadSize = out
  rw [hOut] at hDecoded
  have hAll := hSeen.append hDecoded.splits
  have hNone : ¬HoldsFrame packetFormat out.2 := by
    rw [holdsFrame_iff]
    rintro ⟨hFrame, hGood⟩
    rcases hDecoded.stopped with ⟨-, hBad⟩ | ⟨-, -, hNone⟩
    · exact hGood hBad
    · exact hNone hFrame
  refine ⟨payloads, out.2, hAll, hNone, ?_⟩
  by_cases hLength : out.2.length ≤ config.maxReadBufferBytes
  · rcases hDecoded.stopped with ⟨hStatus, hBad⟩ | ⟨hStatus, hGood, -⟩
    · have hLoses : ¬Leaves config out.2 := fun hFits => hFits.1 ((malformed_iff out.2).mpr hBad)
      exact .inr ⟨hLoses, handleClientRead_drops hFind hOpen hOut (.inl hStatus)⟩
    · obtain ⟨⟨connection', hFind', hOpen', hRest⟩, hSubmitted⟩ :=
        handleClientRead_submits hFind hOpen hTaken hOut hStatus hLength
      rw [hDecoded.payloads_eq] at hSubmitted
      rw [← hRest] at hAll hNone
      refine .inl ⟨⟨fun hBad => hGood ((malformed_iff out.2).mp hBad), hLength⟩, ?_, hSubmitted⟩
      exact ⟨i, connection', hFind', hOpen', hAll, hNone⟩
  · have hLoses : ¬Leaves config out.2 := fun hFits => hLength hFits.2
    exact .inr ⟨hLoses, handleClientRead_drops hFind hOpen hOut (.inr (Nat.not_le.mp hLength))⟩

/-- Nothing is read from a socket that is not known. -/
theorem readEvents_gone (hGone : srv.findConnectionByFd fd = none) (ios : List ReadIo) :
    srv.readEvents config fd ios = srv := by
  induction ios with
  | nil => rfl
  | cons io rest ih =>
      have hStep : srv.handleClientRead config fd io = srv := by
        rw [TcpServer.handleClientRead, hGone]
      rw [TcpServer.readEvents, List.foldl_cons, hStep]
      exact ih

/-! ## All read events of a stream -/

/-- Wherever a stream is cut, what the first part leaves fits. -/
def EveryCutLeaves (config : ServerConfig) (stream : Bytes) : Prop :=
  ∀ seen more handed rest, stream = seen ++ more → Splits packetFormat seen handed rest →
    ¬HoldsFrame packetFormat rest → Leaves config rest

/-- Read events submit a part of the frames of the stream, from the first on; they submit
all if nothing that is left on the way is too much.  The induction is on the events; it
stops early when one of them closes the connection. -/
theorem readEvents_submitted {payloads : List Bytes} {rest : Bytes}
    (hStop : ¬HoldsFrame packetFormat rest) (ios : List ReadIo) :
    ∀ (srv : TcpServer) (seen : Bytes) (handed : List Bytes), Reading srv fd seen handed →
      (∀ io ∈ ios, EndsInEagain io.script) → (∀ io ∈ ios, io.enqueued = true) →
      Splits packetFormat (seen ++ (ios.map fun io => received io.script).flatten) payloads rest →
      ∃ more, submitted (srv.readEvents config fd ios).log = submitted srv.log ++ more ∧
        handed ++ more <+: payloads ∧
        (EveryCutLeaves config (seen ++ (ios.map fun io => received io.script).flatten) →
          handed ++ more = payloads) := by
  induction ios with
  | nil =>
      intro srv seen handed hReading _ _ hSplits
      obtain ⟨i, connection, -, -, hSeen, hNone⟩ := hReading
      rw [List.map_nil, List.flatten_nil, List.append_nil] at hSplits
      obtain ⟨hEq, -⟩ := hSeen.unique hNone hSplits hStop
      rw [← hEq]
      exact ⟨[], (List.append_nil _).symm, by simp, fun _ => List.append_nil _⟩
  | cons io ios ih =>
      intro srv seen handed hReading hEagain hTaken hSplits
      obtain ⟨hEagainFirst, hEagainRest⟩ := List.forall_mem_cons.mp hEagain
      obtain ⟨hTakenFirst, hTakenRest⟩ := List.forall_mem_cons.mp hTaken
      rw [List.map_cons, List.flatten_cons, ← List.append_assoc] at hSplits ⊢
      obtain ⟨first, left, hFirst, hNone, hCases⟩ := read_cases hReading hEagainFirst hTakenFirst
      rcases hCases with ⟨-, hReading', hSubmitted⟩ | ⟨hLoses, hGone, hSubmitted⟩
      · obtain ⟨more, hMore, hPrefix, hWhole⟩ :=
          ih _ _ _ hReading' hEagainRest hTakenRest hSplits
        refine ⟨first ++ more, ?_, ?_, ?_⟩
        · rw [TcpServer.readEvents, List.foldl_cons]
          rw [TcpServer.readEvents] at hMore
          rw [hMore, hSubmitted, List.append_assoc]
        · rw [← List.append_assoc]
          exact hPrefix
        · rw [← List.append_assoc]
          exact hWhole
      · obtain ⟨later, hLater, -⟩ := hFirst.extend hSplits hStop
        refine ⟨[], ?_, ?_, fun hLeaves => ?_⟩
        · rw [TcpServer.readEvents, List.foldl_cons]
          have hQuiet := @readEvents_gone config _ _ hGone ios
          rw [TcpServer.readEvents] at hQuiet
          rw [hQuiet, hSubmitted, List.append_nil]
        · rw [List.append_nil, hLater, List.append_assoc]
          exact List.prefix_append _ _
        · exact absurd (hLeaves _ _ _ _ rfl hFirst hNone) hLoses

/-- What every cut of a stream leaves, expressed by its frames: the longest rest of a cut
is a frame without its last byte. -/
theorem everyCutLeaves_iff {stream rest : Bytes} {payloads : List Bytes}
    (h : Splits packetFormat stream payloads rest) (hStop : ¬HoldsFrame packetFormat rest) :
    EveryCutLeaves config stream ↔
      ¬StartsWithInvalidHeader rest ∧ rest.length ≤ config.maxReadBufferBytes ∧
        ∀ p ∈ payloads, kPacketHeaderSize + p.length ≤ config.maxReadBufferBytes + 1 := by
  rw [← malformed_iff]
  constructor
  · intro hLeaves
    have hWhole := hLeaves stream [] payloads rest (List.append_nil _).symm h hStop
    refine ⟨hWhole.1, hWhole.2, fun p hMem => ?_⟩
    -- cut the stream in front of the last byte of the frame
    have hLast : kPacketHeaderSize + p.length - 1 < packetFormat.width + p.length :=
      Nat.sub_lt (Nat.add_pos_left (by decide) _) Nat.one_pos
    obtain ⟨seen, more, before, hStream, hSeen, hNone⟩ := h.cut_frame hMem hLast
    have hFits := (hLeaves seen more before _ hStream hSeen hNone).2
    have hLength : (packetFormat.frame p).length = kPacketHeaderSize + p.length :=
      frame_length (h.valid p hMem)
    rw [List.length_take, hLength] at hFits
    omega
  · rintro ⟨hGood, hRest, hFrames⟩ seen more handed left hStream hSeen hNone
    rw [hStream] at h
    obtain ⟨later, hPayloads, hLater⟩ := hSeen.extend h hStop
    rcases hLater.cut_inside hNone with ⟨p, hMem, hLength, hLeft⟩ | hWhole
    · have hFrame := hFrames p (by rw [hPayloads]; exact List.mem_append_right _ hMem)
      have hLength : left.length < kPacketHeaderSize + p.length := hLength
      exact ⟨hLeft, by omega⟩
    · rw [hWhole] at hGood hRest
      refine ⟨fun hBad => hGood (hBad.append more), ?_⟩
      rw [List.length_append] at hRest
      omega

/-! ## Two cuts of one stream -/

/-- A read event that brings some bytes, one by one. -/
def readOfBytes (bytes : Bytes) : ReadIo where
  script := bytes.map fun byte =>
    .bytes { data := [byte], nonempty := Nat.one_pos, bounded := Nat.succ_le_succ (Nat.zero_le _) }

theorem received_readOfBytes (bytes : Bytes) : received (readOfBytes bytes).script = bytes := by
  induction bytes with
  | nil => rfl
  | cons byte rest ih => exact congrArg (byte :: ·) ih

theorem readOfBytes_eagain (bytes : Bytes) : EndsInEagain (readOfBytes bytes).script := by
  intro outcome hMem
  obtain ⟨byte, -, rfl⟩ := List.mem_map.mp hMem
  exact .inl ⟨_, rfl⟩

/-- Any bytes can be cut anywhere. -/
theorem brings_two (seen more : Bytes) :
    Brings (seen ++ more) [readOfBytes seen, readOfBytes more] where
  eagain := by simp [readOfBytes_eagain]
  taken := by simp [readOfBytes]
  whole := by simp [received_readOfBytes]

/--
**When execution depends on segmentation.**  A stream arrives at a fresh connection in any
number of read events; none fails, and the thread pool takes every batch.  All ways of
cutting it submit the same requests, the payloads of all complete frames in front of the
first invalid header, if and only if

* there is no complete frame in front of an invalid header or of the end, or
* there is no invalid header, what follows the last frame is within the limit of the read
  buffer, and every frame is within that limit up to its last byte.
-/
theorem segmentation_independent (config : ServerConfig) (srv : TcpServer) (fd i : Nat)
    (connection : ConnectionState) (hFind : srv.findConnectionByFd fd = some (i, connection))
    (hOpen : connection.closing = false) (hNew : connection.readBuffer = [])
    (stream rest : Bytes) (payloads : List Bytes)
    (hSplits : Splits packetFormat stream payloads rest)
    (hStop : ¬HoldsFrame packetFormat rest) :
    (∀ ios ios', Brings stream ios → Brings stream ios' →
      submitted (srv.readEvents config fd ios).log =
          submitted (srv.readEvents config fd ios').log ∧
        submitted (srv.readEvents config fd ios).log = submitted srv.log ++ payloads) ↔
      payloads = [] ∨
        (¬StartsWithInvalidHeader rest ∧ rest.length ≤ config.maxReadBufferBytes ∧
          ∀ p ∈ payloads, kPacketHeaderSize + p.length ≤ config.maxReadBufferBytes + 1) := by
  rw [← everyCutLeaves_iff hSplits hStop]
  have hFresh : Reading srv fd [] [] :=
    ⟨i, connection, hFind, hOpen, hNew ▸ Splits.refl _ _, hNew ▸ not_holdsFrame_nil⟩
  have hRun : ∀ ios, Brings stream ios → ∃ more,
      submitted (srv.readEvents config fd ios).log = submitted srv.log ++ more ∧
        more <+: payloads ∧ (EveryCutLeaves config stream → more = payloads) := by
    intro ios hBrings
    have hStream : [] ++ (ios.map fun io => received io.script).flatten = stream := hBrings.whole
    have hEvents := @readEvents_submitted config fd payloads rest hStop ios srv [] [] hFresh
      hBrings.eagain hBrings.taken (hStream ▸ hSplits)
    rw [hStream] at hEvents
    exact hEvents
  constructor
  · intro hSame
    by_cases hPayloads : payloads = []
    · exact .inl hPayloads
    refine .inr fun seen more handed left hStream hSeen hNone => ?_
    by_contra hLoses
    -- a first event that leaves too much submits nothing, and there is no second one
    obtain ⟨first, left', hFirst, hNone', hCases⟩ := @read_cases config srv fd
      (readOfBytes seen) [] [] hFresh (readOfBytes_eagain seen) rfl
    rw [List.nil_append, List.nil_append, received_readOfBytes] at hFirst
    obtain ⟨-, hLeft⟩ := hFirst.unique hNone' hSeen hNone
    rw [hLeft] at hCases
    rcases hCases with ⟨hFits, -⟩ | ⟨-, hGone, hSubmitted⟩
    · exact hLoses hFits
    have hBrings : Brings stream [readOfBytes seen, readOfBytes more] :=
      hStream ▸ brings_two seen more
    have hAll := (hSame _ _ hBrings hBrings).2
    have hQuiet := @readEvents_gone config _ _ hGone [readOfBytes more]
    rw [TcpServer.readEvents, List.foldl_cons, ← TcpServer.readEvents, hQuiet, hSubmitted] at hAll
    exact hPayloads (by simpa using hAll)
  · intro hCondition ios ios' hBrings hBrings'
    have hWhole : ∀ ios, Brings stream ios →
        submitted (srv.readEvents config fd ios).log = submitted srv.log ++ payloads := by
      intro ios hBrings
      obtain ⟨more, hSubmitted, hPrefix, hLeaves⟩ := hRun ios hBrings
      rw [hSubmitted]
      rcases hCondition with hNone | hCuts
      · rw [hNone] at hPrefix ⊢
        rw [List.prefix_nil.mp hPrefix]
      · rw [hLeaves hCuts]
    exact ⟨(hWhole ios hBrings).trans (hWhole ios' hBrings').symm, hWhole ios hBrings⟩

/-! ## A ping and an invalid header -/

/-- The payload of a `ping` request. -/
def pingPayload : Bytes := ascii "\x7b\"type\":\"ping\"\x7d"

/-- A server with one connection, which has just been accepted. -/
def oneConnection : TcpServer :=
  ({ listenFd := 3, wakeFd := 4 } : TcpServer).acceptConnection { fd := 7 }

/-- A ping, cut inside its header, is submitted once. -/
theorem segmentation_independent_ping :
    submitted (oneConnection.readEvents {} 7
      [readOfBytes ((packetFormat.frame pingPayload).take 2),
        readOfBytes ((packetFormat.frame pingPayload).drop 2)]).log = [pingPayload] := by
  have hSplits : Splits packetFormat (packetFormat.frame pingPayload) [pingPayload] [] :=
    { valid := by decide +kernel
      joined := by simp }
  have hSame := (segmentation_independent {} oneConnection 7 1 _ rfl rfl rfl _ [] [pingPayload]
    hSplits not_holdsFrame_nil).mpr (.inr ⟨by simp [StartsWithInvalidHeader, kPacketHeaderSize],
      Nat.zero_le _, by decide +kernel⟩)
  have hBrings := brings_two ((packetFormat.frame pingPayload).take 2)
    ((packetFormat.frame pingPayload).drop 2)
  rw [List.take_append_drop] at hBrings
  exact (hSame _ _ hBrings hBrings).2

/-- A ping and a header of length zero: in one read, the ping is dropped. -/
theorem segmentation_dependent :
    Brings (packetFormat.frame pingPayload ++ [0, 0, 0, 0])
        [readOfBytes (packetFormat.frame pingPayload ++ [0, 0, 0, 0]), readOfBytes []] ∧
      Brings (packetFormat.frame pingPayload ++ [0, 0, 0, 0])
        [readOfBytes (packetFormat.frame pingPayload), readOfBytes [0, 0, 0, 0]] ∧
      submitted (oneConnection.readEvents {} 7
        [readOfBytes (packetFormat.frame pingPayload ++ [0, 0, 0, 0]), readOfBytes []]).log = [] ∧
      submitted (oneConnection.readEvents {} 7
        [readOfBytes (packetFormat.frame pingPayload), readOfBytes [0, 0, 0, 0]]).log =
          [pingPayload] := by
  have hWhole := brings_two (packetFormat.frame pingPayload ++ [0, 0, 0, 0]) []
  rw [List.append_nil] at hWhole
  exact ⟨hWhole, brings_two _ _, by decide +kernel, by decide +kernel⟩

end CppChat.Ports.Network
