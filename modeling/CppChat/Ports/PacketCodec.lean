import Mathlib.Data.List.Induction
import Mathlib.Tactic.ByContra
import CppChat.Verified.Bytes
import CppChat.Verified.Framing

/-!
# The packet codec

A packet is a four-byte network-order length followed by the payload.
`encodePacket` writes one, `recvPacketsEt` drains a non-blocking socket and
decodes every packet that has become complete, and `sendAll` writes as much of
a buffer as the kernel takes.

System calls are scripted.  A call receives the list of results the kernel
returns to it, and the end of the list stands for `EAGAIN`: for `recv` no more
bytes are available, for `send` the socket buffer is full.  Quantifying over
scripts is quantifying over everything the kernel may do.

## Main results

* `decodeLoop_spec`: the decoding loop keeps `Splits` and stops on a malformed
  header or on a remainder without a complete frame.
* `recvPacketsEt_stream`: over any number of reads, nothing is lost,
  duplicated, merged or reordered.
* `sendAll_spec`: what a send reports for every script.
-/

namespace CppChat.Ports.PacketCodec

open CppChat.Verified
open CppChat.Verified.Framing

/-- The length prefix of a packet. -/
def kPacketHeaderSize : Nat := 4

/-- The largest payload, 1 MiB. -/
def kMaxPacketPayloadSize : Nat := 1024 * 1024

/-- What one `recv` asks for. -/
def kReadChunkSize : Nat := 4096

/-- Frame a payload.  Empty payloads and payloads above 1 MiB throw. -/
def encodePacket (payload : Bytes) : Except Bytes Bytes :=
  if payload.isEmpty || decide (payload.length > kMaxPacketPayloadSize) then
    .error (ascii "payload size is invalid")
  else
    .ok (be32 payload.length ++ payload)

/-! ## Receiving -/

/-- The bytes of one successful `recv` into the 4096-byte buffer. -/
structure ReadChunk where
  data : Bytes
  nonempty : 0 < data.length
  bounded : data.length ≤ kReadChunkSize

/-- One `recv` result other than `EAGAIN`. -/
inductive RecvOutcome where
  | bytes (chunk : ReadChunk)
  | closed
  | eintr
  | error (errno : Nat)

/-- A decoded packet. -/
structure Packet where
  payload : Bytes
deriving DecidableEq, Repr

/-- How a call of `recv_packets_et` ends. -/
inductive RecvPacketStatus where
  | ok
  | wouldBlock
  | closed
  | protocolError
  | ioError
deriving DecidableEq, Repr

/-- What `recv_packets_et` returns. -/
structure RecvPacketResult where
  status : RecvPacketStatus := .wouldBlock
  packets : List Packet := []
  errorCode : Nat := 0
deriving DecidableEq, Repr

/-- How the read loop ended: drained down to `EAGAIN`, or the early return it
took. -/
inductive ReadEnd where
  | drained
  | closed
  | failed (errno : Nat)
deriving DecidableEq, Repr

/-- The first loop of `recv_packets_et`: append every chunk to the buffer
until the kernel reports something else than data or `EINTR`. -/
def readLoop : List RecvOutcome → Bytes → ReadEnd × Bytes
  | [], readBuffer => (.drained, readBuffer)
  | .bytes chunk :: rest, readBuffer => readLoop rest (readBuffer ++ chunk.data)
  | .closed :: _, readBuffer => (.closed, readBuffer)
  | .eintr :: rest, readBuffer => readLoop rest readBuffer
  | .error errno :: _, readBuffer => (.failed errno, readBuffer)

/-- The status of a decoding loop that ran to its end. -/
def decodedStatus (packets : List Packet) : RecvPacketStatus :=
  if packets.isEmpty then .wouldBlock else .ok

/-- The second loop of `recv_packets_et`: split complete frames off the front
of the buffer.  Every round removes at least five bytes, so the buffer length
is enough fuel. -/
def decodeLoop (maxPayloadSize : Nat) :
    Nat → Bytes → List Packet → RecvPacketResult × Bytes
  | 0, readBuffer, packets =>
      ({ status := decodedStatus packets, packets := packets }, readBuffer)
  | fuel + 1, readBuffer, packets =>
      if readBuffer.length < kPacketHeaderSize then
        ({ status := decodedStatus packets, packets := packets }, readBuffer)
      else if readBE32 readBuffer = 0 ∨ readBE32 readBuffer > maxPayloadSize then
        ({ status := .protocolError, packets := packets }, readBuffer)
      else if readBuffer.length < kPacketHeaderSize + readBE32 readBuffer then
        ({ status := decodedStatus packets, packets := packets }, readBuffer)
      else
        decodeLoop maxPayloadSize fuel
          (readBuffer.drop (kPacketHeaderSize + readBE32 readBuffer))
          (packets ++
            [⟨(readBuffer.drop kPacketHeaderSize).take (readBE32 readBuffer)⟩])

/-- Drain the socket, then decode.  The buffer keeps the incomplete tail for
the next call. -/
def recvPacketsEt (script : List RecvOutcome) (readBuffer : Bytes)
    (maxPayloadSize : Nat) : RecvPacketResult × Bytes :=
  match readLoop script readBuffer with
  | (.closed, buffer) => ({ status := .closed }, buffer)
  | (.failed errno, buffer) => ({ status := .ioError, errorCode := errno }, buffer)
  | (.drained, buffer) => decodeLoop maxPayloadSize buffer.length buffer []

/-! ## Sending -/

/-- One `send` result other than `EAGAIN`.  The kernel takes at least one byte
of what it is offered, or reports an error. -/
inductive SendOutcome where
  | sent (count : Nat) (pos : 0 < count)
  | eintr
  | error (errno : Nat)

/-- How a call of `send_all` ends. -/
inductive SendStatus where
  | ok
  | wouldBlock
  | ioError
deriving DecidableEq, Repr

/-- What `send_all` returns. -/
structure SendResult where
  status : SendStatus := .ok
  sent : Nat := 0
  errorCode : Nat := 0
deriving DecidableEq, Repr

/-- The loop of `send_all` from `sent` bytes on.  A count is cut to what was
offered, `size - sent` bytes. -/
def sendLoop (size : Nat) : List SendOutcome → Nat → SendResult
  | [], sent =>
      if sent < size then { status := .wouldBlock, sent := sent }
      else { status := .ok, sent := sent }
  | outcome :: rest, sent =>
      if sent < size then
        match outcome with
        | .sent count _ => sendLoop size rest (sent + min count (size - sent))
        | .eintr => sendLoop size rest sent
        | .error errno => { status := .ioError, sent := sent, errorCode := errno }
      else { status := .ok, sent := sent }

/-- Write `size` bytes; the first `sent` of them have been accepted. -/
def sendAll (script : List SendOutcome) (size : Nat) : SendResult :=
  sendLoop size script 0

/-- A send that finishes has written everything; one that would block, or
fails, has left at least one byte. -/
private theorem sendLoop_spec (size : Nat) (script : List SendOutcome) :
    ∀ sent, sent ≤ size →
      ((sendLoop size script sent).status = .ok ∧
          (sendLoop size script sent).sent = size) ∨
        ((sendLoop size script sent).status ≠ .ok ∧
          (sendLoop size script sent).sent < size) := by
  induction script with
  | nil =>
      intro sent hSent
      by_cases hMore : sent < size
      · simp [sendLoop, hMore]
      · simp only [sendLoop, hMore, if_false]
        exact Or.inl ⟨trivial, by omega⟩
  | cons outcome rest ih =>
      intro sent hSent
      by_cases hMore : sent < size
      · cases outcome with
        | sent count pos =>
            simp only [sendLoop, hMore, if_true]
            exact ih _ (by omega)
        | eintr =>
            simp only [sendLoop, hMore, if_true]
            exact ih _ hSent
        | error errno => simp [sendLoop, hMore]
      · simp only [sendLoop, hMore, if_false]
        exact Or.inl ⟨trivial, by omega⟩

/-- Everything is sent, or less and not `ok`. -/
theorem sendAll_spec (script : List SendOutcome) (size : Nat) :
    ((sendAll script size).status = .ok ∧ (sendAll script size).sent = size) ∨
      ((sendAll script size).status ≠ .ok ∧ (sendAll script size).sent < size) :=
  sendLoop_spec size script 0 (Nat.zero_le size)

/-! ## The header format -/

/-- The lengths a packet may have. -/
def validLength (n : Nat) : Bool :=
  decide (0 < n) && decide (n ≤ kMaxPacketPayloadSize)

theorem validLength_iff (n : Nat) :
    validLength n = true ↔ 1 ≤ n ∧ n ≤ kMaxPacketPayloadSize := by
  simp [validLength, Nat.succ_le_iff]

theorem validLength_eq_false_iff (n : Nat) :
    validLength n = false ↔ n = 0 ∨ n > kMaxPacketPayloadSize := by
  rw [← Bool.not_eq_true, validLength_iff]
  omega

private theorem validLength_lt {n : Nat} (h : validLength n = true) : n < 2 ^ 32 := by
  have hLe := ((validLength_iff n).mp h).2
  unfold kMaxPacketPayloadSize at hLe
  omega

/-- The packet header as a framing format. -/
def packetFormat : Format UInt8 where
  width := kPacketHeaderSize
  put := be32
  get := readBE32
  valid := validLength
  width_pos := by decide
  put_length := fun n _ => be32_length n
  get_put := fun _ rest h => readBE32_be32_append (validLength_lt h) rest
  put_get := fun _ h => be32_readBE32 h

/-- Valid payloads are exactly those `encodePacket` frames. -/
theorem encodePacket_eq_ok {payload : Bytes} (h : validLength payload.length = true) :
    encodePacket payload = .ok (packetFormat.frame payload) := by
  obtain ⟨hPos, hLe⟩ := (validLength_iff _).mp h
  have hNil : payload ≠ [] := List.ne_nil_of_length_pos hPos
  rw [encodePacket, if_neg]
  · rfl
  · simp [hNil, hLe]

/-- The payloads that can be framed. -/
theorem encodePacket_isOk_iff (payload : Bytes) :
    (∃ packet, encodePacket payload = .ok packet) ↔
      1 ≤ payload.length ∧ payload.length ≤ kMaxPacketPayloadSize := by
  rw [← validLength_iff]
  constructor
  · rintro ⟨packet, hOk⟩
    by_contra hInvalid
    rw [Bool.not_eq_true, validLength_eq_false_iff] at hInvalid
    rw [encodePacket, if_pos] at hOk
    · contradiction
    · rcases hInvalid with hZero | hBig
      · simp [List.eq_nil_of_length_eq_zero hZero]
      · simp [hBig]
  · intro h
    exact ⟨_, encodePacket_eq_ok h⟩

/-- Several packets, one behind the other. -/
theorem mapM_encodePacket {payloads : List Bytes}
    (h : ∀ p ∈ payloads, validLength p.length = true) :
    payloads.mapM encodePacket = .ok (payloads.map packetFormat.frame) := by
  induction payloads with
  | nil => rfl
  | cons p ps ih =>
      rw [List.mapM_cons, encodePacket_eq_ok (h p (by simp)),
        ih fun q hq => h q (by simp [hq])]
      rfl

/-- `buffer` starts with a header of length `0` or above the payload limit. -/
def StartsWithInvalidHeader (buffer : Bytes) : Prop :=
  kPacketHeaderSize ≤ buffer.length ∧
    (readBE32 buffer = 0 ∨ readBE32 buffer > kMaxPacketPayloadSize)

/-- `buffer` starts with a header and at least the payload it announces. -/
def HoldsCompleteFrame (buffer : Bytes) : Prop :=
  kPacketHeaderSize ≤ buffer.length ∧
    kPacketHeaderSize + readBE32 buffer ≤ buffer.length

theorem malformed_iff (buffer : Bytes) :
    Malformed packetFormat buffer ↔ StartsWithInvalidHeader buffer := by
  unfold Malformed StartsWithInvalidHeader
  exact and_congr_right fun _ => validLength_eq_false_iff (readBE32 buffer)

/-- The two ways to say that there is a packet to decode. -/
theorem holdsFrame_iff (buffer : Bytes) :
    HoldsFrame packetFormat buffer ↔
      HoldsCompleteFrame buffer ∧ ¬StartsWithInvalidHeader buffer := by
  constructor
  · intro h
    exact ⟨⟨h.1, h.2.2⟩, fun hBad => h.not_malformed ((malformed_iff buffer).mpr hBad)⟩
  · rintro ⟨⟨hHeader, hLen⟩, hGood⟩
    refine ⟨hHeader, ?_, hLen⟩
    by_contra hInvalid
    exact hGood ((malformed_iff buffer).mp ⟨hHeader, by simpa using hInvalid⟩)

/-! ## The decoding loop -/

/-- What a decoding loop leaves behind: the packets it appended account for
the buffer it started from, and it stopped either on an invalid header, or
with neither an invalid header nor a complete frame at the front. -/
structure Decoded (buffer : Bytes) (packets : List Packet)
    (out : RecvPacketResult × Bytes) (payloads : List Bytes) : Prop where
  packets : out.1.packets = packets ++ payloads.map Packet.mk
  splits : Splits packetFormat buffer payloads out.2
  stopped : (out.1.status = .protocolError ∧ StartsWithInvalidHeader out.2) ∨
    (out.1.status = decodedStatus out.1.packets ∧
      ¬StartsWithInvalidHeader out.2 ∧ ¬HoldsCompleteFrame out.2)

private theorem decoded_short {buffer : Bytes} (packets : List Packet)
    (h : ¬kPacketHeaderSize ≤ buffer.length) :
    Decoded buffer packets
      ({ status := decodedStatus packets, packets := packets }, buffer) [] where
  packets := by simp
  splits := Splits.refl _ _
  stopped := Or.inr ⟨rfl, fun hBad => h hBad.1, fun hFrame => h hFrame.1⟩

/-- One round of the loop splits a frame off; the rest is the induction
hypothesis on the shorter buffer. -/
theorem decodeLoop_spec (fuel : Nat) :
    ∀ (buffer : Bytes) (packets : List Packet), buffer.length ≤ fuel →
      ∃ payloads, Decoded buffer packets
        (decodeLoop kMaxPacketPayloadSize fuel buffer packets) payloads := by
  induction fuel with
  | zero =>
      intro buffer packets hFuel
      refine ⟨[], decoded_short packets ?_⟩
      unfold kPacketHeaderSize
      omega
  | succ fuel ih =>
      intro buffer packets hFuel
      rw [decodeLoop]
      by_cases hShort : buffer.length < kPacketHeaderSize
      · rw [if_pos hShort]
        exact ⟨[], decoded_short packets (by omega)⟩
      rw [if_neg hShort]
      have hHeader : kPacketHeaderSize ≤ buffer.length := by omega
      by_cases hBad : readBE32 buffer = 0 ∨ readBE32 buffer > kMaxPacketPayloadSize
      · rw [if_pos hBad]
        exact ⟨[], by simp, Splits.refl _ _, Or.inl ⟨rfl, hHeader, hBad⟩⟩
      rw [if_neg hBad]
      by_cases hPart : buffer.length < kPacketHeaderSize + readBE32 buffer
      · rw [if_pos hPart]
        refine ⟨[], by simp, Splits.refl _ _, Or.inr ⟨rfl, fun h => hBad h.2, ?_⟩⟩
        exact fun h => absurd h.2 (Nat.not_le.mpr hPart)
      rw [if_neg hPart]
      have hFrame : HoldsFrame packetFormat buffer := by
        rw [holdsFrame_iff]
        exact ⟨⟨hHeader, by omega⟩, fun h => hBad h.2⟩
      obtain ⟨payloads, hRest⟩ := ih
        (buffer.drop (kPacketHeaderSize + readBE32 buffer))
        (packets ++ [⟨(buffer.drop kPacketHeaderSize).take (readBE32 buffer)⟩])
        (by rw [List.length_drop]; unfold kPacketHeaderSize; omega)
      refine ⟨(buffer.drop kPacketHeaderSize).take (readBE32 buffer) :: payloads,
        ?_, Splits.cons hFrame hRest.splits, hRest.stopped⟩
      rw [hRest.packets]
      simp

/-- A loop that did not stop on an invalid header leaves less than a whole frame. -/
theorem Decoded.length_lt {buffer : Bytes} {packets : List Packet}
    {out : RecvPacketResult × Bytes} {payloads : List Bytes}
    (h : Decoded buffer packets out payloads) (hStatus : out.1.status ≠ .protocolError) :
    out.2.length < kPacketHeaderSize + kMaxPacketPayloadSize := by
  rcases h.stopped with ⟨hError, -⟩ | ⟨-, hGood, hNone⟩
  · exact absurd hError hStatus
  by_cases hHeader : kPacketHeaderSize ≤ out.2.length
  · have hLength : readBE32 out.2 ≤ kMaxPacketPayloadSize :=
      Nat.not_lt.mp fun hBig => hGood ⟨hHeader, .inr hBig⟩
    have hPart : out.2.length < kPacketHeaderSize + readBE32 out.2 :=
      Nat.not_le.mp fun hFrame => hNone ⟨hHeader, hFrame⟩
    omega
  · omega

/-- The same of a whole call: it either ends the connection, or leaves less than a whole
frame. -/
theorem recvPacketsEt_length_lt {script : List RecvOutcome} {buffer : Bytes}
    (hStatus : ¬((recvPacketsEt script buffer kMaxPacketPayloadSize).1.status = .closed ∨
      (recvPacketsEt script buffer kMaxPacketPayloadSize).1.status = .protocolError ∨
      (recvPacketsEt script buffer kMaxPacketPayloadSize).1.status = .ioError)) :
    (recvPacketsEt script buffer kMaxPacketPayloadSize).2.length <
      kPacketHeaderSize + kMaxPacketPayloadSize := by
  unfold recvPacketsEt at hStatus ⊢
  split at hStatus
  · exact absurd (.inl rfl) hStatus
  · exact absurd (.inr (.inr rfl)) hStatus
  · rename_i drained hLoop
    obtain ⟨payloads, hDecoded⟩ := decodeLoop_spec drained.length drained [] (Nat.le_refl _)
    exact hDecoded.length_lt fun hError => hStatus (.inr (.inl hError))

/-! ## Reading a stream in several calls -/

/-- The script of a call that ends in `EAGAIN`: data and interrupts only. -/
def EndsInEagain (script : List RecvOutcome) : Prop :=
  ∀ outcome ∈ script, (∃ chunk, outcome = .bytes chunk) ∨ outcome = .eintr

/-- The bytes a call takes from the socket. -/
def received : List RecvOutcome → Bytes
  | [] => []
  | .bytes chunk :: rest => chunk.data ++ received rest
  | _ :: rest => received rest

/-- What has come out of a connection so far: the result of every call, and
the buffer carried between calls. -/
structure Reader where
  results : List RecvPacketResult := []
  readBuffer : Bytes := []

/-- One more call of `recv_packets_et` on the connection's buffer. -/
def Reader.call (reader : Reader) (script : List RecvOutcome) : Reader :=
  let out := recvPacketsEt script reader.readBuffer kMaxPacketPayloadSize
  { results := reader.results ++ [out.1], readBuffer := out.2 }

/-- Several calls of `recv_packets_et` on one connection. -/
def readAll (scripts : List (List RecvOutcome)) : Reader :=
  scripts.foldl Reader.call {}

/-- The payloads a call has decoded. -/
def RecvPacketResult.payloads (result : RecvPacketResult) : List Bytes :=
  result.packets.map Packet.payload

/-- All payloads returned so far, in the order they were returned. -/
def Reader.payloads (reader : Reader) : List Bytes :=
  reader.results.flatMap RecvPacketResult.payloads

/-- A script that ends in `EAGAIN` is read to its end. -/
theorem readLoop_of_endsInEagain (script : List RecvOutcome) :
    ∀ buffer, EndsInEagain script →
      readLoop script buffer = (.drained, buffer ++ received script) := by
  induction script with
  | nil => intro buffer _; simp [readLoop, received]
  | cons outcome rest ih =>
      intro buffer hScript
      have hRest : EndsInEagain rest := fun o ho => hScript o (by simp [ho])
      rcases hScript outcome (by simp) with ⟨chunk, rfl⟩ | rfl
      · rw [readLoop, ih _ hRest, received, List.append_assoc]
      · simp [readLoop, ih _ hRest, received]

/-- A call that ends in `EAGAIN` decodes the carried buffer extended by what
it received. -/
theorem recvPacketsEt_decoded {script : List RecvOutcome} (buffer : Bytes)
    (hScript : EndsInEagain script) :
    ∃ payloads, Decoded (buffer ++ received script) []
      (recvPacketsEt script buffer kMaxPacketPayloadSize) payloads := by
  rw [recvPacketsEt, readLoop_of_endsInEagain script buffer hScript]
  exact decodeLoop_spec _ _ [] (Nat.le_refl _)

theorem Decoded.payloads_eq {buffer : Bytes} {out : RecvPacketResult × Bytes}
    {payloads : List Bytes} (h : Decoded buffer [] out payloads) :
    out.1.payloads = payloads := by
  rw [RecvPacketResult.payloads, h.packets, List.nil_append, List.map_map]
  exact List.map_id payloads

/-- The status is `ProtocolError` exactly on an invalid header. -/
theorem Decoded.protocolError_iff {buffer : Bytes} {packets : List Packet}
    {out : RecvPacketResult × Bytes} {payloads : List Bytes}
    (h : Decoded buffer packets out payloads) :
    out.1.status = .protocolError ↔ StartsWithInvalidHeader out.2 := by
  rcases h.stopped with ⟨hStatus, hBad⟩ | ⟨hStatus, hGood, _⟩
  · exact ⟨fun _ => hBad, fun _ => hStatus⟩
  · refine ⟨fun hError => ?_, fun hBad => absurd hBad hGood⟩
    rw [hError, decodedStatus] at hStatus
    split at hStatus <;> contradiction

theorem Reader.payloads_call (reader : Reader) (script : List RecvOutcome) :
    (reader.call script).payloads = reader.payloads ++
      (recvPacketsEt script reader.readBuffer kMaxPacketPayloadSize).1.payloads := by
  simp [Reader.payloads, Reader.call]

/-- The step of the stream invariant: a call extends the account of all bytes
received so far. -/
theorem Reader.call_splits {reader : Reader} {stream : Bytes}
    {script : List RecvOutcome} (hScript : EndsInEagain script)
    (h : Splits packetFormat stream reader.payloads reader.readBuffer) :
    Splits packetFormat (stream ++ received script)
      (reader.call script).payloads (reader.call script).readBuffer := by
  obtain ⟨payloads, hCall⟩ := recvPacketsEt_decoded reader.readBuffer hScript
  rw [Reader.payloads_call, hCall.payloads_eq]
  exact h.append hCall.splits

/-- One more call. -/
theorem readAll_append (scripts : List (List RecvOutcome)) (script : List RecvOutcome) :
    readAll (scripts ++ [script]) = (readAll scripts).call script := by
  simp [readAll]

/-- Over any number of calls, the payloads returned and the carried buffer
account for every byte received. -/
theorem readAll_splits (scripts : List (List RecvOutcome))
    (hScripts : ∀ script ∈ scripts, EndsInEagain script) :
    Splits packetFormat (scripts.map received).flatten
      (readAll scripts).payloads (readAll scripts).readBuffer := by
  induction scripts using List.reverseRecOn with
  | nil => exact Splits.refl _ _
  | append_singleton scripts script ih =>
      rw [readAll_append, List.map_append, List.flatten_append]
      have hScript := hScripts script (by simp)
      simpa using Reader.call_splits hScript
        (ih fun s hs => hScripts s (by simp [hs]))

/-- After the last call the buffer holds no valid frame: either the loop ran
dry, or it stopped on an invalid header. -/
theorem readAll_not_holdsFrame (scripts : List (List RecvOutcome))
    (hScripts : ∀ script ∈ scripts, EndsInEagain script) :
    ¬HoldsFrame packetFormat (readAll scripts).readBuffer := by
  induction scripts using List.reverseRecOn with
  | nil => exact not_holdsFrame_nil
  | append_singleton scripts script _ =>
      rw [readAll_append]
      obtain ⟨_, hCall⟩ := recvPacketsEt_decoded (readAll scripts).readBuffer
        (hScripts script (by simp))
      rw [holdsFrame_iff]
      rintro ⟨hFrame, hGood⟩
      rcases hCall.stopped with ⟨_, hBad⟩ | ⟨_, _, hNone⟩
      · exact hGood hBad
      · exact hNone hFrame

/--
**Framing is transparent to fragmentation.**  For calls that each end in
`EAGAIN`, whatever the chunks and interrupts in them:

* the frames of all payloads returned so far, followed by the buffer, are the
  bytes received so far;
* the last call reports `ProtocolError` exactly when the buffer it leaves
  starts with an invalid header, and otherwise leaves no complete frame;
* a stream that is the frames of valid payloads yields exactly these payloads.
-/
theorem recvPacketsEt_stream (scripts : List (List RecvOutcome))
    (hScripts : ∀ script ∈ scripts, EndsInEagain script) :
    (∃ frames, (readAll scripts).payloads.mapM encodePacket = .ok frames ∧
      frames.flatten ++ (readAll scripts).readBuffer =
        (scripts.map received).flatten) ∧
    (∀ result, (readAll scripts).results.getLast? = some result →
      (result.status = .protocolError ↔
        StartsWithInvalidHeader (readAll scripts).readBuffer) ∧
      (result.status ≠ .protocolError →
        ¬HoldsCompleteFrame (readAll scripts).readBuffer)) ∧
    (∀ payloads frames : List Bytes,
      (∀ p ∈ payloads, 1 ≤ p.length ∧ p.length ≤ kMaxPacketPayloadSize) →
      payloads.mapM encodePacket = .ok frames →
      (scripts.map received).flatten = frames.flatten →
      (readAll scripts).payloads = payloads ∧ (readAll scripts).readBuffer = []) := by
  have hSplits := readAll_splits scripts hScripts
  refine ⟨⟨_, mapM_encodePacket hSplits.valid, hSplits.joined⟩, ?_, ?_⟩
  · intro result hLast
    -- A last result exists only after a call; split that call off the run.
    rcases List.eq_nil_or_concat scripts with rfl | ⟨earlier, script, rfl⟩
    · simp [readAll] at hLast
    rw [List.concat_eq_append] at hLast hScripts ⊢
    rw [readAll_append] at hLast ⊢
    obtain ⟨_, hCall⟩ := recvPacketsEt_decoded (readAll earlier).readBuffer
      (hScripts script (by simp))
    have hResult : (recvPacketsEt script (readAll earlier).readBuffer
        kMaxPacketPayloadSize).1 = result := by
      simpa [Reader.call] using hLast
    rw [← hResult]
    refine ⟨hCall.protocolError_iff, fun hStatus => ?_⟩
    rcases hCall.stopped with ⟨hError, _⟩ | ⟨_, _, hNone⟩
    · exact absurd hError hStatus
    · exact hNone
  · intro payloads frames hValid hFrames hStream
    have hValid' : ∀ p ∈ payloads, validLength p.length = true :=
      fun p hp => (validLength_iff _).mpr (hValid p hp)
    rw [mapM_encodePacket hValid'] at hFrames
    injection hFrames with hFrames
    have hSent : Splits packetFormat (scripts.map received).flatten payloads [] :=
      { valid := hValid', joined := by rw [List.append_nil, hStream, hFrames] }
    exact hSplits.unique (readAll_not_holdsFrame scripts hScripts) hSent
      not_holdsFrame_nil

/-- Two one-byte packets, cut inside the first header and interrupted once. -/
def splitHeaderScripts : List (List RecvOutcome) :=
  [[.bytes ⟨[0, 0], by decide, by decide⟩],
    [.eintr, .bytes ⟨[0, 1, 65, 0, 0, 0, 1, 66], by decide, by decide⟩]]

theorem splitHeaderScripts_endsInEagain :
    ∀ script ∈ splitHeaderScripts, EndsInEagain script := by
  simp [splitHeaderScripts, EndsInEagain]

theorem recvPacketsEt_stream_splitHeader :
    (∀ script ∈ splitHeaderScripts, EndsInEagain script) ∧
      (readAll splitHeaderScripts).payloads = [[65], [66]] ∧
      (readAll splitHeaderScripts).readBuffer = [] := by
  have hStream := (recvPacketsEt_stream splitHeaderScripts
    splitHeaderScripts_endsInEagain).2.2
  refine ⟨splitHeaderScripts_endsInEagain, ?_⟩
  exact hStream [[65], [66]] [[0, 0, 0, 1, 65], [0, 0, 0, 1, 66]]
    (by decide) (by rfl) (by rfl)

end CppChat.Ports.PacketCodec
