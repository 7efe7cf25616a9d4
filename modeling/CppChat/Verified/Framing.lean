/-!
# Length-prefixed framing

A stream of frames, each a fixed-width header that carries the length of the
payload behind it, arrives in pieces of any size.  This module supplies the
decoder-independent facts: what it means that a list of payloads and a
remainder account for every symbol received, when a remainder can still be
decoded, and that at most one account has a remainder that cannot.

A decoder is then correct as soon as it keeps `Splits` and stops only on a
remainder that does not hold a frame; the uniqueness theorem turns that into
"the payloads that were sent, in order".

## Main results

* `Splits.append` composes the accounts of two consecutive reads.
* `Splits.cons` is one decoding step.
* `Splits.unique`: a stream has one account whose remainder holds no frame.
* `Splits.extend`: the account of a longer stream continues the one of its beginning.
* `Splits.cut_frame`, `Splits.cut_inside`: a stream can be cut inside each of its frames, and
  what a cut leaves is the beginning of a frame or of the remainder.
* `Splits.prefix_of_frames`: what has been read of the frames of a list begins the list.
* `Behind.initial`: a reader is never ahead of a writer that still owes it something.
-/

namespace CppChat.Verified.Framing

/-- A header format: `put` writes a length into `width` symbols, `get` reads
it back, and `valid` says which lengths a frame may have. -/
structure Format (β : Type) where
  width : Nat
  put : Nat → List β
  get : List β → Nat
  valid : Nat → Bool
  width_pos : 0 < width
  put_length : ∀ n, valid n = true → (put n).length = width
  get_put : ∀ n rest, valid n = true → get (put n ++ rest) = n
  put_get : ∀ buf, width ≤ buf.length → put (get buf) = buf.take width

variable {β : Type} {F : Format β}

/-- The frame of a payload: its length header followed by the payload. -/
def Format.frame (F : Format β) (payload : List β) : List β :=
  F.put payload.length ++ payload

/-- `payloads`, framed in order, followed by `rest` are exactly `stream`. -/
structure Splits (F : Format β) (stream : List β) (payloads : List (List β))
    (rest : List β) : Prop where
  valid : ∀ p ∈ payloads, F.valid p.length = true
  joined : (payloads.map F.frame).flatten ++ rest = stream

/-- The buffer starts with a complete header that no frame may carry. -/
def Malformed (F : Format β) (buf : List β) : Prop :=
  F.width ≤ buf.length ∧ F.valid (F.get buf) = false

/-- The buffer starts with a complete, valid frame. -/
def HoldsFrame (F : Format β) (buf : List β) : Prop :=
  F.width ≤ buf.length ∧ F.valid (F.get buf) = true ∧
    F.width + F.get buf ≤ buf.length

theorem HoldsFrame.not_malformed {buf : List β} (h : HoldsFrame F buf) :
    ¬Malformed F buf := by
  rintro ⟨_, hBad⟩
  rw [h.2.1] at hBad
  contradiction

theorem not_holdsFrame_nil : ¬HoldsFrame F [] := by
  rintro ⟨hWidth, _⟩
  have := F.width_pos
  simp at hWidth
  omega

/-- A framed payload at the front of a buffer is a complete frame of that
payload's length. -/
theorem get_frame_append {p : List β} (hp : F.valid p.length = true)
    (rest : List β) : F.get (F.frame p ++ rest) = p.length := by
  rw [Format.frame, List.append_assoc]
  exact F.get_put p.length (p ++ rest) hp

theorem frame_length {p : List β} (hp : F.valid p.length = true) :
    (F.frame p).length = F.width + p.length := by
  rw [Format.frame, List.length_append, F.put_length _ hp]

theorem holdsFrame_frame_append {p : List β} (hp : F.valid p.length = true)
    (rest : List β) : HoldsFrame F (F.frame p ++ rest) := by
  have hLen := frame_length hp
  have hGet := get_frame_append hp rest
  refine ⟨?_, ?_, ?_⟩
  · rw [List.length_append]; omega
  · rw [hGet]; exact hp
  · rw [hGet, List.length_append]; omega

/-- Frames are self-delimiting: equal streams that start with a frame start
with the same frame. -/
theorem frame_append_cancel {p q r r' : List β} (hp : F.valid p.length = true)
    (hq : F.valid q.length = true) (h : F.frame p ++ r = F.frame q ++ r') :
    p = q ∧ r = r' := by
  have hLen : p.length = q.length := by
    rw [← get_frame_append hp r, h, get_frame_append hq r']
  have hFrames : (F.frame p).length = (F.frame q).length := by
    rw [frame_length hp, frame_length hq, hLen]
  obtain ⟨hFrame, hRest⟩ := List.append_inj h hFrames
  refine ⟨?_, hRest⟩
  rw [Format.frame, Format.frame, hLen] at hFrame
  exact List.append_cancel_left hFrame

/-! ## Accounts of a stream -/

theorem Splits.refl (F : Format β) (buf : List β) : Splits F buf [] buf :=
  { valid := by simp
    joined := by simp }

/-- Two consecutive reads: the remainder of the first, extended by what
arrived, is the stream of the second. -/
theorem Splits.append {s more rest rest' : List β} {ps qs : List (List β)}
    (h : Splits F s ps rest) (h' : Splits F (rest ++ more) qs rest') :
    Splits F (s ++ more) (ps ++ qs) rest' where
  valid := by
    intro p hp
    rcases List.mem_append.mp hp with hp | hp
    · exact h.valid p hp
    · exact h'.valid p hp
  joined := by
    rw [List.map_append, List.flatten_append, List.append_assoc, h'.joined,
      ← List.append_assoc, h.joined]

/-- One decoding step: the frame at the front is split off. -/
theorem Splits.cons {buf rest : List β} {ps : List (List β)}
    (hFrame : HoldsFrame F buf)
    (h : Splits F (buf.drop (F.width + F.get buf)) ps rest) :
    Splits F buf ((buf.drop F.width).take (F.get buf) :: ps) rest where
  valid := by
    obtain ⟨hWidth, hValid, hLen⟩ := hFrame
    intro p hp
    rcases List.mem_cons.mp hp with rfl | hp
    · rw [List.length_take, List.length_drop, Nat.min_eq_left (by omega)]
      exact hValid
    · exact h.valid p hp
  joined := by
    obtain ⟨hWidth, hValid, hLen⟩ := hFrame
    have hPayload : ((buf.drop F.width).take (F.get buf)).length = F.get buf := by
      rw [List.length_take, List.length_drop]; omega
    rw [List.map_cons, List.flatten_cons, List.append_assoc, h.joined,
      Format.frame, hPayload, F.put_get buf hWidth, List.append_assoc,
      ← List.drop_drop, List.take_append_drop, List.take_append_drop]

/-- The account of a stream is unique once its remainder holds no complete
frame.  The induction follows the shorter list of payloads: two frames at the
front of the same stream are equal, and a frame cannot be a remainder. -/
theorem Splits.unique {s rest rest' : List β} {ps qs : List (List β)}
    (h : Splits F s ps rest) (hStop : ¬HoldsFrame F rest)
    (h' : Splits F s qs rest') (hStop' : ¬HoldsFrame F rest') :
    ps = qs ∧ rest = rest' := by
  induction ps generalizing s qs with
  | nil =>
      cases qs with
      | nil => exact ⟨rfl, by simpa using h.joined.trans h'.joined.symm⟩
      | cons q qs =>
          have hRest : rest = F.frame q ++ ((qs.map F.frame).flatten ++ rest') := by
            simpa using h.joined.trans h'.joined.symm
          rw [hRest] at hStop
          exact absurd (holdsFrame_frame_append (h'.valid q (by simp)) _) hStop
  | cons p ps ih =>
      have hp := h.valid p (by simp)
      have hs : s = F.frame p ++ ((ps.map F.frame).flatten ++ rest) := by
        simpa using h.joined.symm
      cases qs with
      | nil =>
          have hRest : rest' = s := by simpa using h'.joined
          rw [hRest, hs] at hStop'
          exact absurd (holdsFrame_frame_append hp _) hStop'
      | cons q qs =>
          have hq := h'.valid q (by simp)
          have hJoin : F.frame p ++ ((ps.map F.frame).flatten ++ rest) =
              F.frame q ++ ((qs.map F.frame).flatten ++ rest') := by
            simpa using h.joined.trans h'.joined.symm
          obtain ⟨hpq, hTail⟩ := frame_append_cancel hp hq hJoin
          have hLeft : Splits F ((ps.map F.frame).flatten ++ rest) ps rest :=
            { valid := fun x hx => h.valid x (by simp [hx]), joined := rfl }
          have hRight : Splits F ((ps.map F.frame).flatten ++ rest) qs rest' :=
            { valid := fun x hx => h'.valid x (by simp [hx])
              joined := hTail.symm }
          obtain ⟨hps, hrest⟩ := ih hLeft hRight
          exact ⟨by rw [hpq, hps], hrest⟩

/-! ## Cutting a stream -/

/-- A valid length that has been written is read back. -/
theorem get_of_prefix {buf rest : List β} {n : Nat} (hn : F.valid n = true)
    (hBuf : buf = F.put n ++ rest) : F.get buf = n := by
  rw [hBuf]
  exact F.get_put n rest hn

/-- A complete header does not change when more arrives. -/
theorem get_append {buf more : List β} (hWidth : F.width ≤ buf.length)
    (hValid : F.valid (F.get (buf ++ more)) = true) : F.get buf = F.get (buf ++ more) := by
  have hPut : F.put (F.get (buf ++ more)) = buf.take F.width := by
    rw [F.put_get _ (by rw [List.length_append]; omega), List.take_append_of_le_length hWidth]
  have hBuf : buf = F.put (F.get (buf ++ more)) ++ buf.drop F.width := by
    rw [hPut, List.take_append_drop]
  exact get_of_prefix hValid hBuf

theorem HoldsFrame.append {buf : List β} (h : HoldsFrame F buf) (more : List β) :
    F.get (buf ++ more) = F.get buf ∧ HoldsFrame F (buf ++ more) := by
  obtain ⟨hWidth, hValid, hLen⟩ := h
  have hGet : F.get (buf ++ more) = F.get buf := by
    have hBuf : buf ++ more = F.put (F.get buf) ++ (buf.drop F.width ++ more) := by
      rw [F.put_get _ hWidth, ← List.append_assoc, List.take_append_drop]
    exact get_of_prefix hValid hBuf
  refine ⟨hGet, ?_, ?_, ?_⟩
  · rw [List.length_append]; omega
  · rw [hGet]; exact hValid
  · rw [hGet, List.length_append]; omega

theorem Malformed.append {buf : List β} (h : Malformed F buf) (more : List β) :
    Malformed F (buf ++ more) := by
  obtain ⟨hWidth, hInvalid⟩ := h
  refine ⟨by rw [List.length_append]; omega, ?_⟩
  cases hValid : F.valid (F.get (buf ++ more)) with
  | false => rfl
  | true =>
      rw [get_append hWidth hValid, hValid] at hInvalid
      contradiction

/-- Every stream has an account.  The induction is on the length of what is left: a
frame at the front is split off. -/
theorem exists_splits (F : Format β) (buf : List β) :
    ∃ ps rest, Splits F buf ps rest ∧ ¬HoldsFrame F rest := by
  induction hLen : buf.length using Nat.strongRecOn generalizing buf with
  | ind n ih =>
      by_cases hFrame : HoldsFrame F buf
      · have hShorter : (buf.drop (F.width + F.get buf)).length < n := by
          have hWidth := F.width_pos
          have hFits := hFrame.2.2
          rw [List.length_drop]
          omega
        obtain ⟨ps, rest, hRest, hStop⟩ := ih _ hShorter _ rfl
        exact ⟨_, rest, Splits.cons hFrame hRest, hStop⟩
      · exact ⟨[], buf, Splits.refl F buf, hFrame⟩

/-- The account of a longer stream continues the one of its beginning. -/
theorem Splits.extend {s more rest rest' : List β} {ps qs : List (List β)}
    (h : Splits F s ps rest) (h' : Splits F (s ++ more) qs rest')
    (hStop' : ¬HoldsFrame F rest') :
    ∃ qs', qs = ps ++ qs' ∧ Splits F (rest ++ more) qs' rest' := by
  obtain ⟨qs', rest'', hMore, hStop''⟩ := exists_splits F (rest ++ more)
  obtain ⟨hPayloads, hRest⟩ := h'.unique hStop' (h.append hMore) hStop''
  exact ⟨qs', hPayloads, hRest ▸ hMore⟩

/-- Less than a frame does not hold one. -/
theorem not_holdsFrame_of_append {p buf more rest : List β} (hp : F.valid p.length = true)
    (hJoin : buf ++ more = F.frame p ++ rest) (hShort : buf.length < F.width + p.length) :
    ¬HoldsFrame F buf := by
  intro hFrame
  have hGet := (hFrame.append more).1
  have hFits := hFrame.2.2
  rw [hJoin, get_frame_append hp] at hGet
  omega

/-- A stream can be cut inside each of its frames. -/
theorem Splits.cut_frame {s rest p : List β} {ps : List (List β)} (h : Splits F s ps rest)
    (hMem : p ∈ ps) {n : Nat} (hn : n < F.width + p.length) :
    ∃ seen more before, s = seen ++ more ∧ Splits F seen before ((F.frame p).take n) ∧
      ¬HoldsFrame F ((F.frame p).take n) := by
  have hp := h.valid p hMem
  obtain ⟨before, after, hPayloads⟩ := List.append_of_mem hMem
  have hJoin := List.take_append_drop n (F.frame p)
  refine ⟨(before.map F.frame).flatten ++ (F.frame p).take n,
    (F.frame p).drop n ++ ((after.map F.frame).flatten ++ rest), before, ?_, ?_, ?_⟩
  · rw [List.append_assoc, ← List.append_assoc (List.take n _), hJoin, ← h.joined, hPayloads]
    simp
  · exact
      { valid := fun q hq => h.valid q (by rw [hPayloads]; exact List.mem_append_left _ hq)
        joined := rfl }
  · apply not_holdsFrame_of_append hp (hJoin.trans (List.append_nil _).symm)
    rw [List.length_take]
    omega

/-- What is left of the beginning of a stream is cut from a frame, or from what is
left of the whole stream. -/
theorem Splits.cut_inside {buf more rest : List β} {ps : List (List β)}
    (h : Splits F (buf ++ more) ps rest) (hStop : ¬HoldsFrame F buf) :
    (∃ p ∈ ps, buf.length < F.width + p.length ∧ ¬Malformed F buf) ∨ rest = buf ++ more := by
  cases ps with
  | nil => exact .inr (by simpa using h.joined)
  | cons p ps =>
      have hp := h.valid p (by simp)
      have hJoin : F.frame p ++ ((ps.map F.frame).flatten ++ rest) = buf ++ more := by
        simpa using h.joined
      have hWhole : HoldsFrame F (buf ++ more) := by
        rw [← hJoin]
        exact holdsFrame_frame_append hp _
      refine .inl ⟨p, by simp, ?_, fun hBad => hWhole.not_malformed (hBad.append more)⟩
      apply Nat.lt_of_not_le
      intro hLong
      -- a buffer as long as the frame starts with it
      have hFront : F.frame p <+: buf := by
        apply List.prefix_of_prefix_length_le ⟨_, hJoin⟩ (List.prefix_append buf more)
        rw [frame_length hp]
        exact hLong
      obtain ⟨tail, hTail⟩ := hFront
      rw [← hTail] at hStop
      exact hStop (holdsFrame_frame_append hp tail)

/-! ## A reader and a writer -/

theorem Splits.grow {s rest : List β} {ps : List (List β)} (h : Splits F s ps rest)
    (more : List β) : Splits F (s ++ more) ps (rest ++ more) := by
  have hMore := h.append (Splits.refl F (rest ++ more))
  rwa [List.append_nil] at hMore

/-- The frame that was left is complete. -/
theorem Splits.finish {s p : List β} {ps : List (List β)} (h : Splits F s ps (F.frame p))
    (hp : F.valid p.length = true) : Splits F s (ps ++ [p]) [] where
  valid := by
    intro q hq
    rcases List.mem_append.mp hq with hq | hq
    · exact h.valid q hq
    · rw [List.mem_singleton.mp hq]
      exact hp
  joined := by
    rw [← h.joined]
    simp

/-- What has been read of the frames of a list begins the list, also where some of the
frames are invalid: an invalid one is not read.  The induction is on what has been read. -/
theorem Splits.prefix_of_frames {s more rest : List β} {ps qs : List (List β)}
    (h : Splits F s ps rest)
    (hGet : ∀ q ∈ qs, ∀ tail, F.get (F.put q.length ++ tail) = q.length)
    (hStream : s ++ more = (qs.map F.frame).flatten) : ps <+: qs := by
  induction ps generalizing s qs with
  | nil => exact List.nil_prefix
  | cons p ps ih =>
      have hp := h.valid p List.mem_cons_self
      have hJoin : F.frame p ++ ((ps.map F.frame).flatten ++ rest ++ more) =
          (qs.map F.frame).flatten := by
        rw [← hStream, ← h.joined]
        simp
      cases qs with
      | nil =>
          have hEmpty : F.frame p ++ ((ps.map F.frame).flatten ++ rest ++ more) = [] := hJoin
          have hLong := frame_length hp
          rw [(List.append_eq_nil_iff.mp hEmpty).1, List.length_nil] at hLong
          have hWidth := F.width_pos
          omega
      | cons q qs =>
          rw [List.map_cons, List.flatten_cons] at hJoin
          have hLength : q.length = p.length := by
            rw [← hGet q List.mem_cons_self (q ++ (qs.map F.frame).flatten),
              ← List.append_assoc, ← Format.frame, ← hJoin, get_frame_append hp]
          obtain ⟨hSame, hRest⟩ := frame_append_cancel hp (hLength ▸ hp) hJoin
          have hTail : Splits F ((ps.map F.frame).flatten ++ rest) ps rest :=
            { valid := fun x hx => h.valid x (List.mem_cons_of_mem p hx), joined := rfl }
          rw [hSame]
          exact (List.prefix_cons_inj q).mpr
            (ih hTail (fun x hx => hGet x (List.mem_cons_of_mem q hx)) hRest)

/-- What has been written of some payloads, and of one more that is never written to its
end. -/
def Behind (F : Format β) (s : List β) (ps : List (List β)) : Prop :=
  ∃ p more, more ≠ [] ∧ Splits F (s ++ more) (ps ++ [p]) []

/-- Complete frames are behind the frame of any payload that may follow. -/
theorem Splits.behind {s rest p : List β} {ps : List (List β)} (h : Splits F (s ++ rest) ps [])
    (hp : F.valid p.length = true) : Behind F s ps := by
  refine ⟨p, rest ++ F.frame p, ?_, ?_⟩
  · intro hNil
    have hLong := frame_length hp
    rw [(List.append_eq_nil_iff.mp hNil).2, List.length_nil] at hLong
    have hWidth := F.width_pos
    omega
  · rw [← List.append_assoc]
    exact (h.grow (F.frame p)).finish hp

/-- A reader has still to read a payload to its end. -/
theorem Behind.split {s seen later rest : List β} {ps qs : List (List β)} (h : Behind F s ps)
    (hSeen : s = seen ++ later) (hRead : Splits F seen qs rest) :
    ∃ q qs' more, qs <+: ps ∧ Splits F (rest ++ more) (q :: qs') [] := by
  obtain ⟨p, more, hMore, hWhole⟩ := h
  rw [hSeen, List.append_assoc] at hWhole
  obtain ⟨qs', hPayloads, hRest⟩ := hRead.extend hWhole not_holdsFrame_nil
  cases qs' with
  | nil =>
      have hNothing : rest ++ (later ++ more) = [] := by simpa using hRest.joined.symm
      exact absurd (List.append_eq_nil_iff.mp (List.append_eq_nil_iff.mp hNothing).2).2 hMore
  | cons q qs' =>
      refine ⟨q, qs', later ++ more, ?_, hRest⟩
      -- what is not read yet holds the last payload at least
      have hShorter : qs.length ≤ ps.length := by
        have hLengths := congrArg List.length hPayloads
        simp only [List.length_append, List.length_cons, List.length_nil] at hLengths
        omega
      exact List.prefix_of_prefix_length_le ⟨q :: qs', hPayloads.symm⟩
        (List.prefix_append ps [p]) hShorter

/-- A reader is never ahead of a writer that still owes it something. -/
theorem Behind.initial {s seen later rest : List β} {ps qs : List (List β)} (h : Behind F s ps)
    (hSeen : s = seen ++ later) (hRead : Splits F seen qs rest) : qs <+: ps := by
  obtain ⟨q, qs', more, hPrefix, -⟩ := h.split hSeen hRead
  exact hPrefix

/-- A complete header that a reader has come to is one that was written. -/
theorem Behind.valid_header {s seen later rest : List β} {ps qs : List (List β)}
    (h : Behind F s ps) (hSeen : s = seen ++ later) (hRead : Splits F seen qs rest)
    (hWidth : F.width ≤ rest.length) : F.valid (F.get rest) = true := by
  obtain ⟨q, qs', more, -, hRest⟩ := h.split hSeen hRead
  have hq := hRest.valid q List.mem_cons_self
  have hJoin : F.frame q ++ (qs'.map F.frame).flatten = rest ++ more := by
    simpa using hRest.joined
  have hGet : F.get (rest ++ more) = q.length := by
    rw [← hJoin]
    exact get_frame_append hq _
  rw [get_append hWidth (by rw [hGet]; exact hq), hGet]
  exact hq

end CppChat.Verified.Framing
