import Mathlib.Algebra.Group.Nat.Defs

/-!
# An event counter watched by edges

An `eventfd` is a counter in the kernel.  A write adds one to it, unless it is at its
maximum, and a read takes all of it.  `epoll` watches it edge-triggered: every write puts
it on the ready list, and a wait that reports it takes it off the list again, whether or
not it is read afterwards.  A wait that finds it on the list with a counter of zero drops
it without a report.

So a waiting party can miss a counter that is not zero, but only one it has been told of
and has not read since: `Unread`.  As long as that is ruled out, a write is never lost.

## Main results

* `pending_write`: a write to a counter that is not unread has to be reported.
* `not_unread_of_read`: reading until `EAGAIN` leaves nothing unread.
-/

namespace CppChat.Verified

/-- The counter, and whether it is on the ready list. -/
structure EventFd where
  count : Nat := 0
  ready : Bool := false
deriving DecidableEq, Repr

namespace EventFd

/-- The largest value of the counter. -/
def limit : Nat := 2 ^ 64 - 2

/-- Write one.  At the maximum a non-blocking write is `EAGAIN` and changes nothing. -/
def write (fd : EventFd) : EventFd :=
  if fd.count < limit then { count := fd.count + 1, ready := true } else fd

/-- Read the counter; `none` stands for `EAGAIN`. -/
def read (fd : EventFd) : Option EventFd :=
  if fd.count = 0 then none else some { fd with count := 0 }

/-- A wait has to report it. -/
def pending (fd : EventFd) : Bool := fd.ready && decide (0 < fd.count)

/-- A wait reports it. -/
def report (fd : EventFd) : Option EventFd :=
  if fd.pending then some { fd with ready := false } else none

/-- A wait finds it with a counter of zero. -/
def dropStale (fd : EventFd) : Option EventFd :=
  if fd.ready && fd.count == 0 then some { fd with ready := false } else none

/-- It has been reported, and has not been read since. -/
def Unread (fd : EventFd) : Prop := 0 < fd.count ∧ fd.ready = false

variable {fd fd' : EventFd}

theorem pending_or_unread (h : 0 < fd.count) : fd.pending = true ∨ fd.Unread := by
  cases hReady : fd.ready with
  | true => exact .inl (by simp [pending, hReady, h])
  | false => exact .inr ⟨h, hReady⟩

theorem not_unread_of_pending (h : fd.pending = true) : ¬fd.Unread := by
  rintro ⟨-, hReady⟩
  simp [pending, hReady] at h

theorem not_unread_of_count (h : fd.count = 0) : ¬fd.Unread :=
  fun hUnread => absurd hUnread.1 (by omega)

theorem count_write_pos (fd : EventFd) : 0 < fd.write.count := by
  unfold write
  split
  · exact Nat.succ_pos _
  · unfold limit at *
    omega

/-- A write leaves something unread only if it was unread before. -/
theorem unread_of_write (h : fd.write.Unread) : fd.Unread := by
  unfold write at h
  split at h
  · exact absurd h.2 (by simp)
  · exact h

/-- A write is pending, unless something was left unread before it. -/
theorem pending_write (h : ¬fd.Unread) : fd.write.pending = true :=
  (pending_or_unread (count_write_pos fd)).resolve_right fun hWrite => h (unread_of_write hWrite)

/-- A read leaves nothing unread. -/
theorem not_unread_of_read (h : fd.read = some fd') : ¬fd'.Unread := by
  unfold read at h
  split at h
  · contradiction
  · rw [← Option.some.inj h]
    exact not_unread_of_count rfl

theorem not_unread_of_eagain (h : fd.read = none) : ¬fd.Unread := by
  unfold read at h
  split at h
  · rename_i hZero
    exact not_unread_of_count hZero
  · contradiction

/-- The read after a read is `EAGAIN`, unless there is a write between them. -/
theorem read_of_read (h : fd.read = some fd') : fd'.read = none := by
  unfold read at h
  split at h
  · contradiction
  · rw [← Option.some.inj h, read, if_pos rfl]

theorem not_unread_of_dropStale (h : fd.dropStale = some fd') :
    fd.pending = false ∧ ¬fd'.Unread := by
  unfold dropStale at h
  split at h
  · rename_i hStale
    obtain ⟨hReady, hZero⟩ := Bool.and_eq_true_iff.mp hStale
    have hZero : fd.count = 0 := by simpa using hZero
    refine ⟨by simp [pending, hZero], ?_⟩
    rw [← Option.some.inj h]
    exact not_unread_of_count hZero
  · contradiction

end EventFd

end CppChat.Verified
