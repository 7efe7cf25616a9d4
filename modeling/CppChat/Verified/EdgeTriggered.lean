import CppChat.Verified.Transition

/-!
# A source watched by edges

The kernel has something for a party: connections to accept, bytes to read, room to write
into.  It comes in at any time and is taken by calls that do not block.  `epoll` watches
the source edge-triggered: what comes in puts it on the ready list, and a wait that
reports it has taken it off.  Nothing else puts it there, so a party that stops with
something left has to have been told of it again meanwhile; otherwise it is `Stranded`.

A call that finds nothing is `EAGAIN`.  A call that is interrupted, or fails for a reason
that is not the source's, takes nothing and says nothing about what is left.

## Main results

* `not_stranded_of_eagain`: a party whose last call is `EAGAIN` leaves nothing stranded,
  whatever came in between its calls and after them.
* `exists_stranded`: a party that stops before an `EAGAIN` may leave something stranded.
-/

namespace CppChat.Verified.EdgeTriggered

open CppChat.Verified.Transition

/-- What the kernel has, and whether the source is on the ready list. -/
structure Source where
  backlog : Nat
  ready : Bool
deriving DecidableEq, Repr

/-- What a call reports to its caller. -/
inductive CallResult where
  | success
  | eagain
  | failure
deriving DecidableEq, Repr

/-- What happens at the source: something comes in, or there is a call. -/
inductive Event where
  | arrive (count : Nat)
  | take (count : Nat)
  | eagain
  | fail
deriving DecidableEq, Repr

/-- A call takes something that is there; it is `EAGAIN` only if nothing is. -/
def step (s : Source) : Event → Option Source
  | .arrive count => if 0 < count then some ⟨s.backlog + count, true⟩ else none
  | .take count =>
      if 0 < count ∧ count ≤ s.backlog then some { s with backlog := s.backlog - count }
      else none
  | .eagain => if s.backlog = 0 then some s else none
  | .fail => some s

/-- The result of the call an event stands for. -/
def Event.result : Event → Option CallResult
  | .arrive _ => none
  | .take _ => some .success
  | .eagain => some .eagain
  | .fail => some .failure

/-- The results of the calls, oldest first. -/
def results (events : List Event) : List CallResult := events.filterMap Event.result

/-- Something is there, and no wait will report it. -/
def Source.Stranded (s : Source) : Prop := 0 < s.backlog ∧ s.ready = false

variable {s s' : Source} {e : Event} {events : List Event}

theorem results_of_arrival (h : e.result = none) : results (e :: events) = results events :=
  List.filterMap_cons_none h

theorem results_of_call {r : CallResult} (h : e.result = some r) :
    results (e :: events) = r :: results events :=
  List.filterMap_cons_some h

/-- A call that is not `EAGAIN` is not the last one of a party that got to it. -/
theorem getLast?_cons_iff {r : CallResult} {calls : List CallResult} (h : r ≠ .eagain) :
    (r :: calls).getLast? = some .eagain ↔ calls.getLast? = some .eagain := by
  cases calls with
  | nil => simp [h]
  | cons q rest => rw [List.getLast?_cons_cons]

/-- What comes in is announced. -/
theorem not_stranded_of_arrival (hArrival : e.result = none) (h : step s e = some s') :
    ¬s'.Stranded := by
  cases e with
  | arrive count =>
      rintro ⟨-, hReady⟩
      simp only [step, Option.ite_none_right_eq_some, Option.some.injEq] at h
      rw [← h.2] at hReady
      contradiction
  | take count => contradiction
  | eagain => contradiction
  | fail => contradiction

/-- After an `EAGAIN` nothing is left. -/
theorem not_stranded_of_empty (hEmpty : e.result = some .eagain) (h : step s e = some s') :
    ¬s'.Stranded := by
  cases e with
  | arrive count => contradiction
  | take count => nomatch hEmpty
  | eagain =>
      rintro ⟨hPos, -⟩
      simp only [step, Option.ite_none_right_eq_some, Option.some.injEq] at h
      rw [← h.2] at hPos
      omega
  | fail => contradiction

/-- Without calls, nothing is stranded that was not. -/
theorem not_stranded_of_no_calls (hNone : results events = [])
    (hRun : run step s events = some s') (h : ¬s.Stranded) : ¬s'.Stranded := by
  induction events generalizing s with
  | nil =>
      rw [← Option.some.inj hRun]
      exact h
  | cons e rest ih =>
      obtain ⟨t, hStep, hRest⟩ := run_cons_eq_some hRun
      cases hResult : e.result with
      | none =>
          rw [results_of_arrival hResult] at hNone
          exact ih hNone hRest (not_stranded_of_arrival hResult hStep)
      | some r =>
          rw [results_of_call hResult] at hNone
          contradiction

/-- A party whose last call is `EAGAIN` leaves nothing stranded, whatever came in between
its calls and after them. -/
theorem not_stranded_of_eagain (hLast : (results events).getLast? = some .eagain)
    (hRun : run step s events = some s') : ¬s'.Stranded := by
  induction events generalizing s with
  | nil => contradiction
  | cons e rest ih =>
      obtain ⟨t, hStep, hRest⟩ := run_cons_eq_some hRun
      cases hResult : e.result with
      | none =>
          rw [results_of_arrival hResult] at hLast
          exact ih hLast hRest
      | some r =>
          rw [results_of_call hResult] at hLast
          cases hCalls : results rest with
          | nil =>
              rw [hCalls] at hLast
              have hEagain : e.result = some .eagain := hResult.trans hLast
              exact not_stranded_of_no_calls hCalls hRest (not_stranded_of_empty hEagain hStep)
          | cons q others =>
              rw [hCalls, List.getLast?_cons_cons, ← hCalls] at hLast
              exact ih hLast hRest

/-- A party that stops before an `EAGAIN` may leave something stranded: what was there when
it was told, and one more. -/
theorem exists_stranded {calls : List CallResult} (h : CallResult.eagain ∉ calls) :
    ∃ s events s', s.ready = false ∧ results events = calls ∧
      run step s events = some s' ∧ s'.Stranded := by
  have hTaken : ∀ calls : List CallResult, CallResult.eagain ∉ calls →
      ∃ count events, results events = calls ∧
        run step ⟨count + 1, false⟩ events = some ⟨1, false⟩ := by
    intro calls
    induction calls with
    | nil => exact fun _ => ⟨0, [], rfl, rfl⟩
    | cons r rest ih =>
        intro hNone
        obtain ⟨hFirst, hRest⟩ := List.ne_and_not_mem_of_not_mem_cons hNone
        obtain ⟨count, events, hResults, hRun⟩ := ih hRest
        cases r with
        | success =>
            refine ⟨count + 1, .take 1 :: events, ?_, ?_⟩
            · rw [results_of_call rfl, hResults]
            · simpa [run, step] using hRun
        | eagain => contradiction
        | failure =>
            refine ⟨count, .fail :: events, ?_, ?_⟩
            · rw [results_of_call rfl, hResults]
            · simpa [run, step] using hRun
  obtain ⟨count, events, hResults, hRun⟩ := hTaken calls h
  exact ⟨_, events, _, rfl, hResults, hRun, Nat.one_pos, rfl⟩

end CppChat.Verified.EdgeTriggered
