import CppChat.Verified.AtomicProgram
import CppChat.Verified.Transition
import CppChat.Verified.UnorderedMap

/-!
# Threads over one store

Threads run programs of atomic calls over a store they share; a schedule says which thread
makes its next call.  Where two stores give the same answers to related states, a schedule
that one of them admits is admitted by the other, and the threads return the same values:
what is behind the calls can be replaced without anybody noticing.

A store need not answer alike whatever it is called with; it is enough that it does for
calls whose precondition is known, as the programs guarantee.

## Main results

* `Simulates.run`: a program that runs alone returns the same over both.
* `step_simulation`: a step of a thread over one store is one over the other.
* `threads_simulation`: the same for every schedule.
-/

namespace CppChat.Verified.Interleaving

open AtomicProgram Transition

variable {Op : Type} {Res : Op → Type} {α σ τ κ : Type}

/-- A store, what is left of the program of each thread, and what was returned so far. -/
structure Threads (Op : Type) (Res : Op → Type) (α σ : Type) where
  store : σ
  running : UnorderedMap Nat (Prog Op Res α) := ∅
  returned : List (Nat × α) := []

/-- A thread starts a program, or makes its next call. -/
inductive Action (Op : Type) (Res : Op → Type) (α : Type) where
  | start (thread : Nat) (program : Prog Op Res α)
  | work (thread : Nat)

/-- A free thread starts a program; a busy one makes its next call, or returns. -/
def step (exec : (op : Op) → σ → Res op × σ) (s : Threads Op Res α σ) :
    Action Op Res α → Option (Threads Op Res α σ)
  | .start thread program =>
      if (s.running.lookup thread).isSome then none
      else some { s with running := s.running.insert thread program }
  | .work thread =>
      match s.running.lookup thread with
      | none => none
      | some (.done value) =>
          some { s with
            running := s.running.erase thread
            returned := s.returned ++ [(thread, value)] }
      | some (.call op next) =>
          some { s with
            store := (exec op s.store).2
            running := s.running.insert thread (next (exec op s.store).1) }

/-- The programs a schedule starts have the precondition that holds from the start. -/
def Starts (spec : (op : Op) → κ → (Res op → κ → Prop) → Prop) (post : α → κ → Prop)
    (known : κ) : Action Op Res α → Prop
  | .start _ program => program.Wp spec post known
  | .work _ => True

/-- Calls whose precondition is known are answered alike, keep the relation, give the
knowledge they promise and leave that of the other threads true. -/
structure Simulates (spec : (op : Op) → κ → (Res op → κ → Prop) → Prop) (holds : κ → σ → Prop)
    (exec : (op : Op) → σ → Res op × σ) (exec' : (op : Op) → τ → Res op × τ)
    (rel : σ → τ → Prop) : Prop where
  answers : ∀ op k s t q, spec op k q → holds k s → rel s t → (exec op s).1 = (exec' op t).1
  related : ∀ op k s t q, spec op k q → holds k s → rel s t → rel (exec op s).2 (exec' op t).2
  learned : ∀ op k s q, spec op k q → holds k s →
    ∃ k', q (exec op s).1 k' ∧ holds k' (exec op s).2
  stable : ∀ op k s q, spec op k q → holds k s → ∀ other, holds other s →
    holds other (exec op s).2

/-- The threads over two stores are at the same point, and know enough to go on. -/
structure SamePoint (spec : (op : Op) → κ → (Res op → κ → Prop) → Prop) (post : α → κ → Prop)
    (holds : κ → σ → Prop) (rel : σ → τ → Prop) (known : κ) (s : Threads Op Res α σ)
    (t : Threads Op Res α τ) : Prop where
  known : holds known s.store
  assured : ∀ thread p, s.running.lookup thread = some p →
    p.Assured spec post holds s.store
  rel : rel s.store t.store
  running : t.running = s.running
  returned : t.returned = s.returned

variable {spec : (op : Op) → κ → (Res op → κ → Prop) → Prop} {post : α → κ → Prop}
  {holds : κ → σ → Prop} {exec : (op : Op) → σ → Res op × σ} {exec' : (op : Op) → τ → Res op × τ}
  {rel : σ → τ → Prop} {known : κ}

/-- A program that runs alone returns the same over both stores, and leaves them related. -/
theorem Simulates.run (hSim : Simulates spec holds exec exec' rel) :
    ∀ (p : Prog Op Res α) {k : κ} {s : σ} {t : τ}, p.Wp spec post k → holds k s → rel s t →
      (p.run exec s).1 = (p.run exec' t).1 ∧ rel (p.run exec s).2 (p.run exec' t).2 ∧
        ∃ k', holds k' (p.run exec s).2 := by
  intro p
  induction p with
  | done value => exact fun _ hHolds hRel => ⟨rfl, hRel, _, hHolds⟩
  | call op next ih =>
      intro k s t hWp hHolds hRel
      obtain ⟨k', hNext, hHolds'⟩ := hSim.learned op k s _ hWp hHolds
      have hRel' := hSim.related op k s t _ hWp hHolds hRel
      have hLater := ih _ hNext hHolds' hRel'
      rw [Prog.run, Prog.run, ← hSim.answers op k s t _ hWp hHolds hRel]
      exact hLater

/-- A step over one store is a step over the other. -/
theorem step_simulation (hSim : Simulates spec holds exec exec' rel)
    (s : Threads Op Res α σ) (t : Threads Op Res α τ) (a : Action Op Res α)
    (s' : Threads Op Res α σ) (h : SamePoint spec post holds rel known s t)
    (hStart : Starts spec post known a) (hStep : step exec s a = some s') :
    ∃ t', step exec' t a = some t' ∧ SamePoint spec post holds rel known s' t' := by
  cases a with
  | start thread program =>
      rw [step] at hStep ⊢
      rw [h.running]
      split at hStep
      · contradiction
      · rename_i hFree
        rw [if_neg hFree, ← Option.some.inj hStep]
        refine ⟨_, rfl, h.known, ?_, h.rel, rfl, h.returned⟩
        intro other p hLookup
        rw [UnorderedMap.lookup_insert] at hLookup
        split at hLookup
        · rw [← Option.some.inj hLookup]
          exact ⟨known, hStart, h.known⟩
        · exact h.assured other p hLookup
  | work thread =>
      rw [step] at hStep ⊢
      rw [h.running]
      split at hStep
      · contradiction
      · rename_i value hLookup
        rw [← Option.some.inj hStep]
        refine ⟨_, rfl, h.known, ?_, h.rel, rfl, ?_⟩
        · intro other p hOther
          rw [UnorderedMap.lookup_erase] at hOther
          split at hOther
          · contradiction
          · exact h.assured other p hOther
        · rw [h.returned]
      · rename_i op next hLookup
        obtain ⟨k, hWp, hHolds⟩ := h.assured thread _ hLookup
        have hAnswer := hSim.answers op k s.store t.store _ hWp hHolds h.rel
        have hStable := hSim.stable op k s.store _ hWp hHolds
        rw [← Option.some.inj hStep]
        refine ⟨_, rfl, hStable _ h.known, ?_,
          hSim.related op k s.store t.store _ hWp hHolds h.rel, ?_, h.returned⟩
        · intro other p hOther
          rw [UnorderedMap.lookup_insert] at hOther
          split at hOther
          · rw [← Option.some.inj hOther]
            obtain ⟨k', hNext, hHolds'⟩ := hSim.learned op k s.store _ hWp hHolds
            exact ⟨k', hNext, hHolds'⟩
          · exact (h.assured other p hOther).of_stable hStable
        · rw [← hAnswer]

/-- Who can go on does not depend on the store. -/
theorem step_eq_none_iff {s : Threads Op Res α σ} {t : Threads Op Res α τ}
    (hRunning : t.running = s.running) (a : Action Op Res α) :
    step exec s a = none ↔ step exec' t a = none := by
  cases a with
  | start thread program =>
      rw [step, step, hRunning]
      split <;> simp
  | work thread =>
      rw [step, step, hRunning]
      rcases s.running.lookup thread with _ | _ | _ <;> simp

/-- Every schedule is admitted over both stores or over none, and the threads return the
same values. -/
theorem threads_simulation (hSim : Simulates spec holds exec exec' rel)
    (acts : List (Action Op Res α)) (hStarts : ∀ a ∈ acts, Starts spec post known a) :
    ∀ (s : Threads Op Res α σ) (t : Threads Op Res α τ), SamePoint spec post holds rel known s t →
      (run (step exec) s acts).map Threads.returned =
        (run (step exec') t acts).map Threads.returned := by
  induction acts with
  | nil =>
      intro s t h
      exact congrArg some h.returned.symm
  | cons a rest ih =>
      obtain ⟨hStart, hRest⟩ := List.forall_mem_cons.mp hStarts
      intro s t h
      rw [run, run]
      cases hStep : step exec s a with
      | none =>
          rw [(step_eq_none_iff h.running a).mp hStep]
          rfl
      | some s' =>
          obtain ⟨t', hStep', h'⟩ := step_simulation hSim s t a s' h hStart hStep
          rw [hStep']
          exact ih hRest s' t' h'

end CppChat.Verified.Interleaving
