/-!
# Programs of atomic calls

A thread that shares state with others does so through calls that each hold a
lock: between two calls anything may happen, inside a call nothing else does.
`Prog` is such a program: either finished, or a call together with what to do
for each result.  One definition of a program then has both of its meanings:

* `Prog.run` performs all calls in a row, which is the sequential reading;
* `Prog.step` performs one call, and a scheduler interleaves the steps of
  several programs over one state.

`Prog.Uses` bounds the calls a program can still make, whatever the results.
It is what an invariant of an interleaved system says about a program that is
in the middle of its work.

## Main results

* `Prog.run_bind`: a sequence runs its parts in order.
* `Prog.run_invariant`: a run preserves what each call it uses preserves.
* `Prog.run_returns`: a run returns what every path of the program returns.
* `Prog.run_wp`: a run keeps the promise of its weakest precondition.
* `Prog.Assured.call`, `Prog.Assured.of_stable`: so does an interleaved program, if the
  calls of the others leave what is known true.
-/

namespace CppChat.Verified.AtomicProgram

/-- A program over the calls `Op`, where call `op` returns a `Res op`. -/
inductive Prog (Op : Type) (Res : Op → Type) (α : Type) : Type where
  | done (value : α)
  | call (op : Op) (next : Res op → Prog Op Res α)

variable {Op : Type} {Res : Op → Type} {α β σ : Type}

namespace Prog

/-- Run one program, then the next with its result. -/
def bind : Prog Op Res α → (α → Prog Op Res β) → Prog Op Res β
  | .done value, f => f value
  | .call op next, f => .call op fun r => (next r).bind f

instance : Monad (Prog Op Res) where
  pure := .done
  bind := bind

/-- The program that makes one call and returns its result. -/
def perform (op : Op) : Prog Op Res (Res op) := .call op .done

@[simp] theorem pure_eq (value : α) :
    (pure value : Prog Op Res α) = .done value := rfl

@[simp] theorem done_bind (value : α) (f : α → Prog Op Res β) :
    (Prog.done value >>= f) = f value := rfl

@[simp] theorem call_bind (op : Op) (next : Res op → Prog Op Res α)
    (f : α → Prog Op Res β) :
    (Prog.call op next >>= f) = .call op fun r => next r >>= f := rfl

@[simp] theorem perform_bind (op : Op) (f : Res op → Prog Op Res β) :
    (perform op >>= f) = .call op f := rfl

/-! ## The two meanings -/

/-- Perform all calls in a row. -/
def run (exec : (op : Op) → σ → Res op × σ) : Prog Op Res α → σ → α × σ
  | .done value, s => (value, s)
  | .call op next, s => (next (exec op s).1).run exec (exec op s).2

/-- Perform the next call; a finished program has none. -/
def step (exec : (op : Op) → σ → Res op × σ) :
    Prog Op Res α → σ → Option (Prog Op Res α × σ)
  | .done _, _ => none
  | .call op next, s => some (next (exec op s).1, (exec op s).2)

/-- The call a program is about to make. -/
def nextCall : Prog Op Res α → Option Op
  | .done _ => none
  | .call op _ => some op

variable {exec : (op : Op) → σ → Res op × σ}

@[simp] theorem run_done (value : α) (s : σ) :
    (Prog.done value : Prog Op Res α).run exec s = (value, s) := rfl

@[simp] theorem run_call (op : Op) (next : Res op → Prog Op Res α) (s : σ) :
    (Prog.call op next).run exec s = (next (exec op s).1).run exec (exec op s).2 := rfl

/-- A run whose first call is known. -/
theorem run_perform {op : Op} {f : Res op → Prog Op Res β} {s s' : σ} {r : Res op}
    (h : exec op s = (r, s')) : (perform op >>= f).run exec s = (f r).run exec s' := by
  rw [perform_bind, run_call, h]

/-- Running a sequence is running its parts in turn. -/
theorem run_bind (p : Prog Op Res α) (f : α → Prog Op Res β) (s : σ) :
    (p >>= f).run exec s = (f (p.run exec s).1).run exec (p.run exec s).2 := by
  induction p generalizing s with
  | done value => rfl
  | call op next ih => exact ih _ _

/-! ## Calls a program may use -/

/-- Every call the program can still make satisfies `allowed`. -/
def Uses (allowed : Op → Prop) : Prog Op Res α → Prop
  | .done _ => True
  | .call op next => allowed op ∧ ∀ r, (next r).Uses allowed

theorem Uses.mono {allowed wider : Op → Prop} (h : ∀ op, allowed op → wider op) :
    ∀ {p : Prog Op Res α}, p.Uses allowed → p.Uses wider := by
  intro p
  induction p with
  | done value => intro _; trivial
  | call op next ih =>
      intro hUses
      exact ⟨h op hUses.1, fun r => ih r (hUses.2 r)⟩

/-- A sequence makes the calls of its parts. -/
theorem Uses.bind {allowed : Op → Prop} {p : Prog Op Res α}
    {f : α → Prog Op Res β} (hp : p.Uses allowed)
    (hf : ∀ a, (f a).Uses allowed) : (p >>= f).Uses allowed := by
  induction p with
  | done value => exact hf value
  | call op next ih => exact ⟨hp.1, fun r => ih r (hp.2 r)⟩

theorem Uses.perform_bind {allowed : Op → Prop} {op : Op} {f : Res op → Prog Op Res β}
    (hOp : allowed op) (hf : ∀ r, (f r).Uses allowed) :
    (perform op >>= f).Uses allowed :=
  ⟨hOp, hf⟩

theorem Uses.pure {allowed : Op → Prop} {value : α} :
    (Pure.pure value : Prog Op Res α).Uses allowed :=
  trivial

theorem Uses.ite {allowed : Op → Prop} {p : Prop} {_ : Decidable p} {a b : Prog Op Res α}
    (ha : a.Uses allowed) (hb : b.Uses allowed) :
    (if p then a else b).Uses allowed := by
  split
  · exact ha
  · exact hb

/-- A run preserves what each call it may use preserves. -/
theorem run_invariant {allowed : Op → Prop} {inv : σ → Prop}
    (hExec : ∀ op s, allowed op → inv s → inv (exec op s).2) :
    ∀ (p : Prog Op Res α) (s : σ), p.Uses allowed → inv s → inv (p.run exec s).2 := by
  intro p
  induction p with
  | done value =>
      intro s _ hInv
      exact hInv
  | call op next ih =>
      intro s hUses hInv
      exact ih _ _ (hUses.2 _) (hExec op s hUses.1 hInv)

/-! ## Values a program may return -/

/-- Every value the program can return satisfies `post`. -/
def Returns (post : α → Prop) : Prog Op Res α → Prop
  | .done value => post value
  | .call _ next => ∀ r, (next r).Returns post

theorem Returns.mono {post weaker : α → Prop} (h : ∀ a, post a → weaker a) :
    ∀ {p : Prog Op Res α}, p.Returns post → p.Returns weaker := by
  intro p
  induction p with
  | done value => exact h value
  | call op next ih =>
      intro hReturns r
      exact ih r (hReturns r)

/-- What the first part returns is what the second may assume. -/
theorem Returns.bind {mid : α → Prop} {post : β → Prop} {p : Prog Op Res α}
    {f : α → Prog Op Res β} (hp : p.Returns mid)
    (hf : ∀ a, mid a → (f a).Returns post) : (p >>= f).Returns post := by
  induction p with
  | done value => exact hf value hp
  | call op next ih => exact fun r => ih r (hp r)

theorem Returns.perform_bind {post : β → Prop} {op : Op} {f : Res op → Prog Op Res β}
    (hf : ∀ r, (f r).Returns post) : (perform op >>= f).Returns post :=
  hf

theorem Returns.pure {post : α → Prop} {value : α} (h : post value) :
    (Pure.pure value : Prog Op Res α).Returns post :=
  h

theorem Returns.ite {post : α → Prop} {p : Prop} {_ : Decidable p}
    {a b : Prog Op Res α} (ha : a.Returns post) (hb : b.Returns post) :
    (if p then a else b).Returns post := by
  split
  · exact ha
  · exact hb

/-- A program that returns such values does so in every run. -/
theorem run_returns {post : α → Prop} :
    ∀ (p : Prog Op Res α) (s : σ), p.Returns post → post (p.run exec s).1 := by
  intro p
  induction p with
  | done value => intro s h; exact h
  | call op next ih => intro s h; exact ih _ _ (h _)

/-! ## Calls made of smaller calls -/

/-- Replace every call by a program of calls of another kind. -/
def translate {Op' : Type} {Res' : Op' → Type} (impl : (op : Op) → Prog Op' Res' (Res op)) :
    Prog Op Res α → Prog Op' Res' α
  | .done value => .done value
  | .call op next => impl op >>= fun r => (next r).translate impl

/-! ## Preconditions -/

variable {κ : Type}

/-- The weakest precondition of a program, over what is known of the state it
runs in.  `spec op k q` says that `q` holds of the result of the call `op`, and
of what is known after it, when `k` is known before. -/
def Wp (spec : (op : Op) → κ → (Res op → κ → Prop) → Prop) (post : α → κ → Prop) :
    Prog Op Res α → κ → Prop
  | .done value, k => post value k
  | .call op next, k => spec op k fun r k' => (next r).Wp spec post k'

theorem Wp.ite {spec : (op : Op) → κ → (Res op → κ → Prop) → Prop} {post : α → κ → Prop}
    {p : Prop} {_ : Decidable p} {a b : Prog Op Res α} {k : κ} (ha : a.Wp spec post k)
    (hb : b.Wp spec post k) : (if p then a else b).Wp spec post k := by
  split
  · exact ha
  · exact hb

/-- One call, and then the rest. -/
theorem Wp.perform {spec : (op : Op) → κ → (Res op → κ → Prop) → Prop} {post : β → κ → Prop}
    {op : Op} {f : Res op → Prog Op Res β} {k : κ}
    (h : spec op k fun r k' => (f r).Wp spec post k') : (perform op >>= f).Wp spec post k :=
  h

/-- A promise can be weakened. -/
theorem Wp.mono {spec : (op : Op) → κ → (Res op → κ → Prop) → Prop} {post post' : α → κ → Prop}
    (hMono : ∀ op k (q q' : Res op → κ → Prop), (∀ r k', q r k' → q' r k') →
      spec op k q → spec op k q')
    (hPost : ∀ a k, post a k → post' a k) {p : Prog Op Res α} :
    ∀ {k : κ}, p.Wp spec post k → p.Wp spec post' k := by
  induction p with
  | done value => exact fun h => hPost value _ h
  | call op next ih => exact fun h => hMono op _ _ _ (fun r _ hNext => ih r hNext) h

/-- A sequence keeps its promise if its second part does after whatever the first
part promises. -/
theorem Wp.bind {spec : (op : Op) → κ → (Res op → κ → Prop) → Prop} {mid : α → κ → Prop}
    {post : β → κ → Prop}
    (hMono : ∀ op k (q q' : Res op → κ → Prop), (∀ r k', q r k' → q' r k') →
      spec op k q → spec op k q')
    {f : α → Prog Op Res β} {p : Prog Op Res α} (hf : ∀ a k, mid a k → (f a).Wp spec post k) :
    ∀ {k : κ}, p.Wp spec mid k → (p >>= f).Wp spec post k := by
  induction p with
  | done value => exact fun h => hf value _ h
  | call op next ih => exact fun h => hMono op _ _ _ (fun r _ hNext => ih r hNext) h

/-- A run meets its precondition's promise, if what is known stays true of the
state. -/
theorem run_wp {spec : (op : Op) → κ → (Res op → κ → Prop) → Prop} {post : α → κ → Prop}
    {holds : κ → σ → Prop}
    (hSpec : ∀ op k s q, spec op k q → holds k s →
      ∃ k', q (exec op s).1 k' ∧ holds k' (exec op s).2) :
    ∀ (p : Prog Op Res α) (k : κ) (s : σ), p.Wp spec post k → holds k s →
      ∃ k', post (p.run exec s).1 k' ∧ holds k' (p.run exec s).2 := by
  intro p
  induction p with
  | done value => exact fun k s hWp hHolds => ⟨k, hWp, hHolds⟩
  | call op next ih =>
      intro k s hWp hHolds
      obtain ⟨k', hNext, hHolds'⟩ := hSpec op k s _ hWp hHolds
      exact ih _ k' _ hNext hHolds'

/-! ## Programs that are interleaved -/

/-- What is left of a program keeps its promise: enough is known of the state. -/
def Assured (spec : (op : Op) → κ → (Res op → κ → Prop) → Prop) (post : α → κ → Prop)
    (holds : κ → σ → Prop) (s : σ) (p : Prog Op Res α) : Prop :=
  ∃ k, p.Wp spec post k ∧ holds k s

namespace Assured

variable {spec : (op : Op) → κ → (Res op → κ → Prop) → Prop} {post : α → κ → Prop}
  {holds holds' : κ → σ → Prop} {s s' : σ}

/-- The program makes its next call. -/
theorem call {op : Op} {next : Res op → Prog Op Res α} {r : Res op}
    (hSpec : ∀ k q, spec op k q → holds k s → ∃ k', q r k' ∧ holds' k' s')
    (h : Assured spec post holds s (.call op next)) : Assured spec post holds' s' (next r) := by
  obtain ⟨k, hWp, hHolds⟩ := h
  exact hSpec k _ hWp hHolds

/-- Somebody else makes a call that leaves what is known true. -/
theorem of_stable {p : Prog Op Res α} (hStable : ∀ k, holds k s → holds' k s')
    (h : Assured spec post holds s p) : Assured spec post holds' s' p := by
  obtain ⟨k, hWp, hHolds⟩ := h
  exact ⟨k, hWp, hStable k hHolds⟩

/-- The promise of a program that has come to its end. -/
theorem done {value : α} (h : Assured spec post holds s (.done value)) :
    ∃ k, post value k ∧ holds k s :=
  h

end Assured

end Prog

end CppChat.Verified.AtomicProgram
