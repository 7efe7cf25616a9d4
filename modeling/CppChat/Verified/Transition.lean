/-!
# Runs of a transition system

A system is a partial step function `step : σ → α → Option σ`: an action that
is not enabled in a state returns `none`.  A run is a list of actions, so every
schedule of the concurrent parties of a system is one list, and a concrete
run can be evaluated.

## Main results

* `run_invariant`: what every step preserves holds after every run.
* `run_invariant_of_stepsMeet`: the same for runs whose steps all meet a
  condition on the action and the state before it.
* `run_iff_stepsMeet`: a property that a step keeps exactly when it meets a condition
  holds after exactly the runs whose steps all meet it.
* `run_length_le`: a run whose steps all make a measure smaller is no longer than the measure.
* `run_invariant_of_past`: the invariant rule for what is said about the states passed.
* `Ends.of_measure`, `Ends.no_infinite`: what makes a measure smaller comes to an end.
* `foldl_invariant`: the invariant rule for a step function that is never disabled.
* `answers_simulation`: machines that answer alike step by step answer alike in every run.
* `run_project`: a run of a system is a run of each of its parts.
* `CanReach.of_step`: what can be reached after a step can be reached before it.
-/

namespace CppChat.Verified.Transition

variable {σ α : Type}

/-- Take the actions one after the other; a disabled action ends in `none`. -/
def run (step : σ → α → Option σ) : σ → List α → Option σ
  | s, [] => some s
  | s, a :: rest => (step s a).bind fun s' => run step s' rest

/-- Every step taken by the run meets `ok` in the state before it. -/
def StepsMeet (step : σ → α → Option σ) (ok : σ → α → Prop) : σ → List α → Prop
  | _, [] => True
  | s, a :: rest => ok s a ∧ ∀ s', step s a = some s' → StepsMeet step ok s' rest

variable {step : σ → α → Option σ}

/-- A run can be tested for a decidable condition by replaying it. -/
instance decidableStepsMeet {ok : σ → α → Prop} [∀ s a, Decidable (ok s a)] :
    ∀ (s : σ) (acts : List α), Decidable (StepsMeet step ok s acts)
  | _, [] => isTrue trivial
  | s, a :: rest =>
      if hOk : ok s a then
        match hStep : step s a with
        | none => isTrue ⟨hOk, fun s' h => by rw [hStep] at h; contradiction⟩
        | some s' =>
            match decidableStepsMeet s' rest with
            | isTrue hRest =>
                isTrue ⟨hOk, fun t h => by
                  rw [hStep] at h
                  injection h with hEq
                  rw [← hEq]
                  exact hRest⟩
            | isFalse hRest => isFalse fun h => hRest (h.2 s' hStep)
      else isFalse fun h => hOk h.1

theorem StepsMeet.mono {ok weaker : σ → α → Prop} (h : ∀ s a, ok s a → weaker s a) :
    ∀ {acts : List α} {s : σ}, StepsMeet step ok s acts → StepsMeet step weaker s acts := by
  intro acts
  induction acts with
  | nil => exact fun _ => trivial
  | cons a rest ih =>
      intro s hMeet
      exact ⟨h s a hMeet.1, fun s' hStep => ih (hMeet.2 s' hStep)⟩

theorem run_cons_eq_some {s t : σ} {a : α} {rest : List α}
    (h : run step s (a :: rest) = some t) :
    ∃ s', step s a = some s' ∧ run step s' rest = some t := by
  rw [run] at h
  cases hStep : step s a with
  | none => rw [hStep] at h; contradiction
  | some s' =>
      rw [hStep] at h
      exact ⟨s', rfl, h⟩

/-- The invariant rule, for runs whose steps all meet a condition. -/
theorem run_invariant_of_stepsMeet {ok : σ → α → Prop} {inv : σ → Prop}
    (hStep : ∀ s a s', inv s → ok s a → step s a = some s' → inv s') :
    ∀ (acts : List α) (s t : σ), inv s → StepsMeet step ok s acts →
      run step s acts = some t → inv t := by
  intro acts
  induction acts with
  | nil =>
      intro s t hInv _ hRun
      injection hRun with hEq
      rw [← hEq]
      exact hInv
  | cons a rest ih =>
      intro s t hInv hMeet hRun
      obtain ⟨s', hNext, hRest⟩ := run_cons_eq_some hRun
      exact ih s' t (hStep s a s' hInv hMeet.1 hNext) (hMeet.2 s' hNext) hRest

/-- A condition that the actions of a run meet in every state. -/
theorem StepsMeet.of_forall {ok : σ → α → Prop} : ∀ {acts : List α} {s : σ},
    (∀ a ∈ acts, ∀ s, ok s a) → StepsMeet step ok s acts := by
  intro acts
  induction acts with
  | nil => exact fun _ => trivial
  | cons a rest ih =>
      intro s hOk
      obtain ⟨hFirst, hRest⟩ := List.forall_mem_cons.mp hOk
      exact ⟨hFirst s, fun s' _ => ih hRest⟩

/-- The invariant rule: what every step preserves, every run preserves. -/
theorem run_invariant {inv : σ → Prop}
    (hStep : ∀ s a s', inv s → step s a = some s' → inv s')
    {acts : List α} {s t : σ} (hInv : inv s) (hRun : run step s acts = some t) :
    inv t :=
  run_invariant_of_stepsMeet (fun s a s' h _ hs => hStep s a s' h hs) acts s t hInv
    (.of_forall fun _ _ _ => trivial) hRun

/-- The exact rule: where a step keeps a property exactly when it meets a
condition, so does a run. -/
theorem run_iff_stepsMeet {ok : σ → α → Prop} {inv p : σ → Prop}
    (hInv : ∀ s a s', inv s → step s a = some s' → inv s')
    (hStep : ∀ s a s', inv s → step s a = some s' → (p s' ↔ p s ∧ ok s a)) :
    ∀ (acts : List α) (s t : σ), inv s → run step s acts = some t →
      (p t ↔ p s ∧ StepsMeet step ok s acts) := by
  intro acts
  induction acts with
  | nil =>
      intro s t _ hRun
      injection hRun with hEq
      rw [hEq]
      exact ⟨fun h => ⟨h, trivial⟩, fun h => h.1⟩
  | cons a rest ih =>
      intro s t hs hRun
      obtain ⟨s', hNext, hRest⟩ := run_cons_eq_some hRun
      rw [ih s' t (hInv s a s' hs hNext) hRest, hStep s a s' hs hNext]
      constructor
      · rintro ⟨⟨hp, hOk⟩, hMeet⟩
        refine ⟨hp, hOk, ?_⟩
        intro s'' hs''
        rw [hNext] at hs''
        rw [← Option.some.inj hs'']
        exact hMeet
      · rintro ⟨hp, hOk, hMeet⟩
        exact ⟨⟨hp, hOk⟩, hMeet s' hNext⟩

/-- The rule for runs that come to an end: every step makes the measure smaller. -/
theorem run_length_le {ok : α → Prop} {inv : σ → Prop} {size : σ → Nat}
    (hInv : ∀ s a s', inv s → step s a = some s' → inv s')
    (hLess : ∀ s a s', inv s → ok a → step s a = some s' → size s' < size s) :
    ∀ (acts : List α) (s t : σ), inv s → (∀ a ∈ acts, ok a) → run step s acts = some t →
      acts.length + size t ≤ size s := by
  intro acts
  induction acts with
  | nil =>
      intro s t _ _ hRun
      injection hRun with hEq
      simp [hEq]
  | cons a rest ih =>
      intro s t hs hOk hRun
      obtain ⟨hFirst, hRest⟩ := List.forall_mem_cons.mp hOk
      obtain ⟨s', hNext, hRun'⟩ := run_cons_eq_some hRun
      have hOne := hLess s a s' hs hFirst hNext
      have hMore := ih s' t (hInv s a s' hs hNext) hRest hRun'
      rw [List.length_cons]
      omega

/-- The invariant rule for a total step function, where a run is a fold. -/
theorem foldl_invariant {next : σ → α → σ} {ok : α → Prop} {inv : σ → Prop}
    (hStep : ∀ s a, ok a → inv s → inv (next s a)) :
    ∀ (acts : List α) (s : σ), (∀ a ∈ acts, ok a) → inv s → inv (acts.foldl next s) := by
  intro acts
  induction acts with
  | nil => exact fun s _ h => h
  | cons a rest ih =>
      intro s hAll h
      obtain ⟨hFirst, hRest⟩ := List.forall_mem_cons.mp hAll
      exact ih _ hRest (hStep s a hFirst h)

/-! ## The past of a run -/

theorem run_append (s : σ) (acts more : List α) :
    run step s (acts ++ more) = (run step s acts).bind fun t => run step t more := by
  induction acts generalizing s with
  | nil => rfl
  | cons b rest ih =>
      rw [List.cons_append, run, run]
      cases step s b with
      | none => rfl
      | some s' => exact ih s'

theorem run_concat (s : σ) (acts : List α) (a : α) :
    run step s (acts ++ [a]) = (run step s acts).bind fun t => step t a := by
  rw [run_append]
  cases run step s acts with
  | none => rfl
  | some t => cases h : step t a <;> simp [run, h]

/-- The run comes through the state. -/
def Passes (step : σ → α → Option σ) (s : σ) (acts : List α) (t : σ) : Prop :=
  ∃ before after, acts = before ++ after ∧ run step s before = some t

theorem Passes.last {s t : σ} {acts : List α} (h : run step s acts = some t) :
    Passes step s acts t :=
  ⟨acts, [], (List.append_nil acts).symm, h⟩

theorem Passes.append {s t : σ} {acts : List α} (h : Passes step s acts t) (more : List α) :
    Passes step s (acts ++ more) t := by
  obtain ⟨before, after, rfl, hRun⟩ := h
  exact ⟨before, after ++ more, List.append_assoc before after more, hRun⟩

/-- A state of a run in two parts comes before the state between them, or after it. -/
theorem Passes.split {s m t : σ} {first second : List α} (h : Passes step s (first ++ second) t)
    (hRun : run step s first = some m) :
    (∃ more, run step t more = some m) ∨ Passes step m second t := by
  obtain ⟨before, after, hEq, hBefore⟩ := h
  rcases List.append_eq_append_iff.mp hEq with ⟨more, rfl, hSecond⟩ | ⟨more, rfl, hSecond⟩
  · -- the part before the state goes beyond the first part
    refine Or.inr ⟨more, after, hSecond, ?_⟩
    rw [run_append, hRun] at hBefore
    exact hBefore
  · rw [run_append, hBefore] at hRun
    exact Or.inl ⟨more, hRun⟩

/-- A state that is not the last one is one before a step. -/
theorem StepsMeet.of_passes {ok : σ → α → Prop} {s t u : σ} {acts : List α}
    (h : StepsMeet step ok s acts) (hRun : run step s acts = some u)
    (hPasses : Passes step s acts t) : t = u ∨ ∃ a, ok t a := by
  obtain ⟨before, after, rfl, hBefore⟩ := hPasses
  induction before generalizing s with
  | nil =>
      injection hBefore with hEq
      subst hEq
      cases after with
      | nil =>
          injection hRun with hEq
          exact Or.inl hEq
      | cons a rest => exact Or.inr ⟨a, h.1⟩
  | cons b rest ih =>
      obtain ⟨s', hStep, hRest⟩ := run_cons_eq_some hRun
      obtain ⟨s'', hStep', hBefore'⟩ := run_cons_eq_some hBefore
      rw [hStep] at hStep'
      injection hStep' with hEq
      rw [← hEq] at hBefore'
      exact ih hBefore' (h.2 s' hStep) hRest

/-- The invariant rule, for an invariant that also speaks of the run that led to the
state. -/
theorem run_invariant_of_past {inv : List α → σ → Prop} {s : σ} (hInit : inv [] s)
    (hStep : ∀ acts t a t', run step s acts = some t → inv acts t → step t a = some t' →
      inv (acts ++ [a]) t')
    {acts : List α} {t : σ} (hRun : run step s acts = some t) : inv acts t := by
  -- what was done is a prefix, and the induction is on what is still to be done
  have hRest : ∀ later past mid, run step s past = some mid → inv past mid →
      run step mid later = some t → inv (past ++ later) t := by
    intro later
    induction later with
    | nil =>
        intro past mid _ hInv hLater
        injection hLater with hEq
        rw [List.append_nil, ← hEq]
        exact hInv
    | cons a rest ih =>
        intro past mid hPast hInv hLater
        obtain ⟨mid', hNext, hLater'⟩ := run_cons_eq_some hLater
        have hPast' : run step s (past ++ [a]) = some mid' := by
          rw [run_concat, hPast]
          exact hNext
        have hInv' := hStep past mid a mid' hPast hInv hNext
        have hDone := ih (past ++ [a]) mid' hPast' hInv' hLater'
        rw [List.append_assoc] at hDone
        exact hDone
  exact hRest acts [] s rfl hInit hRun

/-! ## Machines that answer -/

variable {τ ω : Type}

/-- The answers of a machine to a list of calls, and its state after them. -/
def answers (next : σ → α → ω × σ) : σ → List α → List ω × σ
  | s, [] => ([], s)
  | s, a :: rest =>
      let later := answers next (next s a).2 rest
      ((next s a).1 :: later.1, later.2)

/-- The simulation rule: where related states answer alike and stay related, so do runs. -/
theorem answers_simulation_of_forall {next : σ → α → ω × σ} {next' : τ → α → ω × τ}
    {rel : σ → τ → Prop} {ok : α → Prop}
    (hStep : ∀ s t a, ok a → rel s t →
      (next s a).1 = (next' t a).1 ∧ rel (next s a).2 (next' t a).2)
    (acts : List α) (hOk : ∀ a ∈ acts, ok a) : ∀ s t, rel s t →
      (answers next s acts).1 = (answers next' t acts).1 ∧
        rel (answers next s acts).2 (answers next' t acts).2 := by
  induction acts with
  | nil => exact fun s t h => ⟨rfl, h⟩
  | cons a rest ih =>
      obtain ⟨hFirst, hRest⟩ := List.forall_mem_cons.mp hOk
      intro s t h
      obtain ⟨hAnswer, hNext⟩ := hStep s t a hFirst h
      obtain ⟨hAnswers, hLast⟩ := ih hRest _ _ hNext
      exact ⟨List.cons_eq_cons.mpr ⟨hAnswer, hAnswers⟩, hLast⟩

theorem answers_simulation {next : σ → α → ω × σ} {next' : τ → α → ω × τ} {rel : σ → τ → Prop}
    (hStep : ∀ s t a, rel s t → (next s a).1 = (next' t a).1 ∧ rel (next s a).2 (next' t a).2)
    (acts : List α) : ∀ s t, rel s t →
      (answers next s acts).1 = (answers next' t acts).1 ∧
        rel (answers next s acts).2 (answers next' t acts).2 :=
  answers_simulation_of_forall (fun s t a (_ : True) h => hStep s t a h) acts fun _ _ => trivial

/-- The projection rule: a run of a system is a run of a part of it, if every step is a run
of the part. -/
theorem run_project {β : Type} {part : τ → β → Option τ} {view : σ → τ} {acts' : α → List β}
    (hStep : ∀ s a s', step s a = some s' → run part (view s) (acts' a) = some (view s'))
    (acts : List α) : ∀ s t, run step s acts = some t →
      run part (view s) (acts.flatMap acts') = some (view t) := by
  induction acts with
  | nil =>
      intro s t hRun
      injection hRun with hEq
      rw [hEq]
      rfl
  | cons a rest ih =>
      intro s t hRun
      obtain ⟨s', hNext, hLater⟩ := run_cons_eq_some hRun
      rw [List.flatMap_cons, run_append, hStep s a s' hNext]
      exact ih s' t hLater

/-! ## Reachability -/

/-- Some run from this state ends in a state with the property. -/
def CanReach (step : σ → α → Option σ) (p : σ → Prop) (s : σ) : Prop :=
  ∃ acts t, run step s acts = some t ∧ p t

theorem CanReach.here {p : σ → Prop} {s : σ} (h : p s) : CanReach step p s := ⟨[], s, rfl, h⟩

theorem CanReach.of_step {p : σ → Prop} {s s' : σ} (a : α) (hStep : step s a = some s')
    (h : CanReach step p s') : CanReach step p s := by
  obtain ⟨acts, t, hRun, hp⟩ := h
  refine ⟨a :: acts, t, ?_, hp⟩
  rw [run, hStep]
  exact hRun

/-! ## Runs that come to an end -/

/-- Whatever actions of this kind are taken, and in whatever order, at some point there is
none left to take. -/
def Ends (step : σ → α → Option σ) (ok : α → Prop) (s : σ) : Prop :=
  Acc (fun s' s => ∃ a, ok a ∧ step s a = some s') s

/-- The rule: every such action makes a well-founded measure smaller. -/
theorem Ends.of_measure {μ : Type} {smaller : μ → μ → Prop} (hWf : WellFounded smaller)
    {ok : α → Prop} (measure : σ → μ)
    (hLess : ∀ s a s', ok a → step s a = some s' → smaller (measure s') (measure s)) (s : σ) :
    Ends step ok s := by
  refine Subrelation.accessible ?_ ((InvImage.wf measure hWf).apply s)
  rintro s' s ⟨a, hOk, hStep⟩
  exact hLess s a s' hOk hStep

/-- There is no run of such actions without an end. -/
theorem Ends.no_infinite {ok : α → Prop} {s : σ} (h : Ends step ok s) :
    ¬∃ states : Nat → σ, states 0 = s ∧
      ∀ n, ∃ a, ok a ∧ step (states n) a = some (states (n + 1)) := by
  induction h with
  | intro s _ ih =>
      rintro ⟨states, rfl, hSteps⟩
      exact ih (states 1) (hSteps 0) ⟨fun n => states (n + 1), rfl, fun n => hSteps (n + 1)⟩

/-- Taken for as long as there are any, such actions lead to a state without. -/
theorem Ends.exists_last {ok : α → Prop} {s : σ} (h : Ends step ok s) :
    ∃ acts t, (∀ a ∈ acts, ok a) ∧ run step s acts = some t ∧
      ∀ a, ok a → step t a = none := by
  induction h with
  | intro s _ ih =>
      by_cases hNext : ∃ a s', ok a ∧ step s a = some s'
      · obtain ⟨a, s', hOk, hStep⟩ := hNext
        obtain ⟨acts, t, hAll, hRun, hLast⟩ := ih s' ⟨a, hOk, hStep⟩
        refine ⟨a :: acts, t, List.forall_mem_cons.mpr ⟨hOk, hAll⟩, ?_, hLast⟩
        rw [run, hStep]
        exact hRun
      · refine ⟨[], s, fun a hMem => absurd hMem List.not_mem_nil, rfl, fun a hOk => ?_⟩
        cases hStep : step s a with
        | none => rfl
        | some s' => exact absurd ⟨a, s', hOk, hStep⟩ hNext

end CppChat.Verified.Transition
