import CppChat.Ports.PoolLeases

/-!
# Runs of the connection pool

`shutdown` and `init` unmake and make slots.  That keeps the invariant of the leases where
nobody holds a slot, and `shutdown` does not wait for that: `Quiet` is the condition that
it finds all slots in the queue.  A guard that is still there owns a slot that is gone.

## Main results

* `stepped`: the ways of a step.
* `step_inv`: every step keeps the invariant, a shutdown if it is `Quiet`.
* `slots_conserved`: a slot of a pool that is not shut down is in one place.
* `leases_safe_of_quiet`: what no run with quiet shutdowns does.
* `not_leases_safe`: what another run does.
-/

namespace CppChat.Ports.Pool

open CppChat.Verified
open CppChat.Verified.Transition
open CppChat.Verified.Custody

variable {s s' : Process} {id k : Nat} {p : Ptr} {holder : Holder}

/-! ## Starting and stopping -/

/-- Only slots and handles differ, and nobody has lost one. -/
structure SlotsDiffer (s s' : Process) : Prop where
  pool : s'.pool = s.pool
  holders : s'.holders = s.holders
  strays : s'.strays = s.strays
  severed : s'.severed = s.severed

/-- One step after the other. -/
theorem SlotsDiffer.trans {s₁ s₂ s₃ : Process} (h : SlotsDiffer s₁ s₂) (h' : SlotsDiffer s₂ s₃) :
    SlotsDiffer s₁ s₃ :=
  ⟨h'.pool.trans h.pool, h'.holders.trans h.holders, h'.strays.trans h.strays,
    h'.severed.trans h.severed⟩

/-- Where nobody holds a slot, closing one severs nothing. -/
theorem closeConnection_slotsDiffer (hHeld : held Holder.slots s.holders = []) (p : Ptr) :
    SlotsDiffer s (s.closeConnection p) := by
  unfold Process.closeConnection
  split
  · exact ⟨rfl, rfl, rfl, rfl⟩
  · refine ⟨rfl, rfl, rfl, ?_⟩
    show (if s.leased (s.memory p).mysql then _ else s.severed) = s.severed
    rw [Process.leased_of_held_nil hHeld]
    rfl

theorem foldl_slotsDiffer (close : Process → Ptr → Process)
    (hClose : ∀ s p, held Holder.slots s.holders = [] → SlotsDiffer s (close s p)) :
    ∀ (ps : List Ptr) (s : Process), held Holder.slots s.holders = [] →
      SlotsDiffer s (ps.foldl close s) := by
  intro ps
  induction ps with
  | nil => exact fun s _ => ⟨rfl, rfl, rfl, rfl⟩
  | cons p ps ih =>
      intro s hHeld
      have hFirst := hClose s p hHeld
      refine hFirst.trans (ih _ ?_)
      rw [hFirst.holders]
      exact hHeld

/-- When nothing is held, closing all slots severs nothing. -/
theorem closeAllUnlocked_slotsDiffer (hHeld : held Holder.slots s.holders = []) :
    SlotsDiffer { s with pool := { s.pool with available := [], connections := [] } }
      s.closeAllUnlocked := by
  have hFold := foldl_slotsDiffer
    (fun s p => if p = nullptr then s else s.closeConnection p)
    (fun s p hHeld => by
      split
      · exact ⟨rfl, rfl, rfl, rfl⟩
      · exact closeConnection_slotsDiffer hHeld p)
    s.pool.connections { s with pool := { s.pool with available := [] } } hHeld
  refine ⟨?_, hFold.holders, hFold.strays, hFold.severed⟩
  exact congrArg (fun pool => { pool with connections := [] }) hFold.pool

/-- The slots that `init` has made so far. -/
structure Filling (base s : Process) (created : List Ptr) : Prop where
  nodup : created.Nodup
  nonnull : ∀ p ∈ created, p ≠ nullptr
  handles : HandlesOk created s.memory s.handles
  pool : s.pool = { base.pool with nextGeneration := s.pool.nextGeneration }
  holders : s.holders = base.holders
  strays : s.strays = base.strays
  severed : s.severed = base.severed

/-- One more slot. -/
theorem Filling.connect {base : Process} {created : List Ptr} (h : Filling base s created)
    {handle : Ptr} {now : Int} (hNull : p ≠ nullptr) (hNew : p ∉ created)
    (hFresh : handle ∉ s.handles) :
    Filling base (s.connect p handle now) (created ++ [p]) where
  nodup := by
    rw [List.nodup_append]
    refine ⟨h.nodup, List.nodup_singleton p, fun q hq r hr hEq => ?_⟩
    rw [List.mem_singleton.mp hr] at hEq
    exact hNew (hEq ▸ hq)
  nonnull := by
    intro q hq
    rcases List.mem_append.mp hq with hOld | hLast
    · exact h.nonnull q hOld
    · rw [List.mem_singleton.mp hLast]
      exact hNull
  handles := by
    refine h.handles.connect hFresh (congrArg PooledConnection.mysql (if_pos rfl))
      (fun _ hNe => if_neg hNe) fun q hq hNe => ?_
    rcases List.mem_append.mp hq with hOld | hLast
    · exact hOld
    · exact absurd (List.mem_singleton.mp hLast) hNe
  pool := congrArg
    (fun pool : MySqlConnectionPool => { pool with nextGeneration := s.pool.nextGeneration + 1 })
    h.pool
  holders := h.holders
  strays := h.strays
  severed := h.severed

/-- The loop of `init` makes the slots asked for, or none. -/
theorem createSlots_spec {base : Process} (hHeld : held Holder.slots base.holders = [])
    (creations : Nat → Process.Creation) :
    ∀ (remaining : Nat) (s : Process) (created : List Ptr), Filling base s created →
      ∀ s' result, Process.createSlots creations remaining s created = some (s', result) →
        match result with
        | none => s'.pool = { base.pool with nextGeneration := s'.pool.nextGeneration } ∧
            s'.holders = base.holders ∧ s'.strays = base.strays ∧ s'.severed = base.severed
        | some created' => Filling base s' created' ∧
            created'.length = created.length + remaining := by
  intro remaining
  induction remaining with
  | zero =>
      intro s created hFilling s' result hLoop
      injection hLoop with hEq
      obtain ⟨rfl, rfl⟩ := Prod.mk.inj hEq
      exact ⟨hFilling, rfl⟩
  | succ remaining ih =>
      intro s created hFilling s' result hLoop
      unfold Process.createSlots at hLoop
      dsimp only at hLoop
      split at hLoop
      · contradiction
      · rename_i hSlot
        obtain ⟨hNull, hUsed⟩ := not_or.mp hSlot
        split at hLoop
        · injection hLoop with hEq
          obtain ⟨rfl, rfl⟩ := Prod.mk.inj hEq
          have hNobody : held Holder.slots s.holders = [] := by
            rw [hFilling.holders]
            exact hHeld
          have hClosed := foldl_slotsDiffer Process.closeConnection
            (fun s p h => closeConnection_slotsDiffer h p) created s hNobody
          refine ⟨?_, hClosed.holders.trans hFilling.holders,
            hClosed.strays.trans hFilling.strays, hClosed.severed.trans hFilling.severed⟩
          rw [hClosed.pool]
          exact hFilling.pool
        · split at hLoop
          · contradiction
          · rename_i hFresh
            have hNew : (creations created.length).slot ∉ created :=
              fun hMem => hUsed (List.mem_append_right _ hMem)
            have hRest := ih _ _ (hFilling.connect hNull hNew hFresh) s' result hLoop
            cases result with
            | none => exact hRest
            | some created' =>
                refine ⟨hRest.1, ?_⟩
                rw [hRest.2, List.length_append, List.length_singleton]
                omega

theorem sound_of_held_nil (hHeld : held Holder.slots s.holders = [])
    (hLookup : s.holders.lookup k = some holder) (memory : Ptr → PooledConnection) :
    holder.Sound memory := by
  have hNone := tokensAt_eq_nil hHeld k
  rw [tokensAt_of_lookup hLookup] at hNone
  exact .of_slots_nil hNone

namespace InvBut

/-- A pool that has stopped and owns nothing, with nobody holding a slot. -/
theorem of_stopped (hConnections : s.pool.connections = []) (hAvailable : s.pool.available = [])
    (hHeld : held Holder.slots s.holders = []) (hReady : s.pool.ready = false)
    (hStopped : s.pool.stopped = true) (hStrays : s.strays = []) (hSevered : s.severed = []) :
    Inv s where
  custody := by
    rw [hConnections, hAvailable]
    exact .issue List.nodup_nil hHeld
  nonnull := by
    rw [hConnections]
    intro p hp
    simp at hp
  handles := by
    rw [hConnections]
    exact .nil
  sound := fun k holder _ hLookup => sound_of_held_nil hHeld hLookup _
  ready := by rw [hReady, hStopped]; rfl
  gone := fun _ => hConnections
  size := by
    rw [hReady]
    intro hNot
    contradiction
  strays := hStrays
  severed := hSevered

/-- A shutdown that finds no slot in anybody's hands. -/
theorem shutdown (hInv : Inv s) (hHeld : held Holder.slots s.holders = []) : Inv s.shutdown := by
  unfold Process.shutdown
  split
  · exact hInv
  · have hClosed := closeAllUnlocked_slotsDiffer
      (s := { s with pool := { s.pool with stopped := true, ready := false } }) hHeld
    have hPool := hClosed.pool
    refine of_stopped ?_ ?_ ?_ ?_ ?_ (hClosed.strays.trans hInv.strays)
      (hClosed.severed.trans hInv.severed)
    · rw [hPool]
    · rw [hPool]
    · rw [hClosed.holders]
      exact hHeld
    · rw [hPool]
    · rw [hPool]

/-- A pool that is not ready owns nothing. -/
theorem held_nil_of_not_ready (hInv : Inv s) (hReady : ¬s.pool.ready = true) :
    held Holder.slots s.holders = [] := by
  refine (hInv.custody.nil_of_issued_nil (hInv.gone ?_)).2
  have hEq := hInv.ready
  rw [Bool.eq_false_iff.mpr hReady] at hEq
  simpa using hEq.symm

/-- An `init` that fails leaves a stopped pool. -/
theorem of_failed {base : Process}
    (hPool : s.pool = { base.pool with nextGeneration := s.pool.nextGeneration })
    (hConnections : base.pool.connections = []) (hAvailable : base.pool.available = [])
    (hReady : base.pool.ready = false) (hHeld : held Holder.slots s.holders = [])
    (hStrays : s.strays = []) (hSevered : s.severed = []) :
    Inv { s with pool := { s.pool with stopped := true } } := by
  rw [hPool]
  exact of_stopped hConnections hAvailable hHeld hReady rfl hStrays hSevered

/-- An `init` that has made all slots. -/
theorem of_filled {base : Process} {created : List Ptr} (h : Filling base s created)
    (hLength : created.length = base.pool.config.poolSize.toNat)
    (hPositive : positivePoolConfig base.pool.config = true)
    (hConnections : base.pool.connections = []) (hAvailable : base.pool.available = [])
    (hStopped : base.pool.stopped = false) (hHeld : held Holder.slots base.holders = [])
    (hStrays : base.strays = []) (hSevered : base.severed = []) (now : Int) :
    Inv { s with
      pool := { s.pool with
        available := s.pool.available ++ created
        connections := s.pool.connections ++ created
        lastIdleCheck := now
        ready := true } } := by
  have hMadeHeld : held Holder.slots s.holders = [] := by
    rw [h.holders]
    exact hHeld
  rw [h.pool, hConnections, hAvailable, List.nil_append]
  constructor
  case custody => exact .issue h.nodup hMadeHeld
  case nonnull => exact h.nonnull
  case handles => exact h.handles
  case sound => exact fun k holder _ hLookup => sound_of_held_nil hMadeHeld hLookup _
  case ready =>
    dsimp only
    rw [hStopped]
    rfl
  case gone =>
    dsimp only
    rw [hStopped]
    intro hNot
    contradiction
  case size =>
    intro _
    dsimp only
    rw [hLength]
    simp only [positivePoolConfig, Bool.and_eq_true, decide_eq_true_eq] at hPositive
    omega
  case strays => exact h.strays.trans hStrays
  case severed => exact h.severed.trans hSevered

/-- `init` builds a pool that has its invariant. -/
theorem init (hInv : Inv s) {config : MySqlConnectionPoolConfig}
    {creations : Nat → Process.Creation} {now : Int}
    (hStep : s.init config creations now = some s') : Inv s' := by
  unfold Process.init at hStep
  split at hStep
  · injection hStep with hEq
    rw [← hEq]
    exact hInv
  · rename_i hReady
    have hHeld := hInv.held_nil_of_not_ready hReady
    have hClosed := closeAllUnlocked_slotsDiffer
      (s := { s with pool := { s.pool with config := config, stopped := false, ready := false } })
      hHeld
    dsimp only at hStep
    generalize Process.closeAllUnlocked
      { s with pool := { s.pool with config := config, stopped := false, ready := false } } =
        emptied at hStep hClosed
    have hPool := hClosed.pool
    have hNobody : held Holder.slots emptied.holders = [] := by
      rw [hClosed.holders]
      exact hHeld
    have hConnections : emptied.pool.connections = [] := by rw [hPool]
    have hAvailable : emptied.pool.available = [] := by rw [hPool]
    have hNotReady : emptied.pool.ready = false := by rw [hPool]
    have hStrays := hClosed.strays.trans hInv.strays
    have hSevered := hClosed.severed.trans hInv.severed
    split at hStep
    · rename_i hPositive
      have hConfig : emptied.pool.config = config := by rw [hPool]
      have hStopped : emptied.pool.stopped = false := by rw [hPool]
      have hStart : Filling emptied emptied [] := by
        refine ⟨List.nodup_nil, ?_, .nil, rfl, rfl, rfl, rfl⟩
        intro p hp
        simp at hp
      have hLoop := createSlots_spec hNobody creations config.poolSize.toNat emptied [] hStart
      split at hStep
      · contradiction
      · rename_i made hMade
        injection hStep with hEq
        obtain ⟨hMadePool, hHolders, hMadeStrays, hMadeSevered⟩ := hLoop _ _ hMade
        rw [← hHolders] at hNobody
        rw [← hEq]
        exact of_failed hMadePool hConnections hAvailable hNotReady hNobody
          (hMadeStrays.trans hStrays) (hMadeSevered.trans hSevered)
      · rename_i made created hMade
        injection hStep with hEq
        obtain ⟨hFilling, hLength⟩ := hLoop _ _ hMade
        rw [← hEq]
        rw [← hConfig] at hLength hPositive
        exact of_filled hFilling (hLength.trans (Nat.zero_add _)) hPositive hConnections hAvailable
          hStopped hNobody hStrays hSevered now
    · injection hStep with hEq
      rw [← hEq]
      exact of_failed (s := emptied) rfl hConnections hAvailable hNotReady hNobody hStrays hSevered

end InvBut

/-! ## What a step does -/

/-- The ways of a step, one for each that a call or a guard goes on. -/
inductive Stepped (s : Process) : Action → Process → Prop where
  | init {config : MySqlConnectionPoolConfig} {creations : Nat → Process.Creation} {now : Int}
      {s' : Process} (hInit : s.init config creations now = some s') :
      Stepped s (.init config creations now) s'
  | acquire {id : Nat} (hNew : s.holders.lookup id = none) :
      Stepped s (.acquire id) (s.setHolder id (.acquiring .entered))
  | idleCheck {id : Nat} {now : Int}
      (hLookup : s.holders.lookup id = some (.acquiring .entered)) :
      Stepped s (.idleCheck id now)
        ((s.idleHealthCheckUnlocked now).1.setHolder id
          (.acquiring (Process.nextCandidate (s.idleHealthCheckUnlocked now).2)))
  | checkCandidate {id : Nat} {io : Process.HealthIo} {candidate : Ptr}
      {health health' : HealthCheck} {candidates : List Ptr} {checked : Process}
      (hLookup : s.holders.lookup id = some (.acquiring (.checking candidate health candidates)))
      (hCheck : s.ensureHealthyStep candidate io health = some (checked, health')) :
      Stepped s (.ensureHealthy id io)
        (checked.setHolder id (.acquiring (.checking candidate health' candidates)))
  | checkConnection {id : Nat} {io : Process.HealthIo} {connection : Ptr}
      {health health' : HealthCheck} {checked : Process}
      (hLookup : s.holders.lookup id = some (.acquiring (.holding connection health)))
      (hCheck : s.ensureHealthyStep connection io health = some (checked, health')) :
      Stepped s (.ensureHealthy id io)
        (checked.setHolder id (.acquiring (.holding connection health')))
  | releaseCandidate {id : Nat} {now : Int} {candidate : Ptr} {healthy : Bool}
      {candidates : List Ptr} (hLookup : s.holders.lookup id =
        some (.acquiring (.checking candidate (.returned healthy) candidates))) :
      Stepped s (.releaseCandidate id now)
        ((s.release candidate now).setHolder id (.acquiring (Process.nextCandidate candidates)))
  | wait {id : Nat} {timedOut : Bool}
      (hLookup : s.holders.lookup id = some (.acquiring .waiting)) :
      Stepped s (.wait id timedOut) (s.takeSlot id)
  | finish {id : Nat} {now : Int} {connection : Ptr} (hLookup : s.holders.lookup id =
        some (.acquiring (.holding connection (.returned true)))) :
      Stepped s (.finish id now)
        (s.setHolder id (.guard { attached := true, connection := connection }))
  | giveUp {id : Nat} {now : Int} {connection : Ptr} (hLookup : s.holders.lookup id =
        some (.acquiring (.holding connection (.returned false)))) :
      Stepped s (.finish id now) ((s.release connection now).setHolder id (.guard {}))
  | construct {id : Nat} (hNew : s.holders.lookup id = none) :
      Stepped s (.construct id) (s.setHolder id (.guard {}))
  | moveConstruct {id other : Nat} {moved : PooledMySqlConnection}
      (hNew : s.holders.lookup id = none) (hMoved : s.holders.lookup other = some (.guard moved)) :
      Stepped s (.moveConstruct id other)
        ((s.setHolder id (.guard moved)).setHolder other (.guard {}))
  | moveSelf {id : Nat} {now : Int} : Stepped s (.moveAssign id id now) s
  | moveAssign {id other : Nat} {now : Int} {owner moved : PooledMySqlConnection}
      (hLookup : s.holders.lookup id = some (.guard owner))
      (hMoved : s.holders.lookup other = some (.guard moved)) (hKeys : id ≠ other) :
      Stepped s (.moveAssign id other now)
        ((((s.setHolder id (.guard {})).reset owner now).setHolder id
          (.guard moved)).setHolder other (.guard {}))
  | destroy {id : Nat} {now : Int} {owner : PooledMySqlConnection}
      (hLookup : s.holders.lookup id = some (.guard owner)) :
      Stepped s (.destroy id now)
        (({ s with holders := s.holders.erase id } : Process).reset owner now)
  | shutdown : Stepped s .shutdown s.shutdown

theorem stepped {a : Action} (hStep : step s a = some s') : Stepped s a s' := by
  cases a <;> simp only [step] at hStep
  case init config creations now => exact .init hStep
  case shutdown =>
    rw [← Option.some.inj hStep]
    exact .shutdown
  case ensureHealthy id io =>
    split at hStep
    · rename_i hLookup
      obtain ⟨⟨checked, health'⟩, hCheck, rfl⟩ := Option.map_eq_some_iff.mp hStep
      exact .checkCandidate hLookup hCheck
    · rename_i hLookup
      obtain ⟨⟨checked, health'⟩, hCheck, rfl⟩ := Option.map_eq_some_iff.mp hStep
      exact .checkConnection hLookup hCheck
    · contradiction
  case wait id timedOut =>
    split at hStep
    · rename_i hLookup
      split at hStep
      · rw [← Option.some.inj hStep]
        exact .wait hLookup
      · contradiction
    · contradiction
  case finish id now =>
    split at hStep
    · rename_i connection healthy hLookup
      cases healthy with
      | true =>
          rw [← Option.some.inj hStep]
          exact .finish hLookup
      | false =>
          rw [← Option.some.inj hStep]
          exact .giveUp hLookup
    · contradiction
  case moveConstruct id other =>
    split at hStep
    · rename_i moved hNew hMoved
      rw [← Option.some.inj hStep]
      exact .moveConstruct hNew hMoved
    · contradiction
  case moveAssign id other now =>
    split at hStep
    · rename_i owner moved hLookup hMoved
      split at hStep
      · rename_i hKeys
        rw [← Option.some.inj hStep, ← hKeys]
        exact .moveSelf
      · rename_i hKeys
        rw [← Option.some.inj hStep]
        exact .moveAssign hLookup hMoved hKeys
    · contradiction
  -- one block under the mutex, for one party in one phase
  all_goals
    split at hStep
    · rename_i hLookup
      rw [← Option.some.inj hStep]
      first
        | exact .acquire hLookup
        | exact .idleCheck hLookup
        | exact .releaseCandidate hLookup
        | exact .construct hLookup
        | exact .destroy hLookup
    · contradiction

/-! ## Runs -/

/-- The step is a shutdown. -/
def Action.isShutdown : Action → Bool
  | .shutdown => true
  | _ => false

/-- A shutdown finds no slot with a call or a guard. -/
def Quiet (s : Process) (a : Action) : Prop :=
  a.isShutdown = true → held Holder.slots s.holders = []

instance (s : Process) (a : Action) : Decidable (Quiet s a) :=
  inferInstanceAs (Decidable (_ → _))

theorem inv_start : Inv {} :=
  .of_stopped rfl rfl rfl rfl rfl rfl rfl

/-- A step keeps the invariant, unless it shuts down a pool with leases. -/
theorem step_inv {a : Action} (hInv : Inv s) (hQuiet : Quiet s a) (hStep : step s a = some s') :
    Inv s' := by
  cases stepped hStep with
  | init hInit => exact hInv.init hInit
  | @acquire id hNew =>
      exact (hInv.but id).setHolder (tokensAt_of_lookup_none hNew).symm trivial
  | idleCheck hLookup => exact hInv.idleCheck hLookup _
  | checkCandidate hLookup hCheck =>
      exact hInv.ensureHealthy hLookup List.mem_cons_self hCheck rfl fun _ => trivial
  | checkConnection hLookup hCheck =>
      exact hInv.ensureHealthy hLookup (List.mem_singleton_self _) hCheck rfl
        Holder.Sound.holding
  | @releaseCandidate id now candidate healthy candidates hLookup =>
      have hHeld : tokensAt Holder.slots s.holders id = _ := tokensAt_of_lookup hLookup
      refine (hInv.but id).release ?_ (fun memory => sound_nextCandidate memory _) now
      rw [slots_nextCandidate, hHeld]
      · rfl
      · intro p hp
        have hAt : p ∈ tokensAt Holder.slots s.holders id := by
          rw [hHeld]
          exact List.mem_cons_of_mem _ hp
        exact hInv.nonnull p (hInv.mem_connections hAt)
  | wait hLookup => exact hInv.takeSlot hLookup
  | @finish id now connection hLookup =>
      have hHeld : tokensAt Holder.slots s.holders id = [connection] :=
        tokensAt_of_lookup hLookup
      have hAt : connection ∈ tokensAt Holder.slots s.holders id := by
        rw [hHeld]
        exact List.mem_singleton_self _
      have hNull := hInv.nonnull connection (hInv.mem_connections hAt)
      exact (hInv.but id).setHolder ((slots_guard hNull).trans hHeld.symm)
        fun _ => ⟨rfl, hInv.sound id _ (by simp) hLookup⟩
  | @giveUp id now connection hLookup =>
      exact (hInv.but id).release (tokensAt_of_lookup hLookup) sound_empty_guard now
  | @construct id hNew =>
      exact (hInv.but id).setHolder (tokensAt_of_lookup_none hNew).symm (sound_empty_guard _)
  | moveConstruct hNew hMoved =>
      refine hInv.moveFrom ?_ (tokensAt_of_lookup_none hNew) hMoved
      rintro rfl
      rw [hNew] at hMoved
      contradiction
  | moveSelf => exact hInv
  | @moveAssign id other now owner moved hLookup hMoved hKeys =>
      have hHolders := Process.reset_holders (s.setHolder id (.guard {})) owner now
      refine (hInv.resetGuard hLookup now).moveFrom (Ne.symm hKeys) ?_ ?_
      · rw [hHolders]
        refine (tokensAt_of_lookup (h := Holder.guard {}) ?_).trans rfl
        exact AList.lookup_insert _
      · rw [hHolders]
        exact (AList.lookup_insert_ne (Ne.symm hKeys)).trans hMoved
  | destroy hLookup => exact hInv.destroyGuard hLookup _
  | shutdown => exact hInv.shutdown (hQuiet rfl)

/-- The invariant after a run of such steps. -/
theorem run_inv {acts : List Action} (hInv : Inv s) (hQuiet : StepsMeet step Quiet s acts)
    (hRun : run step s acts = some s') : Inv s' :=
  run_invariant_of_stepsMeet (fun _ _ _ hInv hQuiet hStep => step_inv hInv hQuiet hStep)
    acts s s' hInv hQuiet hRun

/-- Without a shutdown every step is of that kind. -/
theorem quiet_of_no_shutdown {acts : List Action} (hNone : ∀ a ∈ acts, a.isShutdown = false) :
    StepsMeet step Quiet s acts := by
  refine .of_forall fun a ha s hShutdown => ?_
  rw [hNone a ha] at hShutdown
  contradiction

/-! ## Where the slots are -/

/-- Where a slot can be. -/
inductive Place where
  | available
  | idleCheck (id : Nat)
  | call (id : Nat)
  | guard (id : Nat)

/-- Where the slots of a party are. -/
def Holder.place (id : Nat) : Holder → Place
  | .acquiring (.checking _ _ _) => .idleCheck id
  | .acquiring _ => .call id
  | .guard _ => .guard id

/-- The slot is in this place. -/
def Process.At (s : Process) (p : Ptr) (place : Place) : Prop :=
  (place = .available ∧ p ∈ s.pool.available) ∨
    ∃ id holder, s.holders.lookup id = some holder ∧ p ∈ holder.slots ∧
      place = holder.place id

/-- No slot is lost, held twice, or handed out without a handle. -/
structure SlotsConserved (s : Process) : Prop where
  /-- Every slot is in one place. -/
  place : ∀ p ∈ s.pool.connections, ∃! place, s.At p place
  /-- No queue, list or guard has a pointer to anything else. -/
  owned : ∀ p place, s.At p place → p ∈ s.pool.connections
  available : s.pool.available.Nodup
  held : ∀ id holder, s.holders.lookup id = some holder → holder.slots.Nodup
  guards : ∀ id id' owner owner', s.holders.lookup id = some (.guard owner) →
    s.holders.lookup id' = some (.guard owner') → owner.connection ≠ nullptr →
    owner.connection = owner'.connection → id = id'
  handles : ∀ id owner, s.holders.lookup id = some (.guard owner) →
    owner.connection ≠ nullptr → (s.memory owner.connection).mysql ≠ nullptr

/-- A slot is in one place at most. -/
theorem at_unique (hInv : Inv s) {place place' : Place} (h : s.At p place)
    (h' : s.At p place') : place = place' := by
  obtain ⟨rfl, hQueued⟩ | ⟨id, holder, hLookup, hMem, rfl⟩ := h
  · obtain ⟨rfl, -⟩ | ⟨id, holder, hLookup, hMem, -⟩ := h'
    · rfl
    · rw [← slotsAt hLookup] at hMem
      exact absurd hQueued (hInv.custody.not_mem_store hMem)
  · have hAt : p ∈ tokensAt Holder.slots s.holders id := by
      rw [tokensAt_of_lookup hLookup]
      exact hMem
    obtain ⟨rfl, hQueued⟩ | ⟨id', holder', hLookup', hMem', rfl⟩ := h'
    · exact absurd hQueued (hInv.custody.not_mem_store hAt)
    · have hAt' : p ∈ tokensAt Holder.slots s.holders id' := by
        rw [tokensAt_of_lookup hLookup']
        exact hMem'
      obtain rfl := hInv.custody.eq_of_mem hAt hAt'
      rw [hLookup] at hLookup'
      rw [Option.some.inj hLookup']

/-- A slot of the pool is somewhere. -/
theorem exists_place (hInv : Inv s) (hp : p ∈ s.pool.connections) : ∃ place, s.At p place := by
  rcases hInv.custody.exists_at hp with hQueued | ⟨id, hAt⟩
  · exact ⟨.available, .inl ⟨rfl, hQueued⟩⟩
  · cases hLookup : s.holders.lookup id with
    | none =>
        rw [tokensAt_of_lookup_none hLookup] at hAt
        simp at hAt
    | some holder =>
        rw [tokensAt_of_lookup hLookup] at hAt
        exact ⟨holder.place id, .inr ⟨id, holder, hLookup, hAt, rfl⟩⟩

/-- What the invariant says about places. -/
theorem InvBut.slotsConserved (hInv : Inv s) : SlotsConserved s where
  place := by
    intro p hp
    obtain ⟨place, hAt⟩ := exists_place hInv hp
    exact ⟨place, hAt, fun place' hAt' => at_unique hInv hAt' hAt⟩
  owned := by
    rintro p place (⟨-, hQueued⟩ | ⟨id, holder, hLookup, hMem, -⟩)
    · exact hInv.custody.mem_issued_of_store hQueued
    · rw [← slotsAt hLookup] at hMem
      exact hInv.mem_connections hMem
  available := hInv.custody.store_nodup
  held := by
    intro id holder hLookup
    rw [← slotsAt hLookup]
    exact hInv.custody.tokensAt_nodup id
  guards := by
    intro id id' owner owner' hLookup hLookup' hOwns hSame
    refine hInv.custody.eq_of_mem (t := owner.connection) ?_ ?_
    · rw [tokensAt_of_lookup hLookup, slots_guard hOwns]
      exact List.mem_singleton_self _
    · rw [tokensAt_of_lookup hLookup', slots_guard (hSame ▸ hOwns), hSame]
      exact List.mem_singleton_self _
  handles := fun id owner hLookup hOwns => (hInv.sound id _ (by simp) hLookup hOwns).2

/-! ## What the pool owns -/

/-- The pool owns the same slots. -/
structure SamePool (s s' : Process) : Prop where
  ready : s'.pool.ready = s.pool.ready
  connections : s'.pool.connections = s.pool.connections
  config : s'.pool.config = s.pool.config

namespace SamePool

theorem refl (s : Process) : SamePool s s := ⟨rfl, rfl, rfl⟩

/-- One step after the other. -/
theorem trans {s₁ s₂ s₃ : Process} (h : SamePool s₁ s₂) (h' : SamePool s₂ s₃) : SamePool s₁ s₃ :=
  ⟨h'.ready.trans h.ready, h'.connections.trans h.connections, h'.config.trans h.config⟩

theorem setHolder (s : Process) (id : Nat) (holder : Holder) : SamePool s (s.setHolder id holder) :=
  ⟨rfl, rfl, rfl⟩

theorem deref (s : Process) (p : Ptr) : SamePool s (s.deref p) := by
  unfold Process.deref
  split <;> exact ⟨rfl, rfl, rfl⟩

theorem closeConnection (s : Process) (p : Ptr) : SamePool s (s.closeConnection p) := by
  unfold Process.closeConnection
  split <;> exact ⟨rfl, rfl, rfl⟩

theorem release (s : Process) (p : Ptr) (now : Int) : SamePool s (s.release p now) := by
  unfold Process.release
  split
  · exact refl s
  · split
    · exact (deref s p).trans (closeConnection _ p)
    · exact ⟨rfl, rfl, rfl⟩

theorem reset (s : Process) (owner : PooledMySqlConnection) (now : Int) :
    SamePool s (s.reset owner now) := by
  unfold Process.reset
  split
  · exact release s _ now
  · exact refl s

theorem ensureHealthyStep {io : Process.HealthIo} {health health' : HealthCheck}
    (hStep : s.ensureHealthyStep p io health = some (s', health')) : SamePool s s' := by
  have hDeref := deref s p
  unfold Process.ensureHealthyStep at hStep
  cases health with
  | starting =>
      obtain ⟨rfl, -⟩ := Prod.mk.inj (Option.some.inj hStep)
      exact hDeref
  | pinging =>
      dsimp only at hStep
      split at hStep
      · obtain ⟨rfl, -⟩ := Prod.mk.inj (Option.some.inj hStep)
        exact hDeref
      · split at hStep
        · obtain ⟨rfl, -⟩ := Prod.mk.inj (Option.some.inj hStep)
          exact hDeref.trans ⟨rfl, rfl, rfl⟩
        · obtain ⟨rfl, -⟩ := Prod.mk.inj (Option.some.inj hStep)
          exact hDeref
  | closing =>
      obtain ⟨rfl, -⟩ := Prod.mk.inj (Option.some.inj hStep)
      exact hDeref.trans (closeConnection _ p)
  | connecting attempt =>
      dsimp only at hStep
      split at hStep
      · split at hStep
        · obtain ⟨rfl, -⟩ := Prod.mk.inj (Option.some.inj hStep)
          exact refl s
        · split at hStep
          · contradiction
          · obtain ⟨rfl, -⟩ := Prod.mk.inj (Option.some.inj hStep)
            exact hDeref.trans ⟨rfl, rfl, rfl⟩
      · obtain ⟨rfl, -⟩ := Prod.mk.inj (Option.some.inj hStep)
        exact refl s
  | returned healthy => contradiction

theorem idleHealthCheckUnlocked (s : Process) (now : Int) :
    SamePool s (s.idleHealthCheckUnlocked now).1 := by
  unfold Process.idleHealthCheckUnlocked
  dsimp only
  split
  · exact refl s
  · split
    · exact refl s
    · exact ⟨rfl, rfl, rfl⟩

theorem takeSlot (s : Process) (id : Nat) : SamePool s (s.takeSlot id) := by
  unfold Process.takeSlot
  split
  · exact setHolder s id _
  · split
    · exact setHolder s id _
    · dsimp only
      split <;> exact ⟨rfl, rfl, rfl⟩

/-- Only `init` and `shutdown` change what a pool owns, and `init` does so only to one
that is not ready. -/
theorem step {a : Action} (hReady : s.pool.ready = true) (hNone : a.isShutdown = false)
    (hStep : Pool.step s a = some s') : SamePool s s' := by
  cases stepped hStep with
  | @init config creations now _ hInit =>
      rw [Process.init, if_pos hReady] at hInit
      rw [Option.some.inj hInit]
      exact refl s'
  | idleCheck _ => exact (idleHealthCheckUnlocked s _).trans (setHolder _ _ _)
  | checkCandidate _ hCheck => exact (ensureHealthyStep hCheck).trans (setHolder _ _ _)
  | checkConnection _ hCheck => exact (ensureHealthyStep hCheck).trans (setHolder _ _ _)
  | releaseCandidate _ => exact (release s _ _).trans (setHolder _ _ _)
  | wait _ => exact takeSlot s _
  | giveUp _ => exact (release s _ _).trans (setHolder _ _ _)
  | moveConstruct _ _ => exact (setHolder s _ _).trans (setHolder _ _ _)
  | moveSelf => exact refl s
  | moveAssign _ _ _ => exact (setHolder s _ _).trans ((reset _ _ _).trans ⟨rfl, rfl, rfl⟩)
  | @destroy id now owner _ =>
      have hErase : SamePool s { s with holders := s.holders.erase id } := ⟨rfl, rfl, rfl⟩
      exact hErase.trans (reset _ owner now)
  | shutdown => contradiction
  | _ => exact setHolder s _ _

/-- The slots of a ready pool stay the same until it is shut down. -/
theorem run : ∀ {acts : List Action} {s : Process}, s.pool.ready = true →
    (∀ a ∈ acts, a.isShutdown = false) → Transition.run Pool.step s acts = some s' →
    SamePool s s' := by
  intro acts
  induction acts with
  | nil =>
      intro s _ _ hRun
      rw [Option.some.inj hRun]
      exact refl s'
  | cons a acts ih =>
      intro s hReady hNone hRun
      obtain ⟨hFirst, hRest⟩ := List.forall_mem_cons.mp hNone
      obtain ⟨s₁, hStep, hRun'⟩ := run_cons_eq_some hRun
      have hSame := step hReady hFirst hStep
      exact hSame.trans (ih (hSame.ready.trans hReady) hRest hRun')

end SamePool

/-! ## What a shutdown leaves behind -/

theorem closeAllUnlocked_holders (s : Process) : s.closeAllUnlocked.holders = s.holders := by
  have hFold : ∀ (ps : List Ptr) (s : Process),
      (ps.foldl (fun s p => if p = nullptr then s else s.closeConnection p) s).holders =
        s.holders := by
    intro ps
    induction ps with
    | nil => exact fun _ => rfl
    | cons p ps ih =>
        intro s
        rw [List.foldl_cons, ih]
        split
        · rfl
        · exact Process.closeConnection_holders s p
  exact hFold _ _

/-- A shutdown that finds a slot in somebody's hands leaves them with a pointer to a slot
that is gone. -/
theorem shutdown_strands (hInv : Inv s) (hHeld : held Holder.slots s.holders ≠ []) :
    ∃ id, ∃ p ∈ tokensAt Holder.slots s.shutdown.holders id,
      p ∉ s.shutdown.pool.connections := by
  obtain ⟨p, hp⟩ := List.exists_mem_of_ne_nil _ hHeld
  obtain ⟨id, hAt⟩ := exists_tokensAt hp
  have hMem := hInv.mem_connections hAt
  refine ⟨id, p, ?_, ?_⟩
  · unfold Process.shutdown
    split
    · exact hAt
    · rw [closeAllUnlocked_holders]
      exact hAt
  · unfold Process.shutdown
    rw [hInv.running hMem]
    simp [Process.closeAllUnlocked]

/-! ## Main results -/

/-- A pool of one slot. -/
def samplePool (slot : Ptr) : Action :=
  .init { poolSize := 1 } (fun _ => { slot := slot, handle := slot, now := 1 }) 1

/-- A call that finds the slot recently checked. -/
def sampleAcquire (id : Nat) : List Action :=
  [.acquire id, .idleCheck id 2, .wait id false,
    .ensureHealthy id { now := 3, pingOk := true, created := nullptr }, .finish id 4]

/-- Whatever the threads do with a pool that `init` has made ready, as long as nobody
shuts it down, it owns the slots it was given, and each of them is in one place. -/
theorem slots_conserved {before acts : List Action} {s₀ s : Process}
    (hNone : ∀ a ∈ before ++ acts, a.isShutdown = false)
    (hBefore : run step {} before = some s₀) (hReady : s₀.pool.ready = true)
    (hRun : run step s₀ acts = some s) :
    s.pool.connections = s₀.pool.connections ∧
      (s.pool.connections.length : Int) = s₀.pool.config.poolSize ∧ SlotsConserved s := by
  have hStart := run_inv inv_start
    (quiet_of_no_shutdown fun a ha => hNone a (List.mem_append_left _ ha)) hBefore
  have hActs : ∀ a ∈ acts, a.isShutdown = false :=
    fun a ha => hNone a (List.mem_append_right _ ha)
  have hInv := run_inv hStart (quiet_of_no_shutdown hActs) hRun
  have hSame := SamePool.run hReady hActs hRun
  refine ⟨hSame.connections, ?_, hInv.slotsConserved⟩
  rw [hSame.connections]
  exact hStart.size hReady

/-- A guard is moved while another call times out. -/
theorem slots_conserved_moved :
    ∃ s₀ s, run step {} [samplePool 1] = some s₀ ∧
      run step s₀ (sampleAcquire 0 ++
        [.moveConstruct 1 0, .acquire 2, .idleCheck 2 5, .wait 2 true]) = some s ∧
      s.pool.connections = s₀.pool.connections ∧
        (s.pool.connections.length : Int) = s₀.pool.config.poolSize ∧ SlotsConserved s := by
  have hReady : (run step {} [samplePool 1]).all fun s => s.pool.ready := by decide
  have hBoth : ((run step {} [samplePool 1]).bind fun s => run step s (sampleAcquire 0 ++
      [.moveConstruct 1 0, .acquire 2, .idleCheck 2 5, .wait 2 true])).isSome := by decide
  obtain ⟨s, hs⟩ := Option.isSome_iff_exists.mp hBoth
  obtain ⟨s₀, hStart, hRun⟩ := Option.bind_eq_some_iff.mp hs
  rw [hStart] at hReady
  refine ⟨s₀, s, hStart, hRun, slots_conserved ?_ hStart hReady hRun⟩
  simp [samplePool, sampleAcquire, Action.isShutdown]

/-- Nothing was reached through a stale pointer, no guard has lost its handle, and the
queue has only pointers to slots of the pool. -/
structure LeasesSafe (s : Process) : Prop where
  strays : s.strays = []
  severed : s.severed = []
  available : ∀ p ∈ s.pool.available, p ∈ s.pool.connections

/-- Shutting down and starting again is safe as long as every shutdown finds all slots in
the queue. -/
theorem leases_safe_of_quiet {acts : List Action} {s : Process}
    (hQuiet : StepsMeet step Quiet {} acts) (hRun : run step {} acts = some s) : LeasesSafe s := by
  have hInv := run_inv inv_start hQuiet hRun
  exact ⟨hInv.strays, hInv.severed, fun p hp => hInv.custody.mem_issued_of_store hp⟩

/-- A guard is returned, the pool is shut down and started again. -/
theorem leases_safe_restarted :
    ∃ s, run step {} (samplePool 1 :: sampleAcquire 0 ++ [.destroy 0 5, .shutdown] ++
      samplePool 2 :: sampleAcquire 0) = some s ∧ LeasesSafe s := by
  obtain ⟨s, hRun⟩ := Option.isSome_iff_exists.mp
    (by decide : (run step {} (samplePool 1 :: sampleAcquire 0 ++ [.destroy 0 5, .shutdown] ++
      samplePool 2 :: sampleAcquire 0)).isSome = true)
  exact ⟨s, hRun, leases_safe_of_quiet (by decide) hRun⟩

/-- A guard is still there when the pool is shut down, and is destroyed after the pool has
been started again: its handle is closed while it owns it, its slot is written to after it
is gone, and the stale pointer ends up in the queue. -/
def sampleStale : List Action :=
  samplePool 1 :: sampleAcquire 0 ++ [.shutdown, samplePool 2, .destroy 0 5]

theorem not_leases_safe :
    ¬(∀ acts s, run step {} acts = some s → s.strays = []) ∧
      ¬(∀ acts s, run step {} acts = some s → s.severed = []) ∧
      ¬(∀ acts s, run step {} acts = some s →
        ∀ p ∈ s.pool.available, p ∈ s.pool.connections) := by
  have hRun : (run step {} sampleStale).map (fun s =>
      (s.strays, s.severed, s.pool.available, s.pool.connections)) =
        some ([1], [1], [2, 1], [2]) := by decide
  obtain ⟨s, hs, hEq⟩ := Option.map_eq_some_iff.mp hRun
  simp only [Prod.mk.injEq] at hEq
  obtain ⟨hStrays, hSevered, hAvailable, hConnections⟩ := hEq
  refine ⟨fun h => ?_, fun h => ?_, fun h => ?_⟩
  · have hNone := h _ s hs
    rw [hStrays] at hNone
    contradiction
  · have hNone := h _ s hs
    rw [hSevered] at hNone
    contradiction
  · have hAll := h _ s hs 1
    rw [hAvailable, hConnections] at hAll
    simp at hAll

end CppChat.Ports.Pool
