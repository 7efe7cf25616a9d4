import CppChat.Ports.ConnectionPool

/-!
# Leases of the connection pool

Every slot that `init` makes is in one place: in `available_`, on the idle-check list of a
call of `acquire`, with a call, or with a guard.  The lists and pointers are the hands of
`Custody`, and `available_` is its store.  A step of one party changes the memory of its
own slots only, so what the others rely on stays true; `InvBut` is the invariant while a
party is at work, and `settle` ends its step.

## Main results

* `HandlesOk.close`, `HandlesOk.connect`: slots do not share handles.
* `InvBut.ensureHealthyStep`: what `ensure_healthy` does to a slot that its caller holds.
* `InvBut.idleCheck`, `InvBut.takeSlot`, `InvBut.release`: the blocks of `acquire`.
* `InvBut.moveFrom`, `InvBut.resetGuard`, `InvBut.destroyGuard`: what guards do.
-/

namespace CppChat.Ports.Pool

open CppChat.Verified
open CppChat.Verified.Transition
open CppChat.Verified.Custody

/-! ## The invariant -/

/-- The handle of a slot is open, and it is the handle of no other slot. -/
def HandlesOk (connections : List Ptr) (memory : Ptr → PooledConnection) (handles : List Ptr) :
    Prop :=
  ∀ p ∈ connections, (memory p).mysql ≠ nullptr →
    (memory p).mysql ∈ handles ∧
      ∀ q ∈ connections, (memory q).mysql = (memory p).mysql → q = p

/-- What a party relies on: the slot of a guard, and a slot found healthy, has a handle. -/
def Holder.Sound (memory : Ptr → PooledConnection) : Holder → Prop
  | .acquiring (.holding connection (.returned true)) => (memory connection).mysql ≠ nullptr
  | .acquiring _ => True
  | .guard owner =>
      owner.connection ≠ nullptr →
        owner.attached = true ∧ (memory owner.connection).mysql ≠ nullptr

/-- The invariant, but for what one party relies on. -/
structure InvBut (s : Process) (id : Option Nat) : Prop where
  custody : Conserved Holder.slots s.pool.connections s.pool.available s.holders
  nonnull : ∀ p ∈ s.pool.connections, p ≠ nullptr
  handles : HandlesOk s.pool.connections s.memory s.handles
  sound : ∀ k holder, some k ≠ id → s.holders.lookup k = some holder → holder.Sound s.memory
  ready : s.pool.ready = !s.pool.stopped
  gone : s.pool.stopped = true → s.pool.connections = []
  size : s.pool.ready = true → (s.pool.connections.length : Int) = s.pool.config.poolSize
  strays : s.strays = []
  severed : s.severed = []

/-- The invariant, with no slot out of its place. -/
abbrev Inv (s : Process) : Prop := InvBut s none

variable {s s' : Process} {id k : Nat} {p : Ptr} {holder : Holder}

theorem Inv.but (hInv : Inv s) (id : Nat) : InvBut s (some id) :=
  { hInv with sound := fun k holder _ hLookup => hInv.sound k holder (by simp) hLookup }

theorem Holder.Sound.of_slots_nil {memory : Ptr → PooledConnection} (hSlots : holder.slots = []) :
    holder.Sound memory := by
  cases holder with
  | acquiring call =>
      cases call with
      | holding => simp [Holder.slots] at hSlots
      | entered => trivial
      | checking => trivial
      | waiting => trivial
  | guard owner =>
      intro hOwns
      simp [Holder.slots, hOwns] at hSlots

/-- What a party relies on concerns its own slots. -/
theorem Holder.Sound.congr {memory memory' : Ptr → PooledConnection}
    (hSound : holder.Sound memory)
    (hSame : ∀ p ∈ holder.slots, (memory' p).mysql = (memory p).mysql) : holder.Sound memory' := by
  cases holder with
  | acquiring call =>
      cases call with
      | holding connection health =>
          have hConnection := hSame connection (by simp [Holder.slots])
          cases health with
          | returned healthy =>
              cases healthy with
              | true => exact fun hNull => hSound (hConnection.symm.trans hNull)
              | false => trivial
          | starting => trivial
          | pinging => trivial
          | closing => trivial
          | connecting => trivial
      | entered => trivial
      | checking => trivial
      | waiting => trivial
  | guard owner =>
      intro hOwns
      have hConnection := hSame owner.connection (by simp [Holder.slots, hOwns])
      obtain ⟨hAttached, hHandle⟩ := hSound hOwns
      exact ⟨hAttached, fun hNull => hHandle (hConnection.symm.trans hNull)⟩

/-! ## Handles -/

namespace HandlesOk

variable {connections handles : List Ptr} {memory memory' : Ptr → PooledConnection} {handle : Ptr}

theorem nil : HandlesOk [] memory handles := by
  intro p hMem
  simp at hMem

theorem congr (h : HandlesOk connections memory handles)
    (hSame : ∀ p ∈ connections, (memory' p).mysql = (memory p).mysql) :
    HandlesOk connections memory' handles := by
  intro p hp hHandle
  rw [hSame p hp] at hHandle ⊢
  obtain ⟨hOpen, hOnly⟩ := h p hp hHandle
  refine ⟨hOpen, fun q hq hEq => ?_⟩
  rw [hSame q hq] at hEq
  exact hOnly q hq hEq

/-- Closing the handle of one slot leaves those of the others open. -/
theorem close (h : HandlesOk connections memory handles) (hp : p ∈ connections)
    (hHandle : (memory p).mysql ≠ nullptr) (hGone : (memory' p).mysql = nullptr)
    (hSame : ∀ q, q ≠ p → memory' q = memory q) :
    HandlesOk connections memory' (handles.erase (memory p).mysql) := by
  intro q hq hOther
  have hNe : q ≠ p := by
    rintro rfl
    exact hOther hGone
  rw [hSame q hNe] at hOther ⊢
  obtain ⟨hOpen, hOnly⟩ := h q hq hOther
  constructor
  · refine (List.mem_erase_of_ne ?_).mpr hOpen
    intro hEq
    exact hNe ((h p hp hHandle).2 q hq hEq)
  · intro r hr hEq
    by_cases hrp : r = p
    · rw [hrp, hGone] at hEq
      exact absurd hEq.symm hOther
    · rw [hSame r hrp] at hEq
      exact hOnly r hr hEq

/-- A new handle is put into a slot, which may be a new one too. -/
theorem connect {connections' : List Ptr} (h : HandlesOk connections memory handles)
    (hFresh : handle ∉ handles) (hNew : (memory' p).mysql = handle)
    (hSame : ∀ q, q ≠ p → memory' q = memory q)
    (hSub : ∀ q ∈ connections', q ≠ p → q ∈ connections) :
    HandlesOk connections' memory' (handle :: handles) := by
  intro q hq hHandle
  by_cases hqp : q = p
  · rw [hqp, hNew]
    refine ⟨List.mem_cons_self, fun r hr hEq => ?_⟩
    by_contra hrp
    rw [hSame r hrp] at hEq
    by_cases hNull : (memory r).mysql = nullptr
    · rw [hqp, hNew, ← hEq] at hHandle
      exact hHandle hNull
    · exact hFresh (hEq ▸ (h r (hSub r hr hrp) hNull).1)
  · rw [hSame q hqp] at hHandle ⊢
    obtain ⟨hOpen, hOnly⟩ := h q (hSub q hq hqp) hHandle
    refine ⟨List.mem_cons_of_mem _ hOpen, fun r hr hEq => ?_⟩
    by_cases hrp : r = p
    · rw [hrp, hNew] at hEq
      exact absurd (hEq ▸ hOpen) hFresh
    · rw [hSame r hrp] at hEq
      exact hOnly r (hSub r hr hrp) hEq

end HandlesOk

/-! ## A party and its slots -/

namespace Process

@[simp] theorem write_memory (s : Process) (p q : Ptr) (slot : PooledConnection) :
    (s.write p slot).memory q = if q = p then slot else s.memory q := rfl

/-- Following a pointer to a slot of the pool is no stray access. -/
theorem deref_of_mem (hMem : p ∈ s.pool.connections) : s.deref p = s := if_pos hMem

/-- A slot is given back to a pool that runs. -/
theorem release_eq (hRuns : s.pool.stopped = false) (hMem : p ∈ s.pool.connections)
    (hNonnull : p ≠ nullptr) (now : Int) :
    s.release p now =
      { s.write p { s.memory p with lastUsed := now } with
        pool := { s.pool with available := s.pool.available ++ [p] } } := by
  unfold release
  rw [if_neg hNonnull, hRuns, deref_of_mem hMem]
  rfl

theorem closeConnection_holders (s : Process) (p : Ptr) :
    (s.closeConnection p).holders = s.holders := by
  unfold closeConnection
  split <;> rfl

theorem deref_holders (s : Process) (p : Ptr) : (s.deref p).holders = s.holders := by
  unfold deref
  split <;> rfl

theorem reset_holders (s : Process) (owner : PooledMySqlConnection) (now : Int) :
    (s.reset owner now).holders = s.holders := by
  unfold reset release
  split
  · split
    · rfl
    · split
      · rw [closeConnection_holders, deref_holders]
      · exact deref_holders _ _
  · rfl

/-- A handle is leased where some guard's slot has it. -/
theorem leased_iff {handle : Ptr} :
    s.leased handle = true ↔ ∃ k owner, s.holders.lookup k = some (.guard owner) ∧
      owner.connection ≠ nullptr ∧ (s.memory owner.connection).mysql = handle := by
  unfold leased
  rw [List.any_eq_true]
  constructor
  · rintro ⟨⟨k, holder⟩, hEntry, hOwns⟩
    cases holder with
    | acquiring call => simp [ownsHandle] at hOwns
    | guard owner =>
        simp only [ownsHandle, Bool.and_eq_true, bne_iff_ne, beq_iff_eq] at hOwns
        exact ⟨k, owner, AList.mem_lookup_iff.mpr hEntry, hOwns⟩
  · rintro ⟨k, owner, hLookup, hOwns, hHandle⟩
    refine ⟨⟨k, .guard owner⟩, AList.mem_lookup_iff.mp hLookup, ?_⟩
    simp [ownsHandle, hOwns, hHandle]

theorem leased_of_held_nil (hHeld : held Holder.slots s.holders = []) (handle : Ptr) :
    s.leased handle = false := by
  rw [Bool.eq_false_iff]
  intro hLeased
  obtain ⟨k, owner, hLookup, hOwns, -⟩ := leased_iff.mp hLeased
  have hNone := tokensAt_eq_nil hHeld k
  rw [tokensAt_of_lookup hLookup] at hNone
  simp [Holder.slots, hOwns] at hNone

end Process

theorem slotsAt (hLookup : s.holders.lookup id = some holder) :
    tokensAt Holder.slots s.holders id = holder.slots := tokensAt_of_lookup hLookup

theorem slots_guard {owner : PooledMySqlConnection} (hOwns : owner.connection ≠ nullptr) :
    (Holder.guard owner).slots = [owner.connection] := if_neg hOwns

namespace InvBut

variable {but : Option Nat}

theorem mem_connections (h : InvBut s but) (hp : p ∈ tokensAt Holder.slots s.holders id) :
    p ∈ s.pool.connections :=
  h.custody.mem_issued_of_tokensAt hp

/-- A slot that a party other than a guard holds has a handle that no guard owns. -/
theorem not_leased (h : InvBut s but) (hp : p ∈ tokensAt Holder.slots s.holders id)
    (hNoGuard : ∀ owner, s.holders.lookup id ≠ some (.guard owner))
    (hHandle : (s.memory p).mysql ≠ nullptr) : s.leased (s.memory p).mysql = false := by
  rw [Bool.eq_false_iff]
  intro hLeased
  obtain ⟨k, owner, hLookup, hOwns, hSame⟩ := Process.leased_iff.mp hLeased
  have hAt : owner.connection ∈ tokensAt Holder.slots s.holders k := by
    rw [tokensAt_of_lookup hLookup, slots_guard hOwns]
    exact List.mem_singleton_self _
  have hEq : owner.connection = p :=
    (h.handles p (h.mem_connections hp) hHandle).2 _ (h.mem_connections hAt) hSame
  rw [hEq] at hAt
  have hId : k = id := h.custody.eq_of_mem hAt hp
  rw [hId] at hLookup
  exact hNoGuard owner hLookup

/-- What a party does to the memory of its own slots does not concern the others. -/
theorem sound_of_frame (h : InvBut s (some id)) (hp : p ∈ tokensAt Holder.slots s.holders id)
    {memory : Ptr → PooledConnection} (hSame : ∀ q, q ≠ p → memory q = s.memory q) :
    ∀ k holder, some k ≠ some id → s.holders.lookup k = some holder → holder.Sound memory := by
  intro k holder hKey hLookup
  refine (h.sound k holder hKey hLookup).congr fun q hq => ?_
  have hNe : q ≠ p := by
    rintro rfl
    have hAt : q ∈ tokensAt Holder.slots s.holders k := by
      rw [tokensAt_of_lookup hLookup]
      exact hq
    exact hKey (congrArg some (h.custody.eq_of_mem hAt hp))
  rw [hSame q hNe]

/-- A holder writes to its own slot. -/
theorem write (h : InvBut s (some id)) (hp : p ∈ tokensAt Holder.slots s.holders id)
    {slot : PooledConnection} (hHandle : slot.mysql = (s.memory p).mysql) :
    InvBut (s.write p slot) (some id) :=
  { h with
    sound := h.sound_of_frame hp fun _ hNe => if_neg hNe
    handles := h.handles.congr fun q _ => by
      rw [Process.write_memory]
      split
      · rename_i hEq
        rw [hEq, hHandle]
      · rfl }

/-- A call of `acquire` closes the handle of its slot. -/
theorem closeConnection (h : InvBut s (some id)) (hp : p ∈ tokensAt Holder.slots s.holders id)
    (hNoGuard : ∀ owner, s.holders.lookup id ≠ some (.guard owner)) :
    InvBut (s.closeConnection p) (some id) := by
  unfold Process.closeConnection
  split
  · exact h
  · rename_i hHandle
    have hLeased := h.not_leased hp hNoGuard hHandle
    exact
      { h with
        handles := h.handles.close (h.mem_connections hp) hHandle
          (congrArg PooledConnection.mysql (if_pos rfl)) fun _ hNe => if_neg hNe
        sound := h.sound_of_frame hp fun _ hNe => if_neg hNe
        severed := by
          show (if s.leased (s.memory p).mysql then _ else s.severed) = []
          rw [hLeased]
          exact h.severed }

/-- A call puts a new handle into its slot. -/
theorem connect (h : InvBut s (some id)) (hp : p ∈ tokensAt Holder.slots s.holders id)
    {handle : Ptr} {now : Int} (hFresh : handle ∉ s.handles) :
    InvBut (s.connect p handle now) (some id) :=
  { h with
    handles := h.handles.connect hFresh (congrArg PooledConnection.mysql (if_pos rfl))
      (fun _ hNe => if_neg hNe) fun _ hq _ => hq
    sound := h.sound_of_frame hp fun _ hNe => if_neg hNe }

theorem setLastIdleCheck (h : InvBut s but) (now : Int) :
    InvBut { s with pool := { s.pool with lastIdleCheck := now } } but :=
  { h with }

/-- The party ends its step: it has traded with the queue, and can rely on what it holds. -/
theorem settle (h : InvBut s (some id)) {available : List Ptr}
    (hTrade : ∀ t, available.count t + holder.slots.count t =
      s.pool.available.count t + (tokensAt Holder.slots s.holders id).count t)
    (hSound : holder.Sound s.memory) :
    Inv { s with
      pool := { s.pool with available := available }
      holders := s.holders.insert id holder } :=
  { h with
    custody := h.custody.exchange hTrade
    sound := by
      intro k other _ hLookup
      change (s.holders.insert id holder).lookup k = some other at hLookup
      rw [UnorderedMap.lookup_insert] at hLookup
      split at hLookup
      · injection hLookup with hEq
        rw [← hEq]
        exact hSound
      · rename_i hKey
        exact h.sound k other (fun hEq => hKey (Option.some.inj hEq)) hLookup }

/-- The same for a party that keeps its slots. -/
theorem setHolder (h : InvBut s (some id))
    (hSlots : holder.slots = tokensAt Holder.slots s.holders id)
    (hSound : holder.Sound s.memory) : Inv (s.setHolder id holder) :=
  h.settle (fun t => by rw [hSlots]) hSound

/-- The party is gone, and what it held is in the queue. -/
theorem depart (h : InvBut s (some id)) {available : List Ptr}
    (hTrade : ∀ t, available.count t =
      s.pool.available.count t + (tokensAt Holder.slots s.holders id).count t) :
    Inv { s with
      pool := { s.pool with available := available }
      holders := s.holders.erase id } :=
  { h with
    custody := h.custody.leave hTrade
    sound := by
      intro k other _ hLookup
      change (s.holders.erase id).lookup k = some other at hLookup
      rw [UnorderedMap.lookup_erase] at hLookup
      split at hLookup
      · contradiction
      · rename_i hKey
        exact h.sound k other (fun hEq => hKey (Option.some.inj hEq)) hLookup }

/-- A pool that has slots is not stopped. -/
theorem running (h : InvBut s but) (hMem : p ∈ s.pool.connections) : s.pool.stopped = false := by
  rw [Bool.eq_false_iff]
  intro hStopped
  rw [h.gone hStopped] at hMem
  simp at hMem

/-- A slot goes back into the queue. -/
theorem release (h : InvBut s (some id))
    (hHeld : tokensAt Holder.slots s.holders id = p :: holder.slots)
    (hSound : ∀ memory, holder.Sound memory) (now : Int) :
    Inv ((s.release p now).setHolder id holder) := by
  have hp : p ∈ tokensAt Holder.slots s.holders id := by
    rw [hHeld]
    exact List.mem_cons_self
  have hMem := h.mem_connections hp
  rw [Process.release_eq (h.running hMem) hMem (h.nonnull p hMem)]
  refine (h.write hp (by rfl)).settle (fun t => ?_) (hSound _)
  change _ = _ + (tokensAt Holder.slots s.holders id).count t
  rw [hHeld]
  simp only [Process.write, List.count_append, List.count_cons, List.count_nil]
  omega

/-! ## `ensure_healthy` -/

/-- A step of `ensure_healthy` keeps the invariant, and when the slot is found healthy it
has a handle. -/
theorem ensureHealthyStep (h : InvBut s (some id))
    (hp : p ∈ tokensAt Holder.slots s.holders id)
    (hNoGuard : ∀ owner, s.holders.lookup id ≠ some (.guard owner)) {io : Process.HealthIo}
    {health health' : HealthCheck}
    (hStep : s.ensureHealthyStep p io health = some (s', health')) :
    InvBut s' (some id) ∧ s'.holders = s.holders ∧
      (health' = .returned true → (s'.memory p).mysql ≠ nullptr) := by
  have hDeref := Process.deref_of_mem (h.mem_connections hp)
  unfold Process.ensureHealthyStep at hStep
  rw [hDeref] at hStep
  split at hStep
  · injection hStep with hEq
    obtain ⟨rfl, rfl⟩ := Prod.mk.inj hEq
    refine ⟨h, rfl, fun hHealthy => ?_⟩
    split at hHealthy
    · contradiction
    · rename_i hDue
      intro hNull
      simp [Process.due, hNull] at hDue
  · split at hStep
    · injection hStep with hEq
      obtain ⟨rfl, rfl⟩ := Prod.mk.inj hEq
      exact ⟨h, rfl, nofun⟩
    · rename_i hHandle
      split at hStep
      · injection hStep with hEq
        obtain ⟨rfl, rfl⟩ := Prod.mk.inj hEq
        refine ⟨h.write hp rfl, rfl, fun _ => ?_⟩
        simpa using hHandle
      · injection hStep with hEq
        obtain ⟨rfl, rfl⟩ := Prod.mk.inj hEq
        exact ⟨h, rfl, nofun⟩
  · injection hStep with hEq
    obtain ⟨rfl, rfl⟩ := Prod.mk.inj hEq
    exact ⟨h.closeConnection hp hNoGuard, Process.closeConnection_holders s p, nofun⟩
  · split at hStep
    · split at hStep
      · injection hStep with hEq
        obtain ⟨rfl, rfl⟩ := Prod.mk.inj hEq
        exact ⟨h, rfl, nofun⟩
      · rename_i hCreated
        split at hStep
        · contradiction
        · rename_i hFresh
          injection hStep with hEq
          obtain ⟨rfl, rfl⟩ := Prod.mk.inj hEq
          refine ⟨h.connect hp hFresh, rfl, fun _ => ?_⟩
          simpa [Process.connect] using hCreated
    · injection hStep with hEq
      obtain ⟨rfl, rfl⟩ := Prod.mk.inj hEq
      exact ⟨h, rfl, nofun⟩
  · contradiction

end InvBut

/-- What a call found healthy has a handle. -/
theorem Holder.Sound.holding {memory : Ptr → PooledConnection} {health : HealthCheck}
    (hHealthy : health = .returned true → (memory p).mysql ≠ nullptr) :
    (Holder.acquiring (.holding p health)).Sound memory := by
  cases health with
  | returned healthy =>
      cases healthy with
      | true => exact hHealthy rfl
      | false => trivial
  | starting => trivial
  | pinging => trivial
  | closing => trivial
  | connecting => trivial

/-! ## The blocks of `acquire` -/

/-- The candidates of a call are what it holds. -/
theorem slots_nextCandidate : ∀ {candidates : List Ptr}, (∀ p ∈ candidates, p ≠ nullptr) →
    (Holder.acquiring (Process.nextCandidate candidates)).slots = candidates
  | [], _ => rfl
  | candidate :: candidates, hNonnull => by
      rw [Process.nextCandidate, if_neg (hNonnull candidate List.mem_cons_self)]
      rfl

theorem sound_nextCandidate (memory : Ptr → PooledConnection) :
    ∀ candidates, (Holder.acquiring (Process.nextCandidate candidates)).Sound memory := by
  intro candidates
  induction candidates with
  | nil => trivial
  | cons candidate candidates ih =>
      unfold Process.nextCandidate
      split
      · exact ih
      · trivial

/-- Looking at the slots of the pool is no stray access. -/
theorem foldl_deref : ∀ {ps : List Ptr}, (∀ p ∈ ps, p ∈ s.pool.connections) →
    ps.foldl Process.deref s = s
  | [], _ => rfl
  | p :: ps, hMem => by
      obtain ⟨hHead, hRest⟩ := List.forall_mem_cons.mp hMem
      rw [List.foldl_cons, Process.deref_of_mem hHead]
      exact foldl_deref hRest

theorem sound_empty_guard (memory : Ptr → PooledConnection) : (Holder.guard {}).Sound memory :=
  .of_slots_nil rfl

namespace InvBut

/-- A call goes on with `ensure_healthy`. -/
theorem ensureHealthy (hInv : Inv s) {call call' : Acquire} {io : Process.HealthIo}
    {health health' : HealthCheck} (hLookup : s.holders.lookup id = some (.acquiring call))
    (hp : p ∈ (Holder.acquiring call).slots)
    (hStep : s.ensureHealthyStep p io health = some (s', health'))
    (hSlots : (Holder.acquiring call').slots = (Holder.acquiring call).slots)
    (hSound : (health' = .returned true → (s'.memory p).mysql ≠ nullptr) →
      (Holder.acquiring call').Sound s'.memory) :
    Inv (s'.setHolder id (.acquiring call')) := by
  have hHeld : tokensAt Holder.slots s.holders id = _ := tokensAt_of_lookup hLookup
  obtain ⟨hBut, hHolders, hHealthy⟩ := (hInv.but id).ensureHealthyStep (hHeld ▸ hp)
    (by rw [hLookup]; exact nofun) hStep
  refine hBut.setHolder ?_ (hSound hHealthy)
  rw [hHolders, hHeld, hSlots]

/-- The idle check moves the slots that are due from the queue to the call's list. -/
theorem idleCheck (hInv : Inv s)
    (hLookup : s.holders.lookup id = some (.acquiring .entered)) (now : Int) :
    Inv ((s.idleHealthCheckUnlocked now).1.setHolder id
      (.acquiring (Process.nextCandidate (s.idleHealthCheckUnlocked now).2))) := by
  have hNone : tokensAt Holder.slots s.holders id = [] := tokensAt_of_lookup hLookup
  have hNoCandidate : Inv (s.setHolder id (.acquiring .waiting)) :=
    (hInv.but id).setHolder hNone.symm trivial
  unfold Process.idleHealthCheckUnlocked
  dsimp only
  split
  · exact hNoCandidate
  · split
    · exact hNoCandidate
    · have hAvailable : ∀ p ∈ s.pool.available, p ∈ s.pool.connections :=
        fun p hp => hInv.custody.mem_issued_of_store hp
      have hDeref : (s.pool.available.filter fun p => p != nullptr).foldl Process.deref s = s :=
        foldl_deref fun p hp => hAvailable p (List.mem_of_mem_filter hp)
      rw [hDeref]
      refine ((hInv.but id).setLastIdleCheck now).settle (fun t => ?_) (sound_nextCandidate _ _)
      rw [slots_nextCandidate fun p hp =>
        hInv.nonnull p (hAvailable p (List.mem_of_mem_filter hp)), hNone]
      have hSplit := (List.filter_append_perm
        (fun p => p != nullptr && s.due p now) s.pool.available).count_eq t
      rw [List.count_append] at hSplit
      change _ = s.pool.available.count t + 0
      omega

/-- The call takes the front slot, or returns an empty guard. -/
theorem takeSlot (hInv : Inv s)
    (hLookup : s.holders.lookup id = some (.acquiring .waiting)) : Inv (s.takeSlot id) := by
  have hNone : tokensAt Holder.slots s.holders id = [] := tokensAt_of_lookup hLookup
  have hEmpty : Inv (s.setHolder id (.guard {})) :=
    (hInv.but id).setHolder hNone.symm (sound_empty_guard _)
  unfold Process.takeSlot
  split
  · exact hEmpty
  · split
    · exact hEmpty
    · rename_i connection available hAvailable
      have hMem : connection ∈ s.pool.connections := by
        refine hInv.custody.mem_issued_of_store ?_
        rw [hAvailable]
        exact List.mem_cons_self
      dsimp only
      rw [if_neg (hInv.nonnull connection hMem)]
      refine (hInv.but id).settle (fun t => ?_) trivial
      rw [hAvailable, hNone]
      simp only [Holder.slots, List.count_cons, List.count_nil]
      omega

/-! ## Guards -/

/-- A guard that holds nothing takes over from another one. -/
theorem moveFrom (hInv : Inv s) {other : Nat} {moved : PooledMySqlConnection}
    (hKeys : other ≠ id) (hNone : tokensAt Holder.slots s.holders id = [])
    (hMoved : s.holders.lookup other = some (.guard moved)) :
    Inv ((s.setHolder id (.guard moved)).setHolder other (.guard {})) :=
  { hInv with
    custody := hInv.custody.handOver hKeys hNone (tokensAt_of_lookup hMoved).symm rfl
    sound := by
      intro k holder hKey hLookup
      simp only [Process.setHolder, UnorderedMap.lookup_insert] at hLookup
      split at hLookup
      · injection hLookup with hEq
        rw [← hEq]
        exact sound_empty_guard _
      · split at hLookup
        · injection hLookup with hEq
          rw [← hEq]
          exact hInv.sound other _ (by simp) hMoved
        · exact hInv.sound k holder hKey hLookup }

/-- What `reset` does with the slot of a guard. -/
theorem reset_cases (hInv : Inv s) {owner : PooledMySqlConnection}
    (hLookup : s.holders.lookup id = some (.guard owner)) :
    (owner.connection = nullptr ∧ tokensAt Holder.slots s.holders id = []) ∨
      (owner.attached = true ∧ owner.connection ≠ nullptr ∧
        tokensAt Holder.slots s.holders id = [owner.connection]) := by
  rw [tokensAt_of_lookup hLookup]
  by_cases hOwns : owner.connection = nullptr
  · exact .inl ⟨hOwns, if_pos hOwns⟩
  · exact .inr ⟨(hInv.sound id _ (by simp) hLookup hOwns).1, hOwns, slots_guard hOwns⟩

/-- A guard gives its slot back, and is empty afterwards. -/
theorem resetGuard (hInv : Inv s) {owner : PooledMySqlConnection}
    (hLookup : s.holders.lookup id = some (.guard owner)) (now : Int) :
    Inv ((s.setHolder id (.guard {})).reset owner now) := by
  unfold Process.reset
  obtain ⟨hNull, hNone⟩ | ⟨hAttached, hOwns, hHeld⟩ := hInv.reset_cases hLookup
  · rw [hNull]
    simp only [bne_self_eq_false, Bool.and_false, Bool.false_eq_true, if_false]
    exact (hInv.but id).setHolder hNone.symm (sound_empty_guard _)
  · have hp : owner.connection ∈ tokensAt Holder.slots s.holders id := by
      rw [hHeld]
      exact List.mem_singleton_self _
    have hMem := hInv.mem_connections hp
    rw [if_pos (by simp [hAttached, hOwns]),
      Process.release_eq (s := s.setHolder id (.guard {})) (hInv.running hMem) hMem hOwns]
    refine ((hInv.but id).write hp (by rfl)).settle (fun t => ?_) (sound_empty_guard _)
    change _ = _ + (tokensAt Holder.slots s.holders id).count t
    rw [hHeld, List.count_append]
    rfl

/-- A guard gives its slot back at the end of its life. -/
theorem destroyGuard (hInv : Inv s) {owner : PooledMySqlConnection}
    (hLookup : s.holders.lookup id = some (.guard owner)) (now : Int) :
    Inv (({ s with holders := s.holders.erase id } : Process).reset owner now) := by
  unfold Process.reset
  obtain ⟨hNull, hNone⟩ | ⟨hAttached, hOwns, hHeld⟩ := hInv.reset_cases hLookup
  · rw [hNull]
    simp only [bne_self_eq_false, Bool.and_false, Bool.false_eq_true, if_false]
    refine (hInv.but id).depart (fun t => ?_)
    rw [hNone]
    rfl
  · have hp : owner.connection ∈ tokensAt Holder.slots s.holders id := by
      rw [hHeld]
      exact List.mem_singleton_self _
    have hMem := hInv.mem_connections hp
    rw [if_pos (by simp [hAttached, hOwns]),
      Process.release_eq (s := { s with holders := s.holders.erase id })
        (hInv.running hMem) hMem hOwns]
    refine ((hInv.but id).write hp (by rfl)).depart (fun t => ?_)
    change _ = _ + (tokensAt Holder.slots s.holders id).count t
    rw [hHeld, List.count_append]
    rfl

end InvBut

end CppChat.Ports.Pool
