import CppChat.Verified.Custody
import CppChat.Verified.Transition

/-!
# The MySQL connection pool

`MySqlConnectionPool` owns its slots through `connections_`; `available_`, the calls of
`acquire` and the guards they return hold raw pointers to them.  Any number of threads
call `acquire` and move or destroy guards.  What they do under the mutex is one step
here; `ensure_healthy`, which runs without it, is one step for each of its own calls.

Pointers are numbers and memory is never unmapped, so that the model can follow a
pointer that has outlived its slot.  Two ghost fields record what must not happen:
`strays` the slots reached through a raw pointer while `connections_` does not own
them, `severed` the handles closed while a guard owns them.

The connect and I/O timeouts, the host and the account are what `mysql_real_connect` is
given; whether it succeeds is an input of the step.
-/

namespace CppChat.Ports.Pool

open CppChat.Verified

/-! ## Data -/

/-- An address. -/
abbrev Ptr := Nat

/-- The null pointer. -/
abbrev nullptr : Ptr := 0

/-- The settings of the pool. -/
structure MySqlConnectionPoolConfig where
  poolSize : Int := 4
  connectTimeoutSeconds : Int := 3
  readTimeoutSeconds : Int := 5
  writeTimeoutSeconds : Int := 5
  acquireTimeoutMs : Int := 3000
  maxReconnectAttempts : Int := 3
  idlePingIntervalSeconds : Int := 30
  idleCheckIntervalSeconds : Int := 10

/-- `positive_pool_config`. -/
def positivePoolConfig (config : MySqlConnectionPoolConfig) : Bool :=
  decide (0 < config.poolSize) &&
  decide (0 < config.connectTimeoutSeconds) &&
  decide (0 < config.readTimeoutSeconds) &&
  decide (0 < config.writeTimeoutSeconds) &&
  decide (0 < config.acquireTimeoutMs) &&
  decide (0 ≤ config.maxReconnectAttempts) &&
  decide (0 < config.idlePingIntervalSeconds) &&
  decide (0 < config.idleCheckIntervalSeconds)

/-- Time points are nanoseconds of the steady clock. -/
def seconds (n : Int) : Int := n * 1000000000

/-- A slot. -/
structure PooledConnection where
  mysql : Ptr := nullptr
  lastUsed : Int := 0
  lastChecked : Int := 0
  generation : UInt64 := 0

/-- A guard.  There is one pool, and `attached` says that `pool_` is not null. -/
structure PooledMySqlConnection where
  attached : Bool := false
  connection : Ptr := nullptr

/-- The members of the pool that its lock guards. -/
structure MySqlConnectionPool where
  available : List Ptr := []
  connections : List Ptr := []
  config : MySqlConnectionPoolConfig := {}
  lastIdleCheck : Int := 0
  nextGeneration : UInt64 := 1
  ready : Bool := false
  stopped : Bool := true

/-- Where `ensure_healthy` is: about to look at the slot, to ping it, to close it in
`reconnect_connection`, to try to connect it, or back at its caller. -/
inductive HealthCheck where
  | starting
  | pinging
  | closing
  | connecting (attempt : Nat)
  | returned (healthy : Bool)

/-- Where a call of `acquire` is. -/
inductive Acquire where
  | entered
  | checking (candidate : Ptr) (health : HealthCheck) (candidates : List Ptr)
  | waiting
  | holding (connection : Ptr) (health : HealthCheck)

/-- Who can hold slots: a call of `acquire`, or a guard. -/
inductive Holder where
  | acquiring (call : Acquire)
  | guard (guard : PooledMySqlConnection)

/-- The slots a guard owns, or a call has taken from the queue and not given back. -/
def Holder.slots : Holder → List Ptr
  | .acquiring (.checking candidate _ candidates) => candidate :: candidates
  | .acquiring (.holding connection _) => [connection]
  | .acquiring _ => []
  | .guard owner => if owner.connection = nullptr then [] else [owner.connection]

/-- The pool, the memory its pointers lead to, the open handles of the client library,
and the calls and guards.  A call goes by the name of the guard its result initialises. -/
structure Process where
  pool : MySqlConnectionPool := {}
  memory : Ptr → PooledConnection := fun _ => {}
  handles : List Ptr := []
  holders : UnorderedMap Nat Holder := ∅
  strays : List Ptr := []
  severed : List Ptr := []

namespace Process

/-- A call of `acquire` or a guard gets a new state. -/
def setHolder (s : Process) (id : Nat) (holder : Holder) : Process :=
  { s with holders := s.holders.insert id holder }

/-- Follow a raw pointer. -/
def deref (s : Process) (p : Ptr) : Process :=
  if p ∈ s.pool.connections then s else { s with strays := s.strays ++ [p] }

/-- Write to a slot through its pointer. -/
def write (s : Process) (p : Ptr) (slot : PooledConnection) : Process :=
  { s with memory := fun q => if q = p then slot else s.memory q }

/-- The handle is in the slot of this guard. -/
def ownsHandle (memory : Ptr → PooledConnection) (handle : Ptr) : Holder → Bool
  | .acquiring _ => false
  | .guard guard =>
      guard.connection != nullptr && (memory guard.connection).mysql == handle

/-- A guard owns the handle. -/
def leased (s : Process) (handle : Ptr) : Bool :=
  s.holders.entries.any fun entry => ownsHandle s.memory handle entry.2

/-- `mysql_close`.  A handle that a guard still has is severed by it. -/
def mysqlClose (s : Process) (handle : Ptr) : Process :=
  { s with
    handles := s.handles.erase handle
    severed := if s.leased handle then s.severed ++ [handle] else s.severed }

/-! ## Slots -/

/-- `close_connection`: close the handle of a slot that has one. -/
def closeConnection (s : Process) (p : Ptr) : Process :=
  if (s.memory p).mysql = nullptr then s
  else (s.mysqlClose (s.memory p).mysql).write p { s.memory p with mysql := nullptr }

/-- A new handle is put into a slot. -/
def connect (s : Process) (p handle : Ptr) (now : Int) : Process :=
  { (s.write p
      { mysql := handle
        lastUsed := now
        lastChecked := now
        generation := s.pool.nextGeneration }) with
    handles := handle :: s.handles
    pool := { s.pool with nextGeneration := s.pool.nextGeneration + 1 } }

/-- A slot without a handle, or not looked at for the ping interval. -/
def due (s : Process) (p : Ptr) (now : Int) : Bool :=
  (s.memory p).mysql == nullptr ||
    decide (seconds s.pool.config.idlePingIntervalSeconds ≤ now - (s.memory p).lastChecked)

/-- What a step of `ensure_healthy` gets from outside: the clock, the outcome of
`mysql_ping`, and the result of `create_connection`. -/
structure HealthIo where
  now : Int
  pingOk : Bool
  created : Ptr

/-- One step of `ensure_healthy`.  A handle that `mysql_init` returns is not open already. -/
def ensureHealthyStep (s : Process) (p : Ptr) (io : HealthIo) :
    HealthCheck → Option (Process × HealthCheck)
  | .starting => some (s.deref p, if s.due p io.now then .pinging else .returned true)
  | .pinging =>
      if (s.memory p).mysql = nullptr then some (s.deref p, .closing)
      else if io.pingOk then
        some ((s.deref p).write p { s.memory p with lastChecked := io.now }, .returned true)
      else some (s.deref p, .closing)
  | .closing => some ((s.deref p).closeConnection p, .connecting 0)
  | .connecting attempt =>
      if (attempt : Int) < s.pool.config.maxReconnectAttempts then
        if io.created = nullptr then some (s, .connecting (attempt + 1))
        else if io.created ∈ s.handles then none
        else some ((s.deref p).connect p io.created io.now, .returned true)
      else some (s, .returned false)
  | .returned _ => none

/-- `release`: back into the queue, or closed when the pool has stopped. -/
def release (s : Process) (p : Ptr) (now : Int) : Process :=
  if p = nullptr then s
  else if s.pool.stopped then (s.deref p).closeConnection p
  else
    { ((s.deref p).write p { s.memory p with lastUsed := now }) with
      pool := { s.pool with available := s.pool.available ++ [p] } }

/-- `close_all_unlocked`: every slot is closed, also one that is leased. -/
def closeAllUnlocked (s : Process) : Process :=
  let s := { s with pool := { s.pool with available := [] } }
  let s := s.pool.connections.foldl
    (fun s p => if p = nullptr then s else s.closeConnection p) s
  { s with pool := { s.pool with connections := [] } }

/-- The slots that `idle_health_check_unlocked` takes out of the queue, and what is left. -/
def idleHealthCheckUnlocked (s : Process) (now : Int) : Process × List Ptr :=
  let pool := s.pool
  if pool.stopped || pool.available.isEmpty then (s, [])
  else if pool.lastIdleCheck != 0 &&
      decide (now - pool.lastIdleCheck < seconds pool.config.idleCheckIntervalSeconds) then
    (s, [])
  else
    let isCandidate := fun p => p != nullptr && s.due p now
    let s := (pool.available.filter fun p => p != nullptr).foldl deref s
    ({ s with
        pool := { pool with
          lastIdleCheck := now
          available := pool.available.filter fun p => !isCandidate p } },
      pool.available.filter isCandidate)

/-! ## Starting and stopping -/

/-- One round of the loop in `init`: where the slot is allocated, what
`create_connection` returns, and the clock. -/
structure Creation where
  slot : Ptr
  handle : Ptr
  now : Int

/-- The loop in `init`.  Without a list of slots it has failed, and has closed what it had
made.  What the allocator and `mysql_init` return is not in use already. -/
def createSlots (creations : Nat → Creation) :
    Nat → Process → List Ptr → Option (Process × Option (List Ptr))
  | 0, s, created => some (s, some created)
  | remaining + 1, s, created =>
      let creation := creations created.length
      if creation.slot = nullptr ∨ creation.slot ∈ s.pool.connections ++ created then none
      else if creation.handle = nullptr then some (created.foldl closeConnection s, none)
      else if creation.handle ∈ s.handles then none
      else
        createSlots creations remaining
          (s.connect creation.slot creation.handle creation.now) (created ++ [creation.slot])

/-- `init`: nothing to do for a pool that is ready, else all slots are built anew. -/
def init (s : Process) (config : MySqlConnectionPoolConfig) (creations : Nat → Creation)
    (now : Int) : Option Process :=
  if s.pool.ready then some s
  else
    let s := closeAllUnlocked
      { s with pool := { s.pool with config := config, stopped := false, ready := false } }
    if positivePoolConfig config then
      match createSlots creations config.poolSize.toNat s [] with
      | none => none
      | some (s, none) => some { s with pool := { s.pool with stopped := true } }
      | some (s, some created) =>
          some { s with
            pool := { s.pool with
              available := s.pool.available ++ created
              connections := s.pool.connections ++ created
              lastIdleCheck := now
              ready := true } }
    else some { s with pool := { s.pool with stopped := true } }

/-- `shutdown`.  A second call finds nothing left to close. -/
def shutdown (s : Process) : Process :=
  if s.pool.stopped && s.pool.connections.isEmpty then s
  else closeAllUnlocked { s with pool := { s.pool with stopped := true, ready := false } }

/-! ## Calls and guards -/

/-- The loop over the idle-check list in `acquire`. -/
def nextCandidate : List Ptr → Acquire
  | [] => .waiting
  | candidate :: candidates =>
      if candidate = nullptr then nextCandidate candidates
      else .checking candidate .starting candidates

/-- The second locked block of `acquire`, when `wait_for` has returned. -/
def takeSlot (s : Process) (id : Nat) : Process :=
  if s.pool.stopped then s.setHolder id (.guard {})
  else
    match s.pool.available with
    | [] => s.setHolder id (.guard {})
    | connection :: available =>
        let s := { s with pool := { s.pool with available := available } }
        if connection = nullptr then s.setHolder id (.guard {})
        else s.setHolder id (.acquiring (.holding connection .starting))

/-- `reset`, called on a guard that has been emptied. -/
def reset (s : Process) (guard : PooledMySqlConnection) (now : Int) : Process :=
  if guard.attached && guard.connection != nullptr then s.release guard.connection now else s

end Process

/-- One locked block of one thread, or one step it takes without the lock. -/
inductive Action where
  | init (config : MySqlConnectionPoolConfig) (creations : Nat → Process.Creation) (now : Int)
  | acquire (id : Nat)
  | idleCheck (id : Nat) (now : Int)
  | ensureHealthy (id : Nat) (io : Process.HealthIo)
  | releaseCandidate (id : Nat) (now : Int)
  | wait (id : Nat) (timedOut : Bool)
  | finish (id : Nat) (now : Int)
  | construct (id : Nat)
  | moveConstruct (id other : Nat)
  | moveAssign (id other : Nat) (now : Int)
  | destroy (id : Nat) (now : Int)
  | shutdown

/-- `wait_for` returns when its predicate holds, or at the timeout. -/
def step (s : Process) : Action → Option Process
  | .init config creations now => s.init config creations now
  | .acquire id =>
      match s.holders.lookup id with
      | none => some (s.setHolder id (.acquiring .entered))
      | _ => none
  | .idleCheck id now =>
      match s.holders.lookup id with
      | some (.acquiring .entered) =>
          let checked := s.idleHealthCheckUnlocked now
          some (checked.1.setHolder id (.acquiring (Process.nextCandidate checked.2)))
      | _ => none
  | .ensureHealthy id io =>
      match s.holders.lookup id with
      | some (.acquiring (.checking candidate health candidates)) =>
          (s.ensureHealthyStep candidate io health).map fun checked =>
            checked.1.setHolder id (.acquiring (.checking candidate checked.2 candidates))
      | some (.acquiring (.holding connection health)) =>
          (s.ensureHealthyStep connection io health).map fun checked =>
            checked.1.setHolder id (.acquiring (.holding connection checked.2))
      | _ => none
  | .releaseCandidate id now =>
      match s.holders.lookup id with
      | some (.acquiring (.checking candidate (.returned _) candidates)) =>
          some ((s.release candidate now).setHolder id
            (.acquiring (Process.nextCandidate candidates)))
      | _ => none
  | .wait id timedOut =>
      match s.holders.lookup id with
      | some (.acquiring .waiting) =>
          if s.pool.stopped || !s.pool.available.isEmpty || timedOut then some (s.takeSlot id)
          else none
      | _ => none
  | .finish id now =>
      match s.holders.lookup id with
      | some (.acquiring (.holding connection (.returned healthy))) =>
          if healthy then
            some (s.setHolder id (.guard { attached := true, connection := connection }))
          else some ((s.release connection now).setHolder id (.guard {}))
      | _ => none
  | .construct id =>
      match s.holders.lookup id with
      | none => some (s.setHolder id (.guard {}))
      | _ => none
  | .moveConstruct id other =>
      match s.holders.lookup id, s.holders.lookup other with
      | none, some (.guard moved) =>
          some ((s.setHolder id (.guard moved)).setHolder other (.guard {}))
      | _, _ => none
  | .moveAssign id other now =>
      match s.holders.lookup id, s.holders.lookup other with
      | some (.guard guard), some (.guard moved) =>
          if id = other then some s
          else
            let s := (s.setHolder id (.guard {})).reset guard now
            some ((s.setHolder id (.guard moved)).setHolder other (.guard {}))
      | _, _ => none
  | .destroy id now =>
      match s.holders.lookup id with
      | some (.guard guard) =>
          some (({ s with holders := s.holders.erase id } : Process).reset guard now)
      | _ => none
  | .shutdown => some s.shutdown

end CppChat.Ports.Pool
