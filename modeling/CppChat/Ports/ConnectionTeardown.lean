import CppChat.Verified.Transition
import CppChat.Ports.ChatCalls

/-!
# Closing a connection while its requests are queued

The reactor reads a batch of payloads from a connection and hands it to the
thread pool as one task; a worker later runs the batch, one payload after the
other, each as a program of atomic calls.  The reactor may close the
connection at any moment.  `close_connection` runs `handle_disconnect` once,
and nothing tells the queued batch: a login that binds afterwards leaves a
session on a connection that no longer exists.

`bindsLive` is the condition under which this does not happen: a `bind` runs
while its connection is still in `connections_`.

The response queue is not part of this system.  It can only lead to further
sends and to further `close_connection` steps, and the system takes the latter
at any time anyway.

## Main results

* `step_sessionsLive`: a step that meets `bindsLive` keeps every session on a live
  connection.
* `sessions_live`: so does every run of such steps.
* `session_leaks`: a run that ends with no task left and a session on a closed
  connection.
-/

namespace CppChat.Ports.ConnectionTeardown

open CppChat.Verified
open CppChat.Verified.AtomicProgram
open CppChat.Verified.Transition
open CppChat.Ports.Protocol
open CppChat.Ports.Sessions
open CppChat.Ports.Users
open CppChat.Ports.Chat

/-! ## The system -/

/-- A thread-pool task: the payloads of one read. -/
structure Task where
  connectionId : Nat
  payloads : List Bytes

/-- A task a worker is running: what is left of the current request, and the
payloads behind it. -/
structure Job where
  connectionId : Nat
  current : Service (List OutboundMessage)
  rest : List Bytes

/-- The thread pool's sizes. -/
structure PoolConfig where
  numThreads : Nat
  maxQueueSize : Nat

/-- `max_queue_size_`: a configured size of zero counts as one. -/
def PoolConfig.queueBound (config : PoolConfig) : Nat :=
  if config.maxQueueSize = 0 then 1 else config.maxQueueSize

/-- The keys of `connections_`, the pool, and the shared service state. -/
structure Server where
  nextConnectionId : Nat := 1
  connections : UnorderedSet Nat := .empty
  tasks : List Task := []
  running : List Job := []
  chat : ChatState := {}

/-- What the event loop and the workers do to a connection. -/
inductive Action where
  | accept (registered : Bool)
  | read (connectionId : Nat) (payloads : List Bytes)
  | close (connectionId : Nat)
  | take
  | work (worker : Nat)

/-- `close_connection` of a live connection: clean up the session, then forget
the connection. -/
def Server.closeConnection (crypto : Crypto) (s : Server) (c : Nat) : Server :=
  { s with
    chat := ((handleDisconnect c).run (ServiceCall.exec crypto) s.chat).2
    connections := s.connections.erase c }

/-- The task loop of a worker: the next payload, or the end of the task. -/
def Job.nextPayload (job : Job) : List Job :=
  match job.rest with
  | [] => []
  | payload :: rest =>
      [{ connectionId := job.connectionId
         current := handleClientLine job.connectionId payload
         rest := rest }]

/-- The jobs that replace a job after one of its steps. -/
def Server.runJob (crypto : Crypto) (s : Server) (job : Job) : List Job × ChatState :=
  match job.current with
  | .done _ => (job.nextPayload, s.chat)
  | .call op next =>
      ([{ job with current := next (op.exec crypto s.chat).1 }], (op.exec crypto s.chat).2)

/-- One step of the server, as far as connections and their requests go. -/
def step (crypto : Crypto) (config : PoolConfig) (s : Server) : Action → Option Server
  -- An id is used up even when registering the socket with epoll fails.
  | .accept registered =>
      some { s with
        nextConnectionId := s.nextConnectionId + 1
        connections :=
          if registered then s.connections.insert s.nextConnectionId else s.connections }
  -- A full queue refuses the task, and the connection is closed for it.
  | .read c payloads =>
      if s.connections.contains c && !payloads.isEmpty then
        if s.tasks.length < config.queueBound then
          some { s with tasks := s.tasks ++ [{ connectionId := c, payloads := payloads }] }
        else some (s.closeConnection crypto c)
      else none
  | .close c => if s.connections.contains c then some (s.closeConnection crypto c) else none
  | .take =>
      match s.tasks with
      | [] => none
      | task :: rest =>
          if s.running.length < config.numThreads then
            some { s with
              tasks := rest
              running := s.running ++ Job.nextPayload
                { connectionId := task.connectionId, current := .done [],
                  rest := task.payloads } }
          else none
  | .work i =>
      match s.running[i]? with
      | none => none
      | some job =>
          some { s with
            running := s.running.take i ++ (s.runJob crypto job).1 ++ s.running.drop (i + 1)
            chat := (s.runJob crypto job).2 }

/-- When the step is a `bind`, the connection it binds is still open. -/
def bindsLive (s : Server) : Action → Bool
  | .work i =>
      match s.running[i]?.bind (fun job => job.current.nextCall) with
      | some (.bind session) => s.connections.contains session.connectionId
      | _ => true
  | _ => true

/-- No task is queued or running. -/
def Server.quiescent (s : Server) : Bool := s.tasks.isEmpty && s.running.isEmpty

/-! ## The invariant -/

/-- Every connection with a user is open. -/
structure SessionsLive (connections : UnorderedSet Nat) (m : SessionManager) : Prop where
  consistent : m.Consistent
  live : ∀ c u, m.usersByConnection.lookup c = some u → connections.contains c = true

/-- A call keeps sessions on open connections; a `bind` has to bring its own. -/
theorem exec_sessionsLive {crypto : Crypto} {connections : UnorderedSet Nat}
    {op : ServiceCall} {chat : ChatState}
    (hBind : ∀ session, op = .bind session → connections.contains session.connectionId)
    (h : SessionsLive connections chat.sessions) :
    SessionsLive connections (op.exec crypto chat).2.sessions := by
  refine ⟨exec_consistent crypto op chat h.consistent, ?_⟩
  intro c u hLookup
  cases op with
  | bind session =>
      have hBound : (chat.sessions.bind session).usersByConnection.lookup c = some u := hLookup
      rw [h.consistent.usersByConnection_bind] at hBound
      by_cases hEq : c = session.connectionId
      · rw [hEq]
        exact hBind session rfl
      · rw [if_neg hEq] at hBound
        split at hBound
        · contradiction
        · exact h.live c u hBound
  | unbindConnection c' =>
      have hRest : (chat.sessions.unbindConnection c').usersByConnection.lookup c = some u :=
        hLookup
      rw [SessionManager.usersByConnection_unbindConnection] at hRest
      split at hRest
      · contradiction
      · exact h.live c u hRest
  | sessionLeaveGroup g u' =>
      have hSame : (chat.sessions.leaveGroup g u').usersByConnection.lookup c = some u := hLookup
      rw [SessionManager.usersByConnection_leaveGroup] at hSame
      exact h.live c u hSame
  | _ => exact h.live c u hLookup

/-- Closing takes the session along with the connection. -/
theorem closeConnection_sessionsLive {crypto : Crypto} {s : Server} (c : Nat)
    (h : SessionsLive s.connections s.chat.sessions) :
    SessionsLive (s.closeConnection crypto c).connections
      (s.closeConnection crypto c).chat.sessions := by
  refine ⟨h.consistent.unbindConnection c, ?_⟩
  intro c' u hLookup
  have hRest : (s.chat.sessions.unbindConnection c).usersByConnection.lookup c' = some u :=
    hLookup
  rw [SessionManager.usersByConnection_unbindConnection] at hRest
  by_cases hEq : c' = c
  · rw [if_pos hEq] at hRest
    contradiction
  · rw [if_neg hEq] at hRest
    exact (s.connections.contains_erase c c').mpr ⟨hEq, h.live c' u hRest⟩

theorem runJob_sessionsLive {crypto : Crypto} {s : Server} {job : Job}
    (hBind : ∀ session, job.current.nextCall = some (.bind session) →
      s.connections.contains session.connectionId)
    (h : SessionsLive s.connections s.chat.sessions) :
    SessionsLive s.connections (s.runJob crypto job).2.sessions := by
  unfold Server.runJob
  cases hCurrent : job.current with
  | done out => exact h
  | call op next =>
      apply exec_sessionsLive _ h
      intro session hOp
      apply hBind
      rw [hCurrent]
      exact congrArg some hOp

/-- A step that meets `bindsLive` keeps every session on an open connection. -/
theorem step_sessionsLive {crypto : Crypto} {config : PoolConfig} (s : Server) (a : Action)
    (s' : Server) (h : SessionsLive s.connections s.chat.sessions)
    (hOk : bindsLive s a) (hStep : step crypto config s a = some s') :
    SessionsLive s'.connections s'.chat.sessions := by
  cases a with
  | accept registered =>
      injection hStep with hEq
      rw [← hEq]
      refine ⟨h.consistent, ?_⟩
      intro c u hLookup
      have hLive := h.live c u hLookup
      cases registered with
      | false => exact hLive
      | true => exact (s.connections.contains_insert _ c).mpr (Or.inr hLive)
  | read c payloads =>
      rw [step] at hStep
      split at hStep
      · split at hStep
        · injection hStep with hEq
          rw [← hEq]
          exact h
        · injection hStep with hEq
          rw [← hEq]
          exact closeConnection_sessionsLive c h
      · contradiction
  | close c =>
      rw [step] at hStep
      split at hStep
      · injection hStep with hEq
        rw [← hEq]
        exact closeConnection_sessionsLive c h
      · contradiction
  | take =>
      rw [step] at hStep
      cases hTasks : s.tasks with
      | nil =>
          rw [hTasks] at hStep
          contradiction
      | cons task rest =>
          simp only [hTasks] at hStep
          split at hStep
          · injection hStep with hEq
            rw [← hEq]
            exact h
          · contradiction
  | work i =>
      rw [step] at hStep
      cases hJob : s.running[i]? with
      | none =>
          rw [hJob] at hStep
          contradiction
      | some job =>
          rw [hJob] at hStep
          injection hStep with hEq
          rw [← hEq]
          apply runJob_sessionsLive _ h
          intro session hCall
          rw [bindsLive, hJob, Option.bind_some, hCall] at hOk
          exact hOk

/-- In every run whose `bind` calls each find their connection open, every
connection with a session is a key of `connections_`; in particular when no
task is queued or running. -/
theorem sessions_live (crypto : Crypto) (config : PoolConfig) (acts : List Action)
    (s : Server) (hMeet : StepsMeet (step crypto config) (fun s a => bindsLive s a) {} acts)
    (hRun : run (step crypto config) {} acts = some s) (c : Nat)
    (hSession : (s.chat.sessions.findByConnection c).isSome) :
    s.connections.contains c = true := by
  have hInit : SessionsLive ({} : Server).connections ({} : Server).chat.sessions :=
    ⟨SessionManager.Consistent.empty, by simp⟩
  have hLive : SessionsLive s.connections s.chat.sessions :=
    run_invariant_of_stepsMeet step_sessionsLive acts {} s hInit hMeet hRun
  obtain ⟨session, hFind⟩ := Option.isSome_iff_exists.mp hSession
  obtain ⟨hLookup, hConn⟩ := hLive.consistent.findByConnection_iff.mp hFind
  have hUser := hLive.consistent.lookup_connection hLookup
  rw [hConn] at hUser
  exact hLive.live c session.userId hUser

/-- A login that finishes on an open connection. -/
theorem sessions_live_afterLogin :
    ∃ s, run (step sampleCrypto ⟨2, 4⟩) {}
        ([.accept true, .read 1 [registerLine "alice", loginLine "alice"], .take] ++
          List.replicate 8 (.work 0)) = some s ∧
      s.quiescent ∧ (s.chat.sessions.findByConnection 1).isSome ∧
      s.connections.contains 1 = true := by
  obtain ⟨s, hRun, hView⟩ := Option.map_eq_some_iff.mp
    (show (run (step sampleCrypto ⟨2, 4⟩) {}
      ([.accept true, .read 1 [registerLine "alice", loginLine "alice"], .take] ++
        List.replicate 8 (.work 0))).map
          (fun s => (s.quiescent, (s.chat.sessions.findByConnection 1).isSome)) =
        some (true, true) by decide +kernel)
  injection hView with hQuiet hSession
  exact ⟨s, hRun, hQuiet, hSession,
    sessions_live sampleCrypto ⟨2, 4⟩ _ s (by decide +kernel) hRun 1 hSession⟩

/-- The connection is closed while its login waits in the queue.  When every
task is done, user 1 is online on connection 1, which is no longer there. -/
theorem session_leaks :
    (run (step sampleCrypto ⟨2, 4⟩) {}
      ([.accept true, .read 1 [registerLine "alice"], .take, .work 0, .work 0, .work 0,
        .read 1 [loginLine "alice"], .close 1, .take] ++ List.replicate 5 (.work 0))).map
      (fun s => (s.quiescent, s.chat.sessions.findByConnection 1,
        s.connections.contains 1)) =
    some (true, some { userId := 1, connectionId := 1, username := ascii "alice" },
      false) := by
  decide +kernel

end CppChat.Ports.ConnectionTeardown
