import CppChat.Verified.Transition
import CppChat.Ports.ChatRuns
import CppChat.Ports.CommandText
import CppChat.Ports.MessagesTable

/-!
# What an acknowledgement promises

With MySQL behind the stores, a `dm` or `group_message` is answered with a
`message_ack` that says `stored:true` and names a message id.  Both handlers
build it from what `append` returns, and `append` returns the same kind of
value whether it has inserted a row or not.

Several requests are in flight at once.  Each is the program of
`handle_client_line`, with `append` cut into the push under the lock and the
database part; a schedule interleaves them call by call.  The answers of all
other calls, to the session manager and to the stores of users, groups and
members, are arguments of a request: they may be anything, from one call to
the next, so that no failure of these stores is left out.

## Main results

* `handleClientLine_keeps`: every request keeps its promise, if its append does.
* `step_poolInv`: a step that meets `storesRow` keeps every promise.
* `acks_stored`: in a run of such steps every acknowledged message has its row.
* `ack_withoutRow`: a run in which the pool has no connection and the message is
  acknowledged all the same.
-/

namespace CppChat.Ports.StoredAcks

open CppChat.Verified
open CppChat.Verified.AtomicProgram
open CppChat.Verified.Transition
open CppChat.Ports.Protocol
open CppChat.Ports.Sessions
open CppChat.Ports.Users
open CppChat.Ports.Messages
open CppChat.Ports.Chat

/-! ## Requests in pool mode -/

/-- The calls of a request: those of the service, with `append` in two parts. -/
inductive PoolCall where
  | service (op : ServiceCall)
  | beginAppend (message : Message)
  | finishAppend (message : Message) (stored : StoredMessage)

/-- What each call returns. -/
def PoolCall.Result : PoolCall → Type
  | .service op => op.Result
  | .beginAppend _ => StoredMessage
  | .finishAppend _ _ => StoredMessage

/-- A program of calls in pool mode. -/
abbrev PoolProg := Prog PoolCall PoolCall.Result

/-- How a call of the service is made in pool mode. -/
def poolCall : (op : ServiceCall) → PoolProg op.Result
  | .append message =>
      .call (.beginAppend message) fun stored => .call (.finishAppend message stored) .done
  | op => .call (.service op) .done

/-- A program of the service in pool mode. -/
def pooled {α : Type} (p : Service α) : PoolProg α := p.translate poolCall

/-- A client payload, and the answers its calls to the session manager and to
the other stores will get, in the order in which it makes them. -/
structure Request where
  connectionId : Nat
  line : Bytes
  answers : Nat → (op : ServiceCall) → op.Result

/-- The message a request is about: the type, group and body of its command, the
sender found for its connection, and the receiver found for its name. -/
def Request.message (request : Request) : Option Message :=
  match parseClientCommand request.line with
  | .error _ => none
  | .ok command =>
      let session : Option Session := request.answers 0 (.findByConnection request.connectionId)
      match session with
      | none => none
      | some sender =>
          match command.type with
          | .directChat =>
              let user : Option UserRecord :=
                request.answers 1 (.findUserByUsername command.targetUsername)
              user.map fun receiver => directMessageOf sender receiver command
          | .groupChat => some (groupMessageOf sender command)
          | _ => none

/-- A request in flight: how many answers it has used, and what is left of it. -/
structure Task where
  request : Request
  asked : Nat := 0
  rest : PoolProg (List OutboundMessage)

/-- A request and its replies. -/
structure Answered where
  request : Request
  out : List OutboundMessage

/-- The store, the requests the workers are at, and those they have answered. -/
structure PoolWorkers where
  store : PooledMessageStore := {}
  inFlight : UnorderedMap Nat Task := ∅
  answered : List Answered := []

/-- A worker starts a request, or makes its next call. -/
inductive Action where
  | start (task : Nat) (request : Request)
  | work (task : Nat) (io : AppendIo)

/-- Keep what is left of a request, or record the replies of a finished one. -/
def PoolWorkers.settle (w : PoolWorkers) (id : Nat) (request : Request) (asked : Nat) :
    PoolProg (List OutboundMessage) → PoolWorkers
  | .done out =>
      { w with
        inFlight := w.inFlight.erase id
        answered := w.answered ++ [{ request := request, out := out }] }
  | .call op next =>
      let task : Task := { request := request, asked := asked, rest := .call op next }
      { w with inFlight := w.inFlight.insert id task }

/-- The next call of a request. -/
def PoolWorkers.advance (w : PoolWorkers) (id : Nat) (request : Request) (asked : Nat)
    (io : AppendIo) : PoolProg (List OutboundMessage) → Option PoolWorkers
  | .done _ => none
  | .call (.service op) next =>
      some (w.settle id request (asked + 1) (next (request.answers asked op)))
  | .call (.beginAppend message) next =>
      let (stored, store) := w.store.beginAppend message
      some (PoolWorkers.settle { w with store := store } id request asked (next stored))
  | .call (.finishAppend message stored) next =>
      let (final, store) := w.store.finishAppend message stored io
      some (PoolWorkers.settle { w with store := store } id request asked (next final))

/-- One step of the workers. -/
def step (w : PoolWorkers) : Action → Option PoolWorkers
  | .start id request =>
      if (w.inFlight.lookup id).isSome then none
      else some (w.settle id request 0
        (pooled (handleClientLine request.connectionId request.line)))
  | .work id io =>
      (w.inFlight.lookup id).bind fun task => w.advance id task.request task.asked io task.rest

/-- The acknowledgements among the replies name rows that hold the message. -/
def AcksIn (message : Option Message) (out : List OutboundMessage) (rows : List MessageRow) :
    Prop :=
  ∀ reply ∈ out, ∀ id delivered, reply.response = .messageAck id true delivered →
    ∃ stored, message = some stored ∧ ∃ row ∈ rows, row.Holds id stored

/-- Every acknowledged message has its row. -/
def AcksStored (w : PoolWorkers) : Prop :=
  ∀ entry ∈ w.answered, AcksIn entry.request.message entry.out w.store.rows

/-- The condition on a step: the database part of an append inserts its row, or
the table has a row that holds the message under the position it returns.  The second case
is luck, and it happens: after a restart positions begin at one again and meet the ids of old
rows, and a message that repeats an old one word for word may meet just this one.  It is then
in the table under the id that is acknowledged, although nothing was inserted. -/
def storesRow (w : PoolWorkers) : Action → Bool
  | .start _ _ => true
  | .work id io =>
      match (w.inFlight.lookup id).bind fun task => task.rest.nextCall with
      | some (.finishAppend message stored) =>
          io.inserts message ||
            w.store.rows.any fun row => decide (row.Holds stored.id message)
      | _ => true

/-! ## What a request needs of its append -/

/-- What is known while a request runs: how many answers it has used, and rows
that are in the table. -/
structure Known where
  asked : Nat
  rows : List MessageRow

/-- What the calls of a request lead to: after the database part of an append,
the table holds the message under the id that was returned. -/
def callSpec (request : Request) : (op : PoolCall) → Known →
    (op.Result → Known → Prop) → Prop
  | .service op, k, q => q (request.answers k.asked op) { k with asked := k.asked + 1 }
  | .beginAppend _, k, q => ∀ stored : StoredMessage, q stored k
  | .finishAppend message _, k, q => ∀ (rows : List MessageRow) (final : StoredMessage),
      (∀ row ∈ k.rows, row ∈ rows) → (∃ row ∈ rows, row.Holds final.id message) →
        q final { k with rows := rows }

/-- The promise of a request in flight. -/
def Keeps (request : Request) (p : PoolProg (List OutboundMessage)) (k : Known) : Prop :=
  p.Wp (callSpec request) (fun out k => AcksIn request.message out k.rows) k

/-- Any call but `append`. -/
def NoAppend : ServiceCall → Prop
  | .append _ => False
  | _ => True

theorem poolCall_eq {op : ServiceCall} (h : NoAppend op) :
    poolCall op = .call (.service op) .done := by
  cases op <;> first | rfl | exact h.elim

theorem AcksIn.mono {message : Option Message} {out : List OutboundMessage}
    {rows rows' : List MessageRow} (hRows : ∀ row ∈ rows, row ∈ rows')
    (h : AcksIn message out rows) : AcksIn message out rows' := by
  intro reply hMem id delivered hAck
  obtain ⟨stored, hMessage, row, hRow, hHolds⟩ := h reply hMem id delivered hAck
  exact ⟨stored, hMessage, row, hRows row hRow, hHolds⟩

/-- More rows do no harm to a promise. -/
theorem Keeps.mono {request : Request} {p : PoolProg (List OutboundMessage)} :
    ∀ {k k' : Known}, k'.asked = k.asked → (∀ row ∈ k.rows, row ∈ k'.rows) →
      Keeps request p k → Keeps request p k' := by
  induction p with
  | done out =>
      intro k k' _ hRows h
      exact AcksIn.mono hRows h
  | call op next ih =>
      intro k k' hAsked hRows h
      cases op with
      | service op =>
          have hNext : Keeps request (next (request.answers k.asked op))
            { k with asked := k.asked + 1 } := h
          show Keeps request (next (request.answers k'.asked op))
            { k' with asked := k'.asked + 1 }
          rw [hAsked]
          refine ih _ ?_ ?_ hNext
          · rfl
          · exact hRows
      | beginAppend message => exact fun stored => ih stored hAsked hRows (h stored)
      | finishAppend message stored =>
          intro rows final hMore hHolds
          have hNext : Keeps request (next final) { k with rows := rows } :=
            h rows final (fun row hRow => hMore row (hRows row hRow)) hHolds
          refine ih final ?_ ?_ hNext
          · exact hAsked
          · exact fun _ hRow => hRow

/-- A call that stores nothing. -/
theorem keeps_service {request : Request} {op : ServiceCall}
    {next : op.Result → Service (List OutboundMessage)} {k : Known} (h : NoAppend op)
    (hNext : Keeps request (pooled (next (request.answers k.asked op)))
      { k with asked := k.asked + 1 }) : Keeps request (pooled (.call op next)) k := by
  show Keeps request (poolCall op >>= fun r => pooled (next r)) k
  rw [poolCall_eq h]
  exact hNext

/-- A call that stores the message of the request. -/
theorem keeps_append {request : Request} {message : Message}
    {next : StoredMessage → Service (List OutboundMessage)} {k : Known}
    (hNext : ∀ (rows : List MessageRow) (final : StoredMessage),
      (∃ row ∈ rows, row.Holds final.id message) →
        Keeps request (pooled (next final)) { k with rows := rows }) :
    Keeps request (pooled (.call (.append message) next)) k :=
  fun _ rows final _ hHolds => hNext rows final hHolds

/-- A program without an append has to acknowledge only what is stored already. -/
theorem keeps_of_noAppend {request : Request} {rows : List MessageRow}
    {p : Service (List OutboundMessage)} (hUses : p.Uses NoAppend)
    (hReturns : p.Returns fun out => AcksIn request.message out rows) :
    ∀ asked, Keeps request (pooled p) { asked := asked, rows := rows } := by
  induction p with
  | done out => exact fun _ => hReturns
  | call op next ih =>
      intro asked
      exact keeps_service hUses.1 (ih _ (hUses.2 _) (hReturns _) (asked + 1))

/-! ## Every request keeps its promise -/

/-- A reply that acknowledges nothing. -/
def NoAck (message : OutboundMessage) : Prop :=
  ∀ id delivered, message.response ≠ .messageAck id true delivered

theorem acksIn_of_noAck {message : Option Message} {out : List OutboundMessage}
    (h : ∀ reply ∈ out, NoAck reply) (rows : List MessageRow) : AcksIn message out rows :=
  fun reply hMem id delivered hAck => absurd hAck (h reply hMem id delivered)

theorem acksIn_error {message : Option Message} (c : Nat) (text : Bytes)
    (rows : List MessageRow) : AcksIn message (reply c (.error text)) rows := by
  apply acksIn_of_noAck
  intro message hMem id delivered
  rw [List.mem_singleton.mp hMem]
  nofun

theorem acksIn_ack {stored : Message} {id : Nat} {rows : List MessageRow}
    (h : ∃ row ∈ rows, row.Holds id stored) (c : Nat) (delivered : Bool) :
    AcksIn (some stored) (reply c (.messageAck id true delivered)) rows := by
  intro message hMem id' delivered' hAck
  rw [List.mem_singleton.mp hMem] at hAck
  injection hAck with hId
  rw [← hId]
  exact ⟨stored, rfl, h⟩

theorem acksIn_append {message : Option Message} {out rest : List OutboundMessage}
    {rows : List MessageRow} (hOut : AcksIn message out rows)
    (hRest : AcksIn message rest rows) : AcksIn message (out ++ rest) rows := by
  intro reply hMem
  rcases List.mem_append.mp hMem with h | h
  · exact hOut reply h
  · exact hRest reply h

theorem handleDirectChat_keeps {request : Request} {sender : Session}
    {command : ClientCommand}
    (hMessage : ∀ receiver : UserRecord,
      request.answers 1 (.findUserByUsername command.targetUsername) = some receiver →
        request.message = some (directMessageOf sender receiver command))
    (c : Nat) (rows : List MessageRow) :
    Keeps request (pooled (handleDirectChat c sender command))
      { asked := 1, rows := rows } := by
  show Keeps request (pooled (.call (.findUserByUsername command.targetUsername) _)) _
  apply keeps_service
  · trivial
  obtain ⟨user, hUser⟩ : ∃ user : Option UserRecord,
      request.answers 1 (.findUserByUsername command.targetUsername) = user := ⟨_, rfl⟩
  dsimp only
  rw [hUser]
  cases user with
  | none => exact acksIn_error c _ rows
  | some receiver =>
      apply keeps_append
      intro rows' final hHolds
      apply keeps_of_noAppend
      · exact ⟨trivial, fun session => by cases session <;> trivial⟩
      · intro session
        rw [hMessage receiver hUser]
        cases session with
        | none => exact acksIn_ack hHolds c false
        | some target =>
            have hPush : AcksIn (some (directMessageOf sender receiver command))
                (reply target.connectionId
                  (.directMessage sender.username command.body)) rows' := by
              apply acksIn_of_noAck
              intro reply hMem id delivered
              rw [List.mem_singleton.mp hMem]
              nofun
            exact acksIn_append hPush (acksIn_ack hHolds c true)

theorem handleGroupChat_keeps {request : Request} {sender : Session}
    {command : ClientCommand}
    (hMessage : request.message = some (groupMessageOf sender command))
    (c : Nat) (rows : List MessageRow) :
    Keeps request (pooled (handleGroupChat c sender command))
      { asked := 1, rows := rows } := by
  show Keeps request (pooled (.call (.isGroupMember command.groupId sender.userId) _)) _
  apply keeps_service
  · trivial
  obtain ⟨isMember, hMember⟩ : ∃ isMember : Bool,
      request.answers 1 (.isGroupMember command.groupId sender.userId) = isMember := ⟨_, rfl⟩
  dsimp only
  rw [hMember]
  cases isMember with
  | false => exact acksIn_error c _ rows
  | true =>
      apply keeps_append
      intro rows' final hHolds
      apply keeps_of_noAppend
      · apply Prog.Uses.perform_bind trivial
        intro members
        apply Prog.Uses.bind
        · apply (pushToMembers_readOnly _ _ members).mono
          intro op hRead
          cases op <;> trivial
        · exact fun out => Prog.Uses.pure
      · apply Prog.Returns.perform_bind
        intro members
        have hPush : ∀ c, NoAck
            { connectionId := c
              response := .groupMessage command.groupId sender.username command.body } :=
          fun _ _ _ => nofun
        apply Prog.Returns.bind (pushToMembers_returns hPush _ members)
        intro out hOut
        rw [hMessage]
        exact acksIn_append (acksIn_of_noAck hOut rows') (acksIn_ack hHolds c _)

theorem handleCommand_keeps {request : Request} {command : ClientCommand}
    (hParse : parseClientCommand request.line = .ok command)
    (hType : command.type = .directChat ∨ command.type = .groupChat)
    (rows : List MessageRow) :
    Keeps request (pooled (handleCommand request.connectionId command))
      { asked := 0, rows := rows } := by
  have hSession : ¬NeedsNoSession command := by
    unfold NeedsNoSession
    rcases hType with h | h <;> rw [h] <;> decide
  rw [handleCommand_eq_session hSession]
  show Keeps request (pooled (.call (.findByConnection request.connectionId) _)) _
  apply keeps_service
  · trivial
  obtain ⟨session, hFound⟩ : ∃ session : Option Session,
      request.answers 0 (.findByConnection request.connectionId) = session := ⟨_, rfl⟩
  dsimp only
  rw [hFound]
  cases session with
  | none => exact acksIn_error _ _ rows
  | some sender =>
      rcases hType with h | h
      · have hMessage : ∀ receiver : UserRecord,
            request.answers 1 (.findUserByUsername command.targetUsername) = some receiver →
              request.message = some (directMessageOf sender receiver command) := by
          intro receiver hReceiver
          rw [Request.message, hParse]
          dsimp only
          rw [hFound]
          dsimp only
          rw [h, hReceiver]
          rfl
        show Keeps request (pooled (handleSession request.connectionId sender command)) _
        rw [handleSession, h]
        exact handleDirectChat_keeps hMessage _ rows
      · have hMessage : request.message = some (groupMessageOf sender command) := by
          rw [Request.message, hParse]
          dsimp only
          rw [hFound]
          dsimp only
          rw [h]
        show Keeps request (pooled (handleSession request.connectionId sender command)) _
        rw [handleSession, h]
        exact handleGroupChat_keeps hMessage _ rows

/-- Whatever its calls are answered, a request acknowledges only what its append
has stored. -/
theorem handleClientLine_keeps (request : Request) (rows : List MessageRow) :
    Keeps request (pooled (handleClientLine request.connectionId request.line))
      { asked := 0, rows := rows } := by
  unfold handleClientLine
  cases hParse : parseClientCommand request.line with
  | error reason => exact acksIn_error _ _ rows
  | ok command =>
      by_cases hType : command.type = .directChat ∨ command.type = .groupChat
      · exact handleCommand_keeps hParse hType rows
      · -- No other command appends or acknowledges.
        apply keeps_of_noAppend
        · apply (handleCommand_uses request.connectionId command).mono
          intro op hMade
          cases op with
          | append message => exact absurd (hMade.2.2.imp id And.left) hType
          | _ => trivial
        · apply (handleCommand_returns request.connectionId command).mono
          intro out hAnswers
          apply acksIn_of_noAck
          intro message hMem id delivered hAck
          have hAnswer := hAnswers message hMem
          rw [OutboundMessage.AnswersTo, hAck] at hAnswer
          exact hType hAnswer.1

/-! ## All runs -/

/-- Every request in flight keeps its promise, and every answered one has kept
it. -/
structure PoolInv (w : PoolWorkers) : Prop where
  tasks : ∀ id task, w.inFlight.lookup id = some task →
    Keeps task.request task.rest { asked := task.asked, rows := w.store.rows }
  acks : AcksStored w

/-- The table only grows, and a promise survives that. -/
theorem PoolInv.grow {w : PoolWorkers} (h : PoolInv w) {store : PooledMessageStore}
    (hRows : ∀ row ∈ w.store.rows, row ∈ store.rows) : PoolInv { w with store := store } where
  tasks := by
    intro id task hLookup
    refine (h.tasks id task hLookup).mono ?_ ?_
    · rfl
    · exact hRows
  acks := fun entry hMem => (h.acks entry hMem).mono hRows

/-- A request goes on, or is answered. -/
theorem PoolInv.settle {w : PoolWorkers} (h : PoolInv w) {id asked : Nat} {request : Request}
    {p : PoolProg (List OutboundMessage)}
    (hKeeps : Keeps request p { asked := asked, rows := w.store.rows }) :
    PoolInv (w.settle id request asked p) := by
  cases p with
  | done out =>
      constructor
      · intro other task hLookup
        have hErased : (w.inFlight.erase id).lookup other = some task := hLookup
        rw [UnorderedMap.lookup_erase] at hErased
        split at hErased
        · contradiction
        · exact h.tasks other task hErased
      · intro entry hMem
        rcases List.mem_append.mp hMem with hOld | hNew
        · exact h.acks entry hOld
        · rw [List.mem_singleton.mp hNew]
          exact hKeeps
  | call op next =>
      constructor
      · intro other task hLookup
        have hInsert : (w.inFlight.insert id
            { request := request, asked := asked, rest := .call op next }).lookup other =
          some task := hLookup
        rw [UnorderedMap.lookup_insert] at hInsert
        split at hInsert
        · rw [← Option.some.inj hInsert]
          exact hKeeps
        · exact h.tasks other task hInsert
      · exact h.acks

/-- The database part of an append that meets the condition leaves a row with
the message under the id it returns. -/
theorem finishAppend_holds {store : PooledMessageStore} {message : Message}
    {stored : StoredMessage} {io : AppendIo}
    (h : io.inserts message ||
      store.rows.any fun row => decide (row.Holds stored.id message)) :
    (∀ row ∈ store.rows, row ∈ (store.finishAppend message stored io).2.rows) ∧
      ∃ row ∈ (store.finishAppend message stored io).2.rows,
        row.Holds (store.finishAppend message stored io).1.id message := by
  rw [finishAppend_eq]
  cases hInserts : io.inserts message with
  | true =>
      rw [if_pos rfl]
      refine ⟨fun row => List.mem_append_left _, ?_⟩
      exact ⟨_, List.mem_append_right _ (List.mem_singleton_self _),
        MessageRow.holds_ofMessage store.nextId io.createdAt message⟩
  | false =>
      rw [hInserts, Bool.false_or, List.any_eq_true] at h
      obtain ⟨row, hRow, hHolds⟩ := h
      rw [if_neg nofun]
      exact ⟨fun _ hMem => hMem, row, hRow, of_decide_eq_true hHolds⟩

/-- A step that meets the condition keeps every promise. -/
theorem step_poolInv (w : PoolWorkers) (a : Action) (w' : PoolWorkers) (h : PoolInv w)
    (hOk : storesRow w a) (hStep : step w a = some w') : PoolInv w' := by
  cases a with
  | start id request =>
      rw [step] at hStep
      split at hStep
      · contradiction
      · rw [← Option.some.inj hStep]
        exact h.settle (handleClientLine_keeps request w.store.rows)
  | work id io =>
      obtain ⟨task, hTask, hAdvance⟩ := Option.bind_eq_some_iff.mp hStep
      have hKeeps := h.tasks id task hTask
      rw [storesRow, hTask, Option.bind_some] at hOk
      generalize task.rest = rest at hKeeps hOk hAdvance
      cases rest with
      | done out => contradiction
      | call op next =>
          cases op with
          | service op =>
              rw [← Option.some.inj hAdvance]
              exact h.settle hKeeps
          | beginAppend message =>
              have hGrown : PoolInv { w with store := (w.store.beginAppend message).2 } := by
                apply h.grow
                rw [beginAppend_eq]
                exact fun _ hRow => hRow
              rw [← Option.some.inj hAdvance]
              apply hGrown.settle
              show Keeps task.request (next (w.store.beginAppend message).1)
                { asked := task.asked, rows := (w.store.beginAppend message).2.rows }
              rw [beginAppend_eq]
              exact hKeeps _
          | finishAppend message stored =>
              obtain ⟨hRows, hHolds⟩ := finishAppend_holds hOk
              have hGrown : PoolInv { w with
                  store := (w.store.finishAppend message stored io).2 } := h.grow hRows
              rw [← Option.some.inj hAdvance]
              exact hGrown.settle (hKeeps _ _ hRows hHolds)

/-- In every run over a table of any contents whose steps meet `storesRow`, every
request that has been answered with `stored:true` and a message id has a row
under this id with its type, sender, receiver and body. -/
theorem acks_stored (store : PooledMessageStore) (acts : List Action) (w : PoolWorkers)
    (hMeet : StepsMeet step (fun w a => storesRow w a) { store := store } acts)
    (hRun : run step { store := store } acts = some w) : AcksStored w := by
  have hInit : PoolInv { store := store } := ⟨by simp, by simp [AcksStored]⟩
  exact (run_invariant_of_stepsMeet step_poolInv acts _ w hInit hMeet hRun).acks

/-! ## Alice writes to Bob -/

/-- Alice is logged in on connection 1, Bob is registered and offline. -/
def aliceOnline : Nat → (op : ServiceCall) → op.Result
  | _, .findByConnection _ =>
      some { userId := 1, connectionId := 1, username := ascii "alice" }
  | _, .findUserByUsername _ => some { id := 2, username := ascii "bob" }
  | _, op => (op.exec sampleCrypto {}).1

/-- Alice sends a short `dm`. -/
def aliceToBob : Request :=
  { connectionId := 1
    line := dmLine (ascii "bob") (ascii "hi")
    answers := aliceOnline }

/-- Nothing fails: the message is stored under id 1 and acknowledged. -/
theorem acks_stored_aliceToBob :
    ∃ w, run step {} [.start 0 aliceToBob, .work 0 {}, .work 0 {}, .work 0 {}, .work 0 {},
        .work 0 {}] = some w ∧
      w.answered.map Answered.out =
        [[{ connectionId := 1, response := .messageAck 1 true false }]] ∧
      AcksStored w := by
  obtain ⟨w, hRun, hOut⟩ := Option.map_eq_some_iff.mp
    (show (run step {} [.start 0 aliceToBob, .work 0 {}, .work 0 {}, .work 0 {}, .work 0 {},
      .work 0 {}]).map (fun w => w.answered.map Answered.out) =
        some [[{ connectionId := 1, response := .messageAck 1 true false }]] by
      decide +kernel)
  exact ⟨w, hRun, hOut, acks_stored {} _ w (by decide +kernel) hRun⟩

/-- The pool has no connection for the append: the table stays empty, and the
message is acknowledged as stored. -/
theorem ack_withoutRow :
    ∃ w, run step {} [.start 0 aliceToBob, .work 0 {}, .work 0 {}, .work 0 {},
        .work 0 { acquired := false }, .work 0 {}] = some w ∧
      w.answered.map Answered.out =
        [[{ connectionId := 1, response := .messageAck 1 true false }]] ∧
      w.store.rows = [] ∧ ¬ AcksStored w := by
  obtain ⟨w, hRun, hView⟩ := Option.map_eq_some_iff.mp
    (show (run step {} [.start 0 aliceToBob, .work 0 {}, .work 0 {}, .work 0 {},
      .work 0 { acquired := false }, .work 0 {}]).map
        (fun w => (w.answered.map Answered.out, w.store.rows)) =
        some ([[{ connectionId := 1, response := .messageAck 1 true false }]], []) by
      decide +kernel)
  injection hView with hOut hRows
  refine ⟨w, hRun, hOut, hRows, ?_⟩
  intro hStored
  have hMem : [{ connectionId := 1, response := .messageAck 1 true false }] ∈
      w.answered.map Answered.out := by
    rw [hOut]
    exact List.mem_singleton_self _
  obtain ⟨entry, hEntry, hReplies⟩ := List.mem_map.mp hMem
  have hAck := hStored entry hEntry { connectionId := 1, response := .messageAck 1 true false }
    (by rw [hReplies]; exact List.mem_singleton_self _) 1 false rfl
  obtain ⟨_, _, row, hRow, _⟩ := hAck
  rw [hRows] at hRow
  exact List.not_mem_nil hRow

end CppChat.Ports.StoredAcks
