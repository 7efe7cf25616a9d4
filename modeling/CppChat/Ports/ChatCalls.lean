import CppChat.Ports.ChatService

/-!
# The calls a request can make

A request is a program of calls, and which calls it can still make depends on
its command alone: only a login binds a session, only a logout unbinds one,
only a join or a creation adds a member, only a chat command stores a message.
`ServiceCall.MadeFor` writes this table down once.  The proofs about whole
runs, sequential or interleaved, use the table and never unfold a handler
they are not about.

The replies have a table of their own, `OutboundMessage.AnswersTo`: which
commands can lead to a reply, and to whom it is addressed.

## Main results

* `exec_readOnly`: the calls that only read leave the state alone.
* `handleCommand_uses`: a command makes no call outside its row of the table.
* `handleCommand_returns`: a command gives no reply outside the reply table.
-/

namespace CppChat.Ports.Chat

open CppChat.Verified
open CppChat.Verified.AtomicProgram
open CppChat.Ports.Protocol
open CppChat.Ports.Sessions
open CppChat.Ports.Users
open CppChat.Ports.Groups
open CppChat.Ports.Messages

/-- Calls that change nothing. -/
def ServiceCall.ReadOnly : ServiceCall → Prop
  | .bind _ => False
  | .unbindConnection _ => False
  | .sessionJoinGroup _ _ => False
  | .sessionLeaveGroup _ _ => False
  | .registerUser _ _ => False
  | .createGroup _ _ => False
  | .joinGroup _ _ => False
  | .leaveGroup _ _ => False
  | .append _ => False
  | _ => True

/-- A read-only call leaves the state alone. -/
theorem exec_readOnly (crypto : Crypto) (op : ServiceCall) (s : ChatState)
    (h : op.ReadOnly) : (op.exec crypto s).2 = s := by
  cases op <;> first | rfl | exact h.elim

/-- The calls a command on a connection can make. -/
def ServiceCall.MadeFor (connectionId : Nat) (command : ClientCommand) :
    ServiceCall → Prop
  | .bind session => command.type = .login ∧ session.connectionId = connectionId
  | .unbindConnection c => command.type = .logout ∧ c = connectionId
  | .sessionJoinGroup groupId _ =>
      command.type = .createGroup ∨ (command.type = .groupJoin ∧ groupId = command.groupId)
  | .sessionLeaveGroup groupId _ =>
      command.type = .groupLeave ∧ groupId = command.groupId
  | .registerUser username password =>
      command.type = .register ∧ username = command.username ∧ password = command.password
  | .createGroup name _ => command.type = .createGroup ∧ name = command.groupName
  | .joinGroup groupId _ =>
      command.type = .createGroup ∨ (command.type = .groupJoin ∧ groupId = command.groupId)
  | .leaveGroup groupId _ => command.type = .groupLeave ∧ groupId = command.groupId
  | .append message =>
      message.body = command.body ∧ message.type = command.type ∧
        (command.type = .directChat ∨
          (command.type = .groupChat ∧ message.receiverId = command.groupId))
  | _ => True

/-- Every command may read. -/
theorem madeFor_of_readOnly (connectionId : Nat) (command : ClientCommand)
    (op : ServiceCall) (h : op.ReadOnly) : op.MadeFor connectionId command := by
  cases op <;> trivial

/-- Every call keeps the two session indexes inverse to each other. -/
theorem exec_consistent (crypto : Crypto) (op : ServiceCall) (s : ChatState)
    (h : s.sessions.Consistent) : (op.exec crypto s).2.sessions.Consistent := by
  cases op with
  | bind session => exact h.bind session
  | unbindConnection c => exact h.unbindConnection c
  | sessionJoinGroup g u => exact h.joinGroup g u
  | sessionLeaveGroup g u => exact h.leaveGroup g u
  | _ => exact h

/-! ## The loops only read -/

/-- Delivering a group message only looks sessions up. -/
theorem pushToMembers_readOnly (senderId : Nat) (formatted : Response)
    (members : List Nat) :
    (pushToMembers senderId formatted members).Uses ServiceCall.ReadOnly := by
  induction members with
  | nil => trivial
  | cons memberId rest ih =>
      rw [pushToMembers]
      apply Prog.Uses.ite ih
      apply Prog.Uses.perform_bind trivial
      intro session
      apply Prog.Uses.bind ih
      intro out
      cases session <;> trivial

/-- A history item only looks users up. -/
theorem groupHistoryItem_readOnly (connectionId : Nat) (message : StoredMessage) :
    (groupHistoryItem connectionId message).Uses ServiceCall.ReadOnly :=
  ⟨trivial, fun _ => trivial⟩

theorem directHistoryItem_readOnly (connectionId : Nat) (message : StoredMessage) :
    (directHistoryItem connectionId message).Uses ServiceCall.ReadOnly :=
  ⟨trivial, fun _ => ⟨trivial, fun _ => trivial⟩⟩

theorem unreadItem_readOnly (connectionId : Nat) (message : StoredMessage) :
    (unreadItem connectionId message).Uses ServiceCall.ReadOnly :=
  Prog.Uses.ite (groupHistoryItem_readOnly connectionId message)
    (directHistoryItem_readOnly connectionId message)

/-- A page makes no other calls than its items. -/
theorem historyItems_readOnly {item : StoredMessage → Service OutboundMessage}
    (hItem : ∀ message, (item message).Uses ServiceCall.ReadOnly)
    (page : List StoredMessage) :
    (historyItems item page).Uses ServiceCall.ReadOnly := by
  induction page with
  | nil => trivial
  | cons message rest ih =>
      apply Prog.Uses.bind (hItem message)
      intro first
      apply Prog.Uses.bind ih
      intro others
      trivial

/-- A history changes nothing. -/
theorem handleHistoryQuery_readOnly (connectionId : Nat) (sender : Session)
    (command : ClientCommand) :
    (handleHistoryQuery connectionId sender command).Uses ServiceCall.ReadOnly := by
  unfold handleHistoryQuery
  apply Prog.Uses.ite
  · apply Prog.Uses.perform_bind trivial
    intro isMember
    apply Prog.Uses.ite Prog.Uses.pure
    apply Prog.Uses.perform_bind trivial
    intro page
    apply Prog.Uses.bind (historyItems_readOnly (groupHistoryItem_readOnly connectionId) _)
    intro out
    trivial
  · apply Prog.Uses.perform_bind trivial
    intro peer
    cases peer with
    | none => trivial
    | some peer =>
        apply Prog.Uses.perform_bind trivial
        intro page
        apply Prog.Uses.bind
          (historyItems_readOnly (directHistoryItem_readOnly connectionId) _)
        intro out
        trivial

/-- An unread query changes nothing. -/
theorem handleUnreadQuery_readOnly (connectionId : Nat) (sender : Session)
    (command : ClientCommand) :
    (handleUnreadQuery connectionId sender command).Uses ServiceCall.ReadOnly := by
  unfold handleUnreadQuery
  apply Prog.Uses.perform_bind trivial
  intro groupIds
  apply Prog.Uses.perform_bind trivial
  intro page
  apply Prog.Uses.bind (historyItems_readOnly (unreadItem_readOnly connectionId) _)
  intro out
  trivial

/-! ## The handlers that write -/

variable {connectionId : Nat} {sender : Session} {command : ClientCommand}

/-- `register` makes no change but a new account. -/
theorem handleRegister_uses (h : command.type = .register) :
    (handleRegister connectionId command).Uses
      (ServiceCall.MadeFor connectionId command) := by
  apply Prog.Uses.perform_bind trivial
  intro session
  apply Prog.Uses.ite Prog.Uses.pure
  apply Prog.Uses.perform_bind ⟨h, rfl, rfl⟩
  intro result
  cases result <;> trivial

/-- `login` makes no change but a new session. -/
theorem handleLogin_uses (h : command.type = .login) :
    (handleLogin connectionId command).Uses
      (ServiceCall.MadeFor connectionId command) := by
  apply Prog.Uses.perform_bind trivial
  intro session
  apply Prog.Uses.ite Prog.Uses.pure
  apply Prog.Uses.perform_bind trivial
  intro online
  apply Prog.Uses.ite Prog.Uses.pure
  apply Prog.Uses.perform_bind trivial
  intro verified
  cases verified with
  | none => trivial
  | some user => exact ⟨⟨h, rfl⟩, fun _ => trivial⟩

theorem handleLogout_uses (h : command.type = .logout) :
    (handleLogout connectionId).Uses (ServiceCall.MadeFor connectionId command) :=
  ⟨⟨h, rfl⟩, fun _ => trivial⟩

/-- `create_group` makes no change but a new group and the joins of its owner. -/
theorem handleCreateGroup_uses (h : command.type = .createGroup) :
    (handleCreateGroup connectionId sender command).Uses
      (ServiceCall.MadeFor connectionId command) := by
  apply Prog.Uses.perform_bind ⟨h, rfl⟩
  intro created
  cases created with
  | error reason => trivial
  | ok group =>
      refine ⟨Or.inl h, ?_⟩
      intro joined
      cases joined with
      | error reason => trivial
      | ok already => exact ⟨Or.inl h, fun _ => trivial⟩

theorem handleGroupJoin_uses (h : command.type = .groupJoin) :
    (handleGroupJoin connectionId sender command).Uses
      (ServiceCall.MadeFor connectionId command) := by
  refine ⟨Or.inr ⟨h, rfl⟩, ?_⟩
  intro joined
  cases joined with
  | error reason => trivial
  | ok already => exact ⟨Or.inr ⟨h, rfl⟩, fun _ => trivial⟩

theorem handleGroupLeave_uses (h : command.type = .groupLeave) :
    (handleGroupLeave connectionId sender command).Uses
      (ServiceCall.MadeFor connectionId command) := by
  apply Prog.Uses.perform_bind ⟨h, rfl⟩
  intro left
  cases left with
  | error reason => trivial
  | ok done => exact ⟨⟨h, rfl⟩, fun _ => trivial⟩

/-- `group_message` makes no change but one new message. -/
theorem handleGroupChat_uses (h : command.type = .groupChat) :
    (handleGroupChat connectionId sender command).Uses
      (ServiceCall.MadeFor connectionId command) := by
  apply Prog.Uses.perform_bind trivial
  intro isMember
  apply Prog.Uses.ite Prog.Uses.pure
  apply Prog.Uses.perform_bind ⟨rfl, h.symm, Or.inr ⟨h, rfl⟩⟩
  intro stored
  apply Prog.Uses.perform_bind trivial
  intro members
  apply Prog.Uses.bind
    ((pushToMembers_readOnly _ _ members).mono (madeFor_of_readOnly connectionId command))
  intro out
  trivial

/-- `dm` makes no change but one new message. -/
theorem handleDirectChat_uses (h : command.type = .directChat) :
    (handleDirectChat connectionId sender command).Uses
      (ServiceCall.MadeFor connectionId command) := by
  apply Prog.Uses.perform_bind trivial
  intro receiver
  cases receiver with
  | none => trivial
  | some receiver =>
      apply Prog.Uses.perform_bind ⟨rfl, h.symm, Or.inl h⟩
      intro stored
      apply Prog.Uses.perform_bind trivial
      intro session
      cases session <;> trivial

/-- Every command that needs a session keeps to its calls. -/
theorem handleSession_uses (connectionId : Nat) (sender : Session)
    (command : ClientCommand) :
    (handleSession connectionId sender command).Uses
      (ServiceCall.MadeFor connectionId command) := by
  unfold handleSession
  split
  case h_1 h => exact handleLogout_uses h
  case h_2 h => exact handleCreateGroup_uses h
  case h_3 h => exact handleGroupJoin_uses h
  case h_4 h => exact handleGroupLeave_uses h
  case h_5 h => exact handleGroupChat_uses h
  case h_6 =>
    exact (handleHistoryQuery_readOnly connectionId sender command).mono
      (madeFor_of_readOnly connectionId command)
  case h_7 h => exact handleDirectChat_uses h
  case h_8 =>
    exact (handleUnreadQuery_readOnly connectionId sender command).mono
      (madeFor_of_readOnly connectionId command)
  case h_9 => trivial

/-- A command makes no call outside its row of the table. -/
theorem handleCommand_uses (connectionId : Nat) (command : ClientCommand) :
    (handleCommand connectionId command).Uses
      (ServiceCall.MadeFor connectionId command) := by
  unfold handleCommand
  split
  case h_1 => trivial
  case h_2 h => exact handleRegister_uses h
  case h_3 h => exact handleLogin_uses h
  case h_4 =>
    apply Prog.Uses.perform_bind trivial
    intro sender
    cases sender with
    | none => trivial
    | some sender => exact handleSession_uses connectionId sender command

/-- A payload makes the calls of the command it is parsed to. -/
theorem handleClientLine_uses {allowed : ServiceCall → Prop} (connectionId : Nat)
    (line : Bytes)
    (h : ∀ command, parseClientCommand line = .ok command →
      ∀ op, ServiceCall.MadeFor connectionId command op → allowed op) :
    (handleClientLine connectionId line).Uses allowed := by
  unfold handleClientLine
  cases hParse : parseClientCommand line with
  | error reason => trivial
  | ok command => exact (handleCommand_uses connectionId command).mono (h command hParse)

/-! ## The replies -/

/-- The replies a command on a connection can lead to.  All but the pushed
messages go back to the requester. -/
def OutboundMessage.AnswersTo (connectionId : Nat) (command : ClientCommand)
    (message : OutboundMessage) : Prop :=
  match message.response with
  | .directMessage _ body => command.type = .directChat ∧ body = command.body
  | .groupMessage groupId _ body =>
      command.type = .groupChat ∧ groupId = command.groupId ∧ body = command.body
  | .loginSuccess _ _ => command.type = .login ∧ message.connectionId = connectionId
  | .createGroupSuccess _ _ =>
      command.type = .createGroup ∧ message.connectionId = connectionId
  | .messageAck _ _ _ =>
      (command.type = .directChat ∨ command.type = .groupChat) ∧
        message.connectionId = connectionId
  | _ => message.connectionId = connectionId

/-- All replies of a list answer the command. -/
abbrev Answers (connectionId : Nat) (command : ClientCommand)
    (out : List OutboundMessage) : Prop :=
  ∀ message ∈ out, message.AnswersTo connectionId command

/-- One reply to the sender is an answer. -/
theorem answers_reply {response : Response}
    (h : OutboundMessage.AnswersTo connectionId command
      { connectionId := connectionId, response := response }) :
    Answers connectionId command (reply connectionId response) := by
  intro message hMem
  rw [List.mem_singleton.mp hMem]
  exact h

/-- Answers put together are an answer. -/
theorem answers_append {out rest : List OutboundMessage}
    (hOut : Answers connectionId command out) (hRest : Answers connectionId command rest) :
    Answers connectionId command (out ++ rest) := by
  intro message hMem
  rcases List.mem_append.mp hMem with h | h
  · exact hOut message h
  · exact hRest message h

/-- Every copy carries the message it was made of. -/
theorem pushToMembers_returns {formatted : Response} {post : OutboundMessage → Prop}
    (h : ∀ c, post { connectionId := c, response := formatted })
    (senderId : Nat) (members : List Nat) :
    (pushToMembers senderId formatted members).Returns
      fun out => ∀ message ∈ out, post message := by
  induction members with
  | nil => exact fun message hMem => absurd hMem List.not_mem_nil
  | cons memberId rest ih =>
      rw [pushToMembers]
      apply Prog.Returns.ite ih
      apply Prog.Returns.perform_bind
      intro session
      apply Prog.Returns.bind ih
      intro out hOut
      cases session with
      | none => exact hOut
      | some member => exact List.forall_mem_cons.mpr ⟨h _, hOut⟩

/-- What holds of each item holds of the page. -/
theorem historyItems_returns {item : StoredMessage → Service OutboundMessage}
    {post : OutboundMessage → Prop} (hItem : ∀ message, (item message).Returns post)
    (page : List StoredMessage) :
    (historyItems item page).Returns fun out => ∀ message ∈ out, post message := by
  induction page with
  | nil => exact fun message hMem => absurd hMem List.not_mem_nil
  | cons message rest ih =>
      apply Prog.Returns.bind (hItem message)
      intro first hFirst
      apply Prog.Returns.bind ih
      intro others hOthers
      exact List.forall_mem_cons.mpr ⟨hFirst, hOthers⟩

theorem groupHistoryItem_returns (message : StoredMessage) :
    (groupHistoryItem connectionId message).Returns
      (OutboundMessage.AnswersTo connectionId command) :=
  fun _ => rfl

theorem directHistoryItem_returns (message : StoredMessage) :
    (directHistoryItem connectionId message).Returns
      (OutboundMessage.AnswersTo connectionId command) :=
  fun _ _ => rfl

theorem handleRegister_returns :
    (handleRegister connectionId command).Returns (Answers connectionId command) := by
  apply Prog.Returns.perform_bind
  intro session
  refine Prog.Returns.ite (Prog.Returns.pure (answers_reply ?_)) ?_
  · rfl
  apply Prog.Returns.perform_bind
  intro result
  cases result <;> exact answers_reply rfl

theorem handleLogin_returns (h : command.type = .login) :
    (handleLogin connectionId command).Returns (Answers connectionId command) := by
  apply Prog.Returns.perform_bind
  intro session
  refine Prog.Returns.ite (Prog.Returns.pure (answers_reply ?_)) ?_
  · rfl
  apply Prog.Returns.perform_bind
  intro online
  refine Prog.Returns.ite (Prog.Returns.pure (answers_reply ?_)) ?_
  · rfl
  apply Prog.Returns.perform_bind
  intro verified
  cases verified with
  | none => exact answers_reply rfl
  | some user => exact fun _ => answers_reply ⟨h, rfl⟩

theorem handleLogout_returns :
    (handleLogout connectionId).Returns (Answers connectionId command) := by
  intro _ message hMem
  rw [List.mem_singleton.mp hMem]
  rfl

theorem handleCreateGroup_returns (h : command.type = .createGroup) :
    (handleCreateGroup connectionId sender command).Returns
      (Answers connectionId command) := by
  apply Prog.Returns.perform_bind
  intro created
  cases created with
  | error reason => exact answers_reply rfl
  | ok group =>
      intro joined
      cases joined with
      | error reason => exact answers_reply rfl
      | ok already => exact fun _ => answers_reply ⟨h, rfl⟩

theorem handleGroupJoin_returns :
    (handleGroupJoin connectionId sender command).Returns
      (Answers connectionId command) := by
  apply Prog.Returns.perform_bind
  intro joined
  cases joined with
  | error reason => exact answers_reply rfl
  | ok already => exact fun _ => answers_reply rfl

theorem handleGroupLeave_returns :
    (handleGroupLeave connectionId sender command).Returns
      (Answers connectionId command) := by
  apply Prog.Returns.perform_bind
  intro left
  cases left with
  | error reason => exact answers_reply rfl
  | ok done => exact fun _ => answers_reply rfl

theorem handleGroupChat_returns (h : command.type = .groupChat) :
    (handleGroupChat connectionId sender command).Returns
      (Answers connectionId command) := by
  apply Prog.Returns.perform_bind
  intro isMember
  refine Prog.Returns.ite (Prog.Returns.pure (answers_reply ?_)) ?_
  · rfl
  apply Prog.Returns.perform_bind
  intro stored
  apply Prog.Returns.perform_bind
  intro members
  have hPush : ∀ c, OutboundMessage.AnswersTo connectionId command
      { connectionId := c
        response := .groupMessage command.groupId sender.username command.body } :=
    fun _ => ⟨h, rfl, rfl⟩
  apply Prog.Returns.bind (pushToMembers_returns hPush _ members)
  intro out hOut
  exact answers_append hOut (answers_reply ⟨Or.inr h, rfl⟩)

theorem handleHistoryQuery_returns :
    (handleHistoryQuery connectionId sender command).Returns
      (Answers connectionId command) := by
  unfold handleHistoryQuery
  apply Prog.Returns.ite
  · apply Prog.Returns.perform_bind
    intro isMember
    refine Prog.Returns.ite (Prog.Returns.pure (answers_reply ?_)) ?_
    · rfl
    apply Prog.Returns.perform_bind
    intro page
    apply Prog.Returns.bind (historyItems_returns groupHistoryItem_returns _)
    intro out hOut
    exact answers_append hOut (answers_reply rfl)
  · apply Prog.Returns.perform_bind
    intro peer
    cases peer with
    | none => exact answers_reply rfl
    | some peer =>
        apply Prog.Returns.perform_bind
        intro page
        apply Prog.Returns.bind (historyItems_returns directHistoryItem_returns _)
        intro out hOut
        exact answers_append hOut (answers_reply rfl)

theorem handleDirectChat_returns (h : command.type = .directChat) :
    (handleDirectChat connectionId sender command).Returns
      (Answers connectionId command) := by
  apply Prog.Returns.perform_bind
  intro receiver
  cases receiver with
  | none => exact answers_reply rfl
  | some receiver =>
      intro stored session
      have hAck : ∀ delivered, Answers connectionId command
          (reply connectionId (.messageAck stored.id true delivered)) :=
        fun _ => answers_reply ⟨Or.inl h, rfl⟩
      cases session with
      | none => exact hAck false
      | some target => exact List.forall_mem_cons.mpr ⟨⟨h, rfl⟩, hAck true⟩

theorem handleUnreadQuery_returns :
    (handleUnreadQuery connectionId sender command).Returns
      (Answers connectionId command) := by
  apply Prog.Returns.perform_bind
  intro groupIds
  apply Prog.Returns.perform_bind
  intro page
  apply Prog.Returns.bind
    (historyItems_returns
      (fun message => Prog.Returns.ite (groupHistoryItem_returns message)
        (directHistoryItem_returns message)) _)
  intro out hOut
  exact answers_append hOut (answers_reply rfl)

/-- The handlers of all commands that need a session answer the sender. -/
theorem handleSession_returns :
    (handleSession connectionId sender command).Returns (Answers connectionId command) := by
  unfold handleSession
  split
  case h_1 => exact handleLogout_returns
  case h_2 h => exact handleCreateGroup_returns h
  case h_3 => exact handleGroupJoin_returns
  case h_4 => exact handleGroupLeave_returns
  case h_5 h => exact handleGroupChat_returns h
  case h_6 => exact handleHistoryQuery_returns
  case h_7 h => exact handleDirectChat_returns h
  case h_8 => exact handleUnreadQuery_returns
  case h_9 => exact answers_reply rfl

/-- A command gives no reply outside the reply table. -/
theorem handleCommand_returns (connectionId : Nat) (command : ClientCommand) :
    (handleCommand connectionId command).Returns (Answers connectionId command) := by
  unfold handleCommand
  split
  case h_1 => exact answers_reply rfl
  case h_2 => exact handleRegister_returns
  case h_3 h => exact handleLogin_returns h
  case h_4 =>
    apply Prog.Returns.perform_bind
    intro sender
    cases sender with
    | none => exact answers_reply rfl
    | some sender => exact handleSession_returns

/-! ## Sequential runs -/

/-- The commands that are answered without looking for a session. -/
def NeedsNoSession (command : ClientCommand) : Prop :=
  command.type = .ping ∨ command.type = .register ∨ command.type = .login

/-- A payload that is refused gets the reason, and changes nothing. -/
theorem handleLine_error {crypto : Crypto} {s : ChatState} {line reason : Bytes} (c : Nat)
    (h : parseClientCommand line = .error reason) :
    handleLine crypto s c line = (reply c (.error reason), s) := by
  rw [handleLine, handleClientLine, h]
  rfl

/-- A payload that is accepted is handled as its command. -/
theorem handleLine_ok {crypto : Crypto} {s : ChatState} {line : Bytes}
    {command : ClientCommand} (c : Nat) (h : parseClientCommand line = .ok command) :
    handleLine crypto s c line = (handleCommand c command).run (ServiceCall.exec crypto) s := by
  rw [handleLine, handleClientLine, h]

/-- Every other command first looks for the session of its connection. -/
theorem handleCommand_eq_session (h : ¬NeedsNoSession command) :
    handleCommand connectionId command = (do
      let sender : Option Session ← perform (.findByConnection connectionId)
      match sender with
      | none => return reply connectionId (.error (ascii "please login first"))
      | some sender => handleSession connectionId sender command) := by
  unfold handleCommand
  split
  case h_1 hType => exact absurd (Or.inl hType) h
  case h_2 hType => exact absurd (Or.inr (Or.inl hType)) h
  case h_3 hType => exact absurd (Or.inr (Or.inr hType)) h
  case h_4 => rfl

/-- Without a session there is only the reply that one is needed. -/
theorem handleCommand_run_of_none {crypto : Crypto} {s : ChatState}
    (h : ¬NeedsNoSession command) (hFind : s.sessions.findByConnection connectionId = none) :
    (handleCommand connectionId command).run (ServiceCall.exec crypto) s =
      (reply connectionId (.error (ascii "please login first")), s) := by
  have hExec : ServiceCall.exec crypto (.findByConnection connectionId) s = (none, s) :=
    Prod.ext hFind rfl
  rw [handleCommand_eq_session h]
  exact run_perform_bind hExec

/-- With a session the command is handled in its name. -/
theorem handleCommand_run_of_some {crypto : Crypto} {s : ChatState}
    (h : ¬NeedsNoSession command)
    (hFind : s.sessions.findByConnection connectionId = some sender) :
    (handleCommand connectionId command).run (ServiceCall.exec crypto) s =
      (handleSession connectionId sender command).run (ServiceCall.exec crypto) s := by
  have hExec : ServiceCall.exec crypto (.findByConnection connectionId) s = (some sender, s) :=
    Prod.ext hFind rfl
  rw [handleCommand_eq_session h]
  exact run_perform_bind hExec

end CppChat.Ports.Chat
