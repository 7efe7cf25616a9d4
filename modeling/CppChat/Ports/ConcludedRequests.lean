import CppChat.Ports.ChatCalls

/-!
# The last reply to a request

History items and copies of messages are the replies of which there may be any number.
Every other reply concludes a request: whatever a client sends, the replies to it end with
exactly one of these, and it goes to the connection of the request.  So a client that counts
them knows which of its requests have been answered.

## Main results

* `handleClientLine_concludes`: the replies to any payload are concluded.
-/

namespace CppChat.Ports.Chat

open CppChat.Verified
open CppChat.Verified.AtomicProgram
open CppChat.Ports.Protocol
open CppChat.Ports.Sessions
open CppChat.Ports.Messages

/-- The reply ends the replies to a request. -/
def concludes : Response → Bool
  | .directMessage _ _ | .groupMessage _ _ _ | .historyItem _ _ _ _ _ _ => false
  | _ => true

/-- The reply leaves the request open. -/
def Continues (message : OutboundMessage) : Prop := concludes message.response = false

/-- The replies to a request of a connection end with the only one of them that concludes
it, and that goes back to the connection. -/
def Concluded (connectionId : Nat) (out : List OutboundMessage) : Prop :=
  ∃ front last, out = front ++ [last] ∧ last.connectionId = connectionId ∧
    concludes last.response = true ∧ ∀ message ∈ front, Continues message

variable {connectionId : Nat} {sender : Session} {command : ClientCommand}

/-- Copies, or items, and then a reply that concludes. -/
theorem concluded_append {front : List OutboundMessage} {response : Response}
    (hFront : ∀ message ∈ front, Continues message)
    (hLast : concludes response = true) :
    Concluded connectionId (front ++ reply connectionId response) :=
  ⟨front, _, rfl, rfl, hLast, hFront⟩

/-- One reply that concludes. -/
theorem concluded_reply {response : Response} (h : concludes response = true) :
    Concluded connectionId (reply connectionId response) :=
  concluded_append (fun _ hMem => absurd hMem List.not_mem_nil) h

/-- The sender gets a concluding reply. -/
theorem Concluded.exists_mem {out : List OutboundMessage} (h : Concluded connectionId out) :
    ∃ message ∈ out, message.connectionId = connectionId ∧ concludes message.response = true := by
  obtain ⟨front, last, rfl, hTo, hLast, -⟩ := h
  exact ⟨last, List.mem_append_right _ (List.mem_singleton_self _), hTo, hLast⟩

/-- What concludes a request goes to its connection. -/
theorem Concluded.connectionId_eq {out : List OutboundMessage} (h : Concluded connectionId out)
    {message : OutboundMessage} (hMem : message ∈ out)
    (hLast : concludes message.response = true) : message.connectionId = connectionId := by
  obtain ⟨front, last, rfl, hTo, -, hFront⟩ := h
  rcases List.mem_append.mp hMem with hMem | hMem
  · exact absurd hLast (by rw [hFront message hMem]; exact Bool.false_ne_true)
  · rw [List.mem_singleton.mp hMem]
    exact hTo

/-- Only the last reply concludes. -/
theorem Concluded.position {out : List OutboundMessage} (h : Concluded connectionId out)
    {p : Nat} {message : OutboundMessage} (hAt : out[p]? = some message)
    (hLast : concludes message.response = true) : p + 1 = out.length := by
  obtain ⟨front, last, rfl, -, -, hFront⟩ := h
  obtain ⟨hLt, -⟩ := List.getElem?_eq_some_iff.mp hAt
  rw [List.length_append] at hLt ⊢
  by_contra hNe
  have hInFront : p < front.length := by
    simp only [List.length_singleton] at hLt hNe
    omega
  rw [List.getElem?_append_left hInFront] at hAt
  rw [hFront message (List.mem_of_getElem? hAt)] at hLast
  contradiction

/-! ## Each command -/

theorem handleRegister_concludes :
    (handleRegister connectionId command).Returns (Concluded connectionId) := by
  apply Prog.Returns.perform_bind
  intro session
  refine Prog.Returns.ite (Prog.Returns.pure (concluded_reply rfl)) ?_
  apply Prog.Returns.perform_bind
  intro result
  cases result <;> exact concluded_reply rfl

/-- Each way out of `login` has one reply. -/
theorem handleLogin_concludes :
    (handleLogin connectionId command).Returns (Concluded connectionId) := by
  apply Prog.Returns.perform_bind
  intro session
  refine Prog.Returns.ite (Prog.Returns.pure (concluded_reply rfl)) ?_
  apply Prog.Returns.perform_bind
  intro online
  refine Prog.Returns.ite (Prog.Returns.pure (concluded_reply rfl)) ?_
  apply Prog.Returns.perform_bind
  intro verified
  cases verified with
  | none => exact concluded_reply rfl
  | some user => exact fun _ => concluded_reply rfl

theorem handleLogout_concludes :
    (handleLogout connectionId).Returns (Concluded connectionId) :=
  fun _ => ⟨[], _, rfl, rfl, rfl, fun _ hMem => absurd hMem List.not_mem_nil⟩

/-- Each way out of `create_group` has one reply. -/
theorem handleCreateGroup_concludes :
    (handleCreateGroup connectionId sender command).Returns (Concluded connectionId) := by
  apply Prog.Returns.perform_bind
  intro created
  cases created with
  | error reason => exact concluded_reply rfl
  | ok group =>
      intro joined
      cases joined with
      | error reason => exact concluded_reply rfl
      | ok already => exact fun _ => concluded_reply rfl

theorem handleGroupJoin_concludes :
    (handleGroupJoin connectionId sender command).Returns (Concluded connectionId) := by
  apply Prog.Returns.perform_bind
  intro joined
  cases joined with
  | error reason => exact concluded_reply rfl
  | ok already => exact fun _ => concluded_reply rfl

theorem handleGroupLeave_concludes :
    (handleGroupLeave connectionId sender command).Returns (Concluded connectionId) := by
  apply Prog.Returns.perform_bind
  intro left
  cases left with
  | error reason => exact concluded_reply rfl
  | ok done => exact fun _ => concluded_reply rfl

/-- The copies of a group message stand before its ack. -/
theorem handleGroupChat_concludes :
    (handleGroupChat connectionId sender command).Returns (Concluded connectionId) := by
  apply Prog.Returns.perform_bind
  intro isMember
  refine Prog.Returns.ite (Prog.Returns.pure (concluded_reply rfl)) ?_
  apply Prog.Returns.perform_bind
  intro stored
  apply Prog.Returns.perform_bind
  intro members
  have hPush : ∀ c, Continues
      { connectionId := c
        response := .groupMessage command.groupId sender.username command.body } := fun _ => rfl
  apply Prog.Returns.bind (pushToMembers_returns hPush _ members)
  intro out hOut
  exact concluded_append hOut rfl

theorem groupHistoryItem_continues (connectionId : Nat) (message : StoredMessage) :
    (groupHistoryItem connectionId message).Returns Continues :=
  fun _ => rfl

theorem directHistoryItem_continues (connectionId : Nat) (message : StoredMessage) :
    (directHistoryItem connectionId message).Returns Continues :=
  fun _ _ => rfl

/-- The items of a history stand before its end. -/
theorem handleHistoryQuery_concludes :
    (handleHistoryQuery connectionId sender command).Returns (Concluded connectionId) := by
  unfold handleHistoryQuery
  apply Prog.Returns.ite
  · apply Prog.Returns.perform_bind
    intro isMember
    refine Prog.Returns.ite (Prog.Returns.pure (concluded_reply rfl)) ?_
    apply Prog.Returns.perform_bind
    intro page
    apply Prog.Returns.bind (historyItems_returns (groupHistoryItem_continues connectionId) _)
    intro out hOut
    exact concluded_append hOut rfl
  · apply Prog.Returns.perform_bind
    intro peer
    cases peer with
    | none => exact concluded_reply rfl
    | some peer =>
        apply Prog.Returns.perform_bind
        intro page
        apply Prog.Returns.bind (historyItems_returns (directHistoryItem_continues connectionId) _)
        intro out hOut
        exact concluded_append hOut rfl

/-- The copy of a direct message stands before its ack. -/
theorem handleDirectChat_concludes :
    (handleDirectChat connectionId sender command).Returns (Concluded connectionId) := by
  apply Prog.Returns.perform_bind
  intro receiver
  cases receiver with
  | none => exact concluded_reply rfl
  | some receiver =>
      intro stored session
      cases session with
      | none => exact concluded_reply rfl
      | some target =>
          exact ⟨[_], _, rfl, rfl, rfl, fun message hMem => by rw [List.mem_singleton.mp hMem]; rfl⟩

/-- The items of an unread page stand before its end. -/
theorem handleUnreadQuery_concludes :
    (handleUnreadQuery connectionId sender command).Returns (Concluded connectionId) := by
  apply Prog.Returns.perform_bind
  intro groupIds
  apply Prog.Returns.perform_bind
  intro page
  apply Prog.Returns.bind
    (historyItems_returns
      (fun message => Prog.Returns.ite (groupHistoryItem_continues connectionId message)
        (directHistoryItem_continues connectionId message)) _)
  intro out hOut
  exact concluded_append hOut rfl

/-- Every command that needs a session is concluded. -/
theorem handleSession_concludes :
    (handleSession connectionId sender command).Returns (Concluded connectionId) := by
  unfold handleSession
  split
  case h_1 => exact handleLogout_concludes
  case h_2 => exact handleCreateGroup_concludes
  case h_3 => exact handleGroupJoin_concludes
  case h_4 => exact handleGroupLeave_concludes
  case h_5 => exact handleGroupChat_concludes
  case h_6 => exact handleHistoryQuery_concludes
  case h_7 => exact handleDirectChat_concludes
  case h_8 => exact handleUnreadQuery_concludes
  case h_9 => exact concluded_reply rfl

/-- The replies to any payload are concluded. -/
theorem handleClientLine_concludes (connectionId : Nat) (line : Bytes) :
    (handleClientLine connectionId line).Returns (Concluded connectionId) := by
  unfold handleClientLine
  split
  · exact concluded_reply rfl
  · unfold handleCommand
    split
    case h_1 => exact concluded_reply rfl
    case h_2 => exact handleRegister_concludes
    case h_3 => exact handleLogin_concludes
    case h_4 =>
      apply Prog.Returns.perform_bind
      intro session
      cases session with
      | none => exact concluded_reply rfl
      | some session => exact handleSession_concludes

end CppChat.Ports.Chat
