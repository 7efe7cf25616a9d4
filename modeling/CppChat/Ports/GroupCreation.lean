import CppChat.Ports.ChatRuns

/-!
# What a new group starts with

The group store hands out ids in order; the member store and the message store
accept any id.  A client may join a group id before it is allocated, so that
clients of the older protocol, which had numbers and no creation, keep
working.  A group created later under that id takes over the members and the
messages the id has gathered.

`Unused` links the three stores over a run: an id that is not allocated yet
and that no request has joined has no member and no message.

## Main results

* `serve_unused`: the step lemma of that invariant, for every request that does not
  join the id; `serveAll_unused` is its run lemma.
* `createGroup_takesOver`: members and messages of a group right after its creation.
-/

namespace CppChat.Ports.Chat

open CppChat.Verified
open CppChat.Verified.AtomicProgram
open CppChat.Ports.Protocol
open CppChat.Ports.Sessions
open CppChat.Ports.Users
open CppChat.Ports.Groups
open CppChat.Ports.Messages

/-- A group id without members and without messages. -/
structure Untouched (g : Nat) (s : ChatState) : Prop where
  members : s.members.memoryMembers.lookup g = none
  messages : ∀ m ∈ s.messages.messages, ¬(m.type = .groupChat ∧ m.receiverId = g)

/-- An id that is still to be allocated is untouched. -/
def Unused (g : Nat) (s : ChatState) : Prop :=
  s.groups.nextGroupId ≤ g → Untouched g s

/-- A `join_group` request for the id. -/
def joinsGroup (g : Nat) : Request → Bool
  | .line _ payload =>
      match parseClientCommand payload with
      | .ok command => decide (command.type = .groupJoin ∧ command.groupId = g)
      | .error _ => false
  | .disconnect _ => false

/-- Calls that neither add a member to the id nor store a message under it. -/
def ServiceCall.Spares (g : Nat) : ServiceCall → Prop
  | .joinGroup groupId _ => groupId ≠ g
  | .append message => ¬(message.type = .groupChat ∧ message.receiverId = g)
  | _ => True

variable {crypto : Crypto} {g : Nat}

/-! ## One call -/

/-- Ids are not taken back. -/
theorem exec_nextGroupId_le (crypto : Crypto) (op : ServiceCall) (s : ChatState) :
    s.groups.nextGroupId ≤ (op.exec crypto s).2.groups.nextGroupId := by
  cases op with
  | createGroup name ownerId =>
      show s.groups.nextGroupId ≤ (s.groups.createGroup name ownerId).2.nextGroupId
      unfold GroupStore.createGroup
      split
      · exact Nat.le_refl _
      · exact Nat.le_succ _
  | _ => exact Nat.le_refl _

/-- A call that is not for the group leaves it without members and messages. -/
theorem exec_untouched (crypto : Crypto) (op : ServiceCall) (s : ChatState) (hOp : op.Spares g)
    (h : Untouched g s) : Untouched g (op.exec crypto s).2 := by
  cases op with
  | joinGroup groupId userId =>
      have hLookup := s.members.lookup_joinGroup groupId userId g
      rw [if_neg (Ne.symm hOp)] at hLookup
      exact ⟨hLookup.trans h.members, h.messages⟩
  | leaveGroup groupId userId =>
      refine ⟨?_, h.messages⟩
      show (s.members.leaveGroup groupId userId).2.memoryMembers.lookup g = none
      by_cases hEq : g = groupId
      · subst hEq
        rw [GroupMemberStore.leaveGroup_of_none h.members]
        exact h.members
      · rw [GroupMemberStore.lookup_leaveGroup_of_ne _ hEq]
        exact h.members
  | append message =>
      refine ⟨h.members, ?_⟩
      intro m hMem
      rcases List.mem_append.mp hMem with hOld | hNew
      · exact h.messages m hOld
      · rw [List.mem_singleton.mp hNew]
        exact hOp
  | _ => exact ⟨h.members, h.messages⟩

/-! ## One request -/

theorem handleLine_nextGroupId_le (crypto : Crypto) (s : ChatState) (c : Nat) (line : Bytes) :
    s.groups.nextGroupId ≤ (handleLine crypto s c line).2.groups.nextGroupId := by
  have hStep : ∀ op t, True → s.groups.nextGroupId ≤ t.groups.nextGroupId →
      s.groups.nextGroupId ≤ (ServiceCall.exec crypto op t).2.groups.nextGroupId := by
    intro op t _ hLe
    exact hLe.trans (exec_nextGroupId_le crypto op t)
  have hUses : (handleClientLine c line).Uses fun _ => True :=
    handleClientLine_uses c line fun _ _ _ _ => trivial
  exact Prog.run_invariant hStep (handleClientLine c line) s hUses (Nat.le_refl _)

/-- A new group takes the next id. -/
theorem nextGroupId_createGroup (store : GroupStore) {name : Bytes}
    (h : ¬name.isEmpty) (ownerId : Nat) :
    (store.createGroup name ownerId).2.nextGroupId = store.nextGroupId + 1 := by
  rw [GroupStore.createGroup, if_neg h]

/-- A request that does not join the id leaves it untouched, as long as the
request does not allocate the id either. -/
theorem handleSession_untouched {s : ChatState} {sender : Session}
    {command : ClientCommand} {c : Nat}
    (hJoin : ¬(command.type = .groupJoin ∧ command.groupId = g))
    (hNext : ((handleSession c sender command).run
      (ServiceCall.exec crypto) s).2.groups.nextGroupId ≤ g)
    (h : Untouched g s) :
    Untouched g ((handleSession c sender command).run (ServiceCall.exec crypto) s).2 := by
  by_cases hCreate : command.type = .createGroup
  · simp only [handleSession, hCreate, handleCreateGroup_run] at hNext ⊢
    by_cases hName : command.groupName.isEmpty
    · rw [if_pos hName]
      exact h
    · rw [if_neg hName] at hNext ⊢
      have hSucc := nextGroupId_createGroup s.groups hName sender.userId
      have hNe : s.groups.nextGroupId ≠ g := by
        intro hEq
        have hLe : (s.groups.createGroup command.groupName sender.userId).2.nextGroupId ≤ g :=
          hNext
        omega
      have hStep := exec_untouched crypto
        (.joinGroup s.groups.nextGroupId sender.userId) s hNe h
      exact ⟨hStep.members, h.messages⟩
  · by_cases hChat : command.type = .groupChat ∧ command.groupId = g
    · have hMember : s.members.isGroupMember command.groupId sender.userId = false := by
        rw [hChat.2, GroupMemberStore.isGroupMember, h.members]
      simp only [handleSession, hChat.1, handleGroupChat_run_of_not_member hMember]
      exact h
    · apply Prog.run_invariant (exec_untouched crypto) _ _ _ h
      apply (handleSession_uses c sender command).mono
      intro op hMade
      cases op with
      | joinGroup groupId userId =>
          rcases hMade with hType | ⟨hType, hGroup⟩
          · exact absurd hType hCreate
          · intro hEq
            exact hJoin ⟨hType, by rw [← hGroup, hEq]⟩
      | append message =>
          obtain ⟨_, hType, hReceiver⟩ := hMade
          intro hGroupMessage
          obtain ⟨hGroupChat, hEq⟩ := hGroupMessage
          rcases hReceiver with hDirect | ⟨hGroup, hId⟩
          · rw [hType, hDirect] at hGroupChat
            contradiction
          · exact hChat ⟨hGroup, by rw [← hId, hEq]⟩
      | _ => trivial

theorem handleLine_untouched {s : ChatState} {c : Nat} {line : Bytes}
    (hJoin : ¬joinsGroup g (.line c line))
    (hNext : (handleLine crypto s c line).2.groups.nextGroupId ≤ g)
    (h : Untouched g s) : Untouched g (handleLine crypto s c line).2 := by
  cases hParse : parseClientCommand line with
  | error reason =>
      rw [handleLine_error c hParse]
      exact h
  | ok command =>
      have hNot : ¬(command.type = .groupJoin ∧ command.groupId = g) := by
        simpa [joinsGroup, hParse] using hJoin
      rw [handleLine_ok c hParse] at hNext ⊢
      by_cases hNeeds : NeedsNoSession command
      · apply Prog.run_invariant (exec_untouched crypto) _ _ _ h
        apply (handleCommand_uses c command).mono
        intro op hMade
        rcases hNeeds with hType | hType | hType <;>
          cases op <;> simp_all [ServiceCall.MadeFor, ServiceCall.Spares]
      · cases hFind : s.sessions.findByConnection c with
        | none =>
            rw [handleCommand_run_of_none hNeeds hFind]
            exact h
        | some sender =>
            rw [handleCommand_run_of_some hNeeds hFind] at hNext ⊢
            exact handleSession_untouched hNot hNext h

/-! ## Whole runs -/

theorem serve_unused (s : ChatState) (request : Request) (hJoin : ¬joinsGroup g request)
    (h : Unused g s) : Unused g (serve crypto s request) := by
  cases request with
  | line c payload =>
      intro hNext
      have hLe := handleLine_nextGroupId_le crypto s c payload
      have hBefore : s.groups.nextGroupId ≤ g := hLe.trans hNext
      exact handleLine_untouched hJoin hNext (h hBefore)
  | disconnect c =>
      intro hNext
      exact ⟨(h hNext).members, (h hNext).messages⟩

/-- An id that no request has joined and that is still to be allocated has
neither members nor messages. -/
theorem serveAll_unused (requests : List Request)
    (hJoin : ∀ request ∈ requests, ¬joinsGroup g request) :
    Unused g (serveAll crypto requests) := by
  apply serveAll_invariant serve_unused _ hJoin
  intro _
  exact ⟨rfl, fun m hMem => absurd hMem List.not_mem_nil⟩

/-! ## The created group -/

/-- The only way to a `create_group_success`: a `create_group` of a logged-in
sender, who gets the next id. -/
theorem createGroupSuccess_inv {s : ChatState} {c : Nat} {line name : Bytes}
    {message : OutboundMessage} (hMem : message ∈ (handleLine crypto s c line).1)
    (hReply : message.response = .createGroupSuccess g name) :
    ∃ sender, s.sessions.findByConnection c = some sender ∧ g = s.groups.nextGroupId ∧
      (handleLine crypto s c line).2.members = (s.members.joinGroup g sender.userId).2 ∧
      (handleLine crypto s c line).2.messages = s.messages := by
  cases hParse : parseClientCommand line with
  | error reason =>
      rw [handleLine_error c hParse, reply, List.mem_singleton] at hMem
      rw [hMem] at hReply
      contradiction
  | ok command =>
      rw [handleLine_ok c hParse] at hMem ⊢
      have hAll : Answers c command
          ((handleCommand c command).run (ServiceCall.exec crypto) s).1 :=
        Prog.run_returns _ s (handleCommand_returns c command)
      have hAnswers := hAll message hMem
      rw [OutboundMessage.AnswersTo, hReply] at hAnswers
      have hNeeds : ¬NeedsNoSession command := by
        simp [NeedsNoSession, hAnswers.1]
      cases hFind : s.sessions.findByConnection c with
      | none =>
          rw [handleCommand_run_of_none hNeeds hFind, reply, List.mem_singleton] at hMem
          rw [hMem] at hReply
          contradiction
      | some sender =>
          rw [handleCommand_run_of_some hNeeds hFind] at hMem ⊢
          simp only [handleSession, hAnswers.1, handleCreateGroup_run] at hMem ⊢
          by_cases hName : command.groupName.isEmpty
          · rw [if_pos hName, reply, List.mem_singleton] at hMem
            rw [hMem] at hReply
            contradiction
          · rw [if_neg hName] at hMem ⊢
            rw [reply, List.mem_singleton] at hMem
            rw [hMem] at hReply
            injection hReply with hId _
            exact ⟨sender, rfl, hId.symm, by rw [hId], rfl⟩

/-- Right after a `create_group_success` for an id, its members are the creator
and whoever had joined the id before, and the stored messages are those of
before.  When no earlier request of the run joined the id, the creator is its
only member and no stored message is addressed to it. -/
theorem createGroup_takesOver (crypto : Crypto) (requests : List Request) (c : Nat)
    (line : Bytes) (g : Nat) (name : Bytes)
    (hReply : ∃ message ∈ (handleLine crypto (serveAll crypto requests) c line).1,
      message.response = .createGroupSuccess g name) :
    let before := serveAll crypto requests
    let after := (handleLine crypto before c line).2
    ∃ creator, before.sessions.findByConnection c = some creator ∧
      (∀ u, u ∈ after.members.loadGroupMembers g ↔
        u = creator.userId ∨ u ∈ before.members.loadGroupMembers g) ∧
      after.messages = before.messages ∧
      ((∀ request ∈ requests, ¬joinsGroup g request) →
        after.members.loadGroupMembers g = [creator.userId] ∧
        ∀ m ∈ after.messages.messages, ¬(m.type = .groupChat ∧ m.receiverId = g)) := by
  intro before after
  obtain ⟨message, hMem, hResponse⟩ := hReply
  obtain ⟨creator, hFind, hId, hMembers, hMessages⟩ := createGroupSuccess_inv hMem hResponse
  refine ⟨creator, hFind, ?_, hMessages, ?_⟩
  · intro u
    show u ∈ (handleLine crypto before c line).2.members.loadGroupMembers g ↔ _
    rw [hMembers]
    exact GroupMemberStore.mem_loadGroupMembers_joinGroup _ _ _ _
  · intro hJoin
    have hUntouched : Untouched g before :=
      serveAll_unused requests hJoin (Nat.le_of_eq hId.symm)
    constructor
    · show (handleLine crypto before c line).2.members.loadGroupMembers g = _
      rw [hMembers]
      exact GroupMemberStore.loadGroupMembers_joinGroup_of_none hUntouched.members _
    · show ∀ m ∈ (handleLine crypto before c line).2.messages.messages, _
      rw [hMessages]
      exact hUntouched.messages

/-- The first group of a fresh server. -/
theorem createGroup_takesOver_firstGroup :
    let before := serveAll sampleCrypto (enter 1 "alice")
    let after := (handleLine sampleCrypto before 1 (createGroupLine "team")).2
    ∃ creator, before.sessions.findByConnection 1 = some creator ∧
      after.members.loadGroupMembers 1 = [creator.userId] ∧
      ∀ m ∈ after.messages.messages, ¬(m.type = .groupChat ∧ m.receiverId = 1) := by
  obtain ⟨creator, hFind, _, _, hFresh⟩ :=
    createGroup_takesOver sampleCrypto (enter 1 "alice") 1 (createGroupLine "team") 1
      (ascii "team") (by decide +kernel)
  exact ⟨creator, hFind, hFresh (by decide +kernel)⟩

/-- Alice joins id 1 before Bob's creation is given it: the new group starts
with both. -/
theorem createGroup_earlierMember :
    let before := serveAll sampleCrypto
      (enter 1 "alice" ++ enter 2 "bob" ++ [.line 1 (joinGroupLine 1)])
    let answer := handleLine sampleCrypto before 2 (createGroupLine "team")
    answer.1 = reply 2 (.createGroupSuccess 1 (ascii "team")) ∧
      before.sessions.findByConnection 2 =
        some { userId := 2, connectionId := 2, username := ascii "bob" } ∧
      answer.2.members.loadGroupMembers 1 = [1, 2] := by
  decide +kernel

end CppChat.Ports.Chat
