import CppChat.Ports.CommandText
import CppChat.Ports.ServedRequests

/-!
# Who gets to see a message

Five kinds of request put the body of a stored message into a reply: `dm` and
`group_message` push it, `history`, `group_history` and `unread` list it.  They
choose messages and recipients through different keys: a name, a member list, a
pair of ids, a set of groups.  In every sequential run all of them address a
connection whose user may read the message.

## Main results

* `Served.confined`: a reply with a body goes to a connection with an entitled user.
* `replies_entitled`: so do all replies of a sequential run.
-/

namespace CppChat.Ports.Chat

open CppChat.Verified
open CppChat.Ports.Protocol
open CppChat.Ports.Sessions
open CppChat.Ports.Users
open CppChat.Ports.Groups
open CppChat.Ports.Messages

/-- The readers of a message: both ends of a direct message, and the current
members of the group of a group message. -/
def Entitled (s : ChatState) (userId : Nat) (m : StoredMessage) : Prop :=
  (m.type = .directChat ∧ (userId = m.senderId ∨ userId = m.receiverId)) ∨
    (m.type = .groupChat ∧ s.members.isGroupMember m.receiverId userId = true)

/-- The chat body a reply carries. -/
def chatBody : Response → Option Bytes
  | .directMessage _ body => some body
  | .groupMessage _ _ body => some body
  | .historyItem _ _ _ _ body _ => some body
  | _ => none

/-- The stored message a reply carries, for a request that leads from `s` to
`s'`: a history item names it by its id, a pushed message is the one the request
has stored, the first that `s` does not have. -/
def carriedMessage (s s' : ChatState) : Response → Option StoredMessage
  | .directMessage _ _ => s'.messages.numbered[s.messages.messages.length]?
  | .groupMessage _ _ _ => s'.messages.numbered[s.messages.messages.length]?
  | .historyItem id _ _ _ _ _ => s'.messages.numbered.find? fun m => m.id == id
  | _ => none

/-- A reply may be sent: it has no body, or its connection's user is entitled to
the message it carries. -/
def Confined (s s' : ChatState) (message : OutboundMessage) : Prop :=
  ∀ body, chatBody message.response = some body →
    ∃ m session, carriedMessage s s' message.response = some m ∧ m.body = body ∧
      s'.sessions.findByConnection message.connectionId = some session ∧
      Entitled s' session.userId m

variable {crypto : Crypto} {s s' : ChatState}

theorem confined_reply {response : Response} (h : chatBody response = none) (c : Nat) :
    ∀ message ∈ reply c response, Confined s s' message := by
  intro message hMem body hBody
  rw [List.mem_singleton.mp hMem] at hBody
  rw [show chatBody response = some body from hBody] at h
  contradiction

theorem chatBody_of_refuses {response : Response} (h : Refuses response) :
    chatBody response = none := by
  cases response <;> first | rfl | exact h.elim

/-- An id leads back to its message. -/
theorem find?_id {store : MessageStore} {m : StoredMessage} (h : m ∈ store.numbered) :
    (store.numbered.find? fun m' => m'.id == m.id) = some m := by
  cases hFind : store.numbered.find? fun m' => m'.id == m.id with
  | none =>
      have hNone := List.find?_eq_none.mp hFind m h
      simp at hNone
  | some m' =>
      have hMem := List.mem_of_find?_eq_some hFind
      have hId : m'.id = m.id := by simpa using List.find?_some hFind
      rw [MessageStore.eq_of_id hMem h hId]

/-- An item of a page goes back to the requester, who has to be entitled. -/
theorem confined_item {c : Nat} {sender : Session} {m : StoredMessage}
    {message : OutboundMessage}
    (hBound : s.sessions.findByConnection c = some sender)
    (hMem : m ∈ s.messages.numbered) (hEntitled : Entitled s sender.userId m)
    (hItem : message = groupItem s c m ∨ message = directItem s c m) :
    Confined s s message := by
  intro body hBody
  rcases hItem with rfl | rfl
  · exact ⟨m, sender, find?_id hMem, Option.some.inj hBody, hBound, hEntitled⟩
  · exact ⟨m, sender, find?_id hMem, Option.some.inj hBody, hBound, hEntitled⟩

theorem confined_historyAnswer {c limit : Nat} {item : StoredMessage → OutboundMessage}
    {page : List StoredMessage} (hItems : ∀ m ∈ page, Confined s s (item m)) :
    ∀ message ∈ historyAnswer c limit item page, Confined s s message := by
  intro message hMem
  rcases List.mem_append.mp hMem with hPage | hEnd
  · obtain ⟨m, hm, rfl⟩ := List.mem_map.mp hPage
    exact hItems m (List.mem_reverse.mp hm)
  · exact confined_reply rfl c message hEnd

/-- The message a request has just stored. -/
theorem carried_append (s : ChatState) (message : Message) :
    (s.messages.append message).2.numbered[s.messages.messages.length]? =
      some (.ofMessage (s.messages.messages.length + 1) message) := by
  have hIndex : s.messages.messages.length = s.messages.numbered.length :=
    (MessageStore.length_numbered _).symm
  rw [MessageStore.numbered_append, hIndex, List.getElem?_concat_length]

theorem directReplies_confined (h : ServiceInv s) {c : Nat} {sender : Session}
    {command : ClientCommand} {receiver : UserRecord}
    (hReceiver : s.users.findUserByUsername command.targetUsername = some receiver) :
    ∀ message ∈ directReplies s c sender command,
      Confined s { s with
        messages := (s.messages.append (directMessageOf sender receiver command)).2 }
        message := by
  intro message hMem
  unfold directReplies at hMem
  rw [h.findByUsername_eq hReceiver] at hMem
  cases hOnline : s.sessions.find receiver.id with
  | none =>
      rw [hOnline] at hMem
      exact confined_reply rfl c message hMem
  | some target =>
      rw [hOnline] at hMem
      rcases List.mem_cons.mp hMem with rfl | hAck
      · intro body hBody
        have hUser := h.consistent.userId_eq _ _ hOnline
        have hBound : s.sessions.findByConnection target.connectionId = some target :=
          h.consistent.findByConnection_iff.mpr ⟨by rw [hUser]; exact hOnline, rfl⟩
        exact ⟨_, target, carried_append s _, Option.some.inj hBody, hBound,
          Or.inl ⟨rfl, Or.inr hUser⟩⟩
      · exact confined_reply rfl c message hAck

theorem groupReplies_confined (h : ServiceInv s) {c : Nat} {sender : Session}
    {command : ClientCommand} :
    ∀ message ∈ groupReplies s c sender command,
      Confined s { s with messages := (s.messages.append (groupMessageOf sender command)).2 }
        message := by
  intro message hMem
  rcases List.mem_append.mp hMem with hPush | hAck
  · obtain ⟨memberId, hMember, hCopy⟩ := List.mem_filterMap.mp hPush
    unfold pushTo at hCopy
    split at hCopy
    · contradiction
    · obtain ⟨member, hOnline, rfl⟩ := Option.map_eq_some_iff.mp hCopy
      intro body hBody
      have hUser := h.consistent.userId_eq _ _ hOnline
      have hBound : s.sessions.findByConnection member.connectionId = some member :=
        h.consistent.findByConnection_iff.mpr ⟨by rw [hUser]; exact hOnline, rfl⟩
      refine ⟨_, member, carried_append s _, Option.some.inj hBody, hBound, Or.inr ⟨rfl, ?_⟩⟩
      rw [hUser]
      exact (s.members.isGroupMember_iff _ _).mpr hMember
  · exact confined_reply rfl c message hAck

/-- A listed group message of a group with the requester. -/
theorem entitled_group {u g : Nat} {m : StoredMessage}
    (hMember : s.members.isGroupMember g u = true)
    (hSelect : MessageStore.isGroupMessageOf g m = true) : Entitled s u m := by
  simp only [MessageStore.isGroupMessageOf, Bool.and_eq_true, decide_eq_true_eq, beq_iff_eq]
    at hSelect
  exact Or.inr ⟨hSelect.1, hSelect.2 ▸ hMember⟩

theorem entitled_direct {u peer : Nat} {m : StoredMessage}
    (hSelect : MessageStore.isDirectBetween u peer m = true) : Entitled s u m := by
  simp only [MessageStore.isDirectBetween, Bool.and_eq_true, Bool.or_eq_true,
    decide_eq_true_eq, beq_iff_eq] at hSelect
  obtain ⟨hType, ⟨hSender, -⟩ | ⟨-, hReceiver⟩⟩ := hSelect
  · exact Or.inl ⟨hType, Or.inl hSender.symm⟩
  · exact Or.inl ⟨hType, Or.inr hReceiver.symm⟩

theorem entitled_unread {u : Nat} {m : StoredMessage}
    (hSelect : MessageStore.isUnreadFor u (s.members.loadUserGroups u) m = true) :
    Entitled s u m := by
  simp only [MessageStore.isUnreadFor, Bool.and_eq_true, Bool.or_eq_true,
    decide_eq_true_eq, beq_iff_eq] at hSelect
  rcases hSelect with ⟨hType, hReceiver⟩ | ⟨⟨hType, -⟩, hGroup⟩
  · exact Or.inl ⟨hType, Or.inr hReceiver.symm⟩
  · exact Or.inr ⟨hType, (s.members.mem_loadUserGroups _ _).mp hGroup⟩

/-- Whatever a request does, its replies are confined. -/
theorem Served.confined {request : Request} {out : List OutboundMessage}
    (hServed : Served crypto s request out s') (h : ServiceInv s) :
    ∀ message ∈ out, Confined s s' message := by
  cases hServed with
  | refused hRefuses => exact confined_reply (chatBody_of_refuses hRefuses) _
  | @registered c payload command _ _ _ =>
      apply confined_reply
      cases (s.users.registerUser crypto command.username command.password).1 <;> rfl
  | loggedIn _ _ _ _ _ => exact confined_reply rfl _
  | loggedOut _ _ =>
      intro message hMem body hBody
      rw [List.mem_singleton.mp hMem] at hBody
      contradiction
  | created _ _ _ => exact confined_reply rfl _
  | joined _ _ => exact confined_reply rfl _
  | left _ _ _ => exact confined_reply rfl _
  | directSent _ _ hReceiver => exact directReplies_confined h hReceiver
  | groupSent _ _ _ => exact groupReplies_confined h
  | groupListed hAuth _ _ hMember =>
      apply confined_historyAnswer
      intro m hm
      obtain ⟨hStored, hSelect⟩ := MessageStore.mem_historyPage hm
      exact confined_item hAuth.bound hStored (entitled_group hMember hSelect) (Or.inl rfl)
  | directListed hAuth _ _ _ =>
      apply confined_historyAnswer
      intro m hm
      obtain ⟨hStored, hSelect⟩ := MessageStore.mem_historyPage hm
      exact confined_item hAuth.bound hStored (entitled_direct hSelect) (Or.inr rfl)
  | unreadListed hAuth _ =>
      intro message hMem
      rcases List.mem_append.mp hMem with hPage | hEnd
      · obtain ⟨m, hm, rfl⟩ := List.mem_map.mp hPage
        obtain ⟨hStored, hSelect⟩ := MessageStore.mem_unreadPage hm
        apply confined_item hAuth.bound hStored (entitled_unread hSelect)
        unfold anyItem
        split
        · exact Or.inl rfl
        · exact Or.inr rfl
      · exact confined_reply rfl _ message hEnd
  | disconnected => exact fun message hMem => absurd hMem List.not_mem_nil

/-- In every state of a sequential run, every reply that carries the body of a
stored message goes to a connection whose user may read that message. -/
theorem replies_entitled (crypto : Crypto) (s : ChatState) (hReach : Reachable crypto s)
    (request : Request) (message : OutboundMessage)
    (hMem : message ∈ replies crypto s request) (body : Bytes)
    (hBody : chatBody message.response = some body) :
    ∃ m session,
      carriedMessage s (serve crypto s request) message.response = some m ∧ m.body = body ∧
      (serve crypto s request).sessions.findByConnection message.connectionId =
        some session ∧
      Entitled (serve crypto s request) session.userId m :=
  (served crypto s request).confined (serviceInv_of_reachable hReach) message hMem body hBody

/-- Alice writes to Bob, who is online on connection 2. -/
theorem replies_entitled_aliceToBob :
    let s := serveAll sampleCrypto (enter 1 "alice" ++ enter 2 "bob")
    let request := Request.line 1 (dmLine (ascii "bob") (ascii "hi"))
    let message : OutboundMessage :=
      { connectionId := 2, response := .directMessage (ascii "alice") (ascii "hi") }
    message ∈ replies sampleCrypto s request ∧
      ∃ m session,
        carriedMessage s (serve sampleCrypto s request) message.response = some m ∧
        m.body = ascii "hi" ∧
        (serve sampleCrypto s request).sessions.findByConnection 2 = some session ∧
        Entitled (serve sampleCrypto s request) session.userId m := by
  intro s request message
  have hMem : message ∈ replies sampleCrypto s request := by decide +kernel
  exact ⟨hMem, replies_entitled sampleCrypto s ⟨_, rfl⟩ request message hMem (ascii "hi") rfl⟩

end CppChat.Ports.Chat
