import CppChat.Verified.Json
import CppChat.Ports.MessageOrder
import CppChat.Ports.FramableReplies
import CppChat.Ports.ReplyText

/-!
# When replies are JSON

A reply is put together as JSON, and `escape_json` escapes quotes, backslashes and
three control characters.  It leaves every other byte alone, and the reader of
requests lets every other byte in.  A name or a body with another control
character, or with bytes that are no UTF-8, is therefore stored as it is and comes
out as it is, in what is pushed to others and in every later history page.

A text is clean if it has neither.  Replies whose texts are clean are JSON texts,
and as long as only clean texts are stored, all replies have clean texts, in every
run of the server and in every order of its threads.

## Main results

* `chars_escapeJson`: an escaped clean text is the inside of a JSON string.
* `Response.jsonText`: a reply with clean texts is a JSON text.
* `handleClientLine_texts`: a request that stores clean texts has clean replies.
* `replies_wellFormed`: in a run that stores only clean texts every reply is JSON.
-/

namespace CppChat.Ports.Protocol

open CppChat.Verified
open CppChat.Verified.Json (Printable Chars Derives JsonText)

/-! ## Clean texts -/

/-- UTF-8 without control characters, tab, newline and carriage return apart. -/
def CleanText (text : Bytes) : Prop := IsUtf8 text ∧ ∀ b ∈ text, Printable b

theorem cleanText_of_ascii {text : Bytes} (h : PrintableAscii text) : CleanText text :=
  ⟨h.isUtf8, fun b hMem => Or.inl (h b hMem).1⟩

theorem escapeByte_of_high {b : UInt8} (h : 128 ≤ b.toNat) : escapeByte b = [b] := by
  have hNe : ∀ d : UInt8, d.toNat < 128 → b ≠ d := by
    intro d hd hEq
    rw [hEq] at h
    omega
  simp only [escapeByte, if_neg (hNe quote (by decide)), if_neg (hNe backslash (by decide)),
    if_neg (hNe 10 (by decide)), if_neg (hNe 13 (by decide)), if_neg (hNe 9 (by decide))]

theorem escapeJson_of_high {text : Bytes} (h : ∀ b ∈ text, 128 ≤ b.toNat) :
    escapeJson text = text := by
  induction text with
  | nil => rfl
  | cons b text ih =>
      obtain ⟨hFirst, hRest⟩ := List.forall_mem_cons.mp h
      rw [escapeJson, List.flatMap_cons, escapeByte_of_high hFirst]
      exact congrArg (b :: ·) (ih hRest)

/-- One ASCII byte, escaped. -/
theorem chars_escapeByte {b : UInt8} (hAscii : b.toNat < 128) (hb : Printable b) {rest : Bytes}
    (h : Chars rest) : Chars (escapeByte b ++ rest) := by
  fun_cases escapeByte b with
  | case1 => exact .escape (by simp [Json.escapes_eq, quote]) h
  | case2 => exact .escape (by simp [Json.escapes_eq, backslash]) h
  | case3 => exact .escape (by simp [Json.escapes_eq]) h
  | case4 => exact .escape (by simp [Json.escapes_eq]) h
  | case5 => exact .escape (by simp [Json.escapes_eq]) h
  | case6 hQuote hBackslash hNewline hReturn hTab =>
      obtain ⟨c, hNat, hChar⟩ := exists_char_of_ascii hAscii
      have hControl : 32 ≤ b.toNat := by
        rcases hb with hb | rfl | rfl | rfl
        · exact hb
        · contradiction
        · contradiction
        · contradiction
      rw [← hChar]
      refine .unescaped (by omega) ?_ ?_ h
      · intro hEq
        exact hQuote (UInt8.toNat_inj.mp (hNat.symm.trans hEq))
      · intro hEq
        exact hBackslash (UInt8.toNat_inj.mp (hNat.symm.trans hEq))

/-- What `escape_json` writes for a clean text may stand between quotes. -/
theorem chars_escapeJson {text : Bytes} (h : CleanText text) : Chars (escapeJson text) := by
  obtain ⟨⟨chars, rfl⟩, hPrintable⟩ := h
  induction chars with
  | nil => exact .nil
  | cons c chars ih =>
      rw [utf8_cons, List.forall_mem_append] at hPrintable
      rw [utf8_cons, escapeJson, List.flatMap_append]
      have hRest := ih hPrintable.2
      by_cases hAscii : c.toNat < 128
      · rw [utf8EncodeChar_ascii hAscii] at hPrintable ⊢
        have hNat : c.toNat.toUInt8.toNat < 128 := by
          rw [Nat.toUInt8_eq, UInt8.toNat_ofNat']
          omega
        rw [List.flatMap_singleton]
        exact chars_escapeByte hNat (hPrintable.1 _ (by simp)) hRest
      · -- The bytes of any other character are not touched.
        have hHigh := utf8EncodeChar_high (show 128 ≤ c.toNat by omega)
        have hSame : (String.utf8EncodeChar c).flatMap escapeByte = String.utf8EncodeChar c :=
          escapeJson_of_high hHigh
        rw [hSame]
        exact .unescaped (by omega) (by omega) (by omega) hRest

/-- A literal text needs no escapes. -/
theorem chars_literal {text : Bytes} (h : Literal text) : Chars text := by
  obtain ⟨hPlain, hAscii⟩ := h
  induction text with
  | nil => exact .nil
  | cons b text ih =>
      obtain ⟨hFirst, hRest⟩ := List.forall_mem_cons.mp hPlain
      obtain ⟨hByte, hBytes⟩ := List.forall_mem_cons.mp hAscii
      obtain ⟨c, hNat, hChar⟩ := exists_char_of_ascii hByte.2
      rw [← List.singleton_append, ← hChar]
      refine .unescaped (by omega) ?_ ?_ (ih hRest hBytes)
      · intro hEq
        exact hFirst.1 (UInt8.toNat_inj.mp (hNat.symm.trans hEq))
      · intro hEq
        exact hFirst.2 (UInt8.toNat_inj.mp (hNat.symm.trans hEq))

/-! ## Replies -/

/-- A value whose text, if it is one, is clean. -/
def JsonValue.Clean : JsonValue → Prop
  | .string text => CleanText text
  | _ => True

/-- All texts of the reply are clean. -/
def Response.Clean (response : Response) : Prop :=
  ∀ field ∈ response.fields, field.2.Clean

/-- The arguments of a reply that are texts. -/
def Response.texts : Response → List Bytes
  | .ok text | .error text | .registerFailed text | .loginFailed text => [text]
  | .loginSuccess _ text | .createGroupSuccess _ text => [text]
  | .directMessage senderUsername body | .groupMessage _ senderUsername body =>
      [senderUsername, body]
  | .historyItem _ chatType fromName toName body createdAt =>
      [chatType, fromName, toName, body, createdAt]
  | .registerSuccess _ | .messageAck _ _ _ | .historyEnd _ _ | .unreadEnd _ _ | .pong => []

/-- Types and the status of an acknowledgement are literals. -/
theorem Response.clean_of_texts {response : Response}
    (h : ∀ text ∈ response.texts, CleanText text) : response.Clean := by
  have hLiteral : ∀ text, PrintableAscii text → CleanText text := fun _ => cleanText_of_ascii
  have hStatus : ∀ stored : Bool,
      CleanText (if stored then ascii "stored" else ascii "failed") := by
    intro stored
    cases stored <;> exact cleanText_of_ascii (ascii_literal (by decide))
  cases response <;>
    simp only [Response.texts, List.forall_mem_cons, List.not_mem_nil, false_imp_iff,
      implies_true, and_true] at h <;>
    simp only [Response.Clean, Response.fields, List.forall_mem_cons, List.not_mem_nil,
      false_imp_iff, implies_true, and_true, JsonValue.Clean, h, hStatus] <;>
    exact hLiteral _ (ascii_literal (by decide))

/-- A member of an object. -/
theorem derives_member {name text : Bytes} (hName : Literal name)
    (h : Derives .value text) :
    Derives .members (quote :: (name ++ quote :: chr ':' :: text)) := by
  have hWs : Json.Ws [] := by simp [Json.Ws]
  have hMember := Derives.member hWs (chars_literal hName) hWs hWs h hWs
  simpa [quote] using hMember

theorem derives_field {field : Bytes × JsonValue} (h : WrittenField field)
    (hClean : field.2.Clean) : Derives .members (fieldText field) := by
  obtain ⟨name, value⟩ := field
  cases value with
  | string value =>
      have hMember := derives_member h (.string (chars_escapeJson hClean))
      simpa [fieldText, jsonStringField, ascii, quote] using hMember
  | number value =>
      have hMember := derives_member h.1 (.number (Json.numberText_decimal (value % 2 ^ 64)))
      simpa [fieldText, jsonNumberField, toStringU64, ascii, quote] using hMember
  | bool value =>
      have hValue : Derives .value (if value then ascii "true" else ascii "false") := by
        cases value
        · exact .false
        · exact .true
      have hMember := derives_member h hValue
      simpa [fieldText, jsonBoolField, ascii, quote] using hMember

/-- The fields of a reply are members of an object. -/
theorem derives_fields {members : List (Bytes × JsonValue)}
    (h : ∀ field ∈ members, WrittenField field ∧ field.2.Clean) :
    ∀ {first : Bytes}, Derives .members first → Derives .members
      (first ++ (members.map fieldText).flatMap fun text => ascii "," ++ text) := by
  induction members with
  | nil =>
      intro first hFirst
      simpa using hFirst
  | cons field members ih =>
      intro first hFirst
      obtain ⟨hField, hRest⟩ := List.forall_mem_cons.mp h
      exact .moreMembers hFirst (ih hRest (derives_field hField.1 hField.2))

/-- A reply with clean texts is a JSON text. -/
theorem Response.jsonText {response : Response} (h : response.Clean) :
    JsonText response.data := by
  obtain ⟨type, members, hFields, hType, hWritten, hData⟩ := response.data_eq
  have hWs : Json.Ws [] := by simp [Json.Ws]
  have hKey : Literal (ascii "type") := ascii_literal (by decide)
  have hMembers : ∀ field ∈ members, WrittenField field ∧ field.2.Clean := by
    intro field hMem
    refine ⟨hWritten field hMem, ?_⟩
    apply h field
    rw [hFields]
    exact List.mem_cons_of_mem _ hMem
  have hFirst := derives_member hKey (.string (chars_literal hType))
  refine ⟨[], response.data, [], hWs, ?_, hWs, by simp⟩
  rw [hData]
  have hObject := Derives.object (derives_fields hMembers hFirst)
  simpa [formatFields, finishJson, jsonType, ascii, quote] using hObject

end CppChat.Ports.Protocol

namespace CppChat.Ports.Chat

open CppChat.Verified
open CppChat.Verified.AtomicProgram
open CppChat.Verified.Json (JsonText)
open CppChat.Ports.Protocol
open CppChat.Ports.Sessions
open CppChat.Ports.Users
open CppChat.Ports.Groups
open CppChat.Ports.Messages

/-! ## Clean states -/

/-- Every name and every body the service holds is clean. -/
structure CleanState (s : ChatState) : Prop where
  users : ∀ name record, s.users.usersByUsername.lookup name = some record →
    CleanText record.username
  sessions : ∀ userId session, s.sessions.sessions.lookup userId = some session →
    CleanText session.username
  messages : ∀ message ∈ s.messages.messages, CleanText message.body

theorem CleanState.empty : CleanState {} where
  users := by simp
  sessions := by simp
  messages := by simp

/-- A call stores only texts of this kind: the name of an account that is
registered, the name of a group, the body of a message. -/
def ServiceCall.StoresOnly (clean : Bytes → Prop) (crypto : Crypto) (s : ChatState) :
    ServiceCall → Prop
  | .registerUser username password =>
      (s.users.registerUser crypto username password).1.isOk = true → clean username
  | .createGroup name _ => clean name
  | .append message => clean message.body
  | _ => True

instance {clean : Bytes → Prop} [DecidablePred clean] (crypto : Crypto) (s : ChatState)
    (op : ServiceCall) : Decidable (op.StoresOnly clean crypto s) := by
  unfold ServiceCall.StoresOnly
  split <;> infer_instance

theorem ServiceCall.StoresOnly.mono {clean weaker : Bytes → Prop}
    (h : ∀ text, clean text → weaker text) {crypto : Crypto} {s : ChatState}
    {op : ServiceCall} (hOp : op.StoresOnly clean crypto s) :
    op.StoresOnly weaker crypto s := by
  cases op with
  | registerUser username password => exact fun hOk => h _ (hOp hOk)
  | createGroup name ownerId => exact h _ hOp
  | append message => exact h _ hOp
  | _ => trivial

/-- A session is bound under a clean name. -/
def ServiceCall.BindsClean : ServiceCall → Prop
  | .bind session => CleanText session.username
  | _ => True

/-! ## The calls -/

variable {crypto : Crypto} {s : ChatState}

/-- An account with a clean name. -/
theorem CleanState.registerUser (h : CleanState s) {username password : Bytes}
    (hName : (s.users.registerUser crypto username password).1.isOk = true →
      CleanText username) :
    CleanState { s with users := (s.users.registerUser crypto username password).2 } where
  users := by
    intro name record hLookup
    rcases s.users.registerUser_cases crypto username password with
      ⟨reason, calls, hEq⟩ | ⟨hash, hFree, hEq⟩
    · rw [hEq] at hLookup
      exact h.users name record hLookup
    · rw [hEq] at hLookup hName
      have hInsert := hLookup
      simp only [UnorderedMap.lookup_insert] at hInsert
      split at hInsert
      · rw [← Option.some.inj hInsert]
        exact hName rfl
      · exact h.users name record hInsert
  sessions := h.sessions
  messages := h.messages

theorem CleanState.withSessions (h : CleanState s) {m : SessionManager}
    (hSessions : ∀ userId session, m.sessions.lookup userId = some session →
      CleanText session.username) : CleanState { s with sessions := m } where
  users := h.users
  sessions := hSessions
  messages := h.messages

/-- A session with a clean name. -/
theorem CleanState.bind (h : CleanState s) {session : Session}
    (hName : CleanText session.username) :
    CleanState { s with sessions := s.sessions.bind session } := by
  apply h.withSessions
  intro userId other hLookup
  have hInsert : (((s.sessions.dropUser session.userId).dropConnection
      session.connectionId).sessions.insert session.userId session).lookup userId =
        some other := hLookup
  rw [UnorderedMap.lookup_insert, SessionManager.sessions_dropConnection] at hInsert
  split at hInsert
  · rw [← Option.some.inj hInsert]
    exact hName
  · split at hInsert
    · contradiction
    · rw [SessionManager.sessions_dropUser] at hInsert
      exact h.sessions userId other hInsert

theorem CleanState.unbindConnection (h : CleanState s) (c : Nat) :
    CleanState { s with sessions := s.sessions.unbindConnection c } := by
  apply h.withSessions
  intro userId other hLookup
  rw [SessionManager.sessions_unbindConnection] at hLookup
  split at hLookup
  · contradiction
  · exact h.sessions userId other hLookup

/-- A call that stores clean texts keeps the state clean. -/
theorem exec_cleanState (h : CleanState s) {op : ServiceCall}
    (hStores : op.StoresOnly CleanText crypto s) (hBinds : op.BindsClean) :
    CleanState (op.exec crypto s).2 := by
  cases op with
  | bind session => exact h.bind hBinds
  | unbindConnection c => exact h.unbindConnection c
  | sessionJoinGroup g u => exact h.withSessions h.sessions
  | sessionLeaveGroup g u =>
      apply h.withSessions
      rw [SessionManager.sessions_leaveGroup]
      exact h.sessions
  | registerUser username password => exact h.registerUser hStores
  | append message =>
      refine ⟨h.users, h.sessions, ?_⟩
      intro other hMem
      rcases List.mem_append.mp hMem with hOld | hNew
      · exact h.messages other hOld
      · rw [List.mem_singleton.mp hNew]
        exact hStores
  | createGroup name u => exact ⟨h.users, h.sessions, h.messages⟩
  | joinGroup g u => exact ⟨h.users, h.sessions, h.messages⟩
  | leaveGroup g u => exact ⟨h.users, h.sessions, h.messages⟩
  | _ => exact h

/-! ## What the calls return -/

/-- A message whose texts are clean. -/
def CleanMessage (message : StoredMessage) : Prop :=
  CleanText message.body ∧ CleanText message.createdAt

/-- The texts in the result of a call are clean; after an append the body is. -/
def ServiceCall.CleanResult : (op : ServiceCall) → op.Result → Prop
  | .findByConnection _, (r : Option Session) => ∀ session ∈ r, CleanText session.username
  | .find _, (r : Option Session) => ∀ session ∈ r, CleanText session.username
  | .findByUsername _, (r : Option Session) => ∀ session ∈ r, CleanText session.username
  | .registerUser _ _, (r : Except Bytes Nat) => ErrorsAre CleanText r
  | .verifyLogin _ _, (r : Option UserRecord) => ∀ user ∈ r, CleanText user.username
  | .findUserById _, (r : Option UserRecord) => ∀ user ∈ r, CleanText user.username
  | .findUserByUsername _, (r : Option UserRecord) => ∀ user ∈ r, CleanText user.username
  | .createGroup _ _, (r : Except Bytes GroupRecord) =>
      ErrorsAre CleanText r ∧ ∀ group, r = .ok group → CleanText group.name
  | .joinGroup _ _, (r : Except Bytes Bool) => ErrorsAre CleanText r
  | .leaveGroup _ _, (r : Except Bytes Unit) => ErrorsAre CleanText r
  | .append message, _ => CleanText message.body
  | .directHistoryPage _ _ _ _, (r : List StoredMessage) => ∀ message ∈ r, CleanMessage message
  | .groupHistoryPage _ _ _, (r : List StoredMessage) => ∀ message ∈ r, CleanMessage message
  | .unreadPage _ _ _ _, (r : List StoredMessage) => ∀ message ∈ r, CleanMessage message
  | _, _ => True

theorem CleanState.numbered (h : CleanState s) :
    ∀ message ∈ s.messages.numbered, CleanMessage message := by
  intro message hMem
  obtain ⟨i, stored, hStored, rfl⟩ := MessageStore.mem_numbered.mp hMem
  have hEmpty : CleanText [] := cleanText_of_ascii (by decide)
  exact ⟨h.messages stored (List.mem_of_getElem? hStored), hEmpty⟩

theorem CleanState.registerUser_errors (s : ChatState) (username password : Bytes) :
    ErrorsAre CleanText (s.users.registerUser crypto username password).1 := by
  intro reason hReason
  have hText : reason = ascii "username and password are required" ∨
      reason = ascii "username too long" ∨ reason = ascii "username already exists" ∨
      reason = ascii "failed to hash password" := by
    unfold UserStore.registerUser at hReason
    grind
  rcases hText with rfl | rfl | rfl | rfl <;> exact cleanText_of_ascii (ascii_literal (by decide))

/-- From a clean state come clean texts. -/
theorem exec_cleanResult (h : CleanState s) {op : ServiceCall}
    (hStores : op.StoresOnly CleanText crypto s) : op.CleanResult (op.exec crypto s).1 := by
  cases op with
  | findByConnection c =>
      intro session hSession
      have hFind : s.sessions.findByConnection c = some session := hSession
      unfold SessionManager.findByConnection at hFind
      split at hFind
      · contradiction
      · exact h.sessions _ session hFind
  | find u => exact fun session hSession => h.sessions u session hSession
  | findByUsername n =>
      intro session hSession
      have hFind : s.sessions.findByUsername n = some session := hSession
      unfold SessionManager.findByUsername at hFind
      split at hFind
      · contradiction
      · exact h.sessions _ session hFind
  | registerUser n p => exact CleanState.registerUser_errors s n p
  | verifyLogin n p =>
      exact fun user hUser => h.users n user (verifyLogin_stored hUser)
  | findUserById u =>
      intro user hUser
      have hFind : s.users.findUserById u = some user := hUser
      unfold UserStore.findUserById at hFind
      split at hFind
      · contradiction
      · exact h.users _ user hFind
  | findUserByUsername n => exact fun user hUser => h.users n user hUser
  | createGroup n u =>
      show ErrorsAre CleanText (s.groups.createGroup n u).1 ∧
        ∀ group, (s.groups.createGroup n u).1 = .ok group → CleanText group.name
      unfold GroupStore.createGroup
      split
      · exact ⟨errorsAre_error (cleanText_of_ascii (ascii_literal (by decide))), by simp⟩
      · refine ⟨errorsAre_ok _, ?_⟩
        intro group hGroup
        rw [← Except.ok.inj hGroup]
        exact hStores
  | joinGroup g u => exact errorsAre_ok _
  | leaveGroup g u =>
      intro reason hReason
      rw [leaveGroup_error hReason]
      exact cleanText_of_ascii (ascii_literal (by decide))
  | append message => exact hStores
  | directHistoryPage u p l b =>
      exact fun message hMem => h.numbered message (MessageStore.mem_historyPage hMem).1
  | groupHistoryPage g l b =>
      exact fun message hMem => h.numbered message (MessageStore.mem_historyPage hMem).1
  | unreadPage u gs k l =>
      exact fun message hMem => h.numbered message (MessageStore.mem_unreadPage hMem).1
  | _ => trivial

/-! ## The requests -/

/-- What a request may rely on, and what it owes, at each call. -/
def cleanSpec (op : ServiceCall) (_ : Unit) (q : op.Result → Unit → Prop) : Prop :=
  op.BindsClean ∧ ∀ r, op.CleanResult r → q r ()

/-- The program owes nothing it does not do, and what it returns is `post`. -/
def CleanProg {α : Type} (post : α → Prop) (p : Service α) : Prop :=
  p.Wp cleanSpec (fun a _ => post a) ()

theorem CleanProg.perform {α : Type} {post : α → Prop} {op : ServiceCall}
    {f : op.Result → Service α} (hBinds : op.BindsClean)
    (h : ∀ r, op.CleanResult r → CleanProg post (f r)) : CleanProg post (perform op >>= f) :=
  ⟨hBinds, h⟩

/-- One program after the other. -/
theorem CleanProg.bind {α β : Type} {mid : α → Prop} {post : β → Prop} {p : Service α}
    {f : α → Service β} (hp : CleanProg mid p) (hf : ∀ a, mid a → CleanProg post (f a)) :
    CleanProg post (p >>= f) := by
  induction p with
  | done value => exact hf value hp
  | call op next ih => exact ⟨hp.1, fun r hr => ih r (hp.2 r hr)⟩

theorem CleanProg.ite {α : Type} {post : α → Prop} {p : Prop} {_ : Decidable p} {a b : Service α}
    (ha : CleanProg post a) (hb : CleanProg post b) : CleanProg post (if p then a else b) :=
  Prog.Wp.ite ha hb

/-- All texts of the replies are clean. -/
def CleanReplies (out : List OutboundMessage) : Prop :=
  ∀ message ∈ out, message.response.Clean

theorem cleanReplies_reply {response : Response} (c : Nat)
    (h : ∀ text ∈ response.texts, CleanText text) : CleanReplies (reply c response) := by
  intro message hMem
  rw [List.mem_singleton.mp hMem]
  exact Response.clean_of_texts h

/-- A reply whose texts are literals or printed numbers. -/
theorem clean_literal {response : Response} (c : Nat)
    (h : ∀ text ∈ response.texts, PrintableAscii text) :
    CleanProg CleanReplies (pure (reply c response)) :=
  cleanReplies_reply c fun text hMem => cleanText_of_ascii (h text hMem)

/-- A reply with one text, a literal. -/
theorem clean_oneText {response : Response} {chars : List Char} (c : Nat)
    (hText : response.texts = [ascii (String.ofList chars)])
    (h : PrintableAscii (chars.map fun c => c.toNat.toUInt8)) :
    CleanProg CleanReplies (pure (reply c response)) := by
  apply clean_literal c
  rw [hText, List.forall_mem_singleton]
  exact ascii_literal h

/-- One reply with clean texts. -/
theorem clean_reply {response : Response} (c : Nat)
    (h : ∀ text ∈ response.texts, CleanText text) :
    CleanProg CleanReplies (pure (reply c response)) :=
  cleanReplies_reply c h

theorem cleanReplies_append {out rest : List OutboundMessage} (hOut : CleanReplies out)
    (hRest : CleanReplies rest) : CleanReplies (out ++ rest) :=
  List.forall_mem_append.mpr ⟨hOut, hRest⟩

theorem handleRegister_texts (c : Nat) (command : ClientCommand) :
    CleanProg CleanReplies (handleRegister c command) := by
  apply CleanProg.perform (by trivial)
  intro session _
  apply CleanProg.ite (clean_oneText c rfl (by decide))
  apply CleanProg.perform (by trivial)
  intro result hResult
  cases result with
  | error reason => exact clean_reply c (by simpa [Response.texts] using hResult reason rfl)
  | ok userId => exact clean_reply c (by simp [Response.texts])

theorem handleLogin_texts (c : Nat) (command : ClientCommand) :
    CleanProg CleanReplies (handleLogin c command) := by
  apply CleanProg.perform (by trivial)
  intro session _
  apply CleanProg.ite (clean_oneText c rfl (by decide))
  apply CleanProg.perform (by trivial)
  intro online _
  apply CleanProg.ite (clean_oneText c rfl (by decide))
  apply CleanProg.perform (by trivial)
  intro verified hVerified
  cases verified with
  | none => exact clean_oneText c rfl (by decide)
  | some user =>
      have hName : CleanText user.username := hVerified user rfl
      apply CleanProg.perform (by exact hName)
      intro _ _
      exact clean_reply c (by simpa [Response.texts] using hName)

theorem handleCreateGroup_texts (c : Nat) (sender : Session) (command : ClientCommand) :
    CleanProg CleanReplies (handleCreateGroup c sender command) := by
  apply CleanProg.perform (by trivial)
  intro created hCreated
  cases created with
  | error reason => exact clean_reply c (by simpa [Response.texts] using hCreated.1 reason rfl)
  | ok group =>
      apply CleanProg.perform (by trivial)
      intro joined hJoined
      cases joined with
      | error reason => exact clean_reply c (by simpa [Response.texts] using hJoined reason rfl)
      | ok _ =>
          apply CleanProg.perform (by trivial)
          intro _ _
          exact clean_reply c (by simpa [Response.texts] using hCreated.2 group rfl)

theorem handleGroupJoin_texts (c : Nat) (sender : Session) (command : ClientCommand) :
    CleanProg CleanReplies (handleGroupJoin c sender command) := by
  have hText : PrintableAscii (ascii "joined group " ++ toStringU64 command.groupId) :=
    PrintableAscii.append (ascii_literal (by decide)) (printableAscii_decimal _)
  apply CleanProg.perform (by trivial)
  intro joined hJoined
  cases joined with
  | error reason => exact clean_reply c (by simpa [Response.texts] using hJoined reason rfl)
  | ok _ =>
      apply CleanProg.perform (by trivial)
      intro _ _
      exact clean_literal c (by simpa [Response.texts] using hText)

theorem handleGroupLeave_texts (c : Nat) (sender : Session) (command : ClientCommand) :
    CleanProg CleanReplies (handleGroupLeave c sender command) := by
  have hText : PrintableAscii (ascii "left group " ++ toStringU64 command.groupId) :=
    PrintableAscii.append (ascii_literal (by decide)) (printableAscii_decimal _)
  apply CleanProg.perform (by trivial)
  intro left hLeft
  cases left with
  | error reason => exact clean_reply c (by simpa [Response.texts] using hLeft reason rfl)
  | ok _ =>
      apply CleanProg.perform (by trivial)
      intro _ _
      exact clean_literal c (by simpa [Response.texts] using hText)

theorem pushToMembers_texts (senderId : Nat) {formatted : Response} (h : formatted.Clean)
    (members : List Nat) : CleanProg CleanReplies (pushToMembers senderId formatted members) := by
  induction members with
  | nil => exact fun _ hMem => absurd hMem List.not_mem_nil
  | cons memberId rest ih =>
      rw [pushToMembers]
      apply CleanProg.ite ih
      apply CleanProg.perform (by trivial)
      intro session _
      apply CleanProg.bind ih
      intro out hOut
      cases session with
      | none => exact hOut
      | some member => exact List.forall_mem_cons.mpr ⟨h, hOut⟩

/-- The copies of a group message are clean, if the name of the sender is. -/
theorem handleGroupChat_texts (c : Nat) {sender : Session} (hSender : CleanText sender.username)
    (command : ClientCommand) : CleanProg CleanReplies (handleGroupChat c sender command) := by
  apply CleanProg.perform (by trivial)
  intro isMember _
  apply CleanProg.ite (clean_oneText c rfl (by decide))
  apply CleanProg.perform (by trivial)
  intro stored hBody
  apply CleanProg.perform (by trivial)
  intro members _
  apply CleanProg.bind (pushToMembers_texts _ (Response.clean_of_texts
    (by simpa [Response.texts] using ⟨hSender, hBody⟩)) members)
  intro out hOut
  exact cleanReplies_append hOut (cleanReplies_reply c (by simp [Response.texts]))

/-- The copy of a direct message is clean, if the name of the sender is. -/
theorem handleDirectChat_texts (c : Nat) {sender : Session} (hSender : CleanText sender.username)
    (command : ClientCommand) : CleanProg CleanReplies (handleDirectChat c sender command) := by
  apply CleanProg.perform (by trivial)
  intro receiver _
  cases receiver with
  | none => exact clean_oneText c rfl (by decide)
  | some receiver =>
      apply CleanProg.perform (by trivial)
      intro stored hBody
      apply CleanProg.perform (by trivial)
      intro session _
      have hAck : ∀ delivered, CleanReplies (reply c (.messageAck stored.id true delivered)) :=
        fun _ => cleanReplies_reply c (by simp [Response.texts])
      cases session with
      | none => exact hAck false
      | some target =>
          refine List.forall_mem_cons.mpr ⟨?_, hAck true⟩
          exact Response.clean_of_texts (by simpa [Response.texts] using ⟨hSender, hBody⟩)

/-- A name in a history item is the name of an account or a printed number. -/
theorem displayName_texts {user : Option UserRecord}
    (h : ∀ record ∈ user, CleanText record.username) (userId : Nat) :
    CleanText (displayName user userId) := by
  cases user with
  | none => exact cleanText_of_ascii (printableAscii_decimal _)
  | some record => exact h record rfl

theorem groupHistoryItem_texts (c : Nat) {message : StoredMessage} (h : CleanMessage message) :
    CleanProg (fun item => item.response.Clean) (groupHistoryItem c message) := by
  have hType : CleanText (ascii "gc") := cleanText_of_ascii (ascii_literal (by decide))
  have hTo : CleanText (toStringU64 message.receiverId) :=
    cleanText_of_ascii (printableAscii_decimal _)
  apply CleanProg.perform (by trivial)
  intro sender hSender
  have hFrom := displayName_texts hSender message.senderId
  exact Response.clean_of_texts
    (by simpa [Response.texts] using ⟨hType, hFrom, hTo, h.1, h.2⟩)

theorem directHistoryItem_texts (c : Nat) {message : StoredMessage} (h : CleanMessage message) :
    CleanProg (fun item => item.response.Clean) (directHistoryItem c message) := by
  have hType : CleanText (ascii "dm") := cleanText_of_ascii (ascii_literal (by decide))
  apply CleanProg.perform (by trivial)
  intro sender hSender
  apply CleanProg.perform (by trivial)
  intro receiver hReceiver
  have hFrom := displayName_texts hSender message.senderId
  have hTo := displayName_texts hReceiver message.receiverId
  exact Response.clean_of_texts
    (by simpa [Response.texts] using ⟨hType, hFrom, hTo, h.1, h.2⟩)

/-- A page of clean messages. -/
theorem historyItems_texts {item : StoredMessage → Service OutboundMessage}
    (hItem : ∀ message, CleanMessage message →
      CleanProg (fun item => item.response.Clean) (item message)) {page : List StoredMessage}
    (h : ∀ message ∈ page, CleanMessage message) :
    CleanProg CleanReplies (historyItems item page) := by
  induction page with
  | nil => exact fun _ hMem => absurd hMem List.not_mem_nil
  | cons message rest ih =>
      obtain ⟨hFirst, hRest⟩ := List.forall_mem_cons.mp h
      apply CleanProg.bind (hItem message hFirst)
      intro first hClean
      apply CleanProg.bind (ih hRest)
      intro others hOthers
      exact List.forall_mem_cons.mpr ⟨hClean, hOthers⟩

theorem handleHistoryQuery_texts (c : Nat) (sender : Session) (command : ClientCommand) :
    CleanProg CleanReplies (handleHistoryQuery c sender command) := by
  have hEnd : ∀ hasMore next, CleanReplies (reply c (.historyEnd hasMore next)) :=
    fun _ _ => cleanReplies_reply c (by simp [Response.texts])
  unfold handleHistoryQuery
  apply CleanProg.ite
  · apply CleanProg.perform (by trivial)
    intro isMember _
    apply CleanProg.ite (clean_oneText c rfl (by decide))
    apply CleanProg.perform (by trivial)
    intro page hPage
    apply CleanProg.bind (historyItems_texts (fun _ => groupHistoryItem_texts c)
      fun message hMem => hPage message (List.mem_reverse.mp hMem))
    intro out hOut
    exact cleanReplies_append hOut (hEnd _ _)
  · apply CleanProg.perform (by trivial)
    intro peer _
    cases peer with
    | none => exact clean_oneText c rfl (by decide)
    | some peer =>
        apply CleanProg.perform (by trivial)
        intro page hPage
        apply CleanProg.bind (historyItems_texts (fun _ => directHistoryItem_texts c)
          fun message hMem => hPage message (List.mem_reverse.mp hMem))
        intro out hOut
        exact cleanReplies_append hOut (hEnd _ _)

theorem handleUnreadQuery_texts (c : Nat) (sender : Session) (command : ClientCommand) :
    CleanProg CleanReplies (handleUnreadQuery c sender command) := by
  have hItem : ∀ message, CleanMessage message →
      CleanProg (fun item => item.response.Clean) (unreadItem c message) :=
    fun _ h => CleanProg.ite (groupHistoryItem_texts c h) (directHistoryItem_texts c h)
  apply CleanProg.perform (by trivial)
  intro groupIds _
  apply CleanProg.perform (by trivial)
  intro page hPage
  apply CleanProg.bind (historyItems_texts hItem hPage)
  intro out hOut
  exact cleanReplies_append hOut (cleanReplies_reply c (by simp [Response.texts]))

/-- The replies of every command that needs a session are clean. -/
theorem handleSession_texts (c : Nat) {sender : Session} (hSender : CleanText sender.username)
    (command : ClientCommand) : CleanProg CleanReplies (handleSession c sender command) := by
  unfold handleSession
  split
  · -- logout
    refine ⟨trivial, fun _ _ => ?_⟩
    have hText : Response.Clean (.ok (ascii "logout")) := by
      apply Response.clean_of_texts
      simpa [Response.texts] using cleanText_of_ascii (ascii_literal (by decide))
    exact List.forall_mem_singleton.mpr hText
  · exact handleCreateGroup_texts c sender command
  · exact handleGroupJoin_texts c sender command
  · exact handleGroupLeave_texts c sender command
  · exact handleGroupChat_texts c hSender command
  · exact handleHistoryQuery_texts c sender command
  · exact handleDirectChat_texts c hSender command
  · exact handleUnreadQuery_texts c sender command
  · exact clean_oneText c rfl (by decide)

/-- A request that stores clean texts in a clean state has clean replies, whatever
happens between its calls. -/
theorem handleClientLine_texts (c : Nat) (line : Bytes) :
    CleanProg CleanReplies (handleClientLine c line) := by
  unfold handleClientLine
  split
  · rename_i reason hParse
    have hText := (parseClientCommand_errors line reason hParse).2
    exact clean_literal c (by simpa [Response.texts] using hText)
  · rename_i command hParse
    unfold handleCommand
    split
    · exact clean_reply c (by simp [Response.texts])
    · exact handleRegister_texts c command
    · exact handleLogin_texts c command
    · apply CleanProg.perform (by trivial)
      intro sender hSender
      cases sender with
      | none => exact clean_oneText c rfl (by decide)
      | some sender => exact handleSession_texts c (hSender sender rfl) command

end CppChat.Ports.Chat

namespace CppChat.Ports.ServerRuns

open CppChat.Verified
open CppChat.Verified.AtomicProgram
open CppChat.Verified.Transition
open CppChat.Verified.Json (JsonText)
open CppChat.Ports.Protocol
open CppChat.Ports.Users
open CppChat.Ports.Chat
open CppChat.Ports.Network
open CppChat.Ports.ConnectionTeardown (PoolConfig)

/-! ## All runs -/

/-- The call a worker is about to make. -/
def Server.nextCall (s : Server) (worker : Nat) : Option ServiceCall :=
  (s.running.lookup worker).bind fun job => job.current.bind Prog.nextCall

/-- The step stores only texts of this kind. -/
def storesOnly (clean : Bytes → Prop) (crypto : Crypto) (s : Server) : Action → Prop
  | .work worker => ∀ op ∈ s.nextCall worker, op.StoresOnly clean crypto s.chat
  | _ => True

instance {clean : Bytes → Prop} [DecidablePred clean] (crypto : Crypto) (s : Server)
    (a : Action) : Decidable (storesOnly clean crypto s a) := by
  unfold storesOnly
  split <;> infer_instance

/-- The service holds clean texts only, the requests in flight will have clean
replies, and those that are finished have had them. -/
structure CleanServer (s : Server) : Prop where
  chat : CleanState s.chat
  jobs : ∀ worker job, s.running.lookup worker = some job →
    ∀ p ∈ job.current, CleanProg CleanReplies p
  replies : ∀ frame out queued, .finish frame out queued ∈ s.log → CleanReplies out

theorem disconnect_cleanState {crypto : Crypto} {chat : ChatState} (h : CleanState chat)
    (effect : Effect) : CleanState (disconnect crypto chat effect) := by
  cases effect with
  | handleDisconnect c => exact h.unbindConnection c
  | _ => exact h

variable {crypto : Crypto} {config : ServerConfig} {pool : PoolConfig} {s s' : Server}

theorem withNet_cleanState (h : CleanState s.chat) (net : TcpServer) :
    CleanState (s.withNet crypto net).chat := by
  have hStep : ∀ chat effect, True → CleanState chat →
      CleanState (disconnect crypto chat effect) :=
    fun _ effect _ hChat => disconnect_cleanState hChat effect
  exact foldl_invariant hStep (newEffects s.net net) s.chat (fun _ _ => trivial) h

/-- Only a finished packet adds replies. -/
theorem CleanServer.of_log (h : CleanServer s) (hChat : CleanState s'.chat)
    (hRunning : s'.running = s.running)
    (hLog : ∀ frame out queued, .finish frame out queued ∈ s'.log →
      .finish frame out queued ∈ s.log) : CleanServer s' where
  chat := hChat
  jobs := by
    rw [hRunning]
    exact h.jobs
  replies := fun frame out queued hMem => h.replies frame out queued (hLog frame out queued hMem)

/-- One worker's job changes. -/
theorem jobs_insert (h : CleanServer s) (worker : Nat) {job : Job}
    (hJob : ∀ p ∈ job.current, CleanProg CleanReplies p) :
    ∀ other old, (s.running.insert worker job).lookup other = some old →
      ∀ p ∈ old.current, CleanProg CleanReplies p := by
  intro other old hLookup
  rw [UnorderedMap.lookup_insert] at hLookup
  split at hLookup
  · rw [← Option.some.inj hLookup]
    exact hJob
  · exact h.jobs other old hLookup

theorem finish_mem_concat {log : List Event} {event : Event} {frame : Frame}
    {out : List OutboundMessage} {queued : Bool} (hEvent : event ≠ .finish frame out queued)
    (h : .finish frame out queued ∈ log ++ [event]) : .finish frame out queued ∈ log := by
  rcases List.mem_append.mp h with hOld | hNew
  · exact hOld
  · exact absurd (List.mem_singleton.mp hNew).symm hEvent

theorem finish_mem_storedBy {log : List Event} {frame job : Frame} {op : ServiceCall}
    {result : op.Result} {out : List OutboundMessage} {queued : Bool}
    (h : .finish frame out queued ∈ log ++ storedBy job op result) :
    .finish frame out queued ∈ log := by
  cases op with
  | append message => exact finish_mem_concat (by simp) h
  | _ =>
      rw [show storedBy job _ result = [] from rfl, List.append_nil] at h
      exact h

theorem CleanServer.submit (h : CleanServer s) (batch : Option (Nat × Nat × List Bytes)) :
    CleanServer (s.submit batch) := by
  cases batch with
  | none => exact h
  | some batch => exact h.of_log h.chat rfl fun _ _ _ => finish_mem_concat (by simp)

theorem CleanServer.deliver (h : CleanServer s) (item : Item) (rest : List Item) (io : SendIo) :
    CleanServer (s.deliver crypto config item rest io) := by
  have hChat : CleanState (s.deliver crypto config item rest io).chat :=
    withNet_cleanState h.chat _
  apply h.of_log hChat rfl
  intro frame out queued hMem
  simp only [Server.deliver] at hMem
  split at hMem
  · exact finish_mem_concat (by simp) hMem
  · exact hMem

/-- A call that stores only clean texts keeps everything clean. -/
theorem CleanServer.call (h : CleanServer s) {worker : Nat} {job : Job} {op : ServiceCall}
    {next : op.Result → Service (List OutboundMessage)}
    (hJob : s.running.lookup worker = some job) (hCurrent : job.current = some (.call op next))
    (hStores : op.StoresOnly CleanText crypto s.chat) :
    CleanServer (s.call crypto worker job op next) := by
  have hProg : CleanProg CleanReplies (.call op next) := h.jobs worker job hJob _ hCurrent
  constructor
  · exact exec_cleanState h.chat hStores hProg.1
  · apply jobs_insert h
    intro p hp
    rw [← Option.some.inj hp]
    exact hProg.2 _ (exec_cleanResult h.chat hStores)
  · intro frame out queued hMem
    exact h.replies frame out queued (finish_mem_storedBy hMem)

/-- The replies of a packet are clean when it is finished. -/
theorem CleanServer.push (h : CleanServer s) {worker : Nat} {job : Job}
    {out : List OutboundMessage} (hJob : s.running.lookup worker = some job)
    (hCurrent : job.current = some (.done out)) : CleanServer (s.push config worker job out) := by
  have hOut : CleanReplies out := h.jobs worker job hJob _ hCurrent
  constructor
  · exact h.chat
  · exact jobs_insert h worker (by simp)
  · intro frame out' queued hMem
    rcases List.mem_append.mp hMem with hOld | hNew
    · exact h.replies frame out' queued hOld
    · injection List.mem_singleton.mp hNew with _ hEq
      rw [hEq]
      exact hOut

/-- A step that stores only clean texts keeps everything clean. -/
theorem step_cleanServer (s : Server) (a : Action) (s' : Server) (h : CleanServer s)
    (hStores : storesOnly CleanText crypto s a)
    (hStep : step crypto config pool s a = some s') : CleanServer s' := by
  cases stepped hStep with
  | @event action r hPhase hEvent hReactor =>
      apply CleanServer.submit
      exact h.of_log (withNet_cleanState h.chat _) rfl fun _ _ _ hMem => hMem
  | drain | swap | drainAgain | endDrain =>
      exact h.of_log h.chat rfl fun _ _ _ hMem => hMem
  | closeNext | closeNextAgain =>
      exact h.of_log (withNet_cleanState h.chat _) rfl fun _ _ _ hMem => hMem
  | deliver io hPhase => exact h.deliver _ _ io
  | take hTasks hThread hFree =>
      exact ⟨h.chat, jobs_insert h _ (by simp), h.replies⟩
  | call hJob hCurrent =>
      apply h.call hJob hCurrent
      apply hStores
      rw [Server.nextCall, hJob, Option.bind_some, hCurrent]
      rfl
  | push hJob hCurrent => exact h.push hJob hCurrent
  | start hJob hCurrent hRest =>
      refine ⟨h.chat, jobs_insert h _ ?_, ?_⟩
      · intro p hp
        rw [← Option.some.inj hp]
        exact handleClientLine_texts _ _
      · intro frame out queued hMem
        exact h.replies frame out queued (finish_mem_concat (by simp) hMem)
  | leave hJob hCurrent hRest =>
      refine ⟨h.chat, ?_, h.replies⟩
      intro worker job hLookup
      have hErased := hLookup
      rw [UnorderedMap.lookup_erase] at hErased
      split at hErased
      · contradiction
      · exact h.jobs worker job hErased

/-- In every run whose steps store only clean texts, every payload a request has been
answered with is a JSON text. -/
theorem replies_wellFormed (crypto : Crypto) (config : ServerConfig) (pool : PoolConfig)
    (listenFd wakeFd : Nat) (acts : List Action) (s : Server)
    (hMeet : StepsMeet (step crypto config pool) (storesOnly CleanText crypto)
      (Server.init listenFd wakeFd) acts)
    (hRun : run (step crypto config pool) (Server.init listenFd wakeFd) acts = some s) :
    ∀ frame out queued, .finish frame out queued ∈ s.log →
      ∀ message ∈ out, JsonText message.data := by
  have hInit : CleanServer (Server.init listenFd wakeFd) :=
    ⟨CleanState.empty, by simp [Server.init], by simp [Server.init]⟩
  have h : CleanServer s :=
    run_invariant_of_stepsMeet step_cleanServer acts _ s hInit hMeet hRun
  intro frame out queued hMem message hMessage
  exact Response.jsonText (h.replies frame out queued hMem message hMessage)

/-! ## Two messages from Alice to Bob -/

theorem storesOnly.mono {clean weaker : Bytes → Prop} (h : ∀ text, clean text → weaker text)
    {a : Action} (hStores : storesOnly clean crypto s a) : storesOnly weaker crypto s a := by
  cases a with
  | work worker => exact fun op hOp => (hStores op hOp).mono h
  | _ => trivial

/-- What is pushed to Bob on connection 2. -/
def pushToBob (body : Bytes) : OutboundMessage :=
  { connectionId := 2, response := .directMessage (ascii "alice") body }

/-- The acknowledgement of the first message, to Alice on connection 1. -/
def ackToAlice : OutboundMessage :=
  { connectionId := 1, response := .messageAck 1 true true }

/-- Alice and Bob register, log in, and Alice writes twice: all of it is JSON, the
message pushed to Bob included. -/
theorem replies_wellFormed_oneBatch :
    ∃ s, run (step sampleCrypto {} ⟨2, 4⟩) (Server.init 3 4) oneBatch = some s ∧
      (∃ out, .finish ⟨2, 0⟩ out true ∈ s.log ∧ pushToBob (ascii "one") ∈ out) ∧
      ∀ frame out queued, .finish frame out queued ∈ s.log →
        ∀ message ∈ out, JsonText message.data := by
  have hBatch : (run (step sampleCrypto {} ⟨2, 4⟩) (Server.init 3 4) oneBatch).map (fun s =>
        decide (.finish ⟨2, 0⟩ [pushToBob (ascii "one"), ackToAlice] true ∈ s.log)) = some true ∧
      StepsMeet (step sampleCrypto {} ⟨2, 4⟩) (storesOnly PrintableAscii sampleCrypto)
        (Server.init 3 4) oneBatch := by
    decide +kernel
  obtain ⟨hMapped, hAscii⟩ := hBatch
  have hMeet : StepsMeet (step sampleCrypto {} ⟨2, 4⟩) (storesOnly CleanText sampleCrypto)
      (Server.init 3 4) oneBatch :=
    hAscii.mono fun _ _ => storesOnly.mono fun _ => cleanText_of_ascii
  obtain ⟨s, hRun, hView⟩ := Option.map_eq_some_iff.mp hMapped
  exact ⟨s, hRun, ⟨_, of_decide_eq_true hView, List.mem_cons_self⟩,
    replies_wellFormed sampleCrypto {} ⟨2, 4⟩ 3 4 oneBatch s hMeet hRun⟩

/-- Alice sends Bob the byte `0x01`. -/
def rawControl : List Action :=
  enterBoth ++ [.event (.read 7 (readOf [dmLine (ascii "bob") [1]])), .take 0] ++
  List.replicate 6 (.work 0)

/-- The byte is pushed to Bob as it is, inside a string. -/
theorem replies_rawControl :
    ¬∀ (crypto : Crypto) (config : ServerConfig) (pool : PoolConfig) (listenFd wakeFd : Nat)
      (acts : List Action) (s : Server),
      run (step crypto config pool) (Server.init listenFd wakeFd) acts = some s →
      ∀ frame out queued, .finish frame out queued ∈ s.log →
        ∀ message ∈ out, JsonText message.data := by
  intro h
  obtain ⟨s, hRun, hView⟩ := Option.map_eq_some_iff.mp
    (show (run (step sampleCrypto {} ⟨2, 4⟩) (Server.init 3 4) rawControl).map (fun s =>
        decide (.finish ⟨2, 0⟩ [pushToBob [1], ackToAlice] true ∈ s.log)) = some true by
      decide +kernel)
  have hText := h sampleCrypto {} ⟨2, 4⟩ 3 4 rawControl s hRun _ _ _ (of_decide_eq_true hView)
    _ List.mem_cons_self
  have hByte : (1 : UInt8) ∈ (pushToBob [1]).data := by decide +kernel
  have hPrintable := hText.printable 1 hByte
  exact absurd hPrintable (by decide)

end CppChat.Ports.ServerRuns
