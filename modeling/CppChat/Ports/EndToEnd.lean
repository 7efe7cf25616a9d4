import CppChat.Ports.ReplyOrigins

/-!
# The clients and the server

All parts of the model in one system: any number of clients, each at the other end of a
connection; between them and the service the kernel, the reactor, the thread pool and the
two queues.  Clients send and read whenever they like, and the kernel cuts every stream
where it likes.

## Main results

* `World.server_run`: a run of the system is a run of the server, so what has been shown of
  the server holds among its clients.
* `step_connected`: every client stays joined to its connection.
* `packets_traced`: where every packet comes from that a client reads.
-/

namespace CppChat.Ports.EndToEnd

open CppChat.Verified
open CppChat.Verified.AtomicProgram
open CppChat.Verified.Transition
open CppChat.Ports.PacketCodec
open CppChat.Ports.Protocol
open CppChat.Ports.Sessions
open CppChat.Ports.Users
open CppChat.Ports.Messages
open CppChat.Ports.Chat
open CppChat.Ports.Network hiding Action
open CppChat.Ports.ServerRuns hiding Action step
open CppChat.Ports.ConnectionTeardown (PoolConfig)

/-! ## The system -/

/-- A client, the bytes it has written that the server has not read, and the number of
bytes it has received. -/
structure Peer where
  client : Client := {}
  upstream : Bytes := []
  taken : Nat := 0

/-- The server, and for every connection id the client at the other end. -/
structure World where
  server : Server
  peers : Nat → Peer := fun _ => {}

/-- A server that has just started, and clients that have sent nothing. -/
def World.init (listenFd wakeFd : Nat) : World := { server := Server.init listenFd wakeFd }

/-- A connection with both its ends. -/
def World.link (w : World) (i : Nat) : Link :=
  { reactor := { server := w.server.net }
    client := (w.peers i).client
    upstream := (w.peers i).upstream
    taken := (w.peers i).taken }

/-- One client gets a new state. -/
def World.withPeer (w : World) (i : Nat) (peer : Peer) : World :=
  { w with peers := fun j => if j = i then peer else w.peers j }

/-- A step of the server, or of the client of one connection. -/
inductive Action where
  | server (action : ServerRuns.Action)
  | client (connectionId : Nat) (action : LinkAction)

/-- A step of the server, which reads from a connection what its client has written, or of a
client. -/
def World.step (crypto : Crypto) (config : ServerConfig) (pool : PoolConfig) (w : World) :
    Action → Option World
  | .server action =>
      (ServerRuns.step crypto config pool w.server action).bind fun server =>
        match action with
        | .event (.read fd io) =>
            match w.server.net.readsFrom fd with
            | none => some { w with server := server }
            | some i =>
                let peer := w.peers i
                if io.taken.isPrefixOf peer.upstream then
                  some { w.withPeer i
                    { peer with upstream := peer.upstream.drop io.taken.length } with
                    server := server }
                else none
        | _ => some { w with server := server }
  | .client _ (.server _) => none
  | .client i action =>
      ((w.link i).step config i action).map fun link =>
        w.withPeer i { client := link.client, upstream := link.upstream, taken := link.taken }

/-! ## The server's part of a run -/

/-- The part the server has in a step. -/
def Action.ofServer : Action → List ServerRuns.Action
  | .server action => [action]
  | .client _ _ => []

variable {crypto : Crypto} {config : ServerConfig} {pool : PoolConfig} {w w' : World} {i : Nat}

/-- What a step of the server does for the clients. -/
theorem World.step_server {action : ServerRuns.Action}
    (hStep : w.step crypto config pool (.server action) = some w') :
    ServerRuns.step crypto config pool w.server action = some w'.server ∧
      ((∀ j, w'.peers j = w.peers j) ∧
          (∀ fd io, action = .event (.read fd io) → w.server.net.readsFrom fd = none) ∨
        ∃ fd io i, action = .event (.read fd io) ∧ w.server.net.readsFrom fd = some i ∧
          io.taken <+: (w.peers i).upstream ∧
          w'.peers = (w.withPeer i { w.peers i with
            upstream := (w.peers i).upstream.drop io.taken.length }).peers) := by
  obtain ⟨server, hServer, hRest⟩ := Option.bind_eq_some_iff.mp hStep
  split at hRest
  · rename_i fd io
    split at hRest
    · rename_i hNone
      rw [← Option.some.inj hRest]
      refine ⟨hServer, .inl ⟨fun _ => rfl, fun fd' io' hEq => ?_⟩⟩
      injection hEq with hEq
      injection hEq with hFd
      rw [← hFd]
      exact hNone
    · rename_i i hFrom
      dsimp only at hRest
      split at hRest
      · rename_i hPrefix
        rw [← Option.some.inj hRest]
        exact ⟨hServer, .inr ⟨fd, io, i, rfl, hFrom, List.isPrefixOf_iff_prefix.mp hPrefix, rfl⟩⟩
      · contradiction
  · rename_i hNoRead
    rw [← Option.some.inj hRest]
    exact ⟨hServer, .inl ⟨fun _ => rfl, fun fd io hEq => absurd hEq (hNoRead fd io)⟩⟩

/-- What a client does is no step of the server. -/
theorem World.step_client {action : LinkAction}
    (hStep : w.step crypto config pool (.client i action) = some w') :
    w'.server = w.server ∧ (∀ j, j ≠ i → w'.peers j = w.peers j) ∧
      (w.link i).step config i action = some (w'.link i) := by
  have hKeeps : ∀ link, (∀ a, action ≠ .server a) →
      (w.link i).step config i action = some link → link.reactor = (w.link i).reactor := by
    intro link hNot hLink
    cases action with
    | server a => exact absurd rfl (hNot a)
    | sendPacket payload written =>
        rw [Link.step] at hLink
        split at hLink
        · contradiction
        · split at hLink
          · dsimp only at hLink
            split at hLink <;> rw [← Option.some.inj hLink]
          · rw [← Option.some.inj hLink]
    | recv count =>
        rw [Link.step] at hLink
        split at hLink
        · rw [← Option.some.inj hLink]
        · contradiction
    | fail failure =>
        rw [Link.step] at hLink
        split at hLink
        · contradiction
        · rw [← Option.some.inj hLink]
  have hClient : (∀ a, action ≠ .server a) ∧
      ((w.link i).step config i action).map (fun link =>
        w.withPeer i { client := link.client, upstream := link.upstream, taken := link.taken }) =
          some w' := by
    cases action with
    | server a => contradiction
    | _ => exact ⟨by simp, hStep⟩
  obtain ⟨hNot, hMap⟩ := hClient
  obtain ⟨link, hLink, rfl⟩ := Option.map_eq_some_iff.mp hMap
  refine ⟨rfl, fun j hj => if_neg hj, ?_⟩
  rw [hLink]
  have hReactor := hKeeps link hNot hLink
  cases link with
  | mk reactor client upstream taken =>
    have hReactor : reactor = (w.link i).reactor := hReactor
    simp [World.link, World.withPeer, hReactor]

/-- The server's part of a run is a run of the server. -/
theorem World.server_run {acts : List Action}
    (hRun : run (World.step crypto config pool) w acts = some w') :
    run (ServerRuns.step crypto config pool) w.server (acts.flatMap Action.ofServer) =
      some w'.server := by
  refine run_project (fun w a w' hStep => ?_) acts w w' hRun
  cases a with
  | server action =>
      show run _ w.server [action] = _
      rw [run, (World.step_server hStep).1]
      rfl
  | client i action =>
      rw [(World.step_client hStep).1]
      rfl

/-! ## Every client stays joined -/

/-- A step of the server takes the reactor one step further, or changes nothing but the
queues. -/
theorem net_cases {s s' : Server} {a : ServerRuns.Action}
    (hStep : Stepped crypto config pool s a s') :
    (∃ responses closes,
      s'.net = { s.net with responseQueue := responses, closeQueue := closes }) ∨
    ∃ pending action r, Reactor.step config { server := s.net, pending := pending } action =
        some r ∧ r.server = s'.net ∧
      ∀ fd io, action = .read fd io → a = .event (.read fd io) := by
  have hClose : ∀ request : QueuedClose, s'.net = s.net.closeIfCurrent request →
      (∃ responses closes,
        s'.net = { s.net with responseQueue := responses, closeQueue := closes }) ∨
      ∃ pending action r, Reactor.step config { server := s.net, pending := pending } action =
          some r ∧ r.server = s'.net ∧
        ∀ fd io, action = .read fd io → a = .event (.read fd io) := by
    intro request hNet
    rw [hNet, TcpServer.closeIfCurrent]
    split
    · exact .inr ⟨[], .close request.connectionId, _, rfl, rfl, fun _ _ hEq => by cases hEq⟩
    · exact .inl ⟨s.net.responseQueue, s.net.closeQueue, rfl⟩
  have hSame : s'.net = s.net → ∃ responses closes,
      s'.net = { s.net with responseQueue := responses, closeQueue := closes } :=
    fun hNet => ⟨s.net.responseQueue, s.net.closeQueue, hNet⟩
  cases hStep with
  | @event action r hPhase hEvent hNet =>
      exact .inr ⟨[], action, r, hNet, (submit_net (s.withNet crypto r.server) _).1.symm,
        fun fd io hEq => by rw [hEq]⟩
  | drain hPhase => exact .inl ⟨s.net.responseQueue, [], rfl⟩
  | closeNext hPhase => exact hClose _ rfl
  | closeNextAgain hPhase => exact hClose _ rfl
  | swap hPhase => exact .inl ⟨[], s.net.closeQueue, rfl⟩
  | @deliver item rest io hPhase =>
      exact .inr ⟨[item.1], .deliver io, _, rfl, rfl, fun _ _ hEq => by cases hEq⟩
  | drainAgain hPhase => exact .inl ⟨s.net.responseQueue, [], rfl⟩
  | endDrain hPhase => exact .inl (hSame rfl)
  | take hTasks hThread hFree => exact .inl (hSame rfl)
  | call hJob hCurrent => exact .inl (hSame rfl)
  | @push worker job out hJob hCurrent =>
      obtain ⟨responses, closes, hPushed⟩ :=
        s.net.pushResult_queues config (resultOf job out)
      exact .inl ⟨responses, closes, hPushed⟩
  | start hJob hCurrent hRest => exact .inl (hSame rfl)
  | leave hJob hCurrent hRest => exact .inl (hSame rfl)

/-- A step of the server that is no read of the connection. -/
theorem linked_server {link : Link} {a : ServerRuns.Action} {s s' : Server}
    (h : Linked link i) (hNet : link.reactor.server = s.net)
    (hStep : ServerRuns.step crypto config pool s a = some s')
    (hNot : ∀ fd io, a = .event (.read fd io) → s.net.readsFrom fd ≠ some i) :
    Linked { link with reactor := { server := s'.net } } i := by
  rcases net_cases (stepped hStep) with
    ⟨responses, closes, hQueues⟩ | ⟨pending, action, r, hReactor, hServer, hRead⟩
  · exact h.queues (hQueues.trans (by rw [hNet]))
  · have hPending : Linked { link with reactor := { server := s.net, pending := pending } } i :=
      @Linked.queues _ _ h _ s.net.responseQueue s.net.closeQueue (by rw [hNet])
    have hMoved := hPending.elsewhere hReactor fun fd io hEq => hNot fd io (hRead fd io hEq)
    exact @Linked.queues _ _ hMoved _ s'.net.responseQueue s'.net.closeQueue (by rw [hServer])

/-- A read is a step of the reactor. -/
theorem net_read {s s' : Server} {fd : Nat} {io : ReadIo}
    (hStep : ServerRuns.step crypto config pool s (.event (.read fd io)) = some s') :
    ∃ r, Reactor.step config { server := s.net } (.read fd io) = some r ∧
      r.server = s'.net := by
  cases stepped hStep with
  | @event _ r hPhase hEvent hNet =>
      exact ⟨r, hNet, (submit_net (s.withNet crypto r.server) _).1.symm⟩

/-- Every client stays joined to its connection. -/
theorem step_connected (w : World) (a : Action) (w' : World) (h : ∀ i, Linked (w.link i) i)
    (hStep : w.step crypto config pool a = some w') (i : Nat) : Linked (w'.link i) i := by
  cases a with
  | server action =>
      obtain ⟨hServer, hPeers⟩ := World.step_server hStep
      have hElsewhere : w'.peers i = w.peers i →
          (∀ fd io, action = .event (.read fd io) → w.server.net.readsFrom fd ≠ some i) →
            Linked (w'.link i) i := by
        intro hPeer hNot
        have hLinked := linked_server (h i) rfl hServer hNot
        rw [World.link, hPeer]
        exact hLinked
      rcases hPeers with ⟨hPeers, hNone⟩ | ⟨fd, io, j, rfl, hFrom, hPrefix, hPeers⟩
      · refine hElsewhere (hPeers i) fun fd io hEq => ?_
        rw [hNone fd io hEq]
        exact fun hSome => by cases hSome
      · by_cases hi : i = j
        · subst hi
          obtain ⟨r, hNet, hServerNet⟩ := net_read hServer
          have hRead := (h i).read hNet hFrom hPrefix
          have hLinked := @Linked.queues _ _ hRead { server := w'.server.net }
            w'.server.net.responseQueue w'.server.net.closeQueue (by rw [hServerNet])
          have hPeer : w'.peers i = { w.peers i with
              upstream := (w.peers i).upstream.drop io.taken.length } := by
            rw [hPeers]
            exact if_pos rfl
          rw [World.link, hPeer]
          exact hLinked
        · refine hElsewhere ?_ fun fd' io' hEq => ?_
          · rw [hPeers]
            exact if_neg hi
          · injection hEq with hEq
            injection hEq with hFd
            rw [← hFd, hFrom]
            exact fun hSome => hi (Option.some.inj hSome).symm
  | client j action =>
      obtain ⟨hServer, hPeers, hLink⟩ := World.step_client hStep
      by_cases hi : i = j
      · rw [hi]
        exact step_linked _ _ _ (h j) hLink
      · rw [World.link, hServer, hPeers i hi]
        exact h i

/-! ## Where the packets come from -/

/-- The reply is to a request of the client itself, and delivers nothing. -/
def IsOwn (w : World) (i : Nat) (frame : Frame) (response : Response) : Prop :=
  isLiveCopy response = false ∧
    ∃ line, Asked w.server.log frame i line ∧ line ∈ (w.peers i).client.sent

/-- The reply is the copy of a message that is in the store.  The user of some connection
has sent it, and it is for a user who was found at the client's connection when the message
was in the store already. -/
def IsCopy (past : ChatState → Prop) (w : World) (i : Nat) (frame : Frame)
    (response : Response) : Prop :=
  ∃ c line sender command id message users,
    Asked w.server.log frame c line ∧ line ∈ (w.peers c).client.sent ∧
    parseClientCommand line = .ok command ∧
    (∃ t, past t ∧ t.sessions.findByConnection c = some sender) ∧
    .ofMessage id message ∈ w.server.chat.messages.numbered ∧
    SentTo past w.server.chat id sender command message response users ∧
    ∃ u ∈ users, ∃ t session, past t ∧ .ofMessage id message ∈ t.messages.numbered ∧
      t.sessions.find u = some session ∧ session.connectionId = i

/-- Only copies go to somebody else. -/
def OwnReplies (c : Nat) (_line : Bytes) (out : List OutboundMessage) : Prop :=
  ∀ message ∈ out, isLiveCopy message.response = false → message.connectionId = c

theorem ownReplies_of_answers {c : Nat} {command : ClientCommand} {out : List OutboundMessage}
    (h : Answers c command out) (line : Bytes) : OwnReplies c line out := by
  intro message hMem hCopy
  have hAnswer := h message hMem
  unfold OutboundMessage.AnswersTo at hAnswer
  cases hResponse : message.response with
  | directMessage name body => simp [hResponse, isLiveCopy] at hCopy
  | groupMessage g name body => simp [hResponse, isLiveCopy] at hCopy
  | loginSuccess _ _ | createGroupSuccess _ _ | messageAck _ _ _ =>
      rw [hResponse] at hAnswer
      exact hAnswer.2
  | _ =>
      rw [hResponse] at hAnswer
      exact hAnswer

theorem handleClientLine_own (c : Nat) (line : Bytes) :
    (handleClientLine c line).Returns (OwnReplies c line) := by
  unfold handleClientLine
  split
  · intro message hMem _
    rw [List.mem_singleton.mp hMem]
  · exact (handleCommand_returns c _).mono fun out h => ownReplies_of_answers h line

/-- A payload that is being processed was sent by the client of its connection. -/
theorem mem_batchesOf {log : List Event} {frame : Frame} {c : Nat} {line : Bytes}
    (h : Asked log frame c line) : line ∈ batchesOf log c := by
  obtain ⟨g, payloads, hMem, hLine⟩ := h
  refine List.mem_flatMap.mpr ⟨_, hMem, ?_⟩
  show line ∈ if c = c then payloads else []
  rw [if_pos rfl]
  exact List.mem_of_getElem? hLine

/-- A reply among those to a finished packet. -/
theorem reply_traced {past : Pasts} {frame : Frame} {out : List OutboundMessage} {queued : Bool}
    {message : OutboundMessage}
    (hBatches : ∀ c, batchesOf w.server.log c <+: (w.peers c).client.sent)
    (hPromised : Promised past w.server) (hReturned : Returned OwnReplies w.server)
    (hFinish : .finish frame out queued ∈ w.server.log) (hMem : message ∈ out)
    (hTo : message.connectionId = i) :
    IsOwn w i frame message.response ∨ IsCopy (past frame) w i frame message.response := by
  have hSent : ∀ {c line}, Asked w.server.log frame c line → line ∈ (w.peers c).client.sent :=
    fun hAsked => (hBatches _).subset (mem_batchesOf hAsked)
  obtain ⟨c, line, k, hAsked, hPromise, hHolds⟩ := hPromised.finished frame out queued hFinish
  rcases delivered_of_promise hPromise hHolds with ⟨-, hQuiet⟩ | ⟨id, -, hDelivered⟩
  · -- nothing is delivered, so everything goes back to who has asked
    obtain ⟨c', line', hAsked', hOwn⟩ := hReturned.finished frame out queued hFinish
    have hCopy := (hQuiet message hMem).2
    have hc : c' = i := (hOwn message hMem hCopy).symm.trans hTo
    rw [hc] at hAsked'
    exact .inl ⟨hCopy, line', hAsked', hSent hAsked'⟩
  · cases hDelivered with
    | @intro sender command stored formatted lookups hParse hSender hStored hSentTo hLookups =>
        rcases List.mem_append.mp hMem with hCopy | hAck
        · obtain ⟨lookup, hLookup, hMap⟩ := List.mem_filterMap.mp hCopy
          obtain ⟨session, hSession, rfl⟩ := Option.map_eq_some_iff.mp hMap
          obtain ⟨t, hPast, hThere, hFind⟩ := hLookups lookup hLookup
          exact .inr ⟨c, line, sender, command, id, stored, _, hAsked, hSent hAsked, hParse,
            hSender, hStored, hSentTo, lookup.1, List.mem_map_of_mem hLookup, t, session, hPast,
            hThere, hFind.trans hSession, hTo⟩
        · have hReply := List.mem_singleton.mp hAck
          rw [hReply] at hTo ⊢
          have hc : c = i := hTo
          rw [hc] at hAsked
          exact .inl ⟨rfl, line, hAsked, hSent hAsked⟩

/-- Replies of different clients have different origins. -/
theorem sentTo_unique {s : Server} (h : Sourced s) {c c' : Nat} {origin : Origin}
    (hMem : origin ∈ (sentTo s.log c).map Prod.fst)
    (hMem' : origin ∈ (sentTo s.log c').map Prod.fst) : c = c' := by
  have hReply : ∀ {c}, origin ∈ (sentTo s.log c).map Prod.fst →
      ∃ data, (origin, c, data) ∈ s.replies := by
    intro c hMem
    obtain ⟨sent, hSent, rfl⟩ := List.mem_map.mp hMem
    refine ⟨sent.2, List.mem_append_left _ (List.mem_append_left _ ?_)⟩
    exact (sentTo_sublist s.log c).subset (List.mem_map_of_mem hSent)
  obtain ⟨data, hOne⟩ := hReply hMem
  obtain ⟨data', hOther⟩ := hReply hMem'
  have hSame := List.inj_on_of_nodup_map h.once hOne hOther rfl
  exact congrArg (fun reply : Reply => reply.2.1) hSame

theorem sentTo_nodup {s : Server} (h : Sourced s) (c : Nat) :
    ((sentTo s.log c).map Prod.fst).Nodup := by
  have hSub := (sentTo_sublist s.log c).trans
    (((List.sublist_append_left _ _).trans (List.sublist_append_left _ _) :
      (passedReplies s.log).Sublist s.replies))
  have hFst := (hSub.map Prod.fst).nodup h.once
  rwa [List.map_map] at hFst

/-- Everything that holds of both ends in every run. -/
theorem run_connected {listenFd wakeFd : Nat} {acts : List Action}
    (hRun : run (World.step crypto config pool) (World.init listenFd wakeFd) acts = some w) :
    (∀ i, Linked (w.link i) i) ∧
      (∀ c, batchesOf w.server.log c <+: (w.peers c).client.sent) ∧
      ∀ i, (w.peers i).client.packets <+: (sentTo w.server.log i).map Prod.snd := by
  have hInit : ∀ i, Linked ((World.init listenFd wakeFd).link i) i :=
    fun i => linked_init listenFd wakeFd i
  have hLinked := @run_invariant _ _ _ (fun w => ∀ i, Linked (w.link i) i) step_connected _ _ _
    hInit hRun
  obtain ⟨-, hMirrored⟩ := run_origins (World.server_run hRun)
  refine ⟨hLinked, fun c => ?_, fun i => ?_⟩
  · obtain ⟨_, _, _, hUploaded⟩ := (hLinked c).uploaded
    rw [← hMirrored.submitted c]
    exact hUploaded.submitted_initial
  · have hTaken : sentBytes w.server.net.log i =
        (sentBytes w.server.net.log i).take (w.peers i).taken ++
          (sentBytes w.server.net.log i).drop (w.peers i).taken :=
      (List.take_append_drop _ _).symm
    rw [← hMirrored.reported i]
    exact ((hLinked i).behind i).initial hTaken (hLinked i).heard.read

/--
**Everything a client reads can be traced.**  Any number of clients talk to the server at the
same time, and every step is one of theirs or one of the server's threads, in any order:

* of every client, the server has processed a beginning of what it has sent, in batches, each
  payload once and unchanged;
* what a client has read are replies in the order in which they were passed to its
  connection, whole and unchanged, and no reply is read twice or by two clients;
* each of them answers a request that this client has sent itself, or it is a copy of a
  stored message that the user of some connection has sent, for a user who was at this
  client's connection when the message was in the store.
-/
theorem packets_traced (crypto : Crypto) (config : ServerConfig) (pool : PoolConfig)
    (listenFd wakeFd : Nat) (acts : List Action) (w : World)
    (hRun : run (World.step crypto config pool) (World.init listenFd wakeFd) acts = some w) :
    (∀ c, batchesOf w.server.log c <+: (w.peers c).client.sent) ∧
    ∃ replies : Nat → List (Origin × Bytes),
      (∀ i j origin, origin ∈ (replies i).map Prod.fst → origin ∈ (replies j).map Prod.fst →
        i = j) ∧
      ∀ i, replies i <+: sentTo w.server.log i ∧
        (w.peers i).client.packets = (replies i).map Prod.snd ∧
        ((replies i).map Prod.fst).Nodup ∧
        ∀ reply ∈ replies i, ∃ response : Response, response.data = reply.2 ∧
          (IsOwn w i reply.1.frame response ∨
            IsCopy (Processing crypto config pool (Server.init listenFd wakeFd)
              (acts.flatMap Action.ofServer) reply.1.frame) w i reply.1.frame response) := by
  have hServer := World.server_run hRun
  obtain ⟨-, hBatches, hPackets⟩ := run_connected hRun
  obtain ⟨hSourced, -⟩ := run_origins hServer
  obtain ⟨-, hPromised⟩ := run_promised hServer
  have hReturned : Returned OwnReplies w.server := run_returned handleClientLine_own hServer
  have hFirst : ∀ i, (sentTo w.server.log i).take (w.peers i).client.packets.length <+:
      sentTo w.server.log i := fun i => List.take_prefix _ _
  refine ⟨hBatches, fun i => (sentTo w.server.log i).take (w.peers i).client.packets.length,
    ?_, fun i => ⟨hFirst i, ?_, ?_, ?_⟩⟩
  · intro i j origin hMem hMem'
    exact sentTo_unique hSourced (((hFirst i).map Prod.fst).subset hMem)
      (((hFirst j).map Prod.fst).subset hMem')
  · rw [List.map_take]
    exact List.prefix_iff_eq_take.mp (hPackets i)
  · exact ((hFirst i).sublist.map Prod.fst).nodup (sentTo_nodup hSourced i)
  · intro reply hMem
    have hReply : (reply.1, i, reply.2) ∈ w.server.replies :=
      List.mem_append_left _ (List.mem_append_left _
        ((sentTo_sublist w.server.log i).subset
          (List.mem_map_of_mem (f := fun sent : Origin × Bytes => (sent.1, i, sent.2))
            ((hFirst i).subset hMem))))
    obtain ⟨out, message, hFinish, hAt, hTo, hData⟩ := hSourced.source _ hReply
    exact ⟨message.response, hData, reply_traced hBatches hPromised hReturned hFinish
      (List.mem_of_getElem? hAt) hTo⟩

/-! ## A message from Alice to Bob -/

/-- Everything queued is delivered. -/
def deliverSix : List ServerRuns.Action :=
  [.drain, .swap] ++ List.replicate 6 (.deliver { script := [.sent 1000 (by decide)] })

/-- Alice and Bob send what `enterBoth` and `aliceWrites` read, and Bob reads three packets. -/
def bobReads : List Action :=
  [registerLine "alice", loginLine "alice", dmToBob "one"].map
    (fun line => .client 1 (.sendPacket line 1000)) ++
  [registerLine "bob", loginLine "bob"].map (fun line => .client 2 (.sendPacket line 1000)) ++
  (enterBoth ++ aliceWrites ++ deliverSix).map .server ++
  [4, 39, 4, 53, 4, 41].map fun count => .client 2 (.recv count)

/-- What Bob has read is a copy of what Alice has sent, or an answer to a request of his. -/
theorem packets_traced_bobReads :
    ∃ w, run (World.step sampleCrypto {} ⟨2, 4⟩) (World.init 3 4) bobReads = some w ∧
      dmFromAlice "one" ∈ (w.peers 2).client.packets ∧
      ∃ (origin : Origin) (response : Response), response.data = dmFromAlice "one" ∧
        (IsOwn w 2 origin.frame response ∨
          IsCopy (Processing sampleCrypto {} ⟨2, 4⟩ (Server.init 3 4)
            (bobReads.flatMap Action.ofServer) origin.frame) w 2 origin.frame response) := by
  obtain ⟨w, hRun, hView⟩ := Option.map_eq_some_iff.mp
    (show (run (World.step sampleCrypto {} ⟨2, 4⟩) (World.init 3 4) bobReads).map
        (fun w => decide (dmFromAlice "one" ∈ (w.peers 2).client.packets)) = some true by
      decide +kernel)
  have hMem := of_decide_eq_true hView
  obtain ⟨-, replies, -, hEach⟩ := packets_traced sampleCrypto {} ⟨2, 4⟩ 3 4 bobReads w hRun
  obtain ⟨-, hPackets, -, hTraced⟩ := hEach 2
  rw [hPackets] at hMem
  obtain ⟨reply, hReply, hData⟩ := List.mem_map.mp hMem
  obtain ⟨response, hResponse, hFrom⟩ := hTraced reply hReply
  refine ⟨w, hRun, ?_, reply.1, response, hResponse.trans hData, hFrom⟩
  rw [hPackets]
  exact hMem

end CppChat.Ports.EndToEnd
