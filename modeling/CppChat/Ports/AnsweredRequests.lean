import CppChat.Ports.ConcludedRequests
import CppChat.Ports.EndToEnd
import CppChat.Ports.ServerProgress

/-!
# Every request is answered

A reply can get lost in three ways: it does not fit into the response queue, its send fails,
or the connection it was made for is gone.  In the first two cases the server closes the
connection.  So a client whose connection is still open when everything has come to rest has
missed nothing: for every payload it has sent it has read the replies, and among them exactly
one that concludes the request.

## Main results

* `step_owes`: while a connection is open, the replies to its requests are on their way, or
  it is going to be closed.
* `step_delivers`: a send that fails closes its connection.
* `Served.answered`: at rest, the replies to an open connection have been sent.
* `requests_concluded`: what a client has read that stays connected.
-/

namespace CppChat.Ports.ServerRuns

open CppChat.Verified
open CppChat.Verified.Transition
open CppChat.Ports.Protocol
open CppChat.Ports.Users
open CppChat.Ports.Chat
open CppChat.Ports.Network
open CppChat.Ports.ConnectionTeardown (PoolConfig)

variable {crypto : Crypto} {config : ServerConfig} {pool : PoolConfig} {s s' : Server}
  {t c g : Nat}

/-! ## Replies that are owed -/

/-- A close request stays until its connection is closed. -/
theorem step_asked {a : Action} (h : s.Asked c g) (hStep : Stepped crypto config pool s a s')
    (hOpen : OpenAt s'.net c g) : s'.Asked c g := by
  have hBefore : { connectionId := c, generation := g } ∈ s.net.closeQueue ++ s.phase.closes := h
  cases hStep with
  | @event action r hPhase hEvent hNet =>
      have hQueues := event_untouched (isEvent_ofEvent hEvent) hNet
      obtain ⟨hSame, -, hStays, -⟩ := submit_net (s.withNet crypto r.server)
        (batchOf (newEffects s.net r.server) action)
      unfold Server.Asked
      rw [hSame, hStays]
      show _ ∈ r.server.closeQueue ++ s.phase.closes
      rw [hQueues.closes]
      exact hBefore
  | drain hPhase =>
      rw [hPhase] at hBefore
      simpa [Server.Asked, Phase.closes] using hBefore
  | closeNext hPhase =>
      rw [hPhase] at hBefore
      exact mem_closes_of_openAt hOpen hBefore
  | closeNextAgain hPhase =>
      rw [hPhase] at hBefore
      exact mem_closes_of_openAt hOpen hBefore
  | swap hPhase =>
      rw [hPhase] at hBefore
      exact hBefore
  | @deliver item rest io hPhase =>
      rw [hPhase, ← (untouched_deliver config s.net item.1 io).closes] at hBefore
      exact hBefore
  | drainAgain hPhase =>
      rw [hPhase] at hBefore
      simpa [Server.Asked, Phase.closes] using hBefore
  | endDrain hPhase =>
      rw [hPhase] at hBefore
      exact hBefore
  | push hJob hCurrent => exact push_asked h _ _ _
  | _ => exact h

/-- While the connection is open, the replies to the packets of a batch that are for the
connection itself are on their way, or it is going to be closed. -/
def Server.Owes (s : Server) (t c g : Nat) : Prop :=
  OpenAt s.net c g → s.Asked c g ∨
    ∀ frame out queued p message, .finish frame out queued ∈ s.log → frame.task = t →
      out[p]? = some message → message.connectionId = c →
        queued = true ∧ (⟨frame, p⟩, c, message.data) ∈ s.replies

/-- The replies to a packet that were queued. -/
theorem mem_replies_push (hWired : Wired s) {worker : Nat} {job : Job}
    {out : List OutboundMessage} (hFits : fits config s out = true) {p : Nat}
    {message : OutboundMessage} (hAt : out[p]? = some message) :
    (⟨job.frame, p⟩, message.connectionId, message.data) ∈
      (s.push config worker job out).replies := by
  refine List.mem_append_right _ ?_
  rw [push_queuedItems_of_fits hWired hFits, List.map_append]
  refine List.mem_append_right _ ?_
  have hResponse : (responsesOf job out)[p]? = some
      { connectionId := message.connectionId
        generation := if message.connectionId = job.connectionId then job.generation else 0
        data := message.data
        closeAfterSend := message.closeAfterSend } := by
    rw [responsesOf, List.getElem?_map, hAt]
    rfl
  have hOrigin : (originsOf job.frame out)[p]? = some ⟨job.frame, p⟩ := by
    obtain ⟨hLt, -⟩ := List.getElem?_eq_some_iff.mp hAt
    simp [originsOf, List.getElem?_range hLt]
  have hZip : ((responsesOf job out).zip (originsOf job.frame out))[p]? =
      some (_, ⟨job.frame, p⟩) :=
    List.getElem?_zip_eq_some.mpr ⟨hResponse, hOrigin⟩
  exact List.mem_map.mpr ⟨_, List.mem_of_getElem? hZip, rfl⟩

/-- The end of a packet takes nothing back. -/
theorem replies_push_subset (hWired : Wired s) (worker : Nat) (job : Job)
    (out : List OutboundMessage) :
    s.replies ⊆ (s.push config worker job out).replies := by
  have hPassed : passedReplies (s.push config worker job out).log = passedReplies s.log := by
    show passedReplies (s.log ++ [_]) = _
    rw [passedReplies_append]
    exact List.append_nil _
  intro reply hMem
  cases hFits : fits config s out with
  | true =>
      rw [Server.replies, hPassed, push_queuedItems_of_fits hWired hFits, List.map_append,
        ← List.append_assoc]
      exact List.mem_append_left _ hMem
  | false =>
      rw [Server.replies, hPassed, push_queuedItems_of_full hFits]
      exact hMem

theorem step_owes (hWired : Wired s) (hSubmitted : Submitted s t c g) (h : s.Owes t c g)
    {a : Action} (hStep : Stepped crypto config pool s a s') : s'.Owes t c g := by
  intro hOpen'
  have hNet := (step_changes hWired.reactor.toInverse hStep).reopensNothing
  have hOpen : OpenAt s.net c g := hNet.2 c g hSubmitted.old hOpen'
  rcases h hOpen with hAsked | hAll
  · exact .inl (step_asked hAsked hStep hOpen')
  cases step_moved hStep with
  | kept hLog hMore hReplies =>
      refine .inr fun frame out queued p message hMem hTask hAt hTo => ?_
      rw [hReplies]
      rw [hLog] at hMem
      rcases List.mem_append.mp hMem with hOld | hNew
      · exact hAll frame out queued p message hOld hTask hAt hTo
      · exact absurd hNew (hMore frame out queued)
  | @dropped s' item rest hPhase hStale hLog before after hBefore hAfter =>
      refine .inr fun frame out queued p message hMem hTask hAt hTo => ?_
      rw [hLog] at hMem
      obtain ⟨hQueued, hOld⟩ := hAll frame out queued p message hMem hTask hAt hTo
      rw [hBefore] at hOld
      rw [hAfter]
      refine ⟨hQueued, ?_⟩
      rcases List.mem_append.mp hOld with hOld | hOld
      · exact List.mem_append_left _ hOld
      · rcases List.mem_cons.mp hOld with hItem | hOld
        · -- a reply to the connection itself is not stale while the connection is open
          obtain ⟨hOrigin, hRest⟩ := Prod.mk.inj hItem
          obtain ⟨hConnection, -⟩ := Prod.mk.inj hRest
          have hStamp : item.1.generation = g := by
            refine hSubmitted.stamped item ?_ (by rw [← hOrigin]; exact hTask) hConnection.symm
            rw [hPhase]
            exact List.mem_append_left _ List.mem_cons_self
          rw [← hConnection, hStamp, hOpen.isCurrentConnection] at hStale
          contradiction
        · exact List.mem_append_right _ hOld
  | @pushed worker job out hJob hCurrent =>
      by_cases hLost : job.task = t ∧ fits config s out = false
      · obtain ⟨hConnection, hGeneration⟩ := hSubmitted.job worker job hJob hLost.1
        refine .inl ?_
        unfold Server.Asked Server.push
        rw [pushResult_of_full hLost.2, hConnection, hGeneration]
        exact List.mem_append_left _ (List.mem_append_right _ (List.mem_singleton_self _))
      · refine .inr fun frame out' queued p message hMem hTask hAt hTo => ?_
        rcases List.mem_append.mp hMem with hOld | hNew
        · obtain ⟨hQueued, hOld⟩ := hAll frame out' queued p message hOld hTask hAt hTo
          exact ⟨hQueued, replies_push_subset hWired worker job out hOld⟩
        · injection List.mem_singleton.mp hNew with hFrame hOut hQueued
          rw [hOut] at hAt
          have hFits : fits config s out = true := by
            cases hFits : fits config s out with
            | true => rfl
            | false => exact absurd ⟨by rw [← hTask, hFrame]; rfl, hFits⟩ hLost
          rw [hQueued, hFrame, ← hTo]
          exact ⟨hFits, mem_replies_push hWired hFits hAt⟩

/-! ## Sends that fail -/

/-- The connection has been given out and is closed. -/
def Gone (srv : TcpServer) (c : Nat) : Prop :=
  c < srv.nextConnectionId ∧ ∀ g, ¬OpenAt srv c g

theorem Gone.mono {srv srv' : TcpServer} (h : Gone srv c) (hNet : ReopensNothing srv srv') :
    Gone srv' c :=
  ⟨Nat.lt_of_lt_of_le h.1 hNet.1, fun g hOpen => h.2 g (hNet.2 c g h.1 hOpen)⟩

/-- Who has missed a reply is gone. -/
def Server.Delivers (s : Server) : Prop :=
  ∀ origin c data, .pass origin c data false ∈ s.log → Gone s.net c

/-- A delivery that fails closes the connection. -/
theorem deliver_gone {srv : TcpServer} (hInv : ReactorInv srv) {response : QueuedResponse}
    {io : SendIo}
    (hCurrent : srv.isCurrentConnection response.connectionId response.generation = true)
    (hFails : (srv.findConnection response.connectionId).any (fun connection =>
      (srv.sendToClient config response.connectionId connection response.data io).1) = false) :
    Gone (srv.deliver config response io) response.connectionId := by
  have hNet := (changes_deliver config srv response io).reopensNothing
  obtain ⟨g, connection, hLookup, hGeneration⟩ := openAt_of_isCurrentConnection hCurrent
  have hFind : srv.findConnection response.connectionId = some connection := hLookup
  refine ⟨Nat.lt_of_lt_of_le (hInv.below _ _ hLookup).1 hNet.1, fun g' => ?_⟩
  rw [hFind, Option.any_some] at hFails
  rw [TcpServer.deliver, hFind]
  dsimp only
  rw [if_neg (by simp [hCurrent])]
  cases hSend : srv.sendToClient config response.connectionId connection response.data io with
  | mk done srv' =>
    rw [hSend] at hFails
    have hFails : done = false := hFails
    rw [hFails]
    exact not_openAt_closeConnection srv' response.connectionId g'

/-- A send that fails closes its connection. -/
theorem step_delivers (hWired : Wired s) (h : s.Delivers) {a : Action}
    (hStep : Stepped crypto config pool s a s') : s'.Delivers := by
  have hNet := (step_changes hWired.reactor.toInverse hStep).reopensNothing
  have hOld : ∀ {more : List Event}, s'.log = s.log ++ more →
      (∀ origin c data, .pass origin c data false ∉ more) → s'.Delivers := by
    intro more hLog hMore origin c data hMem
    rw [hLog] at hMem
    rcases List.mem_append.mp hMem with hMem | hMem
    · exact (h origin c data hMem).mono hNet
    · exact absurd hMem (hMore origin c data)
  cases hStep with
  | @event action r hPhase hEvent hEventNet =>
      cases hBatch : batchOf (newEffects s.net r.server) action with
      | none =>
          rw [hBatch] at hOld
          exact hOld (List.append_nil _).symm fun _ _ _ => List.not_mem_nil
      | some batch =>
          rw [hBatch] at hOld
          exact hOld rfl (by simp)
  | @deliver item rest io hPhase =>
      cases hCurrent : s.net.isCurrentConnection item.1.connectionId item.1.generation with
      | true =>
          have hLog : (s.deliver crypto config item rest io).log = _ := if_pos hCurrent
          intro origin c data hMem
          rw [hLog] at hMem
          rcases List.mem_append.mp hMem with hMem | hMem
          · exact (h origin c data hMem).mono hNet
          · injection List.mem_singleton.mp hMem with _ hConnection _ hSent
            rw [hConnection]
            exact deliver_gone hWired.reactor hCurrent hSent.symm
      | false =>
          have hLog : (s.deliver crypto config item rest io).log = s.log ++ [] := by
            simp [Server.deliver, hCurrent]
          exact hOld hLog fun _ _ _ => List.not_mem_nil
  | @call worker job op next hJob hCurrent =>
      refine hOld rfl fun origin c data hMem => ?_
      rcases @call_stored crypto job.frame op s.chat with ⟨hNone, -⟩ | ⟨hOne, -⟩
      · rw [hNone] at hMem
        exact absurd hMem List.not_mem_nil
      · rw [hOne] at hMem
        exact absurd (List.mem_singleton.mp hMem) (by simp)
  | push hJob hCurrent => exact hOld rfl (by simp)
  | start hJob hCurrent hRest => exact hOld rfl (by simp)
  | _ => exact hOld (List.append_nil _).symm fun _ _ _ => List.not_mem_nil

/-! ## Packets that were read -/

/-- The batches that were read: the task, the connection, and the payloads. -/
def readsOf (log : List Event) : List (Nat × Nat × List Bytes) :=
  log.filterMap fun event => match event with
    | .read task c _ payloads => some (task, c, payloads)
    | _ => none

/-- The packets of a batch. -/
def batchPackets (task : Nat) (payloads : List Bytes) : List (Frame × Bytes) :=
  payloads.zipIdx.map fun entry => (⟨task, entry.2⟩, entry.1)

/-- The packets of a connection, in the order in which they were read. -/
def packetsOf (log : List Event) (c : Nat) : List (Frame × Bytes) :=
  (readsOf log).flatMap fun batch =>
    if batch.2.1 = c then batchPackets batch.1 batch.2.2 else []

theorem readsOf_append (log more : List Event) :
    readsOf (log ++ more) = readsOf log ++ readsOf more :=
  List.filterMap_append

theorem mem_readsOf {log : List Event} {payloads : List Bytes} :
    (t, c, payloads) ∈ readsOf log ↔ ∃ g, .read t c g payloads ∈ log := by
  unfold readsOf
  rw [List.mem_filterMap]
  constructor
  · rintro ⟨event, hMem, hSome⟩
    cases event with
    | read task c' g payloads' =>
        injection hSome with hSome
        injection hSome with hTask hRest
        injection hRest with hConnection hPayloads
        subst hTask hConnection hPayloads
        exact ⟨g, hMem⟩
    | _ => contradiction
  · exact fun ⟨g, hMem⟩ => ⟨_, hMem, rfl⟩

theorem map_snd_batchPackets (task : Nat) (payloads : List Bytes) :
    (batchPackets task payloads).map Prod.snd = payloads := by
  rw [batchPackets, List.map_map]
  exact List.zipIdx_map_fst 0 payloads

/-- The payloads of the packets are those of the batches. -/
theorem map_snd_packetsOf (log : List Event) (c : Nat) :
    (packetsOf log c).map Prod.snd = batchesOf log c := by
  induction log with
  | nil => rfl
  | cons event rest ih =>
      cases event with
      | read task c' g payloads =>
          have hCons : packetsOf (.read task c' g payloads :: rest) c =
              (if c' = c then batchPackets task payloads else []) ++ packetsOf rest c := rfl
          have hCons' : batchesOf (.read task c' g payloads :: rest) c =
              (if c' = c then payloads else []) ++ batchesOf rest c := rfl
          rw [hCons, hCons', List.map_append, ih]
          split
          · rw [map_snd_batchPackets]
          · rfl
      | _ => exact ih

theorem mem_batchPackets {task : Nat} {payloads : List Bytes} {packet : Frame × Bytes} :
    packet ∈ batchPackets task payloads ↔
      packet.1.task = task ∧ payloads[packet.1.index]? = some packet.2 := by
  unfold batchPackets
  rw [List.mem_map]
  constructor
  · rintro ⟨⟨payload, index⟩, hMem, rfl⟩
    exact ⟨rfl, List.mem_zipIdx_iff_getElem?.mp hMem⟩
  · rintro ⟨rfl, hAt⟩
    exact ⟨(packet.2, packet.1.index), List.mem_zipIdx_iff_getElem?.mpr hAt, rfl⟩

/-- The packets are the payloads that were asked. -/
theorem mem_packetsOf {log : List Event} {packet : Frame × Bytes} :
    packet ∈ packetsOf log c ↔ Asked log packet.1 c packet.2 := by
  unfold packetsOf
  rw [List.mem_flatMap]
  constructor
  · rintro ⟨⟨task, c', payloads⟩, hRead, hMem⟩
    split at hMem
    · rename_i hConnection
      obtain ⟨rfl, hAt⟩ := mem_batchPackets.mp hMem
      obtain ⟨g, hRead⟩ := mem_readsOf.mp hRead
      have hConnection : c' = c := hConnection
      rw [hConnection] at hRead
      exact ⟨g, payloads, hRead, hAt⟩
    · contradiction
  · rintro ⟨g, payloads, hRead, hAt⟩
    refine ⟨(packet.1.task, c, payloads), mem_readsOf.mpr ⟨g, hRead⟩, ?_⟩
    rw [if_pos rfl]
    exact mem_batchPackets.mpr ⟨rfl, hAt⟩

/-- The tasks are numbered as their batches are read. -/
structure ReadOnce (s : Server) : Prop where
  once : ((readsOf s.log).map Prod.fst).Nodup
  below : ∀ batch ∈ readsOf s.log, batch.1 < s.nextTask

theorem ReadOnce.of_same (h : ReadOnce s) {more : List Event} (hLog : s'.log = s.log ++ more)
    (hMore : readsOf more = []) (hNext : s'.nextTask = s.nextTask) : ReadOnce s' := by
  have hReads : readsOf s'.log = readsOf s.log := by
    rw [hLog, readsOf_append, hMore, List.append_nil]
  constructor
  · rw [hReads]
    exact h.once
  · rw [hReads, hNext]
    exact h.below

theorem step_readOnce (h : ReadOnce s) {a : Action} (hStep : Stepped crypto config pool s a s') :
    ReadOnce s' := by
  have hSilent : ∀ {u : Server}, u.log = s.log → u.nextTask = s.nextTask → ReadOnce u :=
    fun {u} hLog => h.of_same (show u.log = s.log ++ [] by rw [hLog, List.append_nil]) rfl
  cases hStep with
  | @event action r hPhase hEvent hNet =>
      cases batchOf (newEffects s.net r.server) action with
      | none => exact hSilent rfl rfl
      | some batch =>
          obtain ⟨c, g, payloads⟩ := batch
          have hReads : readsOf (s.log ++ [.read s.nextTask c g payloads]) =
              readsOf s.log ++ [(s.nextTask, c, payloads)] := readsOf_append _ _
          constructor
          · show ((readsOf (s.log ++ [.read s.nextTask c g payloads])).map Prod.fst).Nodup
            rw [hReads, List.map_append, List.nodup_append]
            refine ⟨h.once, List.nodup_singleton _, ?_⟩
            rintro task hOld task' hNew rfl
            obtain ⟨batch, hMem, rfl⟩ := List.mem_map.mp hOld
            have hLt := h.below batch hMem
            rw [List.mem_singleton.mp hNew] at hLt
            exact Nat.lt_irrefl _ hLt
          · intro batch hMem
            have hMem : batch ∈ readsOf (s.log ++ [.read s.nextTask c g payloads]) := hMem
            rw [hReads] at hMem
            rcases List.mem_append.mp hMem with hMem | hMem
            · exact Nat.lt_succ_of_lt (h.below batch hMem)
            · rw [List.mem_singleton.mp hMem]
              exact Nat.lt_succ_self _
  | @deliver item rest io hPhase =>
      cases hCurrent : s.net.isCurrentConnection item.1.connectionId item.1.generation with
      | true => exact h.of_same (if_pos hCurrent) rfl rfl
      | false => exact hSilent (by simp [Server.deliver, hCurrent]) rfl
  | @call worker job op next hJob hCurrent =>
      rcases @call_stored crypto job.frame op s.chat with ⟨hNone, -⟩ | ⟨hOne, -⟩
      · refine hSilent ?_ rfl
        show s.log ++ storedBy job.frame op (op.exec crypto s.chat).1 = s.log
        rw [hNone, List.append_nil]
      · exact h.of_same (congrArg (s.log ++ ·) hOne) rfl rfl
  | push hJob hCurrent => exact h.of_same rfl rfl rfl
  | start hJob hCurrent hRest => exact h.of_same rfl rfl rfl
  | _ => exact hSilent rfl rfl

/-- Two batches of one task are the same. -/
theorem ReadOnce.connection_eq (h : ReadOnce s) {c' g' : Nat} {payloads payloads' : List Bytes}
    (hRead : .read t c g payloads ∈ s.log) (hRead' : .read t c' g' payloads' ∈ s.log) :
    c' = c := by
  have hSame := List.inj_on_of_nodup_map h.once (mem_readsOf.mpr ⟨g, hRead⟩)
    (mem_readsOf.mpr ⟨g', hRead'⟩) rfl
  exact (congrArg (fun batch => batch.2.1) hSame).symm

/-- No packet comes twice. -/
theorem ReadOnce.packets_nodup (h : ReadOnce s) (c : Nat) :
    ((packetsOf s.log c).map Prod.fst).Nodup := by
  have hPairs := List.pairwise_map.mp h.once
  rw [packetsOf, List.map_flatMap, List.nodup_flatMap]
  constructor
  · rintro ⟨task, c', payloads⟩ -
    dsimp only
    split
    · rw [batchPackets, List.map_map]
      refine List.Nodup.of_map Frame.index ?_
      rw [List.map_map]
      show (payloads.zipIdx.map Prod.snd).Nodup
      rw [List.zipIdx_map_snd]
      exact List.nodup_range'
    · exact List.nodup_nil
  · refine hPairs.imp fun {batch batch'} hNe frame hMem hMem' => ?_
    have hTask : ∀ {batch : Nat × Nat × List Bytes}, frame ∈ (if batch.2.1 = c then
        batchPackets batch.1 batch.2.2 else []).map Prod.fst → frame.task = batch.1 := by
      intro batch hMem
      obtain ⟨packet, hPacket, rfl⟩ := List.mem_map.mp hMem
      split at hPacket
      · exact (mem_batchPackets.mp hPacket).1
      · contradiction
    exact hNe ((hTask hMem).symm.trans (hTask hMem'))

/-! ## Every run -/

/-- What is known of the batches in every run. -/
structure Served (s : Server) : Prop where
  inOrder : InOrder s
  readOnce : ReadOnce s
  delivers : s.Delivers
  owes : ∀ t c g payloads, .read t c g payloads ∈ s.log → Submitted s t c g ∧ s.Owes t c g

theorem step_served (s : Server) (a : Action) (s' : Server) (h : Served s)
    (hStep : step crypto config pool s a = some s') : Served s' := by
  have hWired := h.inOrder.wired
  have hInOrder := step_inOrder s a s' h.inOrder hStep
  refine ⟨hInOrder, step_readOnce h.readOnce (stepped hStep),
    step_delivers hWired h.delivers (stepped hStep), fun t c g payloads hMem => ?_⟩
  rcases read_mem_cases hWired (stepped hStep) hMem with hOld | ⟨net, rfl, rfl, hOpen⟩
  · obtain ⟨hSubmitted, hOwes⟩ := h.owes t c g payloads hOld
    exact ⟨step_submitted hWired hSubmitted (stepped hStep),
      step_owes hWired hSubmitted hOwes (stepped hStep)⟩
  · refine ⟨(submitted_new h.inOrder.booked hOpen hInOrder).1, fun _ => .inr ?_⟩
    -- no packet of a new batch is finished
    intro frame out queued p message hFinish hTask
    have hMem : frame.index ∈ finishedOf s.log frame.task := by
      refine mem_finishedOf.mpr ⟨out, queued, ?_⟩
      exact (List.mem_append.mp hFinish).resolve_right fun hNew => by
        cases List.mem_singleton.mp hNew
    rw [hTask, (h.inOrder.booked.fresh _ (Nat.le_refl _)).2] at hMem
    contradiction

theorem run_served {listenFd wakeFd : Nat} {acts : List Action}
    (hRun : run (step crypto config pool) (Server.init listenFd wakeFd) acts = some s) :
    Served s := by
  refine run_invariant step_served ⟨inOrder_init listenFd wakeFd, ⟨List.nodup_nil, ?_⟩, ?_, ?_⟩
    hRun
  · exact fun _ hMem => absurd hMem List.not_mem_nil
  · exact fun _ _ _ hMem => absurd hMem List.not_mem_nil
  · exact fun _ _ _ _ hMem => absurd hMem List.not_mem_nil

/-! ## When everything has come to rest -/

/-- Nothing is left to do: no task, no worker at work, nothing queued. -/
def Server.AtRest (s : Server) : Prop :=
  s.tasks = [] ∧ (∀ worker, s.running.lookup worker = none) ∧ s.phase = .events ∧
    s.net.responseQueue = [] ∧ s.net.closeQueue = []

/-- A packet is finished once. -/
theorem finish_unique (h : Booked s) {frame : Frame} {out out' : List OutboundMessage}
    {queued queued' : Bool} (hMem : .finish frame out queued ∈ s.log)
    (hMem' : .finish frame out' queued' ∈ s.log) : out = out' := by
  obtain ⟨n, hOrder⟩ := h.inOrder frame.task
  have hNodup : (finishedOf s.log frame.task).Nodup := by
    rw [hOrder]
    exact List.nodup_range
  obtain ⟨i, hi⟩ := List.mem_iff_getElem?.mp hMem
  obtain ⟨j, hj⟩ := List.mem_iff_getElem?.mp hMem'
  have hSame : i = j := EventLog.index_unique hNodup hi hj (if_pos rfl) (if_pos rfl)
  rw [hSame, hj] at hi
  injection Option.some.inj hi with _ hOut
  exact hOut.symm

/-- The replies to a packet are concluded, and all that are for its connection have been
sent. -/
def Answered (s : Server) (c : Nat) (frame : Frame) : Prop :=
  ∃ out, .finish frame out true ∈ s.log ∧ Concluded c out ∧
    ∀ p message, out[p]? = some message → message.connectionId = c →
      (⟨frame, p⟩, message.data) ∈ sentTo s.log c

/-- The replies to a finished packet are those to this connection's request. -/
theorem Served.concluded (h : Served s)
    (hReturned : Returned (fun c _ out => Concluded c out) s) {frame : Frame} {line : Bytes}
    {out : List OutboundMessage} {queued : Bool} (hAsked : Asked s.log frame c line)
    (hFinish : .finish frame out queued ∈ s.log) : Concluded c out := by
  obtain ⟨_, _, hRead, -⟩ := hAsked
  obtain ⟨c', _, ⟨_, _, hRead', -⟩, hConcluded⟩ := hReturned.finished frame out queued hFinish
  rwa [h.readOnce.connection_eq hRead hRead'] at hConcluded

/-- A reply that has gone nowhere else was passed on. -/
theorem Server.AtRest.passed (h : s.AtRest) {reply : Reply} (hMem : reply ∈ s.replies) :
    ∃ sent, .pass reply.1 reply.2.1 reply.2.2 sent ∈ s.log := by
  obtain ⟨-, -, hPhase, hResponses, -⟩ := h
  rw [Server.replies, Server.queuedItems, hPhase, hResponses] at hMem
  simp only [Phase.items, List.map_nil, List.zip_nil_left, List.append_nil] at hMem
  obtain ⟨event, hEvent, hSome⟩ := List.mem_filterMap.mp hMem
  cases event with
  | pass origin c data sent =>
      rw [← Option.some.inj hSome]
      exact ⟨sent, hEvent⟩
  | _ => contradiction

/-- Everything that a connection has asked is answered. -/
theorem Served.answered (h : Served s) (hAccounted : Accounted s)
    (hReturned : Returned (fun c _ out => Concluded c out) s) (hRest : s.AtRest)
    (hOpen : OpenAt s.net c g) {packet : Frame × Bytes} (hMem : packet ∈ packetsOf s.log c) :
    Answered s c packet.1 := by
  obtain ⟨g', payloads, hRead, hAt⟩ := mem_packetsOf.mp hMem
  obtain ⟨hSubmitted, hOwes⟩ := h.owes _ _ _ _ hRead
  have hFinished : Finished s.log packet.1 := by
    rcases hAccounted.accounted _ _ _ _ hRead with hWaiting | ⟨w, hOwned⟩ | ⟨-, hDone⟩
    · rw [hRest.1] at hWaiting
      exact absurd hWaiting List.not_mem_nil
    · rw [Server.owned, hRest.2.1 w] at hOwned
      contradiction
    · obtain ⟨hLt, -⟩ := List.getElem?_eq_some_iff.mp hAt
      have hIn : packet.1.index ∈ finishedOf s.log packet.1.task := by
        rw [hDone]
        exact List.mem_range.mpr hLt
      exact mem_finishedOf.mp hIn
  obtain ⟨out, queued, hFinish⟩ := hFinished
  have hConcluded := h.concluded hReturned (mem_packetsOf.mp hMem) hFinish
  rw [← hSubmitted.generation g hOpen] at hOwes
  -- nobody is going to close the connection, so all replies are on their way
  have hAll := (hOwes hOpen).resolve_left fun hAskedClose => by
    obtain ⟨-, -, hPhase, -, hCloses⟩ := hRest
    rw [Server.Asked, hPhase, hCloses] at hAskedClose
    contradiction
  obtain ⟨last, hLast, hTo, -⟩ := hConcluded.exists_mem
  obtain ⟨q, hq⟩ := List.mem_iff_getElem?.mp hLast
  have hQueued := (hAll _ out queued q last hFinish rfl hq hTo).1
  rw [hQueued] at hFinish
  refine ⟨out, hFinish, hConcluded, fun p message hMessage hTo => ?_⟩
  obtain ⟨-, hReply⟩ := hAll _ out true p message hFinish rfl hMessage hTo
  obtain ⟨sent, hPass⟩ := hRest.passed hReply
  cases sent with
  | false => exact absurd hOpen ((h.delivers _ _ _ hPass).2 g)
  | true => exact List.mem_filterMap.mpr ⟨_, hPass, if_pos ⟨rfl, rfl⟩⟩

end CppChat.Ports.ServerRuns

namespace CppChat.Ports.EndToEnd

open CppChat.Verified
open CppChat.Verified.Transition
open CppChat.Ports.Protocol
open CppChat.Ports.Users
open CppChat.Ports.Chat
open CppChat.Ports.PacketCodec
open CppChat.Ports.Network hiding Action
open CppChat.Ports.ServerRuns hiding Action step
open CppChat.Ports.ConnectionTeardown (PoolConfig)

/-! ## What a client has read -/

/-- The client has been able to send everything, in payloads of a length the codec allows;
the server has read it, and the client has taken everything it was sent. -/
structure World.Quiet (w : World) (i : Nat) : Prop where
  sent : (w.peers i).client.failure ≠ some .send
  valid : ∀ payload ∈ (w.peers i).client.sent,
    1 ≤ payload.length ∧ payload.length ≤ kMaxPacketPayloadSize
  read : (w.peers i).upstream = []
  taken : (w.peers i).taken = (sentBytes w.server.net.log i).length

/-- The packets whose replies among these are concluded. -/
def concludedFrames (replies : List (Origin × Response)) : List Frame :=
  (replies.filter fun reply => concludes reply.2).map fun reply => reply.1.frame

variable {s : Server} {i : Nat}

/-- At its place among the replies to a finished packet stands this response, for the
connection. -/
def IsResponse (log : List Event) (i : Nat) (reply : Origin × Response) : Prop :=
  ∃ out message, .finish reply.1.frame out true ∈ log ∧ out[reply.1.position]? = some message ∧
    message.connectionId = i ∧ message.response = reply.2

/-- What was sent to a connection are texts of responses. -/
theorem exists_responses (h : Sourced s) (i : Nat) :
    ∃ replies : List (Origin × Response),
      replies.map (fun reply => (reply.1, reply.2.data)) = sentTo s.log i ∧
        ∀ reply ∈ replies, IsResponse s.log i reply := by
  have hEach : ∀ sent ∈ sentTo s.log i, ∃ response : Response, response.data = sent.2 ∧
      IsResponse s.log i (sent.1, response) := by
    intro sent hMem
    have hReply : (sent.1, i, sent.2) ∈ s.replies :=
      List.mem_append_left _ (List.mem_append_left _ ((sentTo_sublist s.log i).subset
        (List.mem_map_of_mem (f := fun sent : Origin × Bytes => (sent.1, i, sent.2)) hMem)))
    obtain ⟨out, message, hFinish, hAt, hTo, hData⟩ := h.source _ hReply
    exact ⟨message.response, hData, out, message, hFinish, hAt, hTo, rfl⟩
  have : Nonempty Response := ⟨.ok []⟩
  choose! response hData hResponse using hEach
  refine ⟨(sentTo s.log i).map fun sent => (sent.1, response sent), ?_, ?_⟩
  · rw [List.map_map]
    refine (List.map_congr_left fun sent hMem => ?_).trans (List.map_id _)
    exact Prod.ext rfl (hData sent hMem)
  · intro reply hMem
    obtain ⟨sent, hSent, rfl⟩ := List.mem_map.mp hMem
    exact hResponse sent hSent

variable {replies : List (Origin × Response)} {frame : Frame} {out : List OutboundMessage}
  {queued : Bool} {p : Nat} {message : OutboundMessage}

/-- A reply that was sent is among them with its own response. -/
theorem mem_of_sent (hBooked : Booked s)
    (hTexts : replies.map (fun reply => (reply.1, reply.2.data)) = sentTo s.log i)
    (hResponses : ∀ reply ∈ replies, IsResponse s.log i reply)
    (hFinish : .finish frame out queued ∈ s.log) (hAt : out[p]? = some message)
    (hSent : (⟨frame, p⟩, message.data) ∈ sentTo s.log i) :
    (⟨frame, p⟩, message.response) ∈ replies := by
  rw [← hTexts] at hSent
  obtain ⟨⟨origin, response⟩, hMem, hEq⟩ := List.mem_map.mp hSent
  obtain ⟨rfl, -⟩ := Prod.mk.inj hEq
  obtain ⟨out', message', hFinish', hAt', -, rfl⟩ := hResponses _ hMem
  rw [finish_unique hBooked hFinish' hFinish] at hAt'
  rw [← Option.some.inj (hAt'.symm.trans hAt)]
  exact hMem

/-- No packet is concluded twice. -/
theorem concludedFrames_nodup (hBooked : Booked s)
    (hReturned : Returned (fun c _ out => Concluded c out) s)
    (hNodup : (replies.map Prod.fst).Nodup)
    (hResponses : ∀ reply ∈ replies, IsResponse s.log i reply) :
    (concludedFrames replies).Nodup := by
  have hFiltered : ((replies.filter fun reply => concludes reply.2).map Prod.fst).Nodup :=
    (List.filter_sublist.map Prod.fst).nodup hNodup
  refine List.Nodup.map_on ?_ (List.Nodup.of_map _ hFiltered)
  rintro ⟨⟨frame, p⟩, response⟩ hMem ⟨⟨frame', p'⟩, response'⟩ hMem' rfl
  obtain ⟨hMem, hLast⟩ := List.mem_filter.mp hMem
  obtain ⟨hMem', hLast'⟩ := List.mem_filter.mp hMem'
  obtain ⟨out, message, hFinish, hAt, -, rfl⟩ := hResponses _ hMem
  obtain ⟨out', message', hFinish', hAt', -, rfl⟩ := hResponses _ hMem'
  obtain rfl := finish_unique hBooked hFinish' hFinish
  obtain ⟨_, _, -, hConcluded⟩ := hReturned.finished _ _ _ hFinish
  -- both are the last reply to the packet
  have hPosition : p = p' :=
    Nat.succ.inj ((hConcluded.position hAt hLast).trans (hConcluded.position hAt' hLast').symm)
  exact List.inj_on_of_nodup_map hNodup hMem hMem' (by rw [hPosition])

/-- The packets that are concluded for a connection are its own. -/
theorem asked_of_concluded (hReturned : Returned (fun c _ out => Concluded c out) s)
    (hResponses : ∀ reply ∈ replies, IsResponse s.log i reply)
    (hMem : frame ∈ concludedFrames replies) : ∃ line, Asked s.log frame i line := by
  obtain ⟨reply, hReply, rfl⟩ := List.mem_map.mp hMem
  obtain ⟨hReply, hLast⟩ := List.mem_filter.mp hReply
  obtain ⟨out, message, hFinish, hAt, hTo, hResponse⟩ := hResponses reply hReply
  obtain ⟨c, line, hAsked, hConcluded⟩ := hReturned.finished _ _ _ hFinish
  have hEnds : concludes message.response = true := by
    rw [hResponse]
    exact hLast
  have hOwn := hConcluded.connectionId_eq (List.mem_of_getElem? hAt) hEnds
  rw [← hOwn, hTo] at hAsked
  exact ⟨line, hAsked⟩

/--
**Nothing is missing.**  When everything has come to rest, a client that is still connected
has missed no reply, whatever happened on the way, to it and to the others:

* the payloads it has sent are the packets of its connection;
* what it has read are the replies that stand at their origins, and no two of these are the
  same;
* the replies that conclude a request are those to its own requests, one for each;
* every reply to one of its requests that is for its connection is among them.
-/
theorem requests_concluded (crypto : Crypto) (config : ServerConfig) (pool : PoolConfig)
    (listenFd wakeFd : Nat) (acts : List Action) (w : World)
    (hRun : run (World.step crypto config pool) (World.init listenFd wakeFd) acts = some w)
    (i : Nat) (connection : ConnectionState)
    (hOpen : w.server.net.connections.lookup i = some connection)
    (hFlushed : connection.writeBuffer = []) (hRest : w.server.AtRest) (hQuiet : w.Quiet i) :
    (packetsOf w.server.log i).map Prod.snd = (w.peers i).client.sent ∧
    ∃ replies : List (Origin × Response),
      (w.peers i).client.packets = replies.map (fun reply => reply.2.data) ∧
      (replies.map Prod.fst).Nodup ∧
      (∀ reply ∈ replies, IsResponse w.server.log i reply) ∧
      (concludedFrames replies).Perm ((packetsOf w.server.log i).map Prod.fst) ∧
      ∀ packet ∈ packetsOf w.server.log i, ∃ out, .finish packet.1 out true ∈ w.server.log ∧
        Concluded i out ∧ ∀ p message, out[p]? = some message → message.connectionId = i →
          (⟨packet.1, p⟩, message.response) ∈ replies := by
  have hServer := World.server_run hRun
  obtain ⟨hLinked, -, -⟩ := run_connected hRun
  obtain ⟨hSourced, hMirrored⟩ := run_origins hServer
  have hServed := run_served hServer
  have hBooked := hServed.inOrder.booked
  have hReturned : Returned (fun c _ out => Concluded c out) w.server :=
    run_returned handleClientLine_concludes hServer
  -- what has arrived at both ends
  have hSent : (packetsOf w.server.log i).map Prod.snd = (w.peers i).client.sent := by
    obtain ⟨_, _, _, hUploaded⟩ := (hLinked i).uploaded
    rw [map_snd_packetsOf, ← hMirrored.submitted i]
    exact hUploaded.submitted_eq hOpen hQuiet.read hQuiet.sent
      fun payload hMem => (validLength_iff _).mpr (hQuiet.valid payload hMem)
  have hPackets : (w.peers i).client.packets = (sentTo w.server.log i).map Prod.snd := by
    rw [← hMirrored.reported i]
    exact (hLinked i).heard.packets_eq ((hLinked i).written.written i connection hOpen) hFlushed
      hQuiet.taken
  obtain ⟨replies, hTexts, hResponses⟩ := exists_responses hSourced i
  have hOrigins : (replies.map Prod.fst).Nodup := by
    have hSentOnce := sentTo_nodup hSourced i
    rw [← hTexts, List.map_map] at hSentOnce
    exact hSentOnce
  have hAll : ∀ packet ∈ packetsOf w.server.log i, ∃ out,
      .finish packet.1 out true ∈ w.server.log ∧ Concluded i out ∧ ∀ p message,
        out[p]? = some message → message.connectionId = i →
          (⟨packet.1, p⟩, message.response) ∈ replies := by
    intro packet hMem
    obtain ⟨out, hFinish, hConcluded, hOut⟩ := hServed.answered (run_accounted hServer) hReturned
      hRest ⟨connection, hOpen, rfl⟩ hMem
    exact ⟨out, hFinish, hConcluded, fun p message hAt hTo =>
      mem_of_sent hBooked hTexts hResponses hFinish hAt (hOut p message hAt hTo)⟩
  refine ⟨hSent, replies, ?_, hOrigins, hResponses, ?_, hAll⟩
  · rw [hPackets, ← hTexts, List.map_map]
    rfl
  · refine (List.perm_ext_iff_of_nodup
      (concludedFrames_nodup hBooked hReturned hOrigins hResponses)
      (hServed.readOnce.packets_nodup i)).mpr fun frame => ⟨fun hMem => ?_, fun hMem => ?_⟩
    · obtain ⟨line, hAsked⟩ := asked_of_concluded hReturned hResponses hMem
      exact List.mem_map.mpr ⟨(frame, line), mem_packetsOf.mpr hAsked, rfl⟩
    · obtain ⟨packet, hPacket, rfl⟩ := List.mem_map.mp hMem
      obtain ⟨out, -, hConcluded, hOut⟩ := hAll packet hPacket
      obtain ⟨last, hLast, hTo, hEnds⟩ := hConcluded.exists_mem
      obtain ⟨p, hp⟩ := List.mem_iff_getElem?.mp hLast
      exact List.mem_map.mpr ⟨_, List.mem_filter.mpr ⟨hOut p last hp hTo, hEnds⟩, rfl⟩

/-! ## Bob has everything -/

/-- After `bobReads` the worker leaves its task and the drain ends. -/
def bobIsDone : List Action :=
  bobReads ++ [.server (.work 0), .server .drainAgain, .server .endDrain]

/-- The server is at rest, and Bob has taken what was sent to him and sent two requests. -/
def bobHasAll (w : World) : Bool :=
  decide ((w.server.tasks.isEmpty = true ∧ w.server.running.keys = [] ∧
      w.server.drainSize = 0 ∧ w.server.net.responseQueue = [] ∧
      w.server.net.closeQueue = []) ∧
    (w.peers 2).client.failure = none ∧ (w.peers 2).upstream = [] ∧
    (w.peers 2).taken = (sentBytes w.server.net.log 2).length ∧
    (w.peers 2).client.packets.length = 3 ∧
    (w.peers 2).client.sent = [registerLine "bob", loginLine "bob"] ∧
    (w.server.net.findConnection 2).map (·.writeBuffer) = some [])

/-- Two requests, and two of the three packets that were read conclude them. -/
theorem requests_concluded_bobIsDone :
    ∃ w, run (World.step sampleCrypto {} ⟨2, 4⟩) (World.init 3 4) bobIsDone = some w ∧
      (packetsOf w.server.log 2).map Prod.snd = [registerLine "bob", loginLine "bob"] ∧
      (w.peers 2).client.packets.length = 3 ∧
      ∃ replies : List (Origin × Response),
        (w.peers 2).client.packets = replies.map (fun reply => reply.2.data) ∧
        (concludedFrames replies).Perm ((packetsOf w.server.log 2).map Prod.fst) := by
  obtain ⟨w, hRun, hView⟩ := Option.map_eq_some_iff.mp
    (show (run (World.step sampleCrypto {} ⟨2, 4⟩) (World.init 3 4) bobIsDone).map bobHasAll =
        some true by
      decide +kernel)
  obtain ⟨⟨hTasks, hRunning, hDrain, hQueues⟩, hFailure, hRead, hTaken, hLength, hSent, hOpen⟩ :=
    of_decide_eq_true hView
  obtain ⟨connection, hLookup, hFlushed⟩ := Option.map_eq_some_iff.mp hOpen
  have hRest : w.server.AtRest := by
    refine ⟨List.isEmpty_iff.mp hTasks, fun worker => ?_, ?_, hQueues⟩
    · refine AList.lookup_eq_none.mpr fun hMem => ?_
      rw [AList.mem_keys, hRunning] at hMem
      exact List.not_mem_nil hMem
    · unfold Server.drainSize at hDrain
      split at hDrain
      · assumption
      all_goals omega
  have hQuiet : w.Quiet 2 := by
    refine ⟨?_, ?_, hRead, hTaken⟩
    · rw [hFailure]
      exact fun h => by cases h
    · rw [hSent]
      decide
  obtain ⟨hAsked, replies, hPackets, -, -, hPerm, -⟩ := requests_concluded sampleCrypto {} ⟨2, 4⟩ 3 4
    bobIsDone w hRun 2 connection hLookup hFlushed hRest hQuiet
  exact ⟨w, hRun, hAsked.trans hSent, hLength, replies, hPackets, hPerm⟩

end CppChat.Ports.EndToEnd
