import CppChat.Ports.ConcurrentDelivery
import CppChat.Ports.LinkRuns
import CppChat.Ports.ReplyGaps

/-!
# Where replies come from and where payloads go

The log of the reactor speaks of sockets, batches and messages that were sent; the log of
the server speaks of packets and of replies.  Here the one is read in terms of the other:
what the reactor reports as sent are the replies that were passed to it, and what it hands
to the thread pool are the payloads of the batches.  And every reply, wherever it is on its
way, is the answer to one packet at one place, and no two replies are the same answer.

## Main results

* `step_moved`: what a step does to the replies.
* `step_sourced`: every reply has an origin of its own.
* `deliver_reports`: what a delivery reports as sent.
* `step_mirrored`: the two logs agree.
* `step_returned`: what every request returns is true of the replies to every packet.
* `run_origins`, `run_returned`: the same in every run.
-/

namespace CppChat.Ports.ServerRuns

open CppChat.Verified
open CppChat.Verified.Transition
open CppChat.Ports.PacketCodec
open CppChat.Ports.Protocol
open CppChat.Ports.Users
open CppChat.Ports.Chat
open CppChat.Ports.Network
open CppChat.Ports.ConnectionTeardown (PoolConfig)

/-! ## Replies on their way -/

/-- The origin of a reply, the connection it is for, and its data. -/
abbrev Reply := Origin × Nat × Bytes

/-- A queued response with its origin, as a reply. -/
def replyOf (item : Item) : Reply := (item.2, item.1.connectionId, item.1.data)

/-- The replies that were passed to `send_to_client`. -/
def passedReplies (log : List Event) : List Reply :=
  log.filterMap fun event => match event with
    | .pass origin c data _ => some (origin, c, data)
    | _ => none

/-- All replies: passed on, swapped out, queued. -/
def Server.replies (s : Server) : List Reply :=
  passedReplies s.log ++ s.phase.items.map replyOf ++ s.queuedItems.map replyOf

/-- At its place among the replies to a finished packet stands this reply. -/
def IsAnswer (log : List Event) (reply : Reply) : Prop :=
  ∃ out message, .finish reply.1.frame out true ∈ log ∧
    out[reply.1.position]? = some message ∧ message.connectionId = reply.2.1 ∧
    message.data = reply.2.2

/-- Every reply has an origin of its own. -/
structure Sourced (s : Server) : Prop where
  once : (s.replies.map Prod.fst).Nodup
  source : ∀ reply ∈ s.replies, IsAnswer s.log reply

variable {crypto : Crypto} {config : ServerConfig} {pool : PoolConfig} {s s' : Server}

theorem IsAnswer.append {log : List Event} {reply : Reply} (h : IsAnswer log reply)
    (more : List Event) : IsAnswer (log ++ more) reply := by
  obtain ⟨out, message, hMem, hRest⟩ := h
  exact ⟨out, message, List.mem_append_left _ hMem, hRest⟩

theorem passedReplies_append (log more : List Event) :
    passedReplies (log ++ more) = passedReplies log ++ passedReplies more :=
  List.filterMap_append

/-- What moves no reply. -/
theorem replies_of_same {more : List Event} (hLog : s'.log = s.log ++ more)
    (hMore : passedReplies more = []) (hPhase : s'.phase.items = s.phase.items)
    (hQueued : s'.queuedItems = s.queuedItems) : s'.replies = s.replies := by
  rw [Server.replies, hLog, passedReplies_append, hMore, List.append_nil, hPhase, hQueued]
  rfl

/-- Replies that are lost leave the others their origins. -/
theorem Sourced.of_sublist (h : Sourced s) {more : List Event} (hLog : s'.log = s.log ++ more)
    (hReplies : s'.replies.Sublist s.replies) : Sourced s' where
  once := (hReplies.map Prod.fst).nodup h.once
  source := by
    intro reply hMem
    rw [hLog]
    exact (h.source reply (hReplies.subset hMem)).append more

/-- The queue entries of the replies to a packet have its places as origins. -/
theorem origins_of_push (job : Job) (out : List OutboundMessage) :
    (((responsesOf job out).zip (originsOf job.frame out)).map replyOf).map Prod.fst =
      originsOf job.frame out := by
  rw [List.map_map]
  show ((responsesOf job out).zip (originsOf job.frame out)).map Prod.snd = _
  exact List.map_snd_zip (by simp [responsesOf, originsOf])

theorem nodup_originsOf (frame : Frame) (out : List OutboundMessage) :
    (originsOf frame out).Nodup := by
  refine List.Nodup.map ?_ List.nodup_range
  intro p p' hEq
  injection hEq

theorem isAnswer_of_push {log : List Event} {job : Job} {out : List OutboundMessage}
    {reply : Reply} (hFinish : .finish job.frame out true ∈ log)
    (hMem : reply ∈ ((responsesOf job out).zip (originsOf job.frame out)).map replyOf) :
    IsAnswer log reply := by
  obtain ⟨⟨response, origin⟩, hZip, rfl⟩ := List.mem_map.mp hMem
  obtain ⟨p, hp⟩ := List.mem_iff_getElem?.mp hZip
  obtain ⟨hResponse, hOrigin⟩ := List.getElem?_zip_eq_some.mp hp
  rw [responsesOf, List.getElem?_map, Option.map_eq_some_iff] at hResponse
  rw [originsOf, List.getElem?_map, Option.map_eq_some_iff] at hOrigin
  obtain ⟨message, hMessage, rfl⟩ := hResponse
  obtain ⟨q, hq, rfl⟩ := hOrigin
  obtain ⟨hLt, rfl⟩ := List.getElem?_eq_some_iff.mp hq
  rw [List.getElem_range]
  exact ⟨out, message, hFinish, hMessage, rfl, rfl⟩

/-- Nothing is on its way yet of a packet a worker is at. -/
theorem Sourced.push (h : Sourced s) (hBooked : Booked s) (hWired : Wired s) {worker : Nat}
    {job : Job} {out : List OutboundMessage} (hJob : s.running.lookup worker = some job) :
    Sourced (s.push config worker job out) := by
  cases hFits : fits config s out with
  | false =>
      have hLog : (s.push config worker job out).log =
          s.log ++ [.finish job.frame out false] := by simp [Server.push, hFits]
      have hSame := replies_of_same hLog rfl rfl (push_queuedItems_of_full hFits worker)
      exact h.of_sublist hLog (hSame ▸ List.Sublist.refl _)
  | true =>
      have hLog : (s.push config worker job out).log =
          s.log ++ [.finish job.frame out true] := by simp [Server.push, hFits]
      have hReplies : (s.push config worker job out).replies = s.replies ++
          ((responsesOf job out).zip (originsOf job.frame out)).map replyOf := by
        rw [Server.replies, hLog, passedReplies_append,
          push_queuedItems_of_fits hWired hFits worker, List.map_append]
        simp [Server.replies, passedReplies, Server.push]
      constructor
      · rw [hReplies, List.map_append, origins_of_push, List.nodup_append]
        refine ⟨h.once, nodup_originsOf _ _, ?_⟩
        rintro origin hOld origin' hNew rfl
        obtain ⟨reply, hMem, rfl⟩ := List.mem_map.mp hOld
        obtain ⟨out', message, hFinish, -⟩ := h.source reply hMem
        rw [frame_of_mem_originsOf hNew] at hFinish
        exact absurd ((hBooked.finished_iff hJob job.index).mp ⟨out', true, hFinish⟩)
          (Nat.lt_irrefl _)
      · rw [hReplies, hLog]
        intro reply hMem
        rcases List.mem_append.mp hMem with hMem | hMem
        · exact (h.source reply hMem).append _
        · exact isAnswer_of_push (List.mem_append_right _ List.mem_cons_self) hMem

/-- Each step keeps every reply, or drops the next one of a drain, or is the end of a
packet. -/
inductive Moved (config : ServerConfig) (s : Server) : Server → Prop
  | kept {s' : Server} {more : List Event} (hLog : s'.log = s.log ++ more)
      (hMore : ∀ frame out queued, .finish frame out queued ∉ more)
      (hReplies : s'.replies = s.replies) : Moved config s s'
  | dropped {s' : Server} {item : Item} {rest : List Item}
      (hPhase : s.phase = .delivering (item :: rest))
      (hStale : s.net.isCurrentConnection item.1.connectionId item.1.generation = false)
      (hLog : s'.log = s.log) {before after : List Reply}
      (hBefore : s.replies = before ++ replyOf item :: after)
      (hAfter : s'.replies = before ++ after) : Moved config s s'
  | pushed {worker : Nat} {job : Job} {out : List OutboundMessage}
      (hJob : s.running.lookup worker = some job) (hCurrent : job.current = some (.done out)) :
      Moved config s (s.push config worker job out)

theorem moved_deliver {item : Item} {rest : List Item} (io : SendIo)
    (hPhase : s.phase = .delivering (item :: rest)) :
    Moved config s (s.deliver crypto config item rest io) := by
  have hQueues := untouched_deliver config s.net item.1 io
  have hQueued : (s.deliver crypto config item rest io).queuedItems = s.queuedItems :=
    queuedItems_of_responses s hQueues.responses rfl
  have hItems : s.phase.items = item :: rest := by rw [hPhase]; rfl
  have hLeft : (s.deliver crypto config item rest io).phase.items = rest := rfl
  cases hCurrent : s.net.isCurrentConnection item.1.connectionId item.1.generation with
  | true =>
      have hLog : (s.deliver crypto config item rest io).log = _ := if_pos hCurrent
      refine .kept hLog (by simp) ?_
      rw [Server.replies, Server.replies, hQueued, hLeft, hItems, hLog, passedReplies_append]
      simp [passedReplies, replyOf]
  | false =>
      have hLog : (s.deliver crypto config item rest io).log = s.log := by
        simp [Server.deliver, hCurrent]
      have hBefore : s.replies = passedReplies s.log ++
          replyOf item :: (rest.map replyOf ++ s.queuedItems.map replyOf) := by
        rw [Server.replies, hItems]
        simp
      refine .dropped hPhase hCurrent hLog hBefore ?_
      rw [Server.replies, hQueued, hLeft, hLog, List.append_assoc]

theorem step_moved {a : Action} (hStep : Stepped crypto config pool s a s') :
    Moved config s s' := by
  have hSame : ∀ {t : Server} {more : List Event}, t.log = s.log ++ more →
      (∀ frame out queued, .finish frame out queued ∉ more) → passedReplies more = [] →
      t.phase.items = s.phase.items → t.queuedItems = s.queuedItems → Moved config s t :=
    fun hLog hMore hNone hPhase hQueued =>
      .kept hLog hMore (replies_of_same hLog hNone hPhase hQueued)
  have hQuiet : ∀ {t : Server}, t.log = s.log → t.phase.items = s.phase.items →
      t.queuedItems = s.queuedItems → Moved config s t :=
    fun {t} hLog hPhase hQueued => hSame (show t.log = s.log ++ [] by rw [hLog, List.append_nil])
      (fun _ _ _ => List.not_mem_nil) rfl hPhase hQueued
  cases hStep with
  | @event action r hPhase hEvent hNet =>
      have hQueues := event_untouched (isEvent_ofEvent hEvent) hNet
      have hQueued : (s.withNet crypto r.server).queuedItems = s.queuedItems :=
        queuedItems_of_responses s hQueues.responses rfl
      cases batchOf (newEffects s.net r.server) action with
      | none => exact hQuiet rfl rfl hQueued
      | some batch => exact hSame rfl (by simp) rfl rfl hQueued
  | drain hPhase => exact hQuiet rfl (by rw [hPhase]; rfl) rfl
  | @closeNext request rest hPhase =>
      have hQueues := untouched_closeIfCurrent s.net request
      exact hQuiet rfl (by rw [hPhase]; rfl) (queuedItems_of_responses s hQueues.responses rfl)
  | @closeNextAgain request rest hPhase =>
      have hQueues := untouched_closeIfCurrent s.net request
      exact hQuiet rfl (by rw [hPhase]; rfl) (queuedItems_of_responses s hQueues.responses rfl)
  | swap hPhase =>
      refine .kept (List.append_nil _).symm (fun _ _ _ => List.not_mem_nil) ?_
      unfold Server.replies
      rw [hPhase]
      simp [Phase.items, Server.queuedItems]
  | deliver io hPhase => exact moved_deliver io hPhase
  | drainAgain hPhase => exact hQuiet rfl (by rw [hPhase]; rfl) rfl
  | endDrain hPhase => exact hQuiet rfl (by rw [hPhase]; rfl) rfl
  | take hTasks hThread hFree => exact hQuiet rfl rfl rfl
  | @call worker job op next hJob hCurrent =>
      rcases @call_stored crypto job.frame op s.chat with ⟨hNone, -⟩ | ⟨hOne, -⟩
      · refine hQuiet ?_ rfl rfl
        show s.log ++ storedBy job.frame op (op.exec crypto s.chat).1 = s.log
        rw [hNone, List.append_nil]
      · exact hSame (congrArg (s.log ++ ·) hOne) (by simp) rfl rfl rfl
  | push hJob hCurrent => exact .pushed hJob hCurrent
  | start hJob hCurrent hRest => exact hSame rfl (by simp) rfl rfl rfl
  | leave hJob hCurrent hRest => exact hQuiet rfl rfl rfl

/-- Every reply keeps an origin of its own. -/
theorem step_sourced (hBooked : Booked s) (hWired : Wired s) (h : Sourced s) {a : Action}
    (hStep : Stepped crypto config pool s a s') : Sourced s' := by
  cases step_moved hStep with
  | kept hLog hMore hReplies => exact h.of_sublist hLog (hReplies ▸ List.Sublist.refl _)
  | dropped hPhase hStale hLog hBefore hAfter =>
      refine h.of_sublist (hLog.trans (List.append_nil _).symm) ?_
      rw [hBefore, hAfter]
      exact (List.sublist_cons_self _ _).append_left _
  | pushed hJob hCurrent => exact h.push hBooked hWired hJob

/-! ## What is reported as sent -/

/-- The replies to a connection for which `send_to_client` returned `true`. -/
def sentTo (log : List Event) (c : Nat) : List (Origin × Bytes) :=
  log.filterMap fun event => match event with
    | .pass origin c' data sent => if c' = c ∧ sent = true then some (origin, data) else none
    | _ => none

/-- The payloads of a connection that the thread pool has been given. -/
def batchesOf (log : List Event) (c : Nat) : List Bytes :=
  log.flatMap fun event => match event with
    | .read _ c' _ payloads => if c' = c then payloads else []
    | _ => []

theorem sentTo_append (log more : List Event) (c : Nat) :
    sentTo (log ++ more) c = sentTo log c ++ sentTo more c :=
  List.filterMap_append

theorem batchesOf_append (log more : List Event) (c : Nat) :
    batchesOf (log ++ more) c = batchesOf log c ++ batchesOf more c :=
  List.flatMap_append

/-- What was sent to a connection is a part of what was passed on. -/
theorem sentTo_sublist (log : List Event) (c : Nat) :
    ((sentTo log c).map fun sent => (sent.1, c, sent.2)).Sublist (passedReplies log) := by
  induction log with
  | nil => exact List.Sublist.refl _
  | cons event rest ih =>
      cases event with
      | pass origin c' data sent =>
          by_cases hSent : c' = c ∧ sent = true
          · have hLeft : sentTo (.pass origin c' data sent :: rest) c =
                (origin, data) :: sentTo rest c := List.filterMap_cons_some (if_pos hSent)
            rw [hLeft, List.map_cons, ← hSent.1]
            rw [← hSent.1] at ih
            exact ih.cons_cons _
          · have hLeft : sentTo (.pass origin c' data sent :: rest) c = sentTo rest c :=
              List.filterMap_cons_none (if_neg hSent)
            rw [hLeft]
            exact ih.cons _
      | _ => exact ih

/-- Effects that report nothing as sent. -/
abbrev Unreported (srv srv' : TcpServer) : Prop :=
  ∀ c, doneMessages srv'.log c = doneMessages srv.log c

theorem unreported_of_silent {srv srv' : TcpServer}
    (h : Emits (fun effect => effect.isSilent) srv srv') : Unreported srv srv' := by
  obtain ⟨effects, hLog, hAll⟩ := h
  intro c
  rw [hLog]
  exact (log_append_of_quiet srv.log (streams_of_silent hAll c)).2

/-- A flush reports nothing. -/
theorem unreported_flushWriteBuffer (srv : TcpServer) (fd : Nat) (io : SendIo) :
    Unreported srv (srv.flushWriteBuffer fd io) := by
  rcases flushWriteBuffer_sends srv fd io with hSame | ⟨i, connection, n, -, hRest⟩
  · rw [hSame]
    exact fun _ => rfl
  · intro c
    rw [unreported_of_silent hRest c]
    show doneMessages (srv.log ++ [.send i fd (connection.writeBuffer.take n)]) c = _
    rw [doneMessages_append]
    simp [doneMessages]

/-- Of what the event loop does, only a drain reports anything. -/
theorem unreported_event {r : Reactor} {action : Network.Action}
    (hEvent : isEvent pool s action = true)
    (hStep : Reactor.step config { server := s.net } action = some r) :
    Unreported s.net r.server := by
  cases action with
  | accept accepted =>
      rw [Reactor.step] at hStep
      split at hStep
      · contradiction
      · rw [← Option.some.inj hStep]
        show Unreported s.net (s.net.acceptConnection accepted)
        apply unreported_of_silent
        unfold TcpServer.acceptConnection
        dsimp only
        split
        · exact ⟨[.accept _ _ accepted.fd], rfl, by simp [Effect.isSilent]⟩
        · exact ⟨[.close none accepted.fd], rfl, by simp [Effect.isSilent]⟩
  | close c =>
      rw [← Option.some.inj hStep]
      exact unreported_of_silent (emits_silent_close _ c)
  | closeClient fd =>
      rw [← Option.some.inj hStep]
      exact unreported_of_silent (emits_closeClient _ fd (fun _ => rfl) fun _ _ => rfl)
  | read fd io =>
      rw [← Option.some.inj hStep]
      exact unreported_of_silent (emits_silent_handleClientRead config _ fd io)
  | flush fd io =>
      rw [← Option.some.inj hStep]
      exact unreported_flushWriteBuffer _ fd io
  | _ => exact absurd hEvent (by simp [isEvent])

/-- What a send reports. -/
theorem sendToClient_reports {srv : TcpServer} {c : Nat} (connection : ConnectionState)
    (data : Bytes) (io : SendIo) :
    doneMessages (srv.sendToClient config c connection data io).2.log c =
      doneMessages srv.log c ++
        if (srv.sendToClient config c connection data io).1 = true then [data] else [] := by
  cases hSend : srv.sendToClient config c connection data io with
  | mk done srv' =>
    cases done with
    | false =>
        rw [if_neg Bool.false_ne_true, List.append_nil]
        show doneMessages srv'.log c = _
        rcases sendToClient_fails hSend with hLog | ⟨-, packet, n, -, -, hLog⟩
        · rw [hLog]
        · rw [hLog]
          exact (log_send _ _ _ _).2
    | true =>
        rw [if_pos rfl]
        show doneMessages srv'.log c = _
        obtain ⟨packet, -, ⟨-, rfl⟩ | ⟨-, rfl⟩ | ⟨-, n, -, rfl⟩⟩ := sendToClient_cases hSend
        · exact (log_sendDone srv.log c data).2
        · show doneMessages (srv.log ++ [.send c connection.fd packet] ++ [.sendDone c data]) c = _
          rw [(log_sendDone _ c data).2, (log_send srv.log c connection.fd packet).2]
        · show doneMessages
            (srv.log ++ [.send c connection.fd (packet.take n)] ++ [.sendDone c data]) c = _
          rw [(log_sendDone _ c data).2, (log_send srv.log c connection.fd (packet.take n)).2]

/-- The response is passed on, and reported as sent. -/
def reports (config : ServerConfig) (srv : TcpServer) (response : QueuedResponse)
    (io : SendIo) : Bool :=
  srv.isCurrentConnection response.connectionId response.generation &&
    (srv.findConnection response.connectionId).any fun connection =>
      (srv.sendToClient config response.connectionId connection response.data io).1

/-- What a delivery reports as sent. -/
theorem deliver_reports (srv : TcpServer) (response : QueuedResponse) (io : SendIo) (c : Nat) :
    doneMessages (srv.deliver config response io).log c = doneMessages srv.log c ++
      if response.connectionId = c ∧ reports config srv response io = true then [response.data]
      else [] := by
  cases hFind : srv.findConnection response.connectionId with
  | none => simp [TcpServer.deliver, reports, hFind]
  | some connection =>
      by_cases hc : response.connectionId = c
      · cases hCurrent : srv.isCurrentConnection response.connectionId response.generation with
        | false => simp [TcpServer.deliver, reports, hFind, hCurrent]
        | true =>
            have hSent := @sendToClient_reports config srv response.connectionId connection
              response.data io
            have hClose : ∀ srv' : TcpServer,
                Unreported srv' (srv'.closeConnection response.connectionId) :=
              fun srv' => unreported_of_silent (emits_silent_close srv' _)
            rw [TcpServer.deliver, hFind, reports, hCurrent, hFind, Option.any_some, ← hc]
            dsimp only
            rw [if_neg (by simp), Bool.true_and]
            cases hSend : srv.sendToClient config response.connectionId connection
                response.data io with
            | mk done srv' =>
              rw [hSend] at hSent
              cases done with
              | false => simpa [hClose srv' _] using hSent
              | true =>
                  have hDone : doneMessages srv'.log response.connectionId =
                      doneMessages srv.log response.connectionId ++ [response.data] := hSent
                  have hReport : (if response.connectionId = response.connectionId ∧ true = true
                      then [response.data] else []) = [response.data] := if_pos ⟨rfl, rfl⟩
                  dsimp only
                  rw [hReport, ← hDone]
                  split
                  · split
                    · rfl
                    · split
                      · exact hClose srv' _
                      · rfl
                  · rfl
      · obtain ⟨effects, hLog, hOwner⟩ := (onlyFor_deliver config io hFind).effects
        have hNone := @log_of_owner_ne effects c fun effect hMem hEq =>
          hc (Option.some.inj ((hOwner effect hMem).symm.trans hEq))
        rw [hLog, (log_append_of_quiet srv.log hNone).2, if_neg fun h => hc h.1, List.append_nil]

/-! ## The two logs -/

/-- The log of the reactor says the same as that of the server. -/
structure Mirrored (s : Server) : Prop where
  reported : ∀ c, doneMessages s.net.log c = (sentTo s.log c).map Prod.snd
  submitted : ∀ c, submittedBy s.net.log c = batchesOf s.log c

/-- What happens outside both logs. -/
theorem Mirrored.of_same (h : Mirrored s) {more : List Event} (hLog : s'.log = s.log ++ more)
    (hMore : ∀ c, sentTo more c = [] ∧ batchesOf more c = [])
    (hReported : Unreported s.net s'.net)
    (hSubmitted : ∀ c, submittedBy s'.net.log c = submittedBy s.net.log c) : Mirrored s' where
  reported := by
    intro c
    rw [hReported c, h.reported c, hLog, sentTo_append, (hMore c).1, List.append_nil]
  submitted := by
    intro c
    rw [hSubmitted c, h.submitted c, hLog, batchesOf_append, (hMore c).2, List.append_nil]

/-- A read hands over the batch that the server then submits. -/
theorem read_submits (srv : TcpServer) (fd : Nat) (io : ReadIo) :
    (∃ c g payloads,
      enqueued (newEffects srv (srv.handleClientRead config fd io)) = some (c, g, payloads) ∧
      ∀ j, submittedBy (srv.handleClientRead config fd io).log j = submittedBy srv.log j ++
        if c = j then payloads else []) ∨
    enqueued (newEffects srv (srv.handleClientRead config fd io)) = none ∧
      ∀ j, submittedBy (srv.handleClientRead config fd io).log j = submittedBy srv.log j := by
  rcases handleClientRead_batch config srv fd io with
    ⟨i, connection, out, hRead, -, hEq⟩ | hNone
  · have hLog : (srv.handleClientRead config fd io).log = srv.log ++ [.recv i fd,
        .enqueue connection.connectionId connection.generation
          (out.1.packets.map Packet.payload)] := by
      rw [hEq]
      simp [TcpServer.emit, TcpServer.setConnection]
    refine .inl ⟨connection.connectionId, connection.generation,
      out.1.packets.map Packet.payload, ?_, ?_⟩
    · rw [newEffects, hLog, List.drop_left]
      rfl
    · intro j
      rw [hLog, submittedBy_append]
      simp [submittedBy]
  · refine .inr ⟨?_, ?_⟩
    · obtain ⟨effects, hLog, hAll⟩ := hNone
      rw [newEffects, hLog, List.drop_left, enqueued, List.findSome?_eq_none_iff]
      intro effect hMem
      cases effect with
      | enqueue i g payloads => exact absurd rfl (hAll _ hMem i g payloads)
      | _ => rfl
    · exact fun j => submittedBy_of_emits hNone j

/-- Every step leaves the same in both logs. -/
theorem step_mirrored (hWired : Wired s) (h : Mirrored s) {a : Action}
    (hStep : Stepped crypto config pool s a s') : Mirrored s' := by
  have hQuiet : ∀ {t : Server} {event : Event}, t.log = s.log ++ [event] →
      (∀ c, sentTo [event] c = [] ∧ batchesOf [event] c = []) →
      t.net.log = s.net.log → Mirrored t :=
    fun hLog hNone hNet => h.of_same hLog hNone (fun c => by rw [hNet]) fun c => by rw [hNet]
  have hSilent : ∀ {t : Server}, t.log = s.log → t.net.log = s.net.log → Mirrored t :=
    fun {t} hLog hNet => h.of_same (show t.log = s.log ++ [] by rw [hLog, List.append_nil])
      (fun _ => ⟨rfl, rfl⟩) (fun c => by rw [hNet]) fun c => by rw [hNet]
  have hClosed : ∀ {t : Server} (request : QueuedClose), t.log = s.log →
      t.net = s.net.closeIfCurrent request → Mirrored t := by
    intro t request hLog hNet
    have hSame : t.log = s.log ++ [] := by rw [hLog, List.append_nil]
    refine h.of_same hSame (fun _ => ⟨rfl, rfl⟩) ?_ ?_ <;>
      rw [hNet, TcpServer.closeIfCurrent] <;> split
    · exact unreported_of_silent (emits_silent_close _ _)
    · exact fun _ => rfl
    · exact fun c => ((KeepsReading.refl c s.net).closeConnection _).submitted
    · exact fun _ => rfl
  cases hStep with
  | @event action r hPhase hEvent hNet =>
      have hReported := unreported_event hEvent hNet
      cases action with
      | read fd io =>
          rw [← Option.some.inj hNet] at hReported ⊢
          rcases @read_submits config s.net fd io with
            ⟨c, g, payloads, hBatch, hSubmitted⟩ | ⟨hBatch, hSubmitted⟩
          · rw [batchOf, hBatch]
            refine ⟨fun j => ?_, fun j => ?_⟩
            · rw [(submit_net _ _).1]
              show doneMessages (s.net.handleClientRead config fd io).log j =
                (sentTo (s.log ++ [.read s.nextTask c g payloads]) j).map Prod.snd
              rw [hReported j, h.reported j, sentTo_append]
              simp [sentTo]
            · rw [(submit_net _ _).1]
              show submittedBy (s.net.handleClientRead config fd io).log j =
                batchesOf (s.log ++ [.read s.nextTask c g payloads]) j
              rw [hSubmitted j, h.submitted j, batchesOf_append]
              simp [batchesOf]
          · rw [batchOf, hBatch]
            exact h.of_same (List.append_nil _).symm (fun _ => ⟨rfl, rfl⟩) hReported hSubmitted
      | _ =>
          refine h.of_same (List.append_nil _).symm (fun _ => ⟨rfl, rfl⟩) hReported fun c => ?_
          exact (step_keepsReading hWired.reactor.toInverse (fun _ _ hEq => by cases hEq)
            hNet).submitted
  | drain hPhase => exact hSilent rfl rfl
  | closeNext hPhase => exact hClosed _ rfl rfl
  | closeNextAgain hPhase => exact hClosed _ rfl rfl
  | swap hPhase => exact hSilent rfl rfl
  | @deliver item rest io hPhase =>
      have hReported := @deliver_reports config s.net item.1 io
      have hSubmitted : ∀ c, submittedBy (s.net.deliver config item.1 io).log c =
          submittedBy s.net.log c :=
        fun c => (keepsReading_deliver config item.1 io).submitted
      cases hCurrent : s.net.isCurrentConnection item.1.connectionId item.1.generation with
      | true =>
          have hLog : (s.deliver crypto config item rest io).log = _ := if_pos hCurrent
          refine ⟨fun c => ?_, fun c => ?_⟩
          · show doneMessages (s.net.deliver config item.1 io).log c = _
            rw [hReported c, h.reported c, hLog, sentTo_append, List.map_append]
            congr 1
            rw [reports, hCurrent, Bool.true_and]
            simp only [sentTo, List.filterMap_cons, List.filterMap_nil]
            split <;> rfl
          · show submittedBy (s.net.deliver config item.1 io).log c = _
            rw [hSubmitted c, h.submitted c, hLog, batchesOf_append]
            simp [batchesOf]
      | false =>
          have hLog : (s.deliver crypto config item rest io).log = s.log := by
            simp [Server.deliver, hCurrent]
          refine h.of_same (hLog.trans (List.append_nil _).symm) (fun _ => ⟨rfl, rfl⟩) ?_
            hSubmitted
          intro c
          refine (hReported c).trans ?_
          rw [reports, hCurrent]
          simp
  | drainAgain hPhase => exact hSilent rfl rfl
  | endDrain hPhase => exact hSilent rfl rfl
  | take hTasks hThread hFree => exact hSilent rfl rfl
  | @call worker job op next hJob hCurrent =>
      refine h.of_same rfl (fun c => ?_) (fun _ => rfl) fun _ => rfl
      rcases @call_stored crypto job.frame op s.chat with ⟨hNone, -⟩ | ⟨hOne, -⟩
      · rw [hNone]
        exact ⟨rfl, rfl⟩
      · rw [hOne]
        exact ⟨rfl, rfl⟩
  | @push worker job out hJob hCurrent =>
      refine hQuiet rfl (fun _ => ⟨rfl, rfl⟩) ?_
      obtain ⟨_, _, hPushed⟩ := s.net.pushResult_queues config (resultOf job out)
      show (s.net.pushResult config (resultOf job out)).log = _
      rw [hPushed]
  | start hJob hCurrent hRest => exact hQuiet rfl (fun _ => ⟨rfl, rfl⟩) rfl
  | leave hJob hCurrent hRest => exact hSilent rfl rfl

/-! ## What requests return -/

/-- The replies to a packet are what the request for its payload returns. -/
structure Returned (post : Nat → Bytes → List OutboundMessage → Prop) (s : Server) : Prop where
  jobs : ∀ w job, s.running.lookup w = some job → ∀ p ∈ job.current,
    ∃ line, Asked s.log job.frame job.connectionId line ∧ p.Returns (post job.connectionId line)
  finished : ∀ frame out queued, .finish frame out queued ∈ s.log →
    ∃ c line, Asked s.log frame c line ∧ post c line out

variable {post : Nat → Bytes → List OutboundMessage → Prop} {past : Pasts}

/-- Nobody starts or finishes a packet. -/
theorem Returned.of_neutral (h : Returned post s) {more : List Event}
    (hLog : s'.log = s.log ++ more)
    (hMore : ∀ frame out queued, .finish frame out queued ∉ more)
    (hRunning : ∀ w job, s'.running.lookup w = some job →
      s.running.lookup w = some job ∨ job.current = none) : Returned post s' where
  jobs := by
    intro w job hJob p hp
    rcases hRunning w job hJob with hOld | hNone
    · obtain ⟨line, hAsked, hReturns⟩ := h.jobs w job hOld p hp
      refine ⟨line, hAsked.mono ?_, hReturns⟩
      rw [hLog]
      exact List.subset_append_left _ _
    · rw [hNone] at hp
      contradiction
  finished := by
    intro frame out queued hMem
    rw [hLog] at hMem ⊢
    rcases List.mem_append.mp hMem with hOld | hNew
    · obtain ⟨c, line, hAsked, hPost⟩ := h.finished frame out queued hOld
      exact ⟨c, line, hAsked.mono (List.subset_append_left _ _), hPost⟩
    · exact absurd hNew (hMore frame out queued)

/-- A worker goes on with a request that returns the same. -/
theorem Returned.update (h : Returned post s) {more : List Event} {w : Nat} {job : Job}
    {line : Bytes} (hLog : s'.log = s.log ++ more)
    (hMore : ∀ frame out queued, .finish frame out queued ∉ more)
    (hRunning : s'.running = s.running.insert w job)
    (hAsked : Asked s.log job.frame job.connectionId line)
    (hReturns : ∀ p ∈ job.current, p.Returns (post job.connectionId line)) :
    Returned post s' where
  jobs := by
    intro v other hOther p hp
    have hSub : s.log ⊆ s'.log := by rw [hLog]; exact List.subset_append_left _ _
    rw [hRunning, UnorderedMap.lookup_insert] at hOther
    split at hOther
    · obtain rfl := Option.some.inj hOther
      exact ⟨line, hAsked.mono hSub, hReturns p hp⟩
    · obtain ⟨line', hAsked', hReturns'⟩ := h.jobs v other hOther p hp
      exact ⟨line', hAsked'.mono hSub, hReturns'⟩
  finished := (h.of_neutral hLog hMore fun _ _ hJob => Or.inl hJob :
    Returned post { s with log := s'.log }).finished

theorem Returned.push (h : Returned post s) {w : Nat} {job : Job} {out : List OutboundMessage}
    (hJob : s.running.lookup w = some job) (hCurrent : job.current = some (.done out)) :
    Returned post (s.push config w job out) where
  jobs := by
    intro v other hOther p hp
    have hOther : (s.running.insert w _).lookup v = some other := hOther
    rw [UnorderedMap.lookup_insert] at hOther
    split at hOther
    · obtain rfl := Option.some.inj hOther
      contradiction
    · obtain ⟨line, hAsked, hReturns⟩ := h.jobs v other hOther p hp
      exact ⟨line, hAsked.mono (List.subset_append_left _ _), hReturns⟩
  finished := by
    intro frame out' queued hMem
    have hSub : s.log ⊆ (s.push config w job out).log := List.subset_append_left _ _
    rcases List.mem_append.mp hMem with hOld | hNew
    · obtain ⟨c, line, hAsked, hPost⟩ := h.finished frame out' queued hOld
      exact ⟨c, line, hAsked.mono hSub, hPost⟩
    · injection List.mem_singleton.mp hNew with hFrame hOut
      obtain ⟨line, hAsked, hPost⟩ := h.jobs w job hJob _ hCurrent
      rw [hFrame, hOut]
      exact ⟨job.connectionId, line, hAsked.mono hSub, hPost⟩

/-- A worker is at the next payload of its batch. -/
theorem JobPromised.asked {job : Job} {payload : Bytes} {rest : List Bytes}
    (h : JobPromised past s job) (hCurrent : job.current = none)
    (hRest : job.rest = payload :: rest) :
    Asked s.log job.frame job.connectionId payload := by
  obtain ⟨payloads, hMem, hDrop⟩ := h.batch
  refine ⟨job.generation, payloads, hMem, ?_⟩
  show payloads[job.index]? = some payload
  rw [hRest] at hDrop
  simp only [Job.started, hCurrent, Option.isSome_none, Bool.false_eq_true, if_false] at hDrop
  rw [← List.head?_drop, hDrop]
  rfl

/-- What every request returns is true of the replies to every packet. -/
theorem step_returned (hPost : ∀ c line, (handleClientLine c line).Returns (post c line))
    (hPromised : Promised past s) (h : Returned post s) {a : Action}
    (hStep : Stepped crypto config pool s a s') : Returned post s' := by
  have hSilent : ∀ {t : Server}, t.log = s.log → t.running = s.running → Returned post t := by
    intro t hLog hRunning
    refine h.of_neutral (show t.log = s.log ++ [] by rw [hLog, List.append_nil])
      (fun _ _ _ => List.not_mem_nil) fun w job hJob => ?_
    rw [hRunning] at hJob
    exact Or.inl hJob
  cases hStep with
  | @event action r hPhase hEvent hNet =>
      cases batchOf (newEffects s.net r.server) action with
      | none => exact hSilent rfl rfl
      | some batch => exact h.of_neutral rfl (by simp) fun _ _ hJob => Or.inl hJob
  | drain hPhase | swap hPhase | drainAgain hPhase | endDrain hPhase => exact hSilent rfl rfl
  | closeNext hPhase | closeNextAgain hPhase => exact hSilent rfl rfl
  | @deliver item rest io hPhase =>
      cases hCurrent : s.net.isCurrentConnection item.1.connectionId item.1.generation with
      | true => exact h.of_neutral (if_pos hCurrent) (by simp) fun _ _ hJob => Or.inl hJob
      | false =>
          refine hSilent ?_ rfl
          simp [Server.deliver, hCurrent]
  | @take w task rest hTasks hThread hFree =>
      refine h.of_neutral (List.append_nil _).symm (fun _ _ _ => List.not_mem_nil) ?_
      intro v job hJob
      rw [UnorderedMap.lookup_insert] at hJob
      split at hJob
      · exact Or.inr (by rw [← Option.some.inj hJob])
      · exact Or.inl hJob
  | @call w job op next hJob hCurrent =>
      obtain ⟨line, hAsked, hReturns⟩ := h.jobs w job hJob _ hCurrent
      refine h.update rfl ?_ rfl hAsked ?_
      · intro frame out queued hMem
        cases op with
        | append message => exact absurd (List.mem_singleton.mp hMem) (by simp)
        | _ => exact absurd hMem List.not_mem_nil
      · intro p hp
        rw [← Option.some.inj hp]
        exact hReturns _
  | push hJob hCurrent => exact h.push hJob hCurrent
  | @start w job payload rest hJob hCurrent hRest =>
      have hAsked := (hPromised.jobs w job hJob).asked hCurrent hRest
      refine h.update rfl (by simp) rfl hAsked ?_
      intro p hp
      rw [← Option.some.inj hp]
      exact hPost _ _
  | @leave w job hJob hCurrent hRest =>
      refine h.of_neutral (List.append_nil _).symm (fun _ _ _ => List.not_mem_nil) ?_
      intro v other hOther
      rw [UnorderedMap.lookup_erase] at hOther
      split at hOther
      · contradiction
      · exact Or.inl hOther

/-! ## Every run -/

theorem run_origins {listenFd wakeFd : Nat} {acts : List Action}
    (hRun : run (step crypto config pool) (Server.init listenFd wakeFd) acts = some s) :
    Sourced s ∧ Mirrored s := by
  have hInit : InOrder (Server.init listenFd wakeFd) ∧ Sourced (Server.init listenFd wakeFd) ∧
      Mirrored (Server.init listenFd wakeFd) :=
    ⟨inOrder_init listenFd wakeFd, ⟨List.nodup_nil, fun _ hMem => absurd hMem List.not_mem_nil⟩,
      ⟨fun _ => rfl, fun _ => rfl⟩⟩
  have hStep : ∀ t a t', InOrder t ∧ Sourced t ∧ Mirrored t →
      step crypto config pool t a = some t' → InOrder t' ∧ Sourced t' ∧ Mirrored t' := by
    rintro t a t' ⟨hInOrder, hSourced, hMirrored⟩ hStep
    have hStepped := stepped hStep
    exact ⟨step_inOrder t a t' hInOrder hStep,
      step_sourced hInOrder.booked hInOrder.wired hSourced hStepped,
      step_mirrored hInOrder.wired hMirrored hStepped⟩
  exact (run_invariant hStep hInit hRun).2

theorem run_returned (hPost : ∀ c line, (handleClientLine c line).Returns (post c line))
    {listenFd wakeFd : Nat} {acts : List Action}
    (hRun : run (step crypto config pool) (Server.init listenFd wakeFd) acts = some s) :
    Returned post s := by
  have hInit : Returned post (Server.init listenFd wakeFd) :=
    ⟨fun w job hJob => by simp [Server.init] at hJob,
      fun frame out queued hMem => absurd hMem List.not_mem_nil⟩
  refine @run_invariant_of_past _ _ _ (fun _ s => Returned post s) _ hInit ?_ _ _ hRun
  intro acts t a t' hPrefix h hStep
  exact step_returned hPost (run_promised hPrefix).2 h (stepped hStep)

end CppChat.Ports.ServerRuns
