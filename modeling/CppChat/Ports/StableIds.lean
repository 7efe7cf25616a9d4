import CppChat.Verified.Transition
import CppChat.Verified.UnorderedMap
import CppChat.Ports.MessagesTable

/-!
# Is a message id one stable key?

`append` returns the auto-increment id of its row, or, when a database call
fails, the position of the message in the vector.  The pages report row ids, or
positions when the pool has no connection.  The two kinds of numbers agree only
by luck.

A run interleaves appends and page queries of several threads: an append pushes
under the lock in one step and does its database part in another.  An append is
known by its position in the vector, which no other append has.  Beside the
store a run keeps what an observer has seen: the ids that appends returned, and
the ids under which pages reported appended messages.

Which message a page reports is not read off the id it reports.  Every row of the table
carries a label, the append that inserted it, and every element of the vector its position;
the query is run once more over the labelled items, and the labels that come out say which
messages the items of the page are.

## Main results

* `map_snd_labelledRows`, `map_snd_labelledMessages`: the labelled queries are those of the
  pages.
* `covers_iff`: the positions of the vector that a page read from it reports.
* `step_storeInv`: what holds of the store and the observations in every run.
* `step_stable_iff`: a step keeps the ids stable exactly when it meets `keepsIds`.
* `ids_stable_iff`: so does a run.
* `ids_collide`: a run in which an append returns the id of another message.
-/

namespace CppChat.Ports.StableIds

open CppChat.Verified
open CppChat.Verified.LabelledQuery
open CppChat.Verified.Transition
open CppChat.Ports.Protocol
open CppChat.Ports.Messages

/-! ## Labels -/

section Labels

variable {β : Type}

/-- The fetch loop over labelled rows. -/
def fetchLabelled : List FetchOutcome → List (β × MessageRow) → List (β × MessageRow)
  | _, [] => []
  | [], rows => rows
  | .row :: outcomes, row :: rest => row :: fetchLabelled outcomes rest
  | .bodyError :: outcomes, row :: rest =>
      if row.2.body.isEmpty then row :: fetchLabelled outcomes rest
      else fetchLabelled outcomes rest
  | .error :: _, _ :: _ => []

/-- The rows of a page read from the table, with their labels. -/
def labelledRows (query : PageQuery) (io : QueryIo) (rows : List (β × MessageRow)) :
    List (β × MessageRow) :=
  if io.executed then
    fetchLabelled io.fetches
      (LabelledQuery.query (fun row => query.selectsRow row.2)
        (fun a b => query.rowOrder a.2 b.2) query.limit rows)
  else []

/-- The messages of the vector with their positions. -/
def positioned (memory : MessageStore) : List (Nat × StoredMessage) :=
  memory.numbered.mapIdx fun index message => (index + 1, message)

/-- The messages of a page read from the vector, with their positions. -/
def labelledMessages (query : PageQuery) (memory : MessageStore) : List (Nat × StoredMessage) :=
  firstOf (fun message => query.selectsMessage message.2) query.limit
    (query.scanned (positioned memory))

theorem map_snd_fetchLabelled (outcomes : List FetchOutcome) (rows : List (β × MessageRow)) :
    (fetchLabelled outcomes rows).map Prod.snd =
      PooledMessageStore.fetchRows outcomes (rows.map Prod.snd) := by
  fun_induction fetchLabelled outcomes rows with
  | case1 outcomes => cases outcomes <;> rfl
  | case2 rows hNotNil => cases rows <;> rfl
  | case3 outcomes row rest ih => rw [List.map_cons, ih]; rfl
  | case4 outcomes row rest hEmpty ih =>
      rw [List.map_cons, List.map_cons, ih, PooledMessageStore.fetchRows, if_pos hEmpty]
  | case5 outcomes row rest hBody ih =>
      rw [ih, List.map_cons, PooledMessageStore.fetchRows, if_neg hBody]
  | case6 outcomes row rest => rfl

/-- The loop leaves rows out and keeps the others in their order. -/
theorem fetchLabelled_sublist (outcomes : List FetchOutcome) (rows : List (β × MessageRow)) :
    (fetchLabelled outcomes rows).Sublist rows := by
  fun_induction fetchLabelled outcomes rows with
  | case1 outcomes => exact List.nil_sublist _
  | case2 rows hNotNil => exact List.Sublist.refl _
  | case3 outcomes row rest ih => exact ih.cons_cons row
  | case4 outcomes row rest hEmpty ih => exact ih.cons_cons row
  | case5 outcomes row rest hBody ih => exact ih.cons row
  | case6 outcomes row rest => exact List.nil_sublist _

/-- A page reports rows of the table. -/
theorem mem_labelledRows {query : PageQuery} {io : QueryIo} {rows : List (β × MessageRow)}
    {row : β × MessageRow} (h : row ∈ labelledRows query io rows) : row ∈ rows := by
  unfold labelledRows at h
  split at h
  · have hSorted := List.mem_of_mem_take ((fetchLabelled_sublist _ _).subset h)
    exact (List.mem_filter.mp ((List.mem_insertionSort _).mp hSorted)).1
  · contradiction

/-- Without the labels the rows of the page are left. -/
theorem map_snd_labelledRows (store : PooledMessageStore) (query : PageQuery) (io : QueryIo)
    {rows : List (β × MessageRow)} (hRows : rows.map Prod.snd = store.rows) :
    (labelledRows query io rows).map Prod.snd =
      store.executeQuery query.selectsRow query.rowOrder query.limit io := by
  unfold labelledRows PooledMessageStore.executeQuery
  split
  · rw [map_snd_fetchLabelled, map_snd_query, hRows]
    rfl
  · rfl

theorem map_snd_positioned (memory : MessageStore) :
    (positioned memory).map Prod.snd = memory.numbered := by
  apply List.ext_getElem?
  intro i
  simp [positioned, Function.comp_def]

/-- Without the labels the messages of the page are left. -/
theorem map_snd_labelledMessages (query : PageQuery) (memory : MessageStore) :
    (labelledMessages query memory).map Prod.snd =
      firstOf query.selectsMessage query.limit (query.scanned memory.numbered) := by
  rw [labelledMessages, map_snd_firstOf, ← map_snd_positioned memory]
  unfold PageQuery.scanned
  split
  · rw [List.map_reverse]
  · rfl

/-- The scan comes to the first position before it comes to the second. -/
def comesBefore (query : PageQuery) (position other : Nat) : Bool :=
  if query.newestFirst then decide (other < position) else decide (position < other)

/-- The query asks for the message at this position of the vector, and there are fewer others
than the limit that it asks for and comes to before. -/
def covers (query : PageQuery) (memory : MessageStore) (position : Nat) : Bool :=
  ((positioned memory).any fun message =>
      message.1 == position && query.selectsMessage message.2) &&
    decide (((positioned memory).countP fun message => query.selectsMessage message.2 &&
      comesBefore query message.1 position) < query.limit)

/-- The label is the position, and so is the id. -/
theorem mem_positioned {memory : MessageStore} {message : Nat × StoredMessage}
    (h : message ∈ positioned memory) : message.2.id = message.1 := by
  obtain ⟨i, hi⟩ := List.mem_iff_getElem?.mp h
  simp only [positioned, List.getElem?_mapIdx, MessageStore.getElem?_numbered,
    Option.map_map, Option.map_eq_some_iff] at hi
  obtain ⟨stored, -, rfl⟩ := hi
  rfl

theorem comesBefore_asymm {query : PageQuery} {position other : Nat}
    (h : comesBefore query position other = true) :
    comesBefore query other position = false := by
  unfold comesBefore at h ⊢
  split
  · rename_i hNewest
    rw [if_pos hNewest, decide_eq_true_eq] at h
    exact decide_eq_false (Nat.lt_asymm h)
  · rename_i hOldest
    rw [if_neg hOldest, decide_eq_true_eq] at h
    exact decide_eq_false (Nat.lt_asymm h)

/-- The scan comes to the positions in its order. -/
theorem scanned_sorted (query : PageQuery) (memory : MessageStore) :
    (query.scanned (positioned memory)).Pairwise fun a b =>
      comesBefore query a.1 b.1 = true := by
  have hSorted : (positioned memory).Pairwise fun a b => a.1 < b.1 := by
    rw [List.pairwise_iff_getElem]
    intro i j hi hj hLt
    simp only [positioned, List.getElem_mapIdx]
    omega
  unfold PageQuery.scanned comesBefore
  split
  · rw [List.pairwise_reverse]
    exact hSorted.imp fun hLt => decide_eq_true hLt
  · exact hSorted.imp fun hLt => decide_eq_true hLt

theorem mem_labelledMessages {query : PageQuery} {memory : MessageStore}
    {message : Nat × StoredMessage} :
    message ∈ labelledMessages query memory ↔ message ∈ positioned memory ∧
      query.selectsMessage message.2 = true ∧ ((positioned memory).countP fun other =>
        query.selectsMessage other.2 && comesBefore query other.1 message.1) < query.limit := by
  rw [labelledMessages,
    mem_firstOf_iff (fun _ _ => comesBefore_asymm) (scanned_sorted query memory)]
  unfold PageQuery.scanned
  split
  · rw [List.mem_reverse, List.countP_reverse]
  · exact Iff.rfl

/-- The positions of the vector that a page read from it reports. -/
theorem covers_iff {query : PageQuery} {memory : MessageStore} {position : Nat} :
    covers query memory position = true ↔
      ∃ message ∈ labelledMessages query memory, message.1 = position := by
  rw [covers, Bool.and_eq_true, List.any_eq_true, decide_eq_true_eq]
  constructor
  · rintro ⟨⟨message, hMem, hWanted⟩, hFew⟩
    obtain ⟨hAt, hSelects⟩ := (Bool.and_eq_true _ _).mp hWanted
    have hAt : message.1 = position := beq_iff_eq.mp hAt
    rw [← hAt] at hFew
    exact ⟨message, mem_labelledMessages.mpr ⟨hMem, hSelects, hFew⟩, hAt⟩
  · rintro ⟨message, hMem, rfl⟩
    obtain ⟨hIn, hSelects, hFew⟩ := mem_labelledMessages.mp hMem
    exact ⟨⟨message, hIn, by rw [beq_self_eq_true, hSelects]; rfl⟩, hFew⟩

end Labels

/-! ## Runs -/

/-- The return of an append: its position in the vector, the id it returned, and
whether a row of the table had this id before. -/
structure Returned where
  position : Nat
  id : Nat
  taken : Bool
deriving DecidableEq, Repr

/-- The store, the appends between their two steps with what they are going to return if they
fail, the labels of the rows, and what has been observed.  A row is labelled with the position
of the append that inserted it, and with nothing if it was there at the start. -/
structure StoreRun where
  store : PooledMessageStore
  inFlight : UnorderedMap Nat (Message × StoredMessage) := ∅
  origins : List (Option Nat) := []
  returned : List Returned := []
  reported : List (Nat × Nat) := []

/-- A thread enters `append` or leaves it, or a page is fetched. -/
inductive Action where
  | begin (message : Message)
  | finish (position : Nat) (io : AppendIo)
  | page (query : PageQuery) (io : QueryIo)

/-- Each row with the position of the append that wrote it. -/
def StoreRun.labelled (s : StoreRun) : List (Option Nat × MessageRow) :=
  s.origins.zip s.store.rows

/-- The appended messages a page reports, each by its position, with the id it
is reported under. -/
def StoreRun.reports (s : StoreRun) (query : PageQuery) (io : QueryIo) : List (Nat × Nat) :=
  if io.acquired then
    ((labelledRows query io s.labelled).zip (s.store.page io query)).filterMap
      fun (row, item) => row.1.map fun position => (position, item.id)
  else
    ((labelledMessages query s.store.memory).zip (s.store.page io query)).map
      fun (message, item) => (message.1, item.id)

/-- One step of the store. -/
def step (s : StoreRun) : Action → Option StoreRun
  | .begin message =>
      let (stored, store) := s.store.beginAppend message
      some { s with
        store := store
        inFlight := s.inFlight.insert (s.store.memory.messages.length + 1) (message, stored) }
  | .finish position io =>
      (s.inFlight.lookup position).map fun (message, stored) =>
        let (result, store) := s.store.finishAppend message stored io
        { s with
          store := store
          inFlight := s.inFlight.erase position
          origins := if io.inserts message then s.origins ++ [some position] else s.origins
          returned := s.returned ++
            [{ position := position, id := result.id,
               taken := s.store.rows.any fun row => row.id == result.id }] }
  | .page query io => some { s with reported := s.reported ++ s.reports query io }

/-- The message id is one key: no two appends returned the same id, none
returned the id of a row that was there before, and every report of an appended
message is under the id its append returned. -/
structure Stable (s : StoreRun) : Prop where
  distinct : (s.returned.map Returned.id).Nodup
  unused : ∀ entry ∈ s.returned, entry.taken = false
  agree : ∀ report ∈ s.reported, ∀ entry ∈ s.returned, entry.position = report.1 →
    entry.id = report.2

/-- The condition on a step.  An append that inserts its row needs an
auto-increment id that no append has returned, and its own position if a page has reported
the message before; one that fails needs a position that is not the id of a row.  A page is
read from the table, or what it asks for is not at the position of an append that has returned
another id. -/
def keepsIds (s : StoreRun) : Action → Bool
  | .begin _ => true
  | .finish position io =>
      match s.inFlight.lookup position with
      | none => true
      | some (message, _) =>
          if io.inserts message then
            (s.returned.all fun entry => entry.id != s.store.nextId) &&
              s.reported.all fun report =>
                report.1 != position || position == s.store.nextId
          else s.store.rows.all fun row => row.id != position
  | .page query io =>
      io.acquired || s.returned.all fun entry =>
        entry.id == entry.position || !covers query s.store.memory entry.position

/-! ## The invariant -/

/-- What holds in every run, stable or not. -/
structure StoreInv (s : StoreRun) : Prop where
  below : ∀ row ∈ s.store.rows, row.id < s.store.nextId
  pushed : ∀ position message stored, s.inFlight.lookup position = some (message, stored) →
    position ≤ s.store.memory.messages.length ∧ stored.id = position
  done : ∀ entry ∈ s.returned, entry.position ≤ s.store.memory.messages.length
  open_ : ∀ position pending, s.inFlight.lookup position = some pending →
    ∀ entry ∈ s.returned, entry.position ≠ position
  once : (s.returned.map Returned.position).Nodup
  source : ∀ entry ∈ s.returned, entry.id = entry.position ∨
    ∃ row ∈ s.store.rows, row.id = entry.id
  aligned : s.origins.length = s.store.rows.length
  inserted : ∀ row ∈ s.labelled, ∀ position ∈ row.1,
    ∃ entry ∈ s.returned, entry.position = position ∧ entry.id = row.2.id
  seen : ∀ report ∈ s.reported, report.2 = report.1 ∨
    ∃ entry ∈ s.returned, entry.position = report.1 ∧ entry.id = report.2

/-- The start: a table of any contents, whose counter is above all ids. -/
def start (rows : List MessageRow) (nextId : Nat) : StoreRun :=
  { store := { rows := rows, nextId := nextId }, origins := rows.map fun _ => none }

theorem storeInv_start {rows : List MessageRow} {nextId : Nat}
    (h : ∀ row ∈ rows, row.id < nextId) : StoreInv (start rows nextId) where
  below := h
  pushed := by simp [start]
  done := by simp [start]
  open_ := by simp [start]
  once := List.nodup_nil
  source := by simp [start]
  aligned := by simp [start]
  inserted := by
    intro row hMem position hLabel
    obtain ⟨_, -, hNone⟩ := List.mem_map.mp (List.of_mem_zip hMem).1
    rw [← hNone] at hLabel
    contradiction
  seen := by simp [start]

theorem stable_start (rows : List MessageRow) (nextId : Nat) :
    Stable (start rows nextId) where
  distinct := List.nodup_nil
  unused := by simp [start]
  agree := by simp [start]

/-! ## The steps -/

/-- A step that begins an append. -/
theorem step_begin (s : StoreRun) (message : Message) :
    step s (.begin message) = some { s with
      store := { s.store with
        memory := { messages := s.store.memory.messages ++ [message] } },
      inFlight := s.inFlight.insert (s.store.memory.messages.length + 1)
        (message, .ofMessage (s.store.memory.messages.length + 1) message) } := by
  rw [step, beginAppend_eq]

/-- The two ends of an append. -/
theorem step_finish_cases {s s' : StoreRun} {position : Nat} {io : AppendIo}
    (h : step s (.finish position io) = some s') :
    ∃ message stored, s.inFlight.lookup position = some (message, stored) ∧
      ((io.inserts message = true ∧ s' = { s with
          store := { s.store with
            rows := s.store.rows ++ [.ofMessage s.store.nextId io.createdAt message],
            nextId := s.store.nextId + 1 },
          inFlight := s.inFlight.erase position,
          origins := s.origins ++ [some position],
          returned := s.returned ++
            [{ position := position, id := s.store.nextId,
               taken := s.store.rows.any fun row => row.id == s.store.nextId }] }) ∨
        (io.inserts message = false ∧ s' = { s with
          inFlight := s.inFlight.erase position,
          returned := s.returned ++
            [{ position := position, id := stored.id,
               taken := s.store.rows.any fun row => row.id == stored.id }] })) := by
  obtain ⟨⟨message, stored⟩, hLookup, hEq⟩ := Option.map_eq_some_iff.mp h
  refine ⟨message, stored, hLookup, ?_⟩
  dsimp only at hEq
  rw [finishAppend_eq] at hEq
  cases hInserts : io.inserts message with
  | true =>
      rw [hInserts] at hEq
      exact .inl ⟨rfl, hEq.symm⟩
  | false =>
      rw [hInserts] at hEq
      exact .inr ⟨rfl, hEq.symm⟩

/-- A message enters the vector. -/
theorem StoreInv.begin {s : StoreRun} (h : StoreInv s) (message : Message) :
    StoreInv { s with
      store := { s.store with
        memory := { messages := s.store.memory.messages ++ [message] } },
      inFlight := s.inFlight.insert (s.store.memory.messages.length + 1)
        (message, .ofMessage (s.store.memory.messages.length + 1) message) } := by
  have hGrown : (s.store.memory.messages ++ [message]).length =
      s.store.memory.messages.length + 1 := by simp
  refine
    { below := h.below
      pushed := ?_
      done := ?_
      open_ := ?_
      once := h.once
      source := h.source
      aligned := h.aligned
      inserted := h.inserted
      seen := h.seen }
  · intro position other stored hLookup
    have hInsert : (s.inFlight.insert (s.store.memory.messages.length + 1) _).lookup
      position = some (other, stored) := hLookup
    rw [UnorderedMap.lookup_insert] at hInsert
    show position ≤ (s.store.memory.messages ++ [message]).length ∧ _
    split at hInsert
    · rename_i hPosition
      rw [hGrown, hPosition]
      rw [← (Prod.mk.inj (Option.some.inj hInsert)).2]
      exact ⟨Nat.le_refl _, rfl⟩
    · obtain ⟨hOld, hId⟩ := h.pushed position other stored hInsert
      exact ⟨by omega, hId⟩
  · intro entry hMem
    have hOld := h.done entry hMem
    show entry.position ≤ (s.store.memory.messages ++ [message]).length
    omega
  · intro position pending hLookup entry hMem
    have hInsert : (s.inFlight.insert (s.store.memory.messages.length + 1) _).lookup
      position = some pending := hLookup
    rw [UnorderedMap.lookup_insert] at hInsert
    split at hInsert
    · have hOld := h.done entry hMem
      omega
    · exact h.open_ position pending hInsert entry hMem

/-- The return of an append, whichever id it returns. -/
theorem StoreInv.finish {s s' : StoreRun} (h : StoreInv s) {message : Message}
    {stored : StoredMessage} {entry : Returned}
    (hLookup : s.inFlight.lookup entry.position = some (message, stored))
    (hMemory : s'.store.memory = s.store.memory)
    (hFlight : s'.inFlight = s.inFlight.erase entry.position)
    (hReturned : s'.returned = s.returned ++ [entry]) (hReported : s'.reported = s.reported)
    (hRows : ∀ row ∈ s.store.rows, row ∈ s'.store.rows)
    (hBelow : ∀ row ∈ s'.store.rows, row.id < s'.store.nextId)
    (hSource : entry.id = entry.position ∨ ∃ row ∈ s'.store.rows, row.id = entry.id)
    (hAligned : s'.origins.length = s'.store.rows.length)
    (hLabels : ∀ row ∈ s'.labelled,
      row ∈ s.labelled ∨ (row.1 = some entry.position ∧ entry.id = row.2.id)) :
    StoreInv s' := by
  have hFlying : ∀ position pending, s'.inFlight.lookup position = some pending →
      position ≠ entry.position ∧ s.inFlight.lookup position = some pending := by
    intro position pending hOther
    rw [hFlight, UnorderedMap.lookup_erase] at hOther
    split at hOther
    · contradiction
    · rename_i hNe
      exact ⟨hNe, hOther⟩
  have hOld : ∀ old ∈ s.returned, old ∈ s'.returned := by
    intro old hMem
    rw [hReturned]
    exact List.mem_append_left _ hMem
  have hNew : entry ∈ s'.returned := by
    rw [hReturned]
    exact List.mem_append_right _ (List.mem_singleton_self entry)
  have hCases : ∀ other ∈ s'.returned, other ∈ s.returned ∨ other = entry := by
    intro other hMem
    rw [hReturned, List.mem_append, List.mem_singleton] at hMem
    exact hMem
  constructor
  · exact hBelow
  · intro position other stored' hOther
    rw [hMemory]
    exact h.pushed position other stored' (hFlying position _ hOther).2
  · intro other hMem
    rw [hMemory]
    rcases hCases other hMem with hOther | hEq
    · exact h.done other hOther
    · rw [hEq]
      exact (h.pushed entry.position message stored hLookup).1
  · intro position flying hFlies other hMem
    obtain ⟨hNe, hStill⟩ := hFlying position flying hFlies
    rcases hCases other hMem with hOther | hEq
    · exact h.open_ position flying hStill other hOther
    · rw [hEq]
      exact hNe.symm
  · rw [hReturned, List.map_append, List.map_singleton, List.nodup_append]
    refine ⟨h.once, List.nodup_singleton _, ?_⟩
    intro a ha b hb
    obtain ⟨other, hOther, hPosition⟩ := List.mem_map.mp ha
    rw [List.mem_singleton.mp hb, ← hPosition]
    exact h.open_ entry.position _ hLookup other hOther
  · intro other hMem
    rcases hCases other hMem with hOther | hEq
    · rcases h.source other hOther with hSame | ⟨row, hRow, hId⟩
      · exact .inl hSame
      · exact .inr ⟨row, hRows row hRow, hId⟩
    · rw [hEq]
      exact hSource
  · exact hAligned
  · intro row hRow position hLabel
    rcases hLabels row hRow with hBefore | ⟨hPosition, hId⟩
    · obtain ⟨other, hOther, hBoth⟩ := h.inserted row hBefore position hLabel
      exact ⟨other, hOld other hOther, hBoth⟩
    · rw [hPosition] at hLabel
      exact ⟨entry, hNew, Option.some.inj hLabel, hId⟩
  · intro report hMem
    rw [hReported] at hMem
    rcases h.seen report hMem with hSame | ⟨other, hOther, hBoth⟩
    · exact .inl hSame
    · exact .inr ⟨other, hOld other hOther, hBoth⟩

/-- What a page read from the table reports: the labelled rows under their ids. -/
theorem reports_of_acquired {s : StoreRun} (h : StoreInv s) (query : PageQuery) {io : QueryIo}
    (hAcquired : io.acquired = true) :
    s.reports query io = (labelledRows query io s.labelled).filterMap fun row =>
      row.1.map fun position => (position, row.2.id) := by
  have hRows : s.labelled.map Prod.snd = s.store.rows :=
    List.map_snd_zip (Nat.le_of_eq h.aligned.symm)
  rw [StoreRun.reports, if_pos hAcquired, page_of_acquired s.store hAcquired,
    ← map_snd_labelledRows s.store query io hRows, List.map_map, zip_map_self,
    List.filterMap_map]
  rfl

/-- What a page read from the vector reports: the messages that it covers, under their
positions. -/
theorem mem_reports_of_fallback {s : StoreRun} {query : PageQuery} {io : QueryIo}
    (hAcquired : io.acquired = false) {report : Nat × Nat} :
    report ∈ s.reports query io ↔
      report.2 = report.1 ∧ covers query s.store.memory report.1 = true := by
  have hReports : s.reports query io = (labelledMessages query s.store.memory).map
      fun message => (message.1, message.2.id) := by
    rw [StoreRun.reports, if_neg (by simp [hAcquired]), page_of_fallback s.store hAcquired,
      ← map_snd_labelledMessages, zip_map_self, List.map_map]
    rfl
  have hId : ∀ message ∈ labelledMessages query s.store.memory, message.2.id = message.1 :=
    fun message hMem => mem_positioned (mem_labelledMessages.mp hMem).1
  rw [hReports, covers_iff, List.mem_map]
  constructor
  · rintro ⟨message, hMem, rfl⟩
    exact ⟨hId message hMem, message, hMem, rfl⟩
  · rintro ⟨hSame, message, hMem, hPosition⟩
    exact ⟨message, hMem, Prod.ext hPosition ((hId message hMem).trans
      (hPosition.trans hSame.symm))⟩

/-- A row that a page reports is one of an append that has returned its id. -/
theorem StoreInv.reports {s : StoreRun} (h : StoreInv s) {query : PageQuery} {io : QueryIo}
    (hAcquired : io.acquired = true) {report : Nat × Nat} (hMem : report ∈ s.reports query io) :
    ∃ entry ∈ s.returned, entry.position = report.1 ∧ entry.id = report.2 := by
  rw [reports_of_acquired h query hAcquired] at hMem
  obtain ⟨row, hRow, hReport⟩ := List.mem_filterMap.mp hMem
  obtain ⟨position, hLabel, rfl⟩ := Option.map_eq_some_iff.mp hReport
  exact h.inserted row (mem_labelledRows hRow) position hLabel

/-- A page changes nothing but what was reported. -/
theorem StoreInv.page {s : StoreRun} (h : StoreInv s) (query : PageQuery) (io : QueryIo) :
    StoreInv { s with reported := s.reported ++ s.reports query io } where
  below := h.below
  pushed := h.pushed
  done := h.done
  open_ := h.open_
  once := h.once
  source := h.source
  inserted := h.inserted
  aligned := h.aligned
  seen := by
    intro report hMem
    rcases List.mem_append.mp hMem with hOld | hNew
    · exact h.seen report hOld
    · cases hAcquired : io.acquired with
      | true => exact .inr (h.reports hAcquired hNew)
      | false => exact .inl ((mem_reports_of_fallback hAcquired).mp hNew).1

/-- Every step keeps the invariant. -/
theorem step_storeInv (s : StoreRun) (a : Action) (s' : StoreRun) (h : StoreInv s)
    (hStep : step s a = some s') : StoreInv s' := by
  cases a with
  | begin message =>
      rw [step_begin] at hStep
      rw [← Option.some.inj hStep]
      exact h.begin message
  | finish position io =>
      obtain ⟨message, stored, hLookup, ⟨_, hEq⟩ | ⟨_, hEq⟩⟩ := step_finish_cases hStep
      · rw [hEq]
        refine h.finish hLookup rfl rfl rfl rfl (fun row => List.mem_append_left _) ?_ ?_ ?_ ?_
        · intro row hMem
          show row.id < s.store.nextId + 1
          rcases List.mem_append.mp hMem with hOld | hNew
          · have := h.below row hOld
            omega
          · rw [List.mem_singleton.mp hNew]
            exact Nat.lt_succ_self s.store.nextId
        · exact .inr ⟨_, List.mem_append_right _ (List.mem_singleton_self _), rfl⟩
        · simp [h.aligned]
        · intro row hRow
          have hRow : row ∈ (s.origins ++ [some position]).zip (s.store.rows ++
            [.ofMessage s.store.nextId io.createdAt message]) := hRow
          rw [List.zip_append h.aligned] at hRow
          rcases List.mem_append.mp hRow with hOld | hNew
          · exact .inl hOld
          · rw [List.mem_singleton.mp hNew]
            exact .inr ⟨rfl, rfl⟩
      · rw [hEq]
        obtain ⟨-, hId⟩ := h.pushed position message stored hLookup
        exact h.finish hLookup rfl rfl rfl rfl (fun _ hRow => hRow) h.below (.inl hId)
          h.aligned fun _ hRow => .inl hRow
  | page query io =>
      rw [← Option.some.inj hStep]
      exact h.page query io

/-! ## When a step keeps the ids stable -/

theorem stable_finish_iff {s s' : StoreRun} {entry : Returned}
    (hReturned : s'.returned = s.returned ++ [entry])
    (hReported : s'.reported = s.reported) :
    Stable s' ↔ Stable s ∧ (∀ old ∈ s.returned, old.id ≠ entry.id) ∧ entry.taken = false ∧
      ∀ report ∈ s.reported, entry.position = report.1 → entry.id = report.2 := by
  have hMem : ∀ other, other ∈ s'.returned ↔ other ∈ s.returned ∨ other = entry := by
    intro other
    rw [hReturned, List.mem_append, List.mem_singleton]
  have hNodup : (s'.returned.map Returned.id).Nodup ↔
      (s.returned.map Returned.id).Nodup ∧ ∀ old ∈ s.returned, old.id ≠ entry.id := by
    rw [hReturned, List.map_append, List.map_singleton, List.nodup_append]
    simp
  constructor
  · intro h
    obtain ⟨hDistinct, hFresh⟩ := hNodup.mp h.distinct
    refine ⟨⟨hDistinct, ?_, ?_⟩, hFresh, ?_, ?_⟩
    · exact fun old hOld => h.unused old ((hMem old).mpr (.inl hOld))
    · intro report hReport old hOld
      exact h.agree report (by rw [hReported]; exact hReport) old ((hMem old).mpr (.inl hOld))
    · exact h.unused entry ((hMem entry).mpr (.inr rfl))
    · intro report hReport
      exact h.agree report (by rw [hReported]; exact hReport) entry
        ((hMem entry).mpr (.inr rfl))
  · rintro ⟨h, hFresh, hTaken, hAgree⟩
    refine ⟨hNodup.mpr ⟨h.distinct, hFresh⟩, ?_, ?_⟩
    · intro other hOther
      rcases (hMem other).mp hOther with hOld | hEq
      · exact h.unused other hOld
      · rw [hEq]
        exact hTaken
    · intro report hReport other hOther
      rw [hReported] at hReport
      rcases (hMem other).mp hOther with hOld | hEq
      · exact h.agree report hReport other hOld
      · rw [hEq]
        exact hAgree report hReport

theorem stable_page_iff (s : StoreRun) (query : PageQuery) (io : QueryIo) :
    Stable { s with reported := s.reported ++ s.reports query io } ↔
      Stable s ∧ ∀ report ∈ s.reports query io, ∀ entry ∈ s.returned,
        entry.position = report.1 → entry.id = report.2 := by
  constructor
  · intro h
    refine ⟨⟨h.distinct, h.unused, ?_⟩, ?_⟩
    · exact fun report hReport => h.agree report (List.mem_append_left _ hReport)
    · exact fun report hReport => h.agree report (List.mem_append_right _ hReport)
  · rintro ⟨h, hNew⟩
    refine ⟨h.distinct, h.unused, ?_⟩
    intro report hReport
    rcases List.mem_append.mp hReport with hOld | hAdded
    · exact h.agree report hOld
    · exact hNew report hAdded

/-- An append returns once. -/
theorem StoreInv.entry_eq {s : StoreRun} (h : StoreInv s) {a b : Returned}
    (ha : a ∈ s.returned) (hb : b ∈ s.returned) (hPosition : a.position = b.position) :
    a = b :=
  List.inj_on_of_nodup_map h.once ha hb hPosition

theorem keepsIds_insert {s : StoreRun} {position : Nat} {message : Message}
    {stored : StoredMessage} {io : AppendIo}
    (hLookup : s.inFlight.lookup position = some (message, stored))
    (hInserts : io.inserts message = true) :
    keepsIds s (.finish position io) ↔
      (∀ old ∈ s.returned, old.id ≠ s.store.nextId) ∧
        ∀ report ∈ s.reported, position = report.1 → position = s.store.nextId := by
  rw [keepsIds, hLookup]
  dsimp only
  rw [if_pos hInserts, Bool.and_eq_true, List.all_eq_true, List.all_eq_true]
  constructor
  · rintro ⟨hFresh, hReported⟩
    refine ⟨fun old hOld => by simpa using hFresh old hOld, ?_⟩
    intro report hReport hPosition
    simpa [hPosition] using hReported report hReport
  · rintro ⟨hFresh, hReported⟩
    refine ⟨fun old hOld => by simpa using hFresh old hOld, ?_⟩
    intro report hReport
    by_cases hPosition : position = report.1
    · simp [← hReported report hReport hPosition]
    · simp [Ne.symm hPosition]

theorem keepsIds_fail {s : StoreRun} {position : Nat} {message : Message}
    {stored : StoredMessage} {io : AppendIo}
    (hLookup : s.inFlight.lookup position = some (message, stored))
    (hInserts : io.inserts message = false) :
    keepsIds s (.finish position io) ↔ ∀ row ∈ s.store.rows, row.id ≠ position := by
  rw [keepsIds, hLookup]
  dsimp only
  rw [if_neg (by simp [hInserts]), List.all_eq_true]
  simp

/-- Before an append returns, its message has been reported under its position only. -/
theorem StoreInv.reported_position {s : StoreRun} (h : StoreInv s) {position : Nat}
    {pending : Message × StoredMessage} (hLookup : s.inFlight.lookup position = some pending)
    {report : Nat × Nat} (hReport : report ∈ s.reported) (hPosition : position = report.1) :
    report.2 = position := by
  rcases h.seen report hReport with hSame | ⟨entry, hEntry, hBoth, -⟩
  · exact hSame.trans hPosition.symm
  · exact absurd (hBoth.trans hPosition.symm) (h.open_ position pending hLookup entry hEntry)

/-- An append that returns keeps the ids stable when its id is new. -/
theorem stable_finished_iff {s s' : StoreRun} (h : StoreInv s) {position : Nat} {io : AppendIo}
    (hStep : step s (.finish position io) = some s') :
    Stable s' ↔ Stable s ∧ keepsIds s (.finish position io) := by
  obtain ⟨message, stored, hLookup, ⟨hInserts, hEq⟩ | ⟨hInserts, hEq⟩⟩ :=
    step_finish_cases hStep
  · -- The row is new, whatever the table holds: its id is above all others.
    have hTaken : (s.store.rows.any fun row => row.id == s.store.nextId) = false := by
      rw [List.any_eq_false]
      intro row hRow
      have := h.below row hRow
      simp only [beq_iff_eq]
      omega
    have hReturned : s'.returned = s.returned ++
        [{ position := position, id := s.store.nextId,
           taken := s.store.rows.any fun row => row.id == s.store.nextId }] := by
      rw [hEq]
    have hReported : (∀ report ∈ s.reported, position = report.1 → s.store.nextId = report.2) ↔
        ∀ report ∈ s.reported, position = report.1 → position = s.store.nextId := by
      constructor
      · intro hAll report hReport hPosition
        rw [hAll report hReport hPosition, h.reported_position hLookup hReport hPosition]
      · intro hAll report hReport hPosition
        rw [h.reported_position hLookup hReport hPosition]
        exact (hAll report hReport hPosition).symm
    rw [keepsIds_insert hLookup hInserts, stable_finish_iff hReturned (by rw [hEq])]
    simp only [hTaken, true_and, hReported]
  · -- An id returned before is a position of its own, or the id of a row.
    obtain ⟨-, hId⟩ := h.pushed position message stored hLookup
    rw [hId] at hEq
    have hFresh : (∀ row ∈ s.store.rows, row.id ≠ position) →
        ∀ old ∈ s.returned, old.id ≠ position := by
      intro hRows old hOld hOldId
      rcases h.source old hOld with hSame | ⟨row, hRow, hRowId⟩
      · exact h.open_ position _ hLookup old hOld (hSame.symm.trans hOldId)
      · exact hRows row hRow (hRowId.trans hOldId)
    have hReported : ∀ report ∈ s.reported, position = report.1 → position = report.2 :=
      fun report hReport hPosition => (h.reported_position hLookup hReport hPosition).symm
    have hTaken : (s.store.rows.any fun row => row.id == position) = false ↔
        ∀ row ∈ s.store.rows, row.id ≠ position := by
      simp
    have hReturned : s'.returned = s.returned ++
        [{ position := position, id := position,
           taken := s.store.rows.any fun row => row.id == position }] := by
      rw [hEq]
    rw [keepsIds_fail hLookup hInserts, stable_finish_iff hReturned (by rw [hEq])]
    constructor
    · exact fun hAll => ⟨hAll.1, hTaken.mp hAll.2.2.1⟩
    · exact fun hAll => ⟨hAll.1, hFresh hAll.2, hTaken.mpr hAll.2, hReported⟩

/-- A page keeps the ids stable when it is read from the table, or covers no append that has
returned another id than its position. -/
theorem stable_paged_iff {s : StoreRun} (h : StoreInv s) (query : PageQuery) (io : QueryIo) :
    Stable { s with reported := s.reported ++ s.reports query io } ↔
      Stable s ∧ keepsIds s (.page query io) := by
  rw [stable_page_iff, keepsIds]
  cases hAcquired : io.acquired with
  | true =>
      -- A row in the table has the id that its append has returned.
      constructor
      · exact fun hAll => ⟨hAll.1, rfl⟩
      · rintro ⟨hStable, _⟩
        refine ⟨hStable, ?_⟩
        intro report hReport entry hEntry hPosition
        obtain ⟨origin, hOrigin, hSame, hId⟩ := h.reports hAcquired hReport
        rw [h.entry_eq hEntry hOrigin (hPosition.trans hSame.symm)]
        exact hId
  | false =>
      have hAll : (s.returned.all fun entry => entry.id == entry.position ||
          !covers query s.store.memory entry.position) = true ↔
          ∀ entry ∈ s.returned, covers query s.store.memory entry.position = true →
            entry.id = entry.position := by
        simp only [List.all_eq_true, Bool.or_eq_true, beq_iff_eq, Bool.not_eq_true',
          ← Bool.not_eq_true, or_comm (b := ¬_), ← imp_iff_not_or]
      rw [Bool.false_or, hAll]
      simp only [mem_reports_of_fallback hAcquired]
      constructor
      · rintro ⟨hStable, hReports⟩
        refine ⟨hStable, fun entry hEntry hCovers => ?_⟩
        exact hReports (entry.position, entry.position) ⟨rfl, hCovers⟩ entry hEntry rfl
      · rintro ⟨hStable, hEntries⟩
        refine ⟨hStable, ?_⟩
        rintro report ⟨hSame, hCovers⟩ entry hEntry hPosition
        rw [← hPosition] at hCovers
        rw [hEntries entry hEntry hCovers, hSame, hPosition]

/-- A step keeps the ids stable exactly when it meets the condition. -/
theorem step_stable_iff (s : StoreRun) (a : Action) (s' : StoreRun) (h : StoreInv s)
    (hStep : step s a = some s') : Stable s' ↔ Stable s ∧ keepsIds s a := by
  cases a with
  | begin message =>
      rw [step_begin] at hStep
      rw [← Option.some.inj hStep]
      constructor
      · exact fun hStable => ⟨⟨hStable.distinct, hStable.unused, hStable.agree⟩, rfl⟩
      · exact fun hStable => ⟨hStable.1.distinct, hStable.1.unused, hStable.1.agree⟩
  | finish position io => exact stable_finished_iff h hStep
  | page query io =>
      rw [← Option.some.inj hStep]
      exact stable_paged_iff h query io

/-! ## All runs -/

/-- For every table whose counter is above its ids, and every run of appends and
page queries over it with any pattern of failures: the message ids are one
stable key exactly when every step meets `keepsIds`. -/
theorem ids_stable_iff (rows : List MessageRow) (nextId : Nat)
    (hTable : ∀ row ∈ rows, row.id < nextId) (acts : List Action) (s : StoreRun)
    (hRun : run step (start rows nextId) acts = some s) :
    Stable s ↔ StepsMeet step (fun s a => keepsIds s a) (start rows nextId) acts := by
  have hIff := run_iff_stepsMeet step_storeInv step_stable_iff acts _ s
    (storeInv_start hTable) hRun
  rw [hIff]
  exact ⟨fun h => h.2, fun h => ⟨stable_start rows nextId, h⟩⟩

/-- A message of a conversation that was there before the start. -/
def oldRow : MessageRow :=
  .ofMessage 1 (ascii "2024-01-01 00:00:00")
    { type := .directChat, senderId := 1, receiverId := 2, body := ascii "old" }

/-- A direct message. -/
def hello : Message :=
  { type := .directChat, senderId := 1, receiverId := 2, body := ascii "hello" }

/-- Two appends that insert, the second one first; a page of the table, and a page of the
vector that is too short for the message whose id is not its position. -/
def twoPages : List Action :=
  [.begin hello, .begin hello, .finish 2 {}, .finish 1 {}, .page (.direct 1 2 20 0) {},
    .page (.direct 1 2 1 0) { acquired := false }]

theorem ids_stable_iff_twoPages :
    ∃ s, run step (start [oldRow] 2) twoPages = some s ∧
      s.returned.map Returned.id = [2, 3] ∧ s.reported = [(1, 3), (2, 2), (2, 2)] ∧
      Stable s := by
  obtain ⟨s, hRun, hView⟩ := Option.map_eq_some_iff.mp
    (show (run step (start [oldRow] 2) twoPages).map
          (fun s => (s.returned.map Returned.id, s.reported)) =
        some ([2, 3], [(1, 3), (2, 2), (2, 2)]) by
      decide +kernel)
  injection hView with hIds hReported
  refine ⟨s, hRun, hIds, hReported, ?_⟩
  apply (ids_stable_iff [oldRow] 2 (by decide +kernel) _ s hRun).mpr
  decide +kernel

/-- The pool has no connection for the first append after a restart: it returns
the id of the old message. -/
theorem ids_collide :
    ∃ s, run step (start [oldRow] 2) [.begin hello, .finish 1 { acquired := false }] =
        some s ∧
      s.returned = [{ position := 1, id := 1, taken := true }] ∧
      oldRow ∈ s.store.rows ∧ oldRow.id = 1 ∧ ¬ Stable s := by
  obtain ⟨s, hRun, hView⟩ := Option.map_eq_some_iff.mp
    (show (run step (start [oldRow] 2)
      [.begin hello, .finish 1 { acquired := false }]).map
        (fun s => (s.returned, decide (oldRow ∈ s.store.rows))) =
        some ([{ position := 1, id := 1, taken := true }], true) by
      decide +kernel)
  injection hView with hReturned hRow
  refine ⟨s, hRun, hReturned, of_decide_eq_true hRow, rfl, ?_⟩
  intro hStable
  have hTaken := hStable.unused { position := 1, id := 1, taken := true }
    (by rw [hReturned]; exact List.mem_singleton_self _)
  contradiction

end CppChat.Ports.StableIds
