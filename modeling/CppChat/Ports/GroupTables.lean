import CppChat.Ports.GroupMembership

/-!
# Groups and members on MySQL

With a connection pool the members are rows of `group_members`, whose primary key is the
pair of group and user and whose users have to be rows of `users`, and the groups are rows
of `groups`.  Any call on the database may fail, and then the operation reports a database
error, finds nothing, or lists only what it had fetched.

`INSERT IGNORE` adds one row, or none where the row is there already or the user is not in
`users`, and in both cases it succeeds.  `DELETE` says how many rows are gone.  An `INSERT`
into `groups` adds one row under the next auto-increment id, or fails without effect.  A name of
more characters than the column has is cut if it ends in as many spaces, and else refused.

## Main results

* `Stands.call`: a call on the table answers and changes it as the relation has it, or fails
  and changes nothing.
* `membersTable_refines`: the same for every sequence of calls, with what the queries show
  when all goes well and what they may show when it does not.
* `GroupsTable.findGroup_creates`: which of the groups that were created are found.
-/

namespace CppChat.Ports.Groups

open CppChat.Verified
open CppChat.Verified.Transition

/-! ## The table of members -/

/-- The rows of `group_members`; the primary key admits a pair once. -/
structure MembersTable where
  rows : List (Nat × Nat) := []
  nodup : rows.Nodup := by exact .nil

/-- The calls of one operation on the database: whether the pool gives a connection, whether
the statement is set up, executed and its result bound, and the fetches.  Fetches beyond the
list succeed. -/
structure GroupMemberIo where
  acquired : Bool := true
  prepared : Bool := true
  executed : Bool := true
  resultBound : Bool := true
  fetches : List Bool := []
deriving DecidableEq, Repr

/-- The statement is executed. -/
def GroupMemberIo.executes (io : GroupMemberIo) : Bool := io.acquired && io.prepared && io.executed

/-- All fetches succeed as well. -/
structure GroupMemberIo.Succeeds (io : GroupMemberIo) : Prop where
  executes : io.executes = true
  resultBound : io.resultBound = true
  fetches : ∀ fetch ∈ io.fetches, fetch = true

/-- The fetch loop: a failed fetch ends it. -/
def fetchIds : List Bool → List Nat → List Nat
  | _, [] => []
  | [], ids => ids
  | true :: fetches, id :: rest => id :: fetchIds fetches rest
  | false :: _, _ :: _ => []

namespace MembersTable

/-- `INSERT IGNORE`, and the number of affected rows. -/
def insertIgnore (known : Nat → Bool) (table : MembersTable) (groupId userId : Nat) :
    Nat × MembersTable :=
  if h : (groupId, userId) ∈ table.rows then (0, table)
  else if known userId then
    (1, { rows := table.rows ++ [(groupId, userId)]
          nodup := by
            rw [List.nodup_append]
            refine ⟨table.nodup, List.nodup_singleton _, ?_⟩
            rintro row hRow row' hRow' rfl
            rw [List.mem_singleton] at hRow'
            exact h (hRow' ▸ hRow) })
  else (0, table)

/-- `DELETE … WHERE group_id = ? AND user_id = ?`, and the number of affected rows. -/
def delete (table : MembersTable) (groupId userId : Nat) : Nat × MembersTable :=
  (table.rows.count (groupId, userId),
    { rows := table.rows.filter fun row => row ≠ (groupId, userId)
      nodup := table.nodup.filter _ })

/-- `join_group` on the table: an `INSERT IGNORE`, after which no new row means that
the user was a member already. -/
def joinGroup (known : Nat → Bool) (io : GroupMemberIo) (table : MembersTable)
    (groupId userId : Nat) : Except Bytes Bool × MembersTable :=
  if !io.acquired then (.error (ascii "database error"), table)
  else if !io.prepared then (.error (ascii "database error"), table)
  else if !io.executed then (.error (ascii "database error"), table)
  else
    let (affectedRows, table') := table.insertIgnore known groupId userId
    (.ok (affectedRows == 0), table')

/-- `leave_group` on the table: a `DELETE` that finds no row means that there was no
member. -/
def leaveGroup (io : GroupMemberIo) (table : MembersTable) (groupId userId : Nat) :
    Except Bytes Unit × MembersTable :=
  if !io.acquired then (.error (ascii "database error"), table)
  else if !io.prepared then (.error (ascii "database error"), table)
  else if !io.executed then (.error (ascii "database error"), table)
  else
    let (affectedRows, table') := table.delete groupId userId
    if affectedRows = 0 then (.error (ascii "not a member of this group"), table')
    else (.ok (), table')

/-- `SELECT 1 … LIMIT 1`, and whether a row was fetched. -/
def isGroupMember (io : GroupMemberIo) (table : MembersTable) (groupId userId : Nat) : Bool :=
  io.executes && io.resultBound && (io.fetches.head?.getD true) &&
    decide ((groupId, userId) ∈ table.rows)

/-- `SELECT user_id … ORDER BY user_id ASC` -/
def loadGroupMembers (io : GroupMemberIo) (table : MembersTable) (groupId : Nat) : List Nat :=
  if io.executes && io.resultBound then
    fetchIds io.fetches
      (((table.rows.filter fun row => row.1 == groupId).map Prod.snd).insertionSort (· ≤ ·))
  else []

/-- `SELECT group_id … ORDER BY group_id ASC` -/
def loadUserGroups (io : GroupMemberIo) (table : MembersTable) (userId : Nat) : List Nat :=
  if io.executes && io.resultBound then
    fetchIds io.fetches
      (((table.rows.filter fun row => row.2 == userId).map Prod.fst).insertionSort (· ≤ ·))
  else []

/-- One call on the table. -/
def call (known : Nat → Bool) (io : GroupMemberIo) (table : MembersTable) :
    MemberCall → GroupMemberResult × MembersTable
  | .join groupId userId =>
      let result := table.joinGroup known io groupId userId
      (.ofJoin result.1, result.2)
  | .leave groupId userId =>
      let result := table.leaveGroup io groupId userId
      (.ofLeave result.1, result.2)

/-! ## What the statements do -/

/-- The rows after an `INSERT IGNORE`. -/
theorem mem_insertIgnore (known : Nat → Bool) (table : MembersTable) (groupId userId : Nat)
    (row : Nat × Nat) :
    row ∈ (table.insertIgnore known groupId userId).2.rows ↔
      row ∈ table.rows ∨ row = (groupId, userId) ∧ known userId = true := by
  unfold insertIgnore
  split
  · rename_i hRow
    constructor
    · exact Or.inl
    · rintro (hOld | ⟨rfl, -⟩)
      · exact hOld
      · exact hRow
  · split
    · rename_i hKnown
      simp [hKnown]
    · rename_i hKnown
      simp [hKnown]

/-- No row was inserted: it was there, or the user has no account. -/
theorem insertIgnore_fst (known : Nat → Bool) (table : MembersTable) (groupId userId : Nat) :
    ((table.insertIgnore known groupId userId).1 == 0) =
      (decide ((groupId, userId) ∈ table.rows) || !known userId) := by
  unfold insertIgnore
  split
  · rename_i hRow
    simp [hRow]
  · rename_i hRow
    cases hKnown : known userId <;> simp [hRow]

/-- The rows after a `DELETE`. -/
theorem mem_delete (table : MembersTable) (groupId userId : Nat) (row : Nat × Nat) :
    row ∈ (table.delete groupId userId).2.rows ↔ row ≠ (groupId, userId) ∧ row ∈ table.rows := by
  rw [delete, List.mem_filter, decide_eq_true_iff, and_comm]

theorem delete_fst (table : MembersTable) (groupId userId : Nat) :
    (table.delete groupId userId).1 = 0 ↔ (groupId, userId) ∉ table.rows :=
  List.count_eq_zero

/-- The operations on a database that answers. -/
theorem joinGroup_eq {io : GroupMemberIo} (h : io.executes = true) (known : Nat → Bool)
    (table : MembersTable) (groupId userId : Nat) :
    table.joinGroup known io groupId userId =
      (.ok (decide ((groupId, userId) ∈ table.rows) || !known userId),
        (table.insertIgnore known groupId userId).2) := by
  simp only [GroupMemberIo.executes, Bool.and_eq_true] at h
  rw [← insertIgnore_fst, joinGroup, h.1.1, h.1.2, h.2]
  rfl

theorem leaveGroup_eq {io : GroupMemberIo} (h : io.executes = true) (table : MembersTable)
    (groupId userId : Nat) :
    table.leaveGroup io groupId userId =
      (if (groupId, userId) ∈ table.rows then .ok ()
        else .error (ascii "not a member of this group"), (table.delete groupId userId).2) := by
  simp only [GroupMemberIo.executes, Bool.and_eq_true] at h
  rw [leaveGroup, h.1.1, h.1.2, h.2]
  by_cases hRow : (groupId, userId) ∈ table.rows
  · rw [if_pos hRow]
    exact if_neg (mt (table.delete_fst groupId userId).mp (not_not_intro hRow))
  · rw [if_neg hRow]
    exact if_pos ((table.delete_fst groupId userId).mpr hRow)

/-- A database that does not answer, and a table that stays. -/
theorem call_of_not_executes {io : GroupMemberIo} (h : io.executes = false)
    (known : Nat → Bool) (table : MembersTable) (c : MemberCall) :
    table.call known io c = ({ reason := ascii "database error" }, table) := by
  unfold GroupMemberIo.executes at h
  cases c <;> unfold call joinGroup leaveGroup <;>
    cases hAcquired : io.acquired <;> cases hPrepared : io.prepared <;>
      cases hExecuted : io.executed <;> simp_all <;> rfl

end MembersTable

/-! ## The relation behind the table -/

/-- What the calls do to the relation on MySQL: a user without an account joins nothing, and
is told to have been a member before. -/
def MemberRelation.callKnown (known : Nat → Bool) (relation : MemberRelation) :
    MemberCall → GroupMemberResult × MemberRelation
  | .join groupId userId =>
      if known userId then MemberRelation.call relation (.join groupId userId)
      else ({ success := true, alreadyMember := true }, relation)
  | .leave groupId userId => MemberRelation.call relation (.leave groupId userId)

/-- A call whose database call fails is reported, and does nothing. -/
def MemberRelation.callOr (known : Nat → Bool) (relation : MemberRelation)
    (c : GroupMemberIo × MemberCall) : GroupMemberResult × MemberRelation :=
  if c.1.executes then MemberRelation.callKnown known relation c.2
  else ({ reason := ascii "database error" }, relation)

/-- The rows are the pairs of the relation, and every member has an account. -/
structure Stands (known : Nat → Bool) (table : MembersTable) (relation : MemberRelation) :
    Prop where
  rows : ∀ row, row ∈ table.rows ↔ row ∈ relation
  known : ∀ row ∈ table.rows, known row.2 = true

namespace Stands

variable {known : Nat → Bool} {table : MembersTable} {relation : MemberRelation}

/-- A table without rows and an empty relation. -/
theorem empty : Stands known {} ∅ where
  rows := by simp
  known := by simp

/-- Joining inserts the pair, for a user with an account. -/
theorem joinGroup (h : Stands known table relation) (groupId userId : Nat) :
    Stands known (table.insertIgnore known groupId userId).2
      (MemberRelation.callKnown known relation (.join groupId userId)).2 where
  rows := by
    intro row
    rw [MembersTable.mem_insertIgnore, h.rows, MemberRelation.callKnown]
    split
    · rename_i hKnown
      simp only [MemberRelation.call, Finset.mem_insert, hKnown, and_true, or_comm]
    · rename_i hKnown
      simp [hKnown]
  known := by
    intro row hRow
    rcases (table.mem_insertIgnore known groupId userId row).mp hRow with hOld | ⟨rfl, hKnown⟩
    · exact h.known row hOld
    · exact hKnown

/-- Leaving erases the pair. -/
theorem leaveGroup (h : Stands known table relation) (groupId userId : Nat) :
    Stands known (table.delete groupId userId).2 (relation.erase (groupId, userId)) where
  rows := by
    intro row
    rw [MembersTable.mem_delete, h.rows, Finset.mem_erase]
  known := fun row hRow => h.known row ((table.mem_delete groupId userId row).mp hRow).2

/-- A call answers and changes the table as the relation has it, or fails and changes
nothing. -/
theorem call (h : Stands known table relation) (c : GroupMemberIo × MemberCall) :
    (table.call known c.1 c.2).1 = (MemberRelation.callOr known relation c).1 ∧
      Stands known (table.call known c.1 c.2).2 (MemberRelation.callOr known relation c).2 := by
  obtain ⟨io, c⟩ := c
  cases hExecutes : io.executes with
  | false =>
      rw [MembersTable.call_of_not_executes hExecutes, MemberRelation.callOr, hExecutes]
      exact ⟨rfl, h⟩
  | true =>
      rw [MemberRelation.callOr, if_pos hExecutes]
      cases c with
      | join groupId userId =>
          have hTable := h.joinGroup groupId userId
          rw [MembersTable.call, MembersTable.joinGroup_eq hExecutes]
          refine ⟨?_, hTable⟩
          rw [MemberRelation.callKnown]
          cases hKnown : known userId with
          | false => rw [Bool.not_false, Bool.or_true]; rfl
          | true =>
              rw [Bool.not_true, Bool.or_false, decide_eq_decide.mpr (h.rows _)]
              rfl
      | leave groupId userId =>
          rw [MembersTable.call, MembersTable.leaveGroup_eq hExecutes,
            MemberRelation.callKnown, MemberRelation.call]
          by_cases hRow : (groupId, userId) ∈ table.rows
          · rw [if_pos hRow, if_pos ((h.rows _).mp hRow)]
            exact ⟨rfl, h.leaveGroup groupId userId⟩
          · have hMember := mt (h.rows (groupId, userId)).mpr hRow
            have hTable := h.leaveGroup groupId userId
            rw [Finset.erase_eq_of_notMem hMember] at hTable
            rw [if_neg hRow, if_neg hMember]
            exact ⟨rfl, hTable⟩

end Stands

/-! ## Queries -/

theorem fetchIds_prefix (fetches : List Bool) : ∀ ids, fetchIds fetches ids <+: ids := by
  induction fetches with
  | nil => intro ids; cases ids <;> exact List.prefix_refl _
  | cons fetch fetches ih =>
      intro ids
      cases ids with
      | nil => cases fetch <;> exact List.prefix_refl _
      | cons id rest =>
          cases fetch with
          | true => exact List.prefix_cons_inj id |>.mpr (ih rest)
          | false => exact List.nil_prefix

theorem fetchIds_of_forall {fetches : List Bool} (h : ∀ fetch ∈ fetches, fetch = true) :
    ∀ ids, fetchIds fetches ids = ids := by
  induction fetches with
  | nil => intro ids; cases ids <;> rfl
  | cons fetch fetches ih =>
      obtain ⟨rfl, hRest⟩ := List.forall_mem_cons.mp h
      intro ids
      cases ids with
      | nil => rfl
      | cons id rest => rw [fetchIds, ih hRest]

/-- The column of the rows that are selected, in ascending order. -/
theorem ascending_select {rows : List (Nat × Nat)} (hNodup : rows.Nodup)
    {select : Nat × Nat → Bool} {column : Nat × Nat → Nat}
    (hKey : ∀ row ∈ rows, ∀ row' ∈ rows, select row = true → select row' = true →
      column row = column row' → row = row') :
    AscendingListOf (fun k => ∃ row ∈ rows, select row = true ∧ column row = k)
      (((rows.filter select).map column).insertionSort (· ≤ ·)) := by
  have hColumn : ((rows.filter select).map column).Nodup := by
    refine (hNodup.filter _).map_on ?_
    intro row hRow row' hRow' hSame
    obtain ⟨hMem, hSelect⟩ := List.mem_filter.mp hRow
    obtain ⟨hMem', hSelect'⟩ := List.mem_filter.mp hRow'
    exact hKey row hMem row' hMem' hSelect hSelect' hSame
  refine (AscendingListOf.insertionSort hColumn).congr fun k => ?_
  simp only [List.mem_map, List.mem_filter, and_assoc]

/-- What a query lists that may fail on its way. -/
structure ListsFrom (io : GroupMemberIo) (p : Nat → Prop) (listed : List Nat) : Prop where
  part : ∃ whole, AscendingListOf p whole ∧ listed <+: whole
  whole : io.Succeeds → AscendingListOf p listed

theorem listsFrom_fetchIds (io : GroupMemberIo) {p : Nat → Prop} {ids : List Nat}
    (h : AscendingListOf p ids) :
    ListsFrom io p (if io.executes && io.resultBound then fetchIds io.fetches ids else []) where
  part := by
    refine ⟨ids, h, ?_⟩
    split
    · exact fetchIds_prefix _ _
    · exact List.nil_prefix
  whole := by
    intro hIo
    rw [if_pos (by rw [hIo.executes, hIo.resultBound]; rfl), fetchIds_of_forall hIo.fetches]
    exact h

/-- What the queries show of the relation: all of it when the database answers, and nothing
that is not in it when it fails. -/
structure ShowsOn (table : MembersTable) (relation : MemberRelation) : Prop where
  isMember : ∀ io groupId userId, table.isGroupMember io groupId userId = true →
    (groupId, userId) ∈ relation
  isMember_iff : ∀ io groupId userId, io.Succeeds →
    (table.isGroupMember io groupId userId = true ↔ (groupId, userId) ∈ relation)
  members : ∀ io groupId, ListsFrom io (fun userId => (groupId, userId) ∈ relation)
    (table.loadGroupMembers io groupId)
  groups : ∀ io userId, ListsFrom io (fun groupId => (groupId, userId) ∈ relation)
    (table.loadUserGroups io userId)

theorem Stands.shows {known : Nat → Bool} {table : MembersTable} {relation : MemberRelation}
    (h : Stands known table relation) : ShowsOn table relation where
  isMember := by
    intro io groupId userId hMember
    rw [MembersTable.isGroupMember, Bool.and_eq_true, decide_eq_true_iff] at hMember
    exact (h.rows _).mp hMember.2
  isMember_iff := by
    intro io groupId userId hIo
    have hFetch : io.fetches.head?.getD true = true := by
      cases hFetches : io.fetches with
      | nil => rfl
      | cons fetch fetches => exact hIo.fetches fetch (hFetches ▸ List.mem_cons_self)
    rw [MembersTable.isGroupMember, hIo.executes, hIo.resultBound, hFetch, ← h.rows]
    simp
  members := by
    intro io groupId
    refine listsFrom_fetchIds io ((ascending_select table.nodup ?_).congr ?_)
    · rintro row - row' - hGroup hGroup' hUser
      exact Prod.ext ((beq_iff_eq.mp hGroup).trans (beq_iff_eq.mp hGroup').symm) hUser
    · intro userId
      rw [← h.rows]
      constructor
      · rintro ⟨row, hRow, hGroup, rfl⟩
        exact beq_iff_eq.mp hGroup ▸ hRow
      · exact fun hRow => ⟨_, hRow, beq_self_eq_true _, rfl⟩
  groups := by
    intro io userId
    refine listsFrom_fetchIds io ((ascending_select table.nodup ?_).congr ?_)
    · rintro row - row' - hUser hUser' hGroup
      exact Prod.ext hGroup ((beq_iff_eq.mp hUser).trans (beq_iff_eq.mp hUser').symm)
    · intro groupId
      rw [← h.rows]
      constructor
      · rintro ⟨row, hRow, hUser, rfl⟩
        exact beq_iff_eq.mp hUser ▸ hRow
      · exact fun hRow => ⟨_, hRow, beq_self_eq_true _, rfl⟩

/-- After every sequence of calls, whichever of their database calls have failed: the answers
have been those of the relation that the others made, the queries list it when the database
answers, and show nothing else when it does not. -/
theorem membersTable_refines (known : Nat → Bool) (calls : List (GroupMemberIo × MemberCall)) :
    (answers (fun table c => MembersTable.call known c.1 table c.2) {} calls).1 =
        (answers (MemberRelation.callOr known) ∅ calls).1 ∧
      ShowsOn (answers (fun table c => MembersTable.call known c.1 table c.2) {} calls).2
        (answers (MemberRelation.callOr known) ∅ calls).2 := by
  have hStep : ∀ table relation (c : GroupMemberIo × MemberCall), Stands known table relation →
      (table.call known c.1 c.2).1 = (MemberRelation.callOr known relation c).1 ∧
        Stands known (table.call known c.1 c.2).2 (MemberRelation.callOr known relation c).2 :=
    fun table relation c h => h.call c
  obtain ⟨hAnswers, hLast⟩ := answers_simulation hStep calls {} ∅ .empty
  exact ⟨hAnswers, hLast.shows⟩

/-! ## The table of groups -/

/-- A group without its time stamp, as `create_group` returns it. -/
def GroupRecord.withoutTime (group : GroupRecord) : GroupRecord := { group with createdAt := [] }

/-- The byte does not continue a character. -/
def beginsCharacter (b : UInt8) : Bool := b &&& 0xC0 != 0x80

/-- The characters a text encodes: its bytes but for those that continue a character. -/
def characters (text : Bytes) : Nat := text.countP beginsCharacter

/-- The bytes of the first characters of a text. -/
def takeCharacters : Nat → Bytes → Bytes
  | _, [] => []
  | n, b :: rest =>
      if beginsCharacter b then
        if n = 0 then [] else b :: takeCharacters (n - 1) rest
      else b :: takeCharacters n rest

/-- The characters a `VARCHAR(128)` column holds. -/
def kNameCharacters : Nat := 128

/-- What the column keeps of a name. -/
def keptName (name : Bytes) : Bytes := takeCharacters kNameCharacters name

/-- In the strict mode MySQL cuts spaces at the end of a text that is too long, and nothing
else. -/
def fitsName (name : Bytes) : Bool := (name.drop (keptName name).length).all (· == 32)

/-- A group as its row is kept. -/
def GroupRecord.kept (group : GroupRecord) : GroupRecord :=
  { group with name := keptName group.name }

/-- A text of few enough characters is taken whole. -/
theorem takeCharacters_eq_self {text : Bytes} :
    ∀ {n : Nat}, characters text ≤ n → takeCharacters n text = text := by
  induction text with
  | nil => exact fun _ => rfl
  | cons b rest ih =>
      intro n hFew
      have hCount : characters (b :: rest) =
        characters rest + if beginsCharacter b then 1 else 0 := List.countP_cons
      rw [takeCharacters]
      split
      · rename_i hBegins
        rw [if_pos hBegins] at hCount
        rw [if_neg (by omega), ih (by omega)]
      · rename_i hContinues
        rw [if_neg hContinues] at hCount
        rw [ih (by omega)]

/-- A name that fits is kept as it is. -/
theorem keptName_of_le {name : Bytes} (h : characters name ≤ kNameCharacters) :
    keptName name = name :=
  takeCharacters_eq_self h

/-- A name of few enough characters fits. -/
theorem fitsName_of_le {name : Bytes} (h : characters name ≤ kNameCharacters) :
    fitsName name = true := by
  rw [fitsName, keptName_of_le h, List.drop_length]
  rfl

-- 128 letters and a space fit, and the space is cut
example : fitsName (List.replicate 128 97 ++ [32]) = true ∧
    keptName (List.replicate 128 97 ++ [32]) = List.replicate 128 97 := by decide +kernel

/-- The bytes of `char name[129]`, into which a name is fetched. -/
def kNameBufferSize : Nat := 129

/-- The rows of `groups` and the auto-increment counter. -/
structure GroupsTable where
  rows : List GroupRecord := []
  nextId : Nat := 1
  ids_nodup : (rows.map GroupRecord.id).Nodup := by exact .nil
  id_lt : ∀ row ∈ rows, row.id < nextId := by exact List.forall_mem_nil _

/-- The calls of one operation on the database, and the time stamp of a new row. -/
structure GroupIo where
  acquired : Bool := true
  prepared : Bool := true
  executed : Bool := true
  fetched : Bool := true
  createdAt : Bytes := []
deriving DecidableEq, Repr

/-- All calls of the operation succeed. -/
def GroupIo.Succeeds (io : GroupIo) : Prop :=
  io.acquired ∧ io.prepared ∧ io.executed ∧ io.fetched

namespace GroupsTable

/-- `INSERT INTO groups` -/
def insert (table : GroupsTable) (name : Bytes) (ownerId : Nat) (createdAt : Bytes) :
    GroupsTable where
  rows := table.rows ++
    [{ id := table.nextId, name := name, ownerId := ownerId, createdAt := createdAt }]
  nextId := table.nextId + 1
  ids_nodup := by
    rw [List.map_append, List.nodup_append]
    refine ⟨table.ids_nodup, List.nodup_singleton _, ?_⟩
    rintro id hId id' hId' rfl
    obtain ⟨row, hRow, rfl⟩ := List.mem_map.mp hId
    have hLt := table.id_lt row hRow
    have hEq : row.id = table.nextId := List.mem_singleton.mp hId'
    omega
  id_lt := by
    intro row hRow
    rcases List.mem_append.mp hRow with hOld | hNew
    · exact Nat.lt_succ_of_lt (table.id_lt row hOld)
    · rw [List.mem_singleton.mp hNew]
      exact Nat.lt_succ_self _

/-- Create a group under the next id: its record, or the reason it was refused. -/
def createGroup (known : Nat → Bool) (io : GroupIo) (table : GroupsTable) (name : Bytes)
    (ownerId : Nat) : Except Bytes GroupRecord × GroupsTable :=
  if name.isEmpty then (.error (ascii "group name is required"), table)
  else if !io.acquired then (.error (ascii "database error"), table)
  else if !io.prepared then (.error (ascii "database error"), table)
  else if io.executed && fitsName name && known ownerId then
    (.ok { id := table.nextId, name := name, ownerId := ownerId },
      table.insert (keptName name) ownerId io.createdAt)
  else (.error (ascii "database error"), table)

/-- A name that does not fit the buffer is truncated, and a fetch that truncates is a fetch
that fails. -/
def findGroup (io : GroupIo) (table : GroupsTable) (groupId : Nat) : Option GroupRecord :=
  if !io.acquired then none
  else if !io.prepared then none
  else if !io.executed then none
  else
    match table.rows.find? fun row => row.id == groupId with
    | none => none
    | some row =>
        if io.fetched && decide (row.name.length ≤ kNameBufferSize) then some row else none

/-- `group_exists`. -/
def groupExists (io : GroupIo) (table : GroupsTable) (groupId : Nat) : Bool :=
  (table.findGroup io groupId).isSome

/-- An id selects at most one row. -/
theorem find?_id (table : GroupsTable) (groupId : Nat) (row : GroupRecord) :
    (table.rows.find? fun row => row.id == groupId) = some row ↔
      row ∈ table.rows ∧ row.id = groupId := by
  constructor
  · intro hFind
    have hId := List.find?_some hFind
    exact ⟨List.mem_of_find?_eq_some hFind, beq_iff_eq.mp hId⟩
  · rintro ⟨hRow, rfl⟩
    cases hFind : table.rows.find? fun other => other.id == row.id with
    | none => exact absurd (beq_self_eq_true row.id) (List.find?_eq_none.mp hFind row hRow)
    | some found =>
        have hMem := List.mem_of_find?_eq_some hFind
        have hId := List.find?_some hFind
        rw [List.inj_on_of_nodup_map table.ids_nodup hMem hRow (beq_iff_eq.mp hId)]

/-- On a database that answers, a group is found where its name fits the buffer. -/
theorem findGroup_eq_some {io : GroupIo} (table : GroupsTable) {groupId : Nat}
    {row : GroupRecord} :
    table.findGroup io groupId = some row ↔
      io.Succeeds ∧ row ∈ table.rows ∧ row.id = groupId ∧
        row.name.length ≤ kNameBufferSize := by
  unfold findGroup GroupIo.Succeeds
  cases io.acquired with
  | false => simp
  | true =>
  cases io.prepared with
  | false => simp
  | true =>
  cases io.executed with
  | false => simp
  | true =>
      cases hFind : table.rows.find? fun row => row.id == groupId with
      | none =>
          have hNone := List.find?_eq_none.mp hFind
          simp only [beq_iff_eq] at hNone
          simp only [Bool.not_true, Bool.false_eq_true, if_false, reduceCtorEq, false_iff]
          rintro ⟨-, hRow, hId, -⟩
          exact hNone row hRow hId
      | some found =>
          have hFound := (table.find?_id groupId found).mp hFind
          have hRow : row ∈ table.rows ∧ row.id = groupId ↔ found = row := by
            rw [← table.find?_id, hFind, Option.some.injEq]
          rw [← and_assoc (a := row ∈ table.rows), hRow]
          simp only [Bool.not_true, Bool.false_eq_true, if_false, true_and]
          cases io.fetched with
          | false => simp
          | true =>
              simp only [Bool.true_and, decide_eq_true_eq, true_and]
              split
              · rename_i hFits
                rw [Option.some.injEq]
                exact ⟨fun hEq => ⟨hEq, hEq ▸ hFits⟩, And.left⟩
              · rename_i hLong
                constructor
                · intro hNone
                  contradiction
                · rintro ⟨rfl, hFits⟩
                  exact absurd hFits hLong

/-! ## Groups that are created -/

/-- One `create_group`. -/
structure CreateCall where
  io : GroupIo := {}
  name : Bytes
  ownerId : Nat

/-- One call of `create_group`. -/
def create (known : Nat → Bool) (table : GroupsTable) (c : CreateCall) :
    Except Bytes GroupRecord × GroupsTable :=
  table.createGroup known c.io c.name c.ownerId

/-- The table has what was created, as its columns keep it, with the time it was. -/
theorem rows_create (known : Nat → Bool) (table : GroupsTable) (c : CreateCall) :
    (table.create known c).2.rows.map GroupRecord.withoutTime =
      table.rows.map GroupRecord.withoutTime ++
        (table.create known c).1.toOption.toList.map GroupRecord.kept := by
  unfold create createGroup
  split
  · exact (List.append_nil _).symm
  split
  · exact (List.append_nil _).symm
  split
  · exact (List.append_nil _).symm
  split
  · exact List.map_append
  · exact (List.append_nil _).symm

theorem rows_creates (known : Nat → Bool) (calls : List CreateCall) : ∀ table : GroupsTable,
    (answers (create known) table calls).2.rows.map GroupRecord.withoutTime =
      table.rows.map GroupRecord.withoutTime ++
        ((answers (create known) table calls).1.filterMap Except.toOption).map
          GroupRecord.kept := by
  induction calls with
  | nil => exact fun table => (List.append_nil _).symm
  | cons c rest ih =>
      intro table
      rw [answers, ih, rows_create, List.append_assoc, List.filterMap_cons]
      cases (table.create known c).1 <;> rfl

/-- The group has been created by one of the calls. -/
def Created (results : List (Except Bytes GroupRecord)) (groupId : Nat) (group : GroupRecord) :
    Prop :=
  .ok group ∈ results ∧ group.id = groupId

/-- After every sequence of `create_group`, whichever of their database calls have failed,
`find_group` finds exactly what was created, but for spaces the column has cut off the name, and
except for names too long for its buffer; where one of its own calls fails it finds nothing.
`group_exists` says the same. -/
theorem findGroup_creates (known : Nat → Bool) (calls : List CreateCall) (io : GroupIo)
    (groupId : Nat) :
    let run := answers (create known) {} calls
    (∀ found, (run.2.findGroup io groupId).map GroupRecord.withoutTime = some found ↔
      io.Succeeds ∧ found.name.length ≤ kNameBufferSize ∧
        ∃ group, Created run.1 groupId group ∧ found = group.kept) ∧
    (run.2.groupExists io groupId = true ↔
      io.Succeeds ∧ ∃ group, Created run.1 groupId group ∧
        (keptName group.name).length ≤ kNameBufferSize) := by
  intro run
  have hRows := rows_creates known calls {}
  have hCreated : ∀ found : GroupRecord, (∃ row ∈ run.2.rows, row.withoutTime = found) ↔
      ∃ group, .ok group ∈ run.1 ∧ group.kept = found := by
    intro found
    rw [← List.mem_map, hRows, List.map_nil, List.nil_append, List.mem_map]
    refine exists_congr fun group => and_congr_left fun _ => ?_
    rw [List.mem_filterMap]
    constructor
    · rintro ⟨answer, hMem, hAnswer⟩
      cases answer with
      | error reason => contradiction
      | ok created => exact Option.some.inj hAnswer ▸ hMem
    · exact fun hMem => ⟨_, hMem, rfl⟩
  have hFinds : ∀ found, (run.2.findGroup io groupId).map GroupRecord.withoutTime = some found ↔
      io.Succeeds ∧ found.name.length ≤ kNameBufferSize ∧
        ∃ group, Created run.1 groupId group ∧ found = group.kept := by
    intro found
    rw [Option.map_eq_some_iff]
    simp only [findGroup_eq_some]
    constructor
    · rintro ⟨row, ⟨hAnswers, hRow, hId, hFits⟩, rfl⟩
      obtain ⟨group, hMem, hKept⟩ := (hCreated _).mp ⟨row, hRow, rfl⟩
      have hGroupId : group.kept.id = groupId := by
        rw [hKept]
        exact hId
      exact ⟨hAnswers, hFits, group, ⟨hMem, hGroupId⟩, hKept.symm⟩
    · rintro ⟨hAnswers, hFits, group, ⟨hMem, hId⟩, rfl⟩
      obtain ⟨row, hRow, hKept⟩ := (hCreated _).mpr ⟨group, hMem, rfl⟩
      have hRowId : row.withoutTime.id = groupId := by
        rw [hKept]
        exact hId
      have hRowFits : row.withoutTime.name.length ≤ kNameBufferSize := by
        rw [hKept]
        exact hFits
      exact ⟨row, ⟨hAnswers, hRow, hRowId, hRowFits⟩, hKept⟩
  refine ⟨hFinds, ?_⟩
  rw [groupExists, ← Option.isSome_map (f := GroupRecord.withoutTime), Option.isSome_iff_exists]
  simp only [hFinds]
  constructor
  · rintro ⟨found, hAnswers, hFits, group, hGroup, rfl⟩
    exact ⟨hAnswers, group, hGroup, hFits⟩
  · rintro ⟨hAnswers, group, hGroup, hFits⟩
    exact ⟨group.kept, hAnswers, hFits, group, hGroup, rfl⟩

end GroupsTable
end CppChat.Ports.Groups
