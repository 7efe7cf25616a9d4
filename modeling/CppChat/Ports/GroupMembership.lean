import Mathlib.Data.Finset.Insert
import Mathlib.Data.Finset.Erase
import CppChat.Verified.Transition
import CppChat.Ports.GroupStore

/-!
# Who is in which group

The member store is a map from groups to sets of users.  What it stands for is a finite
relation between groups and users: a join adds a pair, a leave takes it away, and the
three queries read the relation pair by pair, by its groups and by its users.

A message to a group is pushed to what `load_group_members` lists, and what a user has
not seen is asked for with what `load_user_groups` lists.  Both list the one relation.

## Main results

* `Represents.call`: a call answers and changes the store as the relation has it.
* `Represents.shows`: what the queries show of a relation.
* `groupMembers_refine`: both after every sequence of calls.
* `queries_eq_of_represents`: what was joined and left before leaves no trace.
-/

namespace CppChat.Ports.Groups

open CppChat.Verified
open CppChat.Verified.Transition

/-! ## Calls -/

/-- What `join_group` and `leave_group` return. -/
structure GroupMemberResult where
  success : Bool := false
  alreadyMember : Bool := false
  reason : Bytes := []
deriving DecidableEq, Repr

/-- One call that changes memberships. -/
inductive MemberCall where
  | join (groupId userId : Nat)
  | leave (groupId userId : Nat)
deriving DecidableEq, Repr

/-- The result of a join: a member that joins again is reported as such. -/
def GroupMemberResult.ofJoin : Except Bytes Bool → GroupMemberResult
  | .ok already => { success := true, alreadyMember := already }
  | .error reason => { reason := reason }

/-- The result of a leave. -/
def GroupMemberResult.ofLeave : Except Bytes Unit → GroupMemberResult
  | .ok () => { success := true }
  | .error reason => { reason := reason }

/-- One call on the store in memory. -/
def GroupMemberStore.call (store : GroupMemberStore) :
    MemberCall → GroupMemberResult × GroupMemberStore
  | .join groupId userId =>
      let result := store.joinGroup groupId userId
      (.ofJoin result.1, result.2)
  | .leave groupId userId =>
      let result := store.leaveGroup groupId userId
      (.ofLeave result.1, result.2)

/-- Who is no member is refused, and nothing changes. -/
theorem GroupMemberStore.call_leave_of_not_member {store : GroupMemberStore}
    {groupId userId : Nat} (h : ¬store.isGroupMember groupId userId) :
    store.call (.leave groupId userId) =
      ({ reason := ascii "not a member of this group" }, store) := by
  have hFirst := store.leaveGroup_fst groupId userId
  rw [if_neg h] at hFirst
  dsimp only [call]
  rw [hFirst, leaveGroup_of_not_member h]
  rfl

/-! ## The relation -/

/-- The pairs of a group and a user in it. -/
abbrev MemberRelation := Finset (Nat × Nat)

/-- What the calls do to the relation, and what they answer. -/
def MemberRelation.call (relation : MemberRelation) :
    MemberCall → GroupMemberResult × MemberRelation
  | .join groupId userId =>
      ({ success := true, alreadyMember := decide ((groupId, userId) ∈ relation) },
        insert (groupId, userId) relation)
  | .leave groupId userId =>
      if (groupId, userId) ∈ relation then
        ({ success := true }, relation.erase (groupId, userId))
      else ({ reason := ascii "not a member of this group" }, relation)

/-- The store holds the relation, and no group without members. -/
structure Represents (store : GroupMemberStore) (relation : MemberRelation) : Prop where
  holds : ∀ groupId userId,
    store.isGroupMember groupId userId = true ↔ (groupId, userId) ∈ relation
  occupied : ∀ groupId members, store.memoryMembers.lookup groupId = some members →
    members.isEmpty = false

namespace Represents

variable {store : GroupMemberStore} {relation : MemberRelation}

/-- An empty store and an empty relation. -/
theorem empty : Represents {} ∅ where
  holds := by simp [GroupMemberStore.isGroupMember]
  occupied := by simp

/-- Joining inserts the pair. -/
theorem joinGroup (h : Represents store relation) (groupId userId : Nat) :
    Represents (store.joinGroup groupId userId).2 (insert (groupId, userId) relation) where
  holds := by
    intro g u
    rw [GroupMemberStore.isGroupMember_joinGroup, h.holds, Finset.mem_insert, Prod.mk.injEq]
  occupied := by
    intro g members hLookup
    rw [GroupMemberStore.lookup_joinGroup] at hLookup
    split at hLookup
    · rw [← Option.some.inj hLookup]
      have hMem : userId ∈ ((store.membersOf groupId).insert userId).elems :=
        List.mem_insert_self
      exact List.isEmpty_eq_false_iff.mpr (List.ne_nil_of_mem hMem)
    · exact h.occupied g members hLookup

/-- Leaving erases the pair. -/
theorem leaveGroup (h : Represents store relation) (groupId userId : Nat) :
    Represents (store.leaveGroup groupId userId).2 (relation.erase (groupId, userId)) where
  holds := by
    intro g u
    rw [GroupMemberStore.isGroupMember_leaveGroup, h.holds, Finset.mem_erase, ne_eq,
      Prod.mk.injEq, and_comm]
  occupied := by
    intro g members hLookup
    exact GroupMemberStore.isEmpty_of_lookup_leaveGroup (h.occupied g members) hLookup

/-- A call answers and changes the store as the relation has it. -/
theorem call (h : Represents store relation) (c : MemberCall) :
    (store.call c).1 = (MemberRelation.call relation c).1 ∧
      Represents (store.call c).2 (MemberRelation.call relation c).2 := by
  cases c with
  | join groupId userId =>
      have hAlready : (store.membersOf groupId).contains userId =
          decide ((groupId, userId) ∈ relation) := by
        rw [← store.isGroupMember_eq, Bool.eq_iff_iff, h.holds, decide_eq_true_iff]
      refine ⟨?_, h.joinGroup groupId userId⟩
      dsimp only [GroupMemberStore.call, GroupMemberStore.joinGroup, MemberRelation.call]
      rw [hAlready]
      rfl
  | leave groupId userId =>
      dsimp only [MemberRelation.call]
      by_cases hMember : (groupId, userId) ∈ relation
      · have hFirst := store.leaveGroup_fst groupId userId
        rw [if_pos ((h.holds groupId userId).mpr hMember)] at hFirst
        dsimp only [GroupMemberStore.call]
        rw [if_pos hMember, hFirst]
        exact ⟨rfl, h.leaveGroup groupId userId⟩
      · have hNot := mt (h.holds groupId userId).mp hMember
        rw [if_neg hMember, GroupMemberStore.call_leave_of_not_member hNot]
        exact ⟨rfl, h⟩

end Represents

/-! ## Queries -/

/-- What the queries show of the relation, what is kept and what is refused. -/
structure Shows (store : GroupMemberStore) (relation : MemberRelation) : Prop where
  isMember : ∀ groupId userId,
    store.isGroupMember groupId userId = true ↔ (groupId, userId) ∈ relation
  members : ∀ groupId,
    AscendingListOf (fun userId => (groupId, userId) ∈ relation) (store.loadGroupMembers groupId)
  groups : ∀ userId,
    AscendingListOf (fun groupId => (groupId, userId) ∈ relation) (store.loadUserGroups userId)
  transposed : ∀ groupId userId,
    userId ∈ store.loadGroupMembers groupId ↔ groupId ∈ store.loadUserGroups userId
  occupied : ∀ groupId members, store.memoryMembers.lookup groupId = some members →
    members.isEmpty = false
  refused : ∀ groupId userId, (groupId, userId) ∉ relation →
    store.call (.leave groupId userId) =
      ({ reason := ascii "not a member of this group" }, store)

theorem Represents.shows {store : GroupMemberStore} {relation : MemberRelation}
    (h : Represents store relation) : Shows store relation where
  isMember := h.holds
  members := fun groupId => (store.ascending_loadGroupMembers groupId).congr (h.holds groupId)
  groups := fun userId =>
    (store.ascending_loadUserGroups userId).congr fun groupId => h.holds groupId userId
  transposed := fun groupId userId => by
    rw [← store.isGroupMember_iff, store.mem_loadUserGroups]
  occupied := h.occupied
  refused := fun groupId userId hNot =>
    GroupMemberStore.call_leave_of_not_member (mt (h.holds groupId userId).mp hNot)

/-- After every sequence of calls the answers have been those of the relation, and the
queries list it by its groups and by its users. -/
theorem groupMembers_refine (calls : List MemberCall) :
    (answers GroupMemberStore.call {} calls).1 = (answers MemberRelation.call ∅ calls).1 ∧
      Shows (answers GroupMemberStore.call {} calls).2
        (answers MemberRelation.call ∅ calls).2 := by
  have hStep : ∀ store relation c, Represents store relation →
      (store.call c).1 = (MemberRelation.call relation c).1 ∧
        Represents (store.call c).2 (MemberRelation.call relation c).2 :=
    fun store relation c h => h.call c
  obtain ⟨hAnswers, hLast⟩ := answers_simulation hStep calls {} ∅ .empty
  exact ⟨hAnswers, hLast.shows⟩

-- User 5 joins two groups, and the first of them is listed with its other member.
example :
    let store := (answers GroupMemberStore.call {} [.join 2 5, .join 1 5, .join 1 3]).2
    (store.loadGroupMembers 1, store.loadUserGroups 5) = ([3, 5], [1, 2]) := by
  decide

/-- Two stores of one relation answer every query alike, whatever led to them. -/
theorem queries_eq_of_represents {store store' : GroupMemberStore} {relation : MemberRelation}
    (h : Represents store relation) (h' : Represents store' relation) :
    store.isGroupMember = store'.isGroupMember ∧
      store.loadGroupMembers = store'.loadGroupMembers ∧
      store.loadUserGroups = store'.loadUserGroups := by
  refine ⟨?_, ?_, ?_⟩
  · funext groupId userId
    rw [Bool.eq_iff_iff, h.holds, h'.holds]
  · funext groupId
    exact (h.shows.members groupId).unique (h'.shows.members groupId)
  · funext userId
    exact (h.shows.groups userId).unique (h'.shows.groups userId)

end CppChat.Ports.Groups
