import CppChat.Verified.Bytes
import CppChat.Verified.UnorderedMap

/-!
# Groups and group members

Two stores, linked by nothing but the group id: the group store allocates ids
and keeps names and owners, the member store keeps a set of users for any id a
client names.  Both are ported in their in-memory mode.
-/

namespace CppChat.Ports.Groups

open CppChat.Verified

/-- A group. -/
structure GroupRecord where
  id : Nat := 0
  name : Bytes := []
  ownerId : Nat := 0
  createdAt : Bytes := []
deriving DecidableEq, Repr

/-- The groups in memory, and the next id. -/
structure GroupStore where
  memoryGroups : UnorderedMap Nat GroupRecord := ∅
  nextGroupId : Nat := 1

namespace GroupStore

/-- Create a group under the next id: its record, or the reason it was
refused. -/
def createGroup (store : GroupStore) (name : Bytes) (ownerId : Nat) :
    Except Bytes GroupRecord × GroupStore :=
  if name.isEmpty then (.error (ascii "group name is required"), store)
  else
    let group : GroupRecord := { id := store.nextGroupId, name := name, ownerId := ownerId }
    (.ok group,
      { memoryGroups := store.memoryGroups.insert group.id group
        nextGroupId := store.nextGroupId + 1 })

/-- `find_group`. -/
def findGroup (store : GroupStore) (groupId : Nat) : Option GroupRecord :=
  store.memoryGroups.lookup groupId

end GroupStore

/-- The members of each group, in memory. -/
structure GroupMemberStore where
  memoryMembers : UnorderedMap Nat (UnorderedSet Nat) := ∅

namespace GroupMemberStore

/-- The member set of a group; an id without an entry has none. -/
def membersOf (store : GroupMemberStore) (groupId : Nat) : UnorderedSet Nat :=
  (store.memoryMembers.lookup groupId).getD .empty

/-- Join a group; the result says whether the user was a member already. -/
def joinGroup (store : GroupMemberStore) (groupId userId : Nat) :
    Except Bytes Bool × GroupMemberStore :=
  (.ok ((store.membersOf groupId).contains userId),
    { memoryMembers := store.memoryMembers.insert groupId
        ((store.membersOf groupId).insert userId) })

/-- Leave a group; the last member takes the entry with it. -/
def leaveGroup (store : GroupMemberStore) (groupId userId : Nat) :
    Except Bytes Unit × GroupMemberStore :=
  match store.memoryMembers.lookup groupId with
  | none => (.error (ascii "not a member of this group"), store)
  | some members =>
      if members.contains userId then
        (.ok (),
          { memoryMembers :=
              if (members.erase userId).isEmpty then store.memoryMembers.erase groupId
              else store.memoryMembers.insert groupId (members.erase userId) })
      else (.error (ascii "not a member of this group"), store)

/-- `is_group_member`. -/
def isGroupMember (store : GroupMemberStore) (groupId userId : Nat) : Bool :=
  match store.memoryMembers.lookup groupId with
  | none => false
  | some members => members.contains userId

/-- The members of a group in ascending order. -/
def loadGroupMembers (store : GroupMemberStore) (groupId : Nat) : List Nat :=
  match store.memoryMembers.lookup groupId with
  | none => []
  | some members => members.elems.insertionSort (· ≤ ·)

/-- The groups of a user in ascending order. -/
def loadUserGroups (store : GroupMemberStore) (userId : Nat) : List Nat :=
  (store.memoryMembers.entries.filterMap fun entry =>
    if entry.2.contains userId then some entry.1 else none).insertionSort (· ≤ ·)

theorem isGroupMember_eq (store : GroupMemberStore) (groupId userId : Nat) :
    store.isGroupMember groupId userId = (store.membersOf groupId).contains userId := by
  unfold isGroupMember membersOf
  cases store.memoryMembers.lookup groupId <;> rfl

theorem mem_loadGroupMembers (store : GroupMemberStore) (groupId userId : Nat) :
    userId ∈ store.loadGroupMembers groupId ↔ userId ∈ (store.membersOf groupId).elems := by
  unfold loadGroupMembers membersOf
  cases store.memoryMembers.lookup groupId with
  | none => rfl
  | some members => exact List.mem_insertionSort _

theorem lookup_joinGroup (store : GroupMemberStore) (groupId userId g : Nat) :
    (store.joinGroup groupId userId).2.memoryMembers.lookup g =
      if g = groupId then some ((store.membersOf groupId).insert userId)
      else store.memoryMembers.lookup g :=
  UnorderedMap.lookup_insert _ _ _ _

/-- A join adds the user to the group and nobody else. -/
theorem mem_loadGroupMembers_joinGroup (store : GroupMemberStore)
    (groupId userId u : Nat) :
    u ∈ (store.joinGroup groupId userId).2.loadGroupMembers groupId ↔
      u = userId ∨ u ∈ store.loadGroupMembers groupId := by
  rw [mem_loadGroupMembers, mem_loadGroupMembers, membersOf, lookup_joinGroup, if_pos rfl]
  exact List.mem_insert_iff

/-- The first to join a group is its only member. -/
theorem loadGroupMembers_joinGroup_of_none {store : GroupMemberStore} {groupId : Nat}
    (h : store.memoryMembers.lookup groupId = none) (userId : Nat) :
    (store.joinGroup groupId userId).2.loadGroupMembers groupId = [userId] := by
  rw [loadGroupMembers, lookup_joinGroup, if_pos rfl, membersOf, h]
  rfl

/-- A leave is refused to who is no member; it takes a member out of the group. -/
theorem leaveGroup_eq (store : GroupMemberStore) (groupId userId : Nat) :
    store.leaveGroup groupId userId =
      if store.isGroupMember groupId userId then
        (.ok (),
          { memoryMembers :=
              if ((store.membersOf groupId).erase userId).isEmpty then
                store.memoryMembers.erase groupId
              else
                store.memoryMembers.insert groupId ((store.membersOf groupId).erase userId) })
      else (.error (ascii "not a member of this group"), store) := by
  unfold leaveGroup isGroupMember membersOf
  cases store.memoryMembers.lookup groupId with
  | none => rfl
  | some members => rfl

/-- A leave succeeds for members alone. -/
theorem leaveGroup_fst (store : GroupMemberStore) (groupId userId : Nat) :
    (store.leaveGroup groupId userId).1 =
      if store.isGroupMember groupId userId then .ok ()
      else .error (ascii "not a member of this group") := by
  rw [leaveGroup_eq]
  split <;> rfl

/-- Who is no member cannot change the group by leaving. -/
theorem leaveGroup_of_not_member {store : GroupMemberStore} {groupId userId : Nat}
    (h : ¬store.isGroupMember groupId userId) :
    (store.leaveGroup groupId userId).2 = store := by
  rw [leaveGroup_eq, if_neg h]

theorem lookup_leaveGroup (store : GroupMemberStore) (groupId userId g : Nat) :
    (store.leaveGroup groupId userId).2.memoryMembers.lookup g =
      if g = groupId ∧ store.isGroupMember groupId userId then
        if ((store.membersOf groupId).erase userId).isEmpty then none
        else some ((store.membersOf groupId).erase userId)
      else store.memoryMembers.lookup g := by
  by_cases hMember : store.isGroupMember groupId userId
  · rw [leaveGroup_eq, if_pos hMember]
    dsimp only
    split
    · rw [UnorderedMap.lookup_erase]
      simp only [hMember, and_true]
    · rw [UnorderedMap.lookup_insert]
      simp only [hMember, and_true]
  · rw [leaveGroup_of_not_member hMember, if_neg fun hBoth => hMember hBoth.2]

/-- A leave touches no other group. -/
theorem lookup_leaveGroup_of_ne (store : GroupMemberStore) {groupId g : Nat}
    (h : g ≠ groupId) (userId : Nat) :
    (store.leaveGroup groupId userId).2.memoryMembers.lookup g =
      store.memoryMembers.lookup g := by
  rw [lookup_leaveGroup, if_neg fun hBoth => h hBoth.1]

/-- A group without an entry cannot be left. -/
theorem leaveGroup_of_none {store : GroupMemberStore} {groupId : Nat}
    (h : store.memoryMembers.lookup groupId = none) (userId : Nat) :
    (store.leaveGroup groupId userId).2 = store := by
  rw [leaveGroup, h]

theorem isGroupMember_iff (store : GroupMemberStore) (groupId userId : Nat) :
    store.isGroupMember groupId userId = true ↔ userId ∈ store.loadGroupMembers groupId := by
  rw [mem_loadGroupMembers, isGroupMember_eq, UnorderedSet.contains, decide_eq_true_iff]

/-- The members of a group, each once. -/
theorem ascending_loadGroupMembers (store : GroupMemberStore) (groupId : Nat) :
    AscendingListOf (fun userId => store.isGroupMember groupId userId = true)
      (store.loadGroupMembers groupId) := by
  unfold loadGroupMembers isGroupMember
  cases store.memoryMembers.lookup groupId with
  | none => exact .nil fun _ => Bool.false_ne_true
  | some members =>
      exact (AscendingListOf.insertionSort members.nodup).congr fun userId =>
        (decide_eq_true_iff (p := userId ∈ members.elems)).symm

theorem nodup_loadGroupMembers (store : GroupMemberStore) (groupId : Nat) :
    (store.loadGroupMembers groupId).Nodup :=
  (store.ascending_loadGroupMembers groupId).ascending.imp fun hLt => Nat.ne_of_lt hLt

/-- The groups of a user, each once. -/
theorem ascending_loadUserGroups (store : GroupMemberStore) (userId : Nat) :
    AscendingListOf (fun groupId => store.isGroupMember groupId userId = true)
      (store.loadUserGroups userId) := by
  have hKeys := store.memoryMembers.nodup_keysWith fun members => members.contains userId
  refine (AscendingListOf.insertionSort hKeys).congr fun groupId => ?_
  rw [UnorderedMap.mem_keysWith, isGroupMember]
  cases store.memoryMembers.lookup groupId <;> simp

/-- A user's groups are those it is a member of. -/
theorem mem_loadUserGroups (store : GroupMemberStore) (userId groupId : Nat) :
    groupId ∈ store.loadUserGroups userId ↔ store.isGroupMember groupId userId = true :=
  (store.ascending_loadUserGroups userId).mem_iff groupId

/-- A join makes one user a member of one group. -/
theorem isGroupMember_joinGroup (store : GroupMemberStore) (groupId userId g u : Nat) :
    (store.joinGroup groupId userId).2.isGroupMember g u = true ↔
      (g = groupId ∧ u = userId) ∨ store.isGroupMember g u = true := by
  by_cases hg : g = groupId
  · subst hg
    rw [isGroupMember_iff, mem_loadGroupMembers_joinGroup, isGroupMember_iff]
    simp
  · unfold isGroupMember
    rw [lookup_joinGroup, if_neg hg]
    simp [hg]

/-- A group without members has no entry, and without an entry it has no members. -/
theorem elems_leaveGroup (store : GroupMemberStore) (groupId userId : Nat) :
    ((store.leaveGroup groupId userId).2.membersOf groupId).elems =
      (store.membersOf groupId).elems.erase userId := by
  by_cases hMember : store.isGroupMember groupId userId
  · rw [membersOf, lookup_leaveGroup, if_pos ⟨rfl, hMember⟩]
    split
    · rename_i hEmpty
      exact (List.isEmpty_iff.mp hEmpty).symm
    · rfl
  · rw [leaveGroup_of_not_member hMember]
    rw [isGroupMember_eq, UnorderedSet.contains, decide_eq_true_iff] at hMember
    exact (List.erase_of_not_mem hMember).symm

/-- A leave ends one user's membership of one group. -/
theorem isGroupMember_leaveGroup (store : GroupMemberStore) (groupId userId g u : Nat) :
    (store.leaveGroup groupId userId).2.isGroupMember g u = true ↔
      store.isGroupMember g u = true ∧ ¬(g = groupId ∧ u = userId) := by
  by_cases hg : g = groupId
  · subst hg
    rw [isGroupMember_eq, isGroupMember_eq, UnorderedSet.contains, elems_leaveGroup,
      decide_eq_true_iff, (store.membersOf g).nodup.mem_erase_iff]
    simp [UnorderedSet.contains, and_comm]
  · unfold isGroupMember
    rw [lookup_leaveGroup_of_ne store hg]
    simp [hg]

/-- What a leave keeps of a group has members, where what was there before had. -/
theorem isEmpty_of_lookup_leaveGroup {store : GroupMemberStore} {groupId userId g : Nat}
    {members : UnorderedSet Nat}
    (hBefore : store.memoryMembers.lookup g = some members → members.isEmpty = false)
    (h : (store.leaveGroup groupId userId).2.memoryMembers.lookup g = some members) :
    members.isEmpty = false := by
  rw [lookup_leaveGroup] at h
  split at h
  · obtain ⟨hSome, hRest⟩ := Option.ite_none_left_eq_some.mp h
    rw [← Option.some.inj hRest]
    exact eq_false_of_ne_true hSome
  · exact hBefore h

end GroupMemberStore

end CppChat.Ports.Groups
