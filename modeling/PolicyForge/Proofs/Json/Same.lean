import PolicyForge.Json.Basic

namespace PolicyForge.Json

mutual

/-- The same value, in whatever order the members of objects stand. -/
inductive Same : Json → Json → Prop where
  | refl (value : Json) : Same value value
  | array {items items' : List Json} (hitems : SameItems items items') :
      Same (.array items) (.array items')
  | object {members members' reordered : List (String × Json)} (hmembers : SameMembers members members')
      (hperm : members'.Perm reordered) : Same (.object members) (.object reordered)

/-- The same items in the same order. -/
inductive SameItems : List Json → List Json → Prop where
  | nil : SameItems [] []
  | cons {item item' : Json} {items items' : List Json} (hitem : Same item item')
      (hitems : SameItems items items') : SameItems (item :: items) (item' :: items')

/-- Members with the same keys and the same values in the same order. -/
inductive SameMembers : List (String × Json) → List (String × Json) → Prop where
  | nil : SameMembers [] []
  | cons {key : String} {value value' : Json} {members members' : List (String × Json)}
      (hvalue : Same value value') (hmembers : SameMembers members members') :
      SameMembers ((key, value) :: members) ((key, value') :: members')

end

mutual

/-- Sorting the members of every object keeps the value, by the order-blind equality. -/
theorem same_sorted : (value : Json) → Same value value.sorted
  | .null => .refl _
  | .bool _ => .refl _
  | .number _ => .refl _
  | .string _ => .refl _
  | .undecodable => .refl _
  | .array items => .array (sameItems_sortedItems items)
  | .object members => .object (sameMembers_sortedMembers members) (List.mergeSort_perm ..).symm

theorem sameItems_sortedItems : (items : List Json) → SameItems items (sortedItems items)
  | [] => .nil
  | item :: items => .cons (same_sorted item) (sameItems_sortedItems items)

theorem sameMembers_sortedMembers : (members : List (String × Json)) →
    SameMembers members (sortedMembers members)
  | [] => .nil
  | (_, value) :: members => .cons (same_sorted value) (sameMembers_sortedMembers members)

end

mutual

/-- Whether the keys of each object are pairwise different, at every level. -/
def DistinctKeys : Json → Prop
  | array items => DistinctKeysItems items
  | object members => (members.map (·.1)).Nodup ∧ DistinctKeysMembers members
  | null | bool _ | number _ | string _ | undecodable => True

/-- Whether the keys are so in all items. -/
def DistinctKeysItems : List Json → Prop
  | [] => True
  | item :: items => DistinctKeys item ∧ DistinctKeysItems items

/-- Whether the keys are so in the values of all members. -/
def DistinctKeysMembers : List (String × Json) → Prop
  | [] => True
  | (_, value) :: members => DistinctKeys value ∧ DistinctKeysMembers members

end

theorem distinctKeysItems_iff {items : List Json} :
    DistinctKeysItems items ↔ ∀ item ∈ items, item.DistinctKeys := by
  induction items with
  | nil => simp [DistinctKeysItems]
  | cons item items ih => simp [DistinctKeysItems, ih]

theorem distinctKeysMembers_iff {members : List (String × Json)} :
    DistinctKeysMembers members ↔ ∀ member ∈ members, member.2.DistinctKeys := by
  induction members with
  | nil => simp [DistinctKeysMembers]
  | cons member members ih => simp [DistinctKeysMembers, ih]

theorem sortedItems_eq_map (items : List Json) : sortedItems items = items.map sorted := by
  induction items with
  | nil => rfl
  | cons item items ih => rw [sortedItems, ih, List.map_cons]

theorem sortedMembers_eq_map (members : List (String × Json)) :
    sortedMembers members = members.map fun (key, value) => (key, value.sorted) := by
  induction members with
  | nil => rfl
  | cons member members ih => rw [sortedMembers, ih, List.map_cons]

/-- The members of a sorted object are those of the object, sorted themselves. -/
theorem sorted_object (members : List (String × Json)) :
    ∃ reordered, (object members).sorted = .object reordered ∧
      reordered.Perm (members.map fun (key, value) => (key, value.sorted)) := by
  refine ⟨_, rfl, ?_⟩
  rw [← sortedMembers_eq_map]
  exact List.mergeSort_perm _ _

mutual

/-- Sorting keeps the names of each object apart. -/
theorem DistinctKeys.sorted : {value : Json} → value.DistinctKeys → value.sorted.DistinctKeys
  | .null, _ => trivial
  | .bool _, _ => trivial
  | .number _, _ => trivial
  | .string _, _ => trivial
  | .undecodable, _ => trivial
  | .array _, h => DistinctKeysItems.sorted h
  | .object members, h => by
    have hvalues := DistinctKeysMembers.sorted h.2
    have hperm : ((sortedMembers members).mergeSort fun a b => decide (a.1 ≤ b.1)).Perm
        (sortedMembers members) := List.mergeSort_perm _ _
    constructor
    · rw [(hperm.map (·.1)).nodup_iff, sortedMembers_eq_map, List.map_map]
      exact h.1
    · rw [distinctKeysMembers_iff] at hvalues ⊢
      exact fun member hmember => hvalues member (hperm.mem_iff.mp hmember)

theorem DistinctKeysItems.sorted : {items : List Json} → DistinctKeysItems items →
    DistinctKeysItems (sortedItems items)
  | [], _ => trivial
  | _ :: _, h => ⟨h.1.sorted, DistinctKeysItems.sorted h.2⟩

theorem DistinctKeysMembers.sorted : {members : List (String × Json)} →
    DistinctKeysMembers members → DistinctKeysMembers (sortedMembers members)
  | [], _ => trivial
  | _ :: _, h => ⟨h.1.sorted, DistinctKeysMembers.sorted h.2⟩

end

end PolicyForge.Json
