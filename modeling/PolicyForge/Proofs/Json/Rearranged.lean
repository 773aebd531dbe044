import PolicyForge.Proofs.Json.Same
import PolicyForge.Proofs.Lists

namespace PolicyForge.Json

mutual

/-- The same value, in whatever order the items of arrays stand. -/
inductive Rearranged : Json → Json → Prop where
  | refl (value : Json) : Rearranged value value
  | array {items items' reordered : List Json} (hitems : RearrangedItems items items')
      (hperm : items'.Perm reordered) : Rearranged (.array items) (.array reordered)
  | object {members members' : List (String × Json)} (hmembers : RearrangedMembers members members') :
      Rearranged (.object members) (.object members')

/-- Items one by one the same, but for the order inside them. -/
inductive RearrangedItems : List Json → List Json → Prop where
  | nil : RearrangedItems [] []
  | cons {item item' : Json} {items items' : List Json} (hitem : Rearranged item item')
      (hitems : RearrangedItems items items') : RearrangedItems (item :: items) (item' :: items')

/-- Members with the same keys in the same order, and under each the same but for the order inside
it. -/
inductive RearrangedMembers : List (String × Json) → List (String × Json) → Prop where
  | nil : RearrangedMembers [] []
  | cons {key : String} {value value' : Json} {members members' : List (String × Json)}
      (hvalue : Rearranged value value') (hmembers : RearrangedMembers members members') :
      RearrangedMembers ((key, value) :: members) ((key, value') :: members')

end

theorem rearrangedItems_refl (items : List Json) : RearrangedItems items items := by
  induction items with
  | nil => exact .nil
  | cons item items ih => exact .cons (.refl item) ih

theorem rearranged_ofTexts {texts texts' : List String} (hperm : texts.Perm texts') :
    Rearranged (ofTexts texts) (ofTexts texts') :=
  .array (rearrangedItems_refl _) (hperm.map string)

theorem rearrangedMembers_of_forall₂ {members members' : List (String × Json)}
    (hmembers : List.Forall₂ (fun x y => x.1 = y.1 ∧ Rearranged x.2 y.2) members members') :
    RearrangedMembers members members' := by
  induction hmembers with
  | nil => exact .nil
  | @cons x y _ _ hmember _ ih =>
    obtain ⟨key, value⟩ := x
    obtain ⟨_, value'⟩ := y
    obtain ⟨rfl, hvalue⟩ := hmember
    exact .cons hvalue ih

/-- Members in the order of their keys. -/
def ordered {β : Type} (members : List (String × β)) : List (String × β) :=
  members.mergeSort fun a b => decide (a.1 ≤ b.1)

theorem ordered_pairwise {β : Type} (members : List (String × β)) :
    ((ordered members).map (·.1)).Pairwise (· ≤ ·) :=
  List.pairwise_map.mpr (Lists.pairwise_mergeSort_le Prod.fst members)

/-- Sorting brings entries under the same keys beside each other. -/
theorem forall₂_ordered {β γ : Type} {related : β → γ → Prop} {xs : List (String × β)}
    {ys : List (String × γ)} (hkeys : (xs.map (·.1)).Perm (ys.map (·.1)))
    (hrelated : ∀ x ∈ xs, ∀ y ∈ ys, x.1 = y.1 → related x.2 y.2) :
    List.Forall₂ (fun x y => x.1 = y.1 ∧ related x.2 y.2) (ordered xs) (ordered ys) := by
  have hxs : (ordered xs).Perm xs := List.mergeSort_perm xs _
  have hys : (ordered ys).Perm ys := List.mergeSort_perm ys _
  have hsame : (ordered xs).map (·.1) = (ordered ys).map (·.1) := by
    have hperm := (hxs.map (·.1)).trans (hkeys.trans (hys.map (·.1)).symm)
    refine hperm.eq_of_pairwise ?_ (ordered_pairwise xs) (ordered_pairwise ys)
    exact fun _ _ _ _ hle hge => String.le_antisymm hle hge
  rw [← List.forall₂_eq_eq_eq, List.forall₂_map_left_iff, List.forall₂_map_right_iff,
    List.forall₂_iff_zip] at hsame
  obtain ⟨hlength, hzip⟩ := hsame
  rw [List.forall₂_iff_zip]
  refine ⟨hlength, fun {x y} hmem => ?_⟩
  obtain ⟨hx, hy⟩ := List.of_mem_zip hmem
  have hkey := hzip hmem
  exact ⟨hkey, hrelated x (hxs.mem_iff.mp hx) y (hys.mem_iff.mp hy) hkey⟩

/-- Objects with the same keys are the same once sorted, but for the order inside arrays, when their
values are so under each key. -/
theorem rearranged_sorted_object {α β : Type} (xs : List α) (ys : List β) (name : α → String)
    (name' : β → String) (write : α → Json) (write' : β → Json)
    (hnames : (xs.map name).Perm (ys.map name'))
    (hvalues : ∀ x ∈ xs, ∀ y ∈ ys, name x = name' y →
      Rearranged (write x).sorted (write' y).sorted) :
    Rearranged (object (xs.map fun x => (name x, write x))).sorted
      (object (ys.map fun y => (name' y, write' y))).sorted := by
  rw [sorted, sorted, sortedMembers_eq_map, sortedMembers_eq_map, List.map_map, List.map_map]
  refine .object (rearrangedMembers_of_forall₂ (forall₂_ordered ?_ ?_))
  · simpa only [List.map_map, Function.comp_def] using hnames
  · simp only [List.forall_mem_map, Function.comp_apply]
    exact hvalues

end PolicyForge.Json
