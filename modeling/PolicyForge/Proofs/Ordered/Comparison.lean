import Mathlib.Data.Finset.Dedup
import Mathlib.Data.Finset.Lattice.Lemmas
import PolicyForge.Proofs.Ordered

namespace PolicyForge.Ordered

variable {α κ β γ : Type} [BEq α] [LawfulBEq α] [BEq κ] [LawfulBEq κ]

theorem mem_insert_iff {xs : List α} {x y : α} : y ∈ insert xs x ↔ y = x ∨ y ∈ xs := by
  unfold insert
  split
  · rename_i hmem
    rw [List.contains_iff_mem] at hmem
    exact ⟨.inr, fun h => h.elim (fun heq => heq ▸ hmem) id⟩
  · rw [List.mem_append, List.mem_singleton, or_comm]

theorem mem_insertAll_iff {xs ys : List α} {y : α} : y ∈ insertAll xs ys ↔ y ∈ xs ∨ y ∈ ys := by
  induction ys generalizing xs with
  | nil => simp [insertAll]
  | cons x ys ih =>
    have hstep : insertAll xs (x :: ys) = insertAll (insert xs x) ys := rfl
    rw [hstep, ih, mem_insert_iff, List.mem_cons, or_comm (a := y = x), or_assoc]

theorem toFinset_insert [DecidableEq α] (xs : List α) (x : α) :
    (insert xs x).toFinset = Insert.insert x xs.toFinset := by
  ext y
  rw [List.mem_toFinset, mem_insert_iff, Finset.mem_insert, List.mem_toFinset]

theorem toFinset_insertAll [DecidableEq α] (xs ys : List α) :
    (insertAll xs ys).toFinset = xs.toFinset ∪ ys.toFinset := by
  ext y
  rw [List.mem_toFinset, mem_insertAll_iff, Finset.mem_union, List.mem_toFinset, List.mem_toFinset]

/-- Lists compare as the same when one is a rearrangement of the other, as soon as the first has no
element twice. -/
theorem sameElements_iff_perm {xs ys : List α} (hxs : xs.Nodup) :
    sameElements xs ys = true ↔ xs.Perm ys := by
  simp only [sameElements, Bool.and_eq_true, beq_iff_eq, List.all_eq_true, List.contains_iff_mem]
  constructor
  · rintro ⟨hlength, hsub⟩
    exact (List.subperm_of_subset hxs hsub).perm_of_length_le (Nat.le_of_eq hlength.symm)
  · intro hperm
    exact ⟨hperm.length_eq, fun _ hx => hperm.mem_iff.mp hx⟩

/-- Lists without repetitions compare as the same just when they are the same set. -/
theorem sameElements_iff [DecidableEq α] {xs ys : List α} (hxs : xs.Nodup) (hys : ys.Nodup) :
    sameElements xs ys = true ↔ xs.toFinset = ys.toFinset := by
  rw [sameElements_iff_perm hxs]
  exact ⟨List.toFinset_eq_of_perm xs ys, List.perm_of_nodup_nodup_toFinset_eq hxs hys⟩

theorem mem_of_lookup_eq_some {entries : List (κ × β)} {key : κ} {value : β}
    (hlookup : entries.lookup key = some value) : (key, value) ∈ entries := by
  obtain ⟨before, after, rfl, _⟩ := List.lookup_eq_some_iff.mp hlookup
  exact List.mem_append_right before List.mem_cons_self

theorem isSome_lookup_iff {entries : List (κ × β)} {key : κ} :
    (entries.lookup key).isSome = true ↔ key ∈ entries.map (·.1) := by
  simp

theorem isSome_eq_of_rel {related : β → γ → Prop} {x : Option β} {y : Option γ}
    (hrel : Option.Rel related x y) : x.isSome = y.isSome := by
  cases hrel <;> rfl

/-- Lists without repeated keys have the same keys when a look-up finds something in both or in
neither. -/
theorem perm_keys_of_rel {related : β → γ → Prop} {xs : List (κ × β)} {ys : List (κ × γ)}
    (hxs : (xs.map (·.1)).Nodup) (hys : (ys.map (·.1)).Nodup)
    (hrel : ∀ key, Option.Rel related (xs.lookup key) (ys.lookup key)) :
    (xs.map (·.1)).Perm (ys.map (·.1)) := by
  rw [List.perm_ext_iff_of_nodup hxs hys]
  intro key
  rw [← isSome_lookup_iff, ← isSome_lookup_iff, isSome_eq_of_rel (hrel key)]

/-- Lists without repeated keys compare as the same just when they have matching values under the
same keys. -/
theorem sameEntries_iff {same : β → β → Bool} {xs ys : List (κ × β)} (hxs : (xs.map (·.1)).Nodup)
    (hys : (ys.map (·.1)).Nodup) : sameEntries same xs ys = true ↔
      ∀ key, Option.Rel (fun x y => same x y = true) (xs.lookup key) (ys.lookup key) := by
  simp only [sameEntries, Bool.and_eq_true, beq_iff_eq, List.all_eq_true, Option.any_eq_true]
  constructor
  · rintro ⟨hlength, hall⟩ key
    have hfound : ∀ key, key ∈ xs.map (·.1) → key ∈ ys.map (·.1) := by
      intro key hkey
      obtain ⟨entry, hentry, rfl⟩ := List.mem_map.mp hkey
      obtain ⟨value, hvalue, _⟩ := hall entry hentry
      exact isSome_lookup_iff.mp (Option.isSome_of_mem hvalue)
    have hperm : (xs.map (·.1)).Perm (ys.map (·.1)) := by
      refine (List.subperm_of_subset hxs hfound).perm_of_length_le ?_
      rw [List.length_map, List.length_map, hlength]
    cases hx : xs.lookup key with
    | some x =>
      obtain ⟨y, hy, hsame⟩ := hall _ (mem_of_lookup_eq_some hx)
      rw [hy]
      exact .some hsame
    | none =>
      have hnone : (ys.lookup key).isSome ≠ true := by
        rw [ne_eq, isSome_lookup_iff, ← hperm.mem_iff, ← isSome_lookup_iff, hx]
        simp
      rw [Option.not_isSome_iff_eq_none.mp hnone]
      exact .none
  · intro hrel
    refine ⟨by simpa using (perm_keys_of_rel hxs hys hrel).length_eq, ?_⟩
    intro entry hentry
    have hown := hrel entry.1
    rw [lookup_of_mem_of_nodup hxs hentry] at hown
    cases hy : ys.lookup entry.1 with
    | none =>
      rw [hy] at hown
      exact absurd hown Option.not_rel_some_none
    | some y =>
      rw [hy, Option.rel_some_some] at hown
      exact ⟨y, rfl, hown⟩

/-- Where look-ups find related values, or nothing in both, so do the entries with the same keys
correspond. -/
theorem entries_of_rel {related : β → γ → Prop} {xs : List (κ × β)} {ys : List (κ × γ)}
    (hxs : (xs.map (·.1)).Nodup) (hys : (ys.map (·.1)).Nodup)
    (hrel : ∀ key, Option.Rel related (xs.lookup key) (ys.lookup key)) :
    (xs.map (·.1)).Perm (ys.map (·.1)) ∧ ∀ x ∈ xs, ∀ y ∈ ys, x.1 = y.1 → related x.2 y.2 := by
  refine ⟨perm_keys_of_rel hxs hys hrel, ?_⟩
  intro x hx y hy hkey
  have hown := hrel x.1
  rwa [lookup_of_mem_of_nodup hxs hx, hkey, lookup_of_mem_of_nodup hys hy,
    Option.rel_some_some] at hown

/-- Lookups in related lists of entries find related values, or nothing in either. -/
theorem rel_lookup_of_forall₂ {related : β → γ → Prop} {xs : List (κ × β)} {ys : List (κ × γ)}
    (hentries : List.Forall₂ (fun x y => x.1 = y.1 ∧ related x.2 y.2) xs ys) (key : κ) :
    Option.Rel related (xs.lookup key) (ys.lookup key) := by
  induction hentries with
  | nil => exact .none
  | @cons x y _ _ hentry _ ih =>
    obtain ⟨own, value⟩ := x
    obtain ⟨_, other⟩ := y
    obtain ⟨rfl, hvalue⟩ := hentry
    by_cases hkey : key = own
    · rw [hkey, List.lookup_cons_self, List.lookup_cons_self]
      exact .some hvalue
    · rw [List.lookup_cons, List.lookup_cons, beq_false_of_ne hkey]
      exact ih

end PolicyForge.Ordered
