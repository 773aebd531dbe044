import Mathlib.Data.List.Forall2
import Mathlib.Logic.Relation
import Mathlib.Order.RelClasses

namespace PolicyForge.Lists

theorem exists_lookup_zip {α β : Type} [BEq α] [LawfulBEq α] {keys : List α} {values : List β}
    {key : α} (hmem : key ∈ keys) (hlength : keys.length ≤ values.length) :
    ∃ value ∈ values, (keys.zip values).lookup key = some value := by
  induction keys generalizing values with
  | nil => simp at hmem
  | cons first keys ih =>
    cases values with
    | nil => simp at hlength
    | cons value values =>
      by_cases hkey : key = first
      · subst hkey
        exact ⟨value, List.mem_cons_self, List.lookup_cons_self⟩
      · have hrest := List.mem_of_ne_of_mem hkey hmem
        obtain ⟨found, hfound, hlookup⟩ := ih hrest (by simpa using hlength)
        refine ⟨found, List.mem_cons_of_mem value hfound, ?_⟩
        rw [List.zip_cons_cons, List.lookup_cons, beq_false_of_ne hkey]
        exact hlookup

/-- What is looked up in a zipped list is one of its keys and one of its values. -/
theorem mem_of_lookup_zip {α β : Type} [BEq α] [LawfulBEq α] {keys : List α} {values : List β}
    {key : α} {value : β} (hlookup : (keys.zip values).lookup key = some value) :
    key ∈ keys ∧ value ∈ values := by
  obtain ⟨before, after, heq, _⟩ := List.lookup_eq_some_iff.mp hlookup
  have hmem : (key, value) ∈ keys.zip values := heq ▸ List.mem_append_right before List.mem_cons_self
  exact List.of_mem_zip hmem

/-- A lookup by a computed key is a search for the first element with this key. -/
theorem lookup_map {α β γ : Type} [BEq β] [LawfulBEq β] (key : α → β) (value : α → γ) (xs : List α)
    (k : β) : (xs.map fun x => (key x, value x)).lookup k = (xs.find? (key · == k)).map value := by
  induction xs with
  | nil => rfl
  | cons x xs ih =>
    rw [List.map_cons, List.lookup_cons, List.find?_cons, BEq.comm]
    cases key x == k with
    | true => rfl
    | false => exact ih

/-- Renaming keys to names that are pairwise different keeps the value of every key. -/
theorem lookup_zip_renamed {α β γ : Type} [BEq α] [LawfulBEq α] [BEq β] [LawfulBEq β]
    {keys : List α} {names : List β} (values : List γ) {key : α} {name : β} (hnodup : names.Nodup)
    (hlookup : (keys.zip names).lookup key = some name) :
    (names.zip values).lookup name = (keys.zip values).lookup key := by
  induction keys generalizing names values with
  | nil => simp at hlookup
  | cons first keys ih =>
    cases names with
    | nil => simp at hlookup
    | cons own names =>
      cases values with
      | nil => simp
      | cons value values =>
        simp only [List.zip_cons_cons, List.lookup_cons] at hlookup ⊢
        by_cases hkey : key = first
        · subst hkey
          simp only [BEq.rfl] at hlookup ⊢
          obtain rfl := Option.some.inj hlookup
          simp
        · simp only [beq_false_of_ne hkey] at hlookup ⊢
          obtain ⟨hown, hnames⟩ := List.nodup_cons.mp hnodup
          have hne : name ≠ own := by
            rintro rfl
            exact hown (mem_of_lookup_zip hlookup).2
          simp only [beq_false_of_ne hne]
          exact ih values hnames hlookup

theorem exists_of_mem_forall₂ {α β : Type} {related : α → β → Prop} {xs : List α} {ys : List β}
    (hrelated : List.Forall₂ related xs ys) {y : β} (hy : y ∈ ys) : ∃ x ∈ xs, related x y := by
  induction hrelated with
  | nil => simp at hy
  | @cons x own xs ys hfirst _ ih =>
    obtain rfl | hrest := List.mem_cons.mp hy
    · exact ⟨x, List.mem_cons_self, hfirst⟩
    · obtain ⟨found, hfound, hy⟩ := ih hrest
      exact ⟨found, List.mem_cons_of_mem x hfound, hy⟩

/-- Related lists are related position by position. -/
theorem exists_getElem?_of_forall₂ {α β : Type} {related : α → β → Prop} {xs : List α} {ys : List β}
    (hrelated : List.Forall₂ related xs ys) {index : Nat} {x : α} (hx : xs[index]? = some x) :
    ∃ y, ys[index]? = some y ∧ related x y := by
  induction hrelated generalizing index with
  | nil => cases hx
  | cons hfirst _ ih =>
    cases index with
    | zero =>
      obtain rfl := Option.some.inj hx
      exact ⟨_, rfl, hfirst⟩
    | succ index => exact ih hx

/-- Two relations of lists in a row are one, through the list between them. -/
theorem forall₂_comp {α β γ : Type} {first : α → β → Prop} {second : β → γ → Prop} {xs : List α}
    {ys : List β} {zs : List γ} (hfirst : List.Forall₂ first xs ys)
    (hsecond : List.Forall₂ second ys zs) : List.Forall₂ (Relation.Comp first second) xs zs := by
  induction hfirst generalizing zs with
  | nil =>
    cases hsecond
    exact .nil
  | @cons x y _ _ hxy _ ih =>
    cases hsecond with
    | cons hyz hrest => exact .cons ⟨y, hxy, hyz⟩ (ih hrest)

theorem map_eq_map_of_forall₂ {α β γ : Type} {related : α → β → Prop} {f : α → γ} {g : β → γ}
    (heq : ∀ x y, related x y → f x = g y) {xs : List α} {ys : List β}
    (hrelated : List.Forall₂ related xs ys) : xs.map f = ys.map g := by
  rw [← List.forall₂_eq_eq_eq, List.forall₂_map_left_iff, List.forall₂_map_right_iff]
  exact hrelated.imp heq

/-- Lists that are followed by an element that neither has are told apart from what follows. -/
theorem append_cons_inj {α : Type} {x : α} {xs ys rest rest' : List α} (hxs : x ∉ xs) (hys : x ∉ ys)
    (heq : xs ++ x :: rest = ys ++ x :: rest') : xs = ys ∧ rest = rest' := by
  induction xs generalizing ys with
  | nil =>
    cases ys with
    | nil => exact ⟨rfl, (List.cons.inj heq).2⟩
    | cons y ys =>
      obtain ⟨rfl, -⟩ := List.cons.inj heq
      exact absurd List.mem_cons_self hys
  | cons own xs ih =>
    cases ys with
    | nil =>
      obtain ⟨rfl, -⟩ := List.cons.inj heq
      exact absurd List.mem_cons_self hxs
    | cons y ys =>
      obtain ⟨rfl, hrest⟩ := List.cons.inj heq
      obtain ⟨rfl, hbehind⟩ := ih (List.not_mem_of_not_mem_cons hxs)
        (List.not_mem_of_not_mem_cons hys) hrest
      exact ⟨rfl, hbehind⟩

/-- Where every entry is told apart from what follows it, so are the entries of a list. -/
theorem forall₂_of_flatMap_eq {α β : Type} {entry : α → List β} {related : α → α → Prop}
    (hnonempty : ∀ a, entry a ≠ [])
    (hentry : ∀ a b rest rest', entry a ++ rest = entry b ++ rest' → related a b ∧ rest = rest')
    {as bs : List α} (heq : as.flatMap entry = bs.flatMap entry) : List.Forall₂ related as bs := by
  induction as generalizing bs with
  | nil =>
    cases bs with
    | nil => exact .nil
    | cons b bs => exact absurd (List.append_eq_nil_iff.mp heq.symm).1 (hnonempty b)
  | cons a as ih =>
    cases bs with
    | nil => exact absurd (List.append_eq_nil_iff.mp heq).1 (hnonempty a)
    | cons b bs =>
      obtain ⟨hrelated, hrest⟩ := hentry a b _ _ heq
      exact .cons hrelated (ih hrest)

/-- A part of a list can be brought into any order by bringing the whole list into one. -/
theorem exists_perm_filterMap {α β : Type} {f : α → Option β} {xs : List α} {ys : List β}
    (hperm : ys.Perm (xs.filterMap f)) :
    ∃ others : List α, others.Perm xs ∧ others.filterMap f = ys := by
  induction xs generalizing ys with
  | nil => exact ⟨[], .nil, hperm.eq_nil.symm⟩
  | cons x xs ih =>
    cases hx : f x with
    | none =>
      rw [List.filterMap_cons_none hx] at hperm
      obtain ⟨others, hothers, heq⟩ := ih hperm
      exact ⟨x :: others, hothers.cons x, by rw [List.filterMap_cons_none hx, heq]⟩
    | some y =>
      rw [List.filterMap_cons_some hx] at hperm
      obtain ⟨front, behind, rfl⟩ := List.append_of_mem (hperm.mem_iff.mpr List.mem_cons_self)
      obtain ⟨others, hothers, heq⟩ := ih (List.perm_middle.symm.trans hperm).cons_inv
      obtain ⟨before, after, rfl, rfl, rfl⟩ := List.filterMap_eq_append_iff.mp heq
      refine ⟨before ++ x :: after, List.perm_middle.trans (hothers.cons x), ?_⟩
      rw [List.filterMap_append, List.filterMap_cons_some hx]

theorem pairwise_mergeSort_le {α : Type} (key : α → String) (xs : List α) :
    (xs.mergeSort fun a b => decide (key a ≤ key b)).Pairwise fun a b => key a ≤ key b := by
  have hsorted : (xs.mergeSort fun a b => decide (key a ≤ key b)).Pairwise fun a b =>
      decide (key a ≤ key b) = true := by
    apply List.pairwise_mergeSort
    · simp only [decide_eq_true_eq]
      exact fun _ _ _ => String.le_trans
    · simp only [Bool.or_eq_true, decide_eq_true_eq]
      exact fun a b => String.le_total (key a) (key b)
  simpa only [decide_eq_true_eq] using hsorted

section

variable {α : Type} {r : α → α → Prop}

/-- Elements that are not repeated are brought into strictly increasing order. -/
theorem mergeSort_pairwise [DecidableRel r] [IsOrderConnected α r] [Std.Asymm r]
    [Std.Trichotomous r] {xs : List α} (hnodup : xs.Nodup) :
    (xs.mergeSort fun a b => !decide (r b a)).Pairwise r := by
  have hsorted : (xs.mergeSort fun a b => !decide (r b a)).Pairwise fun a b =>
      (!decide (r b a)) = true := by
    apply List.pairwise_mergeSort
    · simp only [Bool.not_eq_true', decide_eq_false_iff_not]
      intro a b c hba hcb hca
      exact (IsOrderConnected.conn c b a hca).elim hcb hba
    · simp only [Bool.or_eq_true, Bool.not_eq_true', decide_eq_false_iff_not]
      intro a b
      by_cases hab : r a b
      · exact .inl (Std.Asymm.asymm a b hab)
      · exact .inr hab
  have hne : (xs.mergeSort fun a b => !decide (r b a)).Pairwise (· ≠ ·) :=
    (List.mergeSort_perm xs _).nodup_iff.mpr hnodup
  refine (hsorted.and hne).imp ?_
  rintro a b ⟨hle, hne⟩
  by_contra hlt
  exact hne (Std.Trichotomous.trichotomous a b hlt (by simpa using hle))

/-- There is one strictly increasing order. -/
theorem eq_of_perm_of_pairwise [Std.Asymm r] {xs ys : List α} (hperm : xs.Perm ys)
    (hxs : xs.Pairwise r) (hys : ys.Pairwise r) : xs = ys :=
  hperm.eq_of_pairwise (fun a b _ _ hab hba => absurd hba (Std.Asymm.asymm a b hab)) hxs hys

end

end PolicyForge.Lists
