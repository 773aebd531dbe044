import Mathlib.Data.List.Forall2
import Mathlib.Data.List.Induction
import Mathlib.Data.List.Perm.Subperm
import PolicyForge.Ordered

namespace PolicyForge.Ordered

variable {α κ ι β γ : Type} [BEq α] [LawfulBEq α] [BEq κ] [LawfulBEq κ]

/-- The first of each repetition is kept, so none is left. -/
theorem nodup_eraseDups (xs : List α) : xs.eraseDups.Nodup := by
  cases xs with
  | nil => simp
  | cons x xs =>
    rw [List.eraseDups_cons, List.nodup_cons]
    exact ⟨by simp, nodup_eraseDups (xs.filter fun y => !y == x)⟩
termination_by xs.length
decreasing_by
  have hle := List.length_filter_le (fun y => !y == x) xs
  simp only [List.length_cons]
  omega

theorem eraseDups_of_nodup {xs : List α} (hnodup : xs.Nodup) : xs.eraseDups = xs := by
  induction xs with
  | nil => simp
  | cons x xs ih =>
    obtain ⟨hfresh, hrest⟩ := List.nodup_cons.mp hnodup
    have hkept : xs.filter (fun y => !y == x) = xs := by
      rw [List.filter_eq_self]
      intro y hy
      have hne : y ≠ x := fun heq => hfresh (heq ▸ hy)
      simpa using hne
    rw [List.eraseDups_cons, hkept, ih hrest]

/-- Leaving repetitions out makes a list shorter just when it has any. -/
theorem length_eraseDups_eq_iff {xs : List α} : xs.eraseDups.length = xs.length ↔ xs.Nodup := by
  constructor
  · intro hlength
    have hsub : xs.eraseDups.Subperm xs :=
      List.subperm_of_subset (nodup_eraseDups xs) fun x hx => List.mem_eraseDups.mp hx
    exact (hsub.perm_of_length_le (Nat.le_of_eq hlength.symm)).nodup_iff.mp (nodup_eraseDups xs)
  · intro hnodup
    rw [eraseDups_of_nodup hnodup]

theorem eraseDups_concat_of_mem {xs : List α} {x : α} (hmem : x ∈ xs) :
    (xs ++ [x]).eraseDups = xs.eraseDups := by
  simp [List.eraseDups_append, List.cons_removeAll, hmem]

theorem eraseDups_concat_of_not_mem {xs : List α} {x : α} (hmem : x ∉ xs) :
    (xs ++ [x]).eraseDups = xs.eraseDups ++ [x] := by
  simp [List.eraseDups_append, List.cons_removeAll, hmem, List.eraseDups_cons]

/-- The elements of a list with a property, each once and in the order in which they first come up.
-/
structure FirstOccurrences (p : α → Prop) (xs ys : List α) : Prop where
  mem_iff : ∀ x, x ∈ ys ↔ x ∈ xs ∧ p x
  nodup : ys.Nodup
  order : ys.Pairwise fun a b => xs.idxOf a < xs.idxOf b

/-- The elements that are kept stand in the order in which they first come up, also where others are
filtered out in front. -/
theorem pairwise_idxOf_eraseDups (p : α → Bool) (xs : List α) :
    (xs.filter p).eraseDups.Pairwise fun a b => xs.idxOf a < xs.idxOf b := by
  induction xs using List.reverseRecOn with
  | nil => simp
  | append_singleton xs x ih =>
    have hmem : ∀ {a}, a ∈ (xs.filter p).eraseDups → a ∈ xs := fun ha =>
      List.mem_of_mem_filter (List.mem_eraseDups.mp ha)
    have hkept : (xs.filter p).eraseDups.Pairwise fun a b =>
        (xs ++ [x]).idxOf a < (xs ++ [x]).idxOf b := by
      refine ih.imp_of_mem fun ha hb hlt => ?_
      rwa [List.idxOf_append_of_mem (hmem ha), List.idxOf_append_of_mem (hmem hb)]
    rw [List.filter_append]
    cases hx : p x with
    | false => simpa [hx] using hkept
    | true =>
      rw [List.filter_singleton, hx, cond_true]
      by_cases hseen : x ∈ xs.filter p
      · rwa [eraseDups_concat_of_mem hseen]
      · have hnew : x ∉ xs := fun hin => hseen (List.mem_filter.mpr ⟨hin, hx⟩)
        rw [eraseDups_concat_of_not_mem hseen, List.pairwise_append]
        refine ⟨hkept, List.pairwise_singleton _ _, fun a ha b hb => ?_⟩
        obtain rfl := List.mem_singleton.mp hb
        rw [List.idxOf_append_of_mem (hmem ha), List.idxOf_append_of_notMem hnew]
        exact Nat.lt_add_right _ (List.idxOf_lt_length_of_mem (hmem ha))

/-- Filtering by a property and leaving repetitions out gives its first occurrences. -/
theorem firstOccurrences_eraseDups {p : α → Prop} {q : α → Bool} (hq : ∀ x, q x = true ↔ p x)
    (xs : List α) : FirstOccurrences p xs (xs.filter q).eraseDups :=
  ⟨fun x => by rw [List.mem_eraseDups, List.mem_filter, hq], nodup_eraseDups _,
    pairwise_idxOf_eraseDups q xs⟩

/-- Inserting into the list without repetitions is the same as adding to the list and leaving them
out. -/
theorem insert_eraseDups (xs : List α) (x : α) :
    insert xs.eraseDups x = (xs ++ [x]).eraseDups := by
  by_cases hmem : x ∈ xs
  · simp [insert, eraseDups_concat_of_mem hmem, hmem]
  · simp [insert, eraseDups_concat_of_not_mem hmem, hmem]

/-- Insertions one after the other keep the first occurrence of every element. -/
theorem insertAll_eraseDups (xs ys : List α) :
    insertAll xs.eraseDups ys = (xs ++ ys).eraseDups := by
  induction ys generalizing xs with
  | nil => simp [insertAll]
  | cons y ys ih =>
    have hstep : insertAll xs.eraseDups (y :: ys) = insertAll (insert xs.eraseDups y) ys := rfl
    rw [hstep, insert_eraseDups, ih, List.append_assoc, List.singleton_append]

/-- Of elements that are not repeated, those that are not there yet are put in, in their order. -/
theorem insertAll_of_nodup (xs : List α) {ys : List α} (hnodup : ys.Nodup) :
    insertAll xs ys = xs ++ ys.filter fun y => !xs.contains y := by
  induction ys generalizing xs with
  | nil => simp [insertAll]
  | cons y ys ih =>
    obtain ⟨hfresh, hrest⟩ := List.nodup_cons.mp hnodup
    have hstep : insertAll xs (y :: ys) = insertAll (insert xs y) ys := rfl
    rw [hstep, insert]
    split
    · rename_i hseen
      rw [ih xs hrest, List.filter_cons_of_neg (by simpa using hseen)]
    · rename_i hnew
      have hkept : ys.filter (fun other => !(xs ++ [y]).contains other) =
          ys.filter fun other => !xs.contains other := by
        apply List.filter_congr
        intro other hother
        have hne : other ≠ y := fun heq => hfresh (heq ▸ hother)
        simp [hne]
      rw [ih _ hrest, hkept, List.filter_cons_of_pos (by simpa using hnew), List.append_assoc,
        List.singleton_append]

/-- Several lists inserted one after the other make one list without repetitions. -/
theorem foldl_insertAll_eraseDups (xs : List α) (lists : List (List α)) :
    lists.foldl insertAll xs.eraseDups = (xs ++ lists.flatten).eraseDups := by
  induction lists generalizing xs with
  | nil => simp
  | cons ys lists ih =>
    rw [List.foldl_cons, insertAll_eraseDups, ih, List.append_assoc, List.flatten_cons]

/-- The items that were put in under each key. The keys stand in the order of first use, and the
items of a key in the order in which they came. -/
def grouped (puts : List (κ × ι)) : List (κ × List ι) :=
  (puts.map (·.1)).eraseDups.map fun key => (key, (puts.filter (·.1 == key)).map (·.2))

omit [LawfulBEq κ] in
/-- The keys of a grouped list are those put in, once each, in the order of their first put. -/
theorem keys_grouped (puts : List (κ × ι)) :
    (grouped puts).map (·.1) = (puts.map (·.1)).eraseDups := by
  rw [grouped, List.map_map]
  exact List.map_id _

/-- No key stands without items. -/
theorem ne_nil_of_mem_grouped {puts : List (κ × ι)} {key : κ} {items : List ι}
    (hmem : (key, items) ∈ grouped puts) : items ≠ [] := by
  simp only [grouped, List.mem_map, List.mem_eraseDups] at hmem
  obtain ⟨_, ⟨put, hput, rfl⟩, heq⟩ := hmem
  obtain ⟨rfl, rfl⟩ := Prod.mk.inj heq
  have hfound : put ∈ puts.filter (·.1 == put.1) := List.mem_filter.mpr ⟨hput, by simp⟩
  exact List.ne_nil_of_mem (List.mem_map_of_mem hfound)

theorem grouped_ne_nil {puts : List (κ × ι)} (hputs : puts ≠ []) : grouped puts ≠ [] := by
  cases puts with
  | nil => exact absurd rfl hputs
  | cons put puts => simp [grouped, List.eraseDups_cons]

/-- The items of some keys, key by key, are all that have one of these keys. -/
theorem flatMap_filter_perm {keys : List κ} (hnodup : keys.Nodup) (puts : List (κ × ι)) :
    (keys.flatMap fun key => puts.filter (·.1 == key)).Perm
      (puts.filter fun put => keys.contains put.1) := by
  induction keys with
  | nil => simp
  | cons key keys ih =>
    obtain ⟨hfresh, hrest⟩ := List.nodup_cons.mp hnodup
    have hown : (puts.filter fun put => (key :: keys).contains put.1).filter (·.1 == key) =
        puts.filter (·.1 == key) := by
      rw [List.filter_filter]
      apply List.filter_congr
      intro put _
      by_cases hkey : put.1 = key <;> simp [hkey]
    have hothers : (puts.filter fun put => (key :: keys).contains put.1).filter (!·.1 == key) =
        puts.filter fun put => keys.contains put.1 := by
      rw [List.filter_filter]
      apply List.filter_congr
      intro put _
      by_cases hkey : put.1 = key
      · simpa [hkey] using hfresh
      · simp [hkey]
    have hsplit := List.filter_append_perm (·.1 == key)
      (puts.filter fun put => (key :: keys).contains put.1)
    rw [hown, hothers] at hsplit
    rw [List.flatMap_cons]
    exact ((ih hrest).append_left _).trans hsplit

/-- Every item stands under one key, once. -/
theorem flatMap_grouped_perm (puts : List (κ × ι)) :
    ((grouped puts).flatMap (·.2)).Perm (puts.map (·.2)) := by
  have hall : puts.filter (fun put => (puts.map (·.1)).eraseDups.contains put.1) = puts := by
    rw [List.filter_eq_self]
    intro put hput
    simpa using ⟨put.2, hput⟩
  have hperm := (flatMap_filter_perm (nodup_eraseDups (puts.map (·.1))) puts).map (·.2)
  rw [hall, List.map_flatMap] at hperm
  rw [grouped, List.flatMap_map]
  exact hperm

/-- A key that is new is put behind the others, with the change made to its initial value. -/
theorem update_map_of_not_mem {keys : List κ} {key : κ} (hmem : key ∉ keys) (value : κ → β)
    (initial : β) (change : β → β) :
    update key initial change (keys.map fun k => (k, value k)) =
      keys.map (fun k => (k, value k)) ++ [(key, change initial)] := by
  induction keys with
  | nil => rfl
  | cons k keys ih =>
    have hne : (k == key) = false := by
      simp only [beq_eq_false_iff_ne]
      rintro rfl
      exact hmem List.mem_cons_self
    have hrest := ih fun h => hmem (List.mem_cons_of_mem k h)
    simp [update, hne, hrest]

/-- A key that is there has its own value changed, and every other one is kept. -/
theorem update_map_of_mem {keys : List κ} {key : κ} (hnodup : keys.Nodup) (hmem : key ∈ keys)
    (value : κ → β) (initial : β) (change : β → β) :
    update key initial change (keys.map fun k => (k, value k)) =
      keys.map fun k => (k, if k == key then change (value k) else value k) := by
  induction keys with
  | nil => simp at hmem
  | cons k keys ih =>
    obtain ⟨hfresh, hrest⟩ := List.nodup_cons.mp hnodup
    by_cases hk : k = key
    · subst hk
      have hsame : keys.map (fun k' => (k', value k')) =
          keys.map fun k' => (k', if k' == k then change (value k') else value k') := by
        apply List.map_congr_left
        intro k' hk'
        have hne : k' ≠ k := by
          rintro rfl
          exact hfresh hk'
        simp [hne]
      simp [update, hsame]
    · have hmem' : key ∈ keys := by
        cases hmem with
        | head => exact absurd rfl hk
        | tail _ h => exact h
      simp [update, hk, ih hrest hmem']

/-- Every key with the fold of the items that were put in under it. -/
def folded (step : β → ι → β) (initial : β) (puts : List (κ × ι)) : List (κ × β) :=
  (grouped puts).map fun (key, items) => (key, items.foldl step initial)

/-- Folding by key gives each key the fold of what was put under it, at the place of its first put.
-/
theorem folded_eq_map (step : β → ι → β) (initial : β) (puts : List (κ × ι)) :
    folded step initial puts = (puts.map (·.1)).eraseDups.map fun key =>
      (key, ((puts.filter (·.1 == key)).map (·.2)).foldl step initial) := by
  simp [folded, grouped]

/-- To put one more item in changes the fold of its key alone. -/
theorem update_folded (step : β → ι → β) (initial : β) (puts : List (κ × ι)) (key : κ) (item : ι) :
    update key initial (step · item) (folded step initial puts) =
      folded step initial (puts ++ [(key, item)]) := by
  rw [folded_eq_map, folded_eq_map, List.map_append, List.map_singleton]
  by_cases hmem : key ∈ puts.map (·.1)
  · rw [update_map_of_mem (nodup_eraseDups _) (by simpa using hmem),
      eraseDups_concat_of_mem hmem]
    apply List.map_congr_left
    intro k _
    by_cases hk : key = k
    · subst hk
      simp
    · simp [hk, Ne.symm hk]
  · rw [update_map_of_not_mem (by simpa using hmem), eraseDups_concat_of_not_mem hmem,
      List.map_append]
    have hnone : puts.filter (·.1 == key) = [] := by
      simp only [List.filter_eq_nil_iff, beq_iff_eq]
      intro put hput hkey
      exact hmem (List.mem_map.mpr ⟨put, hput, hkey⟩)
    congr 1
    · apply List.map_congr_left
      intro k hk
      have hne : key ≠ k := by
        rintro rfl
        exact hmem (by simpa using hk)
      simp [hne]
    · simp [hnone]

/-- Updates one after the other give every key the fold of its own items. -/
theorem foldl_update (step : β → ι → β) (initial : β) (puts more : List (κ × ι)) :
    more.foldl (fun entries (key, item) => update key initial (step · item) entries)
        (folded step initial puts) =
      folded step initial (puts ++ more) := by
  induction more generalizing puts with
  | nil => simp
  | cons put more ih =>
    obtain ⟨key, item⟩ := put
    simp only [List.foldl_cons, update_folded, ih, List.append_assoc, List.singleton_append]

theorem foldl_update_nil (step : β → ι → β) (initial : β) (puts : List (κ × ι)) :
    puts.foldl (fun entries (key, item) => update key initial (step · item) entries) [] =
      folded step initial puts := by
  simpa [folded, grouped] using foldl_update step initial [] puts

/-- Every key with the last value that was put in under it, at the place of the first. -/
def latest (puts : List (κ × β)) : List (κ × β) :=
  (puts.map (·.1)).eraseDups.filterMap fun key => (puts.reverse.lookup key).map (key, ·)

private theorem foldr_filter_eq_lookup (initial : β) (puts : List (κ × β)) (key : κ) :
    ((puts.filter (·.1 == key)).map (·.2)).foldr (fun value _ => value) initial =
      (puts.lookup key).getD initial := by
  induction puts with
  | nil => rfl
  | cons put puts ih =>
    obtain ⟨own, value⟩ := put
    by_cases hkey : key = own
    · subst hkey
      simp
    · simpa [List.lookup_cons, beq_false_of_ne hkey, beq_false_of_ne (Ne.symm hkey)] using ih

/-- Keeping the last value of each key is folding by key, each put being the result. -/
theorem latest_eq_folded (initial : β) (puts : List (κ × β)) :
    latest puts = folded (fun _ value => value) initial puts := by
  have hvalue : ∀ key ∈ (puts.map (·.1)).eraseDups, (puts.reverse.lookup key).map (key, ·) =
      some (key, ((puts.filter (·.1 == key)).map (·.2)).foldl (fun _ value => value) initial) := by
    intro key hkey
    obtain ⟨put, hput, rfl⟩ := List.mem_map.mp (List.mem_eraseDups.mp hkey)
    rw [List.foldl_eq_foldr_reverse, ← List.map_reverse, ← List.filter_reverse,
      foldr_filter_eq_lookup]
    cases hlookup : puts.reverse.lookup put.1 with
    | none =>
      have hmiss := List.lookup_eq_none_iff.mp hlookup put (List.mem_reverse.mpr hput)
      simp at hmiss
    | some value => rfl
  rw [latest, List.filterMap_congr hvalue, folded_eq_map, List.filterMap_eq_map']

omit [LawfulBEq κ] in
/-- The first value of a key does not matter when it is replaced at once. -/
theorem update_replaced (key : κ) (initial other value : β) (entries : List (κ × β)) :
    update key initial (fun _ => value) entries = update key other (fun _ => value) entries := by
  induction entries with
  | nil => rfl
  | cons entry entries ih => rw [update, update, ih]

/-- Replacements one after the other leave the last value of every key. -/
theorem foldl_replace (puts : List (κ × β)) :
    puts.foldl (fun entries (key, value) => update key value (fun _ => value) entries) [] =
      latest puts := by
  cases puts with
  | nil => rfl
  | cons put puts =>
    rw [latest_eq_folded put.2, ← foldl_update_nil]
    congr 1
    funext entries other
    exact update_replaced ..

/-- The keys of the latest values are those put, once each, in the order of their first put. -/
theorem keys_latest (puts : List (κ × β)) :
    (latest puts).map (·.1) = (puts.map (·.1)).eraseDups := by
  cases puts with
  | nil => rfl
  | cons put puts =>
    rw [latest_eq_folded put.2, folded_eq_map, List.map_map]
    exact List.map_id _

theorem lookup_of_mem_of_nodup {entries : List (κ × β)} (hnodup : (entries.map (·.1)).Nodup)
    {entry : κ × β} (hmem : entry ∈ entries) : entries.lookup entry.1 = some entry.2 := by
  obtain ⟨before, after, rfl⟩ := List.append_of_mem hmem
  refine List.lookup_eq_some_iff.mpr ⟨before, after, rfl, ?_⟩
  intro other hother
  rw [List.map_append, List.nodup_append] at hnodup
  have hne : other.1 ≠ entry.1 :=
    hnodup.2.2 _ (List.mem_map_of_mem hother) _ (List.mem_map_of_mem List.mem_cons_self)
  simpa using hne.symm

/-- Nothing is replaced where no key is repeated. -/
theorem latest_of_nodup {puts : List (κ × β)} (hnodup : (puts.map (·.1)).Nodup) :
    latest puts = puts := by
  have hreverse : (puts.reverse.map (·.1)).Nodup :=
    (puts.reverse_perm.map (·.1)).nodup_iff.mpr hnodup
  rw [latest, eraseDups_of_nodup hnodup, List.filterMap_map]
  conv_rhs => rw [← List.filterMap_some (l := puts)]
  apply List.filterMap_congr
  intro put hput
  simp [lookup_of_mem_of_nodup hreverse (List.mem_reverse.mpr hput)]

omit [LawfulBEq κ] in
/-- Related lists of entries stay related when related values are put under one key. -/
theorem forall₂_update {related : β → γ → Prop} {entries : List (κ × β)} {others : List (κ × γ)}
    (hentries : List.Forall₂ (fun x y => x.1 = y.1 ∧ related x.2 y.2) entries others) {key : κ}
    {value : β} {other : γ} (hvalue : related value other) :
    List.Forall₂ (fun x y => x.1 = y.1 ∧ related x.2 y.2)
      (update key value (fun _ => value) entries) (update key other (fun _ => other) others) := by
  induction hentries with
  | nil => exact .cons ⟨rfl, hvalue⟩ .nil
  | @cons x y entries others hfirst hrest ih =>
    obtain ⟨own, x⟩ := x
    obtain ⟨_, y⟩ := y
    obtain ⟨rfl, hfirst⟩ := hfirst
    unfold update
    split
    · exact .cons ⟨rfl, hvalue⟩ hrest
    · exact .cons ⟨rfl, hfirst⟩ ih

/-- Values that are matched one by one are still matched after replacement. -/
theorem forall₂_latest (related : β → γ → Prop) {puts : List (κ × β)} {others : List (κ × γ)}
    (hputs : List.Forall₂ (fun x y => x.1 = y.1 ∧ related x.2 y.2) puts others) :
    List.Forall₂ (fun x y => x.1 = y.1 ∧ related x.2 y.2) (latest puts) (latest others) := by
  have hrun : ∀ {entries more},
      List.Forall₂ (fun x y => x.1 = y.1 ∧ related x.2 y.2) entries more →
      List.Forall₂ (fun x y => x.1 = y.1 ∧ related x.2 y.2)
        (puts.foldl (fun entries (key, value) => update key value (fun _ => value) entries) entries)
        (others.foldl (fun entries (key, value) => update key value (fun _ => value) entries)
          more) := by
    induction hputs with
    | nil => exact id
    | @cons x y puts others hput _ ih =>
      intro entries more hentries
      obtain ⟨key, x⟩ := x
      obtain ⟨_, y⟩ := y
      obtain ⟨rfl, hvalue⟩ := hput
      exact ih (forall₂_update hentries hvalue)
  rw [← foldl_replace, ← foldl_replace]
  exact hrun .nil

/-- The order of the entries does not matter to a lookup when no key stands twice. -/
theorem lookup_eq_of_perm {entries others : List (κ × β)} (hperm : others.Perm entries)
    (hnodup : (entries.map (·.1)).Nodup) (key : κ) : others.lookup key = entries.lookup key := by
  have hothers : (others.map (·.1)).Nodup := (hperm.map _).nodup_iff.mpr hnodup
  cases hlookup : entries.lookup key with
  | none =>
    rw [List.lookup_eq_none_iff] at hlookup ⊢
    exact fun entry hmem => hlookup entry (hperm.mem_iff.mp hmem)
  | some value =>
    obtain ⟨before, after, rfl, -⟩ := List.lookup_eq_some_iff.mp hlookup
    have hmem : (key, value) ∈ before ++ (key, value) :: after := by simp
    exact lookup_of_mem_of_nodup hothers (hperm.mem_iff.mpr hmem)

/-- A value that is put in under a key replaces the one that was there. -/
theorem update_perm {entries : List (κ × β)} (hnodup : (entries.map (·.1)).Nodup) (key : κ)
    (value : β) : (update key value (fun _ => value) entries).Perm
      ((key, value) :: entries.filter fun entry => entry.1 != key) := by
  induction entries with
  | nil => exact .refl _
  | cons entry entries ih =>
    obtain ⟨own, old⟩ := entry
    obtain ⟨hfresh, hrest⟩ := List.nodup_cons.mp hnodup
    unfold update
    split
    · rename_i hkey
      obtain rfl : own = key := by simpa using hkey
      have hkept : entries.filter (fun entry => entry.1 != own) = entries := by
        rw [List.filter_eq_self]
        intro entry hmem
        have hne : entry.1 ≠ own := fun heq =>
          hfresh (List.mem_map.mpr ⟨entry, hmem, heq⟩)
        simpa using hne
      rw [List.filter_cons_of_neg (by simp), hkept]
    · rename_i hkey
      rw [List.filter_cons_of_pos (by simpa using hkey)]
      exact ((ih hrest).cons _).trans (.swap _ _ _)

theorem update_perm_update {entries others : List (κ × β)} (hperm : others.Perm entries)
    (hnodup : (entries.map (·.1)).Nodup) (key : κ) (value : β) :
    (update key value (fun _ => value) others).Perm
      (update key value (fun _ => value) entries) :=
  (update_perm ((hperm.map _).nodup_iff.mpr hnodup) key value).trans
    (((hperm.filter _).cons _).trans (update_perm hnodup key value).symm)

end PolicyForge.Ordered
