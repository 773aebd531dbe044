namespace PolicyForge.Ordered

/-- Put an element at the end, unless it is there already. -/
def insert {α : Type} [BEq α] (xs : List α) (x : α) : List α :=
  if xs.contains x then xs else xs ++ [x]

/-- Put elements at the end one after the other, each unless it is there already. -/
def insertAll {α : Type} [BEq α] (xs ys : List α) : List α :=
  ys.foldl insert xs

/-- Change the value of a key. A key that has none gets its first value, from `initial`, at the
end. -/
def update {κ β : Type} [BEq κ] (key : κ) (initial : β) (change : β → β) :
    List (κ × β) → List (κ × β)
  | [] => [(key, change initial)]
  | (k, value) :: entries =>
    if k == key then (k, change value) :: entries
    else (k, value) :: update key initial change entries

section

variable {α κ β : Type} [BEq α] [LawfulBEq α] [BEq κ] [LawfulBEq κ]

/-- An element is not repeated by an insertion. -/
theorem nodup_insert {xs : List α} (hnodup : xs.Nodup) (x : α) : (insert xs x).Nodup := by
  unfold insert
  split
  · exact hnodup
  · rename_i hnew
    rw [List.nodup_append]
    refine ⟨hnodup, by simp, ?_⟩
    rintro a ha b hb rfl
    obtain rfl := List.mem_singleton.mp hb
    exact hnew (List.contains_iff_mem.mpr ha)

/-- A change keeps the keys and their order, and puts in a key that was not there. -/
theorem keys_update (key : κ) (initial : β) (change : β → β) (entries : List (κ × β)) :
    (update key initial change entries).map (·.1) = insert (entries.map (·.1)) key := by
  induction entries with
  | nil => rfl
  | cons entry entries ih =>
    obtain ⟨own, value⟩ := entry
    rw [update]
    by_cases heq : own = key
    · subst heq
      simp [insert]
    · rw [if_neg (by simpa using heq), List.map_cons, ih]
      by_cases hmem : key ∈ entries.map (·.1) <;> simp_all [insert, Ne.symm heq]

/-- A key has its changed value after a change. -/
theorem lookup_update_self (key : κ) (initial : β) (change : β → β) (entries : List (κ × β)) :
    (update key initial change entries).lookup key =
      some (change ((entries.lookup key).getD initial)) := by
  induction entries with
  | nil => simp [update]
  | cons entry entries ih =>
    obtain ⟨own, value⟩ := entry
    by_cases hkey : own = key
    · subst hkey
      simp [update]
    · simp [update, List.lookup_cons, beq_false_of_ne hkey, beq_false_of_ne (Ne.symm hkey), ih]

/-- A change leaves the values of other keys alone. -/
theorem lookup_update_of_ne {key other : κ} (hne : other ≠ key) (initial : β) (change : β → β)
    (entries : List (κ × β)) :
    (update key initial change entries).lookup other = entries.lookup other := by
  induction entries with
  | nil => simp [update, List.lookup_cons, beq_false_of_ne hne]
  | cons entry entries ih =>
    obtain ⟨own, value⟩ := entry
    by_cases hkey : own = key
    · subst hkey
      simp [update, List.lookup_cons, beq_false_of_ne hne]
    · simp [update, beq_false_of_ne hkey, List.lookup_cons, ih]

end

/-- Whether two lists without repetitions have the same elements. -/
def sameElements {α : Type} [BEq α] (xs ys : List α) : Bool :=
  xs.length == ys.length && xs.all ys.contains

/-- Whether two lists without repeated keys have the same keys with matching values. -/
def sameEntries {κ β : Type} [BEq κ] (sameValue : β → β → Bool) (xs ys : List (κ × β)) : Bool :=
  xs.length == ys.length && xs.all fun (key, value) => (ys.lookup key).any (sameValue value)

end PolicyForge.Ordered
