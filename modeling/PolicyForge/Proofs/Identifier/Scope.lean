import Mathlib.Order.Interval.Finset.Nat
import PolicyForge.Identifier.Scope

namespace PolicyForge.Identifier.Scope

/-- Different numbers behind one identifier give different identifiers. -/
theorem numbered_inj {base : String} {m n : Nat}
    (h : base ++ toString m = base ++ toString n) : m = n := by
  have hdigits : Nat.toDigits 10 m = Nat.toDigits 10 n := by
    have hchars := congrArg String.toList h
    simpa using hchars
  have hvalue := congrArg (Nat.ofDigitChars 10 · 0) hdigits
  simpa using hvalue

theorem append_toString_ne (base : String) (n : Nat) : base ++ toString n ≠ base := by
  intro heq
  have hnone : (toString n).toList = [] := by simpa using congrArg String.toList heq
  rw [Nat.toString_eq_repr, Nat.toList_repr] at hnone
  exact Nat.toDigits_ne_nil hnone

theorem contains_iff {scope : Scope} {ident : String} :
    scope.contains ident = true ↔ ident ∈ scope.taken := by
  simp [contains]

theorem reserve_of_not_mem {scope : Scope} {ident : String} (hfree : ident ∉ scope.taken) :
    scope.reserve ident = ⟨ident :: scope.taken⟩ :=
  if_neg fun htaken => hfree (contains_iff.mp htaken)

theorem mem_taken_reserve {scope : Scope} {ident other : String} :
    other ∈ (scope.reserve ident).taken ↔ other ∈ scope.taken ∨ other = ident := by
  unfold reserve
  split
  · rename_i htaken
    have hmem := contains_iff.mp htaken
    constructor
    · exact .inl
    · rintro (h | rfl)
      · exact h
      · exact hmem
  · rw [List.mem_cons, or_comm]

/-- A scope that reserves a list of identifiers has taken these and what it had taken before. -/
theorem mem_taken_foldl_reserve {scope : Scope} {idents : List String} {other : String} :
    other ∈ (idents.foldl reserve scope).taken ↔ other ∈ scope.taken ∨ other ∈ idents := by
  induction idents generalizing scope with
  | nil => simp
  | cons ident idents ih => rw [List.foldl_cons, ih, mem_taken_reserve, List.mem_cons, or_assoc]

/-- The set of the identifiers that are taken. -/
def names (scope : Scope) : Finset String :=
  scope.taken.toFinset

theorem mem_names {scope : Scope} {ident : String} : ident ∈ scope.names ↔ ident ∈ scope.taken :=
  List.mem_toFinset

theorem contains_iff_mem_names {scope : Scope} {ident : String} :
    scope.contains ident = true ↔ ident ∈ scope.names :=
  contains_iff.trans mem_names.symm

/-- A scope has no room for more numbers behind one identifier than it holds other identifiers. -/
theorem card_le_card_erase {scope : Scope} {base : String} {numbers : Finset Nat}
    (hnumbers : ∀ n ∈ numbers, base ++ toString n ∈ scope.names) :
    numbers.card ≤ (scope.names.erase base).card := by
  apply Finset.card_le_card_of_injOn fun n => base ++ toString n
  · intro n hn
    exact Finset.mem_erase.mpr ⟨append_toString_ne base n, hnumbers n hn⟩
  · intro m _ n _ heq
    exact numbered_inj heq

theorem le_freeSuffix (scope : Scope) (base : String) (tries suffix : Nat) :
    suffix ≤ scope.freeSuffix base tries suffix := by
  induction tries generalizing suffix with
  | zero => exact Nat.le_refl _
  | succ tries ih =>
    unfold freeSuffix
    split
    · have hnext := ih (suffix + 1)
      omega
    · exact Nat.le_refl _

/-- The numbers that the search passes over are those of taken identifiers. -/
theorem mem_taken_of_lt_freeSuffix {scope : Scope} {base : String} {tries suffix n : Nat}
    (hle : suffix ≤ n) (hlt : n < scope.freeSuffix base tries suffix) :
    base ++ toString n ∈ scope.taken := by
  induction tries generalizing suffix with
  | zero =>
    unfold freeSuffix at hlt
    omega
  | succ tries ih =>
    unfold freeSuffix at hlt
    split at hlt
    · rename_i htaken
      by_cases heq : n = suffix
      · rw [heq]
        exact contains_iff.mp htaken
      · exact ih (by omega) hlt
    · omega

/-- The search ends with a free identifier when one lies within its reach. -/
theorem freeSuffix_not_mem_taken {scope : Scope} {base : String} {tries suffix : Nat}
    (hfree : ∃ n, suffix ≤ n ∧ n < suffix + tries ∧ base ++ toString n ∉ scope.taken) :
    base ++ toString (scope.freeSuffix base tries suffix) ∉ scope.taken := by
  induction tries generalizing suffix with
  | zero =>
    obtain ⟨n, hle, hlt, _⟩ := hfree
    omega
  | succ tries ih =>
    unfold freeSuffix
    split
    · rename_i htaken
      obtain ⟨n, hle, hlt, hn⟩ := hfree
      have hne : n ≠ suffix := by
        rintro rfl
        exact hn (contains_iff.mp htaken)
      exact ih ⟨n, by omega, by omega, hn⟩
    · rename_i htaken
      exact fun hmem => htaken (contains_iff.mpr hmem)

/-- A scope has no room for one identifier more than it holds. -/
theorem exists_numbered_not_mem_taken (scope : Scope) (base : String) (suffix : Nat) :
    ∃ n, suffix ≤ n ∧ n < suffix + (scope.taken.length + 1) ∧ base ++ toString n ∉ scope.taken := by
  apply Classical.byContradiction
  intro hnone
  have hnumbers : ∀ n ∈ Finset.Ico suffix (suffix + (scope.taken.length + 1)),
      base ++ toString n ∈ scope.names := by
    intro n hn
    obtain ⟨hle, hlt⟩ := Finset.mem_Ico.mp hn
    apply Classical.byContradiction
    intro hfree
    exact hnone ⟨n, hle, hlt, fun hmem => hfree (mem_names.mpr hmem)⟩
  have hroom := card_le_card_erase hnumbers
  have herase := Finset.card_erase_le (s := scope.names) (a := base)
  have hnames : scope.names.card ≤ scope.taken.length := scope.taken.toFinset_card_le
  rw [Nat.card_Ico] at hroom
  omega

/-- What a request is answered with: the identifier itself while it is free, and after that the one
with the least number from two on that makes it free. Either way just the answer becomes taken. -/
theorem allocate_cases (scope : Scope) (base : String) :
    (base ∉ scope.taken ∧ scope.allocate base = (⟨base, false⟩, ⟨base :: scope.taken⟩)) ∨
    base ∈ scope.taken ∧ ∃ n, 2 ≤ n ∧ base ++ toString n ∉ scope.taken ∧
      (∀ m, 2 ≤ m → m < n → base ++ toString m ∈ scope.taken) ∧
      scope.allocate base = (⟨base ++ toString n, true⟩, ⟨(base ++ toString n) :: scope.taken⟩) := by
  by_cases hbase : base ∈ scope.taken
  · have hfree := freeSuffix_not_mem_taken (exists_numbered_not_mem_taken scope base 2)
    refine .inr ⟨hbase, _, le_freeSuffix _ _ _ _, hfree, ?_, ?_⟩
    · intro m hle hlt
      exact mem_taken_of_lt_freeSuffix hle hlt
    · simp only [allocate, contains_iff.mpr hbase, if_true, reserve_of_not_mem hfree]
  · refine .inl ⟨hbase, ?_⟩
    have hcontains : ¬ scope.contains base = true := fun htaken => hbase (contains_iff.mp htaken)
    simp only [allocate, if_neg hcontains, reserve_of_not_mem hbase]

/-- An identifier is given out only while it is free, and is taken from then on. -/
theorem allocate_fresh (scope : Scope) (base : String) :
    (scope.allocate base).1.ident ∉ scope.taken ∧
      (scope.allocate base).2.taken = (scope.allocate base).1.ident :: scope.taken := by
  obtain ⟨hfree, heq⟩ | ⟨_, n, _, hfree, _, heq⟩ := scope.allocate_cases base
  · rw [heq]
    exact ⟨hfree, rfl⟩
  · rw [heq]
    exact ⟨hfree, rfl⟩

end PolicyForge.Identifier.Scope
