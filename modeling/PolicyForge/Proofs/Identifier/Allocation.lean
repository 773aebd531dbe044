import Mathlib.Logic.Function.Iterate
import Mathlib.Order.Bounds.Defs
import PolicyForge.Proofs.Identifier.Scope

namespace PolicyForge.Identifier.Scope

/-- Reserving an identifier that is taken changes nothing, so the set grows by it in either case. -/
theorem names_reserve (scope : Scope) (ident : String) :
    (scope.reserve ident).names = insert ident scope.names := by
  ext other
  rw [mem_names, mem_taken_reserve, Finset.mem_insert, mem_names, or_comm]

/-- An allocation takes the identifier that it gives out, and no other. -/
theorem names_allocate (scope : Scope) (base : String) :
    (scope.allocate base).2.names = insert (scope.allocate base).1.ident scope.names := by
  rw [names, (scope.allocate_fresh base).2, List.toFinset_cons, names]

theorem ident_allocate_not_mem (scope : Scope) (base : String) :
    (scope.allocate base).1.ident ∉ scope.names := by
  rw [mem_names]
  exact (scope.allocate_fresh base).1

/-- The numbers from two on that make an identifier free. -/
def freeNumbers (scope : Scope) (base : String) : Set Nat :=
  {n | 2 ≤ n ∧ base ++ toString n ∉ scope.names}

section

variable {scope : Scope} {base : String} {n : Nat}

/-- All numbers below the least free one are those of taken identifiers. -/
theorem mem_names_of_lt_least (hleast : IsLeast (scope.freeNumbers base) n) {m : Nat} (hle : 2 ≤ m)
    (hlt : m < n) : base ++ toString m ∈ scope.names := by
  by_contra hfree
  have hbound := hleast.2 ⟨hle, hfree⟩
  omega

/-- The numbers before the least free one, and the identifier without a number, are all in the
scope. -/
theorem least_le_card (hbase : base ∈ scope.names) (hleast : IsLeast (scope.freeNumbers base) n) :
    n ≤ scope.names.card + 1 := by
  have hnumbers : ∀ m ∈ Finset.Ico 2 n, base ++ toString m ∈ scope.names := by
    intro m hm
    obtain ⟨hle, hlt⟩ := Finset.mem_Ico.mp hm
    exact mem_names_of_lt_least hleast hle hlt
  have hroom := card_le_card_erase hnumbers
  have hothers := Finset.card_erase_add_one hbase
  rw [Nat.card_Ico] at hroom
  omega

theorem allocate_of_not_mem (hbase : base ∉ scope.names) :
    scope.allocate base = (⟨base, false⟩, scope.reserve base) := by
  obtain ⟨hfree, heq⟩ | ⟨htaken, _⟩ := scope.allocate_cases base
  · rw [heq, reserve_of_not_mem hfree]
  · exact absurd (mem_names.mpr htaken) hbase

/-- A taken base is given the least free number, counted from two, and the flag is raised. -/
theorem allocate_of_mem (hbase : base ∈ scope.names) :
    ∃ n, IsLeast (scope.freeNumbers base) n ∧
      scope.allocate base = (⟨base ++ toString n, true⟩, scope.reserve (base ++ toString n)) := by
  obtain ⟨hfree, _⟩ | ⟨_, n, htwo, hfree, hpassed, heq⟩ := scope.allocate_cases base
  · exact absurd (mem_names.mp hbase) hfree
  · refine ⟨n, ⟨⟨htwo, fun hmem => hfree (mem_names.mp hmem)⟩, ?_⟩, ?_⟩
    · rintro m ⟨hle, hm⟩
      by_contra hlt
      exact hm (mem_names.mpr (hpassed m hle (Nat.lt_of_not_le hlt)))
    · rw [heq, reserve_of_not_mem hfree]

end

/-- An allocation under way. -/
inductive Allocation where
  /-- The identifier asked for is tried. -/
  | asked (base : String) (scope : Scope)
  /-- The identifier asked for is taken, and it is tried with a number behind it. -/
  | numbered (base : String) (number : Nat) (scope : Scope)
  /-- An identifier is given out. -/
  | settled (claim : Claim) (scope : Scope)

/-- One try. A free identifier is taken and given out, and a taken one is passed over for the next
number, however many were passed over before. -/
def Allocation.next : Allocation → Allocation
  | .asked base scope =>
    if scope.contains base then .numbered base 2 scope
    else .settled ⟨base, false⟩ (scope.reserve base)
  | .numbered base number scope =>
    let ident := base ++ toString number
    if scope.contains ident then .numbered base (number + 1) scope
    else .settled ⟨ident, true⟩ (scope.reserve ident)
  | .settled claim scope => .settled claim scope

namespace Allocation

section

variable {scope : Scope} {base : String} {number n : Nat}

theorem next_asked_of_mem (hbase : base ∈ scope.names) :
    next (.asked base scope) = .numbered base 2 scope :=
  if_pos (contains_iff_mem_names.mpr hbase)

theorem next_asked_of_not_mem (hbase : base ∉ scope.names) :
    next (.asked base scope) = .settled ⟨base, false⟩ (scope.reserve base) :=
  if_neg fun htaken => hbase (contains_iff_mem_names.mp htaken)

theorem next_numbered_of_mem (htaken : base ++ toString number ∈ scope.names) :
    next (.numbered base number scope) = .numbered base (number + 1) scope :=
  if_pos (contains_iff_mem_names.mpr htaken)

theorem next_numbered_of_not_mem (hfree : base ++ toString number ∉ scope.names) :
    next (.numbered base number scope) =
      .settled ⟨base ++ toString number, true⟩ (scope.reserve (base ++ toString number)) :=
  if_neg fun htaken => hfree (contains_iff_mem_names.mp htaken)

/-- The search passes over the taken numbers one by one, and the scope stays as it is. -/
theorem iterate_next_numbered (hle : number ≤ n)
    (htaken : ∀ m, number ≤ m → m < n → base ++ toString m ∈ scope.names) :
    next^[n - number] (.numbered base number scope) = .numbered base n scope := by
  induction n, hle using Nat.le_induction with
  | base => rw [Nat.sub_self, Function.iterate_zero_apply]
  | succ n hle ih =>
    have hpassed := ih fun m hnumber hlt => htaken m hnumber (Nat.lt_succ_of_lt hlt)
    rw [Nat.succ_sub hle, Function.iterate_succ_apply', hpassed,
      next_numbered_of_mem (htaken n hle (Nat.lt_succ_self n))]

end

/-- The search ends with what `allocate` answers, after at most one try more than there are
identifiers in the scope. -/
theorem exists_iterate_eq_settled (scope : Scope) (base : String) :
    ∃ tries ≤ scope.names.card + 1,
      next^[tries] (.asked base scope) =
        .settled (scope.allocate base).1 (scope.allocate base).2 := by
  by_cases hbase : base ∈ scope.names
  · obtain ⟨n, hleast, heq⟩ := allocate_of_mem hbase
    obtain ⟨htwo, hfree⟩ := hleast.1
    have hpassed : next^[n - 2] (.numbered base 2 scope) = .numbered base n scope :=
      iterate_next_numbered htwo fun m hle hlt => mem_names_of_lt_least hleast hle hlt
    have hbound := least_le_card hbase hleast
    -- One try for the identifier itself, one for every number passed over, and one for the free number.
    refine ⟨n - 2 + 1 + 1, by omega, ?_⟩
    rw [Function.iterate_succ_apply', Function.iterate_succ_apply, next_asked_of_mem hbase, hpassed,
      next_numbered_of_not_mem hfree, heq]
  · refine ⟨1, by omega, ?_⟩
    rw [Function.iterate_one, next_asked_of_not_mem hbase, allocate_of_not_mem hbase]

end Allocation

/-- A call on a scope. -/
inductive Call where
  | reserve (ident : String)
  | allocate (base : String)

/-- What a call comes to. -/
inductive Event where
  | reserved (ident : String)
  | given (claim : Claim)
  deriving DecidableEq

/-- The identifier that is taken from then on. -/
def Event.ident : Event → String
  | .reserved ident => ident
  | .given claim => claim.ident

/-- The identifier that is given out, if the event is not a reservation. -/
def Event.given? : Event → Option String
  | .reserved _ => none
  | .given claim => some claim.ident

theorem Event.ident_eq_of_given? {event : Event} {ident : String}
    (hgiven : event.given? = some ident) : event.ident = ident := by
  cases event with
  | reserved other => cases hgiven
  | given claim => exact Option.some.inj hgiven

/-- A single call, with the scope behind it. -/
def perform (scope : Scope) : Call → Event × Scope
  | .reserve ident => (.reserved ident, scope.reserve ident)
  | .allocate base =>
    let (claim, scope) := scope.allocate base
    (.given claim, scope)

/-- What calls come to when they are made one after the other. -/
def run (scope : Scope) : List Call → List Event
  | [] => []
  | call :: calls => (scope.perform call).1 :: (scope.perform call).2.run calls

section

variable {scope : Scope} {ident : String}

theorem names_perform (scope : Scope) (call : Call) :
    (scope.perform call).2.names = insert (scope.perform call).1.ident scope.names := by
  cases call with
  | reserve ident => exact names_reserve scope ident
  | allocate base => exact names_allocate scope base

theorem not_mem_names_of_perform {call : Call}
    (hgiven : (scope.perform call).1.given? = some ident) : ident ∉ scope.names := by
  cases call with
  | reserve other => cases hgiven
  | allocate base =>
    obtain rfl := Option.some.inj hgiven
    exact ident_allocate_not_mem scope base

/-- What is given out in the course of a run was free at its start. -/
theorem not_mem_names_of_run {calls : List Call} {event : Event} (hevent : event ∈ scope.run calls)
    (hgiven : event.given? = some ident) : ident ∉ scope.names := by
  induction calls generalizing scope with
  | nil => cases hevent
  | cons call calls ih =>
    obtain rfl | hrest := List.mem_cons.mp hevent
    · exact not_mem_names_of_perform hgiven
    · have hlater := ih hrest
      rw [names_perform] at hlater
      exact fun hmem => hlater (Finset.mem_insert_of_mem hmem)

/-- Whatever a run gives out was free at its start. -/
theorem not_mem_names_of_mem_given {calls : List Call}
    (hident : ident ∈ (scope.run calls).filterMap Event.given?) : ident ∉ scope.names := by
  obtain ⟨event, hevent, hgiven⟩ := List.mem_filterMap.mp hident
  exact not_mem_names_of_run hevent hgiven

end

/-- What is given out was neither reserved nor given out earlier in the run. -/
theorem pairwise_run (scope : Scope) (calls : List Call) :
    (scope.run calls).Pairwise fun earlier later =>
      ∀ ident, later.given? = some ident → earlier.ident ≠ ident := by
  induction calls generalizing scope with
  | nil => exact .nil
  | cons call calls ih =>
    refine .cons ?_ (ih _)
    rintro later hlater ident hgiven rfl
    have hfresh := not_mem_names_of_run hlater hgiven
    rw [names_perform] at hfresh
    exact hfresh (Finset.mem_insert_self _ _)

/-- No identifier is given out twice in a run, whatever is reserved in between. -/
theorem nodup_given (scope : Scope) (calls : List Call) :
    ((scope.run calls).filterMap Event.given?).Nodup := by
  refine (scope.pairwise_run calls).filterMap Event.given? ?_
  intro earlier later hapart ident hearlier other hlater
  rw [← Event.ident_eq_of_given? hearlier]
  exact hapart other hlater

/-- The search for a free identifier ends, whatever the scope, with the answer of `allocate`. This
is the identifier itself when it is not taken, and else the one with the least number from two on
that makes it free. Neither the tries nor the number go beyond the size of the scope by more than
one. The scope gets the answer and nothing else. Over a run of calls, the identifiers given out are
pairwise different, they were free at the start, and none of them was reserved earlier. -/
theorem allocate_lowest_free (scope : Scope) :
    (∀ base,
      let answer := scope.allocate base
      (∃ tries ≤ scope.names.card + 1,
        Allocation.next^[tries] (.asked base scope) = .settled answer.1 answer.2) ∧
      (base ∉ scope.names → answer.1 = ⟨base, false⟩) ∧
      (base ∈ scope.names → ∃ n ≤ scope.names.card + 1,
        IsLeast (scope.freeNumbers base) n ∧ answer.1 = ⟨base ++ toString n, true⟩) ∧
      answer.1.ident ∉ scope.names ∧ answer.2.names = insert answer.1.ident scope.names) ∧
    ∀ calls,
      let events := scope.run calls
      (events.filterMap Event.given?).Nodup ∧
      (∀ ident ∈ events.filterMap Event.given?, ident ∉ scope.names) ∧
      events.Pairwise fun earlier later =>
        ∀ ident, later.given? = some ident → earlier.ident ≠ ident := by
  constructor
  · intro base answer
    refine ⟨Allocation.exists_iterate_eq_settled scope base, ?_, ?_,
      ident_allocate_not_mem scope base, names_allocate scope base⟩
    · intro hbase
      exact congrArg Prod.fst (allocate_of_not_mem hbase)
    · intro hbase
      obtain ⟨n, hleast, heq⟩ := allocate_of_mem hbase
      exact ⟨n, least_le_card hbase hleast, hleast, congrArg Prod.fst heq⟩
  · intro calls events
    exact ⟨nodup_given scope calls, fun ident => not_mem_names_of_mem_given, pairwise_run scope calls⟩

/-- An identifier is asked for twice while numbered ones are reserved and asked for in between. -/
theorem allocate_lowest_free_between :
    let scope := Scope.ofList ["to_x", "to_x2", "to_x3"]
    let calls := [Call.reserve "to_x5", .allocate "to_x", .allocate "to_x2", .allocate "to_x"]
    ("to_y" ∉ scope.names ∧ (scope.allocate "to_y").1 = ⟨"to_y", false⟩) ∧
      ("to_x" ∈ scope.names ∧ ∃ n ≤ scope.names.card + 1,
        IsLeast (scope.freeNumbers "to_x") n ∧ "to_x4" = "to_x" ++ toString n) ∧
      (scope.run calls).filterMap Event.given? = ["to_x4", "to_x22", "to_x6"] ∧
      "to_x6" ∉ scope.names ∧ "to_x5" ≠ "to_x6" := by
  intro scope calls
  obtain ⟨hanswers, hruns⟩ := allocate_lowest_free scope
  have hfree : "to_y" ∉ scope.names := by decide
  have htaken : "to_x" ∈ scope.names := by decide
  have hclaim : (scope.allocate "to_x").1 = ⟨"to_x4", true⟩ := by decide +kernel
  have hrun : scope.run calls =
      [.reserved "to_x5", .given ⟨"to_x4", true⟩, .given ⟨"to_x22", true⟩,
        .given ⟨"to_x6", true⟩] := by
    decide +kernel
  obtain ⟨n, hbound, hleast, hnumbered⟩ := (hanswers "to_x").2.2.1 htaken
  obtain ⟨-, hfresh, hapart⟩ := hruns calls
  rw [hclaim] at hnumbered
  rw [hrun] at hfresh hapart
  refine ⟨⟨hfree, (hanswers "to_y").2.1 hfree⟩,
    ⟨htaken, n, hbound, hleast, congrArg Claim.ident hnumbered⟩, by rw [hrun]; rfl,
    hfresh "to_x6" (by decide), ?_⟩
  exact (List.pairwise_cons.mp hapart).1 (.given ⟨"to_x6", true⟩) (by decide) "to_x6" rfl

end PolicyForge.Identifier.Scope
