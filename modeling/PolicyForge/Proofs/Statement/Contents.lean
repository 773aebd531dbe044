import Mathlib.Data.Finset.Insert
import PolicyForge.Proofs.Ordered.Comparison
import PolicyForge.Proofs.Statement.Run

namespace PolicyForge

/-- The values under an operator and a key, if the key stands under the operator. -/
def Clauses.values? (clauses : Clauses) (operator : Condition.Operator) (key : String) :
    Option (List String) :=
  (clauses.lookup operator).bind (·.lookup key)

theorem Clauses.values?_add_self (clauses : Clauses) (operator : Condition.Operator) (key : String)
    (values : List String) : (clauses.add operator key values).values? operator key =
      some (Ordered.insertAll ((clauses.values? operator key).getD []) values) := by
  rw [values?, add, Ordered.lookup_update_self, Option.bind_some, Ordered.lookup_update_self, values?]
  cases clauses.lookup operator <;> rfl

theorem Clauses.values?_add_of_ne {operator other : Condition.Operator} {key otherKey : String}
    (hne : ¬ (other = operator ∧ otherKey = key)) (clauses : Clauses) (values : List String) :
    (clauses.add operator key values).values? other otherKey = clauses.values? other otherKey := by
  rw [values?, add, values?]
  by_cases hoperator : other = operator
  · subst hoperator
    have hkey : otherKey ≠ key := fun heq => hne ⟨rfl, heq⟩
    rw [Ordered.lookup_update_self, Option.bind_some, Ordered.lookup_update_of_ne hkey]
    cases clauses.lookup other <;> rfl
  · rw [Ordered.lookup_update_of_ne hoperator]

namespace Statement

/-- What a statement holds. -/
@[ext]
structure Contents where
  sid : Option String
  effect : Effect
  actions : Finset String
  notAction : Bool
  resources : Finset String
  notResource : Bool
  /-- The values under an operator and a key, if the key stands under the operator. -/
  conditions : Condition.Operator → String → Option (Finset String)
  arnDefaults : Arn.Defaults

/-- What the statement holds, without the order in which it does. -/
def contents (statement : Statement) : Contents where
  sid := statement.sid
  effect := statement.effect
  actions := statement.actions.toFinset
  notAction := statement.notAction
  resources := statement.resources.toFinset
  notResource := statement.notResource
  conditions operator key := (statement.conditions.values? operator key).map List.toFinset
  arnDefaults := statement.arnDefaults

/-- Whether a change adds an action, a resource or a condition. All others set a field. -/
def Step.isAddition : Step → Bool
  | addAction _ | addResource _ | addCondition .. => true
  | _ => false

namespace Contents

/-- What is held after a change. -/
def apply (held : Contents) : Step → Contents
  | .addAction action => { held with actions := insert action held.actions }
  | .addResource resource => { held with resources := insert resource held.resources }
  | .addCondition key values operator =>
    { held with
      conditions := fun other otherKey =>
        if other = operator ∧ otherKey = key then
          some ((held.conditions operator key).getD ∅ ∪ values.toFinset)
        else held.conditions other otherKey }
  | .setEffect effect => { held with effect }
  | .setSid sid => { held with sid }
  | .setNotAction value => { held with notAction := value }
  | .setNotResource value => { held with notResource := value }
  | .setArnDefaults defaults => { held with arnDefaults := defaults }

/-- What is held after changes, one after the other. -/
def run (held : Contents) (steps : List Step) : Contents :=
  steps.foldl apply held

/-- An addition can change places with the change behind it. -/
theorem apply_comm (held : Contents) {addition : Step} (haddition : addition.isAddition = true)
    (step : Step) :
    (held.apply addition).apply step = (held.apply step).apply addition := by
  cases addition with
  | addAction action =>
    cases step with
    | addAction other => simp only [apply, Finset.insert_comm]
    | _ => rfl
  | addResource resource =>
    cases step with
    | addResource other => simp only [apply, Finset.insert_comm]
    | _ => rfl
  | addCondition key values operator =>
    cases step with
    | addCondition otherKey more other =>
      simp only [apply, Contents.mk.injEq, true_and, and_true]
      funext own ownKey
      by_cases hsame : operator = other ∧ key = otherKey
      · obtain ⟨rfl, rfl⟩ := hsame
        simp only [and_self, if_true, Option.getD_some, Finset.union_right_comm]
        split <;> rfl
      · grind
    | _ => rfl
  | _ => cases haddition

/-- An addition that is made first may as well be made last. -/
theorem run_apply_comm (held : Contents) {addition : Step} (haddition : addition.isAddition = true)
    (steps : List Step) : (held.apply addition).run steps = (held.run steps).apply addition := by
  induction steps generalizing held with
  | nil => rfl
  | cons step steps ih =>
    have hcons : ∀ own : Contents, own.run (step :: steps) = (own.apply step).run steps := fun _ => rfl
    rw [hcons, hcons, apply_comm held haddition, ih]

/-- The settings of a run can all be made first. -/
theorem run_eq_settings_additions (held : Contents) (steps : List Step) :
    held.run steps =
      (held.run (steps.filter (!·.isAddition))).run (steps.filter (·.isAddition)) := by
  induction steps generalizing held with
  | nil => rfl
  | cons step steps ih =>
    have hcons : ∀ (own : Contents) more, own.run (step :: more) = (own.apply step).run more :=
      fun _ _ => rfl
    rw [hcons, ih]
    cases hstep : step.isAddition with
    | true =>
      rw [List.filter_cons_of_neg (by simp [hstep]), List.filter_cons_of_pos hstep, hcons,
        run_apply_comm held hstep]
    | false =>
      rw [List.filter_cons_of_pos (by simp [hstep]), List.filter_cons_of_neg (by simp [hstep]), hcons]

/-- Runs that make the same settings in the same order, and the same additions in any, lead to the
same. -/
theorem run_eq_of_perm (held : Contents) {steps others : List Step}
    (hsettings : steps.filter (!·.isAddition) = others.filter (!·.isAddition))
    (hadditions : (steps.filter (·.isAddition)).Perm (others.filter (·.isAddition))) :
    held.run steps = held.run others := by
  rw [run_eq_settings_additions, run_eq_settings_additions held others, hsettings]
  refine hadditions.foldl_eq' ?_ _
  intro step hstep other _ own
  exact apply_comm own (List.mem_filter.mp hstep).2 other

end Contents

/-- A change acts on what a statement holds, whatever the order in which it holds it. -/
theorem contents_apply (statement : Statement) (step : Step) :
    (statement.apply step).contents = statement.contents.apply step := by
  cases step with
  | addAction action =>
    simp only [contents, apply, Statement.addAction, Contents.apply, Ordered.toFinset_insert]
  | addResource resource =>
    simp only [contents, apply, Statement.addResource, Contents.apply, Ordered.toFinset_insert]
  | addCondition key values operator =>
    simp only [contents, apply, Statement.addCondition, Contents.apply, Contents.mk.injEq, true_and,
      and_true]
    funext other otherKey
    split
    · rename_i hsame
      obtain ⟨rfl, rfl⟩ := hsame
      rw [Clauses.values?_add_self, Option.map_some, Ordered.toFinset_insertAll]
      cases statement.conditions.values? other otherKey <;> rfl
    · rename_i hne
      rw [Clauses.values?_add_of_ne hne]
  | _ => rfl

/-- The contents of a statement after a run depend on its contents before and on the run. -/
theorem contents_run (statement : Statement) (steps : List Step) :
    (statement.run steps).contents = statement.contents.run steps := by
  induction steps generalizing statement with
  | nil => rfl
  | cons step steps ih =>
    have hrun : statement.run (step :: steps) = (statement.apply step).run steps := rfl
    rw [hrun, ih, contents_apply]
    rfl

/-- Whether a change is news can be seen from what the statement holds. -/
theorem isNews_eq_of_contents {a b : Statement} (hsame : a.contents = b.contents) (step : Step) :
    a.isNews step = b.isNews step := by
  have hactions : ∀ action, action ∈ a.actions ↔ action ∈ b.actions := by
    intro action
    rw [← List.mem_toFinset, ← List.mem_toFinset]
    exact (congrArg (action ∈ Contents.actions ·) hsame).to_iff
  have hresources : ∀ resource, resource ∈ a.resources ↔ resource ∈ b.resources := by
    intro resource
    rw [← List.mem_toFinset, ← List.mem_toFinset]
    exact (congrArg (resource ∈ Contents.resources ·) hsame).to_iff
  cases step <;> simp [isNews, hactions, hresources]

end Statement

end PolicyForge
