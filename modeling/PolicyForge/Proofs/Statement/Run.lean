import PolicyForge.Proofs.Ordered
import PolicyForge.Statement.Basic

namespace PolicyForge

attribute [ext] Statement

/-- The clauses that additions under an operator and a key lead to, said at once: the operators in
order of first use, under each the keys in order of first use with it, and under these the first
occurrences among all values added there. -/
def Clauses.ofAdditions (additions : List (Condition.Operator × String × List String)) : Clauses :=
  (Ordered.grouped additions).map fun (operator, own) =>
    (operator, (Ordered.grouped own).map fun (key, lists) => (key, lists.flatten.eraseDups))

/-- Clauses without repetitions, in which every operator has a key. A key may be without values. -/
structure Clauses.WellFormed (clauses : Clauses) : Prop where
  nodup_operators : (clauses.map (·.1)).Nodup
  keys_ne_nil : ∀ {operator keys}, (operator, keys) ∈ clauses → keys ≠ []
  nodup_keys : ∀ {operator keys}, (operator, keys) ∈ clauses → (keys.map (·.1)).Nodup
  nodup_values : ∀ {operator keys key values}, (operator, keys) ∈ clauses → (key, values) ∈ keys →
    values.Nodup

private theorem folded_insertAll (puts : List (String × List String)) :
    Ordered.folded Ordered.insertAll [] puts =
      (Ordered.grouped puts).map fun (key, lists) => (key, lists.flatten.eraseDups) := by
  apply List.map_congr_left
  rintro ⟨key, lists⟩ _
  have hvalues := Ordered.foldl_insertAll_eraseDups ([] : List String) lists
  simp only [List.eraseDups_nil, List.nil_append] at hvalues
  simp only [hvalues]

/-- The clauses of a run are those grouped by operator and key, in the order of first additions. -/
theorem Clauses.foldl_add (additions : List (Condition.Operator × String × List String)) :
    additions.foldl (fun clauses (operator, key, values) => add clauses operator key values) [] =
      ofAdditions additions := by
  have hupdates := Ordered.foldl_update_nil
    (fun keys (put : String × List String) =>
      Ordered.update put.1 [] (Ordered.insertAll · put.2) keys)
    [] additions
  refine Eq.trans hupdates ?_
  apply List.map_congr_left
  rintro ⟨operator, own⟩ _
  have hkeys := Ordered.foldl_update_nil Ordered.insertAll [] own
  rw [folded_insertAll] at hkeys
  simp only [← hkeys]

/-- Grouped additions are well-formed: no operator, key or value stands twice and no group is empty.
-/
theorem Clauses.wellFormed_ofAdditions
    (additions : List (Condition.Operator × String × List String)) :
    (ofAdditions additions).WellFormed := by
  have hmem : ∀ {operator keys}, (operator, keys) ∈ ofAdditions additions →
      ∃ own, own ≠ [] ∧ keys =
        (Ordered.grouped own).map fun (key, lists) => (key, lists.flatten.eraseDups) := by
    intro operator keys h
    obtain ⟨⟨_, own⟩, hgroup, heq⟩ := List.mem_map.mp h
    exact ⟨own, Ordered.ne_nil_of_mem_grouped hgroup, (Prod.mk.inj heq).2.symm⟩
  constructor
  · rw [ofAdditions, List.map_map]
    exact Ordered.keys_grouped additions ▸ Ordered.nodup_eraseDups _
  · intro operator keys h
    obtain ⟨own, hown, rfl⟩ := hmem h
    simpa using Ordered.grouped_ne_nil hown
  · intro operator keys h
    obtain ⟨own, _, rfl⟩ := hmem h
    rw [List.map_map]
    exact Ordered.keys_grouped own ▸ Ordered.nodup_eraseDups _
  · intro operator keys key values h hkey
    obtain ⟨own, _, rfl⟩ := hmem h
    obtain ⟨⟨_, lists⟩, _, heq⟩ := List.mem_map.mp hkey
    rw [← (Prod.mk.inj heq).2]
    exact Ordered.nodup_eraseDups _

namespace Statement

/-- The statement about nothing yet, with an identifier or without. -/
def start : Option String → Statement
  | some sid => withSid sid
  | none => empty

namespace Step

/-- The action that a change adds. -/
def action? : Step → Option String
  | addAction action => some action
  | _ => none

/-- The resource that a change adds. -/
def resource? : Step → Option String
  | addResource resource => some resource
  | _ => none

/-- The operator, key and values of a condition that a change adds. -/
def addition? : Step → Option (Condition.Operator × String × List String)
  | addCondition key values operator => some (operator, key, values)
  | _ => none

/-- The identifier that a change sets, which may be none. -/
def sid? : Step → Option (Option String)
  | setSid sid => some sid
  | _ => none

/-- The effect that a change sets. -/
def effect? : Step → Option Effect
  | setEffect effect => some effect
  | _ => none

/-- The value that a change gives to the negation of actions. -/
def notAction? : Step → Option Bool
  | setNotAction value => some value
  | _ => none

/-- The value that a change gives to the negation of resources. -/
def notResource? : Step → Option Bool
  | setNotResource value => some value
  | _ => none

/-- The resource name defaults that a change sets. -/
def arnDefaults? : Step → Option Arn.Defaults
  | setArnDefaults defaults => some defaults
  | _ => none

end Step

/-- A field that single changes act on, by what `view?` sees in them, is after a run what the seen
parts make of it in order. -/
theorem run_field {β ι : Type} (field : Statement → β) (view? : Step → Option ι)
    (act : β → ι → β)
    (hstep : ∀ statement step,
      field (apply statement step) = (view? step).elim (field statement) (act (field statement)))
    (statement : Statement) (steps : List Step) :
    field (statement.run steps) = (steps.filterMap view?).foldl act (field statement) := by
  induction steps generalizing statement with
  | nil => rfl
  | cons step steps ih =>
    have hrun : statement.run (step :: steps) = (statement.apply step).run steps := rfl
    rw [hrun, ih, hstep]
    cases hview : view? step with
    | none => simp [hview]
    | some seen => simp [hview]

private theorem foldl_last {α : Type} (initial : α) (xs : List α) :
    xs.foldl (fun _ x => x) initial = xs.getLastD initial := by
  induction xs generalizing initial with
  | nil => rfl
  | cons x xs ih => rw [List.foldl_cons, ih, List.getLastD_cons]

/-- A field that changes only replace holds the last value that was set. -/
theorem run_setting {β : Type} (field : Statement → β) (view? : Step → Option β)
    (hstep : ∀ statement step, field (apply statement step) = (view? step).getD (field statement))
    (statement : Statement) (steps : List Step) :
    field (statement.run steps) = (steps.filterMap view?).getLastD (field statement) := by
  rw [run_field field view? (fun _ value => value), foldl_last]
  intro statement step
  rw [hstep]
  cases view? step <;> rfl

/-- A field to which changes only add elements holds the first occurrence of each. -/
theorem run_insertions (field : Statement → List String) (view? : Step → Option String)
    (hstep : ∀ statement step, field (apply statement step) =
      (view? step).elim (field statement) (Ordered.insert (field statement)))
    (statement : Statement) (hempty : field statement = []) (steps : List Step) :
    field (statement.run steps) = (steps.filterMap view?).eraseDups := by
  rw [run_field field view? Ordered.insert hstep, hempty]
  exact Ordered.insertAll_eraseDups [] (steps.filterMap view?)

/-- Only the additions of conditions among the steps touch the clauses. -/
theorem run_conditions (statement : Statement) (hempty : statement.conditions = [])
    (steps : List Step) :
    (statement.run steps).conditions = .ofAdditions (steps.filterMap Step.addition?) := by
  rw [run_field (·.conditions) Step.addition?
    (fun clauses (operator, key, values) => Clauses.add clauses operator key values)
    (by rintro _ ⟨⟩ <;> rfl), hempty]
  exact Clauses.foldl_add _

/-- The statement that a run of changes leads to, said at once. -/
def ofSteps (sid : Option String) (steps : List Step) : Statement where
  sid := (steps.filterMap Step.sid?).getLastD sid
  effect := (steps.filterMap Step.effect?).getLastD .allow
  actions := (steps.filterMap Step.action?).eraseDups
  notAction := (steps.filterMap Step.notAction?).getLastD false
  resources := (steps.filterMap Step.resource?).eraseDups
  notResource := (steps.filterMap Step.notResource?).getLastD false
  conditions := .ofAdditions (steps.filterMap Step.addition?)
  arnDefaults := (steps.filterMap Step.arnDefaults?).getLastD {}

/-- A run comes to the statement that its steps describe. -/
theorem run_eq_ofSteps (sid : Option String) (steps : List Step) :
    (start sid).run steps = ofSteps sid steps := by
  have hstart : start sid = { sid } := by
    cases sid <;> rfl
  rw [hstart]
  apply Statement.ext
  case sid => exact run_setting (·.sid) Step.sid? (by rintro _ ⟨⟩ <;> rfl) _ steps
  case effect => exact run_setting (·.effect) Step.effect? (by rintro _ ⟨⟩ <;> rfl) _ steps
  case actions =>
    exact run_insertions (·.actions) Step.action? (by rintro _ ⟨⟩ <;> rfl) _ rfl steps
  case notAction =>
    exact run_setting (·.notAction) Step.notAction? (by rintro _ ⟨⟩ <;> rfl) _ steps
  case resources =>
    exact run_insertions (·.resources) Step.resource? (by rintro _ ⟨⟩ <;> rfl) _ rfl steps
  case notResource =>
    exact run_setting (·.notResource) Step.notResource? (by rintro _ ⟨⟩ <;> rfl) _ steps
  case conditions => exact run_conditions _ rfl steps
  case arnDefaults =>
    exact run_setting (·.arnDefaults) Step.arnDefaults? (by rintro _ ⟨⟩ <;> rfl) _ steps

/-- A statement without repetitions, and without operators that have no key. -/
structure WellFormed (statement : Statement) : Prop where
  nodup_actions : statement.actions.Nodup
  nodup_resources : statement.resources.Nodup
  conditions : statement.conditions.WellFormed

/-- Every run from the start is well-formed. -/
theorem wellFormed_run (sid : Option String) (steps : List Step) :
    ((start sid).run steps).WellFormed := by
  rw [run_eq_ofSteps]
  exact ⟨Ordered.nodup_eraseDups _, Ordered.nodup_eraseDups _, Clauses.wellFormed_ofAdditions _⟩

/-- An element is among those that changes added just when one of the changes adds it. -/
private theorem mem_added_iff {view? : Step → Option String} {add : String → Step}
    (hview : ∀ step text, view? step = some text ↔ step = add text) {steps : List Step}
    {text : String} : text ∈ (steps.filterMap view?).eraseDups ↔ add text ∈ steps := by
  rw [List.mem_eraseDups, List.mem_filterMap]
  constructor
  · rintro ⟨step, hstep, htext⟩
    rw [← (hview step text).mp htext]
    exact hstep
  · intro h
    exact ⟨_, h, (hview _ _).mpr rfl⟩

/-- An action is news just when the steps have not added it. -/
theorem isNews_addAction_iff (sid : Option String) (steps : List Step) (action : String) :
    ((start sid).run steps).isNews (.addAction action) = true ↔ .addAction action ∉ steps := by
  have hmem : action ∈ ((start sid).run steps).actions ↔ .addAction action ∈ steps := by
    rw [run_eq_ofSteps]
    exact mem_added_iff (by rintro ⟨⟩ text <;> simp [Step.action?])
  simp [isNews, hmem]

/-- A resource is news just when the steps have not added it. -/
theorem isNews_addResource_iff (sid : Option String) (steps : List Step) (resource : String) :
    ((start sid).run steps).isNews (.addResource resource) = true ↔
      .addResource resource ∉ steps := by
  have hmem : resource ∈ ((start sid).run steps).resources ↔ .addResource resource ∈ steps := by
    rw [run_eq_ofSteps]
    exact mem_added_iff (by rintro ⟨⟩ text <;> simp [Step.resource?])
  simp [isNews, hmem]

/-- A statement that changes can reach. -/
def Reachable (statement : Statement) : Prop :=
  ∃ sid steps, statement = (start sid).run steps

/-- Whatever can be reached is well-formed. -/
theorem Reachable.wellFormed {statement : Statement} (hreachable : statement.Reachable) :
    statement.WellFormed := by
  obtain ⟨sid, steps, rfl⟩ := hreachable
  exact wellFormed_run sid steps

/-- Changes in any order, those of the methods of shared condition keys among them, lead to the
statement that is read off them: elements in the order in which they were first added, and every
setting as it was last set. Nothing is held twice, no operator is without keys, and an addition is
news exactly when the same was not added before. -/
theorem run_characterized (sid : Option String) (steps : List Step) :
    (start sid).run steps = ofSteps sid steps ∧ ((start sid).run steps).WellFormed ∧
      (∀ action, ((start sid).run steps).isNews (.addAction action) = true ↔
        .addAction action ∉ steps) ∧
      ∀ resource, ((start sid).run steps).isNews (.addResource resource) = true ↔
        .addResource resource ∉ steps :=
  ⟨run_eq_ofSteps sid steps, wellFormed_run sid steps, isNews_addAction_iff sid steps,
    isNews_addResource_iff sid steps⟩

end Statement

end PolicyForge
