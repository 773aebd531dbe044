import PolicyForge.Proofs.Ordered
import PolicyForge.Service.Validation

namespace PolicyForge.Service

/-- The key with the actions and resource types that name it. -/
def ConditionKey.relate (actions : List Action) (resourceTypes : List ResourceType)
    (key : ConditionKey) : ConditionKey :=
  { key with
    relatedActions := (actions.filter (·.conditions.contains key.key.raw)).map (·.name)
    relatedResourceTypes :=
      (resourceTypes.filter (·.conditionKeys.contains key.key.raw)).map (·.name) }

/-- A change that leaves every key its text leaves the texts pairwise different. -/
theorem nodup_raws_map (change : ConditionKey → ConditionKey)
    (hchange : ∀ key, (change key).key = key.key) {keys : List ConditionKey}
    (hkeys : (keys.map (·.key.raw)).Nodup) : ((keys.map change).map (·.key.raw)).Nodup := by
  have hraws : (keys.map change).map (·.key.raw) = keys.map (·.key.raw) := by
    simp [hchange]
  rw [hraws]
  exact hkeys

/-- The first key of some text is the only one, so changing it by its position is changing it by its
text. -/
theorem modify_findIdx {keys : List ConditionKey} (hkeys : (keys.map (·.key.raw)).Nodup)
    (change : ConditionKey → ConditionKey) (reference : String) :
    keys.modify (keys.findIdx (·.key.raw == reference)) change =
      keys.map fun key => if key.key.raw == reference then change key else key := by
  induction keys with
  | nil => rfl
  | cons key keys ih =>
    obtain ⟨hfresh, hrest⟩ := List.nodup_cons.mp hkeys
    rw [List.findIdx_cons, List.map_cons]
    by_cases hkey : key.key.raw = reference
    · have hothers : keys.map (fun key => if key.key.raw == reference then change key else key) =
          keys.map id := by
        apply List.map_congr_left
        intro other hother
        have hne : other.key.raw ≠ reference := by
          intro heq
          exact hfresh (List.mem_map.mpr ⟨other, hother, heq.trans hkey.symm⟩)
        rw [if_neg (by simpa using hne), id]
      rw [hothers, List.map_id, beq_iff_eq.mpr hkey]
      rfl
    · rw [beq_false_of_ne hkey, ← ih hrest]
      rfl

/-- References that are pairwise different change just the keys that they name, each once. -/
theorem changeNamed_eq_map (change : ConditionKey → ConditionKey)
    (hchange : ∀ key, (change key).key = key.key) {references : List String}
    (hreferences : references.Nodup) {keys : List ConditionKey}
    (hkeys : (keys.map (·.key.raw)).Nodup) :
    changeNamed change keys references =
      keys.map fun key => if references.contains key.key.raw then change key else key := by
  induction references generalizing keys with
  | nil => simp [changeNamed]
  | cons reference references ih =>
    obtain ⟨hfresh, hrest⟩ := List.nodup_cons.mp hreferences
    have hraw : ∀ key : ConditionKey,
        (if key.key.raw == reference then change key else key).key = key.key := by
      intro key
      split
      · exact hchange key
      · rfl
    have hstep : changeNamed change keys (reference :: references) =
        changeNamed change (keys.map fun key => if key.key.raw == reference then change key else key)
          references := by
      rw [← modify_findIdx hkeys]
      rfl
    rw [hstep, ih hrest (nodup_raws_map _ hraw hkeys), List.map_map]
    apply List.map_congr_left
    intro key _
    simp only [Function.comp_apply, hraw]
    by_cases hkey : key.key.raw = reference
    · simp [hkey, hfresh]
    · simp [hkey]

/-- The key with more resource types noted behind those that it has. -/
def ConditionKey.withResourceTypes (names : List String) (key : ConditionKey) : ConditionKey :=
  { key with relatedResourceTypes := key.relatedResourceTypes ++ names }

/-- The key with more actions noted behind those that it has. -/
def ConditionKey.withActions (names : List String) (key : ConditionKey) : ConditionKey :=
  { key with relatedActions := key.relatedActions ++ names }

section

variable {keys : List ConditionKey}

/-- Linking resource types one after the other notes on every key those that name it, in order. -/
theorem foldl_linkResourceType {resourceTypes : List ResourceType}
    (hnodup : ∀ resource ∈ resourceTypes, resource.conditionKeys.Nodup)
    (hkeys : (keys.map (·.key.raw)).Nodup) :
    resourceTypes.foldl linkResourceType keys = keys.map fun key => key.withResourceTypes
      ((resourceTypes.filter (·.conditionKeys.contains key.key.raw)).map (·.name)) := by
  induction resourceTypes generalizing keys with
  | nil => simp [ConditionKey.withResourceTypes]
  | cons resource resourceTypes ih =>
    let note := fun key : ConditionKey =>
      if resource.conditionKeys.contains key.key.raw then key.noteResourceType resource.name else key
    have hstep : linkResourceType keys resource = keys.map note :=
      changeNamed_eq_map (·.noteResourceType resource.name) (fun _ => rfl)
        (hnodup resource List.mem_cons_self) hkeys
    have hnote : ∀ key, (note key).key = key.key := by
      intro key
      simp only [note]
      split <;> rfl
    have hrest := ih (fun other hother => hnodup other (List.mem_cons_of_mem _ hother))
      (nodup_raws_map note hnote hkeys)
    rw [List.foldl_cons, hstep, hrest, List.map_map]
    apply List.map_congr_left
    intro key _
    simp only [Function.comp_apply, hnote, List.filter_cons]
    simp only [note]
    split <;> simp [ConditionKey.noteResourceType, ConditionKey.withResourceTypes]

/-- Linking actions one after the other notes on every key those that name it, in order. No action
is passed over as noted already, since the names of actions differ. -/
theorem foldl_linkAction {actions : List Action}
    (hnodup : ∀ action ∈ actions, action.conditions.Nodup) (hnames : (actions.map (·.name)).Nodup)
    (hkeys : (keys.map (·.key.raw)).Nodup)
    (hfresh : ∀ key ∈ keys, ∀ action ∈ actions, action.name ∉ key.relatedActions) :
    actions.foldl linkAction keys = keys.map fun key => key.withActions
      ((actions.filter (·.conditions.contains key.key.raw)).map (·.name)) := by
  induction actions generalizing keys with
  | nil => simp [ConditionKey.withActions]
  | cons action actions ih =>
    obtain ⟨hname, hrest⟩ := List.nodup_cons.mp hnames
    let note := fun key : ConditionKey =>
      key.withActions (if action.conditions.contains key.key.raw then [action.name] else [])
    have hnote : ∀ key, (note key).key = key.key := fun _ => rfl
    have hstep : linkAction keys action = keys.map note := by
      rw [linkAction, changeNamed_eq_map (·.noteAction action.name) (fun _ => rfl)
        (hnodup action List.mem_cons_self) hkeys]
      apply List.map_congr_left
      intro key hkey
      have hnew := hfresh key hkey action List.mem_cons_self
      simp only [note, ConditionKey.withActions, ConditionKey.noteAction, Ordered.insert]
      split <;> simp [hnew]
    have hlater : ∀ key ∈ keys.map note, ∀ other ∈ actions, other.name ∉ key.relatedActions := by
      intro key hkey other hother
      obtain ⟨before, hbefore, rfl⟩ := List.mem_map.mp hkey
      have hne : other.name ≠ action.name := by
        intro heq
        exact hname (List.mem_map.mpr ⟨other, hother, heq⟩)
      have hold := hfresh before hbefore other (List.mem_cons_of_mem _ hother)
      simp only [note, ConditionKey.withActions, List.mem_append, not_or]
      refine ⟨hold, ?_⟩
      split <;> simp [hne]
    have hactions := ih (fun other hother => hnodup other (List.mem_cons_of_mem _ hother)) hrest
      (nodup_raws_map note hnote hkeys) hlater
    rw [List.foldl_cons, hstep, hactions, List.map_map]
    apply List.map_congr_left
    intro key _
    simp only [Function.comp_apply, hnote, List.filter_cons]
    simp only [note]
    split <;> simp [ConditionKey.withActions]

/-- In the end every key has just the resource types and actions that name it. -/
theorem foldl_link_eq_relate {actions : List Action} {resourceTypes : List ResourceType}
    (hresources : ∀ resource ∈ resourceTypes, resource.conditionKeys.Nodup)
    (hactions : ∀ action ∈ actions, action.conditions.Nodup)
    (hnames : (actions.map (·.name)).Nodup) (hkeys : (keys.map (·.key.raw)).Nodup)
    (hunrelated : ∀ key ∈ keys, key.relatedActions = [] ∧ key.relatedResourceTypes = []) :
    actions.foldl linkAction (resourceTypes.foldl linkResourceType keys) =
      keys.map (ConditionKey.relate actions resourceTypes) := by
  let note := fun key : ConditionKey => key.withResourceTypes
    ((resourceTypes.filter (·.conditionKeys.contains key.key.raw)).map (·.name))
  have hfresh : ∀ key ∈ keys.map note, ∀ action ∈ actions, action.name ∉ key.relatedActions := by
    intro key hkey action _
    obtain ⟨before, hbefore, rfl⟩ := List.mem_map.mp hkey
    simp [note, ConditionKey.withResourceTypes, (hunrelated before hbefore).1]
  have hnoted := nodup_raws_map note (fun _ => rfl) hkeys
  rw [foldl_linkResourceType hresources hkeys, foldl_linkAction hactions hnames hnoted hfresh,
    List.map_map]
  apply List.map_congr_left
  intro key hkey
  obtain ⟨hnoAction, hnoResource⟩ := hunrelated key hkey
  simp [note, ConditionKey.relate, ConditionKey.withActions, ConditionKey.withResourceTypes,
    hnoAction, hnoResource]

end

end PolicyForge.Service
