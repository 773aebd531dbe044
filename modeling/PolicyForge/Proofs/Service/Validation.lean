import PolicyForge.Proofs.Condition.KeyTemplate
import PolicyForge.Proofs.Failing
import PolicyForge.Proofs.Json.Reading
import PolicyForge.Proofs.Lists
import PolicyForge.Proofs.Service.Links

namespace PolicyForge.Service

open Catalog (ActionEntry KeyEntry Record ResourceEntry ResourceRow)

/-- Entries checked one after the other, each against the given results and those of the entries
before it. -/
inductive Checked {α β : Type} (check : List β → α → Except Catalog.Error β) :
    List β → List α → List β → Prop where
  | nil {earlier : List β} : Checked check earlier [] []
  | cons {earlier : List β} {entry : α} {entries : List α} {result : β} {results : List β}
      (hentry : check earlier entry = .ok result)
      (hentries : Checked check (earlier ++ [result]) entries results) :
      Checked check earlier (entry :: entries) (result :: results)

private theorem foldlM_eq_ok_iff {α β : Type} {check : List β → α → Except Catalog.Error β}
    {earlier : List β} {entries : List α} {all : List β} :
    entries.foldlM (fun earlier entry => do return earlier ++ [← check earlier entry]) earlier =
      .ok all ↔ ∃ results, all = earlier ++ results ∧ Checked check earlier entries results := by
  induction entries generalizing earlier with
  | nil =>
    constructor
    · intro h
      cases h
      exact ⟨[], by simp, .nil⟩
    · rintro ⟨results, rfl, hchecked⟩
      cases hchecked
      simp [pure, Except.pure]
  | cons entry entries ih =>
    rw [List.foldlM_cons, Failing.bind_eq_ok]
    simp only [ih, Failing.bind_eq_ok]
    constructor
    · rintro ⟨_, ⟨result, hentry, heq⟩, results, rfl, hentries⟩
      cases heq
      exact ⟨result :: results, by simp, .cons hentry hentries⟩
    · rintro ⟨results, rfl, hchecked⟩
      cases hchecked with
      | @cons _ _ _ result results hentry hentries =>
        exact ⟨_, ⟨result, hentry, rfl⟩, results, by simp, hentries⟩

/-- Checking in order succeeds just with the results of checks that all succeed. -/
theorem checkInOrder_eq_ok_iff {α β : Type} {check : List β → α → Except Catalog.Error β}
    {entries : List α} {results : List β} :
    checkInOrder check entries = .ok results ↔ Checked check [] entries results := by
  rw [checkInOrder, foldlM_eq_ok_iff]
  simp

/-- The results of a check are related to their entries one to one, in order. -/
theorem Checked.forall₂ {α β : Type} {check : List β → α → Except Catalog.Error β}
    {related : α → β → Prop}
    (hrelated : ∀ before entry result, check before entry = .ok result → related entry result)
    {earlier results : List β} {entries : List α}
    (hchecked : Checked check earlier entries results) : List.Forall₂ related entries results := by
  induction hchecked with
  | nil => exact .nil
  | cons hentry _ ih => exact .cons (hrelated _ _ _ hentry) ih

theorem Checked.exists_of_mem {α β : Type} {check : List β → α → Except Catalog.Error β}
    {earlier results : List β} {entries : List α} (hchecked : Checked check earlier entries results)
    {result : β} (hmem : result ∈ results) :
    ∃ before, ∃ entry ∈ entries, check before entry = .ok result := by
  have hmade : List.Forall₂ (fun entry result => ∃ before, check before entry = .ok result)
      entries results := hchecked.forall₂ fun before _ _ hcheck => ⟨before, hcheck⟩
  obtain ⟨entry, hentry, before, hcheck⟩ := Lists.exists_of_mem_forall₂ hmade hmem
  exact ⟨before, entry, hentry, hcheck⟩

theorem Checked.exists_getElem? {α β : Type} {check : List β → α → Except Catalog.Error β}
    {earlier results : List β} {entries : List α} (hchecked : Checked check earlier entries results)
    {index : Nat} {entry : α} (hentry : entries[index]? = some entry) :
    ∃ result before, results[index]? = some result ∧ check before entry = .ok result := by
  have hmade : List.Forall₂ (fun entry result => ∃ before, check before entry = .ok result)
      entries results := hchecked.forall₂ fun before _ _ hcheck => ⟨before, hcheck⟩
  obtain ⟨result, hresult, before, hcheck⟩ := Lists.exists_getElem?_of_forall₂ hmade hentry
  exact ⟨result, before, hresult, hcheck⟩

/-- Results that have each been told apart from those before them are pairwise different. -/
theorem Checked.nodup {α β γ : Type} {check : List β → α → Except Catalog.Error β} {name : β → γ}
    (hfresh : ∀ before entry result, check before entry = .ok result →
      ∀ other ∈ before, name other ≠ name result)
    {earlier results : List β} {entries : List α}
    (hchecked : Checked check earlier entries results) (hearlier : (earlier.map name).Nodup) :
    ((earlier ++ results).map name).Nodup := by
  induction hchecked with
  | nil => simpa using hearlier
  | @cons earlier entry _ result results hentry _ ih =>
    have hnext : ((earlier ++ [result]).map name).Nodup := by
      rw [List.map_append, List.nodup_append]
      refine ⟨hearlier, List.pairwise_singleton _ _, ?_⟩
      intro own hown last hlast
      obtain ⟨other, hother, rfl⟩ := List.mem_map.mp hown
      obtain rfl := List.mem_singleton.mp hlast
      exact hfresh earlier entry result hentry other hother
    simpa using ih hnext

/-- A checked ARN was given, and its text without the blanks around it is a template. -/
theorem checkArn_eq_ok {servicePrefix location : String} {arn : Option String}
    {template : Arn.Template} (hok : checkArn servicePrefix location arn = .ok template) :
    Text.trim (arn.getD "") ≠ "" ∧ Arn.Template.parse (Text.trim (arn.getD "")) = .ok template := by
  unfold checkArn at hok
  dsimp only at hok
  split at hok
  · cases hok
  · rename_i hempty
    split at hok
    · rename_i parsed hparse
      cases hok
      exact ⟨by simpa using hempty, hparse⟩
    · cases hok

/-- What a checked resource type passed, and what each of its fields is. -/
theorem checkResource_eq_ok {servicePrefix : String} {declared : List ConditionKey}
    {earlier : List ResourceType} {entry : ResourceEntry} {resource : ResourceType}
    (hok : checkResource servicePrefix declared earlier entry = .ok resource) :
    Text.trim entry.name ≠ "" ∧ (∀ other ∈ earlier, other.name ≠ Text.trim entry.name) ∧
      ∃ arn keys,
        checkArn servicePrefix ("resourceTypes." ++ Text.trim entry.name ++ ".arn") entry.arn =
          .ok arn ∧
        resolveKeys servicePrefix declared
          ("resourceTypes." ++ Text.trim entry.name ++ ".conditionKeys") entry.conditionKeys =
          .ok keys ∧
        resource = ⟨Text.trim entry.name, Text.trim entry.url, arn, keys⟩ := by
  unfold checkResource at hok
  dsimp only at hok
  split at hok
  · cases hok
  · rename_i hempty
    split at hok
    · cases hok
    · rename_i hduplicate
      obtain ⟨arn, harn, hok⟩ := Failing.bind_eq_ok.mp hok
      obtain ⟨keys, hkeys, hok⟩ := Failing.bind_eq_ok.mp hok
      obtain rfl := Except.ok.inj hok
      refine ⟨by simpa using hempty, ?_, arn, keys, harn, hkeys, rfl⟩
      simpa using hduplicate

/-- A key that is accepted was read from its text as it is qualified, and names a known type. -/
theorem checkKey_eq_ok {servicePrefix : String} {declared : List ConditionKey} {entry : KeyEntry}
    {key : ConditionKey} (hok : checkKey servicePrefix declared entry = .ok key) :
    (∀ other ∈ declared, other.key.raw ≠ qualifyKey servicePrefix entry.key) ∧
      ∃ template valueType,
        Condition.KeyTemplate.parse? (qualifyKey servicePrefix entry.key) = some template ∧
        Condition.ValueType.ofLabel? (entry.valueType.getD "") = some valueType ∧
        key = ⟨template, Text.trim entry.description, Text.trim entry.url, valueType, [], []⟩ := by
  unfold checkKey at hok
  dsimp only at hok
  split at hok
  · cases hok
  · rename_i hduplicate
    split at hok
    · cases hok
    · rename_i template hparse
      split at hok
      · cases hok
      · rename_i valueType hlabel
        obtain rfl := Except.ok.inj hok
        exact ⟨by simpa using hduplicate, template, valueType, hparse, hlabel, rfl⟩

theorem raw_of_checkKey {servicePrefix : String} {declared : List ConditionKey} {entry : KeyEntry}
    {key : ConditionKey} (hok : checkKey servicePrefix declared entry = .ok key) :
    key.key.raw = qualifyKey servicePrefix entry.key := by
  obtain ⟨_, _, _, hparse, _, rfl⟩ := checkKey_eq_ok hok
  exact (Condition.KeyTemplate.parse?_eq_some hparse).1

theorem resolveKey_eq_ok_iff {servicePrefix location reference key : String}
    {declared : List ConditionKey} :
    resolveKey servicePrefix declared location reference = .ok key ↔
      (∃ condition ∈ declared, condition.key.raw = qualifyKey servicePrefix reference) ∧
        key = qualifyKey servicePrefix reference := by
  have hdeclared : declared.any (·.key.raw == qualifyKey servicePrefix reference) = true ↔
      ∃ condition ∈ declared, condition.key.raw = qualifyKey servicePrefix reference := by
    simp
  unfold resolveKey
  dsimp only
  split
  · rename_i hnamed
    simp [hdeclared.mp hnamed, eq_comm]
  · rename_i hnamed
    simp only [flaw, reduceCtorEq, false_iff]
    exact fun h => hnamed (hdeclared.mpr h.1)

/-- References are resolved when all of them, as they are qualified, name declared keys. -/
theorem resolveKeys_eq_ok_iff {servicePrefix location : String} {declared : List ConditionKey}
    {references keys : List String} :
    resolveKeys servicePrefix declared location references = .ok keys ↔
      (∀ reference ∈ references, ∃ condition ∈ declared,
        condition.key.raw = qualifyKey servicePrefix reference) ∧
      keys = (references.map (qualifyKey servicePrefix)).eraseDups := by
  have hinserted := Ordered.insertAll_eraseDups [] (references.map (qualifyKey servicePrefix))
  simp only [List.eraseDups_nil, List.nil_append] at hinserted
  rw [resolveKeys, Failing.bind_eq_ok]
  simp only [Failing.mapM_eq_ok_iff_forall fun _ _ => resolveKey_eq_ok_iff]
  constructor
  · rintro ⟨_, ⟨hnamed, rfl⟩, hkeys⟩
    exact ⟨hnamed, hinserted ▸ (Except.ok.inj hkeys).symm⟩
  · rintro ⟨hnamed, rfl⟩
    exact ⟨_, ⟨hnamed, rfl⟩, congrArg Except.ok hinserted⟩

/-- Only keys that are declared are kept, in the spelling in which they are declared. -/
theorem exists_declared_of_mem_resolveKeys {servicePrefix location : String}
    {declared : List ConditionKey} {references keys : List String}
    (hok : resolveKeys servicePrefix declared location references = .ok keys) {key : String}
    (hkey : key ∈ keys) : ∃ condition ∈ declared, condition.key.raw = key := by
  obtain ⟨hnamed, rfl⟩ := resolveKeys_eq_ok_iff.mp hok
  obtain ⟨reference, hreference, rfl⟩ := List.mem_map.mp (List.mem_eraseDups.mp hkey)
  exact hnamed reference hreference

/-- Resolved references are without repetitions, as a reference that repeats an earlier one is left
out. -/
theorem nodup_of_resolveKeys {servicePrefix location : String} {declared : List ConditionKey}
    {references keys : List String}
    (hok : resolveKeys servicePrefix declared location references = .ok keys) : keys.Nodup := by
  obtain ⟨_, rfl⟩ := resolveKeys_eq_ok_iff.mp hok
  exact Ordered.nodup_eraseDups _

/-- A row resolves to the name of a declared resource type, with its flag. -/
theorem resolveRow_eq_ok_iff {servicePrefix location : String} {declared : List ResourceType}
    {row : ResourceRow} {named : String × Bool} :
    resolveRow servicePrefix declared location row = .ok named ↔
      (∃ resource ∈ declared, resource.name = Text.trim row.name) ∧
        named = (Text.trim row.name, row.required) := by
  have hdeclared : declared.any (·.name == Text.trim row.name) = true ↔
      ∃ resource ∈ declared, resource.name = Text.trim row.name := by
    simp
  unfold resolveRow
  dsimp only
  split
  · rename_i hnamed
    simp [hdeclared.mp hnamed, eq_comm]
  · rename_i hnamed
    simp only [flaw, reduceCtorEq, false_iff]
    exact fun h => hnamed (hdeclared.mpr h.1)

private theorem foldl_or (start : Bool) (flags : List Bool) :
    flags.foldl (· || ·) start = (start || flags.any id) := by
  induction flags generalizing start with
  | nil => simp
  | cons flag flags ih => rw [List.foldl_cons, ih, List.any_cons, id, Bool.or_assoc]

/-- Rows are resolved when all of them name declared resource types. Each of these is listed once,
in order of first mention, and is required when any row that names it requires it. -/
theorem resolveRows_eq_ok_iff {servicePrefix location : String} {declared : List ResourceType}
    {rows : List ResourceRow} {resources : List ActionResource} :
    resolveRows servicePrefix declared location rows = .ok resources ↔
      (∀ row ∈ rows, ∃ resource ∈ declared, resource.name = Text.trim row.name) ∧
      resources = (rows.map (Text.trim ·.name)).eraseDups.map fun name =>
        ⟨name, rows.any fun row => Text.trim row.name == name && row.required⟩ := by
  have hmerged : ((rows.map fun row => (Text.trim row.name, row.required)).foldl
        (fun merged named => Ordered.update named.1 false (· || named.2) merged) []).map
        (fun named => (⟨named.1, named.2⟩ : ActionResource)) =
      (rows.map (Text.trim ·.name)).eraseDups.map fun name =>
        ⟨name, rows.any fun row => Text.trim row.name == name && row.required⟩ := by
    have hfolded := Ordered.foldl_update_nil (· || ·) false
      (rows.map fun row => (Text.trim row.name, row.required))
    refine (congrArg (List.map _) hfolded).trans ?_
    rw [Ordered.folded_eq_map, List.map_map, List.map_map]
    apply List.map_congr_left
    intro name _
    simp [foldl_or, List.filter_map, List.any_filter, Function.comp_def]
  rw [resolveRows, Failing.bind_eq_ok]
  simp only [Failing.mapM_eq_ok_iff_forall fun _ _ => resolveRow_eq_ok_iff]
  constructor
  · rintro ⟨_, ⟨hnamed, rfl⟩, hresources⟩
    exact ⟨hnamed, hmerged ▸ (Except.ok.inj hresources).symm⟩
  · rintro ⟨hnamed, rfl⟩
    exact ⟨_, ⟨hnamed, rfl⟩, congrArg Except.ok hmerged⟩

/-- What a checked action passed, and what each of its fields is. -/
theorem checkAction_eq_ok {servicePrefix : String} {declared : List ConditionKey}
    {resourceTypes : List ResourceType} {earlier : List Action} {entry : ActionEntry}
    {action : Action}
    (hok : checkAction servicePrefix declared resourceTypes earlier entry = .ok action) :
    Text.trim entry.name ≠ "" ∧
      (∀ other ∈ earlier, other.name.toLower ≠ (Text.trim entry.name).toLower) ∧
      ∃ level rows keys,
        AccessLevel.ofLabel? entry.accessLevel = some level ∧
        resolveRows servicePrefix resourceTypes
          ("actions." ++ Text.trim entry.name ++ ".resourceTypes") entry.resourceTypes = .ok rows ∧
        resolveKeys servicePrefix declared ("actions." ++ Text.trim entry.name ++ ".conditions")
          (entry.conditions ++ entry.resourceTypes.flatMap (·.conditions)) = .ok keys ∧
        action = ⟨Text.trim entry.name, Text.trim entry.description, Text.trim entry.url, level,
          rows, keys, entry.dependentActions.map Text.trim⟩ := by
  unfold checkAction at hok
  dsimp only at hok
  split at hok
  · cases hok
  · rename_i hempty
    split at hok
    · cases hok
    · rename_i hduplicate
      split at hok
      · cases hok
      · rename_i level hlevel
        obtain ⟨rows, hrows, hok⟩ := Failing.bind_eq_ok.mp hok
        obtain ⟨keys, hkeys, hok⟩ := Failing.bind_eq_ok.mp hok
        obtain rfl := Except.ok.inj hok
        refine ⟨by simpa using hempty, ?_, level, rows, keys, hlevel, hrows, hkeys, rfl⟩
        simpa using hduplicate

section

variable {servicePrefix : String} {keys : List ConditionKey} {resourceTypes : List ResourceType}
  {actions : List Action}

theorem Checked.nodup_raws {entries : List KeyEntry}
    (hchecked : Checked (checkKey servicePrefix) [] entries keys) :
    (keys.map (·.key.raw)).Nodup := by
  apply hchecked.nodup _ List.nodup_nil
  intro before entry key hcheck other hother
  rw [raw_of_checkKey hcheck]
  exact (checkKey_eq_ok hcheck).1 other hother

theorem Checked.nodup_resourceNames {entries : List ResourceEntry}
    (hchecked : Checked (checkResource servicePrefix keys) [] entries resourceTypes) :
    (resourceTypes.map (·.name)).Nodup := by
  apply hchecked.nodup _ List.nodup_nil
  intro before entry resource hcheck other hother
  obtain ⟨_, hfresh, _, _, _, _, rfl⟩ := checkResource_eq_ok hcheck
  exact hfresh other hother

/-- The names of actions differ even when the case of letters does not count. -/
theorem Checked.nodup_actionNames {entries : List ActionEntry}
    (hchecked : Checked (checkAction servicePrefix keys resourceTypes) [] entries actions) :
    (actions.map (·.name.toLower)).Nodup := by
  apply hchecked.nodup _ List.nodup_nil
  intro before entry action hcheck other hother
  obtain ⟨_, hfresh, _, _, _, _, _, _, rfl⟩ := checkAction_eq_ok hcheck
  exact hfresh other hother

/-- Linking what was checked gives every key just the resource types and actions that name it. -/
theorem Checked.foldl_link_eq_relate {keyEntries : List KeyEntry}
    {resourceEntries : List ResourceEntry} {actionEntries : List ActionEntry}
    (hkeys : Checked (checkKey servicePrefix) [] keyEntries keys)
    (hresources : Checked (checkResource servicePrefix keys) [] resourceEntries resourceTypes)
    (hactions : Checked (checkAction servicePrefix keys resourceTypes) [] actionEntries actions) :
    actions.foldl linkAction (resourceTypes.foldl linkResourceType keys) =
      keys.map (ConditionKey.relate actions resourceTypes) := by
  have hnames : (actions.map (·.name)).Nodup := by
    have hlower : ((actions.map (·.name)).map String.toLower).Nodup := by
      rw [List.map_map]
      exact hactions.nodup_actionNames
    exact List.Pairwise.of_map String.toLower
      (fun _ _ hne heq => hne (congrArg String.toLower heq)) hlower
  apply Service.foldl_link_eq_relate _ _ hnames hkeys.nodup_raws
  · intro key hkey
    obtain ⟨_, _, _, hcheck⟩ := hkeys.exists_of_mem hkey
    obtain ⟨_, _, _, _, _, rfl⟩ := checkKey_eq_ok hcheck
    exact ⟨rfl, rfl⟩
  · intro resource hresource
    obtain ⟨_, _, _, hcheck⟩ := hresources.exists_of_mem hresource
    obtain ⟨_, _, _, _, _, hresolved, rfl⟩ := checkResource_eq_ok hcheck
    exact nodup_of_resolveKeys hresolved
  · intro action haction
    obtain ⟨_, _, _, hcheck⟩ := hactions.exists_of_mem haction
    obtain ⟨_, _, _, _, _, _, _, hresolved, rfl⟩ := checkAction_eq_ok hcheck
    exact nodup_of_resolveKeys hresolved

end

/-- A record is accepted when its prefix is not blank and all of its entries are, and this is the
service then. -/
theorem ofRecord_eq_ok_iff {record : Record} {service : Service} :
    ofRecord record = .ok service ↔ Text.trim record.servicePrefix ≠ "" ∧
      ∃ keys resourceTypes actions,
        Checked (checkKey (Text.trim record.servicePrefix)) [] record.conditionKeys keys ∧
        Checked (checkResource (Text.trim record.servicePrefix) keys) [] record.resourceTypes
          resourceTypes ∧
        Checked (checkAction (Text.trim record.servicePrefix) keys resourceTypes) [] record.actions
          actions ∧
        service =
          { name := if (Text.trim record.name).isEmpty then Text.trim record.servicePrefix
              else Text.trim record.name
            servicePrefix := Text.trim record.servicePrefix
            url := record.url
            actions
            resourceTypes
            conditionKeys := keys.map (ConditionKey.relate actions resourceTypes) } := by
  unfold ofRecord
  dsimp only
  split
  · rename_i hempty
    simp [flaw, show Text.trim record.servicePrefix = "" by simpa using hempty]
  · rename_i hempty
    simp only [Failing.bind_eq_ok, checkInOrder_eq_ok_iff]
    constructor
    · rintro ⟨keys, hkeys, resourceTypes, hresourceTypes, actions, hactions, hservice⟩
      refine ⟨by simpa using hempty, keys, resourceTypes, actions, hkeys, hresourceTypes, hactions, ?_⟩
      rw [← hkeys.foldl_link_eq_relate hresourceTypes hactions]
      exact (Except.ok.inj hservice).symm
    · rintro ⟨-, keys, resourceTypes, actions, hkeys, hresourceTypes, hactions, rfl⟩
      refine ⟨keys, hkeys, resourceTypes, hresourceTypes, actions, hactions, ?_⟩
      rw [← hkeys.foldl_link_eq_relate hresourceTypes hactions]
      rfl

/-- What a service has of its record: a prefix, and the results of checking all entries. -/
theorem ofRecord_eq_ok {record : Record} {service : Service}
    (hok : ofRecord record = .ok service) :
    service.servicePrefix = Text.trim record.servicePrefix ∧ service.servicePrefix ≠ "" ∧
      ∃ keys,
        Checked (checkKey service.servicePrefix) [] record.conditionKeys keys ∧
        Checked (checkResource service.servicePrefix keys) [] record.resourceTypes
          service.resourceTypes ∧
        Checked (checkAction service.servicePrefix keys service.resourceTypes) [] record.actions
          service.actions ∧
        service.conditionKeys =
          keys.map (ConditionKey.relate service.actions service.resourceTypes) := by
  obtain ⟨hne, keys, resourceTypes, actions, hkeys, hresourceTypes, hactions, rfl⟩ :=
    ofRecord_eq_ok_iff.mp hok
  exact ⟨rfl, hne, keys, hkeys, hresourceTypes, hactions, rfl⟩

/-- The template of every resource type of a service was read from its text. -/
theorem exists_parse_of_mem_resourceTypes {record : Record} {service : Service}
    (hok : ofRecord record = .ok service) {resource : ResourceType}
    (hresource : resource ∈ service.resourceTypes) :
    ∃ raw, Arn.Template.parse raw = .ok resource.arn := by
  obtain ⟨_, _, keys, _, hresourceTypes, _⟩ := ofRecord_eq_ok hok
  obtain ⟨earlier, entry, _, hcheck⟩ := hresourceTypes.exists_of_mem hresource
  obtain ⟨_, _, arn, _, harn, _, rfl⟩ := checkResource_eq_ok hcheck
  exact ⟨_, (checkArn_eq_ok harn).2⟩

/-- Every condition key of a service was read from its text. -/
theorem exists_parse_of_mem_conditionKeys {record : Record} {service : Service}
    (hok : ofRecord record = .ok service) {condition : ConditionKey}
    (hcondition : condition ∈ service.conditionKeys) :
    ∃ entry ∈ record.conditionKeys,
      Condition.KeyTemplate.parse? (qualifyKey service.servicePrefix entry.key) =
        some condition.key ∧
      Condition.ValueType.ofLabel? (entry.valueType.getD "") = some condition.valueType := by
  obtain ⟨_, _, keys, hchecked, _, _, hkeys⟩ := ofRecord_eq_ok hok
  rw [hkeys] at hcondition
  obtain ⟨key, hkey, rfl⟩ := List.mem_map.mp hcondition
  obtain ⟨_, entry, hentry, hcheck⟩ := hchecked.exists_of_mem hkey
  obtain ⟨_, _, _, hparse, hlabel, rfl⟩ := checkKey_eq_ok hcheck
  exact ⟨entry, hentry, hparse, hlabel⟩

theorem parse?_raw_of_mem_conditionKeys {record : Record} {service : Service}
    (hok : ofRecord record = .ok service) {condition : ConditionKey}
    (hcondition : condition ∈ service.conditionKeys) :
    Condition.KeyTemplate.parse? condition.key.raw = some condition.key := by
  obtain ⟨_, _, hparse, _⟩ := exists_parse_of_mem_conditionKeys hok hcondition
  have hraw := (Condition.KeyTemplate.parse?_eq_some hparse).1
  rw [hraw]
  exact hparse

/-- Every condition key that an action or a resource type names is a key of the service. -/
structure KeysDeclared (service : Service) : Prop where
  actions : ∀ action ∈ service.actions, ∀ key ∈ action.conditions,
    ∃ condition ∈ service.conditionKeys, condition.key.raw = key
  resourceTypes : ∀ resource ∈ service.resourceTypes, ∀ key ∈ resource.conditionKeys,
    ∃ condition ∈ service.conditionKeys, condition.key.raw = key

/-- Every key that an action or a resource type refers to is declared. -/
theorem keysDeclared_of_ofRecord {record : Record} {service : Service}
    (hok : ofRecord record = .ok service) : KeysDeclared service := by
  obtain ⟨_, _, keys, _, hresourceTypes, hactions, hkeys⟩ := ofRecord_eq_ok hok
  have hrelated : ∀ key, (∃ condition ∈ keys, condition.key.raw = key) →
      ∃ condition ∈ service.conditionKeys, condition.key.raw = key := by
    rintro key ⟨condition, hmem, hraw⟩
    rw [hkeys]
    exact ⟨_, List.mem_map_of_mem hmem, hraw⟩
  constructor
  · intro action haction key hkey
    obtain ⟨_, _, _, hcheck⟩ := hactions.exists_of_mem haction
    obtain ⟨_, _, _, _, _, _, _, hresolved, rfl⟩ := checkAction_eq_ok hcheck
    exact hrelated key (exists_declared_of_mem_resolveKeys hresolved hkey)
  · intro resource hresource key hkey
    obtain ⟨_, _, _, hcheck⟩ := hresourceTypes.exists_of_mem hresource
    obtain ⟨_, _, _, _, _, hresolved, rfl⟩ := checkResource_eq_ok hcheck
    exact hrelated key (exists_declared_of_mem_resolveKeys hresolved hkey)

/-- Only a record that is accepted gives a service. -/
theorem exists_ofRecord_of_ofText {label text : String} {service : Service}
    (hok : ofText label text = .ok service) : ∃ record, ofRecord record = .ok service := by
  obtain ⟨record, _, hrecord⟩ := Failing.bind_eq_ok.mp hok
  exact ⟨record, hrecord⟩

theorem ofText_of_document {text : String} {value : Json}
    (hdocument : Json.Grammar.Document text value) (label : String) :
    ofText label text = Record.ofJson label value >>= ofRecord := by
  rw [ofText, Record.ofText, Json.read?_of_document hdocument]

end PolicyForge.Service
