import PolicyForge.Proofs.Service.Validation

namespace PolicyForge

namespace Catalog

open Service (qualifyKey)

/-- The prefix of the service, which names it in errors. -/
def Record.trimmedPrefix (record : Record) : String :=
  Text.trim record.servicePrefix

/-- The condition keys that a record declares, in full. -/
def Record.declaredKeys (record : Record) : List String :=
  record.conditionKeys.map fun entry => qualifyKey record.trimmedPrefix entry.key

/-- The resource types that a record declares. -/
def Record.declaredResourceTypes (record : Record) : List String :=
  record.resourceTypes.map fun entry => Text.trim entry.name

/-- All that has to be right about a resource type of a record by itself. -/
structure Record.WellFormedResourceType (record : Record) (entry : ResourceEntry) : Prop where
  named : Text.trim entry.name ≠ ""
  arn : ∃ arn, entry.arn = some arn ∧ Text.trim arn ≠ "" ∧
    ∃ template, Arn.Template.parse (Text.trim arn) = .ok template
  keysDeclared : ∀ key ∈ entry.conditionKeys,
    qualifyKey record.trimmedPrefix key ∈ record.declaredKeys

/-- All that has to be right about an action of a record by itself. -/
structure Record.WellFormedAction (record : Record) (entry : ActionEntry) : Prop where
  named : Text.trim entry.name ≠ ""
  accessLevel : ∃ level, AccessLevel.ofLabel? entry.accessLevel = some level
  resourceTypesDeclared : ∀ row ∈ entry.resourceTypes,
    Text.trim row.name ∈ record.declaredResourceTypes
  keysDeclared : ∀ key ∈ entry.conditions,
    qualifyKey record.trimmedPrefix key ∈ record.declaredKeys
  rowKeysDeclared : ∀ row ∈ entry.resourceTypes, ∀ key ∈ row.conditions,
    qualifyKey record.trimmedPrefix key ∈ record.declaredKeys

/-- All that has to be right about a condition key of a record by itself. -/
structure Record.WellFormedKey (record : Record) (entry : KeyEntry) : Prop where
  template : ∃ template,
    Condition.KeyTemplate.parse? (qualifyKey record.trimmedPrefix entry.key) = some template
  valueType : ∃ type, Condition.ValueType.ofLabel? (entry.valueType.getD "") = some type

/-- A record that describes a service: every entry is right by itself, and no two entries of a kind
have one name. -/
structure Record.WellFormed (record : Record) : Prop where
  servicePrefix : record.trimmedPrefix ≠ ""
  keysDistinct : record.declaredKeys.Nodup
  keys : ∀ entry ∈ record.conditionKeys, record.WellFormedKey entry
  resourceTypesDistinct : record.declaredResourceTypes.Nodup
  resourceTypes : ∀ entry ∈ record.resourceTypes, record.WellFormedResourceType entry
  actionsDistinct : (record.actions.map fun entry => (Text.trim entry.name).toLower).Nodup
  actions : ∀ entry ∈ record.actions, record.WellFormedAction entry

/-- The error that is to be listed when something is wrong. -/
def listed (wrong : Prop) [Decidable wrong] (servicePrefix location : String)
    (violation : Violation) : List Error :=
  if wrong then [⟨servicePrefix, location, violation⟩] else []

/-- What is wrong with the entry of a condition key that stands behind earlier ones. -/
def keyViolations (servicePrefix : String) (earlier : List KeyEntry) (entry : KeyEntry) :
    List Error :=
  let key := qualifyKey servicePrefix entry.key
  let location := "conditions." ++ key
  let label := entry.valueType.getD ""
  listed (key ∈ earlier.map fun other => qualifyKey servicePrefix other.key) servicePrefix location
      (.duplicateConditionKey key) ++
    listed (Condition.KeyTemplate.parse? key = none) servicePrefix location
      (.malformedConditionKey key) ++
    listed (Condition.ValueType.ofLabel? label = none) servicePrefix (location ++ ".type")
      (.unknownConditionType label)

/-- References to condition keys that are not declared. -/
def keyReferenceViolations (servicePrefix : String) (declared : List String) (location : String)
    (references : List String) : List Error :=
  references.flatMap fun reference =>
    listed (qualifyKey servicePrefix reference ∉ declared) servicePrefix location
      (.undeclaredConditionKey (qualifyKey servicePrefix reference))

/-- What is wrong with the template of a resource type. -/
def arnViolations (servicePrefix location : String) (arn : Option String) : List Error :=
  let text := Text.trim (arn.getD "")
  if text = "" then [⟨servicePrefix, location, .missingField "arn"⟩]
  else match Arn.Template.parse text with
    | .ok _ => []
    | .error reason => [⟨servicePrefix, location, .malformedArn text reason⟩]

/-- What is wrong with the entry of a resource type that stands behind earlier ones. -/
def resourceViolations (servicePrefix : String) (declared : List String)
    (earlier : List ResourceEntry) (entry : ResourceEntry) : List Error :=
  let name := Text.trim entry.name
  let location := "resourceTypes." ++ name
  listed (name = "") servicePrefix "resourceTypes" .emptyName ++
    listed (name ∈ earlier.map fun other => Text.trim other.name) servicePrefix location
      (.duplicateResourceType name) ++
    arnViolations servicePrefix (location ++ ".arn") entry.arn ++
    keyReferenceViolations servicePrefix declared (location ++ ".conditionKeys") entry.conditionKeys

/-- What is wrong with the entry of an action that stands behind earlier ones. -/
def actionViolations (servicePrefix : String) (declared declaredResourceTypes : List String)
    (earlier : List ActionEntry) (entry : ActionEntry) : List Error :=
  let name := Text.trim entry.name
  let location := "actions." ++ name
  listed (name = "") servicePrefix "actions" .emptyName ++
    listed (name.toLower ∈ earlier.map fun other => (Text.trim other.name).toLower) servicePrefix
      location (.duplicateAction name) ++
    listed (AccessLevel.ofLabel? entry.accessLevel = none) servicePrefix (location ++ ".accessLevel")
      (.unknownAccessLevel entry.accessLevel) ++
    (entry.resourceTypes.flatMap fun row =>
      listed (Text.trim row.name ∉ declaredResourceTypes) servicePrefix
        (location ++ ".resourceTypes") (.danglingResourceType (Text.trim row.name))) ++
    keyReferenceViolations servicePrefix declared (location ++ ".conditions")
      (entry.conditions ++ entry.resourceTypes.flatMap (·.conditions))

/-- What is wrong with entries, one after the other, each behind those before it. -/
def violationsInOrder {α : Type} (violations : List α → α → List Error) (earlier : List α) :
    List α → List Error
  | [] => []
  | entry :: entries =>
    violations earlier entry ++ violationsInOrder violations (earlier ++ [entry]) entries

/-- All that is wrong with a record: with its prefix, with its condition keys, with its resource
types, and with its actions. -/
def Record.violations (record : Record) : List Error :=
  let servicePrefix := record.trimmedPrefix
  listed (servicePrefix = "") record.name "servicePrefix" .emptyName ++
    violationsInOrder (keyViolations servicePrefix) [] record.conditionKeys ++
    violationsInOrder (resourceViolations servicePrefix record.declaredKeys) []
      record.resourceTypes ++
    violationsInOrder (actionViolations servicePrefix record.declaredKeys
      record.declaredResourceTypes) [] record.actions

theorem listed_eq_nil_iff {wrong : Prop} [Decidable wrong] {servicePrefix location : String}
    {violation : Violation} : listed wrong servicePrefix location violation = [] ↔ ¬ wrong := by
  unfold listed
  split
  · rename_i hwrong
    simp [hwrong]
  · rename_i hright
    simp [hright]

theorem keyReferenceViolations_eq_nil_iff {servicePrefix location : String}
    {declared references : List String} :
    keyReferenceViolations servicePrefix declared location references = [] ↔
      ∀ reference ∈ references, qualifyKey servicePrefix reference ∈ declared := by
  simp [keyReferenceViolations, listed_eq_nil_iff]

theorem arnViolations_eq_nil_iff {servicePrefix location : String} {arn : Option String} :
    arnViolations servicePrefix location arn = [] ↔
      ∃ given, arn = some given ∧ Text.trim given ≠ "" ∧
        ∃ template, Arn.Template.parse (Text.trim given) = .ok template := by
  unfold arnViolations
  cases arn with
  | none =>
    have hblank : Text.trim "" = "" := by decide
    simp [hblank]
  | some given =>
    dsimp only [Option.getD_some]
    split
    · rename_i hblank
      simp [hblank]
    · rename_i hgiven
      cases hparse : Arn.Template.parse (Text.trim given) with
      | ok template => simp [hgiven, hparse]
      | error reason => simp [hparse]

variable (record : Record)

/-- A key entry without violations is well-formed and repeats no earlier key. -/
theorem keyViolations_eq_nil_iff (earlier : List KeyEntry) (entry : KeyEntry) :
    keyViolations record.trimmedPrefix earlier entry = [] ↔
      (qualifyKey record.trimmedPrefix entry.key ∉
        earlier.map fun other => qualifyKey record.trimmedPrefix other.key) ∧
      record.WellFormedKey entry := by
  simp only [keyViolations, List.append_eq_nil_iff, listed_eq_nil_iff, Option.ne_none_iff_exists']
  constructor
  · rintro ⟨⟨hfresh, htemplate⟩, htype⟩
    exact ⟨hfresh, htemplate, htype⟩
  · rintro ⟨hfresh, htemplate, htype⟩
    exact ⟨⟨hfresh, htemplate⟩, htype⟩

/-- A resource entry without violations is well-formed and repeats no earlier name. -/
theorem resourceViolations_eq_nil_iff (earlier : List ResourceEntry) (entry : ResourceEntry) :
    resourceViolations record.trimmedPrefix record.declaredKeys earlier entry = [] ↔
      (Text.trim entry.name ∉ earlier.map fun other => Text.trim other.name) ∧
      record.WellFormedResourceType entry := by
  simp only [resourceViolations, List.append_eq_nil_iff, listed_eq_nil_iff,
    arnViolations_eq_nil_iff, keyReferenceViolations_eq_nil_iff]
  constructor
  · rintro ⟨⟨⟨hnamed, hfresh⟩, harn⟩, hkeys⟩
    exact ⟨hfresh, hnamed, harn, hkeys⟩
  · rintro ⟨hfresh, hnamed, harn, hkeys⟩
    exact ⟨⟨⟨hnamed, hfresh⟩, harn⟩, hkeys⟩

/-- An action entry without violations is well-formed and repeats no earlier name, case apart. -/
theorem actionViolations_eq_nil_iff (earlier : List ActionEntry) (entry : ActionEntry) :
    actionViolations record.trimmedPrefix record.declaredKeys record.declaredResourceTypes earlier
        entry = [] ↔
      ((Text.trim entry.name).toLower ∉ earlier.map fun other => (Text.trim other.name).toLower) ∧
      record.WellFormedAction entry := by
  simp only [actionViolations, List.append_eq_nil_iff, listed_eq_nil_iff, Option.ne_none_iff_exists',
    keyReferenceViolations_eq_nil_iff, List.flatMap_eq_nil_iff, not_not, List.mem_append,
    List.mem_flatMap]
  constructor
  · rintro ⟨⟨⟨⟨hnamed, hfresh⟩, hlevel⟩, hrows⟩, hkeys⟩
    exact ⟨hfresh, hnamed, hlevel, hrows, fun key hkey => hkeys key (.inl hkey),
      fun row hrow key hkey => hkeys key (.inr ⟨row, hrow, hkey⟩)⟩
  · rintro ⟨hfresh, hnamed, hlevel, hrows, hown, hrowKeys⟩
    refine ⟨⟨⟨⟨hnamed, hfresh⟩, hlevel⟩, hrows⟩, ?_⟩
    rintro key (hkey | ⟨row, hrow, hkey⟩)
    · exact hown key hkey
    · exact hrowKeys row hrow key hkey

/-- Nothing is wrong with any of the entries just when each is right by itself and has a name that
no other has. -/
theorem violationsInOrder_eq_nil_iff {α γ : Type} {violations : List α → α → List Error}
    {name : α → γ} {sound : α → Prop}
    (hviolations : ∀ earlier entry, violations earlier entry = [] ↔
      name entry ∉ earlier.map name ∧ sound entry) (earlier entries : List α) :
    violationsInOrder violations earlier entries = [] ↔
      (∀ entry ∈ entries, name entry ∉ earlier.map name) ∧ (entries.map name).Nodup ∧
        ∀ entry ∈ entries, sound entry := by
  induction entries generalizing earlier with
  | nil => simp [violationsInOrder]
  | cons entry entries ih =>
    have hnew : (∀ other ∈ entries, name other ∉ (earlier ++ [entry]).map name) ↔
        (∀ other ∈ entries, name other ∉ earlier.map name) ∧ name entry ∉ entries.map name := by
      simp only [List.map_append, List.map_singleton, List.mem_append, List.mem_singleton, not_or,
        List.mem_map, not_exists, not_and]
      constructor
      · intro hother
        exact ⟨fun other hmem => (hother other hmem).1, fun other hmem => (hother other hmem).2⟩
      · rintro ⟨hearlier, hentry⟩ other hmem
        exact ⟨hearlier other hmem, hentry other hmem⟩
    rw [violationsInOrder, List.append_eq_nil_iff, hviolations, ih, hnew, List.forall_mem_cons,
      List.forall_mem_cons, List.map_cons, List.nodup_cons]
    tauto

/-- A record without violations is one that is well-formed. -/
theorem Record.violations_eq_nil_iff : record.violations = [] ↔ record.WellFormed := by
  have hkeys := violationsInOrder_eq_nil_iff (keyViolations_eq_nil_iff record) []
    record.conditionKeys
  have hresourceTypes := violationsInOrder_eq_nil_iff (resourceViolations_eq_nil_iff record) []
    record.resourceTypes
  have hactions := violationsInOrder_eq_nil_iff (actionViolations_eq_nil_iff record) []
    record.actions
  simp only [List.map_nil, List.not_mem_nil, not_false_eq_true, implies_true, true_and]
    at hkeys hresourceTypes hactions
  simp only [Record.violations, List.append_eq_nil_iff, listed_eq_nil_iff, hkeys, hresourceTypes,
    hactions]
  constructor
  · rintro ⟨⟨⟨hgiven, hkeys⟩, hresourceTypes⟩, hactions⟩
    exact ⟨hgiven, hkeys.1, hkeys.2, hresourceTypes.1, hresourceTypes.2, hactions.1, hactions.2⟩
  · rintro ⟨hgiven, hdistinct, hkeys, hnames, hresourceTypes, hactionNames, hactions⟩
    exact ⟨⟨⟨hgiven, hdistinct, hkeys⟩, hnames, hresourceTypes⟩, hactionNames, hactions⟩

end Catalog

namespace Service

open Catalog (ActionEntry KeyEntry Record ResourceEntry ResourceRow Violation)

open Failing (FailsFirst)

section

variable {servicePrefix location : String} {violation : Violation}

/-- A test that fails a check is listed together with what it tests for. -/
theorem failsFirst_flaw_if {α : Type} {found : Bool} {wrong : Prop} [Decidable wrong]
    (hwrong : found = true ↔ wrong) {x : Except Catalog.Error α} {errors : List Catalog.Error}
    (hx : ¬ wrong → FailsFirst x errors) :
    FailsFirst (if found then flaw servicePrefix location violation else x)
      (Catalog.listed wrong servicePrefix location violation ++ errors) := by
  unfold Catalog.listed
  simp only [hwrong]
  exact FailsFirst.ite hx

/-- A test that fails when something is not known, and the violation listed for it. -/
theorem failsFirst_flaw_unless {α : Type} {found : Bool} {known : Prop} [Decidable known]
    (hknown : found = true ↔ known) (a : α) :
    FailsFirst (if found then .ok a else flaw servicePrefix location violation)
      (Catalog.listed (¬ known) servicePrefix location violation) := by
  unfold Catalog.listed
  simp only [hknown, ite_not]
  split
  · exact .ok a
  · exact .error _ _

/-- Resolving fails at the first reference that is not declared. -/
theorem failsFirst_resolveKeys {declared : List ConditionKey} {names : List String}
    (hdeclared : declared.map (·.key.raw) = names) (references : List String) :
    FailsFirst (resolveKeys servicePrefix declared location references)
      (Catalog.keyReferenceViolations servicePrefix names location references) := by
  have hreference : ∀ reference, FailsFirst (resolveKey servicePrefix declared location reference)
      (Catalog.listed (qualifyKey servicePrefix reference ∉ names) servicePrefix location
        (.undeclaredConditionKey (qualifyKey servicePrefix reference))) :=
    fun reference => failsFirst_flaw_unless (by simp [← hdeclared]) _
  exact (FailsFirst.mapM hreference references).bind_pure _

/-- Resolving rows fails at the first resource type that is not declared. -/
theorem failsFirst_resolveRows {declared : List ResourceType} {names : List String}
    (hdeclared : declared.map (·.name) = names) (rows : List ResourceRow) :
    FailsFirst (resolveRows servicePrefix declared location rows)
      (rows.flatMap fun row => Catalog.listed (Text.trim row.name ∉ names) servicePrefix location
        (.danglingResourceType (Text.trim row.name))) := by
  have hrow : ∀ row, FailsFirst (resolveRow servicePrefix declared location row)
      (Catalog.listed (Text.trim row.name ∉ names) servicePrefix location
        (.danglingResourceType (Text.trim row.name))) :=
    fun row => failsFirst_flaw_unless (by simp [← hdeclared]) _
  exact (FailsFirst.mapM hrow rows).bind_pure _

theorem failsFirst_checkArn (arn : Option String) :
    FailsFirst (checkArn servicePrefix location arn)
      (Catalog.arnViolations servicePrefix location arn) := by
  unfold checkArn Catalog.arnViolations
  simp only [String.isEmpty_iff]
  split
  · exact .error _ _
  · cases Arn.Template.parse (Text.trim (arn.getD "")) with
    | ok template => exact .ok template
    | error reason => exact .error _ _

end

section

variable {servicePrefix : String}

/-- The check of a key fails with its first violation, behind the keys that were checked before. -/
theorem failsFirst_checkKey {declared : List ConditionKey} {earlier : List KeyEntry}
    (hdeclared : declared.map (·.key.raw) =
      earlier.map fun entry => qualifyKey servicePrefix entry.key) (entry : KeyEntry) :
    FailsFirst (checkKey servicePrefix declared entry)
      (Catalog.keyViolations servicePrefix earlier entry) := by
  unfold checkKey Catalog.keyViolations
  dsimp only
  rw [List.append_assoc]
  apply failsFirst_flaw_if (by simp [← hdeclared])
  intro _
  cases Condition.KeyTemplate.parse? (qualifyKey servicePrefix entry.key) with
  | none => exact .error _ _
  | some template =>
    cases Condition.ValueType.ofLabel? (entry.valueType.getD "") with
    | none => exact .error _ _
    | some valueType => exact .ok _

theorem failsFirst_checkResource {declared : List ConditionKey} {names : List String}
    (hdeclared : declared.map (·.key.raw) = names) {before : List ResourceType}
    {earlier : List ResourceEntry}
    (hbefore : before.map (·.name) = earlier.map fun entry => Text.trim entry.name)
    (entry : ResourceEntry) :
    FailsFirst (checkResource servicePrefix declared before entry)
      (Catalog.resourceViolations servicePrefix names earlier entry) := by
  unfold checkResource Catalog.resourceViolations
  dsimp only
  simp only [List.append_assoc]
  apply failsFirst_flaw_if String.isEmpty_iff
  intro _
  apply failsFirst_flaw_if (by simp [← hbefore])
  intro _
  apply (failsFirst_checkArn entry.arn).bind
  intro arn _
  exact (failsFirst_resolveKeys hdeclared entry.conditionKeys).bind_pure _

theorem failsFirst_checkAction {declared : List ConditionKey} {keyNames : List String}
    (hdeclared : declared.map (·.key.raw) = keyNames) {resourceTypes : List ResourceType}
    {resourceNames : List String} (hresourceTypes : resourceTypes.map (·.name) = resourceNames)
    {before : List Action} {earlier : List ActionEntry}
    (hbefore : before.map (·.name.toLower) =
      earlier.map fun entry => (Text.trim entry.name).toLower) (entry : ActionEntry) :
    FailsFirst (checkAction servicePrefix declared resourceTypes before entry)
      (Catalog.actionViolations servicePrefix keyNames resourceNames earlier entry) := by
  unfold checkAction Catalog.actionViolations
  dsimp only
  simp only [List.append_assoc]
  apply failsFirst_flaw_if String.isEmpty_iff
  intro _
  apply failsFirst_flaw_if (by simp [← hbefore])
  intro _
  cases AccessLevel.ofLabel? entry.accessLevel with
  | none => exact .error _ _
  | some level =>
    apply (failsFirst_resolveRows hresourceTypes entry.resourceTypes).bind
    intro rows _
    exact (failsFirst_resolveKeys hdeclared _).bind_pure _

end

private theorem failsFirst_foldlM {α β γ : Type} {check : List β → α → Except Catalog.Error β}
    {violations : List α → α → List Catalog.Error} {name : α → γ} {resultName : β → γ}
    (hname : ∀ before entry result, check before entry = .ok result →
      resultName result = name entry)
    (hcheck : ∀ before earlier entry, before.map resultName = earlier.map name →
      FailsFirst (check before entry) (violations earlier entry))
    {before : List β} {earlier : List α} (hbefore : before.map resultName = earlier.map name)
    (entries : List α) :
    FailsFirst
      (entries.foldlM (fun before entry => do return before ++ [← check before entry]) before)
      (Catalog.violationsInOrder violations earlier entries) := by
  induction entries generalizing before earlier with
  | nil => exact .ok before
  | cons entry entries ih =>
    rw [List.foldlM_cons, Catalog.violationsInOrder, bind_assoc]
    apply (hcheck before earlier entry hbefore).bind
    intro result hresult
    rw [pure_bind]
    apply ih
    rw [List.map_append, List.map_append, hbefore, List.map_singleton, List.map_singleton,
      hname before entry result hresult]

/-- Checking in order fails with the first violation, as long as results keep the names by which
entries are told apart. -/
theorem failsFirst_checkInOrder {α β γ : Type} {check : List β → α → Except Catalog.Error β}
    {violations : List α → α → List Catalog.Error} {name : α → γ} {resultName : β → γ}
    (hname : ∀ before entry result, check before entry = .ok result →
      resultName result = name entry)
    (hcheck : ∀ before earlier entry, before.map resultName = earlier.map name →
      FailsFirst (check before entry) (violations earlier entry)) (entries : List α) :
    FailsFirst (checkInOrder check entries) (Catalog.violationsInOrder violations [] entries) :=
  failsFirst_foldlM hname hcheck rfl entries

theorem Checked.map_eq {α β γ : Type} {check : List β → α → Except Catalog.Error β} {name : α → γ}
    {resultName : β → γ}
    (hname : ∀ before entry result, check before entry = .ok result →
      resultName result = name entry)
    {earlier results : List β} {entries : List α}
    (hchecked : Checked check earlier entries results) :
    results.map resultName = entries.map name :=
  (Lists.map_eq_map_of_forall₂ (fun _ _ => Eq.symm) (hchecked.forall₂ hname)).symm

/-- The whole check of a record fails with the first of its violations, in the order they are
listed. -/
theorem failsFirst_ofRecord (record : Record) : FailsFirst (ofRecord record) record.violations := by
  have hkeyName : ∀ before entry key, checkKey record.trimmedPrefix before entry = .ok key →
      key.key.raw = qualifyKey record.trimmedPrefix entry.key :=
    fun _ _ _ hcheck => raw_of_checkKey hcheck
  unfold ofRecord Record.violations
  dsimp only
  simp only [List.append_assoc]
  apply failsFirst_flaw_if String.isEmpty_iff
  intro _
  apply (failsFirst_checkInOrder hkeyName
    (fun _ _ entry hbefore => failsFirst_checkKey hbefore entry) record.conditionKeys).bind
  intro keys hkeys
  have hdeclared := (checkInOrder_eq_ok_iff.mp hkeys).map_eq hkeyName
  have hresourceName : ∀ before entry resource,
      checkResource record.trimmedPrefix keys before entry = .ok resource →
      resource.name = Text.trim entry.name := by
    intro before entry resource hcheck
    obtain ⟨_, _, _, _, _, _, rfl⟩ := checkResource_eq_ok hcheck
    rfl
  apply (failsFirst_checkInOrder hresourceName
    (fun _ _ entry hbefore => failsFirst_checkResource hdeclared hbefore entry)
    record.resourceTypes).bind
  intro resourceTypes hresourceTypes
  have hnames := (checkInOrder_eq_ok_iff.mp hresourceTypes).map_eq hresourceName
  have hactionName : ∀ before entry action,
      checkAction record.trimmedPrefix keys resourceTypes before entry = .ok action →
      action.name.toLower = (Text.trim entry.name).toLower := by
    intro before entry action hcheck
    obtain ⟨_, _, _, _, _, _, _, _, rfl⟩ := checkAction_eq_ok hcheck
    rfl
  exact (failsFirst_checkInOrder hactionName
    (fun _ _ entry hbefore => failsFirst_checkAction hdeclared hnames hbefore entry)
    record.actions).bind_pure _

/-- A record describes a service just when it is well-formed. Of any other record the first of its
violations is reported, and a well-formed record has none. -/
theorem ofRecord_reports_first_violation (record : Record) :
    ((∃ service, ofRecord record = .ok service) ↔ record.WellFormed) ∧
      (∀ error, ofRecord record = .error error ↔ record.violations.head? = some error) ∧
      (record.violations = [] ↔ record.WellFormed) := by
  have hfirst := failsFirst_ofRecord record
  have hnone := Catalog.Record.violations_eq_nil_iff record
  exact ⟨hfirst.exists_ok_iff.trans hnone, hfirst.eq_error_iff, hnone⟩

-- Nothing that is found in keys hides what is wrong with actions, and the keys come first.
example :
    ({ name := "Wall", servicePrefix := " w "
       actions := [{ name := "Paint", accessLevel := "Admin" }]
       conditionKeys := [{ key := "Color", valueType := some "Polygon" }] : Record }).violations =
      [⟨"w", "conditions.w:Color.type", .unknownConditionType "Polygon"⟩,
        ⟨"w", "actions.Paint.accessLevel", .unknownAccessLevel "Admin"⟩] := by
  decide +kernel

end Service

end PolicyForge
