import Mathlib.Data.List.Nodup
import PolicyForge.Proofs.Arn.Template
import PolicyForge.Proofs.Service.Validation
import PolicyForge.Proofs.Text.Blank

namespace PolicyForge

open Catalog (ActionEntry KeyEntry Record ResourceEntry ResourceRow)

theorem AccessLevel.ofLabel?_label (level : AccessLevel) :
    AccessLevel.ofLabel? level.label = some level := by
  simp only [AccessLevel.ofLabel?, Text.toLower_beq, String.toList_ofList]
  cases level <;> decide +kernel

/-- The name of a family of values is a label of it. -/
theorem Condition.ValueType.ofLabel?_name (type : Condition.ValueType) :
    Condition.ValueType.ofLabel? type.name = some type := by
  cases type <;> decide +kernel

namespace Service

variable {servicePrefix location : String} {declared : List ConditionKey}

/-- An action as an entry, with nothing left to the rows of its resource types. -/
def Action.toEntry (action : Action) : ActionEntry where
  name := action.name
  description := action.description
  url := action.url
  accessLevel := action.accessLevel.label
  resourceTypes := action.resourceTypes.map fun resource =>
    { name := resource.name, required := resource.required }
  conditions := action.conditions
  dependentActions := action.dependentActions

/-- A resource type as an entry. -/
def ResourceType.toEntry (resource : ResourceType) : ResourceEntry where
  name := resource.name
  url := resource.url
  arn := some resource.arn.raw
  conditionKeys := resource.conditionKeys

/-- A condition key as an entry, under a label for its type. -/
def ConditionKey.toEntry (label : Option String) (key : ConditionKey) : KeyEntry where
  key := key.key.raw
  description := key.description
  url := key.url
  valueType := label

/-- A service as a record, with a label for the type of every condition key. -/
def toRecord (label : ConditionKey → Option String) (service : Service) : Record where
  name := service.name
  servicePrefix := service.servicePrefix
  url := service.url
  actions := service.actions.map Action.toEntry
  resourceTypes := service.resourceTypes.map ResourceType.toEntry
  conditionKeys := service.conditionKeys.map fun key => key.toEntry (label key)

/-- A key is referred to by what its text has between the blanks at its ends. When there is no colon
in that, the prefix of the service and a colon stand in front of it. -/
theorem qualifyKey_eq_iff {servicePrefix key qualified : String} :
    qualifyKey servicePrefix key = qualified ↔
      ∃ (own : String) (before after : List Char), key.toList = before ++ own.toList ++ after ∧
        (∀ c ∈ before ++ after, Text.isBlank c = true) ∧ Text.Stripped Text.isBlank own.toList ∧
        (':' ∈ own.toList ∧ qualified = own ∨
          ':' ∉ own.toList ∧ qualified = servicePrefix ++ ":" ++ own) := by
  have hown : qualifyKey servicePrefix key = if ':' ∈ (Text.trim key).toList then Text.trim key
      else servicePrefix ++ ":" ++ Text.trim key := by
    simp [qualifyKey]
  constructor
  · rintro rfl
    obtain ⟨hstripped, before, after, hkey, hblank⟩ := Text.trim_eq_iff.mp (Eq.refl (Text.trim key))
    refine ⟨Text.trim key, before, after, hkey, hblank, hstripped, ?_⟩
    by_cases hcolon : ':' ∈ (Text.trim key).toList
    · exact .inl ⟨hcolon, hown.trans (if_pos hcolon)⟩
    · exact .inr ⟨hcolon, hown.trans (if_neg hcolon)⟩
  · rintro ⟨own, before, after, hkey, hblank, hstripped, hqualified⟩
    rw [Text.trim_eq_iff.mpr ⟨hstripped, before, after, hkey, hblank⟩] at hown
    obtain ⟨hcolon, rfl⟩ | ⟨hcolon, rfl⟩ := hqualified
    · exact hown.trans (if_pos hcolon)
    · exact hown.trans (if_neg hcolon)

/-- A key that is qualified needs no prefix any more. -/
theorem qualifyKey_qualifyKey (htrim : Text.trim servicePrefix = servicePrefix)
    (hne : servicePrefix ≠ "") (key : String) :
    qualifyKey servicePrefix (qualifyKey servicePrefix key) = qualifyKey servicePrefix key := by
  generalize hgiven : qualifyKey servicePrefix key = qualified
  obtain ⟨own, _, _, -, -, hstripped, hqualified⟩ := qualifyKey_eq_iff.mp hgiven
  refine qualifyKey_eq_iff.mpr ⟨qualified, [], [], by simp, nofun, ?_, .inl ⟨?_, rfl⟩⟩
  · obtain ⟨_, heq⟩ | ⟨_, heq⟩ := hqualified
    · rwa [heq]
    · have hservice := Text.trim_eq_self_iff.mp htrim
      rw [heq]
      simpa using hservice.append hstripped (c := ':') (by decide) (by simpa using hne)
  · obtain ⟨hcolon, heq⟩ | ⟨_, heq⟩ := hqualified
    · rwa [heq]
    · simp [heq]

section

variable (htrim : Text.trim servicePrefix = servicePrefix) (hne : servicePrefix ≠ "")

include htrim hne

/-- Resolved references are in their final form, so they resolve to themselves. -/
theorem resolveKeys_again {references keys : List String}
    (hok : resolveKeys servicePrefix declared location references = .ok keys) :
    resolveKeys servicePrefix declared location keys = .ok keys := by
  have hnodup := nodup_of_resolveKeys hok
  obtain ⟨hnamed, hkeys⟩ := resolveKeys_eq_ok_iff.mp hok
  have hfixed : ∀ key ∈ keys, qualifyKey servicePrefix key = key := by
    intro key hkey
    rw [hkeys, List.mem_eraseDups] at hkey
    obtain ⟨reference, -, rfl⟩ := List.mem_map.mp hkey
    exact qualifyKey_qualifyKey htrim hne reference
  refine resolveKeys_eq_ok_iff.mpr ⟨fun key hkey => ?_, ?_⟩
  · rw [hfixed key hkey]
    exact exists_declared_of_mem_resolveKeys hok hkey
  · rw [List.map_congr_left hfixed, List.map_id', Ordered.eraseDups_of_nodup hnodup]

end

theorem resolveRows_again {resourceTypes : List ResourceType} {rows : List ResourceRow}
    {resources : List ActionResource}
    (hok : resolveRows servicePrefix resourceTypes location rows = .ok resources) :
    resolveRows servicePrefix resourceTypes location
      (resources.map fun resource => { name := resource.name, required := resource.required }) =
      .ok resources := by
  obtain ⟨hnamed, hresources⟩ := resolveRows_eq_ok_iff.mp hok
  have hnames : resources.map (·.name) = (rows.map (Text.trim ·.name)).eraseDups := by
    rw [hresources, List.map_map]
    exact List.map_id' _
  have hnodup : (resources.map (·.name)).Nodup := hnames ▸ Ordered.nodup_eraseDups _
  have hknown : ∀ resource ∈ resources, Text.trim resource.name = resource.name ∧
      ∃ own ∈ resourceTypes, own.name = resource.name := by
    intro resource hmem
    have hname : resource.name ∈ (rows.map (Text.trim ·.name)).eraseDups :=
      hnames ▸ List.mem_map_of_mem hmem
    obtain ⟨row, hrow, heq⟩ := List.mem_map.mp (List.mem_eraseDups.mp hname)
    rw [← heq]
    exact ⟨Text.trim_trim _, hnamed row hrow⟩
  refine resolveRows_eq_ok_iff.mpr ⟨?_, ?_⟩
  · intro row hrow
    obtain ⟨resource, hmem, rfl⟩ := List.mem_map.mp hrow
    obtain ⟨hfixed, hdeclared⟩ := hknown resource hmem
    rwa [hfixed]
  · have hagain : (resources.map fun resource =>
        ({ name := resource.name, required := resource.required } : ResourceRow)).map
        (Text.trim ·.name) = resources.map (·.name) := by
      rw [List.map_map]
      exact List.map_congr_left fun resource hmem => (hknown resource hmem).1
    have hrequired : ∀ resource ∈ resources, (resources.any fun other =>
        Text.trim other.name == resource.name && other.required) = resource.required := by
      intro resource hmem
      rw [Bool.eq_iff_iff, List.any_eq_true]
      simp only [Bool.and_eq_true, beq_iff_eq]
      constructor
      · rintro ⟨other, hother, hname, hrequired⟩
        rw [(hknown other hother).1] at hname
        rwa [← List.inj_on_of_nodup_map hnodup hother hmem hname]
      · exact fun hrequired => ⟨resource, hmem, (hknown resource hmem).1, hrequired⟩
    rw [hagain, Ordered.eraseDups_of_nodup hnodup, List.map_map]
    refine (List.map_id resources).symm.trans (List.map_congr_left fun resource hmem => ?_)
    rw [Function.comp_apply, List.any_map]
    exact congrArg (ActionResource.mk resource.name) (hrequired resource hmem).symm

section

variable (htrim : Text.trim servicePrefix = servicePrefix) (hne : servicePrefix ≠ "")

include htrim hne

/-- A checked condition key, written out with any label of its type, is checked to itself. -/
theorem checkKey_again {earlier : List ConditionKey} {entry : KeyEntry} {key : ConditionKey}
    (hok : checkKey servicePrefix earlier entry = .ok key) {label : Option String}
    (hlabel : Condition.ValueType.ofLabel? (label.getD "") = some key.valueType) :
    checkKey servicePrefix earlier (key.toEntry label) = .ok key := by
  have hraw := raw_of_checkKey hok
  obtain ⟨hfresh, template, valueType, hparse, -, rfl⟩ := checkKey_eq_ok hok
  have hfixed : qualifyKey servicePrefix template.raw = template.raw := by
    rw [hraw]
    exact qualifyKey_qualifyKey htrim hne entry.key
  rw [← hraw] at hfresh hparse
  have hnew : ¬ earlier.any (·.key.raw == template.raw) = true := by simpa using hfresh
  simp only [checkKey, ConditionKey.toEntry, hfixed, hparse, hlabel, if_neg hnew, Text.trim_trim]

theorem checkResource_again {earlier : List ResourceType} {entry : ResourceEntry}
    {resource : ResourceType}
    (hok : checkResource servicePrefix declared earlier entry = .ok resource) :
    checkResource servicePrefix declared earlier resource.toEntry = .ok resource := by
  obtain ⟨hname, hfresh, arn, keys, harn, hkeys, rfl⟩ := checkResource_eq_ok hok
  have hagain := resolveKeys_again htrim hne hkeys
  have hpresent : ¬ (Text.trim entry.name).isEmpty = true := by simpa using hname
  have hnew : ¬ earlier.any (·.name == Text.trim entry.name) = true := by simpa using hfresh
  have harnAgain : checkArn servicePrefix ("resourceTypes." ++ Text.trim entry.name ++ ".arn")
      (some arn.raw) = .ok arn := by
    obtain ⟨hgiven, hparse⟩ := checkArn_eq_ok harn
    have hraw : arn.raw = Text.trim (entry.arn.getD "") :=
      (Arn.Template.join_render_of_parse hparse).1
    have hsome : ¬ arn.raw.isEmpty = true := by rw [hraw]; simpa using hgiven
    simp only [checkArn, Option.getD_some, hraw, Text.trim_trim, hparse]
    rw [← hraw, if_neg hsome]
  simp only [checkResource, ResourceType.toEntry, Text.trim_trim, if_neg hpresent, if_neg hnew,
    harnAgain, hagain]
  rfl

/-- A checked action is checked to itself: name, level, resource types and keys. -/
theorem checkAction_again {resourceTypes : List ResourceType} {earlier : List Action}
    {entry : ActionEntry} {action : Action}
    (hok : checkAction servicePrefix declared resourceTypes earlier entry = .ok action) :
    checkAction servicePrefix declared resourceTypes earlier action.toEntry = .ok action := by
  obtain ⟨hname, hfresh, level, rows, keys, -, hrows, hkeys, rfl⟩ := checkAction_eq_ok hok
  have hrowsAgain := resolveRows_again hrows
  have hkeysAgain := resolveKeys_again htrim hne hkeys
  have hpresent : ¬ (Text.trim entry.name).isEmpty = true := by simpa using hname
  have hnew : ¬ earlier.any (·.name.toLower == (Text.trim entry.name).toLower) = true := by
    simpa using hfresh
  have hnone : (rows.map fun resource =>
      ({ name := resource.name, required := resource.required } : ResourceRow)).flatMap
      (·.conditions) = [] := by
    rw [List.flatMap_map, List.flatMap_eq_nil_iff]
    exact fun _ _ => rfl
  have hdependent : (entry.dependentActions.map Text.trim).map Text.trim =
      entry.dependentActions.map Text.trim := by
    simp
  simp only [checkAction, Action.toEntry, Text.trim_trim, if_neg hpresent, if_neg hnew,
    AccessLevel.ofLabel?_label, hrowsAgain, hnone, List.append_nil, hkeysAgain, hdependent]
  rfl

end

/-- Entries made from results that pass their own check are checked to the same results. -/
theorem Checked.again {α β : Type} {check : List β → α → Except Catalog.Error β} {back : β → α}
    {earlier results : List β} {entries : List α} (hchecked : Checked check earlier entries results)
    (hagain : ∀ before entry, ∀ result ∈ results, check before entry = .ok result →
      check before (back result) = .ok result) :
    Checked check earlier (results.map back) results := by
  induction hchecked with
  | nil => exact .nil
  | @cons earlier entry entries result results hentry _ ih =>
    refine .cons (hagain earlier entry result List.mem_cons_self hentry) (ih ?_)
    intro before entry other hother
    exact hagain before entry other (List.mem_cons_of_mem result hother)

/-- Checking is a projection: an accepted service, written as a record again under any labels for
the types of its keys, is accepted as the same service. -/
theorem ofRecord_toRecord {record : Record} {service : Service}
    (hok : ofRecord record = .ok service) {label : ConditionKey → Option String}
    (hlabel : ∀ key ∈ service.conditionKeys,
      Condition.ValueType.ofLabel? ((label key).getD "") = some key.valueType) :
    ofRecord (service.toRecord label) = .ok service := by
  obtain ⟨hne, keys, resourceTypes, actions, hkeys, hresourceTypes, hactions, rfl⟩ :=
    ofRecord_eq_ok_iff.mp hok
  have htrim := Text.trim_trim record.servicePrefix
  refine ofRecord_eq_ok_iff.mpr ?_
  simp only [toRecord, htrim]
  refine ⟨hne, keys, resourceTypes, actions, ?_, ?_, ?_, ?_⟩
  · rw [List.map_map]
    refine hkeys.again fun before entry key hkey hcheck => ?_
    exact checkKey_again htrim hne hcheck (hlabel _ (List.mem_map_of_mem hkey))
  · exact hresourceTypes.again fun before entry resource _ => checkResource_again htrim hne
  · exact hactions.again fun before entry action _ => checkAction_again htrim hne
  · by_cases hname : (Text.trim record.name).isEmpty = true
    · simp [hname, hne]
    · simp [hname]

/-- A catalog in which nothing is as tidy as in a service: blanks around texts, keys without a
prefix, rows that repeat a resource type and name keys of their own. -/
def untidy : Record where
  name := " Lamps "
  servicePrefix := " lamp "
  actions :=
    [{ name := "Light ", accessLevel := "write"
       resourceTypes :=
         [{ name := "bulb", conditions := ["Hue"] }, { name := " bulb", required := true }]
       conditions := [" lamp:Hue"], dependentActions := [" lamp:Dim "] }]
  resourceTypes :=
    [{ name := "bulb", arn := some " arn:bulb ", conditionKeys := ["Hue", "lamp:Hue"] }]
  conditionKeys := [{ key := "Hue ", valueType := some "ArrayOfString" }]

theorem ofRecord_toRecord_untidy : ∃ service,
    ofRecord untidy = .ok service ∧
      ofRecord (service.toRecord fun key => some key.valueType.name) = .ok service := by
  have haccepted : (ofRecord untidy).toOption.isSome = true := by
    unfold ofRecord checkInOrder
    delta checkAction AccessLevel.ofLabel?
    simp only [Text.toLower_beq, Text.trim, String.toList_ofList]
    decide +kernel
  obtain ⟨service, hok⟩ := Failing.exists_eq_ok_of_isSome haccepted
  exact ⟨service, hok,
    ofRecord_toRecord hok fun key _ => Condition.ValueType.ofLabel?_name key.valueType⟩

end Service

end PolicyForge
