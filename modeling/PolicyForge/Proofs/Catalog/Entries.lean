import PolicyForge.Proofs.Json.Record
import PolicyForge.Proofs.Json.Writing
import PolicyForge.Proofs.Service.References

namespace PolicyForge.Catalog

open Ordered (latest)

/-- Written entries that all come through, each as the result at its own place. No two of them
denote the same thing. -/
structure KeptWhole {α β : Type} (comesFrom : α → β → Prop) (denoted : α → String)
    (written : List α) (results : List β) : Prop where
  each : List.Forall₂ comesFrom written results
  distinct : (written.map denoted).Nodup

/-- What becomes of a map of entries: of each name, the entry that was written last comes through,
at the place of the first. So all of them do just when no name is written twice. -/
structure KeptByName {β : Type} (comesFrom : String × Json → β → Prop)
    (denoted : String × Json → String) (members : List (String × Json)) (results : List β) :
    Prop where
  latest : KeptWhole comesFrom denoted (latest members) results
  whole : (members.map (·.1)).Nodup → KeptWhole comesFrom denoted members results
  length_eq_iff : results.length = members.length ↔ (members.map (·.1)).Nodup

/-- Entries that come one from each written member are kept whole as soon as their names are
distinct. -/
theorem keptWhole_of_forall₂ {α β : Type} {comesFrom : α → β → Prop} {denoted : α → String}
    {written : List α} {results : List β} {name : β → String}
    (hname : ∀ entry result, comesFrom entry result → denoted entry = name result)
    (hdistinct : (results.map name).Nodup) (heach : List.Forall₂ comesFrom written results) :
    KeptWhole comesFrom denoted written results := by
  refine ⟨heach, ?_⟩
  rwa [Lists.map_eq_map_of_forall₂ hname heach]

/-- What comes whole from the members that an object keeps is kept by name from the members as
written. -/
theorem KeptWhole.keptByName {β : Type} {comesFrom : String × Json → β → Prop}
    {denoted : String × Json → String} {members : List (String × Json)} {results : List β}
    (hlatest : KeptWhole comesFrom denoted (latest members) results) :
    KeptByName comesFrom denoted members results := by
  refine ⟨hlatest, ?_, ?_⟩
  · intro hnodup
    rwa [Ordered.latest_of_nodup hnodup] at hlatest
  · have hlength := congrArg List.length (Ordered.keys_latest members)
    rw [List.length_map, hlatest.each.length_eq] at hlength
    rw [hlength, ← Ordered.length_eraseDups_eq_iff, List.length_map]

namespace Scraped

/-- What is written in a map at the top of a document. -/
def writtenIn (field : String) (document : Json) : List (String × Json) :=
  (document.written
    ["name", "servicePrefix", "url", "actionList", "resourceTypes", "conditions"] field).flatMap
    Json.members

/-- The name that a member of the map of resource types gives, or else its own. -/
def resourceName (member : String × Json) : String :=
  ((resource? member.2).bind (·.name)).getD member.1

/-- The key that a member of the map of condition keys gives, or else its own name. -/
def keyName (member : String × Json) : String :=
  ((condition? member.2).bind (·.key)).getD member.1

/-- The entry that a member of the map of actions gives. The prefix shows in errors alone. -/
def WritesAction (member : String × Json) (entry : ActionEntry) : Prop :=
  ∃ action servicePrefix,
    action? member.2 = some action ∧ action.toEntry servicePrefix member.1 = .ok entry

/-- The entry that a member of the map of resource types gives. -/
def WritesResource (member : String × Json) (entry : ResourceEntry) : Prop :=
  ∃ resource, resource? member.2 = some resource ∧ entry = resource.toEntry member.1

/-- The entry that a member of the map of condition keys gives. -/
def WritesKey (member : String × Json) (entry : KeyEntry) : Prop :=
  ∃ condition, condition? member.2 = some condition ∧ entry = condition.toEntry member.1

/-- What a service has of a document of this shape. -/
structure Kept (document : Json) (service : Service) : Prop where
  actions : KeptByName (Relation.Comp WritesAction (Service.Action.ComesFrom service.servicePrefix))
    (fun member => (Text.trim member.1).toLower) (writtenIn "actionList" document) service.actions
  resourceTypes : KeptByName
    (Relation.Comp WritesResource (Service.ResourceType.ComesFrom service.servicePrefix))
    (fun member => Text.trim (resourceName member)) (writtenIn "resourceTypes" document)
    service.resourceTypes
  conditionKeys : KeptByName
    (Relation.Comp WritesKey (Service.ConditionKey.ComesFrom service.servicePrefix))
    (fun member => Service.qualifyKey service.servicePrefix (keyName member))
    (writtenIn "conditions" document) service.conditionKeys

theorem WritesAction.name_eq {member : String × Json} {entry : ActionEntry}
    (hwrites : WritesAction member entry) : entry.name = member.1 := by
  obtain ⟨action, servicePrefix, _, hentry⟩ := hwrites
  unfold Action.toEntry at hentry
  split at hentry
  · cases hentry
  · obtain rfl := Except.ok.inj hentry
    rfl

/-- A resource type of the scraped format is named by its member, or by the name written inside it.
-/
theorem WritesResource.name_eq {member : String × Json} {entry : ResourceEntry}
    (hwrites : WritesResource member entry) : entry.name = resourceName member := by
  obtain ⟨resource, hresource, rfl⟩ := hwrites
  rw [resourceName, hresource]
  rfl

/-- A condition key of the scraped format is named by its member, or by the key written inside it.
-/
theorem WritesKey.key_eq {member : String × Json} {entry : KeyEntry}
    (hwrites : WritesKey member entry) : entry.key = keyName member := by
  obtain ⟨condition, hcondition, rfl⟩ := hwrites
  rw [keyName, hcondition]
  rfl

/-- Reading the scraped format maps the kept members one to one, in order. -/
theorem entries_of_toRecord {label : String} {json : Json} {document : Document} {record : Record}
    (hread : document? json = some document) (hok : document.toRecord label = .ok record) :
    List.Forall₂ WritesAction (latest (writtenIn "actionList" json)) record.actions ∧
      List.Forall₂ WritesResource (latest (writtenIn "resourceTypes" json)) record.resourceTypes ∧
      List.Forall₂ WritesKey (latest (writtenIn "conditions" json)) record.conditionKeys := by
  simp only [document?, Option.bind_eq_bind, Option.bind_eq_some_iff] at hread
  obtain ⟨entry, hrecord, _, _, _, _, _, _, actions, hactions, resourceTypes, hresourceTypes,
    conditions, hconditions, hdocument⟩ := hread
  obtain rfl := Option.some.inj hdocument
  unfold Document.toRecord at hok
  dsimp only at hok
  split at hok
  · cases hok
  · rename_i servicePrefix _
    obtain ⟨entries, hentries, hok⟩ := Failing.bind_eq_ok.mp hok
    obtain rfl := Except.ok.inj hok
    refine ⟨?_, ?_, ?_⟩
    · apply (Lists.forall₂_comp (Json.forall₂_of_map? hrecord (by decide) hactions)
        (Failing.mapM_eq_ok_iff.mp hentries)).imp
      rintro ⟨name, value⟩ entry ⟨⟨_, action⟩, ⟨rfl, hvalue⟩, hentry⟩
      exact ⟨action, servicePrefix, hvalue, hentry⟩
    · rw [List.forall₂_map_right_iff]
      apply (Json.forall₂_of_map? hrecord (by decide) hresourceTypes).imp
      rintro ⟨name, value⟩ ⟨_, resource⟩ ⟨rfl, hvalue⟩
      exact ⟨resource, hvalue, rfl⟩
    · rw [List.forall₂_map_right_iff]
      apply (Json.forall₂_of_map? hrecord (by decide) hconditions).imp
      rintro ⟨name, value⟩ ⟨_, condition⟩ ⟨rfl, hvalue⟩
      exact ⟨condition, hvalue, rfl⟩

/-- What a scraped catalog loses, it loses to a member of the same name: everything else of it is in
the service. -/
theorem kept_of_toRecord {label : String} {json : Json} {document : Document} {record : Record}
    {service : Service} (hread : document? json = some document)
    (hrecord : document.toRecord label = .ok record)
    (hservice : Service.ofRecord record = .ok service) : Kept json service := by
  obtain ⟨hactions, hresources, hkeys⟩ := entries_of_toRecord hread hrecord
  obtain ⟨hmadeKeys, hmadeResources, hmadeActions⟩ := Service.forall₂_comesFrom hservice
  have hclosed := Service.closed_of_ofRecord hservice
  constructor
  · apply KeptWhole.keptByName
    apply keptWhole_of_forall₂ _ hclosed.actionsDistinct (Lists.forall₂_comp hactions hmadeActions)
    rintro member action ⟨entry, hwrites, hfrom⟩
    rw [hfrom.name, hwrites.name_eq]
  · apply KeptWhole.keptByName
    apply keptWhole_of_forall₂ _ hclosed.resourceTypesDistinct
      (Lists.forall₂_comp hresources hmadeResources)
    rintro member resource ⟨entry, hwrites, hfrom⟩
    rw [hfrom.name, hwrites.name_eq]
  · apply KeptWhole.keptByName
    apply keptWhole_of_forall₂ _ hclosed.keysDistinct (Lists.forall₂_comp hkeys hmadeKeys)
    rintro member key ⟨entry, hwrites, hfrom⟩
    rw [hfrom.raw, hwrites.key_eq]

end Scraped

namespace Reference

/-- What is written in a list at the top of a document. -/
def writtenIn (field : String) (document : Json) : List Json :=
  (document.written ["Name", "Actions", "Resources", "ConditionKeys"] field).flatMap Json.items

/-- The name of what an item is read as. -/
def nameIn {α : Type} (read : Json → Option α) (name : α → String) (item : Json) : String :=
  ((read item).map name).getD ""

/-- The entry that an item of the list of actions gives. -/
def WritesAction (item : Json) (entry : ActionEntry) : Prop :=
  ∃ action, action? item = some action ∧ entry = action.toEntry

/-- The entry that an item of the list of resource types gives. -/
def WritesResource (item : Json) (entry : ResourceEntry) : Prop :=
  ∃ resource, resource? item = some resource ∧ entry = resource.toEntry

/-- The entry that an item of the list of condition keys gives. -/
def WritesKey (item : Json) (entry : KeyEntry) : Prop :=
  ∃ key, conditionKey? item = some key ∧ entry = key.toEntry

/-- What a service has of a document of this shape. -/
structure Kept (document : Json) (service : Service) : Prop where
  actions : KeptWhole (Relation.Comp WritesAction (Service.Action.ComesFrom service.servicePrefix))
    (fun item => (Text.trim (nameIn action? (·.name) item)).toLower)
    (writtenIn "Actions" document) service.actions
  resourceTypes : KeptWhole
    (Relation.Comp WritesResource (Service.ResourceType.ComesFrom service.servicePrefix))
    (fun item => Text.trim (nameIn resource? (·.name) item))
    (writtenIn "Resources" document) service.resourceTypes
  conditionKeys : KeptWhole
    (Relation.Comp WritesKey (Service.ConditionKey.ComesFrom service.servicePrefix))
    (fun item => Service.qualifyKey service.servicePrefix (nameIn conditionKey? (·.name) item))
    (writtenIn "ConditionKeys" document) service.conditionKeys

/-- Reading the reference format maps the written entries one to one, in order. -/
theorem entries_of_toRecord {label : String} {json : Json} {document : Document} {record : Record}
    (hread : document? json = some document) (hok : document.toRecord label = .ok record) :
    List.Forall₂ WritesAction (writtenIn "Actions" json) record.actions ∧
      List.Forall₂ WritesResource (writtenIn "Resources" json) record.resourceTypes ∧
      List.Forall₂ WritesKey (writtenIn "ConditionKeys" json) record.conditionKeys := by
  simp only [document?, Option.bind_eq_bind, Option.bind_eq_some_iff] at hread
  obtain ⟨entry, hrecord, _, _, actions, hactions, resources, hresources, keys, hkeys,
    hdocument⟩ := hread
  obtain rfl := Option.some.inj hdocument
  unfold Document.toRecord at hok
  dsimp only at hok
  split at hok
  · cases hok
  · obtain rfl := Except.ok.inj hok
    refine ⟨?_, ?_, ?_⟩
    · rw [List.forall₂_map_right_iff]
      exact (Json.forall₂_of_list? hrecord (by decide) hactions).imp
        fun _ action haction => ⟨action, haction, rfl⟩
    · rw [List.forall₂_map_right_iff]
      exact (Json.forall₂_of_list? hrecord (by decide) hresources).imp
        fun _ resource hresource => ⟨resource, hresource, rfl⟩
    · rw [List.forall₂_map_right_iff]
      exact (Json.forall₂_of_list? hrecord (by decide) hkeys).imp
        fun _ key hkey => ⟨key, hkey, rfl⟩

/-- Of a reference catalog that is accepted, every entry of its lists is in the service. -/
theorem kept_of_toRecord {label : String} {json : Json} {document : Document} {record : Record}
    {service : Service} (hread : document? json = some document)
    (hrecord : document.toRecord label = .ok record)
    (hservice : Service.ofRecord record = .ok service) : Kept json service := by
  obtain ⟨hactions, hresources, hkeys⟩ := entries_of_toRecord hread hrecord
  obtain ⟨hmadeKeys, hmadeResources, hmadeActions⟩ := Service.forall₂_comesFrom hservice
  have hclosed := Service.closed_of_ofRecord hservice
  constructor
  · apply keptWhole_of_forall₂ _ hclosed.actionsDistinct (Lists.forall₂_comp hactions hmadeActions)
    rintro item action ⟨entry, ⟨own, hown, rfl⟩, hfrom⟩
    rw [hfrom.name, nameIn, hown]
    rfl
  · apply keptWhole_of_forall₂ _ hclosed.resourceTypesDistinct
      (Lists.forall₂_comp hresources hmadeResources)
    rintro item resource ⟨entry, ⟨own, hown, rfl⟩, hfrom⟩
    rw [hfrom.name, nameIn, hown]
    rfl
  · apply keptWhole_of_forall₂ _ hclosed.keysDistinct (Lists.forall₂_comp hkeys hmadeKeys)
    rintro item key ⟨entry, ⟨own, hown, rfl⟩, hfrom⟩
    rw [hfrom.raw, nameIn, hown]
    rfl

end Reference

/-- Every entry that an accepted document writes comes to the member of the service at its place,
and no two of them denote the same thing. In maps this holds of the entries that were written last
under their names: an entry before one of the same name is replaced, and no check ever sees it. -/
theorem entries_kept {label text : String} {service : Service}
    (hok : Service.ofText label text = .ok service) :
    ∃ document, Json.read? text = some document ∧
      (shape? document = some (some .scraped) ∧ Scraped.Kept document service ∨
        shape? document = some (some .reference) ∧ Reference.Kept document service) := by
  obtain ⟨record, hrecord, hservice⟩ := Failing.bind_eq_ok.mp hok
  unfold Record.ofText at hrecord
  split at hrecord
  · cases hrecord
  · rename_i document hdocument
    refine ⟨document, hdocument, ?_⟩
    unfold Record.ofJson at hrecord
    split at hrecord
    · cases hrecord
    · cases hrecord
    · rename_i hshape
      split at hrecord
      · cases hrecord
      · rename_i hread
        exact .inl ⟨hshape, Scraped.kept_of_toRecord hread hrecord hservice⟩
    · rename_i hshape
      split at hrecord
      · cases hrecord
      · rename_i hread
        exact .inr ⟨hshape, Reference.kept_of_toRecord hread hrecord hservice⟩

/-- A catalog with two actions. -/
def lamp (first second : String) : Json :=
  .object
    [("servicePrefix", .string "lamp"),
      ("actionList", .object
        [(first, .object [("accessLevel", .string "Read")]),
          (second, .object [("accessLevel", .string "Write")])])]

theorem read?_lamp (first second : String) :
    Json.read? (lamp first second).compact = some (lamp first second) := by
  apply Json.read?_of_document
  apply Json.document_compact
  simp [lamp, Json.Textual, Json.TextualMembers]

theorem entries_kept_lamp :
    ∃ service, Service.ofText "lamp" (lamp "Dim" "Glow").compact = .ok service ∧
      service.actions.length = 2 := by
  have hsome : (Service.ofText "lamp" (lamp "Dim" "Glow").compact).toOption.isSome = true := by
    decide +kernel
  obtain ⟨service, hok⟩ := Failing.exists_eq_ok_of_isSome hsome
  refine ⟨service, hok, ?_⟩
  obtain ⟨document, hread, hkept⟩ := entries_kept hok
  rw [read?_lamp] at hread
  obtain rfl := Option.some.inj hread
  obtain ⟨_, hkept⟩ | ⟨hshape, _⟩ := hkept
  · exact hkept.actions.length_eq_iff.mpr (by decide)
  · exact absurd hshape (by decide)

/-- A document may write an action twice. It is accepted, and has the second alone. -/
theorem repeated_action_replaced :
    Json.read? (lamp "Dim" "Dim").compact = some (lamp "Dim" "Dim") ∧
      (Scraped.writtenIn "actionList" (lamp "Dim" "Dim")).map (·.1) = ["Dim", "Dim"] ∧
      ∃ service, Service.ofText "lamp" (lamp "Dim" "Dim").compact = .ok service ∧
        service.actions.map (fun action => (action.name, action.accessLevel)) =
          [("Dim", .write)] := by
  refine ⟨read?_lamp "Dim" "Dim", by decide, ?_⟩
  exact Failing.exists_of_toOption_map_eq_some (by decide +kernel)

end PolicyForge.Catalog
