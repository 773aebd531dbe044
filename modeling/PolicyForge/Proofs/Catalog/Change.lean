import Mathlib.Logic.Relation
import PolicyForge.Catalog.Reader
import PolicyForge.Proofs.Json.Change
import PolicyForge.Proofs.Json.Reading
import PolicyForge.Proofs.Json.Writing

namespace PolicyForge.Catalog

open Json (Change Respects Schema respects_list respects_map respects_record)

namespace Scraped

/-- The fields of a resource type of an action. -/
def rowFields : List (String × Schema) :=
  [("required", .leaf), ("conditions", .leaf)]

/-- The fields of an action. -/
def actionFields : List (String × Schema) :=
  [("url", .leaf), ("description", .leaf), ("accessLevel", .leaf),
    ("resourceTypes", .map (.record rowFields)), ("conditions", .leaf), ("dependentActions", .leaf)]

/-- The fields of a resource type. -/
def resourceFields : List (String × Schema) :=
  [("name", .leaf), ("url", .leaf), ("arn", .leaf), ("conditionKeys", .leaf)]

/-- The fields of a condition key. -/
def conditionFields : List (String × Schema) :=
  [("key", .leaf), ("description", .leaf), ("type", .leaf), ("url", .leaf)]

/-- The fields of a catalog of this shape. -/
def documentFields : List (String × Schema) :=
  [("name", .leaf), ("servicePrefix", .leaf), ("url", .leaf),
    ("actionList", .map (.record actionFields)), ("resourceTypes", .map (.record resourceFields)),
    ("conditions", .map (.record conditionFields))]

theorem respects_row? : Respects (.record rowFields) row? := by
  refine respects_record rfl (fun _ => rfl) fun entry entry' hchanged => ?_
  simp (disch := decide) only [hchanged.leaf]

theorem respects_action? : Respects (.record actionFields) action? := by
  refine respects_record rfl (fun _ => rfl) fun entry entry' hchanged => ?_
  have hrows := (hchanged "resourceTypes" (by decide)).orDefault rfl (respects_map respects_row?) []
  simp (disch := decide) only [hchanged.leaf, hrows]

theorem respects_resource? : Respects (.record resourceFields) resource? := by
  refine respects_record rfl (fun _ => rfl) fun entry entry' hchanged => ?_
  simp (disch := decide) only [hchanged.leaf]

theorem respects_condition? : Respects (.record conditionFields) condition? := by
  refine respects_record rfl (fun _ => rfl) fun entry entry' hchanged => ?_
  simp (disch := decide) only [hchanged.leaf]

end Scraped

namespace Reference

/-- The fields of the properties of an action. -/
def propertiesFields : List (String × Schema) :=
  [("IsList", .leaf), ("IsPermissionManagement", .leaf), ("IsTaggingOnly", .leaf),
    ("IsWrite", .leaf)]

/-- The fields of the remarks on an action. -/
def annotationsFields : List (String × Schema) :=
  [("Properties", .record propertiesFields)]

/-- The fields of a resource type an action acts on. -/
def actionResourceFields : List (String × Schema) :=
  [("Name", .leaf)]

/-- The fields of an action. -/
def actionFields : List (String × Schema) :=
  [("Name", .leaf), ("ActionConditionKeys", .leaf), ("Annotations", .record annotationsFields),
    ("Resources", .list (.record actionResourceFields))]

/-- The fields of a resource type. -/
def resourceFields : List (String × Schema) :=
  [("Name", .leaf), ("ARNFormats", .leaf), ("ConditionKeys", .leaf)]

/-- The fields of a condition key. -/
def conditionKeyFields : List (String × Schema) :=
  [("Name", .leaf), ("Types", .leaf)]

/-- The fields of a catalog of this shape. -/
def documentFields : List (String × Schema) :=
  [("Name", .leaf), ("Actions", .list (.record actionFields)),
    ("Resources", .list (.record resourceFields)),
    ("ConditionKeys", .list (.record conditionKeyFields))]

/-- The access-level properties of an action are read from the members they know. -/
theorem respects_properties? : Respects (.record propertiesFields) properties? := by
  refine respects_record rfl (fun _ => rfl) fun entry entry' hchanged => ?_
  simp (disch := decide) only [hchanged.leaf]

/-- The annotations of an action are read from their one member alone. -/
theorem respects_annotated? : Respects (.record annotationsFields) annotated? := by
  refine respects_record rfl (fun _ => rfl) fun entry entry' hchanged => ?_
  exact (hchanged "Properties" (by decide)).orDefault rfl respects_properties? {}

theorem respects_actionResource? : Respects (.record actionResourceFields) actionResource? := by
  refine respects_record rfl (fun _ => rfl) fun entry entry' hchanged => ?_
  simp (disch := decide) only [hchanged.leaf]

theorem respects_action? : Respects (.record actionFields) action? := by
  refine respects_record rfl (fun _ => rfl) fun entry entry' hchanged => ?_
  have hannotations := (hchanged "Annotations" (by decide)).optional rfl respects_annotated?
  have hresources :=
    (hchanged "Resources" (by decide)).orDefault rfl (respects_list respects_actionResource?) []
  simp (disch := decide) only [hchanged.leaf, hannotations, hresources]

theorem respects_resource? : Respects (.record resourceFields) resource? := by
  refine respects_record rfl (fun _ => rfl) fun entry entry' hchanged => ?_
  simp (disch := decide) only [hchanged.leaf]

theorem respects_conditionKey? : Respects (.record conditionKeyFields) conditionKey? := by
  refine respects_record rfl (fun _ => rfl) fun entry entry' hchanged => ?_
  simp (disch := decide) only [hchanged.leaf]

end Reference

/-- The members by which the shape of a document is told. -/
def tellingFields : List (String × Schema) :=
  [("actionList", .map (.record Scraped.actionFields)), ("servicePrefix", .leaf),
    ("Actions", .list (.record Reference.actionFields)), ("Name", .leaf)]

/-- The members of a document that count: the fields of a catalog of its shape, and those that tell
the shape. -/
def documentFields : Option (Option Shape) → List (String × Schema)
  | some (some .scraped) => Scraped.documentFields ++ tellingFields
  | some (some .reference) => Reference.documentFields ++ tellingFields
  | _ => tellingFields

/-- One change in one of the records of a document whose value is an object. -/
inductive DocumentChange : Json → Json → Prop where
  | intro {members : List (String × Json)} {json' : Json} {shape : Option (Option Shape)}
      (hshape : shape? (.object members) = shape)
      (hchange : Change (.record (documentFields shape)) (.object members) json') :
      DocumentChange (.object members) json'

section

variable {members : List (String × Json)} {json json' : Json} {shape : Option (Option Shape)}

/-- Whatever the shape, the members it is told by are among the known ones. -/
theorem telling_subset (shape : Option (Option Shape)) :
    tellingFields.map (·.1) ⊆ (documentFields shape).map (·.1) := by
  unfold documentFields
  split <;> simp

/-- A change keeps the shape: it touches no member that tells one from the other. -/
theorem shape?_of_change
    (hchange : Change (.record (documentFields shape)) (.object members) json') :
    shape? json' = shape? (.object members) := by
  have hread : ∀ json, shape? json = json.record? (tellingFields.map (·.1)) >>= fun entry => do
      let actionList ← ((entry "actionList").optional some).map Option.isSome
      let servicePrefix ← ((entry "servicePrefix").optional some).map Option.isSome
      let actions ← ((entry "Actions").optional some).map Option.isSome
      let name ← ((entry "Name").optional some).map Option.isSome
      return if actionList || servicePrefix then some .scraped
        else if actions || name then some .reference
        else none := by
    intro json
    simp only [shape?, Option.bind_eq_bind, Option.bind_map]
    rfl
  refine Json.eq_of_rel_record? hread (fun entry entry' hchanged => ?_)
    (Json.rel_record?_of_object (telling_subset shape) hchange)
  have htelling := fun field hmem => (hchanged field hmem).isSome_optional
  simp (disch := decide) only [htelling]

/-- A change of a scraped document reads as the same document. -/
theorem Scraped.document?_of_change (hchange : Change
      (.record (Catalog.documentFields (some (some .scraped)))) (.object members) json') :
    Scraped.document? json' = Scraped.document? (.object members) := by
  refine Json.eq_of_rel_record? (fun _ => rfl) (fun entry entry' hchanged => ?_)
    (Json.rel_record?_of_object (by simp [Catalog.documentFields, Scraped.documentFields]) hchange)
  have hactions := (hchanged "actionList" (by decide)).orDefault rfl
    (respects_map Scraped.respects_action?) []
  have hresources := (hchanged "resourceTypes" (by decide)).orDefault rfl
    (respects_map Scraped.respects_resource?) []
  have hconditions := (hchanged "conditions" (by decide)).orDefault rfl
    (respects_map Scraped.respects_condition?) []
  simp (disch := decide) only [hchanged.leaf, hactions, hresources, hconditions]

/-- A change of a reference document reads as the same document. -/
theorem Reference.document?_of_change (hchange : Change
      (.record (Catalog.documentFields (some (some .reference)))) (.object members) json') :
    Reference.document? json' = Reference.document? (.object members) := by
  refine Json.eq_of_rel_record? (fun _ => rfl) (fun entry entry' hchanged => ?_)
    (Json.rel_record?_of_object (by simp [Catalog.documentFields, Reference.documentFields])
      hchange)
  have hactions := (hchanged "Actions" (by decide)).orDefault rfl
    (respects_list Reference.respects_action?) []
  have hresources := (hchanged "Resources" (by decide)).orDefault rfl
    (respects_list Reference.respects_resource?) []
  have hkeys := (hchanged "ConditionKeys" (by decide)).orDefault rfl
    (respects_list Reference.respects_conditionKey?) []
  simp (disch := decide) only [hchanged.leaf, hactions, hresources, hkeys]

/-- One change of a document leaves its record as it was, whichever shape the document has. -/
theorem ofJson_of_change (label : String) (hchange : DocumentChange json json') :
    Record.ofJson label json' = Record.ofJson label json := by
  obtain ⟨hshape, hchange⟩ := hchange
  rw [Record.ofJson, Record.ofJson, shape?_of_change hchange, hshape]
  split
  · rfl
  · rfl
  · rw [Scraped.document?_of_change hchange]
  · rw [Reference.document?_of_change hchange]

/-- Any sequence of changes and of changes undone leaves the record as it was. -/
theorem ofJson_of_changes (label : String) (hchanges : Relation.EqvGen DocumentChange json json') :
    Record.ofJson label json' = Record.ofJson label json := by
  induction hchanges with
  | rel _ _ hchange => exact ofJson_of_change label hchange
  | refl => rfl
  | symm _ _ _ ih => exact ih.symm
  | trans _ _ _ _ _ ihfirst ihsecond => exact ihsecond.trans ihfirst

end

/-- What is read of a catalog depends on the known members of its records alone. Documents that come
from each other by bringing the members of records in another order, and by putting in or leaving
out members that are no fields, hold the same record or are refused with the same error. Such
members may have any value, be it one that no field may have. -/
theorem record_of_known_members {label text text' : String} {json json' : Json}
    (hread : Json.read? text = some json) (hread' : Json.read? text' = some json')
    (hchanges : Relation.EqvGen DocumentChange json json') :
    Record.ofText label text' = Record.ofText label text := by
  rw [Record.ofText, Record.ofText, hread, hread']
  exact ofJson_of_changes label hchanges

/-- A catalog with one action, which has the given members. -/
def withAction (action : List (String × Json)) : List (String × Json) :=
  [("Actions", .array [.object action]), ("Name", .string "s")]

theorem record_of_known_members_withAction :
    let action : List (String × Json) := [("Name", .string "a")]
    let longer : List (String × Json) := ("Since", .array [.null, .object []]) :: action
    let later : String × Json := ("url", .bool true)
    let plain := (Json.object (withAction action)).compact
    let furnished := (Json.object (later :: (withAction longer).reverse)).compact
    (Record.ofText "s" plain).isOk = true ∧
      Record.ofText "s" furnished = Record.ofText "s" plain := by
  intro action longer later plain furnished
  have hread : Json.read? plain = some (.object (withAction action)) := by
    apply Json.read?_of_document
    apply Json.document_compact
    simp [action, withAction, Json.Textual, Json.TextualItems, Json.TextualMembers]
  have hread' : Json.read? furnished = some (.object (later :: (withAction longer).reverse)) := by
    apply Json.read?_of_document
    apply Json.document_compact
    simp [action, longer, later, withAction, Json.Textual, Json.TextualItems, Json.TextualMembers]
  have hinside : DocumentChange (.object (withAction action)) (.object (withAction longer)) := by
    have hactions : Change (.list (.record Reference.actionFields)) (.array [.object action])
        (.array [.object longer]) :=
      @Change.inItem _ [] [] _ _ (@Change.inserted _ [] action _ _ (by decide))
    have hchange : Change (.record (documentFields (some (some .reference))))
        (.object (withAction action)) (.object (withAction longer)) :=
      @Change.inField _ [] [("Name", .string "s")] "Actions" _ _ _ rfl hactions
    exact .intro rfl hchange
  have horder : DocumentChange (.object (withAction longer))
      (.object (withAction longer).reverse) :=
    .intro rfl (.permuted (List.reverse_perm _))
  have hbeside : DocumentChange (.object (withAction longer).reverse)
      (.object (later :: (withAction longer).reverse)) := by
    have hchange : Change (.record (documentFields (some (some .reference))))
        (.object (withAction longer).reverse) (.object (later :: (withAction longer).reverse)) :=
      @Change.inserted _ [] _ _ _ (by decide)
    exact .intro rfl hchange
  have hchanges : Relation.EqvGen DocumentChange (.object (withAction action))
      (.object (later :: (withAction longer).reverse)) :=
    .trans _ _ _ (.rel _ _ hinside) (.trans _ _ _ (.rel _ _ horder) (.rel _ _ hbeside))
  exact ⟨by decide +kernel, record_of_known_members hread hread' hchanges⟩

/-- A member whose name holds half of a surrogate pair is no such member. The document is read, but
the object it stands in is no record any more. -/
theorem undecodable_name_refused :
    let front := "\x7b\"servicePrefix\":\"w\""
    let member := ",\"\\ud800\":1"
    Record.ofText "lbl" (front ++ "\x7d") = .ok { name := "w", servicePrefix := "w" } ∧
      (Json.read? (front ++ member ++ "\x7d")).isSome = true ∧
      Record.ofText "lbl" (front ++ member ++ "\x7d") =
        .error (documentError "lbl" .invalidJson) := by
  decide +kernel

end PolicyForge.Catalog
