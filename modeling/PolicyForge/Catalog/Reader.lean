import PolicyForge.Catalog.Reference
import PolicyForge.Catalog.Scraped
import PolicyForge.Json.Reader

namespace PolicyForge.Catalog

/-- The two shapes of a catalog. -/
inductive Shape where
  | scraped
  | reference
  deriving Repr, DecidableEq

/-- The shape of a document: `some none` when it has the members of neither, and `none` when the
telling members are malformed. A null member counts as missing. -/
def shape? (json : Json) : Option (Option Shape) := do
  let entry ← json.record? ["actionList", "servicePrefix", "Actions", "Name"]
  let actionList ← (entry "actionList").optional some
  let servicePrefix ← (entry "servicePrefix").optional some
  let actions ← (entry "Actions").optional some
  let name ← (entry "Name").optional some
  return if actionList.isSome || servicePrefix.isSome then some .scraped
    else if actions.isSome || name.isSome then some .reference
    else none

/-- An error about the document as a whole. -/
def documentError (label : String) (violation : Violation) : Error :=
  { service := label, location := "$", violation }

/-- The record that a value holds. Until the prefix of the service is known, errors name `label`. -/
def Record.ofJson (label : String) (json : Json) : Except Error Record :=
  match shape? json with
  | none => .error (documentError label .invalidJson)
  | some none => .error (documentError label .unknownFormat)
  | some (some .scraped) =>
    match Scraped.document? json with
    | none => .error (documentError label .invalidJson)
    | some document => document.toRecord label
  | some (some .reference) =>
    match Reference.document? json with
    | none => .error (documentError label .invalidJson)
    | some document => document.toRecord label

/-- The record that a text holds. -/
def Record.ofText (label text : String) : Except Error Record :=
  match Json.read? text with
  | none => .error (documentError label .invalidJson)
  | some json => Record.ofJson label json

end PolicyForge.Catalog
