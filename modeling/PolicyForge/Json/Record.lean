import PolicyForge.Json.Basic
import PolicyForge.Ordered

namespace PolicyForge.Json

/-- The text of a string. -/
def text? : Json → Option String
  | string text => some text
  | _ => none

/-- The value of a truth value. -/
def bool? : Json → Option Bool
  | bool value => some value
  | _ => none

/-- The items of an array, each decoded. -/
def list? {α : Type} (decode : Json → Option α) : Json → Option (List α)
  | array items => items.mapM decode
  | _ => none

/-- The members of an object, each decoded, in the order in which their keys first occur. A key that
occurs again replaces the value it had. -/
def map? {α : Type} (decode : Json → Option α) : Json → Option (List (String × α))
  | object members => do
    let decoded ← members.mapM fun (key, value) => (decode value).map (key, ·)
    return decoded.foldl
      (fun entries (key, value) => Ordered.update key value (fun _ => value) entries) []
  | _ => none

/-- The choice among named constants: the name, or an object that maps the name to null. -/
def choice? : Json → Option String
  | string name => some name
  | object [(name, null)] => some name
  | _ => none

/-- What a record holds for one of its fields. -/
inductive Entry where
  | given (value : Json)
  /-- No member of an object has the name of the field. -/
  | omitted
  /-- An array ends before the field. -/
  | cutOff

/-- The entries of a record with the given fields. Other members of an object are passed over, but a
field may be given only once, and an array may not be longer than the record. -/
def record? (fields : List String) : Json → Option (String → Entry)
  | object members =>
    let known := (members.map (·.1)).filter fields.contains
    if known.eraseDups.length == known.length then
      some fun field => match members.lookup field with
        | some value => .given value
        | none => .omitted
    else none
  | array items =>
    if items.length ≤ fields.length then
      some fun field => match items[fields.idxOf field]? with
        | some value => .given value
        | none => .cutOff
    else none
  | _ => none

namespace Entry

/-- A field that must be present. -/
def required {α : Type} (decode : Json → Option α) : Entry → Option α
  | given value => decode value
  | _ => none

/-- A field that has a value of its own when it is missing. Null is not missing. -/
def orDefault {α : Type} (decode : Json → Option α) (fallback : α) : Entry → Option α
  | given value => decode value
  | _ => some fallback

/-- A field that may be left out of an object, or be null. -/
def optional {α : Type} (decode : Json → Option α) : Entry → Option (Option α)
  | given null => some none
  | given value => (decode value).map some
  | omitted => some none
  | cutOff => none

end Entry

end PolicyForge.Json
