namespace PolicyForge

/-- A JSON value. -/
inductive Json where
  | null
  | bool (value : Bool)
  | number (numeral : String)
  | string (text : String)
  | array (items : List Json)
  | object (members : List (String × Json))
  /-- A string that stands for no text, or an object with such a key, because an escape in it is
  half of a surrogate pair. -/
  | undecodable
  deriving Repr, Inhabited

namespace Json

/-- An array of strings. -/
def ofTexts (texts : List String) : Json :=
  array (texts.map string)

mutual

/-- The value with the members of every object in the order of their keys. -/
def sorted : Json → Json
  | array items => array (sortedItems items)
  | object members =>
    object ((sortedMembers members).mergeSort fun a b => decide (a.1 ≤ b.1))
  | value => value

/-- The items with the members of every object in the order of their keys. -/
def sortedItems : List Json → List Json
  | [] => []
  | item :: items => sorted item :: sortedItems items

/-- The members, themselves in place, with the members of every object below them in order. -/
def sortedMembers : List (String × Json) → List (String × Json)
  | [] => []
  | (key, value) :: members => (key, sorted value) :: sortedMembers members

end

end Json

end PolicyForge
