import PolicyForge.Json.Basic
import PolicyForge.Text.Basic

namespace PolicyForge.Json

/-- A character as it stands inside a string. Quote, backslash and control characters are escaped,
and nothing else is. -/
def escape (c : Char) : List Char :=
  if c == '"' then ['\\', '"']
  else if c == '\\' then ['\\', '\\']
  else if c == '\n' then ['\\', 'n']
  else if c == '\r' then ['\\', 'r']
  else if c == '\t' then ['\\', 't']
  else if c == '\x08' then ['\\', 'b']
  else if c == '\x0c' then ['\\', 'f']
  else if c.toNat < 0x20 then
    '\\' :: 'u' :: '0' :: '0' :: (if c.toNat < 0x10 then ['0'] else []) ++
      Text.hexadecimal c.toNat
  else [c]

/-- A text as a string of JSON. -/
def quote (text : String) : List Char :=
  '"' :: text.toList.flatMap escape ++ ['"']

/-- A string that stands for no text. -/
def halfPair : List Char :=
  "\"\\ud800\"".toList

/-- The text of a value that is neither an array nor an object. -/
def scalar : Json → List Char
  | bool true => "true".toList
  | bool false => "false".toList
  | number numeral => numeral.toList
  | string text => quote text
  | undecodable => halfPair
  | _ => "null".toList

mutual

/-- The characters of a value without blanks. -/
def compactChars : Json → List Char
  | array items => '[' :: compactItems items ++ [']']
  | object members => '{' :: compactMembers members ++ ['}']
  | value => scalar value

/-- The items of an array with commas between them. -/
def compactItems : List Json → List Char
  | [] => []
  | [item] => compactChars item
  | item :: items => compactChars item ++ ',' :: compactItems items

/-- The members of an object with commas between them. -/
def compactMembers : List (String × Json) → List Char
  | [] => []
  | [(key, value)] => quote key ++ ':' :: compactChars value
  | (key, value) :: members =>
    quote key ++ ':' :: compactChars value ++ ',' :: compactMembers members

end

/-- A new line, indented to the given depth. -/
def newLine (depth : Nat) : List Char :=
  '\n' :: List.replicate (2 * depth) ' '

mutual

/-- The characters of a value that starts at the given depth. -/
def prettyChars (depth : Nat) : Json → List Char
  | array [] => ['[', ']']
  | array items => '[' :: prettyItems (depth + 1) items ++ newLine depth ++ [']']
  | object [] => ['{', '}']
  | object members => '{' :: prettyMembers (depth + 1) members ++ newLine depth ++ ['}']
  | value => scalar value

/-- The items of an array, each on lines of its own. -/
def prettyItems (depth : Nat) : List Json → List Char
  | [] => []
  | [item] => newLine depth ++ prettyChars depth item
  | item :: items => newLine depth ++ prettyChars depth item ++ ',' :: prettyItems depth items

/-- The members of an object, each on lines of its own. -/
def prettyMembers (depth : Nat) : List (String × Json) → List Char
  | [] => []
  | [(key, value)] => newLine depth ++ quote key ++ ':' :: ' ' :: prettyChars depth value
  | (key, value) :: members =>
    newLine depth ++ quote key ++ ':' :: ' ' :: prettyChars depth value ++
      ',' :: prettyMembers depth members

end

/-- The value on one line. -/
def compact (value : Json) : String :=
  String.ofList (compactChars value)

/-- The value with an item to a line. -/
def pretty (value : Json) : String :=
  String.ofList (prettyChars 0 value)

end PolicyForge.Json
