import PolicyForge.Text.Cut

namespace PolicyForge.Condition

/-- What follows the name of a key. -/
inductive KeyEnding where
  /-- Nothing: the name reaches to the end. -/
  | plain
  /-- A slash and nothing more. -/
  | openSuffix
  /-- A slash and a placeholder, of which the letters and digits name a parameter. -/
  | parameter (name : String)
  deriving Repr, DecidableEq

/-- What the text behind the name's slash stands for. A placeholder without a letter or digit has no
name and is refused. -/
def KeyEnding.ofTail? (tail : List Char) : Option KeyEnding :=
  let letters := tail.filter Char.isAlphanum
  if tail.isEmpty then some .openSuffix
  else if letters.isEmpty then none
  else some (.parameter (String.ofList letters))

/-- A condition key and the parts it is made of. -/
structure KeyTemplate where
  raw : String
  servicePrefix : String
  name : String
  ending : KeyEnding
  deriving Repr, DecidableEq

namespace KeyTemplate

/-- Whether a slash ends the name when `tail` follows it: at the end of the key, or before the start
of a placeholder. Any other slash is part of the name. -/
def endsName : List Char → Bool
  | [] => true
  | c :: _ => c == '$' || c == '<'

/-- The text in front of the first slash that ends the name and the text behind it, or nothing when
no slash does. -/
def cutName : List Char → Option (List Char × List Char)
  | [] => none
  | c :: rest =>
    if c == '/' && endsName rest then some ([], rest)
    else (cutName rest).map fun (name, tail) => (c :: name, tail)

/-- Read a key. It needs a colon with a prefix in front, and a name. -/
def parse? (raw : String) : Option KeyTemplate := do
  let (servicePrefix, rest) ← Text.cutAt ':' raw.toList
  guard (!servicePrefix.isEmpty && !rest.isEmpty)
  let (name, ending) ← match cutName rest with
    | none => some (rest, KeyEnding.plain)
    | some (name, tail) => (KeyEnding.ofTail? tail).map (name, ·)
  guard !name.isEmpty
  return ⟨raw, String.ofList servicePrefix, String.ofList name, ending⟩

/-- The name of the parameter, for a key with a placeholder. -/
def parameter? (key : KeyTemplate) : Option String :=
  match key.ending with
  | .parameter name => some name
  | _ => none

/-- Whether the key ends in a bare slash. -/
def isOpenSuffix (key : KeyTemplate) : Bool :=
  key.ending == .openSuffix

/-- The text of the key in front of the parameter, which is all of a key that has none. -/
def literalPrefix (key : KeyTemplate) : String :=
  match key.ending with
  | .plain => key.raw
  | _ => key.servicePrefix ++ ":" ++ key.name ++ "/"

end KeyTemplate

end PolicyForge.Condition
