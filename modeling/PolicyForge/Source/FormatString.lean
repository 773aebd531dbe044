import PolicyForge.Text.Cut

namespace PolicyForge.Source

/-- A part of a format string. -/
inductive FormatPart where
  | text (text : String)
  | argument (ident : String)
  deriving Repr, DecidableEq

namespace FormatString

/-- A character of the text. -/
def double (c : Char) : List Char :=
  if c == '{' || c == '}' then [c, c] else [c]

/-- A part as it is written. -/
def writePart : FormatPart → String
  | .text text => String.ofList (text.toList.flatMap double)
  | .argument ident => "\x7b" ++ ident ++ "\x7d"

/-- The format string made of the given parts. -/
def write (parts : List FormatPart) : String :=
  String.join (parts.map writePart)

/-- The text of a format string with the values of `binding` put in. A brace that stands alone and
an argument without a value are errors. -/
def evaluate? (binding : String → Option String) (format : List Char) : Option (List Char) :=
  match format with
  | [] => some []
  | '{' :: '{' :: rest => ('{' :: ·) <$> evaluate? binding rest
  | '}' :: '}' :: rest => ('}' :: ·) <$> evaluate? binding rest
  | '{' :: rest =>
    match h : Text.cutAt '}' rest with
    | none => none
    | some (ident, after) => do
      have : after.length < rest.length := Text.length_lt_of_cutAt h
      let value ← binding (String.ofList ident)
      return value.toList ++ (← evaluate? binding after)
  | '}' :: _ => none
  | c :: rest => (c :: ·) <$> evaluate? binding rest
termination_by format.length

end FormatString

end PolicyForge.Source
