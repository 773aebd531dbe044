import PolicyForge.Text.Cut

namespace PolicyForge.Arn

/-- Matches any region or account. -/
def wildcard : String := "*"

/-- What a resource method fills in for a partition, region or account that is not given. -/
structure Defaults where
  partition : String := "aws"
  region : String := wildcard
  account : String := wildcard
  deriving Repr, DecidableEq

/-- Why a text is no template. Offsets count bytes and point at the `$` of the placeholder. -/
inductive TemplateError where
  | unterminated (offset : Nat)
  | empty (offset : Nat)
  | invalidName (name : String)
  deriving Repr, DecidableEq

/-- The message about a text that is no template. -/
def TemplateError.message : TemplateError → String
  | .unterminated offset => "unterminated placeholder at offset " ++ toString offset
  | .empty offset => "empty placeholder at offset " ++ toString offset
  | .invalidName name => "invalid placeholder name `" ++ name ++ "`"

/-- The placeholders that every resource method fills from optional arguments or defaults. -/
inductive Standard where
  | account
  | region
  | partition
  deriving Repr, DecidableEq

namespace Standard

/-- The order in which the optional arguments stand. -/
def argumentOrder : List Standard := [account, region, partition]

/-- The standard placeholder with the given name. The account has two names. -/
def ofName? (name : String) : Option Standard :=
  if name == "Partition" then some partition
  else if name == "Region" then some region
  else if name == "Account" || name == "AccountId" then some account
  else none

/-- The name of the optional argument. -/
def argument : Standard → String
  | account => "account"
  | region => "region"
  | partition => "partition"

/-- The value that stands in when the argument is left out. -/
def default (defaults : Defaults) : Standard → String
  | account => defaults.account
  | region => defaults.region
  | partition => defaults.partition

end Standard

/-- A part of a template. -/
inductive Segment where
  | literal (text : String)
  | placeholder (name : String)
  deriving Repr, DecidableEq

/-- The part with placeholders replaced where `lookup` knows them, and written out where not. -/
def Segment.fill (lookup : String → Option String) : Segment → String
  | .literal text => text
  | .placeholder name => (lookup name).getD ("$\x7b" ++ name ++ "\x7d")

/-- The part as a template writes it. -/
def Segment.render : Segment → String :=
  Segment.fill fun _ => none

/-- A character that may stand in the name of a placeholder. -/
def isNameChar (c : Char) : Bool :=
  c.isAlphanum || c == '_' || c == '-'

/-- The segment of a literal collected in reverse, none when it is empty. -/
def closeLiteral (reversed : List Char) : List Segment :=
  if reversed.isEmpty then [] else [.literal (String.ofList reversed.reverse)]

/-- Cut the remaining text, which starts at byte `offset`, into segments. The characters read since
the last placeholder are in `literal`, the latest first. -/
def scan (offset : Nat) (literal : List Char) : List Char → Except TemplateError (List Segment)
  | [] => .ok (closeLiteral literal)
  | '$' :: '{' :: rest =>
    match h : Text.cutAt '}' rest with
    | none => .error (.unterminated offset)
    | some (name, after) =>
      let nameText := String.ofList name
      if name.isEmpty then .error (.empty offset)
      else if name.all isNameChar then do
        have : after.length < rest.length := Text.length_lt_of_cutAt h
        let others ← scan (offset + nameText.utf8ByteSize + 3) [] after
        return closeLiteral literal ++ .placeholder nameText :: others
      else .error (.invalidName nameText)
  | c :: rest => scan (offset + c.utf8Size) (c :: literal) rest
termination_by cs => cs.length

/-- A text together with the segments it is made of. -/
structure Template where
  raw : String
  segments : List Segment
  deriving Repr, DecidableEq

namespace Template

/-- Cut a text into segments. The first `${` that opens no proper placeholder is reported. -/
def parse (raw : String) : Except TemplateError Template := do
  return ⟨raw, ← scan 0 [] raw.toList⟩

/-- The names of the placeholders, in order and with repetitions. -/
def placeholders (template : Template) : List String :=
  template.segments.filterMap fun
    | .literal _ => none
    | .placeholder name => some name

/-- The placeholders that belong to this resource alone, in order of first occurrence. -/
def customPlaceholders (template : Template) : List String :=
  (template.placeholders.filter fun name => (Standard.ofName? name).isNone).eraseDups

/-- The standard placeholders that occur, in the order of the arguments. -/
def standardPlaceholders (template : Template) : List Standard :=
  Standard.argumentOrder.filter fun standard =>
    template.placeholders.any fun name => Standard.ofName? name == some standard

/-- Whether any placeholder occurs. -/
def hasPlaceholders (template : Template) : Bool :=
  !template.placeholders.isEmpty

/-- Replace every placeholder that `lookup` knows. -/
def fill (template : Template) (lookup : String → Option String) : String :=
  String.join (template.segments.map (Segment.fill lookup))

end Template

end PolicyForge.Arn
