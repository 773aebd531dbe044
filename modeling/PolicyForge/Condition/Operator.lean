import PolicyForge.Text.Cut

namespace PolicyForge.Condition

/-- The documented comparisons. -/
inductive OperatorKind where
  | stringEquals
  | stringNotEquals
  | stringEqualsIgnoreCase
  | stringNotEqualsIgnoreCase
  | stringLike
  | stringNotLike
  | numericEquals
  | numericNotEquals
  | numericLessThan
  | numericLessThanEquals
  | numericGreaterThan
  | numericGreaterThanEquals
  | dateEquals
  | dateNotEquals
  | dateLessThan
  | dateLessThanEquals
  | dateGreaterThan
  | dateGreaterThanEquals
  | bool
  | binaryEquals
  | ipAddress
  | notIpAddress
  | arnEquals
  | arnNotEquals
  | arnLike
  | arnNotLike
  | null
  deriving Repr, DecidableEq, Ord

namespace OperatorKind

/-- Every kind, in the order of the documentation. -/
def all : List OperatorKind :=
  [stringEquals, stringNotEquals, stringEqualsIgnoreCase, stringNotEqualsIgnoreCase, stringLike,
    stringNotLike, numericEquals, numericNotEquals, numericLessThan, numericLessThanEquals,
    numericGreaterThan, numericGreaterThanEquals, dateEquals, dateNotEquals, dateLessThan,
    dateLessThanEquals, dateGreaterThan, dateGreaterThanEquals, bool, binaryEquals, ipAddress,
    notIpAddress, arnEquals, arnNotEquals, arnLike, arnNotLike, null]

/-- The kind as it is written in a policy. -/
def text : OperatorKind → String
  | stringEquals => "StringEquals"
  | stringNotEquals => "StringNotEquals"
  | stringEqualsIgnoreCase => "StringEqualsIgnoreCase"
  | stringNotEqualsIgnoreCase => "StringNotEqualsIgnoreCase"
  | stringLike => "StringLike"
  | stringNotLike => "StringNotLike"
  | numericEquals => "NumericEquals"
  | numericNotEquals => "NumericNotEquals"
  | numericLessThan => "NumericLessThan"
  | numericLessThanEquals => "NumericLessThanEquals"
  | numericGreaterThan => "NumericGreaterThan"
  | numericGreaterThanEquals => "NumericGreaterThanEquals"
  | dateEquals => "DateEquals"
  | dateNotEquals => "DateNotEquals"
  | dateLessThan => "DateLessThan"
  | dateLessThanEquals => "DateLessThanEquals"
  | dateGreaterThan => "DateGreaterThan"
  | dateGreaterThanEquals => "DateGreaterThanEquals"
  | bool => "Bool"
  | binaryEquals => "BinaryEquals"
  | ipAddress => "IpAddress"
  | notIpAddress => "NotIpAddress"
  | arnEquals => "ArnEquals"
  | arnNotEquals => "ArnNotEquals"
  | arnLike => "ArnLike"
  | arnNotLike => "ArnNotLike"
  | null => "Null"

/-- The kind with the given name. Names are matched exactly. -/
def ofText? (name : String) : Option OperatorKind :=
  all.find? (·.text == name)

end OperatorKind

/-- How a comparison with a key of several values is meant. -/
inductive SetQualifier where
  | forAnyValue
  | forAllValues
  deriving Repr, DecidableEq, Ord

/-- The qualifier as it is written in front of the colon. -/
def SetQualifier.text : SetQualifier → String
  | .forAnyValue => "ForAnyValue"
  | .forAllValues => "ForAllValues"

/-- The qualifier with the given name. -/
def SetQualifier.ofText? (name : String) : Option SetQualifier :=
  [SetQualifier.forAnyValue, .forAllValues].find? (·.text == name)

/-- A complete condition operator. Operators are ordered by kind, then by qualifier with none first,
then with those that lack `IfExists` first. -/
structure Operator where
  kind : OperatorKind
  qualifier : Option SetQualifier := none
  ifExists : Bool := false
  deriving Repr, DecidableEq, Ord

namespace Operator

/-- The operator used for text when none is chosen. -/
def stringLike : Operator := ⟨.stringLike, none, false⟩

/-- The same comparison, true when any value of the key passes. -/
def forAnyValue (op : Operator) : Operator := { op with qualifier := some .forAnyValue }

/-- The same comparison, true when every value of the key passes. -/
def forAllValues (op : Operator) : Operator := { op with qualifier := some .forAllValues }

/-- The same comparison, true also when the key is absent. -/
def orAbsent (op : Operator) : Operator := { op with ifExists := true }

/-- The operator as it is written in a policy. -/
def text (op : Operator) : String :=
  let front := match op.qualifier with
    | some qualifier => qualifier.text ++ ":"
    | none => ""
  front ++ op.kind.text ++ if op.ifExists then "IfExists" else ""

/-- The characters in front of `ending`, when the text ends so. -/
def stripEnding? (ending : List Char) (cs : List Char) : Option (List Char) :=
  if ending.isSuffixOf cs then some (cs.take (cs.length - ending.length)) else none

/-- Read what may stand behind the qualifier: a kind, then possibly `IfExists`. -/
def parseComparison? (cs : List Char) : Option (OperatorKind × Bool) :=
  match stripEnding? "IfExists".toList cs with
  | some base => (OperatorKind.ofText? (String.ofList base)).map (·, true)
  | none => (OperatorKind.ofText? (String.ofList cs)).map (·, false)

/-- Read an operator as a policy writes it. No other spelling is accepted: case counts, blanks are
not skipped, and a second qualifier or `IfExists` is refused. -/
def parse? (source : String) : Option Operator :=
  match Text.cutAt ':' source.toList with
  | some (front, rest) => do
    let qualifier ← SetQualifier.ofText? (String.ofList front)
    let (kind, ifExists) ← parseComparison? rest
    return ⟨kind, some qualifier, ifExists⟩
  | none => do
    let (kind, ifExists) ← parseComparison? source.toList
    return ⟨kind, none, ifExists⟩

/-- A text that writes no operator. -/
structure Unknown where
  source : String
  deriving Repr, DecidableEq

/-- The message about a text that writes no operator. -/
def Unknown.message (unknown : Unknown) : String :=
  "Invalid condition operator: " ++ unknown.source

/-- Read an operator, or report the text as it was given. -/
def parse (source : String) : Except Unknown Operator :=
  match parse? source with
  | some op => .ok op
  | none => .error ⟨source⟩

end Operator

end PolicyForge.Condition
