import PolicyForge.Condition.Operator

namespace PolicyForge.Condition

/-- A family of values. -/
inductive ValueType where
  | string
  | arn
  | numeric
  | date
  | bool
  | ipAddress
  | binary
  deriving Repr, DecidableEq

namespace ValueType

/-- The family each published type name stands for, in lower case. -/
def names : List (String × ValueType) :=
  [("", string), ("string", string), ("arn", arn), ("numeric", numeric), ("long", numeric),
    ("integer", numeric), ("date", date), ("bool", bool), ("boolean", bool),
    ("ipaddress", ipAddress), ("binary", binary)]

/-- The word in front of a type name that makes it a list of such values. -/
def listMark : List Char := "arrayof".toList

/-- The family a published label means. Blanks around it and the case of ASCII letters do not count,
no label at all means text, and a list has the family of its elements. -/
def ofLabel? (label : String) : Option ValueType :=
  let lower := (Text.trim label).toList.map Char.toLower
  let base := if listMark.isPrefixOf lower then lower.drop listMark.length else lower
  names.lookup (String.ofList base)

/-- The comparison used when none is chosen. -/
def defaultKind : ValueType → OperatorKind
  | string => .stringLike
  | arn => .arnLike
  | numeric => .numericEquals
  | date => .dateEquals
  | bool => .bool
  | ipAddress => .ipAddress
  | binary => .binaryEquals

/-- The operator used when none is chosen. -/
def defaultOperator (type : ValueType) : Operator :=
  ⟨type.defaultKind, none, false⟩

/-- The name of the family in data. -/
def name : ValueType → String
  | string => "String"
  | arn => "Arn"
  | numeric => "Numeric"
  | date => "Date"
  | bool => "Bool"
  | ipAddress => "IpAddress"
  | binary => "Binary"

/-- The name of the family in running text. -/
def noun : ValueType → String
  | string => "string"
  | arn => "ARN"
  | numeric => "numeric"
  | date => "date"
  | bool => "boolean"
  | ipAddress => "IP address"
  | binary => "binary"

/-- The section of the documentation of operators that treats the family. -/
def documentationSection : ValueType → String
  | string => "Conditions_String"
  | arn => "Conditions_ARN"
  | numeric => "Conditions_Numeric"
  | date => "Conditions_Date"
  | bool => "Conditions_Boolean"
  | ipAddress => "Conditions_IPAddress"
  | binary => "Conditions_BinaryEquals"

/-- The address of the documentation of the family's operators. -/
def documentation (type : ValueType) : String :=
  "https://docs.aws.amazon.com/IAM/latest/UserGuide/" ++
    "reference_policies_elements_condition_operators.html#" ++ type.documentationSection

end ValueType

end PolicyForge.Condition
