import PolicyForge.Json.Writer
import PolicyForge.Statement.Basic

namespace PolicyForge

/-- A set of texts, which stands without brackets when it has one element. -/
def oneOrMany : List String → Json
  | [text] => .string text
  | texts => .ofTexts texts

/-- The keys of an operator with their values. -/
def Clauses.keysToJson (keys : List (String × List String)) : Json :=
  .object (keys.map fun (key, values) => (key, oneOrMany values))

/-- The clauses of a statement. -/
def Clauses.toJson (clauses : Clauses) : Json :=
  .object (clauses.map fun (operator, keys) => (operator.text, keysToJson keys))

namespace Statement

/-- The resources a document names. A statement without any is about all of them. -/
def writtenResources (statement : Statement) : List String :=
  if statement.resources.isEmpty then [Arn.wildcard] else statement.resources

/-- The statement as a JSON value. -/
def toJson (statement : Statement) : Json :=
  .object (
    (match statement.sid with
      | some sid => [("Sid", .string sid)]
      | none => []) ++
    [("Effect", .string statement.effect.text),
      (if statement.notAction then "NotAction" else "Action", oneOrMany statement.actions),
      (if statement.notResource then "NotResource" else "Resource",
        oneOrMany statement.writtenResources)] ++
    (if statement.conditions.isEmpty then [] else [("Condition", statement.conditions.toJson)]))

/-- The statement as JSON text on one line. -/
def compact (statement : Statement) : String :=
  statement.toJson.compact

/-- The statement as JSON text with an item to a line. -/
def pretty (statement : Statement) : String :=
  statement.toJson.pretty

/-- The statement as a JSON value with sorted members. -/
def toValue (statement : Statement) : Json :=
  statement.toJson.sorted

end Statement

end PolicyForge
