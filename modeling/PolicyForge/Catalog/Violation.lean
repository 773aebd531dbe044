import PolicyForge.Arn.Template

namespace PolicyForge.Catalog

/-- A flaw of a catalog. -/
inductive Violation where
  /-- The text is no JSON document, or a known member of it has the wrong form. -/
  | invalidJson
  | unknownFormat
  | missingField (field : String)
  | emptyName
  | unknownAccessLevel (label : String)
  | duplicateAction (name : String)
  | duplicateResourceType (name : String)
  | duplicateConditionKey (key : String)
  | danglingResourceType (name : String)
  | undeclaredConditionKey (key : String)
  | malformedConditionKey (key : String)
  | unknownConditionType (label : String)
  | malformedArn (template : String) (reason : Arn.TemplateError)
  deriving Repr, DecidableEq

/-- The message about a flaw. -/
def Violation.message : Violation → String
  | .invalidJson => "invalid JSON"
  | .unknownFormat => "document matches neither the scraped nor the service reference format"
  | .missingField field => "missing required field `" ++ field ++ "`"
  | .emptyName => "name is empty"
  | .unknownAccessLevel label => "unknown access level `" ++ label ++ "`"
  | .duplicateAction name =>
    "duplicate action `" ++ name ++ "` (action names are case-insensitive)"
  | .duplicateResourceType name => "duplicate resource type `" ++ name ++ "`"
  | .duplicateConditionKey key => "duplicate condition key `" ++ key ++ "`"
  | .danglingResourceType name => "references undeclared resource type `" ++ name ++ "`"
  | .undeclaredConditionKey key => "references undeclared condition key `" ++ key ++ "`"
  | .malformedConditionKey key => "malformed condition key `" ++ key ++ "`"
  | .unknownConditionType label => "unknown condition value type `" ++ label ++ "`"
  | .malformedArn template reason =>
    "malformed ARN template `" ++ template ++ "`: " ++ reason.message

/-- A flaw and the place where it was found: the service, and the entry and field inside it. -/
structure Error where
  service : String
  location : String
  violation : Violation
  deriving Repr, DecidableEq

/-- The message about a flaw and its place. -/
def Error.message (error : Error) : String :=
  error.service ++ ": " ++ error.location ++ ": " ++ error.violation.message

end PolicyForge.Catalog
