import PolicyForge.Identifier.Scope
import PolicyForge.Identifier.Words

namespace PolicyForge.Identifier

/-- The reserved words of the generated language, those kept for later use included. -/
def keywords : List String :=
  ["as", "async", "await", "break", "const", "continue", "crate", "dyn", "else", "enum",
    "extern", "false", "fn", "for", "if", "impl", "in", "let", "loop", "match", "mod", "move",
    "mut", "pub", "ref", "return", "self", "Self", "static", "struct", "super", "trait", "true",
    "type", "unsafe", "use", "where", "while", "abstract", "become", "box", "do", "final", "gen",
    "macro", "override", "priv", "try", "typeof", "unsized", "virtual", "yield"]

/-- Case matters: `Self` and `self` are both reserved, `If` is not. -/
def isKeyword (ident : String) : Bool :=
  keywords.contains ident

/-- The kind of member a method is derived for. -/
inductive Role where
  | action
  | resource
  | condition
  deriving Repr, DecidableEq

/-- The start of every method name of the role, so that members of different roles never clash. -/
def Role.methodStart : Role → String
  | .action => "to_"
  | .resource => "on_"
  | .condition => "if_"

/-- The role as it is named in messages. -/
def Role.noun : Role → String
  | .action => "action"
  | .resource => "resource"
  | .condition => "condition"

/-- Whether an identifier starts with a digit, as no identifier may. -/
def startsWithDigit (ident : String) : Bool :=
  ident.toList.head?.any Char.isDigit

/-- The type name of a service: its name with the words run together. A name without letters and
digits gives `Service`, and one that starts with a digit has `Service` in front. -/
def typeName (serviceName : String) : String :=
  let name := pascal serviceName
  if name.isEmpty then "Service"
  else if startsWithDigit name then "Service" ++ name
  else name

/-- The module name of a service: its prefix in snake case. An empty one gives `service`, one that
starts with a digit has `service_` in front, and a keyword has an underscore behind. -/
def moduleName (servicePrefix : String) : String :=
  let name := snake servicePrefix
  if name.isEmpty then "service"
  else if startsWithDigit name then "service_" ++ name
  else if isKeyword name then name ++ "_"
  else name

/-- The method a member asks for: the start of its role, then its name in snake case. -/
def methodBase (role : Role) (name : String) : String :=
  let body := snake name
  role.methodStart ++ if body.isEmpty then "unnamed" else body

/-- The web identity providers that have a short name in methods, by the prefix of their keys. -/
def webIdentityProviders : List (String × String) :=
  [("accounts.google.com", "google"),
    ("cognito-identity.amazonaws.com", "cognito"),
    ("www.amazon.com", "amazon"),
    ("graph.facebook.com", "facebook")]

/-- The word a condition key's method carries in front of the key's name: the short name of a web
identity provider, else the prefix of the key when it belongs to another service. -/
def conditionQualifier (servicePrefix keyPrefix : String) : Option String :=
  match webIdentityProviders.lookup keyPrefix with
  | some short => some short
  | none => if keyPrefix == servicePrefix then none else some keyPrefix

/-- The method a condition key asks for. A key that ends in a bare `/` only tests whether any key of
its family is present, which the ending `_exists` says. -/
def conditionBase (servicePrefix keyPrefix keyName : String) (openSuffix : Bool) : String :=
  let combined := match conditionQualifier servicePrefix keyPrefix with
    | some qualifier => qualifier ++ "-" ++ keyName
    | none => keyName
  let base := methodBase .condition combined
  if openSuffix then base ++ "_exists" else base

/-- The argument name a placeholder asks for. -/
def parameterBase (placeholder : String) : String :=
  let name := snake placeholder
  let base :=
    if name.isEmpty then "param"
    else if startsWithDigit name then "p" ++ name
    else name
  if isKeyword base then base ++ "_" else base

/-- Take an argument name for a placeholder. -/
def Scope.parameter (scope : Scope) (placeholder : String) : String × Scope :=
  let (claim, scope) := scope.allocate (parameterBase placeholder)
  (claim.ident, scope)

end PolicyForge.Identifier
