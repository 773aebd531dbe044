import PolicyForge.Arn.Template
import PolicyForge.Condition.Global
import PolicyForge.Ordered

namespace PolicyForge

/-- Whether a statement grants or denies. -/
inductive Effect where
  | allow
  | deny
  deriving Repr, DecidableEq

namespace Effect

/-- The effect as it is written in a policy. -/
def text : Effect → String
  | allow => "Allow"
  | deny => "Deny"

/-- The effect with exactly the given text. -/
def ofText? (text : String) : Option Effect :=
  [allow, deny].find? (·.text == text)

end Effect

/-- Condition clauses: for every operator its keys, and for every key its values. -/
abbrev Clauses := List (Condition.Operator × List (String × List String))

/-- The clauses with values added under an operator and a key. -/
def Clauses.add (clauses : Clauses) (operator : Condition.Operator) (key : String)
    (values : List String) : Clauses :=
  Ordered.update operator [] (Ordered.update key [] (Ordered.insertAll · values)) clauses

/-- A statement. It applies to the listed actions, or to all others when `notAction` is set, and to
resources likewise. -/
structure Statement where
  sid : Option String := none
  effect : Effect := .allow
  actions : List String := []
  notAction : Bool := false
  resources : List String := []
  notResource : Bool := false
  conditions : Clauses := []
  /-- What the resource methods of a service fill in for omitted arguments. -/
  arnDefaults : Arn.Defaults := {}
  deriving Repr, DecidableEq

namespace Statement

/-- The statement about nothing yet. -/
def empty : Statement := {}

/-- The statement about nothing yet, with an identifier. -/
def withSid (sid : String) : Statement := { sid := some sid }

/-- The statement with an action added. -/
def addAction (statement : Statement) (action : String) : Statement :=
  { statement with actions := Ordered.insert statement.actions action }

/-- The statement with a resource added. -/
def addResource (statement : Statement) (resource : String) : Statement :=
  { statement with resources := Ordered.insert statement.resources resource }

/-- The statement with values added under an operator and a key. Without values the key is added on
its own. -/
def addCondition (statement : Statement) (key : String) (values : List String)
    (operator : Condition.Operator) : Statement :=
  { statement with conditions := statement.conditions.add operator key values }

/-- A change of a statement. -/
inductive Step where
  | addAction (action : String)
  | addResource (resource : String)
  | addCondition (key : String) (values : List String) (operator : Condition.Operator)
  | setEffect (effect : Effect)
  | setSid (sid : Option String)
  | setNotAction (value : Bool)
  | setNotResource (value : Bool)
  | setArnDefaults (defaults : Arn.Defaults)
  deriving Repr, DecidableEq

/-- The statement after a change. -/
def apply (statement : Statement) : Step → Statement
  | .addAction action => statement.addAction action
  | .addResource resource => statement.addResource resource
  | .addCondition key values operator => statement.addCondition key values operator
  | .setEffect effect => { statement with effect }
  | .setSid sid => { statement with sid }
  | .setNotAction value => { statement with notAction := value }
  | .setNotResource value => { statement with notResource := value }
  | .setArnDefaults defaults => { statement with arnDefaults := defaults }

/-- The statement after changes, one after the other. -/
def run (statement : Statement) (steps : List Step) : Statement :=
  steps.foldl apply statement

/-- Whether a change adds an action or resource that the statement does not hold yet. -/
def isNews (statement : Statement) : Step → Bool
  | .addAction action => !statement.actions.contains action
  | .addResource resource => !statement.resources.contains resource
  | _ => false

end Statement

/-- What the method of a shared condition key is given. -/
structure GlobalArguments where
  /-- The key of the tag, for the methods that take one. -/
  tagKey : String := ""
  values : List String := []
  /-- The truth value, for the methods that take one. -/
  truth : Option Bool := none
  operator : Option Condition.Operator := none
  deriving Repr, DecidableEq

/-- The change that the method of a shared condition key makes. -/
def Condition.GlobalKey.step (key : GlobalKey) (given : GlobalArguments) : Statement.Step :=
  match key.form with
  | .values operator => .addCondition key.stem given.values (given.operator.getD operator)
  | .tag =>
    .addCondition (key.stem ++ "/" ++ given.tagKey) given.values
      (given.operator.getD .stringLike)
  | .flag =>
    .addCondition key.stem [(Value.truth (given.truth.getD true)).asText] ⟨.bool, none, false⟩

/-- Whether two lists of clauses hold the same values under the same operators and keys. -/
def Clauses.same (a b : Clauses) : Bool :=
  Ordered.sameEntries (Ordered.sameEntries Ordered.sameElements) a b

/-- Statements are compared without regard to order. -/
def Statement.same (a b : Statement) : Bool :=
  a.sid == b.sid && a.effect == b.effect && Ordered.sameElements a.actions b.actions &&
    a.notAction == b.notAction && Ordered.sameElements a.resources b.resources &&
    a.notResource == b.notResource && a.conditions.same b.conditions &&
    a.arnDefaults == b.arnDefaults

end PolicyForge
