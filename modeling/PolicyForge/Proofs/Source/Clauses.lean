import PolicyForge.Proofs.Condition.Operator
import PolicyForge.Proofs.Source.FormatString
import PolicyForge.Proofs.Source.Literal
import PolicyForge.Service.Provider

namespace PolicyForge.Source

open Condition (Operator OperatorKind Value ValueType)
open Provider (Call Comparison comparedValues)

/-- The expression of the values that the method of a key compares with. -/
def valuesExpression (type : ValueType) : String :=
  if type == .bool then "value.unwrap_or(true)" else "value"

/-- The expression of an operator in front of its kind. -/
def operatorOpening : String := "operator.unwrap_or(runtime::Operator::new(runtime::OperatorKind::"

/-- The expression of an operator: the given one, or else the plain one of a kind. -/
def operatorExpression (kind : OperatorKind) : String :=
  operatorOpening ++ kind.text ++ "))"

/-- What the method of a condition key does: add a clause. -/
def conditionBody (condition : Service.ConditionKey) (member : ConditionMember) : List String :=
  enclose "self.r#if("
    ([keyExpression member, valuesExpression condition.valueType,
      operatorExpression condition.valueType.defaultKind].map (· ++ ","))
    ")"

theorem conditionMethod_eq (service : Service) (naming : Naming) (condition : Service.ConditionKey)
    (member : ConditionMember) :
    conditionMethod service naming condition member =
      method (conditionSections service naming condition) member.method
        (conditionArguments condition member) (conditionBody condition member) := by
  have hvalues : (if condition.valueType == .bool then "value.unwrap_or(true)," else "value,") =
      valuesExpression condition.valueType ++ "," := by
    unfold valuesExpression
    split
    · rfl
    · rfl
  have hoperator : ∀ front kind : String, front ++ kind ++ "))," = front ++ kind ++ "))" ++ "," := by
    intro front kind
    apply String.toList_injective
    simp
  rw [conditionMethod, hvalues, hoperator]
  rfl

/-- What stands between an opening and a closing text. -/
def between? (opening closing : String) (source : List Char) : Option (List Char) :=
  (source.dropPrefix? opening.toList).bind (·.dropSuffix? closing.toList)

/-- The text of a source that is one literal. -/
def readLiteral? (source : List Char) : Option (List Char) :=
  match Literal.read? source with
  | some (text, []) => some text
  | _ => none

/-- The text that an expression stands for: that of a literal, or that of a format string when the
names in it have the values of `binding`. -/
def readText? (binding : String → Option String) (source : List Char) : Option (List Char) :=
  match between? "format!(" ")" source with
  | some format => (readLiteral? format).bind (FormatString.evaluate? binding)
  | none => readLiteral? source

/-- The values that an expression stands for. -/
def readValues? (comparison : Comparison) (source : List Char) : Option (List String) :=
  if source = "value".toList then some comparison.values
  else if source = "value.unwrap_or(true)".toList then
    some [(Value.truth (comparison.truth.getD true)).asText]
  else none

/-- The operator that an expression stands for: the given one, or else the plain one of the named
kind. -/
def readOperator? (given : Option Operator) (source : List Char) :
    Option Operator := do
  let kind ← between? operatorOpening "))" source
  let kind ← OperatorKind.ofText? (String.ofList kind)
  return given.getD { kind, qualifier := none, ifExists := false }

/-- The argument of a call that stands on a line of its own. -/
def readArgument? (line : String) : Option (List Char) :=
  between? indentation "," line.toList

/-- The clause that a body adds. -/
def readClause? (binding : String → Option String) (comparison : Comparison) :
    List String → Option Call
  | ["self.r#if(", key, values, operator, ")"] => do
    let key ← (readArgument? key).bind (readText? binding)
    let values ← (readArgument? values).bind (readValues? comparison)
    let operator ← (readArgument? operator).bind (readOperator? comparison.operator)
    return .clause (String.ofList key) values operator
  | _ => none

theorem between?_append (opening inner closing : String) :
    between? opening closing (opening ++ inner ++ closing).toList = some inner.toList := by
  rw [between?, Option.bind_eq_some_iff]
  simp [List.dropPrefix?_eq_some_iff, List.dropSuffix?_eq_some_iff]

/-- A written literal is read back as its text, with nothing behind it. -/
theorem readLiteral?_write (text : String) :
    readLiteral? (Literal.write text).toList = some text.toList := by
  have hread := Literal.read?_write text []
  rw [List.append_nil] at hread
  rw [readLiteral?, hread]

theorem readText?_write (binding : String → Option String) (text : String) :
    readText? binding (Literal.write text).toList = some text.toList := by
  have hliteral : between? "format!(" ")" (Literal.write text).toList = none := by
    rw [Literal.toList_write]
    rfl
  rw [readText?, hliteral]
  exact readLiteral?_write text

/-- A format string in place of a text is evaluated with the arguments. -/
theorem readText?_format (binding : String → Option String) (format : String) :
    readText? binding ("format!(" ++ Literal.write format ++ ")").toList =
      FormatString.evaluate? binding format.toList := by
  rw [readText?, between?_append]
  dsimp only
  rw [readLiteral?_write, Option.bind_some]

theorem readArgument?_indentLine (expression : String) :
    readArgument? (indentLine (expression ++ ",")) = some expression.toList := by
  have hnonempty : ¬ (expression ++ ",").isEmpty = true := by simp
  rw [readArgument?, indentLine, if_neg hnonempty, ← String.append_assoc]
  exact between?_append indentation expression ","

/-- The expression for the values, by value type, comes to the values that are compared. -/
theorem readValues?_valuesExpression (condition : Service.ConditionKey) (comparison : Comparison) :
    readValues? comparison (valuesExpression condition.valueType).toList =
      some (comparedValues condition comparison) := by
  unfold comparedValues valuesExpression
  split
  · rfl
  · rfl

/-- The expression for the operator comes to the given one, or else to the default of the value
type. -/
theorem readOperator?_operatorExpression (given : Option Operator) (kind : OperatorKind) :
    readOperator? given (operatorExpression kind).toList =
      some (given.getD ⟨kind, none, false⟩) := by
  rw [readOperator?, operatorExpression, between?_append]
  simp only [Option.bind_eq_bind, Option.bind_some, String.ofList_toList,
    OperatorKind.ofText?_text]
  rfl

section

variable {member : ConditionMember} {binding : String → Option String} {argument : String}
  (hplain : ∀ ident ∈ member.parameter, FormatString.Plain (.argument ident))
  (hbinding : ∀ ident ∈ member.parameter, binding ident = some argument)

include hplain hbinding

/-- The expression of a key stands for its text, with the argument behind it when it has one. -/
theorem readText?_keyExpression :
    readText? binding (keyExpression member).toList =
      some (member.literal ++ if member.parameter.isSome then argument else "").toList := by
  cases hparameter : member.parameter with
  | none =>
    rw [keyExpression, hparameter]
    simpa using readText?_write binding member.literal
  | some ident =>
    have hplain := hplain ident hparameter
    rw [keyExpression, hparameter]
    dsimp only
    rw [readText?_format, FormatString.evaluate?_write]
    · simp [FormatString.value?, hbinding ident hparameter]
    · simpa [FormatString.Plain] using hplain

/-- A body adds the clause of its key, the values that are compared, and the operator that is given
or else the plain one of the key's type. -/
theorem readClause?_conditionBody (condition : Service.ConditionKey) (comparison : Comparison) :
    readClause? binding comparison (conditionBody condition member) =
      some (.clause (member.literal ++ if member.parameter.isSome then argument else "")
        (comparedValues condition comparison)
        (comparison.operator.getD ⟨condition.valueType.defaultKind, none, false⟩)) := by
  have hlines : ∀ key values operator : String,
      enclose "self.r#if(" ([key, values, operator].map (· ++ ",")) ")" =
        ["self.r#if(", indentLine (key ++ ","), indentLine (values ++ ","),
          indentLine (operator ++ ","), ")"] :=
    fun _ _ _ => rfl
  rw [conditionBody, hlines, readClause?]
  simp only [readArgument?_indentLine, Option.bind_some, readText?_keyExpression hplain hbinding,
    readValues?_valuesExpression, readOperator?_operatorExpression, Option.bind_eq_bind,
    String.ofList_toList]
  rfl

end

end PolicyForge.Source
