import PolicyForge.Proofs.Condition.Placeholder
import PolicyForge.Proofs.Identifier.Arguments
import PolicyForge.Proofs.Service.Calls
import PolicyForge.Proofs.Source.Clauses

namespace PolicyForge.Provider

open Condition (IsPlaceholder KeyTemplate Replaces)
open Identifier (IsName Scope)

/-- The method of a key with a parameter writes its argument for all that follows the text in front
of the parameter, of which only the first character and the letters and digits were looked at.
Whatever the argument, this puts it in the place of a placeholder of the published key just when
what follows is one placeholder and nothing else. -/
theorem argument_replaces_tail {raw : String} {key : KeyTemplate} {name : String}
    (hparse : KeyTemplate.parse? raw = some key) (hparameter : key.parameter? = some name) :
    (∃ tail : String, raw = key.literalPrefix ++ tail ∧
      (tail.toList.head? = some '$' ∨ tail.toList.head? = some '<') ∧
      name = String.ofList (tail.toList.filter Char.isAlphanum) ∧ name ≠ "" ∧
      (IsPlaceholder tail.toList ↔
        ∀ argument, Replaces raw argument (key.literalPrefix ++ argument))) ∧
    ∀ (service : Service) index condition, service.conditionKeys[index]? = some condition →
      condition.key = key → ∀ statement argument comparison,
        service.provider.steps? statement (.condition index argument comparison) =
          some [.addCondition (key.literalPrefix ++ argument) (comparedValues condition comparison)
            (comparison.operator.getD condition.valueType.defaultOperator)] := by
  constructor
  · obtain ⟨tail, hraw, hhead, hname, hnonempty⟩ := KeyTemplate.exists_tail hparse hparameter
    refine ⟨tail, hraw, hhead, hname, hnonempty, ?_⟩
    rw [hraw]
    exact IsPlaceholder.iff_replaces key.literalPrefix tail
  · rintro service index condition hcondition rfl statement argument comparison
    have hfilled := KeyTemplate.filled_eq_literalPrefix hparse argument
    rw [hparameter, Option.isSome_some, if_pos rfl] at hfilled
    rw [steps?_condition hcondition hparse, hfilled]

theorem argument_replaces_tail_angled :
    let key : KeyTemplate :=
      { raw := "s3:ExistingObjectTag/<key>", servicePrefix := "s3", name := "ExistingObjectTag"
        ending := .parameter "key" }
    KeyTemplate.parse? key.raw = some key ∧ key.parameter? = some "key" ∧
      ∀ argument, Replaces key.raw argument (key.literalPrefix ++ argument) := by
  intro key
  have hparse : KeyTemplate.parse? key.raw = some key := by decide +kernel
  have hparameter : key.parameter? = some "key" := rfl
  obtain ⟨⟨tail, hraw, -, -, -, hreplaces⟩, -⟩ := argument_replaces_tail hparse hparameter
  have htail : tail = "<key>" := by
    have hown : key.raw = key.literalPrefix ++ "<key>" := by decide
    exact (String.append_right_inj _).mp (hraw.symm.trans hown)
  have hplaceholder : IsPlaceholder tail.toList := by
    rw [htail]
    exact .angled (show '>' ∉ "key".toList by decide)
  exact ⟨hparse, hparameter, hreplaces.mp hplaceholder⟩

/-- A key with text behind its placeholder. -/
def trailing : KeyTemplate where
  raw := "aws:RequestTag/$\x7bTagKey\x7d/x"
  servicePrefix := "aws"
  name := "RequestTag"
  ending := .parameter "TagKeyx"

/-- A catalog with such a key. -/
def crate : Catalog.Record where
  name := "Crate"
  servicePrefix := "crate"
  conditionKeys := [{ key := trailing.raw }]

/-- The text behind a placeholder is read for the name of the parameter and then dropped: in a
service with such a key, the argument does not take the placeholder's place. -/
theorem trailing_text_dropped :
    KeyTemplate.parse? trailing.raw = some trailing ∧ trailing.parameter? = some "TagKeyx" ∧
      ¬ IsPlaceholder "$\x7bTagKey\x7d/x".toList ∧
      (∃ service condition, Service.ofRecord crate = .ok service ∧
        service.conditionKeys[0]? = some condition ∧ condition.key = trailing ∧
        ∀ statement, service.provider.steps? statement (.condition 0 "v" {}) =
          some [.addCondition "aws:RequestTag/v" [] .stringLike]) ∧
      ¬ Replaces trailing.raw "v" "aws:RequestTag/v" := by
  have hparse : KeyTemplate.parse? trailing.raw = some trailing := by decide +kernel
  have htail : ¬ IsPlaceholder "$\x7bTagKey\x7d/x".toList := by
    intro hplaceholder
    obtain hlast | hlast := hplaceholder.getLast?
    · exact absurd hlast (by decide)
    · exact absurd hlast (by decide)
  refine ⟨hparse, rfl, htail, ?_, ?_⟩
  · have hread : (Service.ofRecord crate).toOption.map
        (fun service => service.conditionKeys.map fun condition =>
          (condition.key, condition.valueType)) = some [(trailing, .string)] := by
      decide +kernel
    obtain ⟨service, hok, hkeys⟩ := Failing.exists_of_toOption_map_eq_some hread
    obtain ⟨condition, hconditions, hmember⟩ := List.map_eq_singleton_iff.mp hkeys
    obtain ⟨hkey, htype⟩ := Prod.mk.inj hmember
    have hcondition : service.conditionKeys[0]? = some condition := by rw [hconditions]; rfl
    refine ⟨service, condition, hok, hcondition, hkey, fun statement => ?_⟩
    rw [steps?_condition hcondition (hkey ▸ hparse), hkey, comparedValues, htype]
    rfl
  · intro hreplaces
    have hlast : Replaces ("aws:RequestTag/" ++ "$\x7bTagKey\x7d/x") (String.singleton 'v')
        ("aws:RequestTag/" ++ String.singleton 'v') := hreplaces
    exact htail (IsPlaceholder.of_replaces (by decide) (by decide) hlast)

/-- The argument of a key's method can be declared next to the other arguments. -/
theorem isName_parameter_of_mem {condition : Service.ConditionKey} {member : ConditionMember}
    (hparameter : member.parameter = condition.key.parameter?.map fun placeholder =>
      ((Scope.ofList Naming.reservedArguments).parameter placeholder).1)
    {ident : String} (hident : ident ∈ member.parameter) :
    IsName ident ∧ ident ∉ Naming.reservedArguments := by
  rw [hparameter] at hident
  obtain ⟨placeholder, -, rfl⟩ := Option.map_eq_some_iff.mp hident
  exact ⟨Scope.isName_parameter _ placeholder, (Scope.parameter_fresh _ placeholder).1⟩

/-- The method of a condition key of a checked service is generated as what a call of it does. Its
body reads as a clause for the text of the key in front of the parameter, with the argument behind
it where there is one, and for the operator that is given or else the plain one of the key's type.
The key has a colon, so the clause is added under the key as it is, and a call of the method makes
the same change. -/
theorem clause_keeps_key {record : Catalog.Record} {service : Service}
    (hchecked : Service.ofRecord record = .ok service) {index : Nat}
    {condition : Service.ConditionKey} (hcondition : service.conditionKeys[index]? = some condition) :
    ∃ member body, service.provider.naming.conditions[index]? = some member ∧
      Source.conditionMethod service service.provider.naming condition member =
        Source.method (Source.conditionSections service service.provider.naming condition)
          member.method (Source.conditionArguments condition member) body ∧
      member.parameter.isSome = condition.key.parameter?.isSome ∧
      (∀ ident ∈ member.parameter, IsName ident ∧ ident ∉ ["self", "value", "operator"]) ∧
      ∀ (argument : String) (comparison : Comparison) (binding : String → Option String),
        (∀ ident ∈ member.parameter, binding ident = some argument) →
        let key := condition.key.literalPrefix ++
          if condition.key.parameter?.isSome then argument else ""
        let values := comparedValues condition comparison
        let operator := comparison.operator.getD
          { kind := condition.valueType.defaultKind, qualifier := none, ifExists := false }
        Source.readText? binding (Source.keyExpression member).toList = some key.toList ∧
        Source.readClause? binding comparison body = some (.clause key values operator) ∧
        ':' ∈ key.toList ∧
        ∀ statement, ∀ call ∈ [Call.clause key values operator, .condition index argument comparison],
          service.provider.steps? statement call = some [.addCondition key values operator] := by
  obtain ⟨member, hmember, hliteral, hparameter, -⟩ :=
    Lists.exists_getElem?_of_forall₂ (Naming.forall₂_conditions service) hcondition
  obtain ⟨_, _, hparse, _⟩ :=
    Service.exists_parse_of_mem_conditionKeys hchecked (List.mem_of_getElem? hcondition)
  have hname : ∀ ident ∈ member.parameter, IsName ident ∧ ident ∉ Naming.reservedArguments :=
    fun _ => isName_parameter_of_mem hparameter
  have hsome : member.parameter.isSome = condition.key.parameter?.isSome := by
    rw [hparameter, Option.isSome_map]
  have hplain : ∀ ident ∈ member.parameter, Source.FormatString.Plain (.argument ident) :=
    fun ident hident => Source.plain_argument (hname ident hident).1.snake
  refine ⟨member, Source.conditionBody condition member, hmember,
    Source.conditionMethod_eq service _ condition member, hsome, ?_, ?_⟩
  · intro ident hident
    obtain ⟨hisName, hfree⟩ := hname ident hident
    exact ⟨hisName, fun hmem => hfree (List.mem_append_left _ hmem)⟩
  · intro argument comparison binding hbinding key values operator
    have hfilled : condition.key.filled argument = key :=
      KeyTemplate.filled_eq_literalPrefix hparse argument
    have hcolon : ':' ∈ key.toList := hfilled ▸ KeyTemplate.colon_mem_filled condition.key argument
    have hkey := Source.readText?_keyExpression hplain hbinding
    have hclause := Source.readClause?_conditionBody hplain hbinding condition comparison
    rw [hliteral, hsome] at hkey hclause
    refine ⟨hkey, hclause, hcolon, ?_⟩
    intro statement call hcall
    obtain rfl | rfl : call = .clause key values operator ∨
        call = .condition index argument comparison := by simpa using hcall
    · rw [steps?, qualifiedKey_of_colon _ hcolon]
    · rw [steps?_condition hcondition hparse, hfilled]
      rfl

/-- A catalog with a key of characters that source gives a meaning, and with a placeholder that is
called like another argument. -/
def pane : Catalog.Record where
  name := "Pane"
  servicePrefix := "pane"
  conditionKeys := [{ key := "pane:\x7b\"\\\u0301\x7d/$\x7bValue\x7d" }]

theorem clause_keeps_key_pane :
    ∃ service condition member body, Service.ofRecord pane = .ok service ∧
      service.conditionKeys[0]? = some condition ∧
      service.provider.naming.conditions[0]? = some member ∧ member.parameter = some "value2" ∧
      Source.conditionMethod service service.provider.naming condition member =
        Source.method (Source.conditionSections service service.provider.naming condition)
          member.method ["self", "value2: &str", "value: impl runtime::IntoConditionValues",
            "operator: Option<runtime::Operator>"] body ∧
      ∀ argument, Source.readClause? (fun _ => some argument) {} body =
        some (.clause ("pane:\x7b\"\\\u0301\x7d/" ++ argument) [] .stringLike) := by
  have hread : (Service.ofRecord pane).toOption.map (fun service =>
      (service.conditionKeys.map fun condition =>
        (condition.key.literalPrefix, condition.key.parameter?, condition.valueType),
        service.provider.naming.conditions.map (·.parameter))) =
      some ([("pane:\x7b\"\\\u0301\x7d/", some "Value", .string)], [some "value2"]) := by
    decide +kernel
  obtain ⟨service, hok, hread⟩ := Failing.exists_of_toOption_map_eq_some hread
  obtain ⟨hkeys, hparameters⟩ := Prod.mk.inj hread
  obtain ⟨condition, hconditions, hkey⟩ := List.map_eq_singleton_iff.mp hkeys
  obtain ⟨member, hmembers, hparameter⟩ := List.map_eq_singleton_iff.mp hparameters
  obtain ⟨hliteral, hown, htype⟩ : condition.key.literalPrefix = "pane:\x7b\"\\\u0301\x7d/" ∧
      condition.key.parameter? = some "Value" ∧ condition.valueType = .string := by
    simpa using hkey
  have hcondition : service.conditionKeys[0]? = some condition := by rw [hconditions]; rfl
  obtain ⟨found, body, hfound, hmethod, -, -, hclause⟩ := clause_keeps_key hok hcondition
  obtain rfl : found = member := by
    rw [hmembers] at hfound
    exact (Option.some.inj hfound).symm
  have harguments : Source.conditionArguments condition found =
      ["self", "value2: &str", "value: impl runtime::IntoConditionValues",
        "operator: Option<runtime::Operator>"] := by
    rw [Source.conditionArguments, hparameter, htype]
    rfl
  refine ⟨service, condition, found, body, hok, hcondition, hfound, hparameter,
    harguments ▸ hmethod, fun argument => ?_⟩
  have hreads := (hclause argument {} (fun _ => some argument) fun _ _ => rfl).2.1
  rwa [hliteral, hown, comparedValues, htype] at hreads

end PolicyForge.Provider
