import PolicyForge.Proofs.Ordered
import PolicyForge.Proofs.Service.Provider
import PolicyForge.Proofs.Source.Module
import PolicyForge.Proofs.Source.Signature

namespace PolicyForge.Source

open Arn (Standard)
open Identifier (IsName Scope)

/-- The names of the standard arguments can be written in a signature. -/
theorem isName_of_mem_standard {standard : List Standard} {name : String}
    (hname : name ∈ standard.map (·.argument)) : IsName name := by
  obtain ⟨own, -, rfl⟩ := List.mem_map.mp hname
  cases own with
  | account => exact ⟨by decide, by decide, by decide⟩
  | region => exact ⟨by decide, by decide, by decide⟩
  | partition => exact ⟨by decide, by decide, by decide⟩

/-- The arguments of a resource method in their three groups, each with its type. -/
theorem resourceArguments_eq (member : ResourceMember) :
    resourceArguments member =
      "self" :: (member.parameters.map (·.2)).map (· ++ ": " ++ "&str") ++
        (member.standard.map (·.argument)).map (· ++ ": " ++ "Option<&str>") := by
  have htyped : ∀ name type, name ++ (": " ++ type) = name ++ ": " ++ type :=
    fun _ _ => (String.append_assoc).symm
  rw [List.map_map, List.map_map]
  simp only [Function.comp_def, ← htyped]
  rfl

/-- No argument holds a comma or a bracket that would end it early. -/
theorem listable_resourceArguments {member : ResourceMember}
    (hidents : ∀ ident ∈ member.parameters.map (·.2), IsName ident) :
    ∀ argument ∈ resourceArguments member, Listable argument := by
  have hself : Listable "self" :=
    ⟨by decide, Text.stripped_of_ends rfl rfl rfl rfl, by decide, by decide⟩
  have hreference : Listable "&str" :=
    ⟨by decide, Text.stripped_of_ends rfl rfl rfl rfl, by decide, by decide⟩
  have hoption : Listable "Option<&str>" :=
    ⟨by decide, Text.stripped_of_ends rfl rfl rfl rfl, by decide, by decide⟩
  intro argument hargument
  rw [resourceArguments_eq] at hargument
  obtain hown | hstandard := List.mem_append.mp hargument
  · obtain rfl | hown := List.mem_cons.mp hown
    · exact hself
    · obtain ⟨ident, hident, rfl⟩ := List.mem_map.mp hown
      exact listable_typed (hidents ident hident) hreference
  · obtain ⟨name, hname, rfl⟩ := List.mem_map.mp hstandard
    exact listable_typed (isName_of_mem_standard hname) hoption

theorem map_declaredName_typed {names : List String} (hnames : ∀ name ∈ names, IsName name)
    (type : String) :
    (names.map (· ++ ": " ++ type)).map (fun argument => declaredName argument.toList) = names := by
  rw [List.map_map, List.map_congr_left (g := id), List.map_id]
  intro name hname
  exact declaredName_typed (not_mem_of_isName (hnames name hname) (by decide)) type

/-- The signature of a resource method declares the statement itself, the arguments of the
template's own placeholders, and the standard arguments. -/
theorem declaredNames_resourceSignature {member : ResourceMember}
    (hmethod : '(' ∉ member.method.toList)
    (hidents : ∀ ident ∈ member.parameters.map (·.2), IsName ident) :
    declaredNames (signature member.method (resourceArguments member)) =
      "self" :: member.parameters.map (·.2) ++ member.standard.map (·.argument) := by
  rw [declaredNames_signature hmethod (listable_resourceArguments hidents), resourceArguments_eq,
    List.map_append, List.map_cons, map_declaredName_typed hidents,
    map_declaredName_typed fun _ => isName_of_mem_standard]
  rfl

/-- The name that a line of a body binds, if it binds one: that of a local variable or, among the
arguments of a format string, that of a value. -/
def boundName? (line : String) : Option String := do
  let code := line.toList.dropWhile Text.isBlank
  let code := ("let ".toList.isPrefixOf? code).getD code
  let _ ← " = ".toList.isPrefixOf? (code.dropWhile Identifier.isSnakeChar)
  return String.ofList (code.takeWhile Identifier.isSnakeChar)

/-- The names that the lines of a body bind. -/
def boundNames (body : List String) : List String :=
  body.filterMap boundName?

theorem boundName?_call {line : String} (hcall : "self.on(".toList <+: line.toList) :
    boundName? line = none := by
  obtain ⟨rest, hline⟩ := hcall
  rw [boundName?, ← hline]
  rfl

/-- The line of a format string binds nothing, whatever the literal says. -/
theorem boundName?_literal (text rest : String) :
    boundName? (indentLine (Literal.write text ++ rest)) = none := by
  have hline : (indentLine (Literal.write text ++ rest)).toList =
      "    \"".toList ++ (text.toList.flatMap Literal.escape ++ '"' :: rest.toList) := by
    simp [indentLine, indentation, Literal.write]
  rw [boundName?, hline]
  rfl

theorem boundName?_value (standard : Standard) :
    boundName? (indentLine (standard.argument ++ " = " ++ standard.argument ++
      ".unwrap_or(defaults." ++ standard.argument ++ "()),")) = some standard.argument := by
  cases standard with
  | account => rfl
  | region => rfl
  | partition => rfl

/-- A body binds names only when there are standard arguments to fall back for: two of its own, and
those of these arguments. -/
theorem boundNames_resourceBody {resource : Service.ResourceType} {member : ResourceMember}
    {body : List String} (hbody : resourceBody resource member = .ok body) :
    boundNames body =
      if resource.arn.hasPlaceholders && !member.standard.isEmpty then
        "defaults" :: "arn" :: member.standard.map (·.argument)
      else [] := by
  unfold resourceBody at hbody
  cases hplaceholders : resource.arn.hasPlaceholders with
  | false =>
    rw [hplaceholders] at hbody
    obtain rfl := Except.ok.inj hbody
    have hcall : boundName? ("self.on(" ++ Literal.write resource.arn.raw ++ ")") = none :=
      boundName?_call ⟨_, by rw [String.append_assoc, String.toList_append]⟩
    simp [boundNames, hcall]
  | true =>
    rw [hplaceholders] at hbody
    obtain ⟨format, -, hbody⟩ := Failing.bind_eq_ok.mp hbody
    cases hstandard : member.standard.isEmpty with
    | true =>
      rw [hstandard] at hbody
      obtain rfl := Except.ok.inj hbody
      have hcall : boundName? ("self.on(format!(" ++ Literal.write format ++ "))") = none :=
        boundName?_call ⟨"format!(".toList ++ (Literal.write format ++ "))").toList, by simp⟩
      simp [boundNames, hcall]
    | false =>
      rw [hstandard] at hbody
      obtain rfl := Except.ok.inj hbody
      have hdefaults :
          boundName? "let defaults = self.statement.arn_defaults();" = some "defaults" := rfl
      have harn : boundName? "let arn = format!(" = some "arn" := rfl
      have hends : boundName? ");" = none ∧ boundName? "self.on(arn)" = none := ⟨rfl, rfl⟩
      have hformat := boundName?_literal format ","
      simp [boundNames, enclose, indent, hdefaults, harn, hends, hformat, boundName?_value]

section

variable {resource : Service.ResourceType} {member : ResourceMember}

/-- The lines of a resource method hold its signature and, right behind it, its body. -/
theorem signature_infix_resourceMethod {service : Service} {naming : Naming} {body lines : List String}
    (hbody : resourceBody resource member = .ok body)
    (hlines : resourceMethod service naming resource member = .ok lines) :
    signature member.method (resourceArguments member) ++ indent body <:+: lines := by
  obtain ⟨sections, -, hlines⟩ := Failing.bind_eq_ok.mp hlines
  rw [hbody] at hlines
  obtain rfl := Except.ok.inj hlines
  exact ⟨docSections sections, ["\x7d"], by simp [method]⟩

/-- What a parameter is called can be written in a signature and is not reserved. -/
theorem free_of_mem_parameters {arn : Arn.Template} {ident : String}
    (hident : ident ∈ (Naming.parameters arn).map (·.2)) :
    IsName ident ∧ ident ∉ Naming.reservedArguments := by
  rw [Naming.parameters_idents] at hident
  exact ⟨Naming.isName_of_mem_argumentNames hident, Naming.not_mem_taken_of_mem_argumentNames hident⟩

theorem nodup_parameters (arn : Arn.Template) : ((Naming.parameters arn).map (·.2)).Nodup := by
  rw [Naming.parameters_idents]
  exact Naming.nodup_argumentNames _ _

/-- A standard argument is asked for once, however often its placeholders occur. -/
theorem nodup_standardArguments (arn : Arn.Template) :
    (arn.standardPlaceholders.map (·.argument)).Nodup := by
  have horder : Standard.argumentOrder.Nodup := by decide
  have hstandard : arn.standardPlaceholders.Nodup := horder.filter _
  exact hstandard.map fun _ _ => Provider.argument_injective

/-- The standard arguments are reserved, so no parameter is called like one; the statement itself is
another name. -/
theorem reserved_of_mem_standard {standard : List Standard} {name : String}
    (hname : name ∈ standard.map (·.argument)) :
    name ∈ Naming.reservedArguments ∧ name ≠ "self" := by
  obtain ⟨own, -, rfl⟩ := List.mem_map.mp hname
  cases own with
  | account => decide
  | region => decide
  | partition => decide

/-- Parameters and standard arguments never share a name. -/
theorem disjoint_parameters_standard (arn : Arn.Template) (standard : List Standard) :
    ((Naming.parameters arn).map (·.2)).Disjoint (standard.map (·.argument)) :=
  fun _ hident hstandard =>
    (free_of_mem_parameters hident).2 (reserved_of_mem_standard hstandard).1

/-- No name is declared twice, as those that are not given out for placeholders are reserved. -/
theorem nodup_declared (arn : Arn.Template) :
    ("self" :: (Naming.parameters arn).map (·.2) ++
      arn.standardPlaceholders.map (·.argument)).Nodup := by
  rw [List.cons_append, List.nodup_cons, List.mem_append]
  refine ⟨?_, (nodup_parameters arn).append (nodup_standardArguments arn)
    (disjoint_parameters_standard arn _)⟩
  rintro (hself | hself)
  · exact (free_of_mem_parameters hself).2 (by decide)
  · exact (reserved_of_mem_standard hself).2 rfl

theorem standardPlaceholders_eq_nil {arn : Arn.Template} (hnone : arn.hasPlaceholders = false) :
    arn.standardPlaceholders = [] := by
  rw [List.eq_nil_iff_forall_not_mem]
  intro standard hstandard
  obtain ⟨name, hname, -⟩ := Arn.Template.mem_standardPlaceholders.mp hstandard
  cases hnone.symm.trans (Arn.Template.hasPlaceholders_of_mem hname)

/-- A body binds the standard arguments and two names of its own, or nothing when there are none. -/
theorem boundNames_of_standard (hstandard : member.standard = resource.arn.standardPlaceholders)
    {body : List String} (hbody : resourceBody resource member = .ok body) :
    boundNames body = if member.standard = [] then []
      else "defaults" :: "arn" :: member.standard.map (·.argument) := by
  rw [boundNames_resourceBody hbody]
  cases hpresent : resource.arn.hasPlaceholders with
  | true => simp
  | false => simp [hstandard, standardPlaceholders_eq_nil hpresent]

/-- No parameter is shadowed by a name that a body binds. -/
theorem disjoint_parameters_boundNames
    (hstandard : member.standard = resource.arn.standardPlaceholders)
    {body : List String} (hbody : resourceBody resource member = .ok body) (arn : Arn.Template) :
    ((Naming.parameters arn).map (·.2)).Disjoint (boundNames body) := by
  rw [boundNames_of_standard hstandard hbody]
  split
  · exact List.disjoint_nil_right _
  · rw [List.disjoint_cons_right, List.disjoint_cons_right]
    refine ⟨fun hmem => ?_, fun hmem => ?_, disjoint_parameters_standard arn _⟩
    · exact (free_of_mem_parameters hmem).2 (by decide)
    · exact (free_of_mem_parameters hmem).2 (by decide)

end

/-- All names but these four are those of custom placeholders. -/
theorem ofName?_isNone_iff (name : String) :
    (Standard.ofName? name).isNone = true ↔
      name ∉ ["Partition", "Region", "Account", "AccountId"] := by
  simp only [Standard.ofName?, beq_iff_eq, Bool.or_eq_true]
  split_ifs <;> simp_all

/-- The arguments that a resource method has for the placeholders of its template are named one
after the other, one for each placeholder that is not standard. The names are usable, pairwise
different and none of the reserved ones. So the signature declares every name once, and nothing that
the body binds takes the place of an argument. -/
theorem argument_names_apart {service : Service} {index : Nat} {resource : Service.ResourceType}
    (hresource : service.resourceTypes[index]? = some resource) :
    ∃ member body, (Naming.ofService service).resources[index]? = some member ∧
      resourceBody resource member = .ok body ∧
      (∀ lines, resourceMethod service (Naming.ofService service) resource member = .ok lines →
        signature member.method (resourceArguments member) ++ indent body <:+: lines) ∧
      let placeholders := member.parameters.map (·.1)
      let idents := member.parameters.map (·.2)
      let standard := member.standard.map (·.argument)
      let declared := declaredNames (signature member.method (resourceArguments member))
      Ordered.FirstOccurrences (· ∉ ["Partition", "Region", "Account", "AccountId"])
        resource.arn.placeholders placeholders ∧
      idents = Naming.argumentNames (Scope.ofList Naming.reservedArguments) placeholders ∧
      idents.Nodup ∧
      (∀ ident ∈ idents, IsName ident ∧ ident ∉ ["self", "value", "operator", "account", "region",
        "partition", "defaults", "arn"]) ∧
      declared = "self" :: idents ++ standard ∧ declared.Nodup ∧
      boundNames body = (if member.standard = [] then [] else "defaults" :: "arn" :: standard) ∧
      idents.Disjoint (boundNames body) := by
  obtain ⟨member, hmember, hparameters, hstandard, hanswers⟩ :=
    Lists.exists_getElem?_of_forall₂ (Naming.forall₂_resources service) hresource
  obtain ⟨body, hbody⟩ := exists_resourceBody_eq_ok hparameters
  have hmethod : '(' ∉ member.method.toList := by
    have hname := hanswers.isMethodName (Naming.isMethodName_methodBase .resource resource.name)
    intro hmem
    exact absurd (Identifier.isSnake_iff.mp hname.snake _ hmem) (by decide)
  have hdeclared : declaredNames (signature member.method (resourceArguments member)) =
      "self" :: member.parameters.map (·.2) ++ member.standard.map (·.argument) := by
    apply declaredNames_resourceSignature hmethod
    rw [hparameters]
    exact fun _ hident => (free_of_mem_parameters hident).1
  have hplaceholders := Naming.parameters_placeholders resource.arn
  refine ⟨member, body, hmember, hbody, fun _ => signature_infix_resourceMethod hbody, ?_, ?_, ?_, ?_,
    hdeclared, ?_, boundNames_of_standard hstandard hbody, ?_⟩
  · rw [hparameters, hplaceholders]
    exact Ordered.firstOccurrences_eraseDups ofName?_isNone_iff _
  · rw [hparameters, hplaceholders, Naming.parameters_idents]
  · rw [hparameters]
    exact nodup_parameters resource.arn
  · rw [hparameters]
    exact fun _ hident => free_of_mem_parameters hident
  · rw [hdeclared, hparameters, hstandard]
    exact nodup_declared resource.arn
  · rw [hparameters]
    exact disjoint_parameters_boundNames hstandard hbody resource.arn

/-- A resource type with placeholders that no argument can be named after as they are: keywords,
reserved names, a digit in front, nothing but a dash, and names that come down to one. -/
def gate : Service.ResourceType where
  name := "gate"
  url := ""
  arn :=
    { raw := "arn:$\x7bPartition\x7d:$\x7bSelf\x7d$\x7bself\x7d$\x7b3d\x7d$\x7b-\x7d$\x7bSelf\x7d" ++
        "$\x7bArn\x7d$\x7bmod\x7d$\x7bMod-\x7d"
      segments :=
        [.literal "arn:", .placeholder "Partition", .literal ":", .placeholder "Self",
          .placeholder "self", .placeholder "3d", .placeholder "-", .placeholder "Self",
          .placeholder "Arn", .placeholder "mod", .placeholder "Mod-"] }
  conditionKeys := []

/-- A service with this resource type. -/
def gated : Service where
  name := "Gated"
  servicePrefix := "gated"
  url := ""
  actions := []
  resourceTypes := [gate]
  conditionKeys := []

theorem argument_names_apart_gate :
    Arn.Template.parse gate.arn.raw = .ok gate.arn ∧ gated.resourceTypes[0]? = some gate ∧
      ∃ member body, (Naming.ofService gated).resources[0]? = some member ∧
        resourceBody gate member = .ok body ∧
        member.parameters = [("Self", "self_"), ("self", "self_2"), ("3d", "p3d"), ("-", "param"),
          ("Arn", "arn2"), ("mod", "mod_"), ("Mod-", "mod_2")] ∧
        declaredNames (signature member.method (resourceArguments member)) =
          ["self", "self_", "self_2", "p3d", "param", "arn2", "mod_", "mod_2", "partition"] ∧
        boundNames body = ["defaults", "arn", "partition"] := by
  have hresource : gated.resourceTypes[0]? = some gate := rfl
  obtain ⟨member, body, hmember, hbody, -, -, -, -, -, hdeclared, -, hbound, -⟩ :=
    argument_names_apart hresource
  have hknown : (Naming.ofService gated).resources[0]?.map
      (fun own => (own.parameters, own.standard)) =
      some ([("Self", "self_"), ("self", "self_2"), ("3d", "p3d"), ("-", "param"), ("Arn", "arn2"),
        ("mod", "mod_"), ("Mod-", "mod_2")], [.partition]) := by
    decide +kernel
  rw [hmember] at hknown
  obtain ⟨hparameters, hstandard⟩ := Prod.mk.inj (Option.some.inj hknown)
  refine ⟨by decide +kernel, hresource, member, body, hmember, hbody, hparameters, ?_, ?_⟩
  · rw [hdeclared, hparameters, hstandard]
    rfl
  · rw [hbound, hstandard]
    rfl

end PolicyForge.Source
