import PolicyForge.Proofs.Source.Clauses
import PolicyForge.Proofs.Source.Methods

namespace PolicyForge.Source

open Arn (Defaults Standard)
open Provider (Call Location)

/-- The optional argument of the given name. -/
def optionalNamed? (location : Location) : String → Option (Option String)
  | "account" => some location.account
  | "region" => some location.region
  | "partition" => some location.partition
  | _ => none

/-- The default of the given name. -/
def defaultNamed? (defaults : Defaults) : String → Option String
  | "account" => some defaults.account
  | "region" => some defaults.region
  | "partition" => some defaults.partition
  | _ => none

/-- The name that an argument of a format string gives, and its value: an optional argument of the
method, or else one of the defaults. -/
def readNamed? (location : Location) (defaults : Defaults) (source : List Char) :
    Option (String × String) := do
  let (name, source) ← Text.cutAt ' ' source
  let (optional, source) ← (between? "= " "())" source).bind (Text.cutAt '.')
  let default ← source.dropPrefix? "unwrap_or(defaults.".toList
  let given ← optionalNamed? location (String.ofList optional)
  let default ← defaultNamed? defaults (String.ofList default)
  return (String.ofList name, given.getD default)

/-- The lines of a body behind the arguments of its format string: there the string is closed and
what it comes to is added as a resource. -/
def lastLines : List String := [");", "self.on(arn)"]

/-- The change that the body of a resource method makes. The names in a format string are those of
its own arguments, and those of the method's arguments that are texts. -/
def readAddition? (texts : String → Option String) (location : Location) (defaults : Defaults) :
    List String → Option Call
  | [line] => do
    let text ← (between? "self.on(" ")" line.toList).bind (readText? texts)
    return .plain (.addResource (String.ofList text))
  | "let defaults = self.statement.arn_defaults();" :: "let arn = format!(" :: format :: lines => do
    let format ← (readArgument? format).bind readLiteral?
    let named ← lines.dropSuffix? lastLines
    let named ← named.mapM fun line => (readArgument? line).bind (readNamed? location defaults)
    let text ← FormatString.evaluate? (fun name => (named.lookup name).or (texts name)) format
    return .plain (.addResource (String.ofList text))
  | _ => none

section

variable (texts : String → Option String) (location : Location) (defaults : Defaults)

/-- The line of a standard argument gives its name the value that stands for the placeholder. -/
theorem readNamed?_standard (standard : Standard) :
    (readArgument? (indentLine (standard.argument ++ " = " ++ standard.argument ++
      ".unwrap_or(defaults." ++ standard.argument ++ "()),"))).bind
        (readNamed? location defaults) =
      some (standard.argument, location.value defaults standard) := by
  cases standard with
  | account => rfl
  | region => rfl
  | partition => rfl

theorem readAddition?_call (expression : String) :
    readAddition? texts location defaults ["self.on(" ++ expression ++ ")"] =
      (readText? texts expression.toList).map
        fun text => .plain (.addResource (String.ofList text)) := by
  rw [readAddition?, between?_append, Option.bind_some, Option.map_eq_bind]
  rfl

/-- The defaults are bound first and each standard argument is read with its own, so a format string
is filled by what the call was given or the defaults in force. -/
theorem readAddition?_named (format : String) (standard : List Standard) :
    readAddition? texts location defaults
        (["let defaults = self.statement.arn_defaults();"] ++
          enclose "let arn = format!("
            ((Literal.write format ++ ",") :: standard.map fun own =>
              own.argument ++ " = " ++ own.argument ++ ".unwrap_or(defaults." ++ own.argument ++
                "()),")
            ");" ++
          ["self.on(arn)"]) =
      (FormatString.evaluate? (fun name =>
        ((standard.map fun own => (own.argument, location.value defaults own)).lookup name).or
          (texts name)) format.toList).map
        fun text => .plain (.addResource (String.ofList text)) := by
  have hlast : ∀ lines : List String, (lines ++ lastLines).dropSuffix? lastLines = some lines := by
    intro lines
    exact List.dropSuffix?_eq_some_iff.mpr ⟨lastLines, rfl, BEq.rfl⟩
  have hnamed : (indent (standard.map fun own => own.argument ++ " = " ++ own.argument ++
      ".unwrap_or(defaults." ++ own.argument ++ "()),")).mapM
        (fun line => (readArgument? line).bind (readNamed? location defaults)) =
      some (standard.map fun own => (own.argument, location.value defaults own)) := by
    rw [indent, List.map_map, List.mapM_map]
    refine Failing.mapM_eq_pure_map fun own _ => ?_
    rw [Function.comp_apply, Function.comp_apply, readNamed?_standard]
    rfl
  have hlines : ∀ lines : List String,
      ["let defaults = self.statement.arn_defaults();"] ++
        enclose "let arn = format!(" ((Literal.write format ++ ",") :: lines) ");" ++
        ["self.on(arn)"] =
      "let defaults = self.statement.arn_defaults();" :: "let arn = format!(" ::
        indentLine (Literal.write format ++ ",") :: (indent lines ++ lastLines) := by
    intro lines
    simp [enclose, indent, lastLines]
  rw [hlines, readAddition?, readArgument?_indentLine, hlast]
  simp only [Option.bind_eq_bind, Option.bind_some, readLiteral?_write, hnamed]
  rw [Option.map_eq_bind]
  rfl

/-- The body of a resource method adds the text that the method holds: as it is when its template
has no placeholder, else read with the values of its arguments, in which an optional argument that
is left out has the default of its name. -/
theorem readAddition?_resourceBody {resource : Service.ResourceType} {member : ResourceMember}
    {text : String} {body : List String} (htext : accessorText resource member = .ok text)
    (hbody : resourceBody resource member = .ok body) :
    readAddition? texts location defaults body =
      (if resource.arn.hasPlaceholders then
        FormatString.evaluate? (fun name =>
          ((member.standard.map fun own => (own.argument, location.value defaults own)).lookup
            name).or (texts name)) text.toList
      else some text.toList).map fun text => .plain (.addResource (String.ofList text)) := by
  unfold resourceBody at hbody
  cases hplaceholders : resource.arn.hasPlaceholders with
  | false =>
    rw [accessorText_of_not_hasPlaceholders hplaceholders] at htext
    cases htext
    rw [hplaceholders] at hbody
    cases hbody
    rw [readAddition?_call, readText?_write]
    rfl
  | true =>
    rw [accessorText_of_hasPlaceholders hplaceholders] at htext
    simp only [hplaceholders, htext] at hbody
    cases hstandard : member.standard with
    | nil =>
      have hcall : "self.on(format!(" ++ Literal.write text ++ "))" =
          "self.on(" ++ ("format!(" ++ Literal.write text ++ ")") ++ ")" := by
        apply String.toList_injective
        simp
      simp only [hstandard, List.isEmpty_nil] at hbody
      cases hbody
      rw [hcall, readAddition?_call, readText?_format]
      rfl
    | cons own others =>
      simp only [hstandard] at hbody
      cases hbody
      rw [if_pos rfl]
      exact readAddition?_named texts location defaults text (own :: others)

end

end PolicyForge.Source
