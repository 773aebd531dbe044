import PolicyForge.Proofs.Arn.Template
import PolicyForge.Proofs.Failing
import PolicyForge.Proofs.Lists
import PolicyForge.Proofs.Service.Naming
import PolicyForge.Proofs.Source.FormatString
import PolicyForge.Source.Methods

namespace PolicyForge.Source

open Arn (Segment Standard)

/-- The argument that a placeholder of a template is filled from. -/
def argumentIdent (arn : Arn.Template) (name : String) : String :=
  match Standard.ofName? name with
  | some standard => standard.argument
  | none => ((Naming.parameters arn).lookup name).getD name

/-- The part of a format string for a segment of a template. -/
def segmentPart (arn : Arn.Template) : Segment → FormatPart
  | .literal text => .text text
  | .placeholder name => .argument (argumentIdent arn name)

/-- A custom placeholder has its argument: there are as many names as placeholders. -/
theorem exists_lookup_parameters {arn : Arn.Template} {name : String}
    (hname : .placeholder name ∈ arn.segments) (hcustom : Standard.ofName? name = none) :
    ∃ ident ∈ Naming.argumentNames (Identifier.Scope.ofList Naming.reservedArguments)
      arn.customPlaceholders, (Naming.parameters arn).lookup name = some ident :=
  Lists.exists_lookup_zip (Arn.Template.mem_customPlaceholders.mpr ⟨hname, hcustom⟩)
    (Nat.le_of_eq (Naming.length_argumentNames _ _).symm)

/-- An argument is called by an identifier in lower case, the standard ones included. -/
theorem isSnake_argumentIdent {arn : Arn.Template} {name : String}
    (hname : .placeholder name ∈ arn.segments) : Identifier.IsSnake (argumentIdent arn name) := by
  unfold argumentIdent
  split
  · rename_i standard _
    cases standard <;> decide
  · rename_i hcustom
    obtain ⟨ident, hident, hlookup⟩ := exists_lookup_parameters hname hcustom
    rw [hlookup]
    exact (Naming.isName_of_mem_argumentNames hident).snake

theorem plain_argument {ident : String} (hsnake : Identifier.IsSnake ident) :
    FormatString.Plain (.argument ident) := by
  have hchars := Identifier.isSnake_iff.mp hsnake
  exact ⟨fun hopen => absurd (hchars _ hopen) (by decide),
    fun hclose => absurd (hchars _ hclose) (by decide)⟩

/-- No part of a template's format string is mistaken for another. -/
theorem plain_segmentPart {arn : Arn.Template} {segment : Segment}
    (hsegment : segment ∈ arn.segments) : FormatString.Plain (segmentPart arn segment) := by
  cases segment with
  | literal text => trivial
  | placeholder name => exact plain_argument (isSnake_argumentIdent hsegment)

theorem plain_segmentParts (arn : Arn.Template) :
    ∀ part ∈ arn.segments.map (segmentPart arn), FormatString.Plain part := by
  intro part hpart
  obtain ⟨segment, hsegment, rfl⟩ := List.mem_map.mp hpart
  exact plain_segmentPart hsegment

/-- The argument of a placeholder is always found, so no part fails. -/
theorem formatPart_eq_ok {resource : Service.ResourceType} {member : ResourceMember}
    (hparameters : member.parameters = Naming.parameters resource.arn) {segment : Segment}
    (hsegment : segment ∈ resource.arn.segments) :
    formatPart resource member segment = .ok (segmentPart resource.arn segment) := by
  cases segment with
  | literal text => rfl
  | placeholder name =>
    cases hname : Standard.ofName? name with
    | some standard => simp [formatPart, segmentPart, argumentIdent, hname]
    | none =>
      obtain ⟨ident, _, hlookup⟩ := exists_lookup_parameters hsegment hname
      simp [formatPart, segmentPart, argumentIdent, hname, hparameters, hlookup]

/-- The format string of a template is written without fail, part by part. -/
theorem arnFormat_eq_ok {resource : Service.ResourceType} {member : ResourceMember}
    (hparameters : member.parameters = Naming.parameters resource.arn) :
    arnFormat resource member =
      .ok (FormatString.write (resource.arn.segments.map (segmentPart resource.arn))) := by
  have hparts : resource.arn.segments.mapM (formatPart resource member) =
      .ok (resource.arn.segments.map (segmentPart resource.arn)) :=
    Failing.mapM_eq_pure_map fun _ => formatPart_eq_ok hparameters
  rw [arnFormat, hparts]
  rfl

/-- The text that the method of a resource type passes on: the template itself when there is nothing
to fill in, else its format string. -/
def accessorText (resource : Service.ResourceType) (member : ResourceMember) :
    Except Failure String :=
  if resource.arn.hasPlaceholders then arnFormat resource member else .ok resource.arn.raw

theorem accessorText_of_hasPlaceholders {resource : Service.ResourceType}
    (hplaceholders : resource.arn.hasPlaceholders = true) (member : ResourceMember) :
    accessorText resource member = arnFormat resource member :=
  if_pos hplaceholders

theorem accessorText_of_not_hasPlaceholders {resource : Service.ResourceType}
    (hplaceholders : resource.arn.hasPlaceholders = false) (member : ResourceMember) :
    accessorText resource member = .ok resource.arn.raw :=
  if_neg (Bool.eq_false_iff.mp hplaceholders)

/-- A template with placeholders has its format string for a text. -/
theorem accessorText_eq_ok {resource : Service.ResourceType} {member : ResourceMember}
    (hplaceholders : resource.arn.hasPlaceholders = true)
    (hparameters : member.parameters = Naming.parameters resource.arn) :
    accessorText resource member =
      .ok (FormatString.write (resource.arn.segments.map (segmentPart resource.arn))) :=
  (accessorText_of_hasPlaceholders hplaceholders member).trans (arnFormat_eq_ok hparameters)

private theorem exists_indentLine (line : String) : ∃ before, indentLine line = before ++ line := by
  unfold indentLine
  split
  · exact ⟨"", (String.empty_append).symm⟩
  · exact ⟨indentation, rfl⟩

/-- The method of a resource type holds its text as a literal. -/
theorem exists_literal_of_accessorText {resource : Service.ResourceType} {member : ResourceMember}
    {text : String} (htext : accessorText resource member = .ok text) :
    ∃ lines, resourceBody resource member = .ok lines ∧
      ∃ line ∈ lines, ∃ before after, line = before ++ Literal.write text ++ after := by
  unfold accessorText at htext
  unfold resourceBody
  split at htext
  · rename_i hplaceholders
    simp only [hplaceholders, htext]
    cases hstandard : member.standard.isEmpty with
    | true =>
      exact ⟨_, rfl, _, List.mem_singleton_self _, "self.on(format!(", "))", rfl⟩
    | false =>
      obtain ⟨before, hindent⟩ := exists_indentLine (Literal.write text ++ ",")
      refine ⟨_, rfl, indentLine (Literal.write text ++ ","), ?_, before, ",", ?_⟩
      · simp [enclose, indent]
      · rw [hindent, String.append_assoc]
  · rename_i hplain
    cases htext
    simp only [hplain]
    exact ⟨_, rfl, _, List.mem_singleton_self _, "self.on(", ")", rfl⟩

end PolicyForge.Source
