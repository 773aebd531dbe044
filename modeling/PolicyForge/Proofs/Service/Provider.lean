import PolicyForge.Proofs.Service.Validation
import PolicyForge.Proofs.Source.Additions

namespace PolicyForge.Provider

open Arn (Segment Standard)
open Source (argumentIdent segmentPart)
open Source.FormatString (evaluate? value?)

section

variable {resource : Service.ResourceType} {member : ResourceMember} {arguments : List String}
  (location : Location) (defaults : Arn.Defaults)

/-- What a placeholder of a template stands for: the argument given for it, or for a standard
placeholder that argument or else the default. -/
def placeholderValue? (arn : Arn.Template) (arguments : List String) (location : Location)
    (defaults : Arn.Defaults) (name : String) : Option String :=
  match Standard.ofName? name with
  | some standard => some (location.value defaults standard)
  | none => (arn.customPlaceholders.zip arguments).lookup name

/-- No two standard placeholders share an argument. -/
theorem argument_injective {a b : Standard} (h : a.argument = b.argument) : a = b := by
  cases a <;> cases b <;> first | rfl | exact absurd h (by decide)

/-- The custom arguments are chosen apart from the standard ones. -/
theorem argument_not_mem_argumentNames (standard : Standard) (placeholders : List String) :
    standard.argument ∉
      Naming.argumentNames (Identifier.Scope.ofList Naming.reservedArguments) placeholders := by
  intro hmem
  apply Naming.not_mem_taken_of_mem_argumentNames hmem
  cases standard <;> decide

/-- The names of the template's own arguments and those of the standard ones never meet, so it does
not matter which are looked up first. -/
theorem resourceBinding_eq_or (hparameters : member.parameters = Naming.parameters resource.arn)
    (ident : String) :
    resourceBinding member arguments location defaults ident =
      ((member.standard.map fun own => (own.argument, location.value defaults own)).lookup ident).or
        (((member.parameters.map (·.2)).zip arguments).lookup ident) := by
  rw [Lists.lookup_map, resourceBinding]
  cases hlookup : ((member.parameters.map (·.2)).zip arguments).lookup ident with
  | none => rw [Option.or_none]
  | some value =>
    have hident := (Lists.mem_of_lookup_zip hlookup).1
    rw [hparameters, Naming.parameters_idents] at hident
    have hnone : member.standard.find? (·.argument == ident) = none := by
      rw [List.find?_eq_none]
      intro standard _ hargument
      rw [beq_iff_eq] at hargument
      exact argument_not_mem_argumentNames standard _ (hargument ▸ hident)
    rw [hnone]
    rfl

/-- A standard argument is bound to the value that the defaults and the location give. -/
theorem resourceBinding_argument (hparameters : member.parameters = Naming.parameters resource.arn)
    {standard : Standard} (hmem : standard ∈ member.standard) :
    resourceBinding member arguments location defaults standard.argument =
      some (location.value defaults standard) := by
  have hfind : member.standard.find? (·.argument == standard.argument) = some standard := by
    cases hfound : member.standard.find? (·.argument == standard.argument) with
    | none =>
      have hnone := List.find?_eq_none.mp hfound standard hmem
      simp at hnone
    | some found =>
      have hargument : found.argument = standard.argument := by
        simpa using List.find?_some hfound
      rw [argument_injective hargument]
  rw [resourceBinding_eq_or location defaults hparameters, Lists.lookup_map, hfind]
  rfl

/-- The argument of a placeholder has the value that the placeholder stands for. -/
theorem resourceBinding_argumentIdent
    (hparameters : member.parameters = Naming.parameters resource.arn)
    (hstandard : member.standard = resource.arn.standardPlaceholders)
    (hlength : arguments.length = member.parameters.length) {name : String}
    (hname : .placeholder name ∈ resource.arn.segments) :
    ∃ value, placeholderValue? resource.arn arguments location defaults name = some value ∧
      resourceBinding member arguments location defaults (argumentIdent resource.arn name) =
        some value := by
  unfold placeholderValue? argumentIdent
  cases hkind : Standard.ofName? name with
  | some standard =>
    have hmem : standard ∈ member.standard := by
      rw [hstandard, Arn.Template.mem_standardPlaceholders]
      exact ⟨name, hname, hkind⟩
    exact ⟨_, rfl, resourceBinding_argument location defaults hparameters hmem⟩
  | none =>
    have hcustom := Arn.Template.mem_customPlaceholders.mpr ⟨hname, hkind⟩
    have hnames := Naming.parameters_placeholders resource.arn
    have hidents := Naming.parameters_idents resource.arn
    obtain ⟨ident, hident, hlookup⟩ := Source.exists_lookup_parameters hname hkind
    have hcount : resource.arn.customPlaceholders.length = arguments.length := by
      rw [hlength, hparameters, ← hnames, List.length_map]
    obtain ⟨value, _, hvalue⟩ := Lists.exists_lookup_zip hcustom (Nat.le_of_eq hcount)
    refine ⟨value, hvalue, ?_⟩
    have hrenamed := Lists.lookup_zip_renamed arguments (Naming.nodup_argumentNames _ _) hlookup
    rw [hlookup, Option.getD_some, resourceBinding, hparameters, hidents, hrenamed, hvalue]

/-- Each segment of a resource is evaluated to its fill: a literal to itself, a placeholder to what
it is bound to. -/
theorem value?_segmentPart (hparameters : member.parameters = Naming.parameters resource.arn)
    (hstandard : member.standard = resource.arn.standardPlaceholders)
    (hlength : arguments.length = member.parameters.length) {segment : Segment}
    (hsegment : segment ∈ resource.arn.segments) :
    value? (resourceBinding member arguments location defaults) (segmentPart resource.arn segment) =
      some (segment.fill (placeholderValue? resource.arn arguments location defaults)) := by
  cases segment with
  | literal text => rfl
  | placeholder name =>
    obtain ⟨value, hvalue, hbinding⟩ :=
      resourceBinding_argumentIdent location defaults hparameters hstandard hlength hsegment
    simp [segmentPart, value?, hbinding, Segment.fill, hvalue]

/-- Reading the format string of a resource type with the values of its arguments fills the
template. -/
theorem evaluate?_arnFormat (hparameters : member.parameters = Naming.parameters resource.arn)
    (hstandard : member.standard = resource.arn.standardPlaceholders)
    (hlength : arguments.length = member.parameters.length) {format : String}
    (hformat : Source.arnFormat resource member = .ok format) :
    evaluate? (resourceBinding member arguments location defaults) format.toList =
      some (resource.arn.fill
        (placeholderValue? resource.arn arguments location defaults)).toList := by
  rw [Source.arnFormat_eq_ok hparameters] at hformat
  cases hformat
  have hvalues : (resource.arn.segments.map (segmentPart resource.arn)).mapM
      (value? (resourceBinding member arguments location defaults)) =
        some (resource.arn.segments.map
          (Segment.fill (placeholderValue? resource.arn arguments location defaults))) := by
    rw [List.mapM_map]
    exact Failing.mapM_eq_pure_map fun _ =>
      value?_segmentPart location defaults hparameters hstandard hlength
  rw [Source.FormatString.evaluate?_write _ (Source.plain_segmentParts _), hvalues]
  rfl

/-- The format string of a resource type uses every standard argument of its method: no reading
succeeds without a value for it. -/
theorem evaluate?_arnFormat_eq_none
    (hparameters : member.parameters = Naming.parameters resource.arn)
    (hstandard : member.standard = resource.arn.standardPlaceholders) {format : String}
    (hformat : Source.arnFormat resource member = .ok format) {standard : Standard}
    (hmem : standard ∈ member.standard) {binding : String → Option String}
    (hnone : binding standard.argument = none) : evaluate? binding format.toList = none := by
  rw [Source.arnFormat_eq_ok hparameters] at hformat
  cases hformat
  rw [hstandard, Arn.Template.mem_standardPlaceholders] at hmem
  obtain ⟨name, hname, hkind⟩ := hmem
  have hunbound : value? binding (segmentPart resource.arn (.placeholder name)) = none := by
    simp [segmentPart, argumentIdent, hkind, value?, hnone]
  rw [Source.FormatString.evaluate?_write _ (Source.plain_segmentParts _),
    Failing.mapM_eq_none (List.mem_map.mpr ⟨_, hname, rfl⟩) hunbound]
  rfl

/-- A template with placeholders is evaluated to its fill by the arguments. -/
theorem resourceText?_of_hasPlaceholders (hplaceholders : resource.arn.hasPlaceholders = true)
    (hparameters : member.parameters = Naming.parameters resource.arn)
    (hstandard : member.standard = resource.arn.standardPlaceholders)
    (hlength : arguments.length = member.parameters.length) :
    resourceText? resource member arguments location defaults =
      some (resource.arn.fill (placeholderValue? resource.arn arguments location defaults)) := by
  have hformat := Source.arnFormat_eq_ok hparameters
  have hread := evaluate?_arnFormat location defaults hparameters hstandard hlength hformat
  simp [resourceText?, hplaceholders, hformat, Except.toOption, hread]

/-- The body of a resource method reads as the change that a call of the method makes. -/
theorem readAddition?_resourceBody (hparameters : member.parameters = Naming.parameters resource.arn)
    {body : List String} (hbody : Source.resourceBody resource member = .ok body) :
    Source.readAddition? (((member.parameters.map (·.2)).zip arguments).lookup ·) location defaults
        body =
      (resourceText? resource member arguments location defaults).map
        fun text => .plain (.addResource text) := by
  cases hplaceholders : resource.arn.hasPlaceholders with
  | false =>
    have htext := Source.accessorText_of_not_hasPlaceholders hplaceholders member
    rw [Source.readAddition?_resourceBody _ location defaults htext hbody]
    simp [resourceText?, hplaceholders]
  | true =>
    have htext := Source.accessorText_eq_ok hplaceholders hparameters
    have hfilled : resourceText? resource member arguments location defaults =
        (evaluate? (resourceBinding member arguments location defaults)
          (Source.FormatString.write
            (resource.arn.segments.map (segmentPart resource.arn))).toList).map String.ofList := by
      rw [resourceText?, if_pos hplaceholders, Source.arnFormat_eq_ok hparameters,
        Option.map_eq_bind]
      rfl
    rw [Source.readAddition?_resourceBody _ location defaults htext hbody, if_pos hplaceholders,
      hfilled, Option.map_map, funext (resourceBinding_eq_or location defaults hparameters)]
    rfl

end

/-- The method of every resource type adds its template, filled with the arguments and defaults, and
the body that is generated for it reads as just this change. The text in the body is a format string
that reads as the filled template and uses all its arguments. A template without placeholders stands
there as it is and is not read at all, and reading it would give the same only while it has no
brace. -/
theorem resource_fills_template {record : Catalog.Record} {service : Service}
    (hchecked : Service.ofRecord record = .ok service) {index : Nat}
    {resource : Service.ResourceType} (hresource : service.resourceTypes[index]? = some resource) :
    ∃ member text lines,
      (Naming.ofService service).resources[index]? = some member ∧
      member.parameters.map (·.1) = resource.arn.customPlaceholders ∧
      Source.accessorText resource member = .ok text ∧
      Source.resourceBody resource member = .ok lines ∧
      (∃ line ∈ lines, ∃ before after, line = before ++ Source.Literal.write text ++ after) ∧
      (∀ arguments location defaults, arguments.length = member.parameters.length →
        let filled :=
          resource.arn.fill (placeholderValue? resource.arn arguments location defaults)
        let texts := fun ident => ((member.parameters.map (·.2)).zip arguments).lookup ident
        Source.readAddition? texts location defaults lines = some (.plain (.addResource filled)) ∧
        resourceText? resource member arguments location defaults = some filled ∧
        (resource.arn.hasPlaceholders = false → text = filled) ∧
        (resource.arn.hasPlaceholders = true ∨ '{' ∉ text.toList ∧ '}' ∉ text.toList →
          evaluate? (resourceBinding member arguments location defaults) text.toList =
            some filled.toList)) ∧
      ∀ standard ∈ member.standard, ∀ binding, binding standard.argument = none →
        evaluate? binding text.toList = none := by
  obtain ⟨member, hmember, _, hparameters, hstandard⟩ := Naming.exists_resources_getElem? hresource
  obtain ⟨raw, hparse⟩ :=
    Service.exists_parse_of_mem_resourceTypes hchecked (List.mem_of_getElem? hresource)
  have hplaceholderNames : member.parameters.map (·.1) = resource.arn.customPlaceholders := by
    rw [hparameters, Naming.parameters_placeholders]
  cases hplaceholders : resource.arn.hasPlaceholders with
  | true =>
    have hformat := Source.arnFormat_eq_ok hparameters
    have htext := Source.accessorText_eq_ok hplaceholders hparameters
    obtain ⟨lines, hlines, hline⟩ := Source.exists_literal_of_accessorText htext
    refine ⟨member, _, lines, hmember, hplaceholderNames, htext, hlines, hline, ?_, ?_⟩
    · intro arguments location defaults hlength
      have hfilled := resourceText?_of_hasPlaceholders location defaults hplaceholders hparameters
        hstandard hlength
      refine ⟨?_, hfilled, nofun, fun _ => ?_⟩
      · rw [readAddition?_resourceBody location defaults hparameters hlines, hfilled]
        rfl
      · exact evaluate?_arnFormat location defaults hparameters hstandard hlength hformat
    · intro standard hmem binding hnone
      exact evaluate?_arnFormat_eq_none hparameters hstandard hformat hmem hnone
  | false =>
    have hfill := Arn.Template.fill_eq_raw hparse hplaceholders
    have htext := Source.accessorText_of_not_hasPlaceholders hplaceholders member
    obtain ⟨lines, hlines, hline⟩ := Source.exists_literal_of_accessorText htext
    refine ⟨member, _, lines, hmember, hplaceholderNames, htext, hlines, hline, ?_, ?_⟩
    · intro arguments location defaults _
      have hplain : resourceText? resource member arguments location defaults =
          some resource.arn.raw := by
        simp [resourceText?, hplaceholders]
      dsimp only
      rw [hfill]
      refine ⟨?_, hplain, fun _ => rfl, ?_⟩
      · rw [readAddition?_resourceBody location defaults hparameters hlines, hplain]
        rfl
      · rintro (hsome | ⟨hopen, hclose⟩)
        · cases hsome
        · exact Source.FormatString.evaluate?_of_no_brace _ hopen hclose
    · intro standard hmem
      rw [hstandard, Arn.Template.mem_standardPlaceholders] at hmem
      obtain ⟨name, hname, _⟩ := hmem
      have hsome := Arn.Template.hasPlaceholders_of_mem hname
      cases hplaceholders.symm.trans hsome

/-- A catalog whose templates hold braces. Of the names of the placeholders of a box, two come down
to one. -/
def vault : Catalog.Record where
  name := "Vault"
  servicePrefix := "vault"
  resourceTypes :=
    [{ name := "lid", arn := "arn:aws:vault:::lid\x7d" },
      { name := "box"
        arn := "arn:$\x7bPartition\x7d:vault:::\x7b$\x7bBox-Id\x7d\x7d/$\x7bBoxId\x7d" }]

/-- The resource type without a placeholder. -/
def lid : Service.ResourceType where
  name := "lid"
  url := ""
  arn := ⟨"arn:aws:vault:::lid\x7d", [.literal "arn:aws:vault:::lid\x7d"]⟩
  conditionKeys := []

/-- The resource type with placeholders, one of them in braces. -/
def box : Service.ResourceType where
  name := "box"
  url := ""
  arn :=
    { raw := "arn:$\x7bPartition\x7d:vault:::\x7b$\x7bBox-Id\x7d\x7d/$\x7bBoxId\x7d"
      segments :=
        [.literal "arn:", .placeholder "Partition", .literal ":vault:::\x7b", .placeholder "Box-Id",
          .literal "\x7d/", .placeholder "BoxId"] }
  conditionKeys := []

/-- The service that the catalog describes. -/
def vaultService : Service where
  name := "Vault"
  servicePrefix := "vault"
  url := ""
  actions := []
  resourceTypes := [lid, box]
  conditionKeys := []

/-- A brace does not speak against a template without placeholders. Its text stands in the source as
it is, and is no format string. -/
theorem lid_is_no_format_string :
    Service.ofRecord vault = .ok vaultService ∧ vaultService.resourceTypes[0]? = some lid ∧
      ∃ member, (Naming.ofService vaultService).resources[0]? = some member ∧
        Source.accessorText lid member = .ok lid.arn.raw ∧
        ∀ binding, evaluate? binding lid.arn.raw.toList = none := by
  refine ⟨by decide +kernel, rfl, ⟨⟨"on_lid", lid.arn.raw⟩, [], []⟩, by decide +kernel, rfl, ?_⟩
  intro binding
  have hbrace : lid.arn.raw.toList =
      "arn:aws:vault:::lid".toList.flatMap Source.FormatString.double ++ ['\x7d'] := by
    decide
  rw [hbrace, Source.FormatString.evaluate?_text]
  simp [evaluate?]

theorem resource_fills_template_box :
    ∃ member text lines, (Naming.ofService vaultService).resources[1]? = some member ∧
      Source.accessorText box member = .ok text ∧ Source.resourceBody box member = .ok lines ∧
      evaluate? (resourceBinding member ["a", "b"] {} {}) text.toList =
        some "arn:aws:vault:::\x7ba\x7d/b".toList ∧
      Source.readAddition? (((member.parameters.map (·.2)).zip ["a", "b"]).lookup ·)
        { partition := "aws-cn" } {} lines =
          some (.plain (.addResource "arn:aws-cn:vault:::\x7ba\x7d/b")) := by
  have hchecked : Service.ofRecord vault = .ok vaultService := by decide +kernel
  have hresource : vaultService.resourceTypes[1]? = some box := rfl
  obtain ⟨member, text, lines, hmember, hnames, htext, hlines, _, hfilled, _⟩ :=
    resource_fills_template hchecked hresource
  have hlength : ["a", "b"].length = member.parameters.length := by
    have hcount := congrArg List.length hnames
    rw [List.length_map] at hcount
    rw [hcount]
    decide
  obtain ⟨-, -, -, hread⟩ := hfilled ["a", "b"] {} {} hlength
  obtain ⟨hadded, -⟩ := hfilled ["a", "b"] { partition := "aws-cn" } {} hlength
  refine ⟨member, text, lines, hmember, htext, hlines, (hread (.inl rfl)).trans ?_, hadded.trans ?_⟩
  · decide
  · decide

end PolicyForge.Provider
