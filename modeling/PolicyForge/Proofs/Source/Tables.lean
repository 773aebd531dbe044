import PolicyForge.Proofs.Failing
import PolicyForge.Proofs.Source.Layout
import PolicyForge.Proofs.Source.Literal
import PolicyForge.Source.Module

namespace PolicyForge.Source

/-- The text of the tables of a service, with the empty line behind them. -/
def tablesText (service : Service) (typeName : String) : String :=
  unlines (tables service typeName ++ [""])

/-- Lines that take up one line of the source each. -/
def Unbroken (lines : List String) : Prop :=
  ∀ line ∈ lines, '\n' ∉ line.toList

instance (lines : List String) : Decidable (Unbroken lines) :=
  inferInstanceAs (Decidable (∀ line ∈ lines, '\n' ∉ line.toList))

theorem unbroken_append {lines others : List String} :
    Unbroken (lines ++ others) ↔ Unbroken lines ∧ Unbroken others :=
  List.forall_mem_append

theorem unbroken_cons {line : String} {lines : List String} :
    Unbroken (line :: lines) ↔ '\n' ∉ line.toList ∧ Unbroken lines :=
  List.forall_mem_cons

theorem unbroken_flatMap {α : Type} (as : List α) {entry : α → List String}
    (hentry : ∀ a, Unbroken (entry a)) : Unbroken (as.flatMap entry) := by
  intro line hline
  obtain ⟨a, -, hmem⟩ := List.mem_flatMap.mp hline
  exact hentry a line hmem

theorem unbroken_map {α : Type} (as : List α) {entry : α → String}
    (hentry : ∀ a, '\n' ∉ (entry a).toList) : Unbroken (as.map entry) :=
  List.forall_mem_map.mpr fun a _ => hentry a

theorem unbroken_indent {lines : List String} : Unbroken (indent lines) ↔ Unbroken lines := by
  have hline : ∀ line : String, '\n' ∉ (indentLine line).toList ↔ '\n' ∉ line.toList := by
    intro line
    unfold indentLine
    split
    · rfl
    · simp [indentation]
  simp only [Unbroken, indent, List.forall_mem_map, hline]

theorem unbroken_enclose {opening closing : String} {body : List String} :
    Unbroken (enclose opening body closing) ↔
      '\n' ∉ opening.toList ∧ Unbroken body ∧ '\n' ∉ closing.toList := by
  rw [enclose, List.cons_append, Unbroken, List.forall_mem_cons]
  refine and_congr_right fun _ => ?_
  rw [← Unbroken, unbroken_append, unbroken_indent]
  simp [Unbroken]

theorem unlines_inj {lines others : List String} (hlines : Unbroken lines) (hothers : Unbroken others)
    (heq : unlines lines = unlines others) : lines = others := by
  have hread := lines_unlines_eq_iff.mpr hlines
  rw [heq, lines_unlines_eq_iff.mpr hothers] at hread
  exact (List.map_injective_iff.mpr (fun _ _ => String.toList_injective) hread).symm

/-- A line is told from its indented form: an empty line is the only one that is not indented. -/
theorem indentLine_injective : Function.Injective indentLine := by
  intro line other heq
  unfold indentLine at heq
  have hfront : ∀ text : String, indentation ++ text ≠ "" := by
    intro text hempty
    simpa [indentation] using congrArg String.toList hempty
  split at heq <;> split at heq
  · exact heq
  · rename_i hempty _
    exact absurd (heq.symm.trans (by simpa using hempty)) (hfront other)
  · rename_i hempty
    exact absurd (heq.trans (by simpa using hempty)) (hfront line)
  · simpa using heq

/-- A line that ends a block is no line of the block. -/
structure Closes (closing : String) : Prop where
  nonempty : closing ≠ ""
  outside : closing.toList.head? ≠ some ' '

/-- The line that closes an entry is not indented, so it is none of the lines inside. -/
theorem Closes.not_mem_indent {closing : String} (hcloses : Closes closing) (body : List String) :
    closing ∉ indent body := by
  intro hmem
  obtain ⟨line, -, rfl⟩ := List.mem_map.mp hmem
  obtain ⟨hne, hhead⟩ := hcloses
  unfold indentLine at hne hhead
  split at hne
  · rename_i hempty
    exact hne (by simpa using hempty)
  · rename_i hnonempty
    rw [if_neg hnonempty] at hhead
    exact hhead (by simp [indentation])

/-- A block tells its parts apart, and where it ends. -/
theorem Closes.enclose_append_inj {closing : String} (hcloses : Closes closing)
    {opening opening' : String} {body body' rest rest' : List String}
    (heq : enclose opening body closing ++ rest = enclose opening' body' closing ++ rest') :
    opening = opening' ∧ body = body' ∧ rest = rest' := by
  simp only [enclose, List.cons_append, List.append_assoc, List.nil_append, List.cons.injEq] at heq
  obtain ⟨hopening, hbehind⟩ := heq
  obtain ⟨hbody, hrest⟩ := Lists.append_cons_inj (hcloses.not_mem_indent body)
    (hcloses.not_mem_indent body') hbehind
  exact ⟨hopening, List.map_injective_iff.mpr indentLine_injective hbody, hrest⟩

theorem write_line_inj {front text other behind behind' : String}
    (heq : front ++ Literal.write text ++ behind = front ++ Literal.write other ++ behind') :
    text = other ∧ behind = behind' := by
  have hchars := congrArg String.toList heq
  simp only [String.toList_append, List.append_assoc, List.append_cancel_left_eq] at hchars
  obtain ⟨htext, hbehind⟩ := Literal.write_append_inj hchars
  exact ⟨htext, String.toList_injective hbehind⟩

theorem slice_line_inj {front behind behind' : String} {texts others : List String}
    (heq : front ++ Literal.slice texts ++ behind = front ++ Literal.slice others ++ behind') :
    texts = others := by
  have hchars := congrArg String.toList heq
  simp only [String.toList_append, List.append_assoc, List.append_cancel_left_eq] at hchars
  exact (Literal.slice_append_inj hchars).1

theorem levelName_injective : Function.Injective levelName := by
  intro level other
  cases level <;> cases other <;> simp [levelName]

theorem level_line_inj {level other : AccessLevel} {front behind : String}
    (heq : front ++ levelPath level ++ behind = front ++ levelPath other ++ behind) :
    level = other := by
  have hpath := (String.append_right_inj _).mp ((String.append_left_inj _).mp heq)
  exact levelName_injective ((String.append_right_inj _).mp hpath)

theorem resourceReference_injective : Function.Injective resourceReference := by
  intro resource other heq
  have hshape : ∀ resource : Service.ActionResource, resourceReference resource =
      "runtime::ResourceTypeRef \x7b name: " ++ Literal.write resource.name ++
        (", required: " ++ ((if resource.required then "true" else "false") ++ " \x7d,")) := by
    intro resource
    unfold resourceReference
    rw [String.append_assoc]
    exact String.append_assoc ..
  rw [hshape, hshape] at heq
  obtain ⟨hname, hbehind⟩ := write_line_inj heq
  have hflag := (String.append_left_inj _).mp ((String.append_right_inj _).mp hbehind)
  have hrequired : resource.required = other.required := by
    cases hown : resource.required <;> cases hothers : other.required <;>
      simp [hown, hothers] at hflag ⊢
  cases resource
  cases other
  rw [Service.ActionResource.mk.injEq]
  exact ⟨hname, hrequired⟩

/-- The references of an entry end where the line that closes them stands. -/
theorem resourceReferences_append_inj {resources others : List Service.ActionResource}
    {rest rest' : List String}
    (heq : resourceReferences resources ++ rest = resourceReferences others ++ rest') :
    resources = others ∧ rest = rest' := by
  have hcloses : Closes "]," := ⟨by decide, by decide⟩
  unfold resourceReferences at heq
  split at heq <;> split at heq
  · rename_i hnone hnone'
    rw [List.isEmpty_iff.mp hnone, List.isEmpty_iff.mp hnone']
    exact ⟨rfl, (List.cons.inj heq).2⟩
  · exact absurd (List.cons.inj heq).1 (by decide)
  · exact absurd (List.cons.inj heq).1 (by decide)
  · obtain ⟨-, hbody, hrest⟩ := hcloses.enclose_append_inj heq
    exact ⟨List.map_injective_iff.mpr resourceReference_injective hbody, hrest⟩

theorem closes_entry : Closes "\x7d," :=
  ⟨by decide, by decide⟩

/-- The entry of an action tells the action, and where it ends. -/
theorem actionEntry_append_inj {action other : Service.Action} {rest rest' : List String}
    (heq : actionEntry action ++ rest = actionEntry other ++ rest') :
    action = other ∧ rest = rest' := by
  obtain ⟨-, hbody, hrest⟩ := closes_entry.enclose_append_inj heq
  simp only [List.cons_append, List.nil_append, List.cons.injEq] at hbody
  obtain ⟨hname, hdescription, hurl, hlevel, hbehind⟩ := hbody
  obtain ⟨hresources, hlists⟩ := resourceReferences_append_inj hbehind
  obtain ⟨hconditions, hdependent⟩ := List.cons.inj hlists
  refine ⟨?_, hrest⟩
  cases action
  cases other
  simp only [Service.Action.mk.injEq]
  exact ⟨(write_line_inj hname).1, (write_line_inj hdescription).1, (write_line_inj hurl).1,
    level_line_inj hlevel, hresources, slice_line_inj hconditions,
    slice_line_inj (List.cons.inj hdependent).1⟩

/-- What the tables say of a resource type. -/
def listed (resource : Service.ResourceType) : String × String × String × List String :=
  (resource.name, resource.url, resource.arn.raw, resource.conditionKeys)

/-- The entry of a resource type tells what is listed of it, and where it ends. -/
theorem resourceEntry_append_inj {resource other : Service.ResourceType} {rest rest' : List String}
    (heq : resourceEntry resource ++ rest = resourceEntry other ++ rest') :
    listed resource = listed other ∧ rest = rest' := by
  obtain ⟨-, hbody, hrest⟩ := closes_entry.enclose_append_inj heq
  simp only [List.cons.injEq, and_true] at hbody
  obtain ⟨hname, hurl, harn, hkeys⟩ := hbody
  refine ⟨?_, hrest⟩
  simp only [listed, Prod.mk.injEq]
  exact ⟨(write_line_inj hname).1, (write_line_inj hurl).1, (write_line_inj harn).1,
    slice_line_inj hkeys⟩

theorem newline_not_mem_levelPath (level : AccessLevel) : '\n' ∉ (levelPath level).toList := by
  unfold levelPath
  rw [String.toList_append, List.mem_append, not_or]
  exact ⟨by decide, by cases level <;> decide⟩

/-- The references of an action break no line: all their texts are literals. -/
theorem unbroken_resourceReferences (resources : List Service.ActionResource) :
    Unbroken (resourceReferences resources) := by
  have hline : ∀ resource, '\n' ∉ (resourceReference resource).toList := by
    intro resource
    unfold resourceReference
    split <;> simp [Literal.newline_not_mem_write]
  unfold resourceReferences
  split
  · decide
  · exact unbroken_enclose.mpr ⟨by decide, unbroken_map _ hline, by decide⟩

theorem unbroken_actionEntry (action : Service.Action) : Unbroken (actionEntry action) := by
  refine unbroken_enclose.mpr ⟨by decide, ?_, by decide⟩
  refine unbroken_append.mpr ⟨unbroken_append.mpr ⟨?_, unbroken_resourceReferences _⟩, ?_⟩ <;>
    simp [Unbroken, Literal.newline_not_mem_write, Literal.newline_not_mem_slice,
      newline_not_mem_levelPath]

theorem unbroken_resourceEntry (resource : Service.ResourceType) :
    Unbroken (resourceEntry resource) := by
  refine unbroken_enclose.mpr ⟨by decide, ?_, by decide⟩
  simp [Unbroken, Literal.newline_not_mem_write, Literal.newline_not_mem_slice]

theorem newline_not_mem_levelEntry (entry : AccessLevel × List String) :
    '\n' ∉ (levelEntry entry.1 entry.2).toList := by
  simp [levelEntry, newline_not_mem_levelPath, Literal.newline_not_mem_slice]

/-- The tables break no line, whatever the catalog holds. -/
theorem unbroken_tables (service : Service) {typeName : String} (hname : '\n' ∉ typeName.toList) :
    Unbroken (tables service typeName) := by
  have hactions := unbroken_flatMap service.actions unbroken_actionEntry
  have hresources := unbroken_flatMap service.resourceTypes unbroken_resourceEntry
  have hlevels := unbroken_map service.accessLevels newline_not_mem_levelEntry
  have hown : '\n' ∉ ("const SERVICE_PREFIX: &'static str = " ++
      Literal.write service.servicePrefix ++ ";").toList := by
    simp [Literal.newline_not_mem_write]
  refine unbroken_enclose.mpr ⟨by simp [hname], ?_, by decide⟩
  -- What is left are lines that are the same for every service.
  simp only [block, unbroken_append, unbroken_cons, unbroken_enclose, hown, hactions, hresources,
    hlevels, not_false_eq_true, true_and]
  and_intros <;> decide

/-- The lines of the tables tell the name of the type, the prefix, the actions and what is listed of
the resource types. -/
theorem tables_append_inj {service other : Service} {typeName otherName : String}
    {rest rest' : List String}
    (heq : tables service typeName ++ rest = tables other otherName ++ rest') :
    typeName = otherName ∧ service.servicePrefix = other.servicePrefix ∧
      service.actions = other.actions ∧
      service.resourceTypes.map listed = other.resourceTypes.map listed := by
  have hblock : Closes "\x7d" := ⟨by decide, by decide⟩
  have htable : Closes "];" := ⟨by decide, by decide⟩
  obtain ⟨hheading, hbody, -⟩ := hblock.enclose_append_inj heq
  have hname := (String.append_right_inj _).mp ((String.append_left_inj _).mp hheading)
  simp only [List.append_assoc, List.cons_append, List.nil_append, List.cons.injEq,
    true_and] at hbody
  obtain ⟨hown, hbody⟩ := hbody
  obtain ⟨-, hactions, hbody⟩ := htable.enclose_append_inj hbody
  obtain ⟨-, hresources, -⟩ := htable.enclose_append_inj (List.cons.inj hbody).2
  have hactions := Lists.forall₂_of_flatMap_eq (fun _ => List.cons_ne_nil _ _)
    (fun _ _ _ _ => actionEntry_append_inj) hactions
  have hresources := Lists.forall₂_of_flatMap_eq (fun _ => List.cons_ne_nil _ _)
    (fun _ _ _ _ => resourceEntry_append_inj) hresources
  exact ⟨hname, (write_line_inj hown).1, List.forall₂_eq_eq_eq ▸ hactions,
    Lists.map_eq_map_of_forall₂ (fun _ _ => id) hresources⟩

theorem unlines_append (lines others : List String) :
    unlines (lines ++ others) = unlines lines ++ unlines others := by
  apply String.toList_injective
  simp [toList_unlines]

/-- The module of a service has the text of its tables in it. -/
theorem exists_tablesText_of_render {service : Service} {naming : Naming} {source : String}
    (hok : render service naming = .ok source) :
    ∃ before after, source = before ++ tablesText service naming.typeName ++ after := by
  obtain ⟨_, -, hok⟩ := Failing.bind_eq_ok.mp hok
  obtain ⟨_, -, hok⟩ := Failing.bind_eq_ok.mp hok
  obtain ⟨_, -, hok⟩ := Failing.bind_eq_ok.mp hok
  obtain ⟨methods, -, hok⟩ := Failing.bind_eq_ok.mp hok
  obtain rfl := Except.ok.inj hok
  refine ⟨unlines (header service ++ typeDefinition service naming.typeName ++ [""] ++ methods ++
    [""]), unlines (conversions naming.typeName), ?_⟩
  rw [tablesText, ← unlines_append, ← unlines_append, ← List.append_assoc]

/-- The tables of a type lose nothing. Services whose tables have one text under names without line
breaks have one prefix, the same actions, and resource types of which the same is listed, all in the
same order. Whatever characters the texts of a service hold, each is written as a literal that
stands on one line and is read back as the text, without a look at what follows it. The text of the
tables is the one that the module of a service has in it. -/
theorem tables_lossless {service other : Service} {typeName otherName : String}
    (hname : '\n' ∉ typeName.toList) (hother : '\n' ∉ otherName.toList)
    (hsame : tablesText service typeName = tablesText other otherName) :
    (typeName = otherName ∧ service.servicePrefix = other.servicePrefix ∧
      service.actions = other.actions ∧
      service.resourceTypes.map listed = other.resourceTypes.map listed) ∧
    (∀ text : String, '\n' ∉ (Literal.write text).toList ∧
      ∀ rest, Literal.read? ((Literal.write text).toList ++ rest) = some (text.toList, rest)) ∧
    ∀ naming source, render service naming = .ok source →
      ∃ before after, source = before ++ tablesText service naming.typeName ++ after := by
  have hunbroken : ∀ (service : Service) {typeName : String}, '\n' ∉ typeName.toList →
      Unbroken (tables service typeName ++ [""]) := by
    intro service typeName hname
    exact unbroken_append.mpr ⟨unbroken_tables service hname, by decide⟩
  have hlines := unlines_inj (hunbroken service hname) (hunbroken other hother) hsame
  exact ⟨tables_append_inj hlines,
    fun text => ⟨Literal.newline_not_mem_write text, Literal.read?_write text⟩,
    fun naming source => exists_tablesText_of_render⟩

/-- A service whose texts look like what stands around them in the tables. -/
def disguised : Service where
  name := "Lamps"
  servicePrefix := "lamp"
  url := ""
  actions :=
    [{ name := "Light\", \"", description := "\",\n            url: \"", url := "\\"
       accessLevel := .write
       resourceTypes := [{ name := "\", required: true \x7d,", required := false }]
       conditions := ["lamp:Hue\"],", ""], dependentActions := [] }]
  resourceTypes := []
  conditionKeys := []

theorem tables_lossless_disguised :
    let renamed : Service := { disguised with name := "Torches" }
    tablesText disguised "Lamps" = tablesText renamed "Lamps" ∧
      renamed.actions = disguised.actions := by
  intro renamed
  have hsame : tablesText disguised "Lamps" = tablesText renamed "Lamps" := rfl
  exact ⟨hsame, ((tables_lossless (by decide) (by decide) hsame).1.2.2.1).symm⟩

end PolicyForge.Source
