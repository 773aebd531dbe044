import PolicyForge.Proofs.Json.Writing
import PolicyForge.Proofs.Source.Layout
import PolicyForge.Proofs.Source.Module

namespace PolicyForge.Source

variable {service : Service} {naming : Naming}

/-- The documentation comments of a module, as the lines that they are written on: of the type, and
of the methods of all members. -/
inductive Documentation (service : Service) (naming : Naming) : List String → Prop where
  | type : Documentation service naming (docSections (typeSections service))
  | action {action : Service.Action} {member : Member} {sections : List String}
      (hmember : (action, member) ∈ service.actions.zip naming.actions)
      (hsections : actionSections service naming action = .ok sections) :
      Documentation service naming (indent (docSections sections))
  | resource {resource : Service.ResourceType} {member : ResourceMember} {sections : List String}
      (hmember : (resource, member) ∈ service.resourceTypes.zip naming.resources)
      (hsections : resourceSections service naming resource member = .ok sections) :
      Documentation service naming (indent (docSections sections))
  | condition {condition : Service.ConditionKey} {member : ConditionMember}
      (hmember : (condition, member) ∈ service.conditionKeys.zip naming.conditions) :
      Documentation service naming (indent (docSections (conditionSections service naming condition)))

/-- All documentation is written in comment lines. -/
theorem Documentation.isComment {comment : List String}
    (hdocumentation : Documentation service naming comment) : IsComment comment := by
  cases hdocumentation with
  | type => exact isComment_doc _
  | action => exact (isComment_doc _).indent
  | resource => exact (isComment_doc _).indent
  | condition => exact (isComment_doc _).indent

/-- A block among others, each behind an empty line, is found in the text of all. -/
theorem infix_flatMap_separated {blocks : List (List String)} {block : List String}
    (hblock : block ∈ blocks) : block <:+: blocks.flatMap ("" :: ·) := by
  obtain ⟨before, after, rfl⟩ := List.append_of_mem hblock
  refine ⟨before.flatMap ("" :: ·) ++ [""], after.flatMap ("" :: ·), ?_⟩
  simp

/-- What a method starts with is found in the block of all methods. -/
theorem indent_infix_methods {start lines before : List String} {blocks : List (List String)}
    (hstart : start <+: lines) (hlines : lines ∈ blocks) (heading : String) :
    indent start <:+: block heading (before ++ blocks.flatMap ("" :: ·)) := by
  apply indent_infix_enclose
  have hblock := infix_flatMap_separated hlines
  exact hstart.isInfix.trans (hblock.trans (List.suffix_append _ _).isInfix)

theorem docSections_prefix_actionMethod {action : Service.Action} {member : Member}
    {sections lines : List String} (hsections : actionSections service naming action = .ok sections)
    (hlines : actionMethod service naming action member = .ok lines) :
    docSections sections <+: lines := by
  rw [actionMethod, hsections] at hlines
  obtain rfl := Except.ok.inj hlines
  exact List.prefix_append _ _

theorem docSections_prefix_method (sections : List String) (name : String)
    (arguments body : List String) : docSections sections <+: method sections name arguments body := by
  rw [method, List.append_assoc, List.append_assoc]
  exact List.prefix_append _ _

theorem docSections_prefix_resourceMethod {resource : Service.ResourceType} {member : ResourceMember}
    {sections lines : List String}
    (hsections : resourceSections service naming resource member = .ok sections)
    (hlines : resourceMethod service naming resource member = .ok lines) :
    docSections sections <+: lines := by
  rw [resourceMethod, hsections] at hlines
  obtain ⟨_, hown, hlines⟩ := Failing.bind_eq_ok.mp hlines
  obtain ⟨body, _, hlines⟩ := Failing.bind_eq_ok.mp hlines
  obtain rfl := Except.ok.inj hown
  obtain rfl := Except.ok.inj hlines
  exact docSections_prefix_method _ _ _ _

/-- The documentation of the type stands in front of the type, and that of a method in front of the
method. -/
theorem Documentation.infix {comment lines : List String}
    (hdocumentation : Documentation service naming comment)
    (hok : methods service naming = .ok lines) :
    comment <:+: typeDefinition service naming.typeName ∨ comment <:+: lines := by
  obtain ⟨actions, resources, conditions, hactions, hresources, rfl, rfl⟩ := methods_eq_ok hok
  cases hdocumentation with
  | type =>
    left
    rw [typeDefinition, List.append_assoc]
    exact (List.prefix_append _ _).isInfix
  | action hmember hsections =>
    obtain ⟨lines, hlines, hline⟩ := Failing.exists_mem_of_mapM_eq_ok hactions hmember
    have hstart := docSections_prefix_actionMethod hsections hline
    exact .inr (indent_infix_methods hstart (by simp [hlines]) _)
  | resource hmember hsections =>
    obtain ⟨lines, hlines, hline⟩ := Failing.exists_mem_of_mapM_eq_ok hresources hmember
    have hstart := docSections_prefix_resourceMethod hsections hline
    exact .inr (indent_infix_methods hstart (by simp [hlines]) _)
  | condition hmember =>
    have hlines := List.mem_map_of_mem
      (f := fun entry => conditionMethod service naming entry.1 entry.2) hmember
    exact .inr (indent_infix_methods (docSections_prefix_method _ _ _ _)
      (List.mem_append_right _ hlines) _)

/-- The header holds no raw text but the service prefix. -/
theorem newline_not_mem_header_iff (service : Service) :
    (∀ line ∈ header service, '\n' ∉ line.toList) ↔ '\n' ∉ service.servicePrefix.toList := by
  have hmarker : '\n' ∉ marker.toList := by decide
  simp [header, hmarker]

/-- Every documentation comment of the module of an accepted catalog takes up whole lines of the
source, and each of them is a comment line, whatever stands in the catalog. The header is its five
lines, and the first two of them comments, as long as the prefix has no line break. A break in the
prefix, which is not taken out, breaks the header. -/
theorem comments_unbroken {label text : String} {service : Service}
    (haccepted : Service.ofText label text = .ok service) :
    ∃ body, render service (Naming.ofService service) = .ok (unlines (header service ++ body)) ∧
      (∀ comment, Documentation service (Naming.ofService service) comment →
        comment <:+: body ∧ ∀ line ∈ Text.lines (unlines comment).toList, IsCommentLine line) ∧
      ('\n' ∉ service.servicePrefix.toList →
        ∀ line ∈ Text.lines (unlines ((header service).take 2)).toList, IsCommentLine line) ∧
      (Text.lines (unlines (header service)).toList = (header service).map String.toList ↔
        '\n' ∉ service.servicePrefix.toList) := by
  obtain ⟨record, hrecord⟩ := Service.exists_ofRecord_of_ofText haccepted
  obtain ⟨source, hsource⟩ := exists_render_eq_ok (Service.keysDeclared_of_ofRecord hrecord)
  obtain ⟨lines, hlines, hbody⟩ := render_eq_ok hsource
  rw [hbody] at hsource
  refine ⟨_, hsource, ?_, ?_, ?_⟩
  · intro comment hdocumentation
    refine ⟨?_, fun line hline => hdocumentation.isComment.of_mem_lines hline⟩
    simp only [List.append_assoc]
    obtain htype | hmethods := hdocumentation.infix hlines
    · exact htype.trans (List.prefix_append _ _).isInfix
    · exact hmethods.trans
        ((List.infix_append' [""] lines _).trans (List.suffix_append _ _).isInfix)
  · intro hplain line hline
    have hcomment : IsComment ((header service).take 2) := by
      intro own hown
      refine ⟨(newline_not_mem_header_iff service).mpr hplain own (List.mem_of_mem_take hown), ?_⟩
      obtain rfl | rfl : own = marker ∨
          own = "// Source: service catalog `" ++ service.servicePrefix ++ "`." := by
        simpa [header] using hown
      · decide
      · rw [String.append_assoc, String.toList_append]
        exact ⟨_, rfl⟩
    exact hcomment.of_mem_lines hline
  · rw [lines_unlines_eq_iff, newline_not_mem_header_iff]

/-- A catalog whose name goes on with an item on a line of its own. -/
def lamp : Json :=
  .object [("name", .string "Lamp\nmod hidden;"), ("servicePrefix", .string "lamp")]

/-- The service that the catalog describes. -/
def lampService : Service where
  name := "Lamp\nmod hidden;"
  servicePrefix := "lamp"
  url := ""
  actions := []
  resourceTypes := []
  conditionKeys := []

theorem ofText_lamp : Service.ofText "lamp" lamp.compact = .ok lampService := by
  have htextual : lamp.Textual := by simp [lamp, Json.Textual, Json.TextualMembers]
  rw [Service.ofText_of_document (Json.document_compact htextual)]
  decide +kernel

theorem comments_unbroken_lamp :
    Service.ofText "lamp" lamp.compact = .ok lampService ∧
      ∃ body, render lampService (Naming.ofService lampService) =
          .ok (unlines (header lampService ++ body)) ∧
        ["/// Statement provider for service `lamp` (Lamp", "/// mod hidden;).", "///",
          "/// Generic builder methods come from [`ServiceStatement`](runtime::ServiceStatement)."] <:+:
          body ∧
        Text.lines (unlines (header lampService)).toList = (header lampService).map String.toList := by
  obtain ⟨body, hrender, hcomments, _, hheader⟩ := comments_unbroken ofText_lamp
  refine ⟨ofText_lamp, body, hrender, ?_, hheader.mpr (by decide)⟩
  have htype := (hcomments _ .type).1
  have hwritten : docSections (typeSections lampService) =
      ["/// Statement provider for service `lamp` (Lamp", "/// mod hidden;).", "///",
        "/// Generic builder methods come from [`ServiceStatement`](runtime::ServiceStatement)."] := by
    decide +kernel
  rwa [hwritten] at htype

/-- A catalog whose prefix goes on with an item on a line of its own. -/
def hidden : Json :=
  .object [("servicePrefix", .string "a\nmod hidden;//")]

/-- A line break in the prefix ends the comment that names it: the line after it is no comment. -/
theorem prefix_breaks_header :
    ∃ service, Service.ofText "hidden" hidden.compact = .ok service ∧
      ∃ line ∈ Text.lines (unlines ((header service).take 2)).toList, ¬ IsCommentLine line := by
  have htextual : hidden.Textual := by simp [hidden, Json.Textual, Json.TextualMembers]
  refine ⟨⟨"a\nmod hidden;//", "a\nmod hidden;//", "", [], [], []⟩, ?_, "mod hidden;//`.".toList,
    ?_, ?_⟩
  · rw [Service.ofText_of_document (Json.document_compact htextual)]
    decide +kernel
  · decide +kernel
  · decide +kernel

end PolicyForge.Source
