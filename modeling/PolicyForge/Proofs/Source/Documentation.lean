import Mathlib.Logic.Function.Iterate
import PolicyForge.Proofs.Source.Comments
import PolicyForge.Proofs.Text.Blank

namespace PolicyForge.Source

/-- Three marks, which at the start of a line open a block of code. -/
def fence (mark : Char) : List Char :=
  List.replicate 3 mark

/-- A line of documentation that opens a block of code, by typewriter marks or by tildes. -/
def OpensBlock (body : List Char) : Prop :=
  fence '\x60' <+: body ∨ fence '~' <+: body

/-- A text that can stand behind the marks of a comment line: it is there, goes on to no other line,
is not indented, and has no run of typewriter marks. -/
structure IsDocText (body : List Char) : Prop where
  nonempty : body ≠ []
  noNewline : '\n' ∉ body
  noReturn : '\r' ∉ body
  notIndented : ∀ c ∈ body.head?, Text.isBlank c = false
  noMarks : ¬ fence '\x60' <:+: body

variable {marks cs : List Char}

/-- Replacing puts nothing in front of a text but quotes. -/
theorem prefix_of_prefix_defuse (hquote : '\'' ∉ marks) (hbegins : marks <+: defuse cs) :
    marks <+: cs := by
  fun_induction defuse cs generalizing marks with
  | case1 rest ih =>
    cases marks with
    | nil => exact List.nil_prefix
    | cons mark marks =>
      obtain ⟨rfl, -⟩ := List.cons_prefix_cons.mp hbegins
      exact absurd List.mem_cons_self hquote
  | case2 c rest _ ih =>
    cases marks with
    | nil => exact List.nil_prefix
    | cons mark marks =>
      obtain ⟨rfl, hrest⟩ := List.cons_prefix_cons.mp hbegins
      have hquote' : '\'' ∉ marks := fun hmem => hquote (List.mem_cons_of_mem _ hmem)
      exact List.cons_prefix_cons.mpr ⟨rfl, ih hquote' hrest⟩
  | case3 => exact hbegins

/-- A beginning without typewriter marks is left as it is. -/
theorem prefix_defuse_of_plain (hplain : '\x60' ∉ marks) (hbegins : marks <+: cs) :
    marks <+: defuse cs := by
  fun_induction defuse cs generalizing marks with
  | case1 rest ih =>
    cases marks with
    | nil => exact List.nil_prefix
    | cons mark marks =>
      obtain ⟨rfl, -⟩ := List.cons_prefix_cons.mp hbegins
      exact absurd List.mem_cons_self hplain
  | case2 c rest _ ih =>
    cases marks with
    | nil => exact List.nil_prefix
    | cons mark marks =>
      obtain ⟨rfl, hrest⟩ := List.cons_prefix_cons.mp hbegins
      have hplain' : '\x60' ∉ marks := fun hmem => hplain (List.mem_cons_of_mem _ hmem)
      exact List.cons_prefix_cons.mpr ⟨rfl, ih hplain' hrest⟩
  | case3 => exact hbegins

/-- No run of typewriter marks is left, and none is made. -/
theorem not_fence_infix_defuse (cs : List Char) : ¬ fence '\x60' <:+: defuse cs := by
  fun_induction defuse cs with
  | case1 rest ih =>
    have hquote : ∀ {behind : List Char}, ¬ fence '\x60' <+: '\'' :: behind :=
      fun hbegins => absurd (List.cons_prefix_cons.mp hbegins).1 (by decide)
    simp only [List.infix_cons_iff, hquote, false_or]
    exact ih
  | case2 c rest hsingle ih =>
    rw [List.infix_cons_iff, not_or]
    refine ⟨fun hbegins => ?_, ih⟩
    -- The run would be there before, where it is replaced.
    obtain ⟨rfl, hbehind⟩ := List.cons_prefix_cons.mp hbegins
    obtain ⟨more, rfl⟩ := prefix_of_prefix_defuse (by decide) hbehind
    exact hsingle more rfl rfl
  | case3 => decide

theorem head_defuse {c : Char} (hhead : c ∈ (defuse cs).head?) : c = '\'' ∨ c ∈ cs.head? := by
  fun_induction defuse cs with
  | case1 rest _ => exact .inl (Option.some.inj hhead).symm
  | case2 own rest _ _ => exact .inr hhead
  | case3 => exact .inr hhead

/-- Only the empty text is defused to nothing. -/
theorem defuse_eq_nil_iff : defuse cs = [] ↔ cs = [] := by
  fun_cases defuse cs <;> simp

/-- How a line of a text is documented behind an indentation: by the marks of a comment alone when
it is blank, else with a text behind them, which opens a block of code just when the line does so by
tildes. -/
inductive Documents (front : String) (source : List Char) : String → Prop where
  | blank (hblank : Text.strip Text.isBlank source = []) : Documents front source (front ++ "///")
  | text {body : List Char} (hbody : IsDocText body)
      (hopens : OpensBlock body ↔ fence '~' <+: Text.strip Text.isBlank source) :
      Documents front source (front ++ "/// " ++ String.ofList body)

theorem documents_docLine (front : String) {source : List Char} (hnewline : '\n' ∉ source)
    (hreturn : '\r' ∉ source) : Documents front source (front ++ docLine source) := by
  have hkept : ∀ {c : Char}, c ≠ '\'' → c ∉ source →
      c ∉ defuse (Text.strip Text.isBlank source) := by
    intro c hquote hsource hmem
    obtain heq | hmem := eq_quote_or_mem_of_mem_defuse hmem
    · exact hquote heq
    · exact hsource (Text.mem_of_mem_strip hmem)
  have hmarks := not_fence_infix_defuse (Text.strip Text.isBlank source)
  unfold docLine
  dsimp only
  split
  · rename_i hempty
    exact .blank (defuse_eq_nil_iff.mp (List.isEmpty_iff.mp hempty))
  · rename_i hnonempty
    rw [← String.append_assoc]
    refine .text ⟨?_, hkept (by decide) hnewline, hkept (by decide) hreturn, ?_, hmarks⟩ ⟨?_, ?_⟩
    · simpa using hnonempty
    · intro c hhead
      obtain rfl | hhead := head_defuse hhead
      · decide
      · exact (Text.stripped_strip _ _).head c hhead
    · rintro (hopens | hopens)
      · exact absurd hopens.isInfix hmarks
      · exact prefix_of_prefix_defuse (by decide) hopens
    · intro hopens
      exact .inr (prefix_defuse_of_plain (by decide) hopens)

/-- A line of documentation behind an indentation that opens no block of code. -/
inductive Harmless (front : String) : String → Prop where
  | blank : Harmless front (front ++ "///")
  | text {body : List Char} (hbody : IsDocText body) (hplain : ¬ OpensBlock body) :
      Harmless front (front ++ "/// " ++ String.ofList body)

/-- Whether a line of documentation opens no block can be read off its source: only a fence of
tildes at its start does, as those of backticks are defused. -/
theorem Documents.harmless_iff {front line : String} {source : List Char}
    (hdocuments : Documents front source line) :
    Harmless front line ↔ ¬ fence '~' <+: Text.strip Text.isBlank source := by
  cases hdocuments with
  | blank hblank =>
    rw [hblank]
    exact iff_of_true .blank (by decide)
  | @text body hbody hopens =>
    rw [← hopens]
    constructor
    · intro hharmless
      generalize hline : front ++ "/// " ++ String.ofList body = line at hharmless
      cases hharmless with
      | blank =>
        rw [String.append_assoc, String.append_right_inj] at hline
        have hlonger : "///".length < "/// ".length := by decide
        have hlength := congrArg String.length hline
        rw [String.length_append] at hlength
        omega
      | text _ hplain =>
        have hsame := String.ofList_injective ((String.append_right_inj _).mp hline)
        rwa [hsame]
    · exact fun hplain => .text hbody hplain

theorem docLine_ne_empty (source : List Char) : docLine source ≠ "" := by
  unfold docLine
  dsimp only
  split <;> simp

/-- Indentation stands in front of every line of documentation, a blank one too. -/
theorem iterate_indent_doc (depth : Nat) (text : String) :
    indent^[depth] (doc text) =
      (doc text).map (String.join (List.replicate depth indentation) ++ ·) := by
  have hline : ∀ front source, indentLine (front ++ docLine source) =
      indentation ++ front ++ docLine source := by
    intro front source
    have hnonempty : ¬ (front ++ docLine source).isEmpty = true := by
      simp [docLine_ne_empty]
    rw [indentLine, if_neg hnonempty, String.append_assoc]
  induction depth with
  | zero => simp
  | succ depth ih =>
    rw [Function.iterate_succ_apply', ih, indent, doc, List.map_map, List.map_map, List.map_map]
    apply List.map_congr_left
    intro source _
    rw [List.replicate_succ, String.join_cons]
    exact hline _ source

section

variable {service : Service} {naming : Naming} {comment : List String}

/-- Every documentation of a member is part of the rendered source, line by line. -/
theorem Documentation.mem_lines_of_render {source : String}
    (hdocumentation : Documentation service naming comment)
    (hok : render service naming = .ok source) {line : String} (hline : line ∈ comment) :
    line.toList ∈ Text.lines source.toList := by
  obtain ⟨lines, hlines, hsource⟩ := render_eq_ok hok
  have hbreak := (hdocumentation.isComment line hline).1
  have hwhole : line ∈ header service ++ (typeDefinition service naming.typeName ++ [""] ++ lines ++
      [""] ++ tables service naming.typeName ++ [""] ++ conversions naming.typeName) := by
    obtain htype | hmethods := hdocumentation.infix hlines
    · simp [htype.subset hline]
    · simp [hmethods.subset hline]
  rw [hsource, lines_unlines, List.mem_flatMap]
  refine ⟨line.toList, List.mem_map_of_mem hwhole, ?_⟩
  rw [Text.pieces_of_newline_not_mem hbreak]
  exact List.mem_singleton_self _

end

/-- Documentation opens a block of code by tildes alone. Every line of a text, after line breaks of
all kinds, is documented on a line of its own, behind any indentation, and nothing else is written.
What stands there behind the marks of the comment has no line break, no blank in front and no run of
three typewriter marks, and opens a block of code just when the line of the text, blanks aside,
begins with three tildes, which are not replaced. So the documentation of a text is harmless just
when no line of it begins so. Where a module documents the text, these are lines of the module. -/
theorem doc_opens_block_by_tildes (text : String) :
    (∀ front, List.Forall₂ (Documents front) (Text.lines (Text.unifyBreaks text.toList))
      ((doc text).map (front ++ ·))) ∧
    (∀ front, (∀ line ∈ doc text, Harmless front (front ++ line)) ↔
      ∀ line ∈ Text.lines (Text.unifyBreaks text.toList),
        ¬ fence '~' <+: Text.strip Text.isBlank line) ∧
    ∀ depth,
      indent^[depth] (doc text) =
        (doc text).map (String.join (List.replicate depth indentation) ++ ·) ∧
      ∀ service naming source, render service naming = .ok source →
        Documentation service naming (indent^[depth] (doc text)) →
          ∀ line ∈ indent^[depth] (doc text), line.toList ∈ Text.lines source.toList := by
  have hdocuments : ∀ front, ∀ line ∈ Text.lines (Text.unifyBreaks text.toList),
      Documents front line (front ++ docLine line) := by
    intro front line hline
    exact documents_docLine front (Text.newline_not_mem_of_mem_lines hline)
      fun hmem => Text.return_not_mem_unifyBreaks _ (Text.mem_of_mem_lines hline hmem)
  refine ⟨fun front => ?_, fun front => ?_, fun depth => ⟨iterate_indent_doc depth text, ?_⟩⟩
  · rw [doc, List.map_map, List.forall₂_map_right_iff, List.forall₂_same]
    exact hdocuments front
  · rw [doc, List.forall_mem_map]
    exact forall₂_congr fun line hline => (hdocuments front line hline).harmless_iff
  · exact fun _ _ _ hok hdocumentation _ => hdocumentation.mem_lines_of_render hok

/-- A catalog that describes an action by three tildes. -/
def shelf : Json :=
  .object
    [("servicePrefix", .string "shelf"),
      ("actionList", .object
        [("Tidy", .object [("accessLevel", .string "Write"), ("description", .string "~~~")])])]

/-- The service that the catalog describes. -/
def shelfService : Service where
  name := "shelf"
  servicePrefix := "shelf"
  url := ""
  actions := [⟨"Tidy", "~~~", "", .write, [], [], []⟩]
  resourceTypes := []
  conditionKeys := []

/-- The tildes of the catalog stand in the module, where they open a block of code. -/
theorem tildes_open_block :
    Service.ofText "shelf" shelf.compact = .ok shelfService ∧
      ∃ source, render shelfService (Naming.ofService shelfService) = .ok source ∧
        "    /// ~~~".toList ∈ Text.lines source.toList ∧ ¬ Harmless indentation "    /// ~~~" := by
  have htextual : shelf.Textual := by simp [shelf, Json.Textual, Json.TextualMembers]
  have hservice : Service.ofText "shelf" shelf.compact = .ok shelfService := by
    rw [Service.ofText_of_document (Json.document_compact htextual)]
    decide +kernel
  obtain ⟨record, hrecord⟩ := Service.exists_ofRecord_of_ofText hservice
  obtain ⟨source, hsource⟩ := exists_render_eq_ok (Service.keysDeclared_of_ofRecord hrecord)
  have hmember : (⟨"Tidy", "~~~", "", .write, [], [], []⟩, ⟨"to_tidy", "shelf:Tidy"⟩) ∈
      shelfService.actions.zip (Naming.ofService shelfService).actions := by
    decide +kernel
  have hdocumentation : Documentation shelfService (Naming.ofService shelfService)
      (indent (docSections ["~~~", "Access level: Write"])) :=
    .action hmember (by decide +kernel)
  have hline : "    /// ~~~" ∈ indent (docSections ["~~~", "Access level: Write"]) := by
    decide +kernel
  have hdocuments : Documents indentation "~~~".toList "    /// ~~~" := by
    have hwritten : indentation ++ docLine "~~~".toList = "    /// ~~~" := by decide +kernel
    rw [← hwritten]
    exact documents_docLine indentation (by decide) (by decide)
  refine ⟨hservice, source, hsource, hdocumentation.mem_lines_of_render hsource hline, ?_⟩
  rw [hdocuments.harmless_iff, not_not]
  decide

end PolicyForge.Source
