import PolicyForge.Batch.Index
import PolicyForge.Proofs.Batch.Report
import PolicyForge.Proofs.Identifier.Items
import PolicyForge.Proofs.Lists
import PolicyForge.Proofs.Source.Layout
import PolicyForge.Proofs.Text.ByteOrder

namespace PolicyForge.Source

/-- A character of the names in generated source. -/
def isItemChar (c : Char) : Bool :=
  c.isAlphanum || c == '_'

/-- The module that a line declares, if it does. -/
def declaredModule? (line : List Char) : Option String := do
  let rest ← "pub mod ".toList.isPrefixOf? line
  return String.ofList (rest.takeWhile isItemChar)

/-- The type that a line gives to the users of the text, behind the module it comes from. -/
def reexport? (line : List Char) : Option (String × String) := do
  let rest ← "pub use ".toList.isPrefixOf? line
  let behind ← "::".toList.isPrefixOf? (rest.dropWhile isItemChar)
  return (String.ofList (rest.takeWhile isItemChar), String.ofList (behind.takeWhile isItemChar))

/-- The modules that a text declares. -/
def declaredModules (text : String) : List String :=
  (Text.lines text.toList).filterMap declaredModule?

/-- The types that a text gives to its users, behind the modules they come from. -/
def reexports (text : String) : List (String × String) :=
  (Text.lines text.toList).filterMap reexport?

/-- A name of one character or more that may stand in generated source. -/
def IsItemName (name : String) : Prop :=
  ∀ c ∈ name.toList, isItemChar c = true

end PolicyForge.Source

namespace PolicyForge.Batch

open Source (IsItemName declaredModule? declaredModules isItemChar reexport? reexports)

/-- An item name is read off whole when a character outside item names ends it. -/
theorem takeWhile_isItemChar {name : String} (hname : IsItemName name) {c : Char}
    (hc : isItemChar c = false) (rest : List Char) :
    (name.toList ++ c :: rest).takeWhile isItemChar = name.toList := by
  rw [List.takeWhile_append_of_pos hname, List.takeWhile_cons_of_neg (by simp [hc]), List.append_nil]

/-- What is left behind an item name starts at the character that ended it. -/
theorem dropWhile_isItemChar {name : String} (hname : IsItemName name) {c : Char}
    (hc : isItemChar c = false) (rest : List Char) :
    (name.toList ++ c :: rest).dropWhile isItemChar = c :: rest := by
  rw [List.dropWhile_append_of_pos hname, List.dropWhile_cons_of_neg (by simp [hc])]

/-- A module declaration is read back as its module's name, whatever ends the line. -/
theorem declaredModule?_line {name : String} (hname : IsItemName name) {c : Char}
    (hc : isItemChar c = false) (rest : List Char) :
    declaredModule? ("pub mod ".toList ++ (name.toList ++ c :: rest)) = some name := by
  change some (String.ofList ((name.toList ++ c :: rest).takeWhile isItemChar)) = some name
  rw [takeWhile_isItemChar hname hc, String.ofList_toList]

theorem reexport?_line {moduleName typeName : String} (hmodule : IsItemName moduleName)
    (htype : IsItemName typeName) {c : Char} (hc : isItemChar c = false) (rest : List Char) :
    reexport? ("pub use ".toList ++ (moduleName.toList ++ ':' :: ':' ::
      (typeName.toList ++ c :: rest))) = some (moduleName, typeName) := by
  have hcolon : isItemChar ':' = false := by decide
  have hstart : ∀ behind, "pub use ".toList.isPrefixOf? ("pub use ".toList ++ behind) =
      some behind := fun _ => rfl
  have hcolons : ∀ behind, "::".toList.isPrefixOf? (':' :: ':' :: behind) = some behind :=
    fun _ => rfl
  simp only [reexport?, hstart, Option.bind_eq_bind, Option.bind_some,
    dropWhile_isItemChar hmodule hcolon, takeWhile_isItemChar hmodule hcolon, hcolons,
    takeWhile_isItemChar htype hc, String.ofList_toList, Option.pure_def]

section

variable {generated : Generated}

theorem toList_reexport (generated : Generated) : (reexport generated).toList =
    "pub use ".toList ++ (generated.moduleName.toList ++ ':' :: ':' ::
      (generated.typeName.toList ++ ';' :: [])) := by
  simp [reexport]

/-- A declaration declares its module and gives no type away. -/
theorem filterMap_declaration (hmodule : IsItemName generated.moduleName) (style : IndexStyle) :
    ((declaration style generated).map String.toList).filterMap declaredModule? =
        [generated.moduleName] ∧
      ((declaration style generated).map String.toList).filterMap reexport? = [] := by
  cases style with
  | beside =>
    have hline : ("pub mod " ++ generated.moduleName ++ ";").toList =
        "pub mod ".toList ++ (generated.moduleName.toList ++ ';' :: []) := by simp
    constructor
    · simp only [declaration, List.map_cons, List.map_nil, List.filterMap_cons, hline]
      rw [declaredModule?_line hmodule (by decide)]
      rfl
    · simp only [declaration, List.map_cons, List.map_nil, List.filterMap_cons, hline]
      rfl
  | included =>
    obtain ⟨inner, hinner⟩ : ∃ inner, (Source.indentLine
        ("include!(concat!(env!(\"OUT_DIR\"), \"/" ++ generated.fileName ++ "\"));")).toList =
          ' ' :: inner := by
      simp [Source.indentLine, Source.indentation]
    have hline : ("pub mod " ++ generated.moduleName ++ " \x7b").toList =
        "pub mod ".toList ++ (generated.moduleName.toList ++ ' ' :: ['{']) := by simp
    simp only [declaration, Source.block, Source.enclose, Source.indent, List.map_cons, List.map_nil,
      List.cons_append, List.nil_append, List.filterMap_cons, hline, hinner]
    constructor
    · rw [declaredModule?_line hmodule (by decide)]
      rfl
    · rfl

theorem newline_not_mem_of_isItemName {name : String} (hname : IsItemName name) :
    '\n' ∉ name.toList := by
  intro hmem
  exact absurd (hname '\n' hmem) (by decide)

theorem newline_not_mem_declaration (hmodule : IsItemName generated.moduleName) (style : IndexStyle) :
    ∀ line ∈ declaration style generated, '\n' ∉ line.toList := by
  have hbreak := newline_not_mem_of_isItemName hmodule
  cases style with
  | beside => simp [declaration, hbreak]
  | included =>
    simp [declaration, Source.block, Source.enclose, Source.indent, Source.indentLine,
      Source.indentation, Generated.fileName, hbreak]

theorem newline_not_mem_reexport (hmodule : IsItemName generated.moduleName)
    (htype : IsItemName generated.typeName) : '\n' ∉ (reexport generated).toList := by
  have hbreak := newline_not_mem_of_isItemName hmodule
  have hbreak' := newline_not_mem_of_isItemName htype
  simp [reexport, hbreak, hbreak']

end

/-- The module and the type are named after the prefix and the name of a service. -/
def Generated.WellNamed (generated : Generated) : Prop :=
  generated.moduleName = Identifier.moduleName generated.servicePrefix ∧
    ∃ serviceName, generated.typeName = Identifier.typeName serviceName

/-- The names of what one input generates are the code's own module and type name of its service. -/
theorem wellNamed_of_generate {input : Input} {generated : Generated}
    (hok : generate input = .ok generated) : generated.WellNamed := by
  unfold generate at hok
  split at hok
  · cases hok
  · rename_i service _
    unfold generateService at hok
    dsimp only at hok
    split at hok
    · cases hok
    · rw [Except.ok.injEq] at hok
      subst hok
      exact ⟨by simp only [Naming.ofService], service.name, by simp only [Naming.ofService]⟩

theorem Generated.WellNamed.isItemName_moduleName {generated : Generated}
    (hnamed : generated.WellNamed) : IsItemName generated.moduleName := by
  intro c hc
  rw [hnamed.1] at hc
  have hsnake := Identifier.isSnake_iff.mp (Identifier.isSnake_moduleName _) c hc
  change (c.isUpper || c.isLower || c.isDigit || c == '_') = true
  simp only [Identifier.isSnakeChar, Bool.or_eq_true] at hsnake ⊢
  obtain (hlower | hdigit) | hunderscore := hsnake
  · exact .inl (.inl (.inr hlower))
  · exact .inl (.inr hdigit)
  · exact .inr hunderscore

theorem Generated.WellNamed.isItemName_typeName {generated : Generated}
    (hnamed : generated.WellNamed) : IsItemName generated.typeName := by
  intro c hc
  obtain ⟨_, serviceName, htype⟩ := hnamed
  rw [htype] at hc
  simp [isItemChar, Identifier.isAlphanum_of_mem_typeName hc]

/-- The modules of catalogs by themselves. -/
def modulesAlone (inputs : List Input) : List Generated :=
  inputs.filterMap fun input => (generate input).toOption

/-- Before repeated modules are refused, the modules of the report are those of the inputs taken
alone. -/
theorem generated_ofInputs (inputs : List Input) :
    (Report.mk (inputs.map Outcome.ofInput)).generated = modulesAlone inputs := by
  rw [Report.generated, List.filterMap_map]
  rfl

/-- Refusing takes modules away and changes none. -/
theorem generated_refuseRepeated_sublist (seen : List (String × String)) (outcomes : List Outcome) :
    (Report.mk (refuseRepeated seen outcomes)).generated.Sublist (Report.mk outcomes).generated := by
  fun_induction refuseRepeated seen outcomes with
  | case1 seen => exact List.Sublist.refl _
  | case2 seen outcome outcomes error herror ih =>
    rw [generated_cons_of_error herror, generated_cons_of_error herror]
    exact ih
  | case3 seen outcome outcomes generated hok first hfirst error ih =>
    rw [generated_cons_of_error rfl, generated_cons_of_ok hok]
    exact ih.cons generated
  | case4 seen outcome outcomes generated hok hnew ih =>
    rw [generated_cons_of_ok hok, generated_cons_of_ok hok]
    exact ih.cons_cons generated

/-- Nothing is refused where the names are different from the start. -/
theorem refuseRepeated_of_nodup {seen : List (String × String)} {outcomes : List Outcome}
    (hnodup : ((Report.mk outcomes).generated.map (·.moduleName)).Nodup)
    (hunseen : ∀ generated ∈ (Report.mk outcomes).generated,
      seen.lookup generated.moduleName = none) : refuseRepeated seen outcomes = outcomes := by
  fun_induction refuseRepeated seen outcomes with
  | case1 seen => rfl
  | case2 seen outcome outcomes error herror ih =>
    rw [generated_cons_of_error herror] at hnodup hunseen
    rw [ih hnodup hunseen]
  | case3 seen outcome outcomes generated hok first hfirst error ih =>
    rw [generated_cons_of_ok hok] at hunseen
    cases hfirst.symm.trans (hunseen generated List.mem_cons_self)
  | case4 seen outcome outcomes generated hok hnew ih =>
    rw [generated_cons_of_ok hok] at hnodup hunseen
    obtain ⟨hfresh, hnodup⟩ := List.nodup_cons.mp hnodup
    rw [ih hnodup]
    intro other hmem
    have hne : other.moduleName ≠ generated.moduleName := fun heq =>
      hfresh (List.mem_map.mpr ⟨other, hmem, heq⟩)
    rw [List.lookup_cons, beq_false_of_ne hne]
    exact hunseen other (List.mem_cons_of_mem _ hmem)

theorem wellNamed_of_mem_modulesAlone {inputs : List Input} {generated : Generated}
    (hmem : generated ∈ modulesAlone inputs) : generated.WellNamed := by
  obtain ⟨input, _, hok⟩ := List.mem_filterMap.mp hmem
  cases hresult : generate input with
  | error error =>
    rw [hresult] at hok
    cases hok
  | ok own =>
    rw [hresult] at hok
    obtain rfl := Option.some.inj hok
    exact wellNamed_of_generate hresult

/-- Refusing repeated modules removes some and renames none. -/
theorem wellNamed_of_mem_report {inputs : List Input} {generated : Generated}
    (hmem : generated ∈ (report inputs).generated) : generated.WellNamed := by
  have halone : generated ∈ modulesAlone inputs := by
    rw [← generated_ofInputs]
    exact (generated_refuseRepeated_sublist _ _).subset hmem
  exact wellNamed_of_mem_modulesAlone halone

section

variable {modules : List Generated} (hnames : ∀ generated ∈ modules, generated.WellNamed)

include hnames

/-- The declarations are read back as the modules in order, and none of them as a re-export. -/
theorem read_declarations (style : IndexStyle) :
    ((modules.flatMap (declaration style)).map String.toList).filterMap declaredModule? =
        modules.map (·.moduleName) ∧
      ((modules.flatMap (declaration style)).map String.toList).filterMap reexport? = [] := by
  induction modules with
  | nil => exact ⟨rfl, rfl⟩
  | cons generated modules ih =>
    rw [List.forall_mem_cons] at hnames
    obtain ⟨hdeclared, hnone⟩ := filterMap_declaration hnames.1.isItemName_moduleName style
    obtain ⟨hrest, hnone'⟩ := ih hnames.2
    rw [List.flatMap_cons, List.map_append, List.filterMap_append, List.filterMap_append, hdeclared,
      hrest, hnone, hnone']
    exact ⟨rfl, rfl⟩

/-- The re-exports are read back in order, and none of them as a declaration. -/
theorem read_reexports :
    ((modules.map reexport).map String.toList).filterMap declaredModule? = [] ∧
      ((modules.map reexport).map String.toList).filterMap reexport? =
        modules.map fun generated => (generated.moduleName, generated.typeName) := by
  rw [List.map_map, List.filterMap_map, List.filterMap_map, ← List.filterMap_eq_map]
  constructor
  · rw [List.filterMap_eq_nil_iff]
    intro generated _
    rw [Function.comp_apply, Function.comp_apply, toList_reexport]
    rfl
  · apply List.filterMap_congr
    intro generated hmem
    have hnamed := hnames generated hmem
    rw [Function.comp_apply, Function.comp_apply, toList_reexport,
      reexport?_line hnamed.isItemName_moduleName hnamed.isItemName_typeName (by decide)]
    rfl

/-- The index is read line by line, so none of its lines may hold a line break. -/
theorem newline_not_mem_index (style : IndexStyle) :
    ∀ line ∈ [Source.marker, ""] ++ modules.flatMap (declaration style) ++
      (if modules.isEmpty then [] else [""]) ++ modules.map reexport, '\n' ∉ line.toList := by
  intro line hline
  simp only [List.mem_append, List.mem_flatMap, List.mem_map] at hline
  obtain ((hhead | ⟨generated, hmem, hline⟩) | hblank) | ⟨generated, hmem, rfl⟩ := hline
  · revert line
    decide
  · exact newline_not_mem_declaration (hnames generated hmem).isItemName_moduleName style line hline
  · split at hblank
    · cases hblank
    · obtain rfl := List.mem_singleton.mp hblank
      decide
  · have hnamed := hnames generated hmem
    exact newline_not_mem_reexport hnamed.isItemName_moduleName hnamed.isItemName_typeName

end

/-- Sorting by prefix only rearranges the modules. -/
theorem indexed_perm (report : Report) : report.indexed.Perm report.generated :=
  List.mergeSort_perm _ _

/-- An index whose names are well formed declares its modules and gives their types away, both in
the order of the index. -/
theorem read_index {report : Report}
    (hnames : ∀ generated ∈ report.generated, generated.WellNamed) (style : IndexStyle) :
    declaredModules (report.index style) = report.indexed.map (·.moduleName) ∧
      reexports (report.index style) =
        report.indexed.map fun generated => (generated.moduleName, generated.typeName) := by
  have hindexed : ∀ generated ∈ report.indexed, generated.WellNamed :=
    fun generated hmem => hnames generated ((indexed_perm report).mem_iff.mp hmem)
  have hlines := Source.lines_unlines_eq_iff.mpr (newline_not_mem_index hindexed style)
  obtain ⟨hdeclared, hnone⟩ := read_declarations hindexed style
  obtain ⟨hnone', hreexported⟩ := read_reexports hindexed
  have hhead : ([Source.marker, ""].map String.toList).filterMap declaredModule? = [] ∧
      ([Source.marker, ""].map String.toList).filterMap reexport? = [] := by decide
  have hblank : ((if report.indexed.isEmpty then [] else [""]).map String.toList).filterMap
      declaredModule? = [] ∧ ((if report.indexed.isEmpty then [] else [""]).map
      String.toList).filterMap reexport? = [] := by
    split <;> decide
  rw [declaredModules, reexports, Report.index]
  simp only [hlines, List.map_append, List.filterMap_append, hdeclared, hnone, hnone', hreexported,
    hhead, hblank, List.nil_append, List.append_nil, and_self]

/-- No index declares a module twice, and none gives a type away under the name of a module that it
declares. It gives two types of one name away just when two modules have types of one name. -/
theorem index_names_apart (inputs : List Input) (style : IndexStyle) :
    (declaredModules ((report inputs).index style)).Nodup ∧
      ((reexports ((report inputs).index style)).map (·.2)).Disjoint
        (declaredModules ((report inputs).index style)) ∧
      (((reexports ((report inputs).index style)).map (·.2)).Nodup ↔
        ((report inputs).generated.map (·.typeName)).Nodup) := by
  have hnames : ∀ generated ∈ (report inputs).generated, generated.WellNamed :=
    fun generated => wellNamed_of_mem_report
  obtain ⟨hdeclared, hreexported⟩ := read_index hnames style
  have htypes : (reexports ((report inputs).index style)).map (·.2) =
      (report inputs).indexed.map (·.typeName) := by
    rw [hreexported, List.map_map]
    rfl
  have hperm := indexed_perm (report inputs)
  rw [hdeclared, htypes]
  refine ⟨?_, ?_, (hperm.map _).nodup_iff⟩
  · rw [(hperm.map _).nodup_iff]
    exact (names_of_refuseRepeated _ _).2
  · intro name htype hmodule
    obtain ⟨generated, hmem, rfl⟩ := List.mem_map.mp htype
    obtain ⟨other, hother, heq⟩ := List.mem_map.mp hmodule
    obtain ⟨_, serviceName, htypeName⟩ := hnames generated (hperm.mem_iff.mp hmem)
    obtain ⟨hmoduleName, _⟩ := hnames other (hperm.mem_iff.mp hother)
    refine Identifier.typeName_ne_moduleName serviceName other.servicePrefix ?_
    rw [← htypeName, ← hmoduleName, heq]

/-- The text of a catalog that has nothing but a prefix and a name. -/
def named (servicePrefix name : String) : String :=
  (Json.object [("servicePrefix", .string servicePrefix), ("name", .string name)]).compact

/-- Catalogs of two services under one name. -/
def namesakes : List Input :=
  [⟨"one", named "a" "Lamp"⟩, ⟨"two", named "b" "Lamp"⟩]

theorem reexports_namesakes_not_nodup :
    ¬ ((reexports ((report namesakes).index .beside)).map (·.2)).Nodup := by
  have hnames : ∀ generated ∈ (report namesakes).generated, generated.WellNamed :=
    fun generated => wellNamed_of_mem_report
  have htypes : ¬ ((report namesakes).generated.map (·.typeName)).Nodup := by decide +kernel
  rw [(read_index hnames .beside).2, List.map_map,
    ((indexed_perm (report namesakes)).map _).nodup_iff]
  exact htypes

/-- The modules of an index are sorted by their prefix, equal ones included. -/
theorem indexed_pairwise (report : Report) :
    report.indexed.Pairwise fun a b => a.servicePrefix ≤ b.servicePrefix :=
  Lists.pairwise_mergeSort_le Generated.servicePrefix report.generated

/-- Where the names of modules are different, so are the prefixes they come from, and the index has
them in strictly increasing order. -/
theorem indexed_pairwise_lt {report : Report}
    (hnames : ∀ generated ∈ report.generated, generated.WellNamed)
    (hdistinct : (report.generated.map (·.moduleName)).Nodup) :
    report.indexed.Pairwise fun a b => a.servicePrefix < b.servicePrefix := by
  have hperm := indexed_perm report
  have hnodup : report.indexed.Pairwise fun a b => a.moduleName ≠ b.moduleName :=
    List.pairwise_map.mp ((hperm.map _).nodup_iff.mpr hdistinct)
  refine ((indexed_pairwise report).and hnodup).imp_of_mem ?_
  rintro a b ha hb ⟨hle, hne⟩
  apply String.not_le.mp
  intro hge
  apply hne
  rw [(hnames a (hperm.mem_iff.mp ha)).1, (hnames b (hperm.mem_iff.mp hb)).1,
    String.le_antisymm hle hge]

/-- Two reports on the same modules, whatever their order, have the same index. -/
theorem index_eq_of_perm {report other : Report}
    (hnames : ∀ generated ∈ report.generated, generated.WellNamed)
    (hdistinct : (report.generated.map (·.moduleName)).Nodup)
    (hperm : other.generated.Perm report.generated) (style : IndexStyle) :
    other.index style = report.index style := by
  have hindexed : other.indexed = report.indexed := by
    have hnames' : ∀ generated ∈ other.generated, generated.WellNamed :=
      fun generated hmem => hnames generated (hperm.mem_iff.mp hmem)
    have hsame : other.indexed.Perm report.indexed :=
      (indexed_perm other).trans (hperm.trans (indexed_perm report).symm)
    refine hsame.eq_of_pairwise ?_
      (indexed_pairwise_lt hnames' ((hperm.map _).nodup_iff.mpr hdistinct))
      (indexed_pairwise_lt hnames hdistinct)
    intro a b _ _ hab hba
    exact absurd (String.lt_trans hab hba) (String.lt_irrefl _)
  rw [Report.index, Report.index, hindexed]

/-- Inputs whose modules all differ are reported as each stands alone. -/
theorem report_of_distinct {inputs : List Input}
    (hdistinct : ((modulesAlone inputs).map (·.moduleName)).Nodup) :
    report inputs = ⟨inputs.map Outcome.ofInput⟩ := by
  rw [report, refuseRepeated_of_nodup]
  · rwa [generated_ofInputs]
  · intro _ _
    rfl

/-- Catalogs whose modules have different names are all left as they are by themselves, in whatever
order they come, and the index does not depend on the order: it declares exactly their modules and
gives exactly their types away, once each, by the bytes of the prefixes in strictly increasing
order. -/
theorem index_order_irrelevant {inputs permuted : List Input}
    (hdistinct : ((modulesAlone inputs).map (·.moduleName)).Nodup)
    (hpermuted : permuted.Perm inputs) :
    (report inputs).outcomes = inputs.map Outcome.ofInput ∧
      (report permuted).outcomes = permuted.map Outcome.ofInput ∧
      ∀ style, (report permuted).index style = (report inputs).index style ∧
        ∃ modules : List Generated, modules.Perm (modulesAlone inputs) ∧
          (modules.Pairwise fun a b =>
            List.Lex (· < ·) (Text.bytes a.servicePrefix) (Text.bytes b.servicePrefix)) ∧
          declaredModules ((report inputs).index style) = modules.map (·.moduleName) ∧
          reexports ((report inputs).index style) =
            modules.map fun generated => (generated.moduleName, generated.typeName) := by
  have hmodules : (modulesAlone permuted).Perm (modulesAlone inputs) := hpermuted.filterMap _
  have hreport := report_of_distinct hdistinct
  have hreport' := report_of_distinct ((hmodules.map _).nodup_iff.mpr hdistinct)
  have hnames : ∀ generated ∈ (report inputs).generated, generated.WellNamed :=
    fun generated => wellNamed_of_mem_report
  have hgenerated : (report inputs).generated = modulesAlone inputs := by
    rw [hreport, generated_ofInputs]
  have hgenerated' : (report permuted).generated = modulesAlone permuted := by
    rw [hreport', generated_ofInputs]
  rw [← hgenerated] at hdistinct
  refine ⟨by rw [hreport], by rw [hreport'], ?_⟩
  intro style
  refine ⟨index_eq_of_perm hnames hdistinct (hgenerated' ▸ hgenerated ▸ hmodules) style,
    (report inputs).indexed, hgenerated ▸ indexed_perm _, ?_, read_index hnames style⟩
  exact (indexed_pairwise_lt hnames hdistinct).imp Text.bytes_lex_of_lt

/-- Catalogs of two services with modules of different names. -/
def neighbours : List Input :=
  [⟨"one", bare "widgets"⟩, ⟨"two", bare "s3"⟩]

theorem index_order_irrelevant_neighbours :
    ((modulesAlone neighbours).map (·.moduleName)).Nodup ∧
      (report neighbours.reverse).index .beside = (report neighbours).index .beside := by
  have hdistinct : ((modulesAlone neighbours).map (·.moduleName)).Nodup := by decide +kernel
  exact ⟨hdistinct,
    ((index_order_irrelevant hdistinct (List.reverse_perm neighbours)).2.2 .beside).1⟩

end PolicyForge.Batch
