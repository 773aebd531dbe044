import PolicyForge.Proofs.Service.Calls
import PolicyForge.Proofs.Service.References
import PolicyForge.Proofs.Source.Tables
import PolicyForge.Proofs.Text.Blank

namespace PolicyForge

namespace Source

/-- The lines of the table of actions by access level. -/
def levelTable (groups : List (AccessLevel × List String)) : List String :=
  enclose ("const ACCESS_LEVEL_LIST: " ++
      "&'static [(runtime::AccessLevel, &'static [&'static str])] = &[")
    (groups.map fun (level, names) => levelEntry level names) "];"

/-- The text of the table as it stands inside a type. -/
def levelTableText (groups : List (AccessLevel × List String)) : String :=
  unlines (indent (levelTable groups))

theorem comma_not_mem_levelName (level : AccessLevel) : ',' ∉ (levelName level).toList := by
  cases level <;> decide

theorem levelEntry_inj {level other : AccessLevel} {names names' : List String}
    (heq : levelEntry level names = levelEntry other names') : level = other ∧ names = names' := by
  have hshape : ∀ level names, levelEntry level names = "(" ++ ("runtime::AccessLevel::" ++
      (levelName level ++ (", " ++ (Literal.slice names ++ "),")))) := by
    intro level names
    unfold levelEntry levelPath
    simp only [String.append_assoc]
  rw [hshape, hshape, String.append_right_inj, String.append_right_inj] at heq
  have hchars := congrArg String.toList heq
  simp only [String.toList_append] at hchars
  obtain ⟨hlevel, hbehind⟩ := Lists.append_cons_inj (comma_not_mem_levelName level)
    (comma_not_mem_levelName other) hchars
  obtain ⟨hnames, -⟩ := Literal.slice_append_inj (List.cons.inj hbehind).2
  exact ⟨levelName_injective (String.toList_injective hlevel), hnames⟩

/-- The text of a table tells its groups. -/
theorem levelTableText_injective : Function.Injective levelTableText := by
  have hunbroken : ∀ groups, Unbroken (indent (levelTable groups)) := by
    intro groups
    refine unbroken_indent.mpr (unbroken_enclose.mpr ⟨by decide, ?_, by decide⟩)
    exact unbroken_map groups newline_not_mem_levelEntry
  have hcloses : Closes "];" := ⟨by decide, by decide⟩
  intro groups others heq
  have hlines := unlines_inj (hunbroken groups) (hunbroken others) heq
  have htable := List.map_injective_iff.mpr indentLine_injective hlines
  obtain ⟨-, hentries, -⟩ := hcloses.enclose_append_inj (congrArg (· ++ []) htable)
  apply List.map_injective_iff.mpr _ hentries
  rintro ⟨level, names⟩ ⟨other, names'⟩ hentry
  obtain ⟨rfl, rfl⟩ := levelEntry_inj hentry
  rfl

theorem unlines_infix {lines others : List String} (hinside : lines <:+: others) :
    (unlines lines).toList <:+: (unlines others).toList := by
  obtain ⟨before, after, rfl⟩ := hinside
  rw [unlines_append, unlines_append, String.toList_append, String.toList_append]
  exact List.infix_append _ _ _

/-- The module of a service has the table of its actions by access level. -/
theorem levelTableText_infix_of_render {service : Service} {naming : Naming} {source : String}
    (hok : render service naming = .ok source) :
    (levelTableText service.accessLevels).toList <:+: source.toList := by
  have htable : indent (levelTable service.accessLevels) <:+: tables service naming.typeName := by
    have hmore : ∀ {lines others : List String} (more : List String), lines <:+: others →
        lines <:+: others ++ more :=
      fun more hinside => hinside.trans (List.prefix_append _ more).isInfix
    apply indent_infix_enclose
    iterate 6 apply hmore
    exact (List.suffix_append _ _).isInfix
  obtain ⟨before, after, rfl⟩ := exists_tablesText_of_render hok
  have htext := unlines_infix (htable.trans (List.prefix_append _ [""]).isInfix)
  rw [String.toList_append, String.toList_append]
  exact htext.trans (List.infix_append _ _ _)

end Source

/-- Additions of actions put in those that are missing. -/
theorem Statement.run_addActions (statement : Statement) (names : List String) :
    statement.run (names.map .addAction) =
      { statement with actions := Ordered.insertAll statement.actions names } := by
  induction names generalizing statement with
  | nil => rfl
  | cons name names ih =>
    have hstep : statement.run ((name :: names).map .addAction) =
        (statement.addAction name).run (names.map .addAction) := rfl
    rw [hstep, ih]
    rfl

namespace Service

/-- Names of actions in groups: for every level that occurs one group, in the order in which the
levels first occur, and in the group the names of all actions of the level, in the order of the
actions. -/
structure GroupsByLevel (actions : List Action) (groups : List (AccessLevel × List String)) :
    Prop where
  levels : Ordered.FirstOccurrences (fun _ => True) (actions.map (·.accessLevel)) (groups.map (·.1))
  names : ∀ group ∈ groups, group.2 = (actions.filter (·.accessLevel == group.1)).map (·.name)
  nonempty : ∀ group ∈ groups, group.2 ≠ []
  placed : ∀ action ∈ actions, ∃! group, group ∈ groups ∧ group.1 = action.accessLevel
  perm : (groups.flatMap (·.2)).Perm (actions.map (·.name))

section

variable (service : Service)

/-- The grouped table is the actions put under their levels in order. -/
theorem accessLevels_eq_grouped : service.accessLevels =
    Ordered.grouped (service.actions.map fun action => (action.accessLevel, action.name)) := by
  simp only [accessLevels, Ordered.grouped, List.map_map, List.filter_map]
  rfl

/-- The groups are what putting the actions in one after the other leads to. -/
theorem accessLevels_eq_foldl : service.accessLevels =
    service.actions.foldl
      (fun groups action => Ordered.update action.accessLevel [] (· ++ [action.name]) groups) [] := by
  have hnames : ∀ names : List String, names.foldl (fun names name => names ++ [name]) [] = names := by
    intro names
    induction names using List.reverseRecOn with
    | nil => rfl
    | append_singleton names name ih => simp [ih]
  have hfold := Ordered.foldl_update_nil (fun names name => names ++ [name]) []
    (service.actions.map fun action => (action.accessLevel, action.name))
  rw [List.foldl_map, Ordered.folded] at hfold
  simp only [hnames] at hfold
  rw [hfold, accessLevels_eq_grouped]
  simp

/-- The groups of the table are the actions by level, in the order in which levels and names first
come up. -/
theorem groupsByLevel_accessLevels : GroupsByLevel service.actions service.accessLevels := by
  have hlevels : service.accessLevels.map (·.1) =
      (service.actions.map (·.accessLevel)).eraseDups := by
    rw [accessLevels_eq_grouped, Ordered.keys_grouped, List.map_map]
    rfl
  have hnodup : (service.accessLevels.map (·.1)).Nodup := hlevels ▸ Ordered.nodup_eraseDups _
  constructor
  · have hfirst := Ordered.firstOccurrences_eraseDups (p := fun _ => True) (q := fun _ => true)
      (fun _ => iff_of_true rfl trivial) (service.actions.map (·.accessLevel))
    rwa [List.filter_true, ← hlevels] at hfirst
  · intro group hgroup
    obtain ⟨level, -, rfl⟩ := List.mem_map.mp hgroup
    rfl
  · intro group hgroup
    rw [accessLevels_eq_grouped] at hgroup
    exact Ordered.ne_nil_of_mem_grouped hgroup
  · intro action haction
    have hlevel : action.accessLevel ∈ service.accessLevels.map (·.1) := by
      rw [hlevels, List.mem_eraseDups]
      exact List.mem_map_of_mem haction
    obtain ⟨group, hgroup, hown⟩ := List.mem_map.mp hlevel
    refine ⟨group, ⟨hgroup, hown⟩, ?_⟩
    rintro other ⟨hother, hsame⟩
    exact List.inj_on_of_nodup_map hnodup hother hgroup (hsame.trans hown.symm)
  · rw [accessLevels_eq_grouped]
    have hperm := Ordered.flatMap_grouped_perm
      (service.actions.map fun action => (action.accessLevel, action.name))
    rwa [List.map_map] at hperm

end

section

variable {record : Catalog.Record} {service : Service}

/-- Two actions of an accepted catalog never have the same name. -/
theorem nodup_names_of_ofRecord (hok : ofRecord record = .ok service) :
    (service.actions.map (·.name)).Nodup := by
  have hdistinct := (closed_of_ofRecord hok).actionsDistinct
  have hcased : service.actions.map (·.name.toLower) =
      (service.actions.map (·.name)).map String.toLower := by
    rw [List.map_map]
    rfl
  exact List.Nodup.of_map _ (hcased ▸ hdistinct)

/-- The name of an action stands in one group alone. -/
theorem existsUnique_group_of_ofRecord (hok : ofRecord record = .ok service) {action : Action}
    (haction : action ∈ service.actions) :
    ∃! group, group ∈ service.accessLevels ∧ action.name ∈ group.2 := by
  have hgroups := groupsByLevel_accessLevels service
  obtain ⟨group, ⟨hgroup, hlevel⟩, honly⟩ := hgroups.placed action haction
  have hnames := hgroups.names group hgroup
  refine ⟨group, ⟨hgroup, ?_⟩, ?_⟩
  · rw [hnames]
    exact List.mem_map_of_mem (List.mem_filter.mpr ⟨haction, by simp [hlevel]⟩)
  · rintro other ⟨hother, hname⟩
    rw [hgroups.names other hother] at hname
    obtain ⟨found, hfound, hsame⟩ := List.mem_map.mp hname
    obtain ⟨hfound, hown⟩ := List.mem_filter.mp hfound
    have hown : found.accessLevel = other.1 := by simpa using hown
    have heq : found = action :=
      List.inj_on_of_nodup_map (nodup_names_of_ofRecord hok) hfound haction hsame
    subst heq
    exact honly other ⟨hother, hown.symm⟩

/-- The method for the actions of a level puts those that are missing behind the actions that are
there, in the order of the service. -/
theorem call?_allActionsOfLevel (hok : ofRecord record = .ok service) (statement : Statement)
    (level : AccessLevel) :
    service.provider.call? statement (.allActionsOfLevel level) = some { statement with
      actions := statement.actions ++
        ((service.actions.filter (·.accessLevel == level)).map (service.qualified ·.name)).filter
          fun name => !statement.actions.contains name } := by
  have hnodup : ((service.actions.filter (·.accessLevel == level)).map
      (service.qualified ·.name)).Nodup := by
    have hnames := (List.filter_sublist (p := (·.accessLevel == level))
      (l := service.actions)).map (·.name) |>.nodup (nodup_names_of_ofRecord hok)
    have hqualified : Function.Injective service.qualified := by
      intro name other heq
      exact (String.append_right_inj _).mp heq
    have hboth := hnames.map hqualified
    rwa [List.map_map] at hboth
  have hfits : Provider.Call.Fits service (.allActionsOfLevel level) := trivial
  have hsteps := Provider.steps?_eq_changes hok hfits statement
  rw [Provider.call?, hsteps]
  rw [← Ordered.insertAll_of_nodup _ hnodup, ← Statement.run_addActions, List.map_map]
  rfl

/-- A stable partition that the method follows. The groups of any service are what putting its
actions in one after the other leads to, and they part the actions by level in their order. A module
of the service has the table of the groups, which is the table of no others. In an accepted service
no name stands in two groups, and the method for the actions of a level puts those of the level that
are missing, in their order, behind the actions that a statement has, and changes nothing else. -/
theorem accessLevels_partition (service : Service) :
    service.accessLevels = service.actions.foldl
      (fun groups action => Ordered.update action.accessLevel [] (· ++ [action.name]) groups) [] ∧
    GroupsByLevel service.actions service.accessLevels ∧
    (∀ naming source, Source.render service naming = .ok source →
      (Source.levelTableText service.accessLevels).toList <:+: source.toList ∧
      ∀ groups, Source.levelTableText groups = Source.levelTableText service.accessLevels →
        groups = service.accessLevels) ∧
    ∀ record, ofRecord record = .ok service →
      (∀ action ∈ service.actions,
        ∃! group, group ∈ service.accessLevels ∧ action.name ∈ group.2) ∧
      ∀ statement level,
        service.provider.call? statement (.allActionsOfLevel level) = some { statement with
          actions := statement.actions ++
            ((service.actions.filter (·.accessLevel == level)).map
              (service.qualified ·.name)).filter fun name => !statement.actions.contains name } := by
  refine ⟨accessLevels_eq_foldl service, groupsByLevel_accessLevels service, ?_, ?_⟩
  · intro _ _ hsource
    exact ⟨Source.levelTableText_infix_of_render hsource,
      fun _ heq => Source.levelTableText_injective heq⟩
  · intro _ hok
    exact ⟨fun _ => existsUnique_group_of_ofRecord hok, call?_allActionsOfLevel hok⟩

/-- A record whose actions of two levels stand between each other. -/
def lamps : Catalog.Record where
  name := "Lamps"
  servicePrefix := "lamps"
  actions :=
    [{ name := "Dim", accessLevel := "Write" },
      { name := "Describe", accessLevel := "Read" },
      { name := "Light", accessLevel := "write" }]

/-- The service that the record describes. -/
def lampsService : Service where
  name := "Lamps"
  servicePrefix := "lamps"
  url := ""
  actions :=
    [⟨"Dim", "", "", .write, [], [], []⟩, ⟨"Describe", "", "", .read, [], [], []⟩,
      ⟨"Light", "", "", .write, [], [], []⟩]
  resourceTypes := []
  conditionKeys := []

theorem accessLevels_partition_lamps :
    ofRecord lamps = .ok lampsService ∧
      lampsService.accessLevels = [(.write, ["Dim", "Light"]), (.read, ["Describe"])] ∧
      lampsService.provider.call? { actions := ["lamps:Light", "s3:Get"] }
          (.allActionsOfLevel .write) =
        some { actions := ["lamps:Light", "s3:Get", "lamps:Dim"] } := by
  have hok : ofRecord lamps = .ok lampsService := by
    unfold ofRecord checkInOrder
    delta checkAction AccessLevel.ofLabel?
    -- Small letters are compared as lists, which are quicker to evaluate.
    simp only [Text.toLower_beq, Text.trim, String.toList_ofList, Text.isEmpty_ofList]
    decide +kernel
  obtain ⟨hfold, -, -, haccepted⟩ := accessLevels_partition lampsService
  refine ⟨hok, hfold.trans (by decide), ?_⟩
  rw [(haccepted lamps hok).2]
  decide

end

end Service

end PolicyForge
