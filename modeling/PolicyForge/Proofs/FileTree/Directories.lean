import PolicyForge.Proofs.FileTree.Lookup

namespace PolicyForge.FileTree

variable {tree after : FileTree} {location : List Name} {names : List Name}
  {place : List Name → Prop}

/-- Nothing of a tree is different in another one, and what is new in it are directories at places
of the given kind. -/
structure Adds (place : List Name → Prop) (tree after : FileTree) : Prop where
  current : after.current = tree.current
  node? : ∀ location, after.node? location = tree.node? location ∨
    tree.node? location = none ∧ after.node? location = some .directory ∧ place location

namespace Adds

theorem refl (place : List Name → Prop) (tree : FileTree) : Adds place tree tree :=
  ⟨rfl, fun _ => .inl rfl⟩

theorem trans {middle : FileTree} (hfirst : Adds place tree middle)
    (hsecond : Adds place middle after) : Adds place tree after := by
  refine ⟨hsecond.current.trans hfirst.current, fun location => ?_⟩
  obtain hsame | ⟨hnone, hdirectory, hplace⟩ := hsecond.node? location
  · rw [hsame]
    exact hfirst.node? location
  · obtain hsame | ⟨_, hthere, _⟩ := hfirst.node? location
    · exact .inr ⟨hsame ▸ hnone, hdirectory, hplace⟩
    · cases hthere.symm.trans hnone

theorem kept {node : Node} (hadds : Adds place tree after) (hnode : tree.node? location = some node) :
    after.node? location = some node := by
  obtain hsame | ⟨hnone, -, -⟩ := hadds.node? location
  · rw [hsame, hnode]
  · cases hnone.symm.trans hnode

theorem keepsDirectories (hadds : Adds place tree after) : KeepsDirectories tree after :=
  ⟨hadds.current, fun _ hdirectory => hadds.kept hdirectory⟩

/-- No file is new. -/
theorem file_of_file {contents : ByteArray} (hadds : Adds place tree after)
    (hfile : after.node? location = some (.file contents)) :
    tree.node? location = some (.file contents) := by
  obtain hsame | ⟨-, hdirectory, -⟩ := hadds.node? location
  · rw [← hsame, hfile]
  · cases hdirectory.symm.trans hfile

end Adds

/-- A directory that is created is an entry of one that is there, and nothing was in its place. -/
theorem makeDirectory_eq_ok (hok : tree.makeDirectory location names = .ok after) :
    tree.node? (landing location names) = none ∧
      (∃ hfits, after = tree.put (landing location names) .directory hfits) ∧
      tree.follow location names = .ok (landing location names) := by
  unfold makeDirectory at hok
  obtain ⟨parent, hfollow, hok⟩ := Failing.bind_eq_ok.mp hok
  obtain ⟨_, henter, hok⟩ := Failing.bind_eq_ok.mp hok
  obtain ⟨rfl, -⟩ := follow_eq_ok_iff.mp hfollow
  split at hok
  · cases hok
  · rename_i name hlast
    obtain ⟨front, rfl⟩ := List.getLast?_eq_some_iff.mp hlast
    rw [List.dropLast_concat] at hfollow henter hok
    obtain ⟨_, hname, hok⟩ := Failing.bind_eq_ok.mp hok
    dsimp only at hok
    split at hok
    · rename_i hfree
      obtain ⟨_, _, heq, hentry, -⟩ := isPlaced_iff.mp hfree.2.1
      obtain ⟨-, rfl⟩ := List.append_singleton_inj.mp heq
      have hland : landing location (front ++ [name]) = landing location front ++ [name] := by
        rw [landing_concat, move_of_isEntry hentry]
      rw [follow_concat_eq_ok_iff, hland, move_of_isEntry hentry]
      exact ⟨hfree.1, ⟨hfree.2, (Except.ok.inj hok).symm⟩, rfl, hfollow, enter_eq_ok_iff.mp henter,
        hname⟩
    · cases hok

/-- A directory that is created is all that is new. -/
theorem adds_of_makeDirectory (hok : tree.makeDirectory location names = .ok after)
    (hplace : place (landing location names)) : Adds place tree after := by
  obtain ⟨hnone, ⟨hfits, rfl⟩, -⟩ := makeDirectory_eq_ok hok
  refine ⟨rfl, fun other => ?_⟩
  by_cases heq : other = landing location names
  · subst heq
    exact .inr ⟨hnone, node?_put_self hfits .directory, hplace⟩
  · exact .inl (node?_put_of_ne hfits heq .directory)

/-- A directory that was just made can be reached by the names it was made from. -/
theorem leadsToDirectory_of_makeDirectory (hok : tree.makeDirectory location names = .ok after) :
    after.leadsToDirectory location names = true := by
  have hadds : Adds (fun _ => True) tree after := adds_of_makeDirectory hok trivial
  obtain ⟨hnone, ⟨hfits, rfl⟩, hfollow⟩ := makeDirectory_eq_ok hok
  exact leadsToDirectory_iff.mpr
    ⟨hadds.keepsDirectories.follow hfollow, node?_put_self hfits .directory⟩

/-- A directory that is there is not created again. -/
theorem makeDirectory_of_leadsToDirectory (hleads : tree.leadsToDirectory location names = true) :
    tree.makeDirectory location names = .error .exists := by
  obtain ⟨hfollow, hnode⟩ := leadsToDirectory_iff.mp hleads
  obtain rfl | ⟨front, name, rfl⟩ := List.eq_nil_or_concat' names
  · have henter : tree.enter location = .ok () := enter_eq_ok_iff.mpr hnode
    simp [makeDirectory, follow, henter, bind, Except.bind]
  · obtain ⟨-, hfront, hdirectory, hname⟩ := follow_concat_eq_ok_iff.mp hfollow
    have henter : tree.enter (landing location front) = .ok () := enter_eq_ok_iff.mpr hdirectory
    simp only [makeDirectory, List.dropLast_concat, List.getLast?_concat, hfront, henter, hname, bind,
      Except.bind]
    rw [dif_neg]
    rintro ⟨hnone, hfits⟩
    obtain ⟨_, _, heq, hentry, -⟩ := isPlaced_iff.mp hfits.1
    obtain ⟨-, rfl⟩ := List.append_singleton_inj.mp heq
    rw [landing_concat, move_of_isEntry hentry, hnone] at hnode
    cases hnode

/-- What creating one directory keeps, creating a directory and those above it keeps. -/
theorem makeDirectories_keeps {P : FileTree → Prop} {lists : List (List Name)}
    (hstep : ∀ tree after names, names ∈ lists → tree.makeDirectory location names = .ok after →
      P tree → P after) (htree : P tree) : P (tree.makeDirectories location lists).1 := by
  induction lists generalizing tree with
  | nil => exact htree
  | cons names above ih =>
    have hown := fun tree after => hstep tree after names List.mem_cons_self
    have hrest := ih (fun tree after names hmem => hstep tree after names (.tail _ hmem)) htree
    rw [makeDirectories]
    dsimp only
    split
    · rename_i hok
      exact hown _ _ hok htree
    · split
      · rename_i heq
        rwa [heq] at hrest
      · rename_i heq
        rw [heq] at hrest
        split
        · rename_i hok
          exact hown _ _ hok hrest
        · exact hrest
    · exact htree

/-- When the whole list of directories goes through, its first one can be reached. -/
theorem makeDirectories_leads {above : List (List Name)}
    (hok : tree.makeDirectories location (names :: above) = (after, .ok ())) :
    after.leadsToDirectory location names = true := by
  have hsettled : ∀ {tree : FileTree} {fault : Fault},
      (tree, if tree.leadsToDirectory location names then .ok () else .error fault) =
        ((after, .ok ()) : FileTree × Except Fault Unit) →
      after.leadsToDirectory location names = true := by
    intro tree fault hsettle
    obtain ⟨rfl, hresult⟩ := Prod.mk.inj hsettle
    split at hresult
    · assumption
    · cases hresult
  rw [makeDirectories] at hok
  dsimp only at hok
  split at hok
  · rename_i hmade
    obtain ⟨rfl, -⟩ := Prod.mk.inj hok
    exact leadsToDirectory_of_makeDirectory hmade
  · split at hok
    · cases hok
    · split at hok
      · rename_i hmade
        obtain ⟨rfl, -⟩ := Prod.mk.inj hok
        exact leadsToDirectory_of_makeDirectory hmade
      · exact hsettled hok
  · exact hsettled hok

theorem makeDirectories_of_leads {above : List (List Name)}
    (hleads : tree.leadsToDirectory location names = true) :
    tree.makeDirectories location (names :: above) = (tree, .ok ()) := by
  rw [makeDirectories, makeDirectory_of_leadsToDirectory hleads]
  dsimp only
  rw [if_pos hleads]

/-- The locations on the way of a path, the last one included. -/
def OnWay (tree : FileTree) (path : Path) (location : List Name) : Prop :=
  ∃ before, before <+: path.names ∧ location = landing (tree.start path) before

/-- Names that are a dot lead nowhere. -/
theorem landing_filter_dots (location : List Name) (names : List Name) :
    landing location (names.filter (· != ("." : Name))) = landing location names := by
  induction names generalizing location with
  | nil => rfl
  | cons name names ih =>
    by_cases hdot : name = "."
    · subst hdot
      exact ih location
    · rw [List.filter_cons_of_pos (by simpa using hdot)]
      exact ih (move location name)

/-- The names in front of which dots are left out lead on the way as well. -/
theorem exists_prefix_of_mem_namesAbove {above : List Name} (habove : above ∈ namesAbove names)
    (location : List Name) :
    ∃ before, before <+: names ∧ landing location above = landing location before := by
  simp only [namesAbove, List.mem_map] at habove
  obtain ⟨count, -, rfl⟩ := habove
  cases names with
  | nil => exact ⟨[], List.nil_prefix, by simp⟩
  | cons first names =>
    cases count with
    | zero => exact ⟨[], List.nil_prefix, rfl⟩
    | succ count =>
      obtain ⟨before, hbefore, heq⟩ := List.prefix_filter_iff.mp
        (List.take_prefix count (names.filter (· != ("." : Name))))
      refine ⟨first :: before, List.cons_prefix_cons.mpr ⟨rfl, hbefore⟩, ?_⟩
      change landing (move location first) ((names.filter (· != ("." : Name))).take count) =
        landing (move location first) before
      rw [heq, landing_filter_dots]

/-- Creating a directory adds directories on its way and changes nothing else, even when it fails in
between. -/
theorem createDirectories_adds (tree : FileTree) (path : Path) :
    Adds (OnWay tree path) tree (tree.createDirectories path).1 := by
  unfold createDirectories
  split
  · exact .refl _ tree
  · split
    · exact .refl _ tree
    · apply makeDirectories_keeps _ (Adds.refl _ tree)
      intro own after names hmem hok hadds
      refine hadds.trans (adds_of_makeDirectory hok ?_)
      obtain rfl | habove := List.mem_cons.mp hmem
      · exact ⟨path.names, List.prefix_rfl, rfl⟩
      · exact exists_prefix_of_mem_namesAbove habove (tree.start path)

/-- Creating a directory that is there leaves the tree as it is. -/
theorem createDirectories_of_leads {path : Path} (hcheck : path.check = .ok ())
    (hleads : tree.leadsToDirectory (tree.start path) path.names = true) :
    tree.createDirectories path = (tree, .ok ()) := by
  unfold createDirectories
  split
  · rfl
  · rw [hcheck]
    exact makeDirectories_of_leads hleads

/-- Once the directory was created, it is there to stay as long as directories are kept. -/
theorem createDirectories_again {path : Path} (hok : tree.createDirectories path = (after, .ok ()))
    {later : FileTree} (hkeeps : KeepsDirectories after later) :
    later.createDirectories path = (later, .ok ()) := by
  have hadds := createDirectories_adds tree path
  rw [hok] at hadds
  unfold createDirectories at hok
  split at hok
  · rename_i hempty
    exact if_pos hempty
  · split at hok
    · cases hok
    · rename_i hcheck
      apply createDirectories_of_leads hcheck
      rw [hkeeps.start, hadds.keepsDirectories.start]
      exact hkeeps.leadsToDirectory (makeDirectories_leads hok)

end PolicyForge.FileTree
