import Mathlib.Data.List.Nodup
import PolicyForge.Proofs.FileTree.Directories

namespace PolicyForge.FileTree

variable {tree after : FileTree} {location : List Name} {names : List Name} {path : Path}
  {name : Name}

/-- The locations of a tree, in the order in which something was put at them first. -/
def locations (tree : FileTree) : List (List Name) :=
  tree.nodes.map (·.1)

/-- Nothing is at a location that is not listed, but for the top of the tree. -/
theorem node?_eq_none_iff :
    tree.node? location = none ↔ location ≠ [] ∧ location ∉ tree.locations := by
  unfold node? nodeAt
  split
  · rename_i hempty
    simp [List.isEmpty_iff.mp hempty]
  · rename_i hne
    rw [List.lookup_eq_none_iff, locations, List.mem_map]
    simp only [List.isEmpty_iff] at hne
    simp only [ne_eq, hne, not_false_eq_true, true_and, bne_iff_ne, not_exists, not_and]
    exact ⟨fun hall node hmem heq => hall node hmem heq.symm,
      fun hall node hmem heq => hall node hmem heq.symm⟩

/-- Another tree has the locations of a tree in their order, and behind them new ones, at which
nothing was. -/
def Grows (tree after : FileTree) : Prop :=
  ∃ more, after.locations = tree.locations ++ more ∧
    ∀ location ∈ more, tree.node? location = none

namespace Grows

theorem refl (tree : FileTree) : Grows tree tree :=
  ⟨[], (List.append_nil _).symm, fun _ hmem => absurd hmem List.not_mem_nil⟩

theorem trans {middle : FileTree} (hfirst : Grows tree middle) (hsecond : Grows middle after) :
    Grows tree after := by
  obtain ⟨more, hmiddle, hmore⟩ := hfirst
  obtain ⟨others, hafter, hothers⟩ := hsecond
  refine ⟨more ++ others, by rw [hafter, hmiddle, List.append_assoc], ?_⟩
  intro location hmem
  obtain hmem | hmem := List.mem_append.mp hmem
  · exact hmore location hmem
  · obtain ⟨hne, hnew⟩ := node?_eq_none_iff.mp (hothers location hmem)
    rw [hmiddle, List.mem_append, not_or] at hnew
    exact node?_eq_none_iff.mpr ⟨hne, hnew.1⟩

end Grows

/-- A node is put in its place in the list, or behind all others. -/
theorem grows_put (hfits : tree.Fits location) (node : Node) :
    Grows tree (tree.put location node hfits) := by
  have hlocations : (tree.put location node hfits).locations =
      Ordered.insert tree.locations location := Ordered.keys_update ..
  unfold Ordered.insert at hlocations
  split at hlocations
  · exact ⟨[], by rw [hlocations, List.append_nil], fun _ hmem => absurd hmem List.not_mem_nil⟩
  · rename_i hnew
    refine ⟨[location], hlocations, ?_⟩
    obtain ⟨parent, name, rfl, -, -⟩ := isPlaced_iff.mp hfits.1
    simp only [List.mem_singleton, forall_eq]
    exact node?_eq_none_iff.mpr ⟨by simp, by simpa using hnew⟩

/-- Directories that are created are listed behind what was there. -/
theorem createDirectories_grows (tree : FileTree) (path : Path) :
    Grows tree (tree.createDirectories path).1 := by
  unfold createDirectories
  split
  · exact .refl tree
  · split
    · exact .refl tree
    · apply makeDirectories_keeps _ (Grows.refl tree)
      intro own after names _ hok hgrows
      obtain ⟨-, ⟨hfits, rfl⟩, -⟩ := makeDirectory_eq_ok hok
      exact hgrows.trans (grows_put hfits _)

/-- The name of a location among the entries of a directory, if it is one. -/
def entryOf (directory location : List Name) : Option Name :=
  match location.getLast? with
  | some name => if location.dropLast == directory then some name else none
  | none => none

theorem entryOf_eq_some_iff {directory : List Name} :
    entryOf directory location = some name ↔ location = directory ++ [name] := by
  obtain rfl | ⟨front, last, rfl⟩ := List.eq_nil_or_concat' location
  · simp [entryOf]
  · simp [entryOf, List.append_singleton_inj]

/-- The entries of a directory are the locations one level below where its path leads, in the order
of the listing. -/
theorem entries_eq_ok_iff : tree.entries path = .ok names ↔
    (path.check = .ok () ∧ tree.leadsToDirectory (tree.start path) path.names = true) ∧
      names = tree.locations.filterMap (entryOf (landing (tree.start path) path.names)) := by
  simp only [entries, Failing.bind_eq_ok, locate_eq_ok_iff, enter_eq_ok_iff, leadsToDirectory_iff]
  constructor
  · rintro ⟨location, ⟨hcheck, hfollow, -⟩, _, hdirectory, heq⟩
    obtain ⟨rfl, -⟩ := follow_eq_ok_iff.mp hfollow
    refine ⟨⟨hcheck, hfollow, hdirectory⟩, ?_⟩
    rw [← Except.ok.inj heq, locations, List.filterMap_map]
    rfl
  · rintro ⟨⟨hcheck, hfollow, hdirectory⟩, rfl⟩
    refine ⟨_, ⟨hcheck, hfollow, fun _ => hdirectory⟩, (), hdirectory, ?_⟩
    rw [locations, List.filterMap_map]
    rfl

/-- The entries of a directory have names that lead to them. -/
theorem isEntry_of_mem_entries (hok : tree.entries path = .ok names) (hmem : name ∈ names) :
    name.isEntry = true := by
  obtain ⟨-, rfl⟩ := entries_eq_ok_iff.mp hok
  obtain ⟨location, hlocation, hentry⟩ := List.mem_filterMap.mp hmem
  obtain rfl := entryOf_eq_some_iff.mp hentry
  obtain ⟨_, _, heq, hname, -⟩ := isPlaced_iff.mp (tree.wellFormed.placed _ hlocation)
  obtain ⟨-, rfl⟩ := List.append_singleton_inj.mp heq
  exact hname

/-- A directory lists no entry twice. -/
theorem nodup_of_entries (hok : tree.entries path = .ok names) : names.Nodup := by
  obtain ⟨-, rfl⟩ := entries_eq_ok_iff.mp hok
  refine List.Nodup.filterMap ?_ tree.wellFormed.nodup
  intro location other name hlocation hother
  rw [entryOf_eq_some_iff.mp hlocation, entryOf_eq_some_iff.mp hother]

/-- In a tree that grew, a directory has its entries in their order, and new ones behind them. -/
theorem entries_of_grows (hkeeps : KeepsDirectories tree after) (hgrows : Grows tree after)
    (hok : tree.entries path = .ok names) :
    ∃ more, after.entries path = .ok (names ++ more) ∧ ∀ name ∈ more,
      tree.node? (tree.entryLocation path name) = none := by
  obtain ⟨⟨hcheck, hleads⟩, rfl⟩ := entries_eq_ok_iff.mp hok
  obtain ⟨more, hafter, hmore⟩ := hgrows
  refine ⟨more.filterMap (entryOf (landing (tree.start path) path.names)), ?_, ?_⟩
  · rw [entries_eq_ok_iff, hkeeps.start, hafter, List.filterMap_append]
    exact ⟨⟨hcheck, hkeeps.leadsToDirectory hleads⟩, rfl⟩
  · intro name hmem
    obtain ⟨location, hlocation, hentry⟩ := List.mem_filterMap.mp hmem
    obtain rfl := entryOf_eq_some_iff.mp hentry
    exact hmore _ hlocation

theorem isFile_iff : tree.isFile path = true ↔
    ∃ location contents, tree.locate path = .ok location ∧
      tree.node? location = some (.file contents) := by
  unfold isFile find
  cases hlocate : tree.locate path with
  | error fault => simp [bind, Except.bind]
  | ok location =>
    cases hnode : tree.node? location with
    | none => simp [bind, Except.bind, hnode]
    | some node => cases node <;> simp [bind, Except.bind, hnode]

/-- The path of an entry leads to a file where the entry is one. -/
theorem isFile_join_iff (hentry : name.isEntry = true) :
    tree.isFile (path.join name) = true ↔ (path.join name).check = .ok () ∧
      tree.leadsToDirectory (tree.start path) path.names = true ∧ checkName name = .ok () ∧
      ∃ contents, tree.node? (tree.entryLocation path name) = some (.file contents) := by
  simp only [isFile_iff, locate_join_eq_ok_iff hentry]
  constructor
  · rintro ⟨location, contents, ⟨hcheck, hleads, hshort, rfl⟩, hfile⟩
    exact ⟨hcheck, hleads, hshort, contents, hfile⟩
  · rintro ⟨hcheck, hleads, hshort, contents, hfile⟩
    exact ⟨_, contents, ⟨hcheck, hleads, hshort, rfl⟩, hfile⟩

end PolicyForge.FileTree
