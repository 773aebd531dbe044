import Mathlib.Data.List.Nodup
import PolicyForge.Proofs.FileTree.Entries

namespace PolicyForge.FileTree

open Failing (Agree)

variable {tree after : FileTree} {location : List Name} {names : List Name} {path : Path}

/-- Another tree holds what a tree holds, and lists it in an order of its own. -/
structure Relisted (tree after : FileTree) : Prop where
  current : after.current = tree.current
  perm : after.nodes.Perm tree.nodes

/-- Steps on two trees that leave trees which hold the same, with the same result. -/
inductive Alike {α : Type} : FileTree × α → FileTree × α → Prop where
  | intro {own other : FileTree} (hrelisted : Relisted own other) (result : α) :
      Alike (own, result) (other, result)

theorem Alike.relisted {α : Type} {run run' : FileTree × α} (halike : Alike run run') :
    Relisted run.1 run'.1 := by
  obtain ⟨hrelisted, -⟩ := halike
  exact hrelisted

theorem Alike.result_eq {α : Type} {run run' : FileTree × α} (halike : Alike run run') :
    run'.2 = run.2 := by
  obtain ⟨-, -⟩ := halike
  rfl

/-- Looking a location up does not depend on the order of the nodes, as no location stands twice. -/
theorem nodeAt_eq_of_perm {nodes others : List (List Name × Node)} (hperm : others.Perm nodes)
    (hnodup : (nodes.map (·.1)).Nodup) (location : List Name) :
    nodeAt others location = nodeAt nodes location := by
  rw [nodeAt, nodeAt, Ordered.lookup_eq_of_perm hperm hnodup]

/-- The order of the nodes does not matter to whether they make a tree. -/
theorem WellFormed.perm {nodes others : List (List Name × Node)} (hnodes : WellFormed nodes)
    (hperm : others.Perm nodes) : WellFormed others := by
  refine ⟨(hperm.map _).nodup_iff.mpr hnodes.nodup, fun location hmem => ?_⟩
  obtain ⟨parent, name, rfl, hentry, hparent⟩ :=
    isPlaced_iff.mp (hnodes.placed location ((hperm.map _).mem_iff.mp hmem))
  refine isPlaced_iff.mpr ⟨parent, name, rfl, hentry, ?_⟩
  rw [nodeAt_eq_of_perm hperm hnodes.nodup, hparent]

namespace Relisted

section

variable (hrelisted : Relisted tree after)

include hrelisted

/-- Every other lookup on a tree rests on this one. -/
theorem node? (location : List Name) : after.node? location = tree.node? location :=
  nodeAt_eq_of_perm hrelisted.perm tree.wellFormed.nodup location

theorem enter (location : List Name) : after.enter location = tree.enter location := by
  rw [FileTree.enter, FileTree.enter, hrelisted.node?]

theorem follow (location names : List Name) :
    after.follow location names = tree.follow location names := by
  induction names generalizing location with
  | nil => rfl
  | cons name names ih => simp only [follow_cons, hrelisted.enter, ih]

theorem start (path : Path) : after.start path = tree.start path := by
  rw [FileTree.start, FileTree.start, hrelisted.current]

theorem locate (path : Path) : after.locate path = tree.locate path := by
  simp only [FileTree.locate, hrelisted.start, hrelisted.follow, hrelisted.enter]

theorem find (path : Path) : after.find path = tree.find path := by
  simp only [FileTree.find, hrelisted.locate, hrelisted.node?]

theorem isFile (path : Path) : after.isFile path = tree.isFile path := by
  rw [FileTree.isFile, FileTree.isFile, hrelisted.find]

theorem readText (path : Path) : after.readText path = tree.readText path := by
  rw [FileTree.readText, FileTree.readText, hrelisted.find]

theorem leadsToDirectory (location names : List Name) :
    after.leadsToDirectory location names = tree.leadsToDirectory location names := by
  simp only [FileTree.leadsToDirectory, hrelisted.follow, hrelisted.node?]

/-- Directories have the same entries, in any order. -/
theorem entries (path : Path) : Agree List.Perm (after.entries path) (tree.entries path) := by
  rw [FileTree.entries, FileTree.entries, hrelisted.locate]
  cases tree.locate path with
  | error fault => exact .error fault
  | ok location =>
    simp only [bind, Except.bind, hrelisted.enter]
    cases tree.enter location with
    | error fault => exact .error fault
    | ok _ => exact .ok (hrelisted.perm.filterMap _)

/-- Whether a node may be put at a location does not depend on the listing. -/
theorem fits (location : List Name) : after.Fits location ↔ tree.Fits location := by
  have hnode : ∀ own, nodeAt after.nodes own = nodeAt tree.nodes own := hrelisted.node?
  simp only [Fits, isPlaced_iff, hnode, hrelisted.node?]

theorem put {location : List Name} (hfits : tree.Fits location) (hfits' : after.Fits location)
    (node : Node) : Relisted (tree.put location node hfits) (after.put location node hfits') :=
  ⟨hrelisted.current,
    Ordered.update_perm_update hrelisted.perm tree.wellFormed.nodup location node⟩

/-- A write goes through on both trees or fails on both with the same fault. -/
theorem writeText (path : Path) (text : String) :
    Agree Relisted (tree.writeText path text) (after.writeText path text) := by
  rw [FileTree.writeText, FileTree.writeText, hrelisted.locate]
  cases tree.locate path with
  | error fault => exact .error fault
  | ok location =>
    simp only [bind, Except.bind, hrelisted.fits]
    split
    · exact .ok (hrelisted.put _ _ _)
    · exact .error _

theorem makeDirectory (location names : List Name) :
    Agree Relisted (tree.makeDirectory location names) (after.makeDirectory location names) := by
  rw [FileTree.makeDirectory, FileTree.makeDirectory, hrelisted.follow]
  cases tree.follow location names.dropLast with
  | error fault => exact .error fault
  | ok parent =>
    simp only [bind, Except.bind, hrelisted.enter]
    cases tree.enter parent with
    | error fault => exact .error fault
    | ok _ =>
      cases names.getLast? with
      | none => exact .error _
      | some name =>
        simp only [hrelisted.node?, hrelisted.fits]
        cases checkName name with
        | error fault => exact .error fault
        | ok _ =>
          dsimp only
          split
          · exact .ok (hrelisted.put _ _ _)
          · exact .error _

theorem makeDirectories (location : List Name) (lists : List (List Name)) :
    Alike (tree.makeDirectories location lists) (after.makeDirectories location lists) := by
  induction lists with
  | nil => exact .intro hrelisted _
  | cons names above ih =>
    -- What is there in the end is looked at in the trees that were reached, not in those at the start.
    have hsettled : ∀ {own other : FileTree} (fault : Fault), Relisted own other →
        Alike (own, if own.leadsToDirectory location names then Except.ok () else .error fault)
          (other, if other.leadsToDirectory location names then .ok () else .error fault) := by
      intro own other fault hown
      rw [hown.leadsToDirectory]
      exact .intro hown _
    have hfirst := hrelisted.makeDirectory location names
    rw [FileTree.makeDirectories, FileTree.makeDirectories]
    generalize tree.makeDirectory location names = made at hfirst
    generalize after.makeDirectory location names = made' at hfirst
    cases hfirst with
    | ok hmade => exact .intro hmade _
    | error fault =>
      cases fault with
      | missing =>
        dsimp only
        generalize tree.makeDirectories location above = run at ih
        generalize after.makeDirectories location above = run' at ih
        obtain @⟨own, other, hown, _ | _⟩ := ih
        · exact .intro hown _
        · have hsecond := hown.makeDirectory location names
          dsimp only
          generalize own.makeDirectory location names = made at hsecond
          generalize other.makeDirectory location names = made' at hsecond
          cases hsecond with
          | ok hmade => exact .intro hmade _
          | error fault => exact hsettled fault hown
      | _ => exact hsettled _ hrelisted

/-- Creating a directory leaves trees that hold the same, with the same result. -/
theorem createDirectories (path : Path) :
    Alike (tree.createDirectories path) (after.createDirectories path) := by
  unfold FileTree.createDirectories
  split
  · exact .intro hrelisted _
  · split
    · exact .intro hrelisted _
    · rw [hrelisted.start]
      exact hrelisted.makeDirectories _ _

end

end Relisted

/-- A directory may list its entries in any order. -/
theorem exists_relisted (hok : tree.entries path = .ok names) {listed : List Name}
    (hperm : listed.Perm names) :
    ∃ after, Relisted tree after ∧ after.entries path = .ok listed := by
  obtain ⟨hleads, rfl⟩ := entries_eq_ok_iff.mp hok
  rw [locations, List.filterMap_map] at hperm
  obtain ⟨nodes, hnodes, rfl⟩ := Lists.exists_perm_filterMap hperm
  let after : FileTree := { tree with nodes, wellFormed := tree.wellFormed.perm hnodes }
  have hrelisted : Relisted tree after := ⟨rfl, hnodes⟩
  refine ⟨after, hrelisted, entries_eq_ok_iff.mpr ⟨?_, ?_⟩⟩
  · rw [hrelisted.start, hrelisted.leadsToDirectory]
    exact hleads
  · rw [hrelisted.start, locations, List.filterMap_map]

end PolicyForge.FileTree
