import PolicyForge.FileTree.Path
import PolicyForge.Ordered

namespace PolicyForge

namespace FileTree

/-- What is at a location. -/
inductive Node where
  | directory
  | file (contents : ByteArray)

/-- Files are the same when they hold the same bytes. -/
instance : DecidableEq Node
  | .directory, .directory => isTrue rfl
  | .directory, .file _ => isFalse nofun
  | .file _, .directory => isFalse nofun
  | .file a, .file b =>
    decidable_of_iff (a.data = b.data)
      ⟨fun h => by rw [ByteArray.ext h], fun h => by injection h with h; rw [h]⟩

/-- Why an operation on a path fails. -/
inductive Fault where
  | missing
  | exists
  | notDirectory
  | isDirectory
  | tooLong
  | nulByte
  | notText
  deriving Repr, DecidableEq

/-- The message about an operation that failed. -/
def Fault.message : Fault → String
  | .missing => "No such file or directory (os error 2)"
  | .exists => "File exists (os error 17)"
  | .notDirectory => "Not a directory (os error 20)"
  | .isDirectory => "Is a directory (os error 21)"
  | .tooLong => "File name too long (os error 36)"
  | .nulByte => "file name contained an unexpected NUL byte"
  | .notText => "stream did not contain valid UTF-8"

/-- The most bytes a name may have. -/
def longestName : Nat := 255

/-- The most bytes a path may have. -/
def longestPath : Nat := 4095

/-- Whether a path can be looked up at all, whatever the tree holds. -/
def Path.check (path : Path) : Except Fault Unit :=
  if path.bytes.contains 0 then .error .nulByte
  else if path.bytes.isEmpty then .error .missing
  else if longestPath < path.bytes.length then .error .tooLong
  else .ok ()

/-- Whether a name can be looked up in a directory. -/
def checkName (name : Name) : Except Fault Unit :=
  if longestName < name.bytes.length then .error .tooLong else .ok ()

/-- What is at a location of a tree with the given nodes. The top is a directory. -/
def nodeAt (nodes : List (List Name × Node)) (location : List Name) : Option Node :=
  if location.isEmpty then some .directory else nodes.lookup location

/-- Whether a location is that of an entry of a directory. -/
def isPlaced (nodes : List (List Name × Node)) (location : List Name) : Bool :=
  match location.getLast? with
  | some name => name.isEntry && nodeAt nodes location.dropLast == some .directory
  | none => false

theorem isPlaced_iff {nodes : List (List Name × Node)} {location : List Name} :
    isPlaced nodes location = true ↔ ∃ parent name, location = parent ++ [name] ∧
      name.isEntry = true ∧ nodeAt nodes parent = some .directory := by
  unfold isPlaced
  constructor
  · intro hplaced
    split at hplaced
    · rename_i name hlast
      obtain ⟨parent, rfl⟩ := List.getLast?_eq_some_iff.mp hlast
      exact ⟨parent, name, rfl, by simpa using hplaced⟩
    · cases hplaced
  · rintro ⟨parent, name, rfl, hentry, hparent⟩
    simp [hentry, hparent]

/-- The nodes of a tree. At a location there is one node at most, and every node is an entry of a
directory. -/
structure WellFormed (nodes : List (List Name × Node)) : Prop where
  nodup : (nodes.map (·.1)).Nodup
  placed : ∀ location ∈ nodes.map (·.1), isPlaced nodes location = true

instance (nodes : List (List Name × Node)) : Decidable (WellFormed nodes) :=
  decidable_of_iff
    ((nodes.map (·.1)).Nodup ∧ ∀ location ∈ nodes.map (·.1), isPlaced nodes location = true)
    ⟨fun ⟨hnodup, hplaced⟩ => ⟨hnodup, hplaced⟩, fun h => ⟨h.nodup, h.placed⟩⟩

section

variable {nodes : List (List Name × Node)} {location : List Name}

theorem nodeAt_update_self (hne : location ≠ []) (node : Node) :
    nodeAt (Ordered.update location node (fun _ => node) nodes) location = some node := by
  rw [nodeAt, if_neg (by simpa using hne), Ordered.lookup_update_self]

theorem nodeAt_update_of_ne {other : List Name} (hne : other ≠ location) (node : Node) :
    nodeAt (Ordered.update location node (fun _ => node) nodes) other = nodeAt nodes other := by
  rw [nodeAt, nodeAt, Ordered.lookup_update_of_ne hne]

/-- A node may take the place of a file, or a place in a directory where nothing is. -/
theorem WellFormed.update (hnodes : WellFormed nodes) (hplaced : isPlaced nodes location = true)
    (hfree : nodeAt nodes location ≠ some .directory) (node : Node) :
    WellFormed (Ordered.update location node (fun _ => node) nodes) := by
  refine ⟨?_, fun other hmem => ?_⟩
  · rw [Ordered.keys_update]
    exact Ordered.nodup_insert hnodes.nodup location
  · have hother : isPlaced nodes other = true := by
      rw [Ordered.keys_update, Ordered.insert] at hmem
      split at hmem
      · exact hnodes.placed other hmem
      · obtain hmem | hmem := List.mem_append.mp hmem
        · exact hnodes.placed other hmem
        · rwa [List.mem_singleton.mp hmem]
    obtain ⟨parent, name, rfl, hentry, hparent⟩ := isPlaced_iff.mp hother
    refine isPlaced_iff.mpr ⟨parent, name, rfl, hentry, ?_⟩
    have hne : parent ≠ location := fun heq => hfree (heq ▸ hparent)
    rw [nodeAt_update_of_ne hne, hparent]

end

end FileTree

/-- A file tree without links: directories and files by location, and the location from which
relative paths start. A location is the list of names that lead to it from the top. -/
structure FileTree where
  nodes : List (List FileTree.Name × FileTree.Node) := []
  current : List FileTree.Name := []
  wellFormed : FileTree.WellFormed nodes := by decide +kernel

namespace FileTree

/-- The tree of the top alone. -/
def top (current : List Name := []) : FileTree where
  current := current

/-- What is at a location, if anything is. -/
def node? (tree : FileTree) (location : List Name) : Option Node :=
  nodeAt tree.nodes location

/-- Whether a node can be put at a location, which is that of an entry of a directory and not that
of a directory. -/
def Fits (tree : FileTree) (location : List Name) : Prop :=
  isPlaced tree.nodes location = true ∧ tree.node? location ≠ some .directory

instance (tree : FileTree) (location : List Name) : Decidable (tree.Fits location) :=
  inferInstanceAs (Decidable (_ ∧ _))

/-- The tree with a node put at a location. -/
def put (tree : FileTree) (location : List Name) (node : Node) (hfits : tree.Fits location) :
    FileTree where
  nodes := Ordered.update location node (fun _ => node) tree.nodes
  current := tree.current
  wellFormed := tree.wellFormed.update hfits.1 hfits.2 node

/-- Whether there is a directory at a location, and if not, why no path leads through it. -/
def enter (tree : FileTree) (location : List Name) : Except Fault Unit :=
  match tree.node? location with
  | some .directory => .ok ()
  | some (.file _) => .error .notDirectory
  | none => .error .missing

/-- Where a name leads from a location. -/
def move (location : List Name) (name : Name) : List Name :=
  if name == "." then location
  else if name == ".." then location.dropLast
  else location ++ [name]

/-- The location that names lead to from another one. Every name has to be looked up in a directory,
but nothing need be at the location itself. -/
def follow (tree : FileTree) (location : List Name) : List Name → Except Fault (List Name)
  | [] => .ok location
  | name :: names => do
    tree.enter location
    checkName name
    tree.follow (move location name) names

/-- The location from which a path starts. -/
def start (tree : FileTree) (path : Path) : List Name :=
  if path.isAbsolute then [] else tree.current

/-- The location that a path leads to, at which a directory must be if the path ends in a slash. -/
def locate (tree : FileTree) (path : Path) : Except Fault (List Name) := do
  path.check
  let location ← tree.follow (tree.start path) path.names
  if path.endsInSlash then tree.enter location
  return location

/-- The node that a path leads to. -/
def find (tree : FileTree) (path : Path) : Except Fault Node := do
  match tree.node? (← tree.locate path) with
  | some node => .ok node
  | none => .error .missing

/-- Whether a path leads to a directory. -/
def isDirectory (tree : FileTree) (path : Path) : Bool :=
  (tree.find path).toOption == some .directory

/-- Whether a path leads to a file. -/
def isFile (tree : FileTree) (path : Path) : Bool :=
  match tree.find path with
  | .ok (.file _) => true
  | _ => false

/-- The names of the entries of a directory, in no order that means anything. -/
def entries (tree : FileTree) (path : Path) : Except Fault (List Name) := do
  let location ← tree.locate path
  tree.enter location
  return tree.nodes.filterMap fun (other, _) =>
    match other.getLast? with
    | some name => if other.dropLast == location then some name else none
    | none => none

/-- The text of a file. -/
def readText (tree : FileTree) (path : Path) : Except Fault String := do
  match ← tree.find path with
  | .directory => .error .isDirectory
  | .file contents => match String.fromUTF8? contents with
    | some text => .ok text
    | none => .error .notText

/-- The tree after a text was written to a file, which is created when it is not there. -/
def writeText (tree : FileTree) (path : Path) (text : String) : Except Fault FileTree := do
  let location ← tree.locate path
  if hfits : tree.Fits location then .ok (tree.put location (.file text.toUTF8) hfits)
  else .error .isDirectory

/-- The tree after one directory was created at the end of `names`. A name that leads elsewhere is
there already. -/
def makeDirectory (tree : FileTree) (location : List Name) (names : List Name) :
    Except Fault FileTree := do
  let parent ← tree.follow location names.dropLast
  tree.enter parent
  match names.getLast? with
  | none => .error .exists
  | some name =>
    checkName name
    let target := parent ++ [name]
    if hfree : tree.node? target = none ∧ tree.Fits target then
      .ok (tree.put target .directory hfree.2)
    else .error .exists

/-- Whether names lead to a directory. -/
def leadsToDirectory (tree : FileTree) (location : List Name) (names : List Name) : Bool :=
  match tree.follow location names with
  | .ok location => tree.node? location == some .directory
  | .error _ => false

/-- The tree after the directory at the end of the first list of names was created. The lists that
follow lead to the directories above it, the nearest first, which are created where they are
missing. A directory that is there already is kept. -/
def makeDirectories (tree : FileTree) (location : List Name) :
    List (List Name) → FileTree × Except Fault Unit
  | [] => (tree, .ok ())
  | names :: above =>
    let settle (tree : FileTree) (fault : Fault) : FileTree × Except Fault Unit :=
      (tree, if tree.leadsToDirectory location names then .ok () else .error fault)
    match tree.makeDirectory location names with
    | .ok tree => (tree, .ok ())
    | .error .missing => match tree.makeDirectories location above with
      | (tree, .error fault) => (tree, .error fault)
      | (tree, .ok ()) => match tree.makeDirectory location names with
        | .ok tree => (tree, .ok ())
        | .error fault => settle tree fault
    | .error fault => settle tree fault

/-- The lists of names that lead to the directories above the one `names` lead to, the nearest
first. A dot behind another name leads nowhere else, so it has no list of its own. -/
def namesAbove (names : List Name) : List (List Name) :=
  let proper := names.take 1 ++ (names.drop 1).filter (· != ("." : Name))
  ((List.range proper.length).drop 1).reverse.map proper.take

/-- The tree after the directory of a path was created, and those above it. What was created stays
even if the rest of the path cannot be created. -/
def createDirectories (tree : FileTree) (path : Path) : FileTree × Except Fault Unit :=
  if path.bytes.isEmpty then (tree, .ok ())
  else match path.check with
    | .error fault => (tree, .error fault)
    | .ok () => tree.makeDirectories (tree.start path) (path.names :: namesAbove path.names)

end FileTree

end PolicyForge
