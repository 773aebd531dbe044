import PolicyForge.Text.Cut
import PolicyForge.Text.Utf8

namespace PolicyForge.FileTree

/-- The byte between the names in a path. -/
def slash : UInt8 := 0x2F

/-- The byte between a file name and its extension. -/
def dot : UInt8 := 0x2E

/-- The name of an entry of a directory, known by its bytes, which may be those of no text. -/
structure Name where
  bytes : List UInt8
  deriving Repr, DecidableEq

namespace Name

/-- The name that a text is. -/
def ofText (text : String) : Name :=
  ⟨Text.utf8 text⟩

instance : Coe String Name := ⟨ofText⟩

/-- The name as it is shown. Names that are no texts may be shown alike. -/
def text (name : Name) : String :=
  Text.lossy name.bytes

/-- Names are compared byte by byte, and stand in front of those they begin. -/
instance : LT Name :=
  ⟨fun name other => List.Lex (· < ·) name.bytes other.bytes⟩

instance (name other : Name) : Decidable (name < other) :=
  List.decidableLex (· < ·) name.bytes other.bytes

/-- Whether the name can be that of an entry. Two names lead elsewhere. -/
def isEntry (name : Name) : Bool :=
  !name.bytes.isEmpty && !name.bytes.contains slash && name != "." && name != ".."

end Name

/-- The part of a file name in front of its last dot and the part behind it. A name without a dot,
or with only one that stands in front, has no second part. -/
def splitExtension (name : Name) : Name × Option Name :=
  let reversed := name.bytes.reverse
  match reversed.dropWhile (· != dot) with
  | _ :: stem =>
    if stem.isEmpty then (name, none)
    else (⟨stem.reverse⟩, some ⟨(reversed.takeWhile (· != dot)).reverse⟩)
  | [] => (name, none)

/-- The file name without its extension. -/
def stem (name : Name) : Name :=
  (splitExtension name).1

/-- Whether a file name has the given extension. -/
def hasExtension (extension name : Name) : Bool :=
  (splitExtension name).2 == some extension

/-- A path, known by its bytes. -/
structure Path where
  bytes : List UInt8
  deriving Repr, DecidableEq

namespace Path

/-- The path that a text is. -/
def ofText (text : String) : Path :=
  ⟨Text.utf8 text⟩

instance : Coe String Path := ⟨ofText⟩

/-- The path as it is shown. -/
def text (path : Path) : String :=
  Text.lossy path.bytes

/-- Whether the path starts from the top of the tree. -/
def isAbsolute (path : Path) : Bool :=
  path.bytes.head? == some slash

/-- Whether the path ends in a slash, as only a directory's may. -/
def endsInSlash (path : Path) : Bool :=
  path.bytes.getLast? == some slash

/-- The names between the slashes, those with a meaning of their own (`.` and `..`) included. -/
def names (path : Path) : List Name :=
  (Text.pieces (· == slash) path.bytes).filterMap fun name =>
    if name.isEmpty then none else some ⟨name⟩

/-- The path of an entry of the directory. -/
def join (path : Path) (name : Name) : Path :=
  if path.bytes.isEmpty then ⟨name.bytes⟩
  else if path.endsInSlash then ⟨path.bytes ++ name.bytes⟩
  else ⟨path.bytes ++ slash :: name.bytes⟩

/-- The stem of the file the path leads to, if the path ends in a name. -/
def stem? (path : Path) : Option Name :=
  match (path.names.filter (· != ("." : Name))).getLast? with
  | some name => if name == ".." then none else some (FileTree.stem name)
  | none => none

end Path

end PolicyForge.FileTree
