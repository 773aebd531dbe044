import PolicyForge.Text.Basic

namespace PolicyForge

/-- What an action does to resources, from least to most specific concern. -/
inductive AccessLevel where
  | list
  | read
  | write
  | permissionsManagement
  | tagging
  deriving Repr, DecidableEq, Ord

namespace AccessLevel

/-- Every level, in the order of the documentation. -/
def all : List AccessLevel :=
  [list, read, write, permissionsManagement, tagging]

/-- The level as tables of actions label it. -/
def label : AccessLevel → String
  | list => "List"
  | read => "Read"
  | write => "Write"
  | permissionsManagement => "Permissions management"
  | tagging => "Tagging"

/-- The level with exactly the given label. -/
def ofExactLabel? (text : String) : Option AccessLevel :=
  all.find? (·.label == text)

/-- The level a published label means: letters match in either case (ASCII only), and any run of
blanks counts as one space. -/
def ofLabel? (text : String) : Option AccessLevel :=
  let tidy := String.ofList ([' '].intercalate (Text.words text.toList))
  all.find? (·.label.toLower == tidy.toLower)

end AccessLevel

end PolicyForge
