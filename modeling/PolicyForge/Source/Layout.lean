import PolicyForge.Text.Cut

namespace PolicyForge.Source

/-- One step of indentation. -/
def indentation : String := "    "

/-- A line one step further in. An empty line stays empty. -/
def indentLine (line : String) : String :=
  if line.isEmpty then line else indentation ++ line

/-- Lines one step further in. -/
def indent (lines : List String) : List String :=
  lines.map indentLine

/-- Lines between an opening line and a closing line, one step further in. -/
def enclose (opening : String) (body : List String) (closing : String) : List String :=
  opening :: indent body ++ [closing]

/-- Lines in braces behind a heading. -/
def block (heading : String) (body : List String) : List String :=
  enclose (heading ++ " \x7b") body "\x7d"

/-- The text of lines, each of which is ended. -/
def unlines (lines : List String) : String :=
  String.join (lines.map (· ++ "\n"))

/-- A text in the typewriter marks of documentation, which it may not hold itself. -/
def codeSpan (text : String) : String :=
  "`" ++ text.map (fun c => if c == '\x60' then '\'' else c) ++ "`"

/-- Replace every run of three typewriter marks, from the left, by as many quotes, so that no text
opens a block of code. -/
def defuse : List Char → List Char
  | '\x60' :: '\x60' :: '\x60' :: rest => '\'' :: '\'' :: '\'' :: defuse rest
  | c :: rest => c :: defuse rest
  | [] => []

/-- A line of a documentation comment. Blanks at its ends are dropped, as text that is indented
would count as code. -/
def docLine (line : List Char) : String :=
  let line := defuse (Text.strip Text.isBlank line)
  if line.isEmpty then "///" else "/// " ++ String.ofList line

/-- A text as a documentation comment. Every kind of line break starts a new comment line. -/
def doc (text : String) : List String :=
  (Text.lines (Text.unifyBreaks text.toList)).map docLine

/-- Sections as a documentation comment, with an empty line between two. Blank sections are left
out. -/
def docSections (sections : List String) : List String :=
  doc (String.intercalate "\n\n" (sections.filter fun text => !(Text.trim text).isEmpty))

/-- A heading with items below it. -/
def itemized (heading : String) (items : List String) : String :=
  String.intercalate "\n" (heading :: items.map ("- " ++ ·))

/-- A section with a heading and items, unless there are none. -/
def itemSection (heading : String) (items : List String) : List String :=
  if items.isEmpty then [] else [itemized heading items]

/-- A section that links an address, unless it is empty. -/
def linkSection (url : String) : List String :=
  if url.isEmpty then [] else ["<" ++ url ++ ">"]

end PolicyForge.Source
