import PolicyForge.Text.Basic

namespace PolicyForge.Identifier

/-- The first character as an ASCII capital, the others unchanged. -/
def capitalize : List Char → List Char
  | [] => []
  | c :: rest => c.toUpper :: rest

/-- The segments of a name, each capitalized, without anything between them. Only ASCII letters
and digits survive. -/
def pascalChars (name : List Char) : List Char :=
  ((Text.pieces (!·.isAlphanum) name).map capitalize).flatten

/-- The name with its words run together: `foo-bar` and `FooBar` have the same one. -/
def pascal (name : String) : String :=
  String.ofList (pascalChars name.toList)

/-- Whether a word starts at `b`, which follows `a` and stands before `next`: at a capital after a
small letter or a digit, and at the last of several capitals when a small letter follows it. Digits
never start a word, so they stay with the word in front of them. -/
def startsWord (a b : Char) (next : Option Char) : Bool :=
  b.isUpper && (a.isLower || a.isDigit || (a.isUpper && next.any Char.isLower))

/-- Letters in lower case, with an underscore in front of every word but the first. -/
def separateWords : List Char → List Char
  | [] => []
  | [a] => [a.toLower]
  | a :: b :: rest =>
    if startsWord a b rest.head? then a.toLower :: '_' :: separateWords (b :: rest)
    else a.toLower :: separateWords (b :: rest)

/-- The characters of the name's words in lower case, an underscore between two words. -/
def snakeChars (name : List Char) : List Char :=
  separateWords (pascalChars name)

/-- The name in lower case with an underscore between two words. -/
def snake (name : String) : String :=
  String.ofList (snakeChars name.toList)

end PolicyForge.Identifier
