namespace PolicyForge.Command

/-- An option that a command knows. -/
structure Switch where
  name : String
  letter : Option Char := none
  takesValue : Bool := false
  deriving Repr, DecidableEq

/-- The options that were given, with their values, and the operands. -/
structure Given where
  options : List (String × String) := []
  operands : List String := []
  deriving Repr, DecidableEq

namespace Given

/-- The options and operands with one more option in front. -/
def withOption (given : Given) (name value : String) : Given :=
  { given with options := (name, value) :: given.options }

/-- The options and operands with one more operand in front. -/
def withOperand (given : Given) (operand : String) : Given :=
  { given with operands := operand :: given.operands }

/-- Whether an option was given. -/
def has (given : Given) (name : String) : Bool :=
  given.options.any (·.1 == name)

/-- The value of an option. -/
def value? (given : Given) (name : String) : Option String :=
  given.options.lookup name

/-- Whether no option was given twice. -/
def withoutRepetition (given : Given) : Bool :=
  (given.options.map (·.1)).eraseDups.length == given.options.length

end Given

/-- What the letters of one argument amount to. -/
inductive Letters where
  /-- Options, the last of which may have its value with it. -/
  | complete (options : List (String × String))
  /-- Options, the last of which has its value in the next argument. -/
  | awaiting (options : List (String × String)) (name : String)
  deriving Repr, DecidableEq

/-- The letters with one more option in front. -/
def Letters.withOption (name : String) : Letters → Letters
  | complete options => complete ((name, "") :: options)
  | awaiting options last => awaiting ((name, "") :: options) last

/-- Read letters that are run together. What stands behind a letter with a value is the value. -/
def readLetters (switches : List Switch) : List Char → Option Letters
  | [] => some (.complete [])
  | letter :: rest =>
    match switches.find? (·.letter == some letter) with
    | none => none
    | some switch =>
      if switch.takesValue then
        match rest with
        | [] => some (.awaiting [] switch.name)
        | '=' :: value => some (.complete [(switch.name, String.ofList value)])
        | value => some (.complete [(switch.name, String.ofList value)])
      else (readLetters switches rest).map (Letters.withOption switch.name)

/-- What an argument is. -/
inductive Argument where
  | operand (text : String)
  | letters (letters : List Char)
  | named (name : List Char)
  /-- The mark behind which everything is an operand. -/
  | mark
  deriving Repr, DecidableEq

/-- What an argument is. A dash on its own is an operand. -/
def Argument.ofText (text : String) : Argument :=
  match text.toList with
  | ['-', '-'] => .mark
  | '-' :: '-' :: name => .named name
  | ['-'] => .operand text
  | '-' :: rest => .letters rest
  | _ => .operand text

/-- A name and the value behind its first `=`, if there is one. -/
def splitNamed (text : List Char) : String × Option String :=
  match text.span (· != '=') with
  | (name, _ :: value) => (String.ofList name, some (String.ofList value))
  | (name, []) => (String.ofList name, none)

/-- Read arguments. An option that is not known, a value too many and a missing value are errors,
and what looks like an option is no value. With `leading` set, reading stops at the first operand,
and that operand and all behind it are returned as operands. -/
def readArguments (switches : List Switch) (leading : Bool) : List String → Option Given
  | [] => some {}
  | text :: rest =>
    match Argument.ofText text with
    | .operand text =>
      if leading then some { operands := text :: rest }
      else (readArguments switches leading rest).map (·.withOperand text)
    | .mark => if leading then none else some { operands := rest }
    | .named named =>
      let (name, attached) := splitNamed named
      match switches.find? (·.name == name) with
      | none => none
      | some switch =>
        match switch.takesValue, attached with
        | false, none => (readArguments switches leading rest).map (·.withOption name "")
        | false, some _ => none
        | true, some value => (readArguments switches leading rest).map (·.withOption name value)
        | true, none => withNext rest name
    | .letters letters =>
      match readLetters switches letters with
      | none => none
      | some (.complete options) =>
        (readArguments switches leading rest).map fun given =>
          { given with options := options ++ given.options }
      | some (.awaiting options name) =>
        (withNext rest name).map fun given =>
          { given with options := options ++ given.options }
where
  /-- Read arguments of which the first is the value of an option. -/
  withNext (rest : List String) (name : String) : Option Given :=
    match rest with
    | [] => none
    | text :: rest =>
      match Argument.ofText text with
      | .operand value => (readArguments switches leading rest).map (·.withOption name value)
      | _ => none

end PolicyForge.Command
