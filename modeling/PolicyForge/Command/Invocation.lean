import PolicyForge.Command.Options
import PolicyForge.FileTree.Path

namespace PolicyForge.Command

open FileTree (Path)

/-- What to generate, and where. -/
structure GenerateRequest where
  /-- The directory of the catalogs. -/
  input : Path
  /-- The directory of the generated modules. -/
  output : Path
  /-- The stem of the only catalog to generate. The index is left as it is then. -/
  service : Option String := none
  /-- Compare with the files that are there instead of writing. -/
  check : Bool := false
  deriving Repr, DecidableEq

/-- What to show. -/
structure InspectRequest where
  file : Path
  /-- Show the identifiers as well. -/
  plan : Bool := false
  deriving Repr, DecidableEq

/-- What the program is asked for. -/
inductive Invocation where
  | generate (request : GenerateRequest)
  | inspect (request : InspectRequest)
  deriving Repr, DecidableEq

/-- The option for more messages, which the program and both commands take. -/
def verbose : Switch := { name := "verbose", letter := 'v' }

/-- The options of `generate`. -/
def generateSwitches : List Switch :=
  [{ name := "input", letter := 'i', takesValue := true },
    { name := "output", letter := 'o', takesValue := true },
    { name := "service", takesValue := true },
    { name := "check" },
    verbose]

/-- The options of `inspect`. -/
def inspectSwitches : List Switch :=
  [{ name := "plan" }, verbose]

/-- A path given as an argument, which may not be empty. -/
def path? (text : String) : Option Path :=
  if text.isEmpty then none else some (.ofText text)

/-- Arguments in which no option is repeated. -/
def readOnce (switches : List Switch) (leading : Bool) (arguments : List String) :
    Option Given := do
  let given ← readArguments switches leading arguments
  guard given.withoutRepetition
  return given

/-- The request that arguments of `generate` make. The service may come from the environment. -/
def generateRequest? (service : Option String) (arguments : List String) :
    Option GenerateRequest := do
  let given ← readOnce generateSwitches false arguments
  guard given.operands.isEmpty
  return {
    input := ← path? (← given.value? "input")
    output := ← path? (← given.value? "output")
    service := (given.value? "service").or service
    check := given.has "check" }

/-- The request that arguments of `inspect` make. -/
def inspectRequest? (arguments : List String) : Option InspectRequest := do
  let given ← readOnce inspectSwitches false arguments
  match given.operands with
  | [file] => return { file := ← path? file, plan := given.has "plan" }
  | _ => none

/-- What the arguments of the program ask for, if they make sense. The environment may name a
service for `generate`, and an argument overrides it. -/
def Invocation.ofArguments? (service : Option String) (arguments : List String) :
    Option Invocation := do
  let given ← readOnce [verbose] true arguments
  match given.operands with
  | "generate" :: rest => return .generate (← generateRequest? service rest)
  | "inspect" :: rest => return .inspect (← inspectRequest? rest)
  | _ => none

end PolicyForge.Command
