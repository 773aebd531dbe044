namespace PolicyForge.Command

/-- How a run ends. -/
inductive ExitCode where
  | success
  | failure
  /-- Generated files are not up to date, or the arguments make no sense. -/
  | stale
  deriving Repr, DecidableEq

/-- The code as a number. -/
def ExitCode.number : ExitCode → Nat
  | success => 0
  | failure => 1
  | stale => 2

/-- The lines of a run, and how it ends. -/
structure Outcome where
  output : List String := []
  messages : List String := []
  code : ExitCode := .success
  deriving Repr, DecidableEq

namespace Outcome

/-- The outcome with more lines printed. -/
def printing (outcome : Outcome) (lines : List String) : Outcome :=
  { outcome with output := outcome.output ++ lines }

/-- The outcome with another code. -/
def ending (outcome : Outcome) (code : ExitCode) : Outcome :=
  { outcome with code }

/-- The outcome of a run that fails after what it has printed. -/
def fail (outcome : Outcome) (reason : String) : Outcome :=
  { outcome with messages := outcome.messages ++ ["Error: " ++ reason], code := .failure }

/-- The outcome of a run that fails at once. -/
def failed (reason : String) : Outcome :=
  fail {} reason

/-- The text of printed lines. -/
def text (lines : List String) : String :=
  String.join (lines.map (· ++ "\n"))

end Outcome

/-- A chain of messages, each about the cause of the one in front of it. -/
def causes (messages : List String) : String :=
  String.intercalate ": " messages

end PolicyForge.Command
