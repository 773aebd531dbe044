import PolicyForge.Batch.Generation

namespace PolicyForge.Batch

/-- What became of a catalog. -/
structure Outcome where
  label : String
  result : Except Error Generated

/-- The outcomes of a batch. -/
structure Report where
  outcomes : List Outcome := []

/-- The outcome of a catalog on its own. -/
def Outcome.ofInput (input : Input) : Outcome :=
  ⟨input.label, generate input⟩

/-- Refuse every module whose name an earlier one has. The names in `seen`, each with the prefix of
its service, belong to modules that come before these outcomes. -/
def refuseRepeated (seen : List (String × String)) : List Outcome → List Outcome
  | [] => []
  | outcome :: outcomes => match outcome.result with
    | .error _ => outcome :: refuseRepeated seen outcomes
    | .ok generated => match seen.lookup generated.moduleName with
      | some first =>
        let error := .duplicateModule generated.moduleName first generated.servicePrefix
        { outcome with result := .error error } :: refuseRepeated seen outcomes
      | none =>
        outcome :: refuseRepeated ((generated.moduleName, generated.servicePrefix) :: seen) outcomes

/-- The report on a list of catalogs. -/
def report (inputs : List Input) : Report :=
  ⟨refuseRepeated [] (inputs.map Outcome.ofInput)⟩

/-- The line that says what became of a catalog. -/
def Outcome.statusLine (outcome : Outcome) : String :=
  match outcome.result with
  | .error error => "FAIL  " ++ outcome.label ++ ": " ++ error.message
  | .ok generated =>
    "ok    " ++ generated.servicePrefix ++ " -> " ++ generated.fileName ++
      if generated.collisions.isEmpty then ""
      else " (" ++ toString generated.collisions.length ++ " collision warning(s))"

namespace Report

/-- The generated modules. -/
def generated (report : Report) : List Generated :=
  report.outcomes.filterMap fun outcome => outcome.result.toOption

/-- The catalogs that have no module, by label. -/
def failures (report : Report) : List (String × Error) :=
  report.outcomes.filterMap fun outcome => match outcome.result with
    | .error error => some (outcome.label, error)
    | .ok _ => none

/-- Whether any catalog has no module. -/
def hasFailures (report : Report) : Bool :=
  !report.failures.isEmpty

/-- The collisions in the generated modules. -/
def collisions (report : Report) : List Collision :=
  report.generated.flatMap (·.collisions)

/-- A line for every catalog. -/
def statusLines (report : Report) : List String :=
  report.outcomes.map Outcome.statusLine

/-- The line that counts the outcomes. -/
def summary (report : Report) : String :=
  toString report.outcomes.length ++ " service(s): " ++
    toString report.generated.length ++ " generated, " ++
    toString report.failures.length ++ " failed, " ++
    toString report.collisions.length ++ " collision warning(s)"

end Report

end PolicyForge.Batch
