import Mathlib.Data.List.InsertIdx
import PolicyForge.Batch.Report
import PolicyForge.Json.Writer

namespace PolicyForge.Batch

/-- The module of a catalog by itself, if it has that name. -/
def moduleNamed? (moduleName : String) (input : Input) : Option Generated :=
  (generate input).toOption.filter (·.moduleName == moduleName)

/-- What a catalog comes to behind others: just what it comes to by itself, unless one of these has
a module of the same name. Then the error names the service of the first that has. -/
def resultBehind (before : List Input) (input : Input) : Except Error Generated :=
  match generate input with
  | .error error => .error error
  | .ok generated => match before.findSome? (moduleNamed? generated.moduleName) with
    | none => .ok generated
    | some first => .error
      (.duplicateModule generated.moduleName first.servicePrefix generated.servicePrefix)

/-- The outcomes of catalogs that stand behind others. -/
def outcomesBehind (before inputs : List Input) : List Outcome :=
  inputs.mapIdx fun index input => ⟨input.label, resultBehind (before ++ inputs.take index) input⟩

/-- What is seen of the catalogs that come before: every name that a module of theirs has, with the
prefix of the first service that has it. -/
def Seen (seen : List (String × String)) (before : List Input) : Prop :=
  ∀ moduleName, seen.lookup moduleName =
    (before.findSome? (moduleNamed? moduleName)).map (·.servicePrefix)

section

variable {seen : List (String × String)} {before : List Input} {input : Input}

theorem moduleNamed?_of_error {error : Error} (herror : generate input = .error error)
    (moduleName : String) : moduleNamed? moduleName input = none := by
  rw [moduleNamed?, herror]
  rfl

theorem moduleNamed?_of_ok {generated : Generated} (hok : generate input = .ok generated)
    (moduleName : String) : moduleNamed? moduleName input =
      if generated.moduleName = moduleName then some generated else none := by
  rw [moduleNamed?, hok]
  simp [Except.toOption, Option.filter_some]

theorem seen_nil : Seen [] [] :=
  fun _ => rfl

theorem Seen.of_error {error : Error} (hseen : Seen seen before)
    (herror : generate input = .error error) : Seen seen (before ++ [input]) := by
  intro moduleName
  simp [hseen moduleName, List.findSome?_append, moduleNamed?_of_error herror]

/-- A catalog whose name was there before leaves it with its first service. -/
theorem Seen.of_repeated {generated : Generated} (hseen : Seen seen before)
    (hok : generate input = .ok generated) {first : String}
    (hfirst : seen.lookup generated.moduleName = some first) : Seen seen (before ++ [input]) := by
  intro moduleName
  rw [List.findSome?_append, Option.map_or, ← hseen moduleName]
  by_cases hname : generated.moduleName = moduleName
  · rw [← hname, hfirst, Option.some_or]
  · simp [moduleNamed?_of_ok hok, hname]

/-- An input whose module is new is the earliest owner of that module from here on. -/
theorem Seen.of_new {generated : Generated} (hseen : Seen seen before)
    (hok : generate input = .ok generated) (hnew : seen.lookup generated.moduleName = none) :
    Seen ((generated.moduleName, generated.servicePrefix) :: seen) (before ++ [input]) := by
  intro moduleName
  rw [List.findSome?_append, Option.map_or, ← hseen moduleName, List.lookup_cons]
  by_cases hname : moduleName = generated.moduleName
  · subst hname
    simp [hnew, moduleNamed?_of_ok hok]
  · simp [moduleNamed?_of_ok hok, beq_false_of_ne hname, Ne.symm hname]

end

/-- The outcome of an input depends on the inputs before it alone. -/
theorem outcomesBehind_cons (before : List Input) (input : Input) (inputs : List Input) :
    outcomesBehind before (input :: inputs) =
      ⟨input.label, resultBehind before input⟩ :: outcomesBehind (before ++ [input]) inputs := by
  simp [outcomesBehind, List.mapIdx_cons]

/-- The pass over the outcomes agrees with the outcome of each input behind the ones before it, from
any point of the pass on. -/
theorem refuseRepeated_eq_outcomesBehind {seen : List (String × String)} {before : List Input}
    (hseen : Seen seen before) (inputs : List Input) :
    refuseRepeated seen (inputs.map Outcome.ofInput) = outcomesBehind before inputs := by
  induction inputs generalizing seen before with
  | nil => rfl
  | cons input inputs ih =>
    rw [List.map_cons, refuseRepeated, outcomesBehind_cons, resultBehind]
    cases hresult : generate input with
    | error error =>
      simp [Outcome.ofInput, hresult, ih (hseen.of_error hresult)]
    | ok generated =>
      have hlookup := hseen generated.moduleName
      cases hfound : before.findSome? (moduleNamed? generated.moduleName) with
      | none =>
        rw [hfound, Option.map_none] at hlookup
        simp [Outcome.ofInput, hresult, hfound, hlookup, ih (hseen.of_new hresult hlookup)]
      | some first =>
        rw [hfound, Option.map_some] at hlookup
        simp [Outcome.ofInput, hresult, hfound, hlookup, ih (hseen.of_repeated hresult hlookup)]

theorem generated_cons_of_error {outcome : Outcome} {error : Error}
    (herror : outcome.result = .error error) (outcomes : List Outcome) :
    (Report.mk (outcome :: outcomes)).generated = (Report.mk outcomes).generated := by
  simp [Report.generated, herror, Except.toOption]

theorem generated_cons_of_ok {outcome : Outcome} {generated : Generated}
    (hok : outcome.result = .ok generated) (outcomes : List Outcome) :
    (Report.mk (outcome :: outcomes)).generated =
      generated :: (Report.mk outcomes).generated := by
  simp [Report.generated, hok, Except.toOption]

theorem failures_cons_of_error {outcome : Outcome} {error : Error}
    (herror : outcome.result = .error error) (outcomes : List Outcome) :
    (Report.mk (outcome :: outcomes)).failures =
      (outcome.label, error) :: (Report.mk outcomes).failures := by
  simp [Report.failures, herror]

theorem failures_cons_of_ok {outcome : Outcome} {generated : Generated}
    (hok : outcome.result = .ok generated) (outcomes : List Outcome) :
    (Report.mk (outcome :: outcomes)).failures = (Report.mk outcomes).failures := by
  simp [Report.failures, hok]

/-- Every outcome counts once, either as a module or as a failure. -/
theorem length_generated_add_length_failures (outcomes : List Outcome) :
    (Report.mk outcomes).generated.length + (Report.mk outcomes).failures.length =
      outcomes.length := by
  induction outcomes with
  | nil => rfl
  | cons outcome outcomes ih =>
    cases hresult : outcome.result with
    | error error =>
      rw [generated_cons_of_error hresult, failures_cons_of_error hresult, List.length_cons,
        List.length_cons, ← ih]
      omega
    | ok generated =>
      rw [generated_cons_of_ok hresult, failures_cons_of_ok hresult, List.length_cons,
        List.length_cons, ← ih]
      omega

/-- No module that is left has a name seen before, and no two have one name. -/
theorem names_of_refuseRepeated (seen : List (String × String)) (outcomes : List Outcome) :
    (∀ generated ∈ (Report.mk (refuseRepeated seen outcomes)).generated,
      seen.lookup generated.moduleName = none) ∧
      ((Report.mk (refuseRepeated seen outcomes)).generated.map (·.moduleName)).Nodup := by
  fun_induction refuseRepeated seen outcomes with
  | case1 seen => exact ⟨by simp [Report.generated], List.nodup_nil⟩
  | case2 seen outcome outcomes error herror ih => rwa [generated_cons_of_error herror]
  | case3 seen outcome outcomes generated hok first hfirst error ih =>
    rwa [generated_cons_of_error rfl]
  | case4 seen outcome outcomes generated hok hnew ih =>
    obtain ⟨hunseen, hnodup⟩ := ih
    rw [generated_cons_of_ok hok, List.forall_mem_cons, List.map_cons, List.nodup_cons]
    have hother : ∀ other ∈ (Report.mk (refuseRepeated
        ((generated.moduleName, generated.servicePrefix) :: seen) outcomes)).generated,
        other.moduleName ≠ generated.moduleName ∧ seen.lookup other.moduleName = none := by
      intro other hmem
      have hlookup := hunseen other hmem
      rw [List.lookup_cons] at hlookup
      split at hlookup
      · cases hlookup
      · rename_i hne
        exact ⟨by simpa using hne, hlookup⟩
    refine ⟨⟨hnew, fun other hmem => (hother other hmem).2⟩, ?_, hnodup⟩
    intro hmem
    obtain ⟨other, hmem, heq⟩ := List.mem_map.mp hmem
    exact (hother other hmem).1 heq

/-- A catalog that has no module in the end leaves no name for those behind it. -/
theorem refuseRepeated_eraseIdx {seen : List (String × String)} {outcomes : List Outcome}
    {index : Nat} {failed : Outcome} {error : Error}
    (hindex : (refuseRepeated seen outcomes)[index]? = some failed)
    (herror : failed.result = .error error) :
    refuseRepeated seen (outcomes.eraseIdx index) =
      (refuseRepeated seen outcomes).eraseIdx index := by
  fun_induction refuseRepeated seen outcomes generalizing index with
  | case1 seen => rfl
  | case2 seen outcome outcomes reason hfails ih =>
    cases index with
    | zero => rfl
    | succ index => simp [refuseRepeated, hfails, ih hindex]
  | case3 seen outcome outcomes generated hok first hfirst reason =>
    rename_i ih
    cases index with
    | zero => rfl
    | succ index => simp [refuseRepeated, hok, hfirst, ih hindex, reason]
  | case4 seen outcome outcomes generated hok hnew ih =>
    cases index with
    | zero =>
      obtain rfl := Option.some.inj hindex
      simp [hok] at herror
    | succ index => simp [refuseRepeated, hok, hnew, ih hindex]

/-- Every catalog of a batch has one outcome, at its own place and under its own label. It is what
the catalog comes to by itself, but for a name that an earlier catalog has. So no two modules have
one name, every catalog counts once, and a batch without a catalog that fails is the same batch
otherwise, whether that catalog fails by itself or for its name. -/
theorem report_isolates (inputs : List Input) :
    (report inputs).outcomes = (inputs.mapIdx fun index input =>
        ⟨input.label, resultBehind (inputs.take index) input⟩) ∧
      ((report inputs).generated.map (·.moduleName)).Nodup ∧
      (report inputs).generated.length + (report inputs).failures.length = inputs.length ∧
      ∀ index outcome error, (report inputs).outcomes[index]? = some outcome →
        outcome.result = .error error →
        (report (inputs.eraseIdx index)).outcomes = (report inputs).outcomes.eraseIdx index := by
  have houtcomes : (report inputs).outcomes = inputs.mapIdx fun index input =>
      ⟨input.label, resultBehind (inputs.take index) input⟩ := by
    simp only [report, refuseRepeated_eq_outcomesBehind seen_nil, outcomesBehind, List.nil_append]
  refine ⟨houtcomes, (names_of_refuseRepeated _ _).2, ?_, ?_⟩
  · have hcounted := length_generated_add_length_failures (report inputs).outcomes
    rwa [houtcomes, List.length_mapIdx, ← houtcomes] at hcounted
  · intro index outcome error hindex herror
    rw [report, report, ← List.eraseIdx_map]
    exact refuseRepeated_eraseIdx hindex herror

/-- The text of a catalog that has nothing but a prefix. -/
def bare (servicePrefix : String) : String :=
  (Json.object [("servicePrefix", .string servicePrefix)]).compact

/-- Catalogs of which two have the same name, and one is no catalog. -/
def mixed : List Input :=
  [⟨"one", bare "foo-bar"⟩, ⟨"none", ""⟩, ⟨"two", bare "foo_bar"⟩, ⟨"three", bare "foo"⟩]

theorem report_isolates_mixed :
    (report mixed).outcomes[2]?.map (·.result) =
        some (.error (.duplicateModule "foo_bar" "foo-bar" "foo_bar")) ∧
      (report (mixed.eraseIdx 2)).outcomes = (report mixed).outcomes.eraseIdx 2 := by
  have hresult : (report mixed).outcomes[2]?.map (·.result) =
      some (.error (.duplicateModule "foo_bar" "foo-bar" "foo_bar")) := by
    decide +kernel
  obtain ⟨outcome, hindex, herror⟩ := Option.map_eq_some_iff.mp hresult
  exact ⟨hresult, (report_isolates mixed).2.2.2 2 outcome _ hindex herror⟩

end PolicyForge.Batch
