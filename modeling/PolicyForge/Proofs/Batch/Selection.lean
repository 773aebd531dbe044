import PolicyForge.Proofs.Batch.Index
import PolicyForge.Proofs.Failing

namespace PolicyForge.Batch

variable {inputs selected : List Input} {outcomes : List Outcome} {seen : List (String × String)}
  {generated : Generated}

/-- A catalog that has a module in the end has it by itself. -/
theorem mem_of_mem_refuseRepeated {outcome : Outcome} (hmem : outcome ∈ refuseRepeated seen outcomes)
    (hok : outcome.result = .ok generated) : outcome ∈ outcomes := by
  fun_induction refuseRepeated seen outcomes with
  | case1 seen => cases hmem
  | case2 seen own outcomes error herror ih =>
    obtain rfl | hmem := List.mem_cons.mp hmem
    · exact List.mem_cons_self
    · exact List.mem_cons_of_mem own (ih hmem)
  | case3 seen own outcomes other hother first hfirst error ih =>
    obtain rfl | hmem := List.mem_cons.mp hmem
    · cases hok
    · exact List.mem_cons_of_mem own (ih hmem)
  | case4 seen own outcomes other hother hnew ih =>
    obtain rfl | hmem := List.mem_cons.mp hmem
    · exact List.mem_cons_self
    · exact List.mem_cons_of_mem own (ih hmem)

/-- What a report generated came from one of its inputs, under that input's label. -/
theorem exists_of_mem_outcomes {label : String}
    (hmem : ⟨label, .ok generated⟩ ∈ (report inputs).outcomes) :
    ∃ input ∈ inputs, input.label = label ∧ generate input = .ok generated := by
  obtain ⟨input, hinput, heq⟩ := List.mem_map.mp (mem_of_mem_refuseRepeated hmem rfl)
  obtain ⟨hlabel, hresult⟩ := Outcome.mk.inj heq
  exact ⟨input, hinput, hlabel, hresult⟩

/-- Where nothing fails in the end, nothing was refused. -/
theorem refuseRepeated_of_failures_eq_nil
    (hnone : (Report.mk (refuseRepeated seen outcomes)).failures = []) :
    refuseRepeated seen outcomes = outcomes := by
  fun_induction refuseRepeated seen outcomes with
  | case1 seen => rfl
  | case2 seen outcome outcomes error herror ih =>
    rw [failures_cons_of_error herror] at hnone
    cases hnone
  | case3 seen outcome outcomes generated hok first hfirst error ih =>
    rw [failures_cons_of_error rfl] at hnone
    cases hnone
  | case4 seen outcome outcomes generated hok hnew ih =>
    rw [failures_cons_of_ok hok] at hnone
    rw [ih hnone]

/-- Fewer inputs repeat fewer modules: a selection of a list without failures has none either, and
its modules stand in the same order. -/
theorem report_of_sublist (hsublist : selected.Sublist inputs)
    (hnone : (report inputs).hasFailures = false) :
    (report selected).hasFailures = false ∧
      (report selected).generated.Sublist (report inputs).generated := by
  have hfailures : (report inputs).failures = [] := by simpa [Report.hasFailures] using hnone
  have hreport : report inputs = ⟨inputs.map Outcome.ofInput⟩ := by
    rw [report, refuseRepeated_of_failures_eq_nil hfailures]
  have hnodup : ((modulesAlone inputs).map (·.moduleName)).Nodup := by
    rw [← generated_ofInputs, ← hreport]
    exact (names_of_refuseRepeated _ _).2
  have hmodules : (modulesAlone selected).Sublist (modulesAlone inputs) := hsublist.filterMap _
  rw [report_of_distinct ((hmodules.map _).nodup hnodup), hreport, generated_ofInputs,
    generated_ofInputs]
  refine ⟨?_, hmodules⟩
  rw [hreport] at hfailures
  have hfewer : (Report.mk (selected.map Outcome.ofInput)).failures.Sublist
      (Report.mk (inputs.map Outcome.ofInput)).failures := (hsublist.map _).filterMap _
  rw [hfailures, List.sublist_nil] at hfewer
  simp [Report.hasFailures, hfewer]

/-- Every module name that was seen among some catalogs was seen among all. -/
def Fewer (fewer seen : List (String × String)) : Prop :=
  ∀ moduleName, seen.lookup moduleName = none → fewer.lookup moduleName = none

/-- A module is unseen when it is neither the latest one nor among the earlier. -/
theorem lookup_cons_eq_none_iff {first moduleName servicePrefix : String} :
    ((first, servicePrefix) :: seen).lookup moduleName = none ↔
      moduleName ≠ first ∧ seen.lookup moduleName = none := by
  rw [List.lookup_cons]
  cases hname : moduleName == first <;> simp_all

namespace Fewer

variable {fewer : List (String × String)} {first servicePrefix : String}

/-- A name that is seen among all may be seen among some. -/
theorem cons_of_seen (hfewer : Fewer fewer seen) {owner : String}
    (hseen : seen.lookup first = some owner) : Fewer ((first, servicePrefix) :: fewer) seen := by
  intro moduleName hnone
  refine lookup_cons_eq_none_iff.mpr ⟨?_, hfewer moduleName hnone⟩
  rintro rfl
  cases hseen.symm.trans hnone

theorem of_cons (hfewer : Fewer fewer seen) : Fewer fewer ((first, servicePrefix) :: seen) :=
  fun moduleName hnone => hfewer moduleName (lookup_cons_eq_none_iff.mp hnone).2

theorem cons (hfewer : Fewer fewer seen) :
    Fewer ((first, servicePrefix) :: fewer) ((first, servicePrefix) :: seen) := by
  intro moduleName hnone
  obtain ⟨hne, hbefore⟩ := lookup_cons_eq_none_iff.mp hnone
  exact lookup_cons_eq_none_iff.mpr ⟨hne, hfewer moduleName hbefore⟩

end Fewer

/-- What is left of a batch keeps its modules. A module is refused for one in front of it only, and
fewer modules are in front of it where some of the catalogs are left out. -/
theorem mem_refuseRepeated_filter {p : Outcome → Bool} {fewer : List (String × String)}
    (hfewer : Fewer fewer seen) {outcome : Outcome} (hmem : outcome ∈ refuseRepeated seen outcomes)
    (hok : outcome.result = .ok generated) (hkept : p outcome = true) :
    outcome ∈ refuseRepeated fewer (outcomes.filter p) := by
  fun_induction refuseRepeated seen outcomes generalizing fewer with
  | case1 seen => cases hmem
  | case2 seen own outcomes error herror ih =>
    obtain rfl | hrest := List.mem_cons.mp hmem
    · cases hok.symm.trans herror
    · rw [List.filter_cons]
      split
      · rw [refuseRepeated, herror]
        exact List.mem_cons_of_mem own (ih hfewer hrest)
      · exact ih hfewer hrest
  | case3 seen own outcomes other hother first hfirst error =>
    rename_i ih
    obtain rfl | hrest := List.mem_cons.mp hmem
    · cases hok
    · rw [List.filter_cons]
      split
      · rw [refuseRepeated, hother]
        dsimp only
        split
        · exact List.mem_cons_of_mem _ (ih hfewer hrest)
        · exact List.mem_cons_of_mem _ (ih (hfewer.cons_of_seen hfirst) hrest)
      · exact ih hfewer hrest
  | case4 seen own outcomes other hother hnew ih =>
    have hown : refuseRepeated fewer (own :: outcomes.filter p) =
        own :: refuseRepeated ((other.moduleName, other.servicePrefix) :: fewer)
          (outcomes.filter p) := by
      rw [refuseRepeated, hother]
      dsimp only
      rw [hfewer _ hnew]
    obtain rfl | hrest := List.mem_cons.mp hmem
    · rw [List.filter_cons_of_pos hkept, hown]
      exact List.mem_cons_self
    · rw [List.filter_cons]
      split
      · rw [hown]
        exact List.mem_cons_of_mem own (ih hfewer.cons hrest)
      · exact ih hfewer.of_cons hrest

/-- A module of a batch is a module of those catalogs of the batch that have its label. -/
theorem mem_outcomes_of_label {label : String}
    (hmem : ⟨label, .ok generated⟩ ∈ (report inputs).outcomes) :
    ⟨label, .ok generated⟩ ∈ (report (inputs.filter (·.label == label))).outcomes := by
  have hkept : ((inputs.filter (·.label == label)).map Outcome.ofInput) =
      (inputs.map Outcome.ofInput).filter (·.label == label) := by
    rw [List.filter_map]
    rfl
  rw [report, hkept]
  exact mem_refuseRepeated_filter (fun _ hnone => hnone) hmem rfl (beq_self_eq_true label)

theorem mem_generated_iff : generated ∈ (report inputs).generated ↔
    ∃ label, ⟨label, .ok generated⟩ ∈ (report inputs).outcomes := by
  rw [Report.generated, List.mem_filterMap]
  constructor
  · rintro ⟨outcome, hmem, hsome⟩
    have hok := Failing.toOption_eq_some_iff.mp hsome
    exact ⟨outcome.label, by rwa [← hok]⟩
  · rintro ⟨label, hmem⟩
    exact ⟨_, hmem, rfl⟩

end PolicyForge.Batch
