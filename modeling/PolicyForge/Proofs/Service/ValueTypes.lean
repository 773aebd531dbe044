import PolicyForge.Proofs.Condition.ValueType
import PolicyForge.Proofs.Service.References
import PolicyForge.Proofs.Service.Violations

namespace PolicyForge

open Condition.ValueType (Labels folded ofLabel?)

namespace Catalog

/-- The violations of a list can be listed in two parts, the second one behind the entries of the
first. -/
theorem violationsInOrder_append {α : Type} (violations : List α → α → List Error)
    (earlier entries others : List α) :
    violationsInOrder violations earlier (entries ++ others) =
      violationsInOrder violations earlier entries ++
        violationsInOrder violations (earlier ++ entries) others := by
  induction entries generalizing earlier with
  | nil => rw [List.nil_append, List.append_nil, violationsInOrder, List.nil_append]
  | cons entry entries ih =>
    rw [List.cons_append, violationsInOrder, ih, violationsInOrder, List.append_assoc,
      List.append_assoc, List.singleton_append]

/-- The violation of a condition key with a label that names no family. -/
def Record.unknownType (record : Record) (entry : KeyEntry) : Error where
  service := record.trimmedPrefix
  location := "conditions." ++ Service.qualifyKey record.trimmedPrefix entry.key ++ ".type"
  violation := .unknownConditionType (entry.valueType.getD "")

/-- An entry with an unknown type is among the violations, wherever it stands. -/
theorem unknownType_mem_violations {record : Record} {entry : KeyEntry}
    (hentry : entry ∈ record.conditionKeys) (hlabel : ofLabel? (entry.valueType.getD "") = none) :
    record.unknownType entry ∈ record.violations := by
  obtain ⟨earlier, later, hkeys⟩ := List.append_of_mem hentry
  have hlisted : record.unknownType entry ∈ keyViolations record.trimmedPrefix earlier entry := by
    refine List.mem_append_right _ ?_
    rw [listed, if_pos hlabel]
    exact List.mem_singleton_self _
  have hall : record.unknownType entry ∈
      violationsInOrder (keyViolations record.trimmedPrefix) [] record.conditionKeys := by
    rw [hkeys, violationsInOrder_append, violationsInOrder]
    exact List.mem_append_right _ (List.mem_append_left _ hlisted)
  refine List.mem_append_left _ (List.mem_append_left _ (List.mem_append_right _ hall))

end Catalog

namespace Service

open Catalog (Record)

/-- A record with one condition key. -/
def wall (label : String) : Record where
  name := "Wall"
  servicePrefix := "w"
  conditionKeys := [{ key := "Color", valueType := some label }]

/-- The family of a condition key is the one that its label names. A label names a family just when
it is one of the published labels, or the mark of a list by itself, and a record with any other
label is not accepted: what is reported is this label, unless something in front of it is wrong as
well. -/
theorem key_types_exact (record : Record) :
    (∀ label type, ofLabel? label = some type ↔
      Labels (folded label) type ∨ folded label = "arrayof" ∧ type = .string) ∧
      (∀ entry ∈ record.conditionKeys, ofLabel? (entry.valueType.getD "") = none →
        ∃ error before after, ofRecord record = .error error ∧
          record.violations = before ++ record.unknownType entry :: after ∧
          (before ++ [record.unknownType entry]).head? = some error) ∧
      ∀ service, ofRecord record = .ok service →
        List.Forall₂ (fun entry key => ofLabel? (entry.valueType.getD "") = some key.valueType)
          record.conditionKeys service.conditionKeys := by
  refine ⟨fun label type => Condition.ValueType.ofLabel?_eq_some_iff, ?_, ?_⟩
  · intro entry hentry hlabel
    obtain ⟨before, after, hviolations⟩ :=
      List.append_of_mem (Catalog.unknownType_mem_violations hentry hlabel)
    have hhead : record.violations.head? = (before ++ [record.unknownType entry]).head? := by
      rw [hviolations, List.head?_append, List.head?_append]
      rfl
    obtain ⟨error, herror⟩ := Option.ne_none_iff_exists'.mp
      (show (before ++ [record.unknownType entry]).head? ≠ none by simp)
    have hreported := ((failsFirst_ofRecord record).eq_error_iff error).mpr (hhead.trans herror)
    exact ⟨error, before, after, hreported, hviolations, herror⟩
  · intro service hok
    exact (forall₂_comesFrom hok).1.imp fun _ _ hfrom => hfrom.valueType

theorem key_types_exact_wall :
    ofRecord (wall "ArrayOfArrayOfString") =
        .error ⟨"w", "conditions.w:Color.type", .unknownConditionType "ArrayOfArrayOfString"⟩ ∧
      ∃ service, ofRecord (wall " arrayofARN\t") = .ok service ∧
        List.Forall₂ (fun entry key => ofLabel? (entry.valueType.getD "") = some key.valueType)
          (wall " arrayofARN\t").conditionKeys service.conditionKeys := by
  obtain ⟨-, hrefused, -⟩ := key_types_exact (wall "ArrayOfArrayOfString")
  obtain ⟨error, before, after, herror, hviolations, hhead⟩ :=
    hrefused _ List.mem_cons_self (by decide +kernel)
  have hone : (wall "ArrayOfArrayOfString").violations =
      [⟨"w", "conditions.w:Color.type", .unknownConditionType "ArrayOfArrayOfString"⟩] := by
    decide +kernel
  obtain ⟨service, hok⟩ := Failing.exists_eq_ok_of_isSome
    (show (ofRecord (wall " arrayofARN\t")).toOption.isSome = true by decide +kernel)
  obtain ⟨-, -, htypes⟩ := key_types_exact (wall " arrayofARN\t")
  refine ⟨?_, service, hok, htypes service hok⟩
  -- Nothing else is wrong, so that nothing is in front of the label.
  rw [hone] at hviolations
  cases before with
  | nil =>
    obtain rfl := Option.some.inj hhead
    exact herror
  | cons first before => simp at hviolations

/-- The mark of a list is accepted by itself, and then the key holds strings. -/
theorem bare_list_accepted :
    (∀ type, ¬ Labels (folded "ArrayOf") type) ∧ ofLabel? "ArrayOf" = some .string ∧
      ∃ service, ofRecord (wall "ArrayOf") = .ok service ∧
        service.conditionKeys.map (·.valueType) = [.string] := by
  have hfolded : folded "ArrayOf" = "arrayof" := by decide +kernel
  refine ⟨?_, by decide +kernel, Failing.exists_of_toOption_map_eq_some (by decide +kernel)⟩
  rw [hfolded]
  exact Condition.ValueType.not_labels_listMark

end Service

end PolicyForge
