import PolicyForge.Batch.Generation
import PolicyForge.Proofs.Json.Writing
import PolicyForge.Proofs.Source.Module

namespace PolicyForge.Batch

/-- Once the text of a catalog is accepted its module can be rendered, and generating fails just
with the violation for which the text is not accepted. No failure of rendering is ever reported,
whatever the text is and whichever of the two shapes it has. -/
theorem generate_fails_on_violation_only (label text : String) :
    (∀ service, Service.ofText label text = .ok service →
      ∃ source, Source.render service (Naming.ofService service) = .ok source) ∧
    (∀ error, generate ⟨label, text⟩ = .error error ↔
      ∃ violation, Service.ofText label text = .error violation ∧ error = .catalog violation) := by
  have hrenders : ∀ service, Service.ofText label text = .ok service →
      ∃ source, Source.render service (Naming.ofService service) = .ok source := by
    intro service hservice
    obtain ⟨record, hrecord⟩ := Service.exists_ofRecord_of_ofText hservice
    exact Source.exists_render_eq_ok (Service.keysDeclared_of_ofRecord hrecord)
  refine ⟨hrenders, fun error => ?_⟩
  rw [generate]
  cases hservice : Service.ofText label text with
  | error violation => simp [eq_comm]
  | ok service =>
    obtain ⟨source, hsource⟩ := hrenders service hservice
    simp [generateService, hsource]

/-- A catalog in which an action and a resource type name a condition key, and the resource type has
a placeholder of its own beside a standard one. -/
def lamps : Json :=
  .object
    [("servicePrefix", .string "lamp"),
      ("actionList", .object
        [("Dim", .object
          [("accessLevel", .string "Write"), ("conditions", .ofTexts ["Hue"]),
            ("resourceTypes", .object [("bulb", .object [])])])]),
      ("resourceTypes", .object
        [("bulb", .object
          [("arn", .string "arn:$\x7bPartition\x7d:lamp:::bulb/$\x7bId\x7d"),
            ("conditionKeys", .ofTexts ["lamp:Hue"])])]),
      ("conditions", .object [("lamp:Hue", .object [("type", .string "String")])])]

theorem accepted_lamps : ∃ service, Service.ofText "lamps" lamps.compact = .ok service := by
  have htextual : lamps.Textual := by
    simp [lamps, Json.Textual, Json.TextualMembers, Json.TextualItems, Json.ofTexts]
  rw [Service.ofText_of_document (Json.document_compact htextual)]
  exact Failing.exists_eq_ok_of_isSome (by decide +kernel)

theorem generate_fails_on_violation_only_lamps :
    ∃ service source, Service.ofText "lamps" lamps.compact = .ok service ∧
      Source.render service (Naming.ofService service) = .ok source := by
  obtain ⟨service, hservice⟩ := accepted_lamps
  obtain ⟨source, hsource⟩ :=
    (generate_fails_on_violation_only "lamps" lamps.compact).1 service hservice
  exact ⟨service, source, hservice, hsource⟩

end PolicyForge.Batch
