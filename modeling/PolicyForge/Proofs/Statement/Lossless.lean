import PolicyForge.Proofs.Condition.Operator
import PolicyForge.Proofs.Json.Reading
import PolicyForge.Proofs.Json.Writing
import PolicyForge.Statement.Document

namespace PolicyForge

theorem textual_oneOrMany (texts : List String) : (oneOrMany texts).Textual := by
  have hmany : (Json.ofTexts texts).Textual := by
    apply Json.textualItems_of_forall
    intro item hitem
    obtain ⟨text, _, rfl⟩ := List.mem_map.mp hitem
    trivial
  unfold oneOrMany
  split
  · trivial
  · exact hmany

/-- The clauses are written without numbers, which the writer leaves alone. -/
theorem Clauses.textual_toJson (clauses : Clauses) : clauses.toJson.Textual := by
  apply Json.textualMembers_of_forall
  intro member hmember
  obtain ⟨⟨operator, keys⟩, _, rfl⟩ := List.mem_map.mp hmember
  apply Json.textualMembers_of_forall
  intro member hmember
  obtain ⟨⟨key, values⟩, _, rfl⟩ := List.mem_map.mp hmember
  exact textual_oneOrMany values

namespace Statement

theorem textual_toJson (statement : Statement) : statement.toJson.Textual := by
  apply Json.textualMembers_of_forall
  intro member hmember
  simp only [List.mem_append, List.mem_cons, List.not_mem_nil, or_false] at hmember
  obtain (hsid | rfl | rfl | rfl) | hconditions := hmember
  · cases hstatement : statement.sid with
    | none => simp [hstatement] at hsid
    | some sid =>
      simp only [hstatement, List.mem_singleton] at hsid
      subst hsid
      trivial
  · trivial
  · exact textual_oneOrMany _
  · exact textual_oneOrMany _
  · split at hconditions
    · simp at hconditions
    · simp only [List.mem_singleton] at hconditions
      subst hconditions
      exact Clauses.textual_toJson _

/-- The compact document is read as the value it was written from. -/
theorem read?_compact (statement : Statement) :
    Json.read? statement.compact = some statement.toJson :=
  Json.read?_of_document (Json.document_compact statement.textual_toJson)

/-- The pretty document is read as the same value. -/
theorem read?_pretty (statement : Statement) :
    Json.read? statement.pretty = some statement.toJson :=
  Json.read?_of_document (Json.document_pretty statement.textual_toJson)

end Statement

/-- One text and a list of one are written alike, and nothing else is. -/
theorem oneOrMany_injective {xs ys : List String} (h : oneOrMany xs = oneOrMany ys) : xs = ys := by
  have hmany : ∀ {xs ys : List String}, Json.ofTexts xs = Json.ofTexts ys → xs = ys := by
    intro xs ys h
    have hitems := Json.array.inj h
    exact (List.map_inj_right fun _ _ htext => Json.string.inj htext).mp hitems
  unfold oneOrMany at h
  split at h <;> split at h
  · rw [Json.string.inj h]
  · cases h
  · cases h
  · exact hmany h

theorem Clauses.keysToJson_injective {a b : List (String × List String)}
    (h : keysToJson a = keysToJson b) : a = b := by
  have hmembers := Json.object.inj h
  refine (List.map_inj_right ?_).mp hmembers
  rintro ⟨key, values⟩ ⟨key', values'⟩ hmember
  obtain ⟨rfl, hvalues⟩ := Prod.mk.inj hmember
  rw [oneOrMany_injective hvalues]

/-- The clauses are told from their object: no two operators have one text. -/
theorem Clauses.toJson_injective {a b : Clauses} (h : a.toJson = b.toJson) : a = b := by
  have hmembers := Json.object.inj h
  refine (List.map_inj_right ?_).mp hmembers
  rintro ⟨operator, keys⟩ ⟨operator', keys'⟩ hmember
  obtain ⟨hoperator, hkeys⟩ := Prod.mk.inj hmember
  rw [Condition.Operator.text_injective hoperator, keysToJson_injective hkeys]

theorem Effect.text_injective {a b : Effect} (h : a.text = b.text) : a = b := by
  cases a <;> cases b <;> first | rfl | exact absurd h (by decide)

theorem memberName_injective {negated plain : String} (hne : negated ≠ plain) {a b : Bool}
    (h : (if a then negated else plain) = if b then negated else plain) : a = b := by
  cases a <;> cases b
  · rfl
  · exact absurd h.symm hne
  · exact absurd h hne
  · rfl

/-- The identifier is told by whether its member comes first. -/
theorem sidMember_append_inj {a b : Option String} {effect effect' : Json}
    {more more' : List (String × Json)}
    (h : (match a with
        | some sid => [("Sid", Json.string sid)]
        | none => []) ++ ("Effect", effect) :: more =
      (match b with
        | some sid => [("Sid", Json.string sid)]
        | none => []) ++ ("Effect", effect') :: more') :
    a = b ∧ effect = effect' ∧ more = more' := by
  cases a with
  | none =>
    cases b with
    | none => simpa using h
    | some sid => simp at h
  | some sid =>
    cases b with
    | none => simp at h
    | some sid' => simpa using h

/-- The member of the conditions tells the clauses, of which it is left out when there are none. -/
theorem conditionMember_injective {a b : Clauses}
    (h : (if a.isEmpty then [] else [("Condition", a.toJson)]) =
      if b.isEmpty then [] else [("Condition", b.toJson)]) : a = b := by
  cases a with
  | nil =>
    cases b with
    | nil => rfl
    | cons clause clauses => simp at h
  | cons clause clauses =>
    cases b with
    | nil => simp at h
    | cons clause' clauses' =>
      apply Clauses.toJson_injective
      simpa using h

namespace Statement

/-- Two statements have one value exactly when they agree in all that documents hold. -/
theorem toJson_eq_iff {s t : Statement} :
    s.toJson = t.toJson ↔ s.sid = t.sid ∧ s.effect = t.effect ∧ s.notAction = t.notAction ∧
      s.notResource = t.notResource ∧ s.actions = t.actions ∧
      s.writtenResources = t.writtenResources ∧ s.conditions = t.conditions := by
  constructor
  · intro h
    have hmembers := Json.object.inj h
    simp only [List.append_assoc, List.cons_append, List.nil_append] at hmembers
    obtain ⟨hsid, heffect, hmore⟩ := sidMember_append_inj hmembers
    obtain ⟨haction, hmore⟩ := List.cons.inj hmore
    obtain ⟨hresource, hmore⟩ := List.cons.inj hmore
    obtain ⟨hactionName, hactions⟩ := Prod.mk.inj haction
    obtain ⟨hresourceName, hresources⟩ := Prod.mk.inj hresource
    exact ⟨hsid, Effect.text_injective (Json.string.inj heffect),
      memberName_injective (by decide) hactionName, memberName_injective (by decide) hresourceName,
      oneOrMany_injective hactions, oneOrMany_injective hresources, conditionMember_injective hmore⟩
  · rintro ⟨hsid, heffect, hnotAction, hnotResource, hactions, hresources, hconditions⟩
    simp only [toJson, hsid, heffect, hnotAction, hnotResource, hactions, hresources, hconditions]

/-- Two statements are written alike exactly when they agree in all that documents hold: in
everything but the resource name defaults, with `*` for the resources when none is named. -/
theorem compact_eq_iff (s t : Statement) :
    s.compact = t.compact ↔ s.sid = t.sid ∧ s.effect = t.effect ∧ s.notAction = t.notAction ∧
      s.notResource = t.notResource ∧ s.actions = t.actions ∧
      s.writtenResources = t.writtenResources ∧ s.conditions = t.conditions := by
  rw [← toJson_eq_iff]
  constructor
  · intro h
    have hread := congrArg Json.read? h
    rw [read?_compact, read?_compact] at hread
    exact Option.some.inj hread
  · intro h
    rw [compact, compact, h]

end Statement

end PolicyForge
