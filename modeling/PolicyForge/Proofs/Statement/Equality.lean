import PolicyForge.Proofs.Json.Rearranged
import PolicyForge.Proofs.Statement.Contents
import PolicyForge.Proofs.Statement.Shape
import PolicyForge.Statement.Basic

namespace PolicyForge

private theorem rel_iff_map_toFinset {same : List String → List String → Prop}
    {x y : Option (List String)} (hsame : ∀ xs ∈ x, ∀ ys ∈ y, same xs ys ↔ xs.toFinset = ys.toFinset) :
    Option.Rel same x y ↔ x.map List.toFinset = y.map List.toFinset := by
  cases x with
  | none =>
    cases y with
    | none => exact ⟨fun _ => rfl, fun _ => .none⟩
    | some ys => simp
  | some xs =>
    cases y with
    | none => simp
    | some ys =>
      rw [Option.map_some, Option.map_some, Option.some.injEq, ← hsame xs rfl ys rfl,
        Option.rel_some_some]

/-- Keys compare as the same when each has the same set of values. -/
theorem sameKeys_iff {xs ys : List (String × List String)} (hxs : (xs.map (·.1)).Nodup)
    (hys : (ys.map (·.1)).Nodup) (hvalues : ∀ {key values}, (key, values) ∈ xs → values.Nodup)
    (hvalues' : ∀ {key values}, (key, values) ∈ ys → values.Nodup) :
    Ordered.sameEntries Ordered.sameElements xs ys = true ↔
      ∀ key, (xs.lookup key).map List.toFinset = (ys.lookup key).map List.toFinset := by
  rw [Ordered.sameEntries_iff hxs hys]
  refine forall_congr' fun key => rel_iff_map_toFinset fun values hx others hy => ?_
  exact Ordered.sameElements_iff (hvalues (Ordered.mem_of_lookup_eq_some hx))
    (hvalues' (Ordered.mem_of_lookup_eq_some hy))

namespace Clauses

variable {a b : Clauses}

/-- An operator without keys does not stand in clauses at all. -/
theorem WellFormed.lookup_eq_none (hvalid : a.WellFormed) {operator : Condition.Operator}
    (hnone : ∀ key, a.values? operator key = none) : a.lookup operator = none := by
  cases hkeys : a.lookup operator with
  | none => rfl
  | some keys =>
    obtain ⟨⟨key, values⟩, hmem⟩ :=
      List.exists_mem_of_ne_nil _ (hvalid.keys_ne_nil (Ordered.mem_of_lookup_eq_some hkeys))
    have hown := hnone key
    rw [values?, hkeys, Option.bind_some, List.lookup_eq_none_iff] at hown
    simpa using hown _ hmem

/-- Clauses compare as the same just when the same values stand under the same operators and keys.
-/
theorem same_iff (ha : a.WellFormed) (hb : b.WellFormed) : a.same b = true ↔
    ∀ operator key, (a.values? operator key).map List.toFinset =
      (b.values? operator key).map List.toFinset := by
  have hkeys : ∀ {operator xs ys}, a.lookup operator = some xs → b.lookup operator = some ys →
      (Ordered.sameEntries Ordered.sameElements xs ys = true ↔
        ∀ key, (xs.lookup key).map List.toFinset = (ys.lookup key).map List.toFinset) := by
    intro operator xs ys hx hy
    have hxs := Ordered.mem_of_lookup_eq_some hx
    have hys := Ordered.mem_of_lookup_eq_some hy
    exact sameKeys_iff (ha.nodup_keys hxs) (hb.nodup_keys hys) (ha.nodup_values hxs)
      (hb.nodup_values hys)
  rw [same, Ordered.sameEntries_iff ha.nodup_operators hb.nodup_operators]
  refine forall_congr' fun operator => ?_
  simp only [values?]
  cases hx : a.lookup operator with
  | none =>
    cases hy : b.lookup operator with
    | none => exact ⟨fun _ _ => rfl, fun _ => .none⟩
    | some ys =>
      refine ⟨fun hrel => absurd hrel Option.not_rel_none_some, fun hall => ?_⟩
      have hnone : b.lookup operator = none :=
        hb.lookup_eq_none fun key => by simpa [values?, hy] using (hall key).symm
      cases hy.symm.trans hnone
  | some xs =>
    cases hy : b.lookup operator with
    | none =>
      refine ⟨fun hrel => absurd hrel Option.not_rel_some_none, fun hall => ?_⟩
      have hnone : a.lookup operator = none :=
        ha.lookup_eq_none fun key => by simpa [values?, hx] using hall key
      cases hx.symm.trans hnone
    | some ys =>
      simp only [Option.bind_some, ← hkeys hx hy, Option.rel_some_some]

end Clauses

namespace Statement

variable {a b : Statement}

/-- Statements compare as the same just when they hold the same. -/
theorem same_iff_contents (ha : a.WellFormed) (hb : b.WellFormed) :
    a.same b = true ↔ a.contents = b.contents := by
  simp only [same, Bool.and_eq_true, beq_iff_eq, Clauses.same_iff ha.conditions hb.conditions,
    Ordered.sameElements_iff ha.nodup_actions hb.nodup_actions,
    Ordered.sameElements_iff ha.nodup_resources hb.nodup_resources, contents, Contents.mk.injEq,
    funext_iff, and_assoc]

theorem Reachable.apply (hreachable : a.Reachable) (step : Step) : (a.apply step).Reachable := by
  obtain ⟨sid, steps, rfl⟩ := hreachable
  refine ⟨sid, steps ++ [step], ?_⟩
  rw [run, run, List.foldl_append]
  rfl

theorem Reachable.run (hreachable : a.Reachable) (steps : List Step) : (a.run steps).Reachable := by
  induction steps generalizing a with
  | nil => exact hreachable
  | cons step steps ih => exact ih (hreachable.apply step)

end Statement

/-- A list written as one text or as an array is rearranged when its texts are. -/
theorem rearranged_oneOrMany {xs ys : List String} (hperm : xs.Perm ys) :
    (oneOrMany xs).Rearranged (oneOrMany ys) := by
  by_cases hone : ∃ text, xs = [text]
  · obtain ⟨text, rfl⟩ := hone
    obtain rfl := List.singleton_perm.mp hperm
    exact .refl _
  · have hmany : ∀ {texts : List String}, xs.Perm texts → oneOrMany texts = .ofTexts texts := by
      intro texts htexts
      unfold oneOrMany
      split
      · exact absurd ⟨_, List.perm_singleton.mp htexts⟩ hone
      · rfl
    rw [hmany (List.Perm.refl xs), hmany hperm]
    exact Json.rearranged_ofTexts hperm

/-- Clauses that compare as the same have the same sorted document, up to the order of values. -/
theorem Clauses.rearranged_toJson {a b : Clauses} (ha : a.WellFormed) (hb : b.WellFormed)
    (hsame : a.same b = true) : a.toJson.sorted.Rearranged b.toJson.sorted := by
  obtain ⟨hoperators, hclauses⟩ := Ordered.entries_of_rel ha.nodup_operators hb.nodup_operators
    ((Ordered.sameEntries_iff ha.nodup_operators hb.nodup_operators).mp hsame)
  refine Json.rearranged_sorted_object a b (·.1.text) (·.1.text) (keysToJson ·.2)
    (keysToJson ·.2) ?_ ?_
  · have htexts := hoperators.map Condition.Operator.text
    simpa only [List.map_map, Function.comp_def] using htexts
  · intro x hx y hy htext
    have hentries := hclauses x hx y hy (Condition.Operator.text_injective htext)
    rw [Ordered.sameEntries_iff (ha.nodup_keys hx) (hb.nodup_keys hy)] at hentries
    obtain ⟨hkeys, hvalues⟩ :=
      Ordered.entries_of_rel (ha.nodup_keys hx) (hb.nodup_keys hy) hentries
    refine Json.rearranged_sorted_object x.2 y.2 (·.1) (·.1) (oneOrMany ·.2) (oneOrMany ·.2) hkeys ?_
    intro own hown other hother hkey
    rw [sorted_oneOrMany, sorted_oneOrMany]
    exact rearranged_oneOrMany <|
      (Ordered.sameElements_iff_perm (ha.nodup_values hx hown)).mp (hvalues own hown other hother hkey)

namespace Statement

variable {a b : Statement}

/-- The sorted members of statements that are the same, one by one. -/
theorem forall₂_members (ha : a.WellFormed) (hb : b.WellFormed) (hsame : a.same b = true) :
    List.Forall₂ (fun x y => x.1 = y.1 ∧ x.2.sorted.Rearranged y.2.sorted) a.members b.members := by
  simp only [same, Bool.and_eq_true, beq_iff_eq] at hsame
  obtain ⟨⟨⟨⟨⟨⟨⟨hsid, heffect⟩, hactions⟩, hnotAction⟩, hresources⟩, hnotResource⟩, hconditions⟩, -⟩ :=
    hsame
  rw [Ordered.sameElements_iff_perm ha.nodup_actions] at hactions
  rw [Ordered.sameElements_iff_perm ha.nodup_resources] at hresources
  have hwritten : a.writtenResources.Perm b.writtenResources := by
    unfold writtenResources
    rw [hresources.isEmpty_eq]
    split
    · exact .refl _
    · exact hresources
  have hclauses : a.conditions.isEmpty = b.conditions.isEmpty := by
    simp only [Clauses.same, Ordered.sameEntries, Bool.and_eq_true, beq_iff_eq] at hconditions
    rw [Bool.eq_iff_iff, List.isEmpty_iff_length_eq_zero, List.isEmpty_iff_length_eq_zero,
      hconditions.1]
  unfold members actionName resourceName
  rw [hsid, heffect, hnotAction, hnotResource, hclauses]
  refine List.rel_append (List.rel_append ?_ ?_) ?_
  · split
    · exact .cons ⟨rfl, .refl _⟩ .nil
    · exact .nil
  · refine .cons ⟨rfl, .refl _⟩ (.cons ⟨rfl, ?_⟩ (.cons ⟨rfl, ?_⟩ .nil))
    · rw [sorted_oneOrMany, sorted_oneOrMany]
      exact rearranged_oneOrMany hactions
    · rw [sorted_oneOrMany, sorted_oneOrMany]
      exact rearranged_oneOrMany hwritten
  · split
    · exact .nil
    · exact .cons ⟨rfl, Clauses.rearranged_toJson ha.conditions hb.conditions hconditions⟩ .nil

/-- Statements that compare as the same have the same value, up to the order of its arrays. -/
theorem rearranged_toValue (ha : a.WellFormed) (hb : b.WellFormed) (hsame : a.same b = true) :
    a.toValue.Rearranged b.toValue := by
  have hnodup : ∀ statement : Statement, (statement.members.map (·.1)).Nodup := by
    intro statement
    rw [names_members]
    exact statement.nodup_memberNames
  have hrel : ∀ key, Option.Rel (fun x y => x.sorted.Rearranged y.sorted) (a.members.lookup key)
      (b.members.lookup key) :=
    fun key => Ordered.rel_lookup_of_forall₂ (forall₂_members ha hb hsame) key
  obtain ⟨hnames, hvalues⟩ := Ordered.entries_of_rel (hnodup a) (hnodup b) hrel
  have hvalue :=
    Json.rearranged_sorted_object a.members b.members (·.1) (·.1) (·.2) (·.2) hnames hvalues
  rwa [List.map_id', List.map_id'] at hvalue

/-- Runs that make the same settings in the same order and the same additions in any order lead from
one statement to statements that are the same. To be the same is an equivalence, and it is kept by
every change. A change is news to both of two such statements or to neither, and the values of their
documents differ in nothing but the order inside arrays. -/
theorem same_blind_to_order :
    (∀ {start : Statement} {steps others : List Step}, start.Reachable →
      steps.filter (!·.isAddition) = others.filter (!·.isAddition) →
      (steps.filter (·.isAddition)).Perm (others.filter (·.isAddition)) →
      (start.run steps).same (start.run others) = true) ∧
    (Equivalence fun a b : { statement : Statement // statement.Reachable } =>
      a.1.same b.1 = true) ∧
    ∀ {a b : Statement}, a.Reachable → b.Reachable → a.same b = true →
      (∀ step, (a.apply step).same (b.apply step) = true ∧ a.isNews step = b.isNews step) ∧
        a.toValue.Rearranged b.toValue := by
  have hcontents : ∀ {a b : Statement}, a.Reachable → b.Reachable →
      (a.same b = true ↔ a.contents = b.contents) :=
    fun ha hb => same_iff_contents ha.wellFormed hb.wellFormed
  refine ⟨?_, ⟨?_, ?_, ?_⟩, ?_⟩
  · intro start steps others hstart hsettings hadditions
    rw [hcontents (hstart.run steps) (hstart.run others), contents_run, contents_run]
    exact Contents.run_eq_of_perm _ hsettings hadditions
  · intro a
    exact (hcontents a.2 a.2).mpr rfl
  · intro a b hab
    rw [hcontents a.2 b.2] at hab
    exact (hcontents b.2 a.2).mpr hab.symm
  · intro a b c hab hbc
    rw [hcontents a.2 b.2] at hab
    rw [hcontents b.2 c.2] at hbc
    exact (hcontents a.2 c.2).mpr (hab.trans hbc)
  · intro a b ha hb hsame
    refine ⟨fun step => ?_, rearranged_toValue ha.wellFormed hb.wellFormed hsame⟩
    rw [hcontents ha hb] at hsame
    refine ⟨?_, isNews_eq_of_contents hsame step⟩
    rw [hcontents (ha.apply step) (hb.apply step), contents_apply, contents_apply, hsame]

/-- Changes of every kind, in one order. -/
def forwards : List Step :=
  [.addAction "s3:GetObject", .setEffect .deny,
    .addCondition "aws:SourceIp" ["::1", "10.0.0.0/8"] .stringLike, .addAction "s3:PutObject",
    .addCondition "aws:SourceIp" ["10.0.0.1"] .stringLike, .setEffect .allow]

/-- The same settings, among the same additions in another order. -/
def backwards : List Step :=
  [.addCondition "aws:SourceIp" ["10.0.0.1"] .stringLike, .addAction "s3:PutObject",
    .addCondition "aws:SourceIp" ["::1", "10.0.0.0/8"] .stringLike, .setEffect .deny,
    .setEffect .allow, .addAction "s3:GetObject"]

theorem same_blind_to_order_backwards :
    empty.Reachable ∧
      forwards.filter (!·.isAddition) = backwards.filter (!·.isAddition) ∧
      (forwards.filter (·.isAddition)).Perm (backwards.filter (·.isAddition)) ∧
      empty.run forwards ≠ empty.run backwards ∧
      (empty.run forwards).same (empty.run backwards) = true ∧
      (empty.run forwards).toValue.Rearranged (empty.run backwards).toValue := by
  obtain ⟨hruns, -, hsame⟩ := same_blind_to_order
  have hempty : empty.Reachable := ⟨none, [], rfl⟩
  have hsettings : forwards.filter (!·.isAddition) = backwards.filter (!·.isAddition) := rfl
  have hadditions : (forwards.filter (·.isAddition)).Perm (backwards.filter (·.isAddition)) := by
    decide +kernel
  have heq := hruns hempty hsettings hadditions
  exact ⟨hempty, hsettings, hadditions, by decide +kernel, heq,
    (hsame (hempty.run _) (hempty.run _) heq).2⟩

end Statement

end PolicyForge
