import PolicyForge.Proofs.Json.Same
import PolicyForge.Proofs.Statement.Lossless
import PolicyForge.Proofs.Statement.Run

namespace PolicyForge

/-- A value that holds the texts of a set: one text stands on its own, and any other number of them
in an array without repetitions. -/
inductive Json.HoldsTexts : List String → Json → Prop where
  | one (text : String) : HoldsTexts [text] (.string text)
  | many {texts : List String} (hlength : texts.length ≠ 1) (hnodup : texts.Nodup) :
      HoldsTexts texts (.ofTexts texts)

/-- An object that is not empty and has the given keys, with a value for each that holds its entry.
-/
def Json.HoldsEntries {β : Type} (holds : β → Json → Prop) (entries : List (String × β))
    (value : Json) : Prop :=
  ∃ members, value = .object members ∧ members ≠ [] ∧
    (members.map (·.1)).Perm (entries.map (·.1)) ∧
    ∀ {key value}, (key, value) ∈ members → ∃ entry, (key, entry) ∈ entries ∧ holds entry value

/-- One text stands for itself and several for an array of them, the same one never twice. -/
theorem Json.holdsTexts_oneOrMany {texts : List String} (hnodup : texts.Nodup) :
    HoldsTexts texts (oneOrMany texts) := by
  unfold oneOrMany
  split
  · exact .one _
  · rename_i hne
    refine .many ?_ hnodup
    intro hlength
    obtain ⟨text, rfl⟩ := List.length_eq_one_iff.mp hlength
    exact hne text rfl

theorem sorted_oneOrMany (texts : List String) : (oneOrMany texts).sorted = oneOrMany texts := by
  unfold oneOrMany
  split
  · rfl
  · rw [Json.ofTexts, Json.sorted, Json.sortedItems_eq_map, List.map_map]
    rfl

/-- Sorting an object whose values hold the entries, once they are sorted, leaves one that holds
them. -/
theorem Json.holdsEntries_sorted {α β : Type} {holds : β → Json → Prop} {entries : List α}
    (name : α → String) (entry : α → β) (write : α → Json) (hne : entries ≠ [])
    (hholds : ∀ x ∈ entries, holds (entry x) (write x).sorted) :
    HoldsEntries holds (entries.map fun x => (name x, entry x))
      (object (entries.map fun x => (name x, write x))).sorted := by
  obtain ⟨reordered, hsorted, hperm⟩ := sorted_object (entries.map fun x => (name x, write x))
  refine ⟨reordered, hsorted, ?_, ?_, ?_⟩
  · rintro rfl
    exact hne (by simpa using hperm)
  · have hkeys := hperm.map (·.1)
    simpa only [List.map_map, Function.comp_def] using hkeys
  · intro key value hmember
    obtain ⟨member, hwritten, heq⟩ := List.mem_map.mp (hperm.mem_iff.mp hmember)
    obtain ⟨x, hx, rfl⟩ := List.mem_map.mp hwritten
    obtain ⟨rfl, rfl⟩ := Prod.mk.inj heq
    exact ⟨entry x, List.mem_map.mpr ⟨x, hx, rfl⟩, hholds x hx⟩

theorem Clauses.holdsEntries_keysToJson {keys : List (String × List String)} (hne : keys ≠ [])
    (hnodup : ∀ {key values}, (key, values) ∈ keys → values.Nodup) :
    Json.HoldsEntries Json.HoldsTexts keys (keysToJson keys).sorted := by
  have hholds : ∀ entry ∈ keys, Json.HoldsTexts entry.2 (oneOrMany entry.2).sorted := by
    intro entry hentry
    rw [sorted_oneOrMany]
    exact Json.holdsTexts_oneOrMany (hnodup hentry)
  have hobject := Json.holdsEntries_sorted (·.1) (·.2) (fun entry => oneOrMany entry.2) hne hholds
  rwa [List.map_id'] at hobject

theorem Clauses.holdsEntries_toJson {clauses : Clauses} (hvalid : clauses.WellFormed)
    (hne : clauses ≠ []) :
    Json.HoldsEntries (Json.HoldsEntries Json.HoldsTexts)
      (clauses.map fun (operator, keys) => (operator.text, keys)) clauses.toJson.sorted := by
  refine Json.holdsEntries_sorted (·.1.text) (·.2) (fun clause => keysToJson clause.2) hne ?_
  intro clause hclause
  exact holdsEntries_keysToJson (hvalid.keys_ne_nil hclause) fun hkey =>
    hvalid.nodup_values hclause hkey

namespace Statement

/-- The name of the member that holds the actions. -/
def actionName (statement : Statement) : String :=
  if statement.notAction then "NotAction" else "Action"

/-- The name of the member that holds the resources. -/
def resourceName (statement : Statement) : String :=
  if statement.notResource then "NotResource" else "Resource"

/-- The names of the members of a statement. -/
def memberNames (statement : Statement) : List String :=
  (if statement.sid.isSome then ["Sid"] else []) ++
    ["Effect", statement.actionName, statement.resourceName] ++
    (if statement.conditions.isEmpty then [] else ["Condition"])

/-- The conditions of a statement by the texts of their operators. -/
def namedConditions (statement : Statement) : List (String × List (String × List String)) :=
  statement.conditions.map fun (operator, keys) => (operator.text, keys)

/-- Members that hold a statement, in whatever order: no member beyond those that the statement
calls for, and in each what the statement has for it. -/
structure HeldBy (statement : Statement) (members : List (String × Json)) : Prop where
  names : (members.map (·.1)).Perm statement.memberNames
  sid : ∀ {sid}, statement.sid = some sid → ("Sid", .string sid) ∈ members
  effect : ("Effect", .string statement.effect.text) ∈ members
  actions : ∃ value, (statement.actionName, value) ∈ members ∧
    Json.HoldsTexts statement.actions value
  resources : ∃ value, (statement.resourceName, value) ∈ members ∧
    Json.HoldsTexts statement.writtenResources value ∧
    ∀ {items}, value = .array items → 2 ≤ items.length
  conditions : statement.conditions ≠ [] → ∃ value, ("Condition", value) ∈ members ∧
    Json.HoldsEntries (Json.HoldsEntries Json.HoldsTexts) statement.namedConditions value

/-- No member of a statement is written twice. -/
theorem nodup_memberNames (statement : Statement) : statement.memberNames.Nodup := by
  unfold memberNames actionName resourceName
  cases statement.sid.isSome <;> cases statement.notAction <;> cases statement.notResource <;>
    cases statement.conditions.isEmpty <;> decide

/-- A document names the resources of its statement, and a star when the statement has none. -/
theorem writtenResources_eq_iff {statement : Statement} {texts : List String} :
    statement.writtenResources = texts ↔
      texts ≠ [] ∧ statement.resources = texts ∨ statement.resources = [] ∧ texts = ["*"] := by
  unfold writtenResources
  cases hresources : statement.resources with
  | nil =>
    refine ⟨fun heq => .inr ⟨rfl, heq.symm⟩, ?_⟩
    rintro (⟨hne, heq⟩ | ⟨-, heq⟩)
    · exact absurd heq.symm hne
    · exact heq.symm
  | cons resource resources =>
    refine ⟨fun heq => .inl ⟨?_, heq⟩, ?_⟩
    · rintro rfl
      cases heq
    · rintro (⟨-, heq⟩ | ⟨hnil, -⟩)
      · exact heq
      · cases hnil

/-- A statement is written for all resources when none was added. -/
theorem writtenResources_ne_nil (statement : Statement) : statement.writtenResources ≠ [] := by
  intro hnil
  obtain ⟨hne, -⟩ | ⟨-, heq⟩ := writtenResources_eq_iff.mp hnil
  · exact hne rfl
  · cases heq

theorem WellFormed.nodup_writtenResources {statement : Statement} (hvalid : statement.WellFormed) :
    statement.writtenResources.Nodup := by
  obtain ⟨-, heq⟩ | ⟨-, heq⟩ := writtenResources_eq_iff.mp (Eq.refl statement.writtenResources)
  · rw [← heq]
    exact hvalid.nodup_resources
  · rw [heq]
    exact List.pairwise_singleton _ _

/-- An array stands for the resources only when there are several. -/
theorem two_le_of_writtenResources_eq_array {statement : Statement} {items : List Json}
    (harray : oneOrMany statement.writtenResources = .array items) : 2 ≤ items.length := by
  unfold oneOrMany at harray
  split at harray
  · cases harray
  · rename_i hne
    have hlength : items.length = statement.writtenResources.length := by
      rw [← Json.array.inj harray, List.length_map]
    match hresources : statement.writtenResources with
    | [] => exact absurd hresources statement.writtenResources_ne_nil
    | [resource] => exact absurd hresources (hne resource)
    | _ :: _ :: _ =>
      rw [hresources] at hlength
      simp [hlength]

/-- The members of a statement in the order in which they are written. -/
def members (statement : Statement) : List (String × Json) :=
  (match statement.sid with
    | some sid => [("Sid", .string sid)]
    | none => []) ++
  [("Effect", .string statement.effect.text), (statement.actionName, oneOrMany statement.actions),
    (statement.resourceName, oneOrMany statement.writtenResources)] ++
  (if statement.conditions.isEmpty then [] else [("Condition", statement.conditions.toJson)])

theorem toJson_eq_object (statement : Statement) : statement.toJson = .object statement.members :=
  rfl

theorem names_members (statement : Statement) :
    statement.members.map (·.1) = statement.memberNames := by
  unfold members memberNames
  cases statement.sid <;> cases statement.conditions <;> rfl

/-- The members of a statement, each sorted, hold it in whatever order they stand. -/
theorem WellFormed.heldBy {statement : Statement} {reordered : List (String × Json)}
    (hvalid : statement.WellFormed)
    (hperm : reordered.Perm (statement.members.map fun (key, value) => (key, value.sorted))) :
    statement.HeldBy reordered := by
  have hmem : ∀ {key value}, (key, value) ∈ statement.members → (key, value.sorted) ∈ reordered :=
    fun hmember => hperm.mem_iff.mpr (List.mem_map.mpr ⟨_, hmember, rfl⟩)
  constructor
  case names =>
    have hnames := hperm.map (·.1)
    rw [List.map_map] at hnames
    rw [← names_members]
    exact hnames
  case sid =>
    intro sid hsid
    have hmember : ("Sid", .string sid) ∈ statement.members := by
      simp [members, hsid]
    exact hmem hmember
  case effect =>
    have hmember : ("Effect", .string statement.effect.text) ∈ statement.members := by
      simp [members]
    exact hmem hmember
  case actions =>
    have hmember : (statement.actionName, oneOrMany statement.actions) ∈ statement.members := by
      simp [members]
    refine ⟨oneOrMany statement.actions, ?_, Json.holdsTexts_oneOrMany hvalid.nodup_actions⟩
    rw [← sorted_oneOrMany]
    exact hmem hmember
  case resources =>
    have hmember : (statement.resourceName, oneOrMany statement.writtenResources) ∈
        statement.members := by
      simp [members]
    refine ⟨oneOrMany statement.writtenResources, ?_,
      Json.holdsTexts_oneOrMany hvalid.nodup_writtenResources, two_le_of_writtenResources_eq_array⟩
    rw [← sorted_oneOrMany]
    exact hmem hmember
  case conditions =>
    intro hne
    have hmember : ("Condition", statement.conditions.toJson) ∈ statement.members := by
      simp [members, hne]
    exact ⟨_, hmem hmember, Clauses.holdsEntries_toJson hvalid.conditions hne⟩

end Statement

theorem distinctKeys_oneOrMany (texts : List String) : (oneOrMany texts).DistinctKeys := by
  unfold oneOrMany
  split
  · trivial
  · exact Json.distinctKeysItems_iff.mpr fun item hitem => by
      obtain ⟨text, _, rfl⟩ := List.mem_map.mp hitem
      trivial

theorem Clauses.WellFormed.distinctKeys {clauses : Clauses} (hvalid : clauses.WellFormed) :
    clauses.toJson.DistinctKeys := by
  constructor
  · have hnodup : ((clauses.map (·.1)).map Condition.Operator.text).Nodup :=
      List.pairwise_map.mpr <| hvalid.nodup_operators.imp fun hne htext =>
        hne (Condition.Operator.text_injective htext)
    rw [List.map_map] at hnodup ⊢
    exact hnodup
  · rw [Json.distinctKeysMembers_iff]
    intro member hmember
    obtain ⟨⟨operator, keys⟩, hclause, rfl⟩ := List.mem_map.mp hmember
    constructor
    · rw [List.map_map]
      exact hvalid.nodup_keys hclause
    · rw [Json.distinctKeysMembers_iff]
      intro member hmember
      obtain ⟨⟨key, values⟩, _, rfl⟩ := List.mem_map.mp hmember
      exact distinctKeys_oneOrMany values

namespace Statement

/-- No object in the document of a statement repeats a name. -/
theorem WellFormed.distinctKeys {statement : Statement} (hvalid : statement.WellFormed) :
    statement.toJson.DistinctKeys := by
  rw [toJson_eq_object]
  constructor
  · rw [names_members]
    exact statement.nodup_memberNames
  · rw [Json.distinctKeysMembers_iff]
    intro member hmember
    simp only [members, List.mem_append, List.mem_cons, List.not_mem_nil, or_false] at hmember
    obtain (hsid | rfl | rfl | rfl) | hconditions := hmember
    · split at hsid
      · obtain rfl := List.mem_singleton.mp hsid
        trivial
      · simp at hsid
    · trivial
    · exact distinctKeys_oneOrMany _
    · exact distinctKeys_oneOrMany _
    · split at hconditions
      · simp at hconditions
      · obtain rfl := List.mem_singleton.mp hconditions
        exact hvalid.conditions.distinctKeys

/-- Both texts of a reachable statement are strict documents with one and the same value, that which
sorting its members makes the statement's value. No key stands twice at any level, and the members
hold the statement and nothing else. -/
theorem Reachable.documents_agree {statement : Statement} (hreachable : statement.Reachable) :
    ∃ value members,
      Json.Grammar.Document statement.compact value ∧
      Json.Grammar.Document statement.pretty value ∧
      Json.read? statement.compact = some value ∧ Json.read? statement.pretty = some value ∧
      value.Same statement.toValue ∧ value.DistinctKeys ∧ statement.toValue.DistinctKeys ∧
      statement.toValue = .object members ∧ statement.HeldBy members := by
  have hvalid := hreachable.wellFormed
  have htextual := statement.textual_toJson
  obtain ⟨members, hsorted, hperm⟩ := Json.sorted_object statement.members
  exact ⟨statement.toJson, members, Json.document_compact htextual, Json.document_pretty htextual,
    statement.read?_compact, statement.read?_pretty, Json.same_sorted _, hvalid.distinctKeys,
    hvalid.distinctKeys.sorted, hsorted, hvalid.heldBy hperm⟩

/-- A statement with a member of every kind, one action, no resource and a value to be escaped. -/
def tagged : Statement :=
  (start (some "Tagged")).run
    [.addAction "s3:GetObject", .addCondition "aws:PrincipalTag/team" ["a\"b", "ü\n"] .stringLike,
      .setNotAction true, .addAction "s3:GetObject"]

theorem documents_agree_tagged :
    tagged.Reachable ∧ ∃ value members,
      Json.Grammar.Document tagged.compact value ∧ Json.Grammar.Document tagged.pretty value ∧
      Json.read? tagged.compact = some value ∧ Json.read? tagged.pretty = some value ∧
      value.Same tagged.toValue ∧ value.DistinctKeys ∧ tagged.toValue.DistinctKeys ∧
      tagged.toValue = .object members ∧ tagged.HeldBy members := by
  have hreachable : tagged.Reachable := ⟨_, _, rfl⟩
  exact ⟨hreachable, hreachable.documents_agree⟩

end Statement

end PolicyForge
