import PolicyForge.Condition.KeyTemplate
import PolicyForge.Proofs.Text.Cut

namespace PolicyForge.Condition

/-- What a key has written behind its name. A placeholder stands behind a slash, and its letters and
digits name the parameter. -/
inductive KeyEnding.WrittenAs : KeyEnding → List Char → Prop where
  | plain : WrittenAs .plain []
  | openSuffix : WrittenAs .openSuffix ['/']
  | parameter {placeholder name : List Char} (hopens : KeyTemplate.endsName placeholder = true)
      (hname : placeholder.filter Char.isAlphanum = name) (hnonempty : name ≠ []) :
      WrittenAs (.parameter (String.ofList name)) ('/' :: placeholder)

namespace KeyTemplate

/-- The cut is made at a slash, and what stands behind it may follow a name. -/
theorem cutName_eq_some {rest name tail : List Char} (hcut : cutName rest = some (name, tail)) :
    rest = name ++ '/' :: tail ∧ endsName tail = true := by
  induction rest generalizing name tail with
  | nil => cases hcut
  | cons c rest ih =>
    rw [cutName] at hcut
    split at hcut
    · rename_i hends
      simp only [Bool.and_eq_true, beq_iff_eq] at hends
      obtain ⟨rfl, rfl⟩ := Prod.mk.inj (Option.some.inj hcut)
      exact ⟨by rw [hends.1, List.nil_append], hends.2⟩
    · obtain ⟨⟨front, back⟩, hrest, heq⟩ := Option.map_eq_some_iff.mp hcut
      obtain ⟨rfl, rfl⟩ := Prod.mk.inj heq
      obtain ⟨hfront, hends⟩ := ih hrest
      exact ⟨by rw [hfront, List.cons_append], hends⟩

/-- How an ending is written, slash included, when it is told from its tail. -/
theorem writtenAs_of_ofTail? {tail : List Char} {ending : KeyEnding} (hends : endsName tail = true)
    (hending : KeyEnding.ofTail? tail = some ending) : ending.WrittenAs ('/' :: tail) := by
  unfold KeyEnding.ofTail? at hending
  dsimp only at hending
  split at hending
  · rename_i hempty
    obtain rfl := List.isEmpty_iff.mp hempty
    obtain rfl := Option.some.inj hending
    exact .openSuffix
  · split at hending
    · cases hending
    · rename_i hletters
      obtain rfl := Option.some.inj hending
      exact .parameter hends rfl (by simpa using hletters)

/-- How the text behind the colon of a key is read: as a name alone, or as a name with an ending
behind the first slash that ends it. -/
inductive ReadAs (rest : List Char) : List Char → KeyEnding → Prop where
  | plain (hcut : cutName rest = none) : ReadAs rest rest .plain
  | ended {name tail : List Char} {ending : KeyEnding} (hcut : cutName rest = some (name, tail))
      (hending : KeyEnding.ofTail? tail = some ending) : ReadAs rest name ending

/-- A key is what stands in front of the first colon, and what is read from the text behind it. -/
theorem exists_readAs {raw : String} {key : KeyTemplate} (hparse : parse? raw = some key) :
    ∃ rest, Text.cutAt ':' raw.toList = some (key.servicePrefix.toList, rest) ∧
      ReadAs rest key.name.toList key.ending ∧
      key.raw = raw ∧ key.servicePrefix ≠ "" ∧ key.name ≠ "" := by
  obtain ⟨⟨servicePrefix, rest⟩, hcut, hparse⟩ := Option.bind_eq_some_iff.mp hparse
  obtain ⟨_, hpresent, hparse⟩ := Option.bind_eq_some_iff.mp hparse
  obtain ⟨name, ending, hread, hparse⟩ : ∃ name ending, ReadAs rest name ending ∧
      ((guard ((!name.isEmpty) = true) : Option Unit).bind fun _ => some
        (⟨raw, String.ofList servicePrefix, String.ofList name, ending⟩ : KeyTemplate)) =
        some key := by
    cases hname : cutName rest with
    | none =>
      rw [hname] at hparse
      exact ⟨rest, .plain, .plain hname, hparse⟩
    | some cut =>
      obtain ⟨name, tail⟩ := cut
      rw [hname] at hparse
      obtain ⟨_, hending, hparse⟩ := Option.bind_eq_some_iff.mp hparse
      obtain ⟨ending, htail, rfl⟩ := Option.map_eq_some_iff.mp hending
      exact ⟨name, ending, .ended hname htail, hparse⟩
  obtain ⟨_, hnamed, hparse⟩ := Option.bind_eq_some_iff.mp hparse
  obtain rfl := Option.some.inj hparse
  have hfront : servicePrefix ≠ [] := by
    rintro rfl
    cases hpresent
  have hname : name ≠ [] := by
    rintro rfl
    cases hnamed
  refine ⟨rest, ?_, ?_, rfl, by simpa using hfront, by simpa using hname⟩
  · rw [hcut, String.toList_ofList]
  · rwa [String.toList_ofList]

/-- A name and its ending, as written, make up the text they are read from. -/
theorem ReadAs.exists_written {rest name : List Char} {ending : KeyEnding}
    (hread : ReadAs rest name ending) :
    ∃ written, ending.WrittenAs written ∧ rest = name ++ written := by
  cases hread with
  | plain => exact ⟨[], .plain, (List.append_nil rest).symm⟩
  | ended hcut hending =>
    obtain ⟨hrest, hends⟩ := cutName_eq_some hcut
    exact ⟨_, writtenAs_of_ofTail? hends hending, hrest⟩

/-- A key that can be read is its prefix, a colon, its name, and what is written behind. -/
theorem parse?_eq_some {raw : String} {key : KeyTemplate} (hparse : parse? raw = some key) :
    key.raw = raw ∧ key.servicePrefix ≠ "" ∧ ':' ∉ key.servicePrefix.toList ∧ key.name ≠ "" ∧
      ∃ ending, key.ending.WrittenAs ending ∧
        raw = key.servicePrefix ++ ":" ++ key.name ++ String.ofList ending := by
  obtain ⟨rest, hcut, hread, hraw, hfront, hname⟩ := exists_readAs hparse
  obtain ⟨written, hwritten, hrest⟩ := hread.exists_written
  refine ⟨hraw, hfront, Text.not_mem_of_cutAt hcut, hname, written, hwritten, ?_⟩
  rw [← String.toList_inj, Text.cutAt_eq_some hcut, hrest]
  simp

/-- The key with an argument where its placeholder stands. A key without a placeholder stays as it
is. -/
def filled (key : KeyTemplate) (argument : String) : String :=
  key.servicePrefix ++ ":" ++ key.name ++
    match key.ending with
    | .plain => ""
    | .openSuffix => "/"
    | .parameter _ => "/" ++ argument

/-- Whatever argument fills the key, its colon is there: the prefix is never left out. -/
theorem colon_mem_filled (key : KeyTemplate) (argument : String) :
    ':' ∈ (key.filled argument).toList := by
  simp [filled]

/-- Without a placeholder there is nothing to fill. -/
theorem filled_eq_raw {raw : String} {key : KeyTemplate} (hparse : parse? raw = some key)
    (hnone : key.parameter? = none) (argument : String) : key.filled argument = raw := by
  obtain ⟨_, _, _, _, written, hwritten, hraw⟩ := parse?_eq_some hparse
  rw [hraw, filled]
  cases hending : key.ending with
  | plain =>
    rw [hending] at hwritten
    cases hwritten
    rfl
  | openSuffix =>
    rw [hending] at hwritten
    cases hwritten
    rfl
  | parameter name => simp [parameter?, hending] at hnone

/-- A key is filled by writing the argument behind the text in front of the placeholder. -/
theorem filled_eq_literalPrefix {raw : String} {key : KeyTemplate} (hparse : parse? raw = some key)
    (argument : String) :
    key.filled argument =
      key.literalPrefix ++ if key.parameter?.isSome then argument else "" := by
  obtain ⟨hraw, _⟩ := parse?_eq_some hparse
  cases hending : key.ending with
  | plain =>
    have hnone : key.parameter? = none := by rw [parameter?, hending]
    rw [filled_eq_raw hparse hnone, literalPrefix, hending, hnone, ← hraw]
    simp
  | openSuffix => simp [filled, literalPrefix, parameter?, hending, String.append_assoc]
  | parameter name => simp [filled, literalPrefix, parameter?, hending, String.append_assoc]

end KeyTemplate

end PolicyForge.Condition
