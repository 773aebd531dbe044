import PolicyForge.Arn.Template

namespace PolicyForge.Arn

/-- The names of placeholders are made of ASCII letters and digits, underscores and hyphens. -/
theorem isNameChar_iff {c : Char} :
    isNameChar c = true ↔ 'a' ≤ c ∧ c ≤ 'z' ∨ 'A' ≤ c ∧ c ≤ 'Z' ∨ '0' ≤ c ∧ c ≤ '9' ∨
      c = '_' ∨ c = '-' := by
  have hcases : isNameChar c = true ↔ (c.isAlphanum = true ∨ c = '_') ∨ c = '-' := by
    simp [isNameChar]
  have halphanum : c.isAlphanum = true ↔
      (('A' ≤ c ∧ c ≤ 'Z') ∨ ('a' ≤ c ∧ c ≤ 'z')) ∨ ('0' ≤ c ∧ c ≤ '9') := by
    delta Char.isAlphanum Char.isAlpha Char.isUpper Char.isLower Char.isDigit
    simp [Char.le_def]
  grind

theorem toList_render_literal (text : String) : (Segment.literal text).render.toList = text.toList :=
  rfl

theorem toList_render_placeholder (name : String) :
    (Segment.placeholder name).render.toList = '$' :: '{' :: name.toList ++ ['}'] := by
  simp [Segment.render, Segment.fill]

/-- The literal read so far is held backwards and closed to a segment only when it is not empty;
either way its text is kept. -/
theorem flatMap_render_closeLiteral (reversed : List Char) :
    (closeLiteral reversed).flatMap (·.render.toList) = reversed.reverse := by
  unfold closeLiteral
  split
  · rename_i hempty
    rw [List.isEmpty_iff.mp hempty]
    rfl
  · simp [toList_render_literal]

/-- Where a placeholder opens, it is read with all that follows it, or nothing is. -/
theorem scan_open_ok {offset : Nat} {literal rest : List Char} {segments : List Segment}
    (hscan : scan offset literal ('$' :: '{' :: rest) = .ok segments) :
    ∃ name after others, Text.cutAt '}' rest = some (name, after) ∧ name ≠ [] ∧
      name.all isNameChar = true ∧
      scan (offset + (String.ofList name).utf8ByteSize + 3) [] after = .ok others ∧
      segments = closeLiteral literal ++ .placeholder (String.ofList name) :: others := by
  rw [scan] at hscan
  split at hscan
  · cases hscan
  · rename_i name after hcut
    dsimp only at hscan
    split at hscan
    · cases hscan
    · rename_i hname
      split at hscan
      · rename_i hchars
        cases hothers : scan (offset + (String.ofList name).utf8ByteSize + 3) [] after with
        | error reason =>
          rw [hothers] at hscan
          cases hscan
        | ok others =>
          rw [hothers] at hscan
          cases hscan
          exact ⟨name, after, others, hcut, by simpa using hname, hchars, hothers, rfl⟩
      · cases hscan

/-- The segments read from here on say what was collected before and what follows. -/
theorem flatMap_render_scan {offset : Nat} {literal cs : List Char} {segments : List Segment}
    (hscan : scan offset literal cs = .ok segments) :
    segments.flatMap (·.render.toList) = literal.reverse ++ cs := by
  induction offset, literal, cs using scan.induct generalizing segments with
  | case1 offset literal =>
    rw [scan] at hscan
    cases hscan
    rw [flatMap_render_closeLiteral, List.append_nil]
  | case2 offset literal rest hnone =>
    obtain ⟨_, _, _, hcut, _⟩ := scan_open_ok hscan
    cases hnone.symm.trans hcut
  | case3 offset literal rest name after hsome hempty =>
    obtain ⟨_, _, _, hcut, hname, _⟩ := scan_open_ok hscan
    obtain ⟨rfl, rfl⟩ := Prod.mk.inj (Option.some.inj (hsome.symm.trans hcut))
    exact absurd (List.isEmpty_iff.mp hempty) hname
  | case4 offset literal rest name after hsome =>
    rename_i ih
    obtain ⟨_, _, others, hcut, _, _, hothers, rfl⟩ := scan_open_ok hscan
    obtain ⟨rfl, rfl⟩ := Prod.mk.inj (Option.some.inj (hsome.symm.trans hcut))
    have hrest := Text.cutAt_eq_some hcut
    have hafter := ih hothers
    rw [List.flatMap_append, List.flatMap_cons, flatMap_render_closeLiteral,
      toList_render_placeholder, String.toList_ofList, hafter, hrest]
    simp
  | case5 offset literal rest name after hsome _ hinvalid =>
    obtain ⟨_, _, _, hcut, _, hchars, _⟩ := scan_open_ok hscan
    obtain ⟨rfl, rfl⟩ := Prod.mk.inj (Option.some.inj (hsome.symm.trans hcut))
    exact absurd hchars hinvalid
  | case6 offset literal c rest hplain ih =>
    rw [scan] at hscan
    · have hrest := ih hscan
      rw [hrest]
      simp
    · exact hplain

namespace Template

/-- An accepted text is what its segments say when their placeholders are written out. -/
theorem join_render_of_parse {raw : String} {template : Template}
    (hparse : parse raw = .ok template) :
    template.raw = raw ∧ String.join (template.segments.map Segment.render) = raw := by
  cases hscan : scan 0 [] raw.toList with
  | error reason =>
    rw [parse, hscan] at hparse
    cases hparse
  | ok segments =>
    rw [parse, hscan] at hparse
    cases hparse
    refine ⟨rfl, ?_⟩
    rw [← String.toList_inj, String.toList_join, List.flatMap_map]
    exact flatMap_render_scan hscan

/-- The placeholders listed for a template are the names that stand in it. -/
theorem mem_placeholders {template : Template} {name : String} :
    name ∈ template.placeholders ↔ .placeholder name ∈ template.segments := by
  rw [placeholders, List.mem_filterMap]
  constructor
  · rintro ⟨segment, hsegment, hname⟩
    cases segment with
    | literal text => cases hname
    | placeholder own =>
      cases hname
      exact hsegment
  · intro hsegment
    exact ⟨_, hsegment, rfl⟩

theorem hasPlaceholders_of_mem {template : Template} {name : String}
    (hname : .placeholder name ∈ template.segments) : template.hasPlaceholders = true := by
  have hmem := mem_placeholders.mpr hname
  simp [hasPlaceholders, List.ne_nil_of_mem hmem]

/-- The custom placeholders are those whose name is no standard argument's. -/
theorem mem_customPlaceholders {template : Template} {name : String} :
    name ∈ template.customPlaceholders ↔
      .placeholder name ∈ template.segments ∧ Standard.ofName? name = none := by
  simp [customPlaceholders, mem_placeholders]

/-- A standard argument is listed when some placeholder of the template names it. -/
theorem mem_standardPlaceholders {template : Template} {standard : Standard} :
    standard ∈ template.standardPlaceholders ↔
      ∃ name, .placeholder name ∈ template.segments ∧ Standard.ofName? name = some standard := by
  have horder : standard ∈ Standard.argumentOrder := by
    cases standard <;> decide
  simp [standardPlaceholders, horder, mem_placeholders]

/-- A template without placeholders is its text however it is filled. -/
theorem fill_eq_raw {raw : String} {template : Template} (hparse : parse raw = .ok template)
    (hnone : template.hasPlaceholders = false) (lookup : String → Option String) :
    template.fill lookup = template.raw := by
  obtain ⟨hraw, hjoin⟩ := join_render_of_parse hparse
  have hsame : ∀ segment ∈ template.segments, segment.fill lookup = segment.render := by
    intro segment hsegment
    cases segment with
    | literal text => rfl
    | placeholder name => cases hnone.symm.trans (hasPlaceholders_of_mem hsegment)
  rw [fill, List.map_congr_left hsame, hjoin, hraw]

end Template

end PolicyForge.Arn
