import PolicyForge.Proofs.Text.Cut
import PolicyForge.Source.Layout

namespace PolicyForge.Source

theorem indent_infix_enclose {opening closing : String} {inner body : List String}
    (hinner : inner <:+: body) : indent inner <:+: enclose opening body closing :=
  (hinner.map indentLine).trans (List.infix_cons (List.prefix_append _ _).isInfix)

/-- Every line is ended by a line feed. -/
theorem toList_unlines (lines : List String) :
    (unlines lines).toList = (lines.map String.toList).flatMap (· ++ ['\n']) := by
  simp [unlines, String.toList_join, List.flatMap_map]

/-- Each line that is written is as many lines of the source as its breaks make of it. -/
theorem lines_unlines (lines : List String) :
    Text.lines (unlines lines).toList =
      (lines.map String.toList).flatMap (Text.pieces (· == '\n')) := by
  rw [toList_unlines, Text.lines_flatMap_ended]

/-- What is written is read back line by line just when no line has a break in it. -/
theorem lines_unlines_eq_iff {lines : List String} :
    Text.lines (unlines lines).toList = lines.map String.toList ↔
      ∀ line ∈ lines, '\n' ∉ line.toList := by
  constructor
  · intro hsame line hline
    exact Text.newline_not_mem_of_mem_lines (hsame ▸ List.mem_map_of_mem hline)
  · intro hunbroken
    have hown : ∀ line ∈ lines.map String.toList, Text.pieces (· == '\n') line = [line] := by
      intro _ hmem
      obtain ⟨line, hline, rfl⟩ := List.mem_map.mp hmem
      exact Text.pieces_of_newline_not_mem (hunbroken line hline)
    rw [lines_unlines, List.flatMap_def, List.map_congr_left hown, ← List.flatMap_def]
    simp

/-- A line of source that is a comment from its first character on, blanks in front aside. -/
def IsCommentLine (line : List Char) : Prop :=
  ['/', '/'] <+: line.dropWhile (· == ' ')

instance (line : List Char) : Decidable (IsCommentLine line) :=
  inferInstanceAs (Decidable (_ <+: _))

/-- Written lines of which each takes up one line of the source, and that is a comment. -/
def IsComment (lines : List String) : Prop :=
  ∀ line ∈ lines, '\n' ∉ line.toList ∧ IsCommentLine line.toList

/-- The lines of the text are the lines it was made of, and each is a comment line. -/
theorem IsComment.of_mem_lines {lines : List String} (hcomment : IsComment lines)
    {physical : List Char} (hmem : physical ∈ Text.lines (unlines lines).toList) :
    IsCommentLine physical := by
  rw [lines_unlines_eq_iff.mpr fun line hline => (hcomment line hline).1] at hmem
  obtain ⟨line, hline, rfl⟩ := List.mem_map.mp hmem
  exact (hcomment line hline).2

theorem IsComment.indent {lines : List String} (hcomment : IsComment lines) :
    IsComment (indent lines) := by
  intro line hline
  obtain ⟨inner, hinner, rfl⟩ := List.mem_map.mp hline
  obtain ⟨hbreak, hstart⟩ := hcomment inner hinner
  unfold indentLine
  split
  · exact ⟨hbreak, hstart⟩
  · rw [String.toList_append]
    refine ⟨?_, hstart⟩
    rw [List.mem_append, not_or]
    exact ⟨by decide, hbreak⟩

theorem eq_quote_or_mem_of_mem_defuse {cs : List Char} {c : Char} (hmem : c ∈ defuse cs) :
    c = '\'' ∨ c ∈ cs := by
  fun_induction defuse cs with
  | case1 rest ih =>
    simp only [List.mem_cons] at hmem ⊢
    obtain rfl | rfl | rfl | hrest := hmem
    · exact .inl rfl
    · exact .inl rfl
    · exact .inl rfl
    · exact (ih hrest).imp_right fun h => .inr (.inr (.inr h))
  | case2 own rest _ ih =>
    obtain rfl | hrest := List.mem_cons.mp hmem
    · exact .inr List.mem_cons_self
    · exact (ih hrest).imp_right (List.mem_cons_of_mem own)
  | case3 => exact .inr hmem

/-- Whatever the text, its documentation is made of comment lines. -/
theorem isComment_doc (text : String) : IsComment (doc text) := by
  intro line hline
  obtain ⟨cs, hcs, rfl⟩ := List.mem_map.mp hline
  have hbreak : '\n' ∉ Text.strip Text.isBlank cs :=
    fun hmem => Text.newline_not_mem_of_mem_lines hcs (Text.mem_of_mem_strip hmem)
  unfold docLine
  dsimp only
  split
  · decide
  · rw [String.toList_append]
    refine ⟨?_, ⟨_, rfl⟩⟩
    rw [List.mem_append, not_or]
    refine ⟨by decide, ?_⟩
    rw [String.toList_ofList]
    exact fun hmem => (eq_quote_or_mem_of_mem_defuse hmem).elim (by decide) hbreak

end PolicyForge.Source
