import PolicyForge.Proofs.Text.Cut
import PolicyForge.Source.FormatString

namespace PolicyForge.Source.FormatString

/-- What a part stands for when arguments have values. -/
def value? (binding : String → Option String) : FormatPart → Option String
  | .text text => some text
  | .argument ident => binding ident

/-- A part that can be told from what stands around it: a brace in an identifier would open or close
the argument at the wrong place. -/
def Plain : FormatPart → Prop
  | .text _ => True
  | .argument ident => '{' ∉ ident.toList ∧ '}' ∉ ident.toList

/-- A character that is written doubled when it is a brace is read back as itself. -/
theorem evaluate?_double (binding : String → Option String) (c : Char) (rest : List Char) :
    evaluate? binding (double c ++ rest) = (evaluate? binding rest).map (c :: ·) := by
  unfold double
  split
  · rename_i hbrace
    simp only [Bool.or_eq_true, beq_iff_eq] at hbrace
    obtain rfl | rfl := hbrace
    · rw [List.cons_append, List.cons_append, List.nil_append, evaluate?]
      rfl
    · rw [List.cons_append, List.cons_append, List.nil_append, evaluate?]
      rfl
  · rename_i hplain
    simp only [Bool.or_eq_true, beq_iff_eq, not_or] at hplain
    obtain ⟨hopen, hclose⟩ := hplain
    rw [List.cons_append, List.nil_append, evaluate?]
    · rfl
    · exact fun _ h _ => hopen h
    · exact fun _ h _ => hclose h
    · exact hopen
    · exact hclose

theorem evaluate?_text (binding : String → Option String) (text rest : List Char) :
    evaluate? binding (text.flatMap double ++ rest) = (evaluate? binding rest).map (text ++ ·) := by
  induction text with
  | nil => simp
  | cons c text ih =>
    rw [List.flatMap_cons, List.append_assoc, evaluate?_double, ih, Option.map_map]
    rfl

theorem evaluate?_argument (binding : String → Option String) {ident : List Char}
    (hopen : '{' ∉ ident) (hclose : '}' ∉ ident) (rest : List Char) :
    evaluate? binding ('{' :: ident ++ '}' :: rest) =
      (binding (String.ofList ident)).bind fun value =>
        (evaluate? binding rest).map (value.toList ++ ·) := by
  have hcut := Text.cutAt_append hclose rest
  have hsingle : ∀ more, ident ++ '}' :: rest = '{' :: more → False := by
    intro more heq
    cases ident with
    | nil => simp at heq
    | cons c cs =>
      obtain ⟨rfl, _⟩ := List.cons.inj heq
      exact hopen List.mem_cons_self
  rw [List.cons_append, evaluate?]
  · split
    · rename_i hnone
      cases hcut.symm.trans hnone
    · rename_i found after hsome
      obtain ⟨rfl, rfl⟩ := Prod.mk.inj (Option.some.inj (hcut.symm.trans hsome))
      cases binding (String.ofList ident) with
      | none => rfl
      | some value => cases evaluate? binding rest <;> rfl
  · exact hsingle

/-- Reading what was written gives the values of the parts one after the other, and fails just when
one of them has none. -/
theorem evaluate?_write (binding : String → Option String) {parts : List FormatPart}
    (hplain : ∀ part ∈ parts, Plain part) :
    evaluate? binding (write parts).toList =
      (parts.mapM (value? binding)).map fun values => (String.join values).toList := by
  induction parts with
  | nil =>
    rw [write, List.map_nil, String.join_nil, String.toList_empty, evaluate?]
    rfl
  | cons part parts ih =>
    have hrest := ih fun other hother => hplain other (List.mem_cons_of_mem part hother)
    have hwrite : (write (part :: parts)).toList = (writePart part).toList ++ (write parts).toList := by
      rw [write, List.map_cons, String.join_cons, String.toList_append, write]
    rw [hwrite, List.mapM_cons]
    cases part with
    | text text =>
      rw [writePart, String.toList_ofList, evaluate?_text, hrest]
      cases parts.mapM (value? binding) <;> simp [value?]
    | argument ident =>
      obtain ⟨hopen, hclose⟩ := hplain _ List.mem_cons_self
      have hargument : (writePart (.argument ident)).toList = '{' :: ident.toList ++ ['}'] := by
        simp [writePart]
      rw [hargument, List.append_assoc, List.singleton_append, evaluate?_argument binding hopen hclose,
        hrest, String.ofList_toList]
      cases hvalue : binding ident with
      | none => simp [value?, hvalue]
      | some value => cases parts.mapM (value? binding) <;> simp [value?, hvalue]

/-- A text without braces reads as itself. -/
theorem evaluate?_of_no_brace (binding : String → Option String) {text : List Char}
    (hopen : '{' ∉ text) (hclose : '}' ∉ text) : evaluate? binding text = some text := by
  have hsame : text.flatMap double = text := by
    have hdouble : ∀ c ∈ text, double c = [c] := by
      intro c hc
      have hopen : c ≠ '{' := fun heq => hopen (heq ▸ hc)
      have hclose : c ≠ '}' := fun heq => hclose (heq ▸ hc)
      simp [double, hopen, hclose]
    rw [List.flatMap_def, List.map_congr_left hdouble, ← List.flatMap_def]
    simp
  have hread := evaluate?_text binding text []
  rw [hsame, List.append_nil, evaluate?] at hread
  simpa using hread

end PolicyForge.Source.FormatString
