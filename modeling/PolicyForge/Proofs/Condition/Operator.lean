import Mathlib.Data.List.Infix
import PolicyForge.Condition.Operator
import PolicyForge.Proofs.Lists
import PolicyForge.Proofs.Text.Case
import PolicyForge.Proofs.Text.Cut

namespace PolicyForge.Condition

namespace OperatorKind

/-- No two kinds have one text, so the table finds the kind again. -/
theorem ofText?_text (kind : OperatorKind) : ofText? kind.text = some kind := by
  cases kind <;> decide

theorem ofText?_eq_some_iff {name : String} {kind : OperatorKind} :
    ofText? name = some kind ↔ kind.text = name := by
  constructor
  · intro hread
    simpa using List.find?_some hread
  · rintro rfl
    exact ofText?_text kind

/-- No kind has a colon, which is what ends a qualifier. -/
theorem colon_not_mem_text (kind : OperatorKind) : ':' ∉ kind.text.toList := by
  cases kind <;> decide

/-- No kind ends as an operator with the ending does, so the ending is told apart from the kind. -/
theorem stripEnding?_text (kind : OperatorKind) :
    Operator.stripEnding? "IfExists".toList kind.text.toList = none := by
  cases kind <;> decide

end OperatorKind

namespace SetQualifier

theorem ofText?_text (qualifier : SetQualifier) : ofText? qualifier.text = some qualifier := by
  cases qualifier <;> decide

/-- The table of qualifiers decides a name by equality with their texts. -/
theorem ofText?_eq_some_iff {name : String} {qualifier : SetQualifier} :
    ofText? name = some qualifier ↔ qualifier.text = name := by
  constructor
  · intro hread
    simpa using List.find?_some hread
  · rintro rfl
    exact ofText?_text qualifier

theorem colon_not_mem_text (qualifier : SetQualifier) : ':' ∉ qualifier.text.toList := by
  cases qualifier <;> decide

end SetQualifier

namespace Operator

variable {source : String} {op : Operator}

theorem stripEnding?_append (ending cs : List Char) :
    stripEnding? ending (cs ++ ending) = some cs := by
  simp [stripEnding?]

/-- What stands behind the qualifier. -/
def comparisonChars (op : Operator) : List Char :=
  op.kind.text.toList ++ if op.ifExists then "IfExists".toList else []

/-- The part of an operator behind its qualifier is read back, ending included. -/
theorem parseComparison?_comparisonChars (op : Operator) :
    parseComparison? op.comparisonChars = some (op.kind, op.ifExists) := by
  obtain ⟨kind, qualifier, ifExists⟩ := op
  cases ifExists with
  | true =>
    have hchars : comparisonChars ⟨kind, qualifier, true⟩ =
        kind.text.toList ++ "IfExists".toList := rfl
    rw [hchars, parseComparison?, stripEnding?_append]
    simp [OperatorKind.ofText?_text]
  | false =>
    have hchars : comparisonChars ⟨kind, qualifier, false⟩ = kind.text.toList := by
      simp [comparisonChars]
    rw [hchars, parseComparison?, OperatorKind.stripEnding?_text]
    simp [OperatorKind.ofText?_text]

theorem colon_not_mem_comparisonChars (op : Operator) : ':' ∉ op.comparisonChars := by
  rw [comparisonChars, List.mem_append, not_or]
  refine ⟨op.kind.colon_not_mem_text, ?_⟩
  cases op.ifExists <;> decide

/-- What stands in front of the comparison. -/
def qualifierChars (op : Operator) : List Char :=
  match op.qualifier with
  | some qualifier => qualifier.text.toList ++ [':']
  | none => []

theorem toList_text (op : Operator) : op.text.toList = op.qualifierChars ++ op.comparisonChars := by
  obtain ⟨kind, qualifier, ifExists⟩ := op
  cases qualifier <;> cases ifExists <;> simp [text, qualifierChars, comparisonChars]

/-- Reading inverts writing. -/
theorem parse?_text (op : Operator) : parse? op.text = some op := by
  have hcomparison := parseComparison?_comparisonChars op
  have hcolon := op.colon_not_mem_comparisonChars
  rw [parse?, toList_text]
  obtain ⟨kind, qualifier, ifExists⟩ := op
  cases qualifier with
  | none => simp [qualifierChars, Text.cutAt_eq_none hcolon, hcomparison]
  | some qualifier =>
    simp [qualifierChars, Text.cutAt_append qualifier.colon_not_mem_text, hcomparison,
      SetQualifier.ofText?_text]

/-- Parsing undoes display, so two operators never have one text. -/
theorem text_injective {a b : Operator} (htext : a.text = b.text) : a = b := by
  have hread := congrArg parse? htext
  rw [parse?_text, parse?_text] at hread
  exact Option.some.inj hread

theorem eq_append_of_stripEnding? {ending cs front : List Char}
    (hstrip : stripEnding? ending cs = some front) : cs = front ++ ending := by
  unfold stripEnding? at hstrip
  split at hstrip
  · rename_i hends
    obtain ⟨own, rfl⟩ := List.isSuffixOf_iff_suffix.mp hends
    obtain rfl := Option.some.inj hstrip
    simp
  · cases hstrip

theorem comparisonChars_of_parseComparison? {cs : List Char}
    (hread : parseComparison? cs = some (op.kind, op.ifExists)) : op.comparisonChars = cs := by
  unfold parseComparison? at hread
  split at hread
  all_goals
    obtain ⟨kind, hkind, heq⟩ := Option.map_eq_some_iff.mp hread
    obtain ⟨hown, hends⟩ := Prod.mk.inj heq
    have htext := OperatorKind.ofText?_eq_some_iff.mp hkind
    rw [comparisonChars, ← hown, ← hends, htext]
  · rename_i base hstrip
    simp [eq_append_of_stripEnding? hstrip]
  · simp

/-- Writing inverts reading. -/
theorem text_of_parse? (hread : parse? source = some op) : op.text = source := by
  rw [← String.toList_inj, toList_text]
  unfold parse? at hread
  split at hread
  · rename_i front rest hcut
    simp only [Option.bind_eq_bind, Option.bind_eq_some_iff] at hread
    obtain ⟨qualifier, hqualifier, ⟨kind, ifExists⟩, hcomparison, hop⟩ := hread
    obtain rfl := Option.some.inj hop
    have hfront := SetQualifier.ofText?_eq_some_iff.mp hqualifier
    rw [comparisonChars_of_parseComparison? hcomparison, Text.cutAt_eq_some hcut]
    simp [qualifierChars, hfront]
  · simp only [Option.bind_eq_bind, Option.bind_eq_some_iff] at hread
    obtain ⟨⟨kind, ifExists⟩, hcomparison, hop⟩ := hread
    obtain rfl := Option.some.inj hop
    rw [comparisonChars_of_parseComparison? hcomparison]
    rfl

/-- Parsing accepts the displays of operators and nothing else. -/
theorem parse?_eq_some_iff : parse? source = some op ↔ op.text = source := by
  constructor
  · exact text_of_parse?
  · rintro rfl
    exact parse?_text op

theorem parse_eq_ok_iff : parse source = .ok op ↔ op.text = source := by
  rw [← parse?_eq_some_iff, parse]
  cases parse? source <;> simp

/-- The error carries the refused text unchanged. -/
theorem parse_eq_error_iff : parse source = .error ⟨source⟩ ↔ ∀ op : Operator, op.text ≠ source := by
  simp only [ne_eq, ← parse?_eq_some_iff]
  rw [parse]
  cases parse? source <;> simp

/-- Spellings that are close to that of an operator, and not it: with a letter in another case, with
a blank, with a qualifier behind a qualifier, with an ending behind an ending, or with an ending
somewhere in front of a colon. -/
inductive Misspelled : String → Prop where
  | recased {source : String} (op : Operator) (hcase : Text.Recased op.text source)
      (hdiffers : source ≠ op.text) : Misspelled source
  | blank {source : String} {c : Char} (hmem : c ∈ source.toList) (hblank : Text.isBlank c = true) :
      Misspelled source
  | requalified (first second : SetQualifier) (rest : String) :
      Misspelled (first.text ++ ":" ++ second.text ++ ":" ++ rest)
  | endedTwice (front : String) : Misspelled (front ++ "IfExists" ++ "IfExists")
  | endedEarly (before between rest : String) :
      Misspelled (before ++ "IfExists" ++ between ++ ":" ++ rest)

/-- No operator has a blank, so a text with blanks around it is refused. -/
theorem not_isBlank_of_mem_text {c : Char} (hmem : c ∈ op.text.toList) : Text.isBlank c = false := by
  have hkind : ∀ kind : OperatorKind, kind.text.toList.all (!Text.isBlank ·) = true := by
    intro kind
    cases kind <;> decide +kernel
  have hqualifier : ∀ qualifier : SetQualifier,
      (qualifier.text.toList ++ [':']).all (!Text.isBlank ·) = true := by
    intro qualifier
    cases qualifier <;> decide +kernel
  have hending : "IfExists".toList.all (!Text.isBlank ·) = true := by decide +kernel
  have hplain : ∀ {cs : List Char}, cs.all (!Text.isBlank ·) = true → c ∈ cs →
      Text.isBlank c = false := by
    intro cs hcs hc
    simpa using List.all_eq_true.mp hcs c hc
  rw [toList_text, List.mem_append, comparisonChars, List.mem_append, qualifierChars] at hmem
  obtain hmem | hmem | hmem := hmem
  · split at hmem
    · exact hplain (hqualifier _) hmem
    · simp at hmem
  · exact hplain (hkind op.kind) hmem
  · split at hmem
    · exact hplain hending hmem
    · simp at hmem

/-- The only colon of a text is the one behind its qualifier. -/
theorem of_toList_text_eq_append {front rest : List Char}
    (htext : op.text.toList = front ++ ':' :: rest) :
    (∃ qualifier : SetQualifier, front = qualifier.text.toList) ∧ rest = op.comparisonChars := by
  have hcomparison := op.colon_not_mem_comparisonChars
  rw [toList_text, qualifierChars] at htext
  split at htext
  · rename_i qualifier _
    rw [List.append_assoc, List.singleton_append] at htext
    have hfront : ':' ∉ front := by
      have hcount := congrArg (List.count ':') htext
      rw [List.count_append, List.count_append, List.count_cons_self, List.count_cons_self,
        List.count_eq_zero_of_not_mem hcomparison,
        List.count_eq_zero_of_not_mem qualifier.colon_not_mem_text] at hcount
      rw [← List.count_eq_zero]
      omega
    obtain ⟨hown, hrest⟩ := Lists.append_cons_inj qualifier.colon_not_mem_text hfront htext
    exact ⟨⟨qualifier, hown.symm⟩, hrest.symm⟩
  · rw [List.nil_append] at htext
    exact absurd (htext ▸ List.mem_append_right front List.mem_cons_self) hcomparison

/-- No kind ends as the ending does. -/
theorem not_suffix_append_text (front : List Char) (kind : OperatorKind) :
    ¬ "IfExists".toList <:+ front ++ kind.text.toList := by
  have hkind : "ts".toList.length ≤ kind.text.toList.length ∧ ¬ "ts".toList <:+ kind.text.toList := by
    cases kind <;> decide
  have hending : "ts".toList <:+ "IfExists".toList := by decide
  intro hsuffix
  exact hkind.2 (List.suffix_of_suffix_length_le (hending.trans hsuffix) (List.suffix_append _ _)
    hkind.1)

/-- Case apart, the kinds with and without their ending are still told from each other. -/
theorem comparison_eq_of_recased : ∀ kind ∈ OperatorKind.all, ∀ other ∈ OperatorKind.all,
    ∀ ended otherEnded : Bool,
      (kind.text.toList ++ if ended then "IfExists".toList else []).map Char.toLower =
        (other.text.toList ++ if otherEnded then "IfExists".toList else []).map Char.toLower →
      kind = other ∧ ended = otherEnded := by
  decide +kernel

theorem qualifier_eq_of_recased {qualifier other : SetQualifier}
    (hcase : qualifier.text.toList.map Char.toLower = other.text.toList.map Char.toLower) :
    qualifier = other := by
  revert hcase
  cases qualifier <;> cases other <;> decide

/-- Small letters are cut at the colon as the text is. -/
theorem cutAt_map_toLower_text (op : Operator) :
    Text.cutAt ':' (op.text.toList.map Char.toLower) = op.qualifier.map fun qualifier =>
      (qualifier.text.toList.map Char.toLower, op.comparisonChars.map Char.toLower) := by
  have hcolon : ∀ {cs : List Char}, ':' ∉ cs → ':' ∉ cs.map Char.toLower :=
    fun hcs hmem => hcs ((Text.mem_map_toLower_iff rfl rfl).mp hmem)
  have hcomparison := hcolon op.colon_not_mem_comparisonChars
  rw [toList_text, qualifierChars]
  cases op.qualifier with
  | none => exact Text.cutAt_eq_none hcomparison
  | some qualifier =>
    rw [List.append_assoc, List.map_append]
    exact Text.cutAt_append (hcolon qualifier.colon_not_mem_text) _

/-- Operators are written apart even when the case of letters does not count. -/
theorem eq_of_recased {other : Operator} (hcase : Text.Recased op.text other.text) : op = other := by
  have hkinds : ∀ kind : OperatorKind, kind ∈ OperatorKind.all := by
    intro kind
    cases kind <;> decide
  have hsame := Text.toLower_eq_iff.mp (Text.toLower_eq_iff_recased.mpr hcase)
  have hcut := congrArg (Text.cutAt ':') hsame
  rw [cutAt_map_toLower_text, cutAt_map_toLower_text] at hcut
  have hparts : op.qualifier = other.qualifier ∧
      op.comparisonChars.map Char.toLower = other.comparisonChars.map Char.toLower := by
    rw [toList_text, toList_text, qualifierChars, qualifierChars] at hsame
    cases hqualifier : op.qualifier <;> cases hqualifier' : other.qualifier <;>
      simp only [hqualifier, hqualifier', Option.map_none, Option.map_some, reduceCtorEq,
        Option.some.injEq, Prod.mk.injEq, List.nil_append] at hcut hsame
    · exact ⟨rfl, hsame⟩
    · exact ⟨congrArg some (qualifier_eq_of_recased hcut.1), hcut.2⟩
  obtain ⟨hqualifier, hcomparison⟩ := hparts
  obtain ⟨hkind, hended⟩ := comparison_eq_of_recased op.kind (hkinds _) other.kind (hkinds _)
    op.ifExists other.ifExists hcomparison
  cases op
  cases other
  simp only [Operator.mk.injEq]
  exact ⟨hkind, hqualifier, hended⟩

/-- A misspelled text is the display of no operator. -/
theorem text_ne_of_misspelled (hmisspelled : Misspelled source) (op : Operator) :
    op.text ≠ source := by
  intro htext
  cases hmisspelled with
  | recased other hcase hdiffers =>
    rw [← htext] at hcase hdiffers
    exact hdiffers (congrArg text (eq_of_recased hcase)).symm
  | blank hmem hblank =>
    rw [← htext] at hmem
    rw [not_isBlank_of_mem_text hmem] at hblank
    cases hblank
  | requalified first second rest =>
    have hchars : op.text.toList = first.text.toList ++ ':' :: (second.text ++ ":" ++ rest).toList := by
      rw [htext]
      simp
    obtain ⟨-, hrest⟩ := of_toList_text_eq_append hchars
    apply op.colon_not_mem_comparisonChars
    rw [← hrest]
    simp
  | endedTwice front =>
    have hchars : op.text.toList = front.toList ++ "IfExists".toList ++ "IfExists".toList := by
      rw [htext]
      simp
    rw [toList_text, comparisonChars, ← List.append_assoc] at hchars
    split at hchars
    · apply not_suffix_append_text op.qualifierChars op.kind
      rw [List.append_cancel_right hchars]
      exact List.suffix_append _ _
    · apply not_suffix_append_text op.qualifierChars op.kind
      rw [List.append_nil] at hchars
      rw [hchars]
      exact List.suffix_append _ _
  | endedEarly before between rest =>
    have hchars : op.text.toList =
        (before.toList ++ "IfExists".toList ++ between.toList) ++ ':' :: rest.toList := by
      rw [htext]
      simp
    obtain ⟨⟨qualifier, hfront⟩, -⟩ := of_toList_text_eq_append hchars
    have hqualifier : ¬ "IfExists".toList <:+: qualifier.text.toList := by
      cases qualifier <;> decide
    exact hqualifier ⟨before.toList, between.toList, hfront⟩

/-- Reading and writing are inverse to each other on all texts. A text is read just as the operator
that is written so, of which there is at most one, and a text that writes no operator is reported as
it was given. That holds of every text that only comes close: nothing is taken for another spelling.
-/
theorem parse_exact (source : String) :
    (∀ op : Operator, parse source = .ok op ↔ op.text = source) ∧
      (parse source = .error ⟨source⟩ ↔ ∀ op : Operator, op.text ≠ source) ∧
      (∀ op other : Operator, op.text = source → other.text = source → op = other) ∧
      (Misspelled source → parse source = .error ⟨source⟩) :=
  ⟨fun _ => parse_eq_ok_iff, parse_eq_error_iff,
    fun _ _ hop hother => text_injective (hop.trans hother.symm),
    fun hmisspelled => parse_eq_error_iff.mpr (text_ne_of_misspelled hmisspelled)⟩

theorem parse_exact_requalified :
    parse "ForAllValues:StringEqualsIgnoreCaseIfExists" =
        .ok ⟨.stringEqualsIgnoreCase, some .forAllValues, true⟩ ∧
      Misspelled "ForAnyValue:ForAllValues:Bool" ∧
      parse "ForAnyValue:ForAllValues:Bool" = .error ⟨"ForAnyValue:ForAllValues:Bool"⟩ := by
  have hmisspelled : Misspelled "ForAnyValue:ForAllValues:Bool" :=
    .requalified .forAnyValue .forAllValues "Bool"
  exact ⟨((parse_exact _).1 _).mpr (by decide), hmisspelled, (parse_exact _).2.2.2 hmisspelled⟩

end Operator

end PolicyForge.Condition
