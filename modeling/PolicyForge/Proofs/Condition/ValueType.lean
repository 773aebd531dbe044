import PolicyForge.Condition.ValueType
import PolicyForge.Proofs.Ordered.Comparison
import PolicyForge.Proofs.Text.Blank

namespace PolicyForge.Condition.ValueType

/-- The published names of values, in lower case, with the families they stand for. -/
def elementNames : List (String × ValueType) :=
  [("string", string), ("arn", arn), ("numeric", numeric), ("long", numeric), ("integer", numeric),
    ("date", date), ("bool", bool), ("boolean", bool), ("ipaddress", ipAddress), ("binary", binary)]

/-- The labels, in lower case, and the families they name. A list has the family of its elements,
and no list is the element of another. -/
inductive Labels : String → ValueType → Prop where
  | missing : Labels "" string
  | element {name : String} {type : ValueType} (hname : (name, type) ∈ elementNames) :
      Labels name type
  | list {name : String} {type : ValueType} (hname : (name, type) ∈ elementNames) :
      Labels ("arrayof" ++ name) type

/-- A label without the blanks around it, in lower case. -/
def folded (label : String) : String :=
  (Text.trim label).toLower

/-- The empty name stands for a text, and each other name for the type listed beside it. -/
theorem lookup_names_eq_some_iff {name : String} {type : ValueType} :
    names.lookup name = some type ↔
      name = "" ∧ type = string ∨ (name, type) ∈ elementNames := by
  have hnames : names = ("", string) :: elementNames := rfl
  have hnodup : (names.map (·.1)).Nodup := by decide
  rw [← Prod.mk.injEq, ← List.mem_cons, ← hnames]
  exact ⟨Ordered.mem_of_lookup_eq_some, fun hmem => Ordered.lookup_of_mem_of_nodup hnodup hmem⟩

/-- No element type starts as a list type does. -/
theorem not_listMark_prefix_of_mem {name : String} {type : ValueType}
    (hname : (name, type) ∈ elementNames) : ¬ listMark <+: name.toList := by
  have hall : ∀ entry ∈ elementNames, ¬ listMark <+: entry.1.toList := by decide
  exact hall _ hname

/-- A label in lower case is empty, the name of an element type, or the name of a list of such
elements. -/
theorem labels_iff {lower : String} {type : ValueType} : Labels lower type ↔
    lower = "" ∧ type = string ∨ (lower, type) ∈ elementNames ∨
      ∃ name, lower = "arrayof" ++ name ∧ (name, type) ∈ elementNames := by
  constructor
  · intro hlabel
    cases hlabel with
    | missing => exact .inl ⟨rfl, rfl⟩
    | element hname => exact .inr (.inl hname)
    | list hname => exact .inr (.inr ⟨_, rfl, hname⟩)
  · rintro (⟨rfl, rfl⟩ | hname | ⟨name, rfl, hname⟩)
    · exact .missing
    · exact .element hname
    · exact .list hname

/-- The mark of a list is no label by itself. -/
theorem not_labels_listMark (type : ValueType) : ¬ Labels "arrayof" type := by
  have hnone : ∀ entry ∈ elementNames, entry.1 ≠ "" ∧ entry.1 ≠ "arrayof" := by decide
  rw [labels_iff]
  rintro (⟨hempty, -⟩ | hname | ⟨name, hmarked, hname⟩)
  · exact absurd hempty (by decide)
  · exact (hnone _ hname).2 rfl
  · exact (hnone _ hname).1 (by simpa using hmarked.symm)

/-- The mark of a list is the text that is written in front of the element. -/
theorem listMark_prefix_append (name : String) : listMark <+: ("arrayof" ++ name).toList := by
  rw [String.toList_append]
  exact List.prefix_append _ _

/-- A label names a family just when it is one of the labels, or the mark of a list without the name
of its elements, which is taken for a list of strings. -/
theorem ofLabel?_eq_some_iff {label : String} {type : ValueType} :
    ofLabel? label = some type ↔
      Labels (folded label) type ∨ folded label = "arrayof" ∧ type = string := by
  have hlower : (Text.trim label).toList.map Char.toLower = (folded label).toList :=
    String.toList_map.symm
  simp only [ofLabel?, hlower, List.isPrefixOf_iff_prefix]
  generalize folded label = lower
  split
  · rename_i hmark
    obtain ⟨rest, hrest⟩ := hmark
    obtain ⟨name, rfl⟩ : ∃ name, lower = "arrayof" ++ name := by
      refine ⟨String.ofList rest, ?_⟩
      rw [← String.toList_inj, ← hrest, String.toList_append, @String.toList_ofList rest]
      rfl
    have hname : String.ofList (("arrayof" ++ name).toList.drop listMark.length) = name := by
      rw [String.toList_append]
      exact (congrArg String.ofList List.drop_left).trans (String.ofList_toList ..)
    rw [hname, lookup_names_eq_some_iff, labels_iff]
    constructor
    · rintro (⟨rfl, rfl⟩ | hname)
      · exact .inr ⟨rfl, rfl⟩
      · exact .inl (.inr (.inr ⟨name, rfl, hname⟩))
    · rintro ((⟨hempty, -⟩ | hmarked | ⟨other, hother, hname⟩) | ⟨halone, rfl⟩)
      · simp at hempty
      · exact absurd (listMark_prefix_append name) (not_listMark_prefix_of_mem hmarked)
      · obtain rfl := (String.append_right_inj _).mp hother
        exact .inr hname
      · exact .inl ⟨by simpa using halone, rfl⟩
  · rename_i hmark
    rw [String.ofList_toList, lookup_names_eq_some_iff, labels_iff]
    constructor
    · rintro (hmissing | hname)
      · exact .inl (.inl hmissing)
      · exact .inl (.inr (.inl hname))
    · rintro ((hmissing | hname | ⟨name, rfl, -⟩) | ⟨rfl, -⟩)
      · exact .inl hmissing
      · exact .inr hname
      · exact absurd (listMark_prefix_append name) hmark
      · exact absurd (List.prefix_refl _) hmark

end PolicyForge.Condition.ValueType
