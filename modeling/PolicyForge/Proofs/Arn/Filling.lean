import Mathlib.Data.List.Infix
import PolicyForge.Proofs.Arn.Canonical

namespace PolicyForge.Arn

/-- A value that opens no placeholder, and does not take part in opening one where it is put in. -/
structure Inert (value : String) : Prop where
  nonempty : value ≠ ""
  closed : ¬ opening <:+: value.toList
  head : value.toList.head? ≠ some '{'
  last : value.toList.getLast? ≠ some '$'

instance (value : String) : Decidable (Inert value) :=
  decidable_of_iff
    (value ≠ "" ∧ ¬ opening <:+: value.toList ∧ value.toList.head? ≠ some '{' ∧
      value.toList.getLast? ≠ some '$')
    ⟨fun ⟨nonempty, closed, head, last⟩ => ⟨nonempty, closed, head, last⟩,
      fun ⟨nonempty, closed, head, last⟩ => ⟨nonempty, closed, head, last⟩⟩

/-- An opening in a text that is put together lies in one of the parts, or over the seam. -/
theorem opening_infix_append {front back : List Char} (hopens : opening <:+: front ++ back) :
    opening <:+: front ∨ opening <:+: back ∨
      front.getLast? = some '$' ∧ back.head? = some '{' := by
  induction front with
  | nil => exact .inr (.inl hopens)
  | cons c front ih =>
    rw [List.cons_append, List.infix_cons_iff] at hopens
    obtain hstart | hlater := hopens
    · obtain ⟨rfl, hnext⟩ := List.cons_prefix_cons.mp hstart
      cases front with
      | nil =>
        obtain ⟨rest, hback⟩ := hnext
        exact .inr (.inr ⟨rfl, by rw [← List.nil_append back, ← hback]; rfl⟩)
      | cons d front =>
        obtain ⟨rfl, -⟩ := List.cons_prefix_cons.mp hnext
        exact .inl ⟨[], front, rfl⟩
    · obtain hfront | hback | ⟨hlast, hhead⟩ := ih hlater
      · exact .inl (List.infix_cons hfront)
      · exact .inr (.inl hback)
      · exact .inr (.inr ⟨by rw [List.getLast?_cons, hlast]; rfl, hhead⟩)

/-- The text of segments whose placeholders are filled. -/
def filled (lookup : String → Option String) (segments : List Segment) : List Char :=
  segments.flatMap fun segment => (segment.fill lookup).toList

theorem toList_fill (template : Template) (lookup : String → Option String) :
    (template.fill lookup).toList = filled lookup template.segments := by
  rw [Template.fill, String.toList_join, List.flatMap_map, filled]

theorem fill_of_eq_some {lookup : String → Option String} {name value : String}
    (hvalue : lookup name = some value) : (Segment.placeholder name).fill lookup = value := by
  rw [Segment.fill, hvalue, Option.getD_some]

section

variable {lookup : String → Option String} {segments : List Segment}

/-- Behind a text stands a placeholder or nothing, and what it is filled with does not start like
the inside of one. -/
theorem head?_filled
    (hinert : ∀ name, .placeholder name ∈ segments → Inert ((Segment.placeholder name).fill lookup))
    (hapart : ∀ next ∈ segments.head?, next.isLiteral = false) :
    (filled lookup segments).head? ≠ some '{' := by
  cases segments with
  | nil => simp [filled]
  | cons segment segments =>
    cases segment with
    | literal text => exact absurd (hapart _ rfl) (by simp [Segment.isLiteral])
    | placeholder name =>
      have hvalue := hinert name List.mem_cons_self
      have hne : ((Segment.placeholder name).fill lookup).toList ≠ [] := by
        simpa using hvalue.nonempty
      rw [filled, List.flatMap_cons, List.head?_append_of_ne_nil _ hne]
      exact hvalue.head

/-- Fills that bring in no opening leave none in the filled text: segments of a canonical template
meet at no seam that could form one. -/
theorem not_opening_infix_filled (hcanonical : Canonical segments)
    (hinert : ∀ name, .placeholder name ∈ segments →
      Inert ((Segment.placeholder name).fill lookup)) :
    ¬ opening <:+: filled lookup segments := by
  induction segments with
  | nil => simp [filled, opening]
  | cons segment segments ih =>
    obtain ⟨hproper, hnext, hrest⟩ := canonical_cons_iff.mp hcanonical
    have hlater := fun name hname => hinert name (List.mem_cons_of_mem segment hname)
    intro hopens
    rw [filled, List.flatMap_cons] at hopens
    obtain hfront | hback | ⟨hlast, hhead⟩ := opening_infix_append hopens
    · cases segment with
      | literal text => exact hproper.2 hfront
      | placeholder name => exact (hinert name List.mem_cons_self).closed hfront
    · exact ih hrest hlater hback
    · cases segment with
      | literal text => exact head?_filled hlater (hnext rfl) hhead
      | placeholder name => exact (hinert name List.mem_cons_self).last hlast

/-- A placeholder that is not filled is written out, with its opening. -/
theorem opening_infix_filled {name : String} (hname : .placeholder name ∈ segments)
    (hnone : lookup name = none) : opening <:+: filled lookup segments := by
  obtain ⟨before, after, rfl⟩ := List.append_of_mem hname
  have hopens : opening <:+: ((Segment.placeholder name).fill lookup).toList :=
    ⟨[], name.toList ++ ['}'], by simp [Segment.fill, hnone, opening]⟩
  rw [filled, List.flatMap_append, List.flatMap_cons, ← List.append_assoc]
  exact hopens.trans (List.infix_append _ _ _)

end

namespace Template

/-- Only the segments of a parsed template matter for a fill, and these are canonical. -/
theorem canonical_of_parse {raw : String} {template : Template} (hparse : parse raw = .ok template) :
    Canonical template.segments :=
  canonical_scan (by simpa using not_opening_infix_take raw.toList)
    (parse_eq_ok_iff_scan.mp hparse).2

/-- A filled template opens a placeholder just when one of its placeholders was not filled, as long
as the values that are put in for the others are not empty, open none themselves, and neither start
nor end with half of an opening. -/
theorem fill_opens_iff {raw : String} {template : Template}
    (hparse : parse raw = .ok template) {lookup : String → Option String}
    (hvalues : ∀ name ∈ template.placeholders, ∀ value, lookup name = some value → Inert value) :
    opening <:+: (template.fill lookup).toList ↔
      ∃ name ∈ template.placeholders, lookup name = none := by
  rw [toList_fill]
  constructor
  · intro hopens
    by_contra hall
    refine not_opening_infix_filled (canonical_of_parse hparse) ?_ hopens
    intro name hname
    have hmem := mem_placeholders.mpr hname
    obtain ⟨value, hvalue⟩ := Option.ne_none_iff_exists'.mp fun hnone => hall ⟨name, hmem, hnone⟩
    rw [fill_of_eq_some hvalue]
    exact hvalues name hmem value hvalue
  · rintro ⟨name, hmem, hnone⟩
    exact opening_infix_filled (mem_placeholders.mp hmem) hnone

/-- A template in which half of an opening stands in front of a placeholder, and the other half
behind one. -/
def halved : Template where
  raw := "$$\x7bUp\x7d\x7b$\x7bDown\x7d$\x7bUp\x7d"
  segments :=
    [.literal "$", .placeholder "Up", .literal "\x7b", .placeholder "Down", .placeholder "Up"]

/-- Values with halves of openings inside. -/
def halves (name : String) : Option String :=
  [("Up", "u$-"), ("Down", "-\x7bd")].lookup name

theorem fill_opens_iff_halved :
    halved.fill halves = "$u$-\x7b-\x7bdu$-" ∧ ¬ opening <:+: (halved.fill halves).toList := by
  have hparse : parse halved.raw = .ok halved := by decide +kernel
  have hvalues : ∀ name ∈ halved.placeholders, ∀ value, halves name = some value → Inert value := by
    decide +kernel
  refine ⟨by decide +kernel, fun hopens => ?_⟩
  obtain ⟨name, hname, hnone⟩ := (fill_opens_iff hparse hvalues).mp hopens
  have hknown : ∀ name ∈ halved.placeholders, halves name ≠ none := by decide +kernel
  exact hknown name hname hnone

end Template

end PolicyForge.Arn
