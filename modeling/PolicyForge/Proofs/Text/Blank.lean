import Mathlib.Data.List.Basic
import Mathlib.Data.List.TakeWhile
import PolicyForge.Text.Basic

namespace PolicyForge.Text

variable {p : Char → Bool} {cs : List Char} {text : String}

/-- Neither end of a text has the property. -/
structure Stripped (p : Char → Bool) (cs : List Char) : Prop where
  head : ∀ c ∈ cs.head?, p c = false
  last : ∀ c ∈ cs.getLast?, p c = false

/-- A text is stripped when it starts and ends in characters that stay. -/
theorem stripped_of_ends {first last : Char} (hhead : cs.head? = some first)
    (hlast : cs.getLast? = some last) (hfirst : p first = false) (hend : p last = false) :
    Stripped p cs := by
  constructor
  · rw [hhead]
    rintro _ ⟨⟩
    exact hfirst
  · rw [hlast]
    rintro _ ⟨⟩
    exact hend

theorem dropWhile_of_head (hhead : ∀ c ∈ cs.head?, p c = false) : cs.dropWhile p = cs := by
  cases cs with
  | nil => rfl
  | cons c cs => rw [List.dropWhile_cons_of_neg (by simp [hhead c rfl])]

theorem head_of_dropWhile (p : Char → Bool) (cs : List Char) :
    ∀ c ∈ (cs.dropWhile p).head?, p c = false := by
  intro c hc
  have hhead := List.head?_dropWhile_not p cs
  rw [Option.mem_def.mp hc] at hhead
  simpa using hhead

theorem stripped_strip (p : Char → Bool) (cs : List Char) : Stripped p (strip p cs) := by
  have hfront : strip p cs <+: cs.dropWhile p := by
    rw [strip, ← List.reverse_suffix, List.reverse_reverse]
    exact List.dropWhile_suffix p
  constructor
  · intro c hc
    obtain ⟨rest, hrest⟩ := hfront
    apply head_of_dropWhile p cs c
    rw [← hrest, List.head?_append, Option.mem_def.mp hc]
    rfl
  · rw [strip, List.getLast?_reverse]
    exact head_of_dropWhile p _

theorem Stripped.strip_eq (hstripped : Stripped p cs) : strip p cs = cs := by
  have hback : ∀ c ∈ cs.reverse.head?, p c = false := by
    rw [List.head?_reverse]
    exact hstripped.last
  rw [strip, dropWhile_of_head hstripped.head, dropWhile_of_head hback, List.reverse_reverse]

theorem strip_append {before body after : List Char} (hbody : Stripped p body)
    (hbefore : ∀ c ∈ before, p c = true) (hafter : ∀ c ∈ after, p c = true) :
    strip p (before ++ body ++ after) = body := by
  have hback : ∀ c ∈ after.reverse, p c = true := fun c hc => hafter c (List.mem_reverse.mp hc)
  rw [strip, List.append_assoc, List.dropWhile_append_of_pos hbefore]
  cases body with
  | nil =>
    rw [List.nil_append, List.dropWhile_eq_nil_iff.mpr hafter]
    rfl
  | cons c body =>
    have hhead : p c = false := hbody.head c rfl
    rw [List.cons_append, List.dropWhile_cons_of_neg (by simp [hhead]), ← List.cons_append,
      List.reverse_append, List.dropWhile_append_of_pos hback, dropWhile_of_head,
      List.reverse_reverse]
    rw [List.head?_reverse]
    exact hbody.last

/-- Only characters at the two ends are taken away. -/
theorem exists_of_strip (p : Char → Bool) (cs : List Char) :
    ∃ before after, cs = before ++ strip p cs ++ after ∧ ∀ c ∈ before ++ after, p c = true := by
  have hfront := List.takeWhile_append_dropWhile (p := p) (l := cs)
  have hback := congrArg List.reverse
    (List.takeWhile_append_dropWhile (p := p) (l := (cs.dropWhile p).reverse))
  rw [List.reverse_append, List.reverse_reverse] at hback
  refine ⟨cs.takeWhile p, ((cs.dropWhile p).reverse.takeWhile p).reverse, ?_, ?_⟩
  · rw [strip, List.append_assoc, hback, hfront]
  · intro c hc
    rw [List.mem_append, List.mem_reverse] at hc
    obtain hc | hc := hc
    · exact List.all_eq_true.mp List.all_takeWhile c hc
    · exact List.all_eq_true.mp List.all_takeWhile c hc

/-- Texts whose ends are stripped can be put together. -/
theorem Stripped.append {before after : List Char} (hbefore : Stripped p before)
    (hafter : Stripped p after) {c : Char} (hc : p c = false) (hne : before ≠ []) :
    Stripped p (before ++ c :: after) := by
  constructor
  · rw [List.head?_append_of_ne_nil _ hne]
    exact hbefore.head
  · rw [List.getLast?_append, List.getLast?_cons]
    intro d hd
    cases hlast : after.getLast? with
    | none =>
      simp [hlast] at hd
      exact hd ▸ hc
    | some last =>
      simp [hlast] at hd
      exact hafter.last d (hd ▸ hlast)

/-- A text is trimmed when trimming leaves it alone. -/
theorem trim_eq_self_iff : trim text = text ↔ Stripped isBlank text.toList := by
  constructor
  · intro htrim
    rw [← htrim, trim, String.toList_ofList]
    exact stripped_strip isBlank _
  · intro hstripped
    rw [trim, hstripped.strip_eq, String.ofList_toList]

/-- Trimming gives the part of a text between blanks that has none at its own ends. -/
theorem trim_eq_iff {body : String} :
    trim text = body ↔ Stripped isBlank body.toList ∧ ∃ before after : List Char,
      text.toList = before ++ body.toList ++ after ∧ ∀ c ∈ before ++ after, isBlank c = true := by
  constructor
  · rintro rfl
    rw [trim, String.toList_ofList]
    exact ⟨stripped_strip isBlank _, exists_of_strip isBlank _⟩
  · rintro ⟨hstripped, before, after, htext, hblank⟩
    obtain ⟨hbefore, hafter⟩ := List.forall_mem_append.mp hblank
    rw [trim, htext, strip_append hstripped hbefore hafter, String.ofList_toList]

/-- Trimming twice is trimming once. -/
@[simp]
theorem trim_trim (text : String) : trim (trim text) = trim text := by
  rw [trim_eq_self_iff, trim, String.toList_ofList]
  exact stripped_strip isBlank _

/-- Small letters compared as lists, which is less work than comparing the texts they make up. -/
theorem toLower_beq (a b : String) :
    (a.toLower == b.toLower) = (a.toList.map Char.toLower == b.toList.map Char.toLower) := by
  have hchars : ∀ text : String, text.toLower.toList = text.toList.map Char.toLower :=
    fun _ => String.toList_map
  rw [Bool.eq_iff_iff, beq_iff_eq, beq_iff_eq, ← String.toList_inj, hchars, hchars]

theorem isEmpty_ofList (cs : List Char) : (String.ofList cs).isEmpty = cs.isEmpty := by
  rw [Bool.eq_iff_iff, List.isEmpty_iff]
  simp

end PolicyForge.Text
