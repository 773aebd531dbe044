import PolicyForge.Text.Cut

namespace PolicyForge.Text

theorem forall_bne_of_not_mem {c : Char} {cs : List Char} (hcs : c ∉ cs) :
    ∀ d ∈ cs, (d != c) = true := by
  intro d hd
  simp only [bne_iff_ne, ne_eq]
  rintro rfl
  exact hcs hd

/-- The cut is made at the first place, so nothing in front of it may hold the character. -/
theorem cutAt_append {c : Char} {before : List Char} (hbefore : c ∉ before) (after : List Char) :
    cutAt c (before ++ c :: after) = some (before, after) := by
  have hpass := forall_bne_of_not_mem hbefore
  simp [cutAt, List.dropWhile_append_of_pos hpass, List.takeWhile_append_of_pos hpass]

theorem cutAt_eq_none {c : Char} {cs : List Char} (hcs : c ∉ cs) : cutAt c cs = none := by
  have hdrop : cs.dropWhile (· != c) = [] := by
    rw [← List.append_nil cs, List.dropWhile_append_of_pos (forall_bne_of_not_mem hcs)]
    rfl
  simp [cutAt, hdrop]

theorem not_mem_of_cutAt {c : Char} {cs before after : List Char}
    (hcut : cutAt c cs = some (before, after)) : c ∉ before := by
  have hbefore : before = cs.takeWhile (· != c) := by
    unfold cutAt at hcut
    split at hcut
    · exact (Prod.mk.inj (Option.some.inj hcut)).1.symm
    · cases hcut
  intro hmem
  rw [hbefore] at hmem
  simpa using List.all_eq_true.mp List.all_takeWhile c hmem

theorem mem_of_mem_strip {p : Char → Bool} {cs : List Char} {c : Char}
    (hmem : c ∈ strip p cs) : c ∈ cs := by
  rw [strip, List.mem_reverse] at hmem
  have hback := (List.dropWhile_sublist p).subset hmem
  rw [List.mem_reverse] at hback
  exact (List.dropWhile_sublist p).subset hback

theorem flatten_pieces {α : Type} (p : α → Bool) (xs : List α) :
    (pieces p xs).flatten = xs.filter (!p ·) := by
  induction xs with
  | nil => rfl
  | cons x xs ih =>
    rw [List.filter_cons]
    cases hx : p x with
    | true =>
      have hcons : pieces p (x :: xs) = [] :: pieces p xs := if_pos hx
      simpa [hcons] using ih
    | false =>
      have hcons : pieces p (x :: xs) = _ := if_neg (Bool.eq_false_iff.mp hx)
      rw [hcons]
      unfold pieces at ih
      split
      · rename_i hpieces
        rw [hpieces] at ih
        simp [← ih]
      · rename_i piece others hpieces
        rw [hpieces] at ih
        simp [← ih]

theorem not_of_mem_pieces {α : Type} {p : α → Bool} {xs piece : List α} (hpiece : piece ∈ pieces p xs)
    {x : α} (hx : x ∈ piece) : p x = false := by
  have hmem : x ∈ (pieces p xs).flatten := List.mem_flatten.mpr ⟨piece, hpiece, hx⟩
  rw [flatten_pieces, List.mem_filter] at hmem
  simpa using hmem.2

/-- A text is one piece just when it is not cut at all. -/
theorem pieces_eq_singleton_iff {α : Type} {p : α → Bool} {xs : List α} :
    pieces p xs = [xs] ↔ ∀ x ∈ xs, p x = false := by
  constructor
  · intro hone x hx
    exact not_of_mem_pieces (hone ▸ List.mem_singleton_self xs) hx
  · intro huncut
    induction xs with
    | nil => rfl
    | cons x xs ih =>
      have hxs := ih fun y hy => huncut y (List.mem_cons_of_mem x hy)
      unfold pieces at hxs ⊢
      rw [List.foldr_cons, huncut x List.mem_cons_self, hxs]
      rfl

theorem pieces_ne_nil {α : Type} (p : α → Bool) (xs : List α) : pieces p xs ≠ [] := by
  cases xs with
  | nil => exact List.cons_ne_nil _ _
  | cons x xs =>
    unfold pieces
    rw [List.foldr_cons]
    split
    · exact List.cons_ne_nil _ _
    · split <;> exact List.cons_ne_nil _ _

theorem pieces_cons_of_not {α : Type} {p : α → Bool} {x : α} {xs piece : List α}
    {others : List (List α)} (hx : p x = false) (hpieces : pieces p xs = piece :: others) :
    pieces p (x :: xs) = (x :: piece) :: others := by
  unfold pieces at hpieces ⊢
  rw [List.foldr_cons, hx, hpieces]
  rfl

/-- A cut divides the pieces of what is before it from those behind it. -/
theorem pieces_append_cut {α : Type} {p : α → Bool} {cut : α} (hcut : p cut = true)
    (before after : List α) :
    pieces p (before ++ cut :: after) = pieces p before ++ pieces p after := by
  induction before with
  | nil => exact if_pos hcut
  | cons x before ih =>
    obtain ⟨piece, others, hbefore⟩ := List.exists_cons_of_ne_nil (pieces_ne_nil p before)
    unfold pieces at ih hbefore ⊢
    rw [List.cons_append, List.foldr_cons, ih, List.foldr_cons, hbefore]
    cases p x <;> rfl

theorem pieces_of_newline_not_mem {line : List Char} (hline : '\n' ∉ line) :
    pieces (· == '\n') line = [line] := by
  rw [pieces_eq_singleton_iff]
  intro c hc
  rw [beq_eq_false_iff_ne]
  rintro rfl
  exact hline hc

/-- Lines are pieces between line breaks, of which the last one may be left out. -/
theorem mem_pieces_of_mem_lines {cs line : List Char} (hline : line ∈ lines cs) :
    line ∈ pieces (· == '\n') cs := by
  unfold lines at hline
  dsimp only at hline
  split at hline
  · exact (List.dropLast_sublist _).subset hline
  · exact hline

theorem newline_not_mem_of_mem_lines {cs line : List Char} (hline : line ∈ lines cs) :
    '\n' ∉ line :=
  fun hmem => absurd (not_of_mem_pieces (mem_pieces_of_mem_lines hline) hmem) (by decide)

theorem mem_of_mem_lines {cs line : List Char} (hline : line ∈ lines cs) {c : Char} (hmem : c ∈ line) :
    c ∈ cs := by
  have hpieces := List.mem_flatten.mpr ⟨line, mem_pieces_of_mem_lines hline, hmem⟩
  rw [flatten_pieces] at hpieces
  exact (List.mem_filter.mp hpieces).1

theorem return_not_mem_unifyBreaks (cs : List Char) : '\r' ∉ unifyBreaks cs := by
  fun_induction unifyBreaks cs with
  | case1 rest ih => simpa using ih
  | case2 rest _ ih => simpa using ih
  | case3 c rest _ hreturn ih =>
    rw [List.mem_cons, not_or]
    exact ⟨fun heq => hreturn heq.symm, ih⟩
  | case4 => exact List.not_mem_nil

/-- Texts that are each ended by a line break are read back as the lines they consist of themselves.
-/
theorem lines_flatMap_ended (texts : List (List Char)) :
    lines (texts.flatMap (· ++ ['\n'])) = texts.flatMap (pieces (· == '\n')) := by
  have hpieces : pieces (· == '\n') (texts.flatMap (· ++ ['\n'])) =
      texts.flatMap (pieces (· == '\n')) ++ [[]] := by
    induction texts with
    | nil => rfl
    | cons text texts ih =>
      rw [List.flatMap_cons, List.append_assoc, List.singleton_append,
        pieces_append_cut (p := (· == '\n')) rfl, ih, List.flatMap_cons, List.append_assoc]
  simp [lines, hpieces]

end PolicyForge.Text
