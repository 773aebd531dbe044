import PolicyForge.Text.Basic

namespace PolicyForge.Text

/-- What stands before and after the first `c`, or nothing when `c` does not occur. -/
def cutAt (c : Char) (cs : List Char) : Option (List Char × List Char) :=
  match cs.dropWhile (· != c) with
  | _ :: after => some (cs.takeWhile (· != c), after)
  | [] => none

theorem cutAt_eq_some {c : Char} {cs before after : List Char}
    (h : cutAt c cs = some (before, after)) : cs = before ++ c :: after := by
  unfold cutAt at h
  cases hd : cs.dropWhile (· != c) with
  | nil => simp [hd] at h
  | cons d rest =>
    have hdc : d = c := by
      have := List.head?_dropWhile_not (· != c) cs
      simpa [hd] using this
    simp only [hd, Option.some.injEq, Prod.mk.injEq] at h
    rw [← h.1, ← h.2, ← hdc, ← hd, hdc, List.takeWhile_append_dropWhile]

/-- The remainder after a cut is shorter than the text, which is what loops over cuts end by. -/
theorem length_lt_of_cutAt {c : Char} {cs before after : List Char}
    (h : cutAt c cs = some (before, after)) : after.length < cs.length := by
  rw [cutAt_eq_some h]
  simp
  omega

/-- Write every line break (`\r\n`, `\r` or `\n`) as `\n`. -/
def unifyBreaks : List Char → List Char
  | '\r' :: '\n' :: rest => '\n' :: unifyBreaks rest
  | '\r' :: rest => '\n' :: unifyBreaks rest
  | c :: rest => c :: unifyBreaks rest
  | [] => []

/-- The lines of a text whose breaks are `\n`. A final break ends the last line and opens no other,
so the empty text has no line. -/
def lines (cs : List Char) : List (List Char) :=
  let cut := pieces (· == '\n') cs
  if cut.getLast? == some [] then cut.dropLast else cut

end PolicyForge.Text
