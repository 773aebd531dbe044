import PolicyForge.Proofs.Condition.KeyTemplate

namespace PolicyForge.Condition

/-- A placeholder as keys write it: a name in braces behind a dollar sign, or in angle brackets. The
first bracket that closes it is its end. -/
inductive IsPlaceholder : List Char → Prop where
  | braced {name : List Char} (hname : '}' ∉ name) : IsPlaceholder ('$' :: '{' :: (name ++ ['}']))
  | angled {name : List Char} (hname : '>' ∉ name) : IsPlaceholder ('<' :: (name ++ ['>']))

/-- An argument takes the place of a placeholder of a text, and the text around it stays. -/
def Replaces (raw argument replaced : String) : Prop :=
  ∃ front placeholder behind, IsPlaceholder placeholder ∧
    raw = front ++ String.ofList placeholder ++ behind ∧ replaced = front ++ argument ++ behind

namespace IsPlaceholder

variable {placeholder : List Char}

theorem head? (hplaceholder : IsPlaceholder placeholder) :
    placeholder.head? = some '$' ∨ placeholder.head? = some '<' := by
  cases hplaceholder with
  | braced => exact .inl rfl
  | angled => exact .inr rfl

theorem getLast? (hplaceholder : IsPlaceholder placeholder) :
    placeholder.getLast? = some '}' ∨ placeholder.getLast? = some '>' := by
  cases hplaceholder with
  | braced => exact .inl (by simp [List.getLast?_cons])
  | angled => exact .inr (by simp [List.getLast?_cons])

/-- A letter that starts no placeholder, put in at the end of a text, shows what it was put in for.
-/
theorem of_replaces {front tail : String} {c : Char} (hdollar : c ≠ '$') (hangle : c ≠ '<')
    (hreplaces : Replaces (front ++ tail) (String.singleton c) (front ++ String.singleton c)) :
    IsPlaceholder tail.toList := by
  obtain ⟨front', placeholder, behind, hplaceholder, hraw, hreplaced⟩ := hreplaces
  have hraw := congrArg String.toList hraw
  have hreplaced := congrArg String.toList hreplaced
  simp only [String.toList_append, String.toList_ofList, String.toList_singleton] at hraw hreplaced
  -- The letter is the one that was put in, or it stood in the text and another one was put in before.
  obtain hbehind | ⟨more, last, hbehind⟩ := List.eq_nil_or_concat behind.toList
  · rw [hbehind, List.append_nil] at hraw hreplaced
    rw [List.append_cancel_right hreplaced] at hraw
    rwa [List.append_cancel_left hraw]
  · rw [hbehind, List.concat_eq_append, ← List.append_assoc] at hreplaced
    obtain ⟨hfront, -⟩ := List.append_inj' hreplaced rfl
    rw [hfront, List.append_assoc, List.append_assoc, List.append_assoc] at hraw
    have hhead := congrArg List.head? (List.append_cancel_left hraw)
    obtain hstart | hstart := hplaceholder.head?
    · simp [List.head?_append, hstart, hdollar] at hhead
    · simp [List.head?_append, hstart, hangle] at hhead

/-- Writing an argument for the end of a text puts it in for a placeholder, whatever the argument,
just when this end is a placeholder. -/
theorem iff_replaces (front tail : String) :
    IsPlaceholder tail.toList ↔
      ∀ argument, Replaces (front ++ tail) argument (front ++ argument) := by
  constructor
  · intro hplaceholder argument
    exact ⟨front, tail.toList, "", hplaceholder, by simp, by simp⟩
  · intro hreplaces
    exact of_replaces (by decide) (by decide) (hreplaces (String.singleton 'v'))

end IsPlaceholder

/-- A key with a parameter is the text in front of the parameter and a tail that starts like a
placeholder. The letters and digits of the tail are the name of the parameter. -/
theorem KeyTemplate.exists_tail {raw : String} {key : KeyTemplate} (hparse : parse? raw = some key)
    {name : String} (hparameter : key.parameter? = some name) :
    ∃ tail : String, raw = key.literalPrefix ++ tail ∧
      (tail.toList.head? = some '$' ∨ tail.toList.head? = some '<') ∧
      name = String.ofList (tail.toList.filter Char.isAlphanum) ∧ name ≠ "" := by
  obtain ⟨-, -, -, -, written, hwritten, hraw⟩ := parse?_eq_some hparse
  have hending : key.ending = .parameter name := by
    unfold parameter? at hparameter
    split at hparameter
    · rename_i hending
      rw [hending, Option.some.inj hparameter]
    · cases hparameter
  rw [hending] at hwritten
  cases hwritten with
  | @parameter tail _ hopens hname hnonempty =>
    refine ⟨String.ofList tail, ?_, ?_, by rw [String.toList_ofList, hname], by simpa using hnonempty⟩
    · rw [hraw, literalPrefix, hending]
      apply String.toList_injective
      simp
    · rw [String.toList_ofList]
      cases tail with
      | nil => exact absurd hname.symm hnonempty
      | cons c tail => simpa [endsName] using hopens

end PolicyForge.Condition
