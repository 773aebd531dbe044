import PolicyForge.Proofs.Identifier.Derived

namespace PolicyForge.Identifier

/-- No keyword ends in an underscore, so the escape of a keyword is none. -/
theorem not_isKeyword_append_underscore (ident : String) : isKeyword (ident ++ "_") = false := by
  have hending : ∀ word ∈ keywords, word.toList.getLast? ≠ some '_' := by decide
  simp only [isKeyword, List.contains_eq_mem, decide_eq_false_iff_not]
  intro hmem
  exact hending _ hmem (by simp)

/-- No keyword ends in a digit. -/
theorem not_isKeyword_append_toString (ident : String) (n : Nat) :
    isKeyword (ident ++ toString n) = false := by
  have hending : ∀ word ∈ keywords, word.toList.getLast?.any Char.isDigit = false := by decide
  simp only [isKeyword, List.contains_eq_mem, decide_eq_false_iff_not]
  intro hmem
  have hlast := hending _ hmem
  obtain ⟨digit, hdigit⟩ := Option.isSome_iff_exists.mp
    (List.getLast?_isSome.mpr (Nat.toDigits_ne_nil (b := 10) (n := n)))
  have hisDigit := Nat.isDigit_of_mem_toDigits (by decide) (by decide) (List.mem_of_getLast? hdigit)
  rw [String.toList_append, Nat.toString_eq_repr, Nat.toList_repr, List.getLast?_append,
    hdigit] at hlast
  simp [hisDigit] at hlast

/-- The name of a module holds no character that an identifier cannot. -/
theorem isSnake_moduleName (servicePrefix : String) : IsSnake (moduleName servicePrefix) := by
  have hname := isSnake_snake servicePrefix
  unfold moduleName
  dsimp only
  split
  · decide
  · split
    · exact IsSnake.append (by decide) hname
    · split
      · exact hname.append (by decide)
      · exact hname

/-- A module is never named by a keyword. -/
theorem not_isKeyword_moduleName (servicePrefix : String) :
    isKeyword (moduleName servicePrefix) = false := by
  have hservice : ∀ word ∈ keywords, ¬ "service_".toList <+: word.toList := by decide
  unfold moduleName
  dsimp only
  split
  · decide
  · split
    · simp only [isKeyword, List.contains_eq_mem, decide_eq_false_iff_not]
      intro hmem
      apply hservice _ hmem
      rw [String.toList_append]
      exact List.prefix_append _ _
    · split
      · exact not_isKeyword_append_underscore _
      · rename_i hfree
        simpa using hfree

/-- A prefix without letters and digits still names a module. -/
theorem moduleName_ne_empty (servicePrefix : String) : moduleName servicePrefix ≠ "" := by
  unfold moduleName
  dsimp only
  split
  · decide
  · rename_i hne
    split
    · simp
    · split
      · simp
      · simpa using hne

theorem isAlphanum_of_mem_typeName {serviceName : String} {c : Char}
    (hc : c ∈ (typeName serviceName).toList) : c.isAlphanum = true := by
  have hword : ∀ d ∈ "Service".toList, d.isAlphanum = true :=
    List.all_eq_true.mp (by decide : "Service".toList.all Char.isAlphanum = true)
  have hname : ∀ d ∈ (pascal serviceName).toList, d.isAlphanum = true := by
    intro d hd
    rw [pascal, String.toList_ofList] at hd
    exact isAlphanum_of_mem_pascalChars hd
  unfold typeName at hc
  dsimp only at hc
  split at hc
  · exact hword c hc
  · split at hc
    · rw [String.toList_append, List.mem_append] at hc
      exact hc.elim (hword c) (hname c)
    · exact hname c hc

/-- In upper case, a letter or digit is an upper-case letter or a digit. -/
theorem isUpper_or_isDigit_toUpper {c : Char} (hc : c.isAlphanum = true) :
    c.toUpper.isUpper = true ∨ c.toUpper.isDigit = true :=
  of_isAlphanum (P := fun c => c.isAlphanum = true →
    c.toUpper.isUpper = true ∨ c.toUpper.isDigit = true) (by decide +kernel) hc hc

theorem not_isSnakeChar_of_isUpper {c : Char} (hc : c.isUpper = true) : isSnakeChar c = false := by
  have halphanum : c.isAlphanum = true := by
    change (c.isUpper || c.isLower || c.isDigit) = true
    rw [hc, Bool.true_or, Bool.true_or]
  exact of_isAlphanum (P := fun c => c.isUpper = true → isSnakeChar c = false)
    (by decide +kernel) halphanum hc

/-- Words run together start with a capital or a digit. -/
theorem head_pascalChars {name : List Char} {c : Char} (hc : (pascalChars name).head? = some c) :
    c.isUpper = true ∨ c.isDigit = true := by
  rw [pascalChars, List.head?_flatten, List.findSome?_map] at hc
  obtain ⟨piece, hpiece, hhead⟩ := List.exists_of_findSome?_eq_some hc
  cases piece with
  | nil => simp [capitalize] at hhead
  | cons d rest =>
    obtain rfl : d.toUpper = c := by simpa [capitalize] using hhead
    have hkept : d.isAlphanum = true := by
      simpa using Text.not_of_mem_pieces hpiece List.mem_cons_self
    exact isUpper_or_isDigit_toUpper hkept

/-- The name of a type starts with an upper-case letter, whatever the service is called. -/
theorem exists_head_typeName (serviceName : String) :
    ∃ c, (typeName serviceName).toList.head? = some c ∧ c.isUpper = true := by
  unfold typeName
  dsimp only
  split
  · exact ⟨'S', rfl, rfl⟩
  · rename_i hne
    split
    · rw [String.toList_append]
      exact ⟨'S', rfl, rfl⟩
    · rename_i hdigit
      obtain ⟨c, rest, hchars⟩ : ∃ c rest, (pascal serviceName).toList = c :: rest := by
        apply List.exists_cons_of_ne_nil
        simpa using hne
      have hhead : (pascalChars serviceName.toList).head? = some c := by
        rw [← String.toList_ofList (l := pascalChars _), ← pascal, hchars]
        rfl
      refine ⟨c, by rw [hchars]; rfl, (head_pascalChars hhead).resolve_right ?_⟩
      simpa [startsWithDigit, hchars] using hdigit

/-- Types and modules are never confused: a type starts with a capital, and no module has any. -/
theorem typeName_ne_moduleName (serviceName servicePrefix : String) :
    typeName serviceName ≠ moduleName servicePrefix := by
  intro heq
  obtain ⟨c, hhead, hupper⟩ := exists_head_typeName serviceName
  have hmem : c ∈ (moduleName servicePrefix).toList := by
    rw [← heq]
    exact List.mem_of_head? hhead
  have hsnake := isSnake_iff.mp (isSnake_moduleName servicePrefix) c hmem
  cases hsnake.symm.trans (not_isSnakeChar_of_isUpper hupper)

end PolicyForge.Identifier
