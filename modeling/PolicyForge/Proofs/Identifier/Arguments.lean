import PolicyForge.Proofs.Identifier.Items
import PolicyForge.Proofs.Identifier.Scope

namespace PolicyForge.Identifier

/-- The identifier starts with a small letter. -/
def StartsWithLetter (ident : String) : Prop :=
  ident.toList.head?.any Char.isLower = true

instance (ident : String) : Decidable (StartsWithLetter ident) :=
  inferInstanceAs (Decidable (_ = true))

theorem StartsWithLetter.append {ident : String} (hident : StartsWithLetter ident) (ending : String) :
    StartsWithLetter (ident ++ ending) := by
  rw [StartsWithLetter] at hident ⊢
  cases hhead : ident.toList.head? with
  | none => simp [hhead] at hident
  | some c =>
    rw [hhead] at hident
    rwa [String.toList_append, List.head?_append, hhead]

theorem head?_separateWords (cs : List Char) :
    (separateWords cs).head? = cs.head?.map Char.toLower := by
  cases cs using separateWords.induct with
  | case1 => rfl
  | case2 a => rfl
  | case3 a b rest hstart =>
    rw [separateWords, if_pos hstart]
    rfl
  | case4 a b rest hstart =>
    rw [separateWords, if_neg hstart]
    rfl

/-- In lower case, a letter or digit is a lower-case letter or a digit. -/
theorem isLower_or_isDigit_toLower {c : Char} (hc : c.isAlphanum = true) :
    c.toLower.isLower = true ∨ c.toLower.isDigit = true :=
  of_isAlphanum (P := fun c => c.isAlphanum = true →
    c.toLower.isLower = true ∨ c.toLower.isDigit = true) (by decide +kernel) hc hc

/-- A name in snake case that does not start with a digit starts with a letter. -/
theorem startsWithLetter_snake {name : String} (hne : ¬ (snake name).isEmpty = true)
    (hdigit : ¬ startsWithDigit (snake name) = true) : StartsWithLetter (snake name) := by
  have hchars : (snake name).toList = snakeChars name.toList := String.toList_ofList
  cases hhead : (snake name).toList.head? with
  | none =>
    rw [List.head?_eq_none_iff] at hhead
    exact absurd (by simpa using hhead) hne
  | some c =>
    have hfirst := hhead
    rw [hchars, snakeChars, head?_separateWords] at hfirst
    obtain ⟨first, hmem, rfl⟩ := Option.map_eq_some_iff.mp hfirst
    have halphanum := isAlphanum_of_mem_pascalChars (List.mem_of_head? hmem)
    rw [StartsWithLetter, hhead]
    refine (isLower_or_isDigit_toLower halphanum).resolve_right fun hisDigit => hdigit ?_
    rwa [startsWithDigit, hhead]

/-- A name that something can be declared under: small letters, digits and underscores, a letter in
front, and no keyword. -/
structure IsName (ident : String) : Prop where
  letter : StartsWithLetter ident
  snake : IsSnake ident
  not_keyword : isKeyword ident = false

/-- An identifier of lower-case words that starts with a letter is a name once a keyword is escaped.
-/
theorem isName_of_startsWithLetter {ident : String} (hletter : StartsWithLetter ident)
    (hsnake : IsSnake ident) : IsName (if isKeyword ident then ident ++ "_" else ident) := by
  split
  · exact ⟨hletter.append "_", hsnake.append (by decide), not_isKeyword_append_underscore ident⟩
  · rename_i hfree
    exact ⟨hletter, hsnake, by simpa using hfree⟩

/-- A number behind a name gives a name: no keyword ends in a digit. -/
theorem IsName.append_toString {ident : String} (hident : IsName ident) (n : Nat) :
    IsName (ident ++ toString n) :=
  ⟨hident.letter.append _, hident.snake.append (isSnake_toString n),
    not_isKeyword_append_toString ident n⟩

/-- Every placeholder has a base that can name a parameter, the empty one included. -/
theorem isName_parameterBase (placeholder : String) : IsName (parameterBase placeholder) := by
  have hsnake := isSnake_snake placeholder
  apply isName_of_startsWithLetter
  · split
    · decide
    · rename_i hne
      split
      · exact StartsWithLetter.append (by decide) _
      · rename_i hdigit
        exact startsWithLetter_snake hne hdigit
  · split
    · decide
    · split
      · exact IsSnake.append (by decide) hsnake
      · exact hsnake

namespace Scope

theorem parameter_fresh (scope : Scope) (placeholder : String) :
    (scope.parameter placeholder).1 ∉ scope.taken ∧
      (scope.parameter placeholder).2.taken = (scope.parameter placeholder).1 :: scope.taken :=
  scope.allocate_fresh (parameterBase placeholder)

/-- An answer is a name when what was asked for is one. -/
theorem isName_allocate {scope : Scope} {base : String} (hbase : IsName base) :
    IsName (scope.allocate base).1.ident := by
  obtain ⟨_, heq⟩ | ⟨_, n, _, _, _, heq⟩ := scope.allocate_cases base
  · rw [heq]
    exact hbase
  · rw [heq]
    exact hbase.append_toString n

/-- The name of a parameter can be written in a signature, with its number when it has one. -/
theorem isName_parameter (scope : Scope) (placeholder : String) :
    IsName (scope.parameter placeholder).1 :=
  isName_allocate (isName_parameterBase placeholder)

end Scope

end PolicyForge.Identifier
