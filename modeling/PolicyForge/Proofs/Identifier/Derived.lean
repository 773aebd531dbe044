import PolicyForge.Identifier.Derived
import PolicyForge.Proofs.Identifier.Words

namespace PolicyForge.Identifier

/-- An identifier of small letters, digits and underscores alone. -/
def IsSnake (ident : String) : Prop :=
  ident.toList.all isSnakeChar = true

instance (ident : String) : Decidable (IsSnake ident) :=
  inferInstanceAs (Decidable (_ = true))

theorem isSnake_iff {ident : String} :
    IsSnake ident ↔ ∀ c ∈ ident.toList, isSnakeChar c = true :=
  List.all_eq_true

theorem IsSnake.append {a b : String} (ha : IsSnake a) (hb : IsSnake b) : IsSnake (a ++ b) := by
  rw [IsSnake, String.toList_append, List.all_append, ha, hb]
  rfl

/-- Whatever the name, its words in lower case make part of an identifier. -/
theorem isSnake_snake (name : String) : IsSnake (snake name) :=
  isSnake_iff.mpr fun _ => isSnakeChar_of_mem_snake

theorem isSnake_toString (n : Nat) : IsSnake (toString n) := by
  rw [isSnake_iff]
  intro c hc
  rw [Nat.toString_eq_repr, Nat.toList_repr] at hc
  have hdigit := Nat.isDigit_of_mem_toDigits (by decide) (by decide) hc
  simp [isSnakeChar, hdigit]

end PolicyForge.Identifier
