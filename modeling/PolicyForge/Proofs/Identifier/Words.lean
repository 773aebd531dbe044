import PolicyForge.Identifier.Words
import PolicyForge.Proofs.Text.Cut

namespace PolicyForge.Identifier

/-- A character of words in snake case. -/
def isSnakeChar (c : Char) : Bool :=
  c.isLower || c.isDigit || c == '_'

/-- Letters and digits are meant as those of ASCII. -/
theorem lt_of_isAlphanum {c : Char} (hc : c.isAlphanum = true) : c.toNat < 128 := by
  have hranges : ((decide ('A'.val ≤ c.val ∧ c.val ≤ 'Z'.val) ||
      (decide ('a'.val ≤ c.val) && decide (c.val ≤ 'z'.val))) ||
      (decide ('0'.val ≤ c.val) && decide (c.val ≤ '9'.val))) = true := hc
  simp only [Bool.or_eq_true, Bool.and_eq_true, decide_eq_true_eq] at hranges
  have hbound : c.val ≤ 127 := by
    obtain (⟨_, hle⟩ | ⟨_, hle⟩) | ⟨_, hle⟩ := hranges
    · exact UInt32.le_trans hle (by decide)
    · exact UInt32.le_trans hle (by decide)
    · exact UInt32.le_trans hle (by decide)
  exact Nat.lt_succ_of_le (UInt32.le_iff_toNat_le.mp hbound)

/-- What holds of all ASCII characters holds of letters and digits. -/
theorem of_isAlphanum {P : Char → Prop} (hall : ∀ n < 128, P (Char.ofNat n)) {c : Char}
    (hc : c.isAlphanum = true) : P c := by
  have hchar := hall c.toNat (lt_of_isAlphanum hc)
  rwa [Char.ofNat_toNat] at hchar

theorem isAlphanum_toUpper {c : Char} (hc : c.isAlphanum = true) : c.toUpper.isAlphanum = true :=
  of_isAlphanum (P := fun c => c.isAlphanum = true → c.toUpper.isAlphanum = true)
    (by decide +kernel) hc hc

theorem isSnakeChar_toLower {c : Char} (hc : c.isAlphanum = true) : isSnakeChar c.toLower = true :=
  of_isAlphanum (P := fun c => c.isAlphanum = true → isSnakeChar c.toLower = true)
    (by decide +kernel) hc hc

/-- Running words together keeps letters and digits only. -/
theorem isAlphanum_of_mem_pascalChars {name : List Char} {c : Char} (hc : c ∈ pascalChars name) :
    c.isAlphanum = true := by
  obtain ⟨word, hword, hmem⟩ := List.mem_flatten.mp hc
  obtain ⟨piece, hpiece, rfl⟩ := List.mem_map.mp hword
  have hkept : ∀ d ∈ piece, d.isAlphanum = true := by
    intro d hd
    have hflat : d ∈ (Text.pieces (!·.isAlphanum) name).flatten :=
      List.mem_flatten.mpr ⟨piece, hpiece, hd⟩
    rw [Text.flatten_pieces] at hflat
    simpa using (List.mem_filter.mp hflat).2
  cases piece with
  | nil => simp [capitalize] at hmem
  | cons first rest =>
    obtain rfl | hrest := List.mem_cons.mp hmem
    · exact isAlphanum_toUpper (hkept first List.mem_cons_self)
    · exact hkept c (List.mem_cons_of_mem first hrest)

/-- A cut into words holds small letters, digits and underscores only. -/
theorem isSnakeChar_of_mem_separateWords {cs : List Char} (hcs : ∀ c ∈ cs, c.isAlphanum = true)
    {c : Char} (hc : c ∈ separateWords cs) : isSnakeChar c = true := by
  induction cs using separateWords.induct with
  | case1 => simp [separateWords] at hc
  | case2 a =>
    obtain rfl := List.mem_singleton.mp hc
    exact isSnakeChar_toLower (hcs a List.mem_cons_self)
  | case3 a b rest hstart ih =>
    rw [separateWords, if_pos hstart, List.mem_cons, List.mem_cons] at hc
    obtain rfl | rfl | hrest := hc
    · exact isSnakeChar_toLower (hcs a List.mem_cons_self)
    · rfl
    · exact ih (fun d hd => hcs d (List.mem_cons_of_mem a hd)) hrest
  | case4 a b rest hstart ih =>
    rw [separateWords, if_neg hstart, List.mem_cons] at hc
    obtain rfl | hrest := hc
    · exact isSnakeChar_toLower (hcs a List.mem_cons_self)
    · exact ih (fun d hd => hcs d (List.mem_cons_of_mem a hd)) hrest

theorem isSnakeChar_of_mem_snake {name : String} {c : Char} (hc : c ∈ (snake name).toList) :
    isSnakeChar c = true := by
  rw [snake, String.toList_ofList] at hc
  exact isSnakeChar_of_mem_separateWords (fun _ => isAlphanum_of_mem_pascalChars) hc

end PolicyForge.Identifier
