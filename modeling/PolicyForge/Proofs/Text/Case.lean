import Mathlib.Data.List.Forall2
import PolicyForge.Proofs.Text.Blank

namespace PolicyForge.Text

/-- Texts of which the second is the first with some letters in another case. -/
def Recased (text other : String) : Prop :=
  List.Forall₂ (fun c d => d = c ∨ d = c.toLower ∨ d = c.toUpper) text.toList other.toList

/-- Upper-case letters are those of ASCII, by code point. -/
theorem isUpper_iff {c : Char} : c.isUpper = true ↔ 65 ≤ c.toNat ∧ c.toNat ≤ 90 := by
  delta Char.isUpper
  simp [UInt32.le_iff_toNat_le]

/-- Lower-case letters are those of ASCII, by code point. -/
theorem isLower_iff {c : Char} : c.isLower = true ↔ 97 ≤ c.toNat ∧ c.toNat ≤ 122 := by
  delta Char.isLower
  simp [UInt32.le_iff_toNat_le]

theorem not_isLower_of_isUpper {c : Char} (hc : c.isUpper = true) : ¬ c.isLower = true := by
  rw [isLower_iff]
  have hbounds := isUpper_iff.mp hc
  omega

/-- Small letters are thirty-two behind their capitals, and nothing else has a case. -/
theorem toNat_toLower (c : Char) :
    c.toLower.toNat = if 65 ≤ c.toNat ∧ c.toNat ≤ 90 then c.toNat + 32 else c.toNat := by
  have hcapital : ('A'.val ≤ c.val ∧ c.val ≤ 'Z'.val) ↔ 65 ≤ c.toNat ∧ c.toNat ≤ 90 := by
    simp [UInt32.le_iff_toNat_le]
  delta Char.toLower
  split
  · rename_i h
    have hbounds := hcapital.mp h
    rw [if_pos hbounds, ← Char.toNat_val, UInt32.toNat_add]
    exact Nat.mod_eq_of_lt (by simp; omega)
  · rename_i h
    rw [if_neg fun hbounds => h (hcapital.mpr hbounds)]

/-- Capitals are thirty-two in front of their small letters. The lemmas on case below go by code
points alone. -/
theorem toNat_toUpper (c : Char) :
    c.toUpper.toNat = if 97 ≤ c.toNat ∧ c.toNat ≤ 122 then c.toNat - 32 else c.toNat := by
  have hsmall : ('a'.val ≤ c.val ∧ c.val ≤ 'z'.val) ↔ 97 ≤ c.toNat ∧ c.toNat ≤ 122 := by
    simp [UInt32.le_iff_toNat_le]
  delta Char.toUpper
  split
  · rename_i h
    have hbounds := hsmall.mp h
    rw [if_pos hbounds, ← Char.toNat_val, UInt32.toNat_add]
    simp
    omega
  · rename_i h
    rw [if_neg fun hbounds => h (hsmall.mpr hbounds)]

theorem toUpper_of_not_isLower {c : Char} (hc : ¬ c.isLower = true) : c.toUpper = c := by
  rw [← Char.toNat_inj, toNat_toUpper, if_neg (isLower_iff.not.mp hc)]

theorem toLower_toUpper (c : Char) : c.toUpper.toLower = c.toLower := by
  rw [← Char.toNat_inj]
  grind [toNat_toLower, toNat_toUpper]

theorem toUpper_toLower (c : Char) : c.toLower.toUpper = c.toUpper := by
  rw [← Char.toNat_inj]
  grind [toNat_toLower, toNat_toUpper]

theorem toLower_toLower (c : Char) : c.toLower.toLower = c.toLower := by
  rw [← Char.toNat_inj]
  grind [toNat_toLower]

/-- A character is a lower-case letter once lowered when it is a letter. -/
theorem isLower_toLower_iff {c : Char} :
    c.toLower.isLower = true ↔ c.isUpper = true ∨ c.isLower = true := by
  grind [toNat_toLower, isUpper_iff, isLower_iff]

/-- A character is an upper-case letter once raised when it is a letter. -/
theorem isUpper_toUpper_iff {c : Char} :
    c.toUpper.isUpper = true ↔ c.isUpper = true ∨ c.isLower = true := by
  grind [toNat_toUpper, isUpper_iff, isLower_iff]

theorem not_isUpper_toLower (c : Char) : c.toLower.isUpper = false := by
  grind [toNat_toLower, isUpper_iff]

/-- Characters with one small letter are that letter and its capital. -/
theorem toLower_eq_toLower_iff {c d : Char} :
    c.toLower = d.toLower ↔ d = c ∨ d = c.toLower ∨ d = c.toUpper := by
  simp only [← Char.toNat_inj]
  grind [toNat_toLower, toNat_toUpper]

/-- Two texts agree in lower case when their characters do, position by position. -/
theorem toLower_eq_iff {a b : String} :
    a.toLower = b.toLower ↔ a.toList.map Char.toLower = b.toList.map Char.toLower := by
  rw [← beq_iff_eq, toLower_beq, beq_iff_eq]

/-- Lowering agrees just for texts that differ in the case of ASCII letters alone. -/
theorem toLower_eq_iff_recased {a b : String} : a.toLower = b.toLower ↔ Recased a b := by
  rw [toLower_eq_iff, ← List.forall₂_eq_eq_eq, List.forall₂_map_left_iff, List.forall₂_map_right_iff,
    Recased]
  simp only [toLower_eq_toLower_iff]

/-- A character without case is not made of another one by small letters. -/
theorem mem_map_toLower_iff {c : Char} (hlower : c.toLower = c) (hupper : c.toUpper = c)
    {cs : List Char} : c ∈ cs.map Char.toLower ↔ c ∈ cs := by
  constructor
  · intro hmem
    obtain ⟨d, hd, heq⟩ := List.mem_map.mp hmem
    have hsame : d = c := by
      simpa [hlower, hupper] using toLower_eq_toLower_iff.mp (hlower.trans heq.symm)
    exact hsame ▸ hd
  · intro hmem
    exact List.mem_map.mpr ⟨c, hmem, hlower⟩

end PolicyForge.Text
