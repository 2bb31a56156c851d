import Phrasebook.Text
/-!
# Letters, digits and their case

The classes and the case maps of characters know ASCII only. They are told by the number
of a character, and are compared through it.
-/

namespace Phrasebook.Text

theorem isAlpha_iff {c : Char} : c.isAlpha = true ↔
    (65 ≤ c.toNat ∧ c.toNat ≤ 90) ∨ (97 ≤ c.toNat ∧ c.toNat ≤ 122) := by
  unfold Char.isAlpha Char.isUpper Char.isLower
  simp only [Bool.or_eq_true, Bool.and_eq_true, decide_eq_true_eq, ge_iff_le,
    UInt32.le_iff_toNat_le]
  rfl

theorem isLower_iff {c : Char} : c.isLower = true ↔ 97 ≤ c.toNat ∧ c.toNat ≤ 122 := by
  unfold Char.isLower
  simp only [Bool.and_eq_true, decide_eq_true_eq, ge_iff_le, UInt32.le_iff_toNat_le]
  rfl

theorem isUpper_iff {c : Char} : c.isUpper = true ↔ 65 ≤ c.toNat ∧ c.toNat ≤ 90 := by
  unfold Char.isUpper
  simp only [decide_eq_true_eq, UInt32.le_iff_toNat_le]
  rfl

theorem isDigit_iff {c : Char} : c.isDigit = true ↔ 48 ≤ c.toNat ∧ c.toNat ≤ 57 := by
  simp only [Char.isDigit, Bool.and_eq_true, decide_eq_true_eq, ge_iff_le, UInt32.le_iff_toNat_le]
  rfl

theorem toNat_toLower (c : Char) : c.toLower.toNat =
    if 65 ≤ c.toNat ∧ c.toNat ≤ 90 then c.toNat + 32 else c.toNat := by
  unfold Char.toLower
  split
  · rename_i h
    have hc : 65 ≤ c.toNat ∧ c.toNat ≤ 90 := h
    have hval : (c.val + 32).toNat = (c.toNat + 32) % 2 ^ 32 := UInt32.toNat_add c.val 32
    rw [if_pos hc]
    exact hval.trans (Nat.mod_eq_of_lt (by omega))
  · rename_i h
    exact (if_neg h).symm

theorem toNat_toUpper (c : Char) : c.toUpper.toNat =
    if 97 ≤ c.toNat ∧ c.toNat ≤ 122 then c.toNat - 32 else c.toNat := by
  unfold Char.toUpper
  split
  · rename_i h
    have hc : 97 ≤ c.toNat ∧ c.toNat ≤ 122 := h
    have hval : (c.val + ('A'.val - 'a'.val)).toNat = (c.toNat + (2 ^ 32 - 32)) % 2 ^ 32 :=
      UInt32.toNat_add c.val _
    rw [if_pos hc]
    refine hval.trans ?_
    omega
  · rename_i h
    exact (if_neg h).symm

theorem isAlpha_toLower (c : Char) : c.toLower.isAlpha = c.isAlpha := by
  rw [Bool.eq_iff_iff, isAlpha_iff, isAlpha_iff, toNat_toLower]
  split <;> omega

theorem isAlpha_toUpper (c : Char) : c.toUpper.isAlpha = c.isAlpha := by
  rw [Bool.eq_iff_iff, isAlpha_iff, isAlpha_iff, toNat_toUpper]
  split <;> omega

theorem isDigit_toLower (c : Char) : c.toLower.isDigit = c.isDigit := by
  rw [Bool.eq_iff_iff, isDigit_iff, isDigit_iff, toNat_toLower]
  split <;> omega

theorem isDigit_toUpper (c : Char) : c.toUpper.isDigit = c.isDigit := by
  rw [Bool.eq_iff_iff, isDigit_iff, isDigit_iff, toNat_toUpper]
  split <;> omega

theorem isAlphanum_toLower (c : Char) : c.toLower.isAlphanum = c.isAlphanum := by
  rw [Char.isAlphanum, Char.isAlphanum, isAlpha_toLower, isDigit_toLower]

theorem isAlphanum_toUpper (c : Char) : c.toUpper.isAlphanum = c.isAlphanum := by
  rw [Char.isAlphanum, Char.isAlphanum, isAlpha_toUpper, isDigit_toUpper]

theorem toLower_toLower (c : Char) : c.toLower.toLower = c.toLower := by
  rw [← Char.toNat_inj, toNat_toLower c.toLower]
  refine if_neg ?_
  rw [toNat_toLower]
  split <;> omega

theorem toUpper_toUpper (c : Char) : c.toUpper.toUpper = c.toUpper := by
  rw [← Char.toNat_inj, toNat_toUpper c.toUpper]
  refine if_neg ?_
  rw [toNat_toUpper]
  split <;> omega

/-- A text in one case is kept by the map to this case. -/
theorem toLower_ofList_map (cs : List Char) :
    (String.ofList (cs.map Char.toLower)).toLower = String.ofList (cs.map Char.toLower) := by
  rw [← String.toList_inj, toList_toLower, String.toList_ofList, List.map_map]
  exact List.map_congr_left fun c _ => toLower_toLower c

theorem toUpper_ofList_map (cs : List Char) :
    (String.ofList (cs.map Char.toUpper)).toUpper = String.ofList (cs.map Char.toUpper) := by
  rw [← String.toList_inj, toList_toUpper, String.toList_ofList, List.map_map]
  exact List.map_congr_left fun c _ => toUpper_toUpper c

/-- Letters and digits are no blanks. -/
theorem isBlank_of_isAlphanum {c : Char} (h : c.isAlphanum = true) : isBlank c = false := by
  have hc : (65 ≤ c.toNat ∧ c.toNat ≤ 90) ∨ (97 ≤ c.toNat ∧ c.toNat ≤ 122) ∨
      (48 ≤ c.toNat ∧ c.toNat ≤ 57) := by
    rwa [Char.isAlphanum, Bool.or_eq_true, isAlpha_iff, isDigit_iff, or_assoc] at h
  simp only [isBlank, Bool.or_eq_false_iff, Bool.and_eq_false_iff, decide_eq_false_iff_not,
    beq_eq_false_iff_ne]
  omega

/-- A change of case has no effect on classes without letters. -/
theorem apply_toLower {p : Char → Bool} (hp : ∀ c, c.isAlpha = true → p c = false) (c : Char) :
    p c.toLower = p c := by
  by_cases hc : c.isAlpha = true
  · rw [hp c hc, hp c.toLower ((isAlpha_toLower c).trans hc)]
  · have hfix : c.toLower = c := by
      rw [isAlpha_iff, not_or] at hc
      rw [← Char.toNat_inj, toNat_toLower]
      exact if_neg hc.1
    rw [hfix]

theorem apply_toUpper {p : Char → Bool} (hp : ∀ c, c.isAlpha = true → p c = false) (c : Char) :
    p c.toUpper = p c := by
  by_cases hc : c.isAlpha = true
  · rw [hp c hc, hp c.toUpper ((isAlpha_toUpper c).trans hc)]
  · have hfix : c.toUpper = c := by
      rw [isAlpha_iff, not_or] at hc
      rw [← Char.toNat_inj, toNat_toUpper]
      exact if_neg hc.2
    rw [hfix]

theorem isBlank_of_isAlpha {c : Char} (h : c.isAlpha = true) : isBlank c = false :=
  isBlank_of_isAlphanum (by rw [Char.isAlphanum, h, Bool.true_or])

theorem toUpper_toLower (c : Char) : c.toLower.toUpper = c.toUpper := by
  rw [← Char.toNat_inj, toNat_toUpper, toNat_toUpper, toNat_toLower]
  split
  · rw [if_pos (by omega), if_neg (by omega)]
    omega
  · rfl

end Phrasebook.Text
