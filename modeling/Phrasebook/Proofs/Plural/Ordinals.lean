import Phrasebook.Plural.Rules
import Phrasebook.Text.Digits
import Mathlib.Data.List.Infix
import Mathlib.Data.List.Nodup
import Mathlib.Algebra.Group.Int.Defs
import Mathlib.Logic.Function.Defs
/-!
# English ordinals

An ordinal tells its count, and an ordinal phrase tells its word too, for all counts of 64 bits.
What stands in front of the first letter is the count in digits, or nothing where the ordinal is
a word. The ending of an ordinal in digits is told by the last two digits.
-/

namespace Phrasebook.Plural.English

open Phrasebook.Text

/-! ## Magnitudes -/

theorem toNat_toUInt64 (count : Count) :
    count.toUInt64.toNat = (count.toInt % 2 ^ 64).toNat := by
  have hword := count.toBitVec.isLt
  rw [← UInt64.toNat_toBitVec, Int64.toBitVec_toUInt64, ← Int64.toInt_toBitVec,
    BitVec.toInt_eq_toNat_bmod, Int.bmod]
  split <;> omega

/-- The least count stays as it is when its sign is turned around. -/
theorem toInt_neg_eq (count : Count) :
    (-count).toInt = if count.toInt = -2 ^ 63 then -2 ^ 63 else -count.toInt := by
  have hlow := count.le_toInt
  have hhigh := count.toInt_lt
  rw [Int64.toInt_neg, Int.bmod]
  split <;> split <;> omega

theorem natAbs_neg (count : Count) : (-count).toInt.natAbs = count.toInt.natAbs := by
  rw [toInt_neg_eq]
  split <;> omega

/-- The magnitude is the absolute value. It does not overflow. -/
theorem toNat_magnitude (count : Count) : (magnitude count).toNat = count.toInt.natAbs := by
  have hlow := count.le_toInt
  have hhigh := count.toInt_lt
  unfold magnitude
  split
  · rename_i hneg
    rw [Int64.lt_iff_toInt_lt, Int64.toInt_zero] at hneg
    rw [toNat_toUInt64, toInt_neg_eq]
    split <;> omega
  · rename_i hpos
    rw [Int64.lt_iff_toInt_lt, Int64.toInt_zero] at hpos
    rw [toNat_toUInt64]
    omega

/-! ## Endings of numbers in digits -/

theorem suffix_toDigits_iff {n : Nat} {c : Char} :
    [c] <:+ Nat.toDigits 10 n ↔ c = (n % 10).digitChar := by
  obtain ⟨front, hn, -⟩ := exists_toDigits_eq_append n
  rw [hn]
  constructor
  · rintro ⟨other, hother⟩
    exact (List.append_inj' hother rfl).2 |> List.cons.inj |>.1
  · rintro rfl
    exact List.suffix_append front _

theorem pair_suffix_toDigits_iff {n : Nat} {c d : Char} :
    [c, d] <:+ Nat.toDigits 10 n ↔
      10 ≤ n ∧ c = (n / 10 % 10).digitChar ∧ d = (n % 10).digitChar := by
  obtain ⟨front, hn, hfront⟩ := exists_toDigits_eq_append n
  have hlast : [c, d] <:+ Nat.toDigits 10 n ↔ [c] <:+ front ∧ d = (n % 10).digitChar := by
    rw [hn]
    constructor
    · rintro ⟨other, hother⟩
      have hparts : (other ++ [c]) ++ [d] = front ++ [(n % 10).digitChar] := by simpa using hother
      obtain ⟨hleft, hright⟩ := List.append_inj' hparts rfl
      exact ⟨⟨other, hleft⟩, (List.cons.inj hright).1⟩
    · rintro ⟨⟨other, rfl⟩, rfl⟩
      exact ⟨other, by simp⟩
  rw [hlast, hfront]
  split
  · rename_i hsmall
    simp [Nat.not_le.mpr hsmall]
  · rename_i hlarge
    rw [suffix_toDigits_iff, and_iff_right (Nat.le_of_not_lt hlarge)]

/-- The ending that goes with the last digits of a number. -/
def ending (digits : List Char) : String :=
  if ['1', '1'] <:+ digits ∨ ['1', '2'] <:+ digits ∨ ['1', '3'] <:+ digits then "th"
  else if ['1'] <:+ digits then "st"
  else if ['2'] <:+ digits then "nd"
  else if ['3'] <:+ digits then "rd"
  else "th"

theorem ending_toDigits (n : Nat) :
    ending (Nat.toDigits 10 n) =
      if 11 ≤ n % 100 ∧ n % 100 ≤ 13 then "th"
      else if n % 10 = 1 then "st" else if n % 10 = 2 then "nd" else if n % 10 = 3 then "rd"
      else "th" := by
  have hteen : (['1', '1'] <:+ Nat.toDigits 10 n ∨ ['1', '2'] <:+ Nat.toDigits 10 n ∨
      ['1', '3'] <:+ Nat.toDigits 10 n) ↔ 11 ≤ n % 100 ∧ n % 100 ≤ 13 := by
    simp only [pair_suffix_toDigits_iff, Nat.one_eq_digitChar, Nat.two_eq_digitChar,
      Nat.three_eq_digitChar]
    omega
  simp only [ending, hteen, suffix_toDigits_iff, Nat.one_eq_digitChar, Nat.two_eq_digitChar,
    Nat.three_eq_digitChar]

theorem ordinalSuffix_eq (magnitude : UInt64) :
    ordinalSuffix magnitude = ending (toString magnitude.toNat).toList := by
  have hteen : (11 ≤ magnitude % 100 ∧ magnitude % 100 ≤ 13) ↔
      11 ≤ magnitude.toNat % 100 ∧ magnitude.toNat % 100 ≤ 13 := by
    simp only [UInt64.le_iff_toNat_le, UInt64.toNat_mod]
    rfl
  have hdigit : ∀ k : UInt64, magnitude % 10 = k ↔ magnitude.toNat % 10 = k.toNat := by
    intro k
    rw [← UInt64.toNat_inj, UInt64.toNat_mod]
    rfl
  have hone : magnitude % 10 = 1 ↔ magnitude.toNat % 10 = 1 := hdigit 1
  have htwo : magnitude % 10 = 2 ↔ magnitude.toNat % 10 = 2 := hdigit 2
  have hthree : magnitude % 10 = 3 ↔ magnitude.toNat % 10 = 3 := hdigit 3
  rw [toList_toString_nat, ending_toDigits, ordinalSuffix]
  simp only [hteen]
  congr 1
  split
  · rename_i hlast
    rw [if_pos (hone.mp hlast)]
  · rename_i hlast
    have hlast := htwo.mp hlast
    rw [if_neg (by omega), if_pos hlast]
  · rename_i hlast
    have hlast := hthree.mp hlast
    rw [if_neg (by omega), if_neg (by omega), if_pos hlast]
  · rename_i hnotOne hnotTwo hnotThree
    rw [if_neg (hnotOne ∘ hone.mpr), if_neg (hnotTwo ∘ htwo.mpr), if_neg (hnotThree ∘ hthree.mpr)]

/-! ## Ordinals -/

/-- Whether the ordinal of a count is a word. -/
def IsSpelled (count : Count) : Prop := 0 ≤ count.toInt ∧ count.toInt ≤ 19

instance (count : Count) : Decidable (IsSpelled count) := inferInstanceAs (Decidable (_ ∧ _))

/-- What stands in front of the first letter. -/
def front (text : String) : List Char := text.toList.takeWhile fun c => !c.isAlpha

variable {count other : Count} {word otherWord : String}

theorem ordinalNumber_of_spelled (h : IsSpelled count) :
    ordinalWords[count.toInt.toNat]? = some (ordinalNumber count) := by
  obtain ⟨hlow, hhigh⟩ := h
  have hbound : count.toInt.toNat < ordinalWords.length := by
    have hlength : ordinalWords.length = 20 := rfl
    omega
  rw [ordinalNumber]
  simp only [if_pos hlow, List.getElem?_eq_getElem hbound, Option.getD_some]

theorem ordinalNumber_of_digits (h : ¬ IsSpelled count) :
    ordinalNumber count =
      toString count.toInt ++ ending (toString count.toInt.natAbs).toList := by
  rw [← toNat_magnitude, ← ordinalSuffix_eq, ordinalNumber]
  split
  · rename_i hlow
    have hbound : ordinalWords.length ≤ count.toInt.toNat := by
      have hlength : ordinalWords.length = 20 := rfl
      have hhigh : ¬ count.toInt ≤ 19 := fun hhigh => h ⟨hlow, hhigh⟩
      omega
    rw [List.getElem?_eq_none hbound, Option.getD_none]
  · rfl

/-- Words and endings consist of letters. -/
theorem isAlpha_of_mem_word {w : String} (h : w ∈ ordinalWords) :
    w.toList ≠ [] ∧ ∀ c ∈ w.toList, c.isAlpha = true := by
  have hall : ordinalWords.all
      (fun w => !w.toList.isEmpty && w.toList.all Char.isAlpha) = true := by decide
  have hw := List.all_eq_true.mp hall w h
  simpa using hw

theorem isAlpha_of_mem_ending (digits : List Char) :
    (ending digits).toList ≠ [] ∧ ∀ c ∈ (ending digits).toList, c.isAlpha = true := by
  have hmem : ending digits ∈ ["th", "st", "nd", "rd"] := by
    unfold ending
    split
    · decide
    · split
      · decide
      · split
        · decide
        · split <;> decide
  have hall : ["th", "st", "nd", "rd"].all
      (fun w => !w.toList.isEmpty && w.toList.all Char.isAlpha) = true := by decide
  have hending := List.all_eq_true.mp hall _ hmem
  simpa using hending

theorem front_of_letters {letters : List Char}
    (h : letters ≠ [] ∧ ∀ c ∈ letters, c.isAlpha = true) :
    letters.takeWhile (fun c => !c.isAlpha) = [] := by
  obtain ⟨c, rest, rfl⟩ := List.exists_cons_of_ne_nil h.1
  rw [List.takeWhile_cons_of_neg]
  simp [h.2 c List.mem_cons_self]

theorem front_of_spelled (h : IsSpelled count) :
    front (ordinalNumber count) = [] :=
  front_of_letters (isAlpha_of_mem_word (List.mem_of_getElem? (ordinalNumber_of_spelled h)))

theorem front_of_digits (h : ¬ IsSpelled count) :
    front (ordinalNumber count) = (toString count.toInt).toList := by
  rw [front, ordinalNumber_of_digits h, String.toList_append, List.takeWhile_append_of_pos,
    front_of_letters (isAlpha_of_mem_ending _), List.append_nil]
  intro c hc
  rw [isAlpha_of_mem_toString hc]
  rfl

theorem ordinalNumber_injective : Function.Injective ordinalNumber := by
  have hmixed : ∀ {a b : Count}, IsSpelled a → ¬ IsSpelled b →
      ordinalNumber a ≠ ordinalNumber b := by
    intro a b ha hb h
    have hfront := front_of_digits hb
    rw [← h, front_of_spelled ha] at hfront
    exact toString_ne_nil b.toInt hfront.symm
  intro a b h
  rw [← Int64.toInt_inj]
  by_cases ha : IsSpelled a
  · by_cases hb : IsSpelled b
    · -- No word stands twice.
      have hnodup : ordinalWords.Nodup := by decide
      have hword := ordinalNumber_of_spelled ha
      have hother := ordinalNumber_of_spelled hb
      obtain ⟨hbound, -⟩ := List.getElem?_eq_some_iff.mp hword
      have hindex := (List.getElem?_inj hbound hnodup).mp (hword.trans (h ▸ hother.symm))
      have hlow := ha.1
      have hlow' := hb.1
      omega
    · exact absurd h (hmixed ha hb)
  · by_cases hb : IsSpelled b
    · exact absurd h.symm (hmixed hb ha)
    · apply toString_injective
      rw [← String.toList_inj, ← front_of_digits ha, ← front_of_digits hb, h]

/-- An ordinal consists of letters, digits and perhaps a sign. -/
theorem of_mem_ordinalNumber {c : Char} (h : c ∈ (ordinalNumber count).toList) :
    c = '-' ∨ c.isAlphanum = true := by
  have hletter : c.isAlpha = true → c.isAlphanum = true := fun hc => by
    rw [Char.isAlphanum, hc, Bool.true_or]
  by_cases hcount : IsSpelled count
  · have hword := isAlpha_of_mem_word (List.mem_of_getElem? (ordinalNumber_of_spelled hcount))
    exact .inr (hletter (hword.2 c h))
  · rw [ordinalNumber_of_digits hcount, String.toList_append] at h
    rcases List.mem_append.mp h with h | h
    · refine (of_mem_toString h).imp_right fun hdigit => ?_
      rw [Char.isAlphanum, hdigit, Bool.or_true]
    · exact .inr (hletter ((isAlpha_of_mem_ending _).2 c h))

theorem ordinalNumber_ne_nil (count : Count) : (ordinalNumber count).toList ≠ [] := by
  by_cases hcount : IsSpelled count
  · exact (isAlpha_of_mem_word (List.mem_of_getElem? (ordinalNumber_of_spelled hcount))).1
  · rw [ordinalNumber_of_digits hcount, String.toList_append]
    exact List.append_ne_nil_of_left_ne_nil (toString_ne_nil _) _

/-- The ordinal of a phrase stands in front of its first space. -/
theorem takeWhile_makeOrdinal (word : String) (count : Count) :
    (makeOrdinal word count).toList.takeWhile (· ≠ ' ') = (ordinalNumber count).toList := by
  have htext : (makeOrdinal word count).toList =
      (ordinalNumber count).toList ++ ' ' :: word.toList := by
    simp [makeOrdinal]
  rw [htext, List.takeWhile_append_of_pos, List.takeWhile_cons_of_neg (by simp), List.append_nil]
  intro c hc
  refine decide_eq_true ?_
  rintro rfl
  exact absurd (of_mem_ordinalNumber hc) (by decide)

/-- Counts with the same last two digits have the same ending. -/
theorem ending_congr {m n : Nat} (h : m % 100 = n % 100) :
    ending (toString m).toList = ending (toString n).toList := by
  have hlast : m % 10 = n % 10 := by omega
  rw [toList_toString_nat, toList_toString_nat, ending_toDigits, ending_toDigits, h, hlast]

/-- Nothing of a count is lost in its ordinal, nor of a word and a count in their phrase, whose
ordinal stands in front of the first space. The magnitude of a count is its absolute value, for
the least count too. Below zero and above nineteen the ordinal is the count in digits with the
ending that belongs to the last digits of the absolute value. This ending is the same for a
count and its negative, and for all counts with the same last two digits. -/
theorem ordinalNumber_lossless (count : Count) :
    (magnitude count).toNat = count.toInt.natAbs ∧
    (∀ other, ordinalNumber count = ordinalNumber other → count = other) ∧
    (∀ word, (makeOrdinal word count).toList.takeWhile (· ≠ ' ') =
      (ordinalNumber count).toList) ∧
    (∀ word otherWord other, makeOrdinal word count = makeOrdinal otherWord other →
      word = otherWord ∧ count = other) ∧
    (¬ (0 ≤ count.toInt ∧ count.toInt ≤ 19) → ordinalNumber count =
      toString count.toInt ++ ending (toString count.toInt.natAbs).toList) ∧
    ∀ other : Count, ¬ IsSpelled count → ¬ IsSpelled other →
      other = -count ∨ other.toInt.natAbs % 100 = count.toInt.natAbs % 100 →
      ∃ suffix, ordinalNumber count = toString count.toInt ++ suffix ∧
        ordinalNumber other = toString other.toInt ++ suffix := by
  refine ⟨toNat_magnitude count, fun other h => ordinalNumber_injective h,
    fun word => takeWhile_makeOrdinal word count, ?_, ordinalNumber_of_digits, ?_⟩
  · intro word otherWord other h
    have hordinal : ordinalNumber count = ordinalNumber other := by
      rw [← String.toList_inj, ← takeWhile_makeOrdinal word, h, takeWhile_makeOrdinal]
    rw [makeOrdinal, makeOrdinal, hordinal, String.append_right_inj] at h
    exact ⟨h, ordinalNumber_injective hordinal⟩
  · intro other hcount hother h
    refine ⟨_, ordinalNumber_of_digits hcount, ?_⟩
    have hlast : other.toInt.natAbs % 100 = count.toInt.natAbs % 100 := by
      rcases h with rfl | h
      · rw [natAbs_neg]
      · exact h
    rw [← ending_congr hlast]
    exact ordinalNumber_of_digits hother

/-- The least count is its own negative. -/
example : ordinalNumber Int64.minValue = "-9223372036854775808th" ∧
    -Int64.minValue = Int64.minValue := by
  decide +kernel

end Phrasebook.Plural.English
