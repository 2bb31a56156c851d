import Phrasebook.Json.Numeral
import Phrasebook.Text.Digits
/-!
# Whole numbers that are read back

A whole number is written by its digits, behind a sign if it is negative. A reader takes
them up to the first character with which a numeral does not go on, and finds the number
again if it is of 64 bits.
-/

namespace Phrasebook.Json.Numeral

/-- Whether a numeral ends in front of a text. -/
def Ends (rest : List Char) : Prop :=
  ∀ c ∈ rest.head?, c.isDigit = false ∧ c ≠ '.' ∧ c ≠ 'e' ∧ c ≠ 'E'

theorem ends_nil : Ends [] := fun _ h => by cases h

theorem ends_cons {c : Char} (h : c.isDigit = false ∧ c ≠ '.' ∧ c ≠ 'e' ∧ c ≠ 'E')
    (rest : List Char) : Ends (c :: rest) := by
  intro d hd
  obtain rfl := Option.some.inj hd
  exact h

variable {rest : List Char}

theorem span_toDigits (n : Nat) (h : Ends rest) :
    (Nat.toDigits 10 n ++ rest).takeWhile Char.isDigit = Nat.toDigits 10 n ∧
      (Nat.toDigits 10 n ++ rest).dropWhile Char.isDigit = rest := by
  have hdigits : ∀ c ∈ Nat.toDigits 10 n, c.isDigit = true := fun _ => Text.isDigit_of_mem_toDigits
  rw [List.takeWhile_append_of_pos hdigits, List.dropWhile_append_of_pos hdigits]
  cases rest with
  | nil => exact ⟨List.append_nil _, rfl⟩
  | cons c rest =>
      have hc : ¬ c.isDigit = true := Bool.eq_false_iff.mp (h c rfl).1
      rw [List.takeWhile_cons_of_neg hc, List.dropWhile_cons_of_neg hc, List.append_nil]
      exact ⟨rfl, rfl⟩

/-- The digits of a number are read, whatever stands behind them. -/
theorem readWhole_toDigits (n : Nat) (h : Ends rest) :
    readWhole (Nat.toDigits 10 n ++ rest) = .ok (Nat.toDigits 10 n, rest) := by
  by_cases hn : n = 0
  · subst hn
    change readWhole ('0' :: rest) = .ok (['0'], rest)
    cases rest with
    | nil => rfl
    | cons c rest =>
        simp only [readWhole, (h c rfl).1, Bool.false_eq_true, if_false]
  · obtain ⟨htake, hdrop⟩ := span_toDigits n h
    obtain ⟨c, cs, hcs, hdigit⟩ := Text.exists_toDigits_eq_cons n
    have hzero : c ≠ '0' := by
      rintro rfl
      exact Text.head?_toDigits (Nat.pos_of_ne_zero hn) (by rw [hcs, List.head?_cons])
    rw [hcs, List.cons_append] at htake hdrop ⊢
    unfold readWhole
    split
    · rename_i hstart
      exact absurd (List.cons.inj hstart).1 hzero
    · rw [readDigits, if_pos hdigit, htake, hdrop]

theorem readFraction_of_ends (h : Ends rest) : readFraction rest = .ok ([], rest) := by
  unfold readFraction
  split
  · exact absurd rfl (h _ rfl).2.1
  · rfl

theorem readExponent_of_ends (h : Ends rest) : readExponent rest = .ok (none, rest) := by
  unfold readExponent
  dsimp only
  split
  · exact absurd rfl (h _ rfl).2.2.1
  · exact absurd rfl (h _ rfl).2.2.2
  · rfl

/-- A written whole number is read as its digits and its sign. -/
theorem read_toString (n : Int) (h : Ends rest) :
    read ((toString n).toList ++ rest) =
      .ok (⟨decide (n < 0), Nat.toDigits 10 n.natAbs, [], none⟩, rest) := by
  have hwhole := readWhole_toDigits n.natAbs h
  have hfraction := readFraction_of_ends h
  have hexponent := readExponent_of_ends h
  rw [Text.toList_toString]
  split
  · rename_i hneg
    rw [decide_eq_true hneg]
    exact bind_eq_ok_iff.mpr ⟨_, hwhole, bind_eq_ok_iff.mpr ⟨_, hfraction,
      bind_eq_ok_iff.mpr ⟨_, hexponent, rfl⟩⟩⟩
  · rename_i hpos
    unfold read
    split
    rename_i negative cs hcs
    split at hcs
    · rename_i hstart
      exact absurd hstart (Text.toDigits_append_ne _ _ _)
    · obtain ⟨rfl, rfl⟩ := Prod.mk.inj hcs
      rw [decide_eq_false hpos]
      exact bind_eq_ok_iff.mpr ⟨_, hwhole, bind_eq_ok_iff.mpr ⟨_, hfraction,
        bind_eq_ok_iff.mpr ⟨_, hexponent, rfl⟩⟩⟩

theorem natOf_toDigits (n : Nat) : natOf (Nat.toDigits 10 n) = n :=
  Nat.ofDigitChars_ten_toDigits

/-- A whole number of 64 bits keeps its value. -/
theorem number?_of_whole {n : Int} (hlow : -(Nat.pow 2 63) ≤ n) (hhigh : n < UInt64.size) :
    number? ⟨decide (n < 0), Nat.toDigits 10 n.natAbs, [], none⟩ = some (.whole n) := by
  obtain ⟨m, hm⟩ : ∃ m, n.natAbs = m := ⟨_, rfl⟩
  rw [hm, number?]
  simp only [List.isEmpty_nil, Option.isNone_none, Bool.and_self, if_true, natOf_toDigits]
  by_cases hneg : n < 0
  · have hrange : 0 < m ∧ m ≤ Nat.pow 2 63 := by omega
    have habs : -(m : Int) = n := by omega
    simp only [hneg, hrange, habs, decide_true, Bool.not_true, Bool.false_and, Bool.and_self,
      Bool.false_eq_true, if_false, if_true]
  · have hrange : m < UInt64.size := by omega
    have habs : (m : Int) = n := by omega
    simp only [hneg, hrange, habs, decide_true, decide_false, Bool.not_false, Bool.and_self,
      if_true]

end Phrasebook.Json.Numeral
