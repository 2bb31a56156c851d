import Phrasebook.Text.Case
import Mathlib.Logic.Function.Defs
/-!
# Numbers in digits

The decimal form of a number is its digits, behind a sign if the number is negative. It
starts with a zero for zero only.
-/

namespace Phrasebook.Text

theorem toList_toString_nat (n : Nat) : (toString n).toList = Nat.toDigits 10 n :=
  Nat.toList_repr

/-- A number in digits is the digits of its absolute value, behind a sign if it is negative. -/
theorem toList_toString (n : Int) :
    (toString n).toList =
      if n < 0 then '-' :: Nat.toDigits 10 n.natAbs else Nat.toDigits 10 n.natAbs := by
  cases n with
  | ofNat m => exact Nat.toList_repr
  | negSucc m =>
      have htext : (toString (Int.negSucc m)).toList = ("-" ++ (m + 1).repr).toList := rfl
      rw [htext, if_pos (Int.negSucc_lt_zero m), String.toList_append, Nat.toList_repr]
      rfl

theorem toDigits_injective : Function.Injective (Nat.toDigits 10) := by
  intro m n h
  rw [← Nat.ofDigitChars_ten_toDigits (n := m), h, Nat.ofDigitChars_ten_toDigits]

theorem isDigit_of_mem_toDigits {n : Nat} {c : Char} (h : c ∈ Nat.toDigits 10 n) :
    c.isDigit = true :=
  Nat.isDigit_of_mem_toDigits (by decide) (by decide) h

theorem exists_toDigits_eq_cons (n : Nat) :
    ∃ c cs, Nat.toDigits 10 n = c :: cs ∧ c.isDigit = true := by
  obtain ⟨c, cs, hcs⟩ := List.exists_cons_of_ne_nil (@Nat.toDigits_ne_nil n 10)
  exact ⟨c, cs, hcs, isDigit_of_mem_toDigits (hcs ▸ List.mem_cons_self)⟩

/-- Digits do not begin with a sign, whatever stands behind them. -/
theorem toDigits_append_ne (n : Nat) (rest cs : List Char) :
    Nat.toDigits 10 n ++ rest ≠ '-' :: cs := by
  obtain ⟨c, digits, hdigits, hc⟩ := exists_toDigits_eq_cons n
  rw [hdigits, List.cons_append]
  intro h
  rw [(List.cons.inj h).1] at hc
  cases hc

theorem toString_injective : Function.Injective (toString : Int → String) := by
  intro m n h
  have hsign : ∀ k : Nat, ∀ rest, Nat.toDigits 10 k ≠ '-' :: rest := fun k rest =>
    List.append_nil (Nat.toDigits 10 k) ▸ toDigits_append_ne k [] rest
  have htext := congrArg String.toList h
  rw [toList_toString, toList_toString] at htext
  split at htext
  · split at htext
    · have habs := toDigits_injective (List.cons.inj htext).2
      omega
    · exact absurd htext.symm (hsign _ _)
  · split at htext
    · exact absurd htext (hsign _ _)
    · have habs := toDigits_injective htext
      omega

/-- A number in digits has nothing but digits behind its sign. -/
theorem of_mem_toString {n : Int} {c : Char} (h : c ∈ (toString n).toList) :
    c = '-' ∨ c.isDigit = true := by
  rw [toList_toString] at h
  split at h
  · exact (List.mem_cons.mp h).imp_right isDigit_of_mem_toDigits
  · exact .inr (isDigit_of_mem_toDigits h)

theorem toString_ne_nil (n : Int) : (toString n).toList ≠ [] := by
  rw [toList_toString]
  split
  · exact List.cons_ne_nil _ _
  · exact Nat.toDigits_ne_nil

theorem isAlpha_of_mem_toString {n : Int} {c : Char} (h : c ∈ (toString n).toList) :
    c.isAlpha = false := by
  rcases of_mem_toString h with rfl | hdigit
  · decide
  · rw [← Bool.not_eq_true, isAlpha_iff]
    rw [isDigit_iff] at hdigit
    omega

/-- The last digit is the remainder by ten. -/
theorem exists_toDigits_eq_append (n : Nat) :
    ∃ front, Nat.toDigits 10 n = front ++ [(n % 10).digitChar] ∧
      front = if n < 10 then [] else Nat.toDigits 10 (n / 10) := by
  rw [Nat.toDigits_eq_if (by decide)]
  split
  · rename_i hn
    exact ⟨[], by rw [Nat.mod_eq_of_lt hn]; rfl, rfl⟩
  · exact ⟨_, rfl, rfl⟩

/-- The first digit is a zero for zero only. -/
theorem head?_toDigits {n : Nat} (h : 0 < n) : (Nat.toDigits 10 n).head? ≠ some '0' := by
  induction n using Nat.strongRecOn with
  | ind n ih =>
      obtain ⟨front, hn, hfront⟩ := exists_toDigits_eq_append n
      rw [hn]
      split at hfront
      · rename_i hlt
        rw [hfront, List.nil_append, List.head?_cons, Nat.mod_eq_of_lt hlt]
        exact fun he => Nat.ne_of_gt h (Nat.digitChar_eq_zero.mp (Option.some.inj he))
      · rename_i hge
        have hne : Nat.toDigits 10 (n / 10) ≠ [] := Nat.toDigits_ne_nil
        rw [hfront, List.head?_append, List.head?_eq_some_head hne, Option.some_or,
          ← List.head?_eq_some_head hne]
        exact ih (n / 10) (by omega) (by omega)

end Phrasebook.Text
