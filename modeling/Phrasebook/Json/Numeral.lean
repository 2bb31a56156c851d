import Phrasebook.Json.Value
/-!
# JSON numerals

A numeral is read as text first, then valued. Of the digits of a real numeral
those count that fit into 64 bits; further digits before the point only move
it, further digits behind it are dropped.
-/

namespace Phrasebook.Json

/-- The written form of a number. -/
structure Numeral where
  /-- Whether a minus sign precedes. -/
  negative : Bool
  /-- The digits before the point: `0`, or digits that start with another. -/
  whole : List Char
  /-- The digits behind the point; empty without one. -/
  fraction : List Char
  /-- Whether the exponent is negative, and its digits. -/
  exponent : Option (Bool × List Char)
deriving Repr

namespace Numeral

/-- The value of a decimal digit. -/
def digit (c : Char) : Nat := c.toNat - '0'.toNat

/-- The number that decimal digits write. -/
def natOf (digits : List Char) : Nat := digits.foldl (fun n c => 10 * n + digit c) 0

/-- Appends digits while the number fits into 64 bits; the rest is left. -/
def absorb (n : Nat) : List Char → Nat × List Char
  | [] => (n, [])
  | c :: cs => if 10 * n + digit c < UInt64.size then absorb (10 * n + digit c) cs else (n, c :: cs)

/-- A real numeral as a whole number times a power of ten. -/
def scaled (x : Numeral) : Nat × Int :=
  let (n, dropped) := absorb 0 x.whole
  let (n, unread) := absorb n x.fraction
  let shift : Int := match x.exponent with
    | none => 0
    | some (false, digits) => natOf digits
    | some (true, digits) => -(natOf digits : Int)
  (n, dropped.length - ((x.fraction.length : Int) - unread.length) + shift)

/-- The value of a numeral, or nothing when it exceeds the largest double. -/
def number? (x : Numeral) : Option Number :=
  let real : Option Number := do
    let (n, scale) := x.scaled
    let value ← Binary64.ofDecimal? n scale
    return .real { value with negative := x.negative }
  if x.fraction.isEmpty && x.exponent.isNone then
    let n := natOf x.whole
    if !x.negative && n < UInt64.size then some (.whole n)
    else if x.negative && 0 < n && n ≤ Nat.pow 2 63 then some (.whole (-n))
    else real
  else real

/-- Reads at least one digit. -/
def readDigits (cs : List Char) : Except Fault (List Char × List Char) :=
  match cs with
  | [] => .error .truncated
  | c :: _ =>
    if c.isDigit then .ok (cs.takeWhile Char.isDigit, cs.dropWhile Char.isDigit)
    else .error .malformed

/-- Reads the digits before the point; a leading zero stands alone. -/
def readWhole (cs : List Char) : Except Fault (List Char × List Char) :=
  match cs with
  | '0' :: rest =>
    match rest with
    | c :: _ => if c.isDigit then .error .malformed else .ok (['0'], rest)
    | [] => .ok (['0'], [])
  | _ => readDigits cs

/-- Reads the digits behind a point, if there is one. -/
def readFraction (cs : List Char) : Except Fault (List Char × List Char) :=
  match cs with
  | '.' :: rest => readDigits rest
  | _ => .ok ([], cs)

/-- Reads an exponent, if there is one. -/
def readExponent (cs : List Char) : Except Fault (Option (Bool × List Char) × List Char) :=
  let afterMark (rest : List Char) : Except Fault (Option (Bool × List Char) × List Char) :=
    match rest with
    | '+' :: rest => (readDigits rest).map fun (ds, r) => (some (false, ds), r)
    | '-' :: rest => (readDigits rest).map fun (ds, r) => (some (true, ds), r)
    | _ => (readDigits rest).map fun (ds, r) => (some (false, ds), r)
  match cs with
  | 'e' :: rest => afterMark rest
  | 'E' :: rest => afterMark rest
  | _ => .ok (none, cs)

/-- Reads a numeral and returns what follows it. -/
def read (cs : List Char) : Except Fault (Numeral × List Char) := do
  let (negative, cs) := match cs with
    | '-' :: rest => (true, rest)
    | _ => (false, cs)
  let (whole, cs) ← readWhole cs
  let (fraction, cs) ← readFraction cs
  let (exponent, cs) ← readExponent cs
  return (⟨negative, whole, fraction, exponent⟩, cs)

theorem length_of_readDigits {cs ds rest : List Char} (h : readDigits cs = .ok (ds, rest)) :
    rest.length < cs.length := by
  cases cs with
  | nil => simp [readDigits] at h
  | cons c cs =>
    by_cases hc : c.isDigit = true
    · simp only [readDigits, hc, if_true, Except.ok.injEq, Prod.mk.injEq] at h
      rw [← h.2, List.dropWhile_cons_of_pos hc]
      exact Nat.lt_succ_of_le (List.dropWhile_sublist _).length_le
    · simp [readDigits, hc] at h

theorem length_of_readWhole {cs ds rest : List Char} (h : readWhole cs = .ok (ds, rest)) :
    rest.length < cs.length := by
  unfold readWhole at h
  split at h
  · split at h
    · split at h
      · simp at h
      · simp only [Except.ok.injEq, Prod.mk.injEq] at h; simp [← h.2]
    · simp only [Except.ok.injEq, Prod.mk.injEq] at h; simp [← h.2]
  · exact length_of_readDigits h

theorem length_of_readFraction {cs ds rest : List Char} (h : readFraction cs = .ok (ds, rest)) :
    rest.length ≤ cs.length := by
  unfold readFraction at h
  split at h
  · exact Nat.le_of_lt (Nat.lt_succ_of_lt (length_of_readDigits h))
  · simp only [Except.ok.injEq, Prod.mk.injEq] at h; simp [← h.2]

theorem length_of_readExponent {cs rest : List Char} {e : Option (Bool × List Char)}
    (h : readExponent cs = .ok (e, rest)) : rest.length ≤ cs.length := by
  have signed : ∀ {b : Bool} {cs : List Char},
      (readDigits cs).map (fun (ds, r) => (some (b, ds), r)) = .ok (e, rest) →
        rest.length < cs.length := by
    intro b cs h
    obtain ⟨p, hp, he⟩ := exists_of_map_eq_ok h
    simp only [Prod.mk.injEq] at he
    exact he.2 ▸ length_of_readDigits hp
  unfold readExponent at h
  simp only at h
  split at h
  · split at h
    · have := signed h; simp only [List.length_cons]; omega
    · have := signed h; simp only [List.length_cons]; omega
    · have := signed h; simp only [List.length_cons]; omega
  · split at h
    · have := signed h; simp only [List.length_cons]; omega
    · have := signed h; simp only [List.length_cons]; omega
    · have := signed h; simp only [List.length_cons]; omega
  · simp only [Except.ok.injEq, Prod.mk.injEq] at h; simp [← h.2]

/-- A numeral is never empty. -/
theorem length_of_read {cs rest : List Char} {x : Numeral} (h : read cs = .ok (x, rest)) :
    rest.length < cs.length := by
  have core : ∀ {negative : Bool} {cs : List Char},
      (do
        let (whole, cs) ← readWhole cs
        let (fraction, cs) ← readFraction cs
        let (exponent, cs) ← readExponent cs
        return (Numeral.mk negative whole fraction exponent, cs) :
          Except Fault (Numeral × List Char)) = .ok (x, rest) → rest.length < cs.length := by
    intro negative cs h
    obtain ⟨⟨whole, r₁⟩, hw, h⟩ := bind_eq_ok_iff.mp h
    obtain ⟨⟨fraction, r₂⟩, hf, h⟩ := bind_eq_ok_iff.mp h
    obtain ⟨⟨e, r₃⟩, he, h⟩ := bind_eq_ok_iff.mp h
    have h₁ := length_of_readWhole hw
    have h₂ := length_of_readFraction hf
    have h₃ := length_of_readExponent he
    simp only [pure, Except.pure, Except.ok.injEq, Prod.mk.injEq] at h
    rw [← h.2]
    omega
  unfold read at h
  split at h
  rename_i negative cs' hcs
  have hlt := core h
  split at hcs
  · simp only [Prod.mk.injEq] at hcs; simp only [List.length_cons]; rw [hcs.2]; omega
  · simp only [Prod.mk.injEq] at hcs; rw [hcs.2]; exact hlt

end Numeral

end Phrasebook.Json
