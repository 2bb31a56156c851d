import Phrasebook.Json.Quoted
import Phrasebook.Text.Case
import Mathlib.Tactic.SplitIfs
/-!
# The forms of a quoted text

Between quotes a character stands for itself, or is written by an escape: some characters
by a letter, and every character by the numbers of its UTF-16 units. Reading accepts just
these forms, and writing uses some of them.
-/

namespace Phrasebook.Json.Quoted

/-- The letters of the short escapes, each with its character. -/
def shortEscapes : List (Char × Char) :=
  [('"', '"'), ('\\', '\\'), ('/', '/'), ('b', '\x08'), ('f', '\x0c'), ('n', '\n'), ('r', '\r'),
    ('t', '\t')]

/-- Four hexadecimal digits of either case, and the number that they write. -/
inductive FourDigits : List Char → Nat → Prop
  | digits {a b c d : Char} {w x y z : Nat} (ha : hexValue? a = some w) (hb : hexValue? b = some x)
      (hc : hexValue? c = some y) (hd : hexValue? d = some z) :
    FourDigits [a, b, c, d] (((w * 16 + x) * 16 + y) * 16 + z)

/-- The forms of a character between quotes. -/
inductive Form : Char → List Char → Prop
  | plain {c : Char} (hquote : c ≠ '"') (hslash : c ≠ '\\') (hcontrol : 0x20 ≤ c.toNat) :
    Form c [c]
  | short {c letter : Char} (h : (letter, c) ∈ shortEscapes) : Form c ['\\', letter]
  /-- The number of a character of the basic plane. -/
  | unit {c : Char} {digits : List Char} (h : FourDigits digits c.toNat) :
    Form c ('\\' :: 'u' :: digits)
  /-- The surrogates of a character beyond the basic plane. -/
  | pair {c : Char} {first second : List Char} {high low : Nat} (hfirst : FourDigits first high)
      (hsecond : FourDigits second low) (hhigh : isHighSurrogate high = true)
      (hlow : isLowSurrogate low = true)
      (hc : c.toNat = 0x10000 + (high - 0xD800) * 0x400 + (low - 0xDC00)) :
    Form c ('\\' :: 'u' :: first ++ '\\' :: 'u' :: second)

example : Form '😀' "\\ud83d\\uDE00".toList :=
  .pair (.digits rfl rfl rfl rfl) (.digits rfl rfl rfl rfl) rfl rfl (by decide)

/-- The forms of a text between quotes. -/
inductive Forms : List Char → List Char → Prop
  | nil : Forms [] []
  | cons {c : Char} {cs form forms : List Char} (hc : Form c form) (hcs : Forms cs forms) :
    Forms (c :: cs) (form ++ forms)

/-! ### Digits -/

theorem lt_of_hexValue? {c : Char} {n : Nat} (h : hexValue? c = some n) : n < 16 := by
  unfold hexValue? at h
  split at h
  · rename_i hc
    rw [Text.isDigit_iff] at hc
    obtain rfl := Option.some.inj h
    have h0 : '0'.toNat = 48 := rfl
    omega
  · split at h
    · rename_i hc
      obtain rfl := Option.some.inj h
      have hlast : c.toNat ≤ 102 := UInt32.le_iff_toNat_le.mp hc.2
      have ha : 'a'.toNat = 97 := rfl
      omega
    · split at h
      · rename_i hc
        obtain rfl := Option.some.inj h
        have hlast : c.toNat ≤ 70 := UInt32.le_iff_toNat_le.mp hc.2
        have hA : 'A'.toNat = 65 := rfl
        omega
      · cases h

theorem FourDigits.length_eq {digits : List Char} {n : Nat} (h : FourDigits digits n) :
    digits.length = 4 := by
  cases h
  rfl

theorem FourDigits.lt {digits : List Char} {n : Nat} (h : FourDigits digits n) : n < 0x10000 := by
  cases h with
  | digits ha hb hc hd =>
      have hw := lt_of_hexValue? ha
      have hx := lt_of_hexValue? hb
      have hy := lt_of_hexValue? hc
      have hz := lt_of_hexValue? hd
      omega

/-- Four digits are read as their number, and nothing else is. -/
theorem hexFour_eq_ok_iff {cs : List Char} {n : Nat} :
    hexFour cs = .ok n ↔ ∃ digits rest, cs = digits ++ rest ∧ FourDigits digits n := by
  constructor
  · intro h
    unfold hexFour at h
    dsimp only at h
    split at h
    · rename_i a b c d rest
      split at h
      · rename_i w x y z ha hb hc hd
        obtain rfl := Except.ok.inj h
        exact ⟨[a, b, c, d], rest, rfl, .digits ha hb hc hd⟩
      · cases h
    · cases h
  · rintro ⟨_, rest, rfl, ⟨ha, hb, hc, hd⟩⟩
    simp only [hexFour, List.cons_append, ha, hb, hc, hd]

/-! ### Escapes -/

theorem toNat_ofNat {n : Nat} (h : n.isValidChar) : (Char.ofNat n).toNat = n := by
  rw [Char.ofNat, dif_pos h]
  rfl

/-- The number of a character is no surrogate. -/
theorem surrogate_toNat (c : Char) :
    isLowSurrogate c.toNat = false ∧ isHighSurrogate c.toNat = false := by
  have hvalid : c.toNat < 0xD800 ∨ (0xDFFF < c.toNat ∧ c.toNat < 0x110000) := c.valid
  simp only [isLowSurrogate, isHighSurrogate, Bool.and_eq_false_iff, decide_eq_false_iff_not]
  omega

theorem lowHalf_eq_ok_iff {high : Nat} {cs : List Char} {c : Char} :
    lowHalf high cs = .ok c ↔ ∃ second low rest, cs = '\\' :: 'u' :: second ++ rest ∧
      FourDigits second low ∧ isLowSurrogate low = true ∧
      c = Char.ofNat (0x10000 + (high - 0xD800) * 0x400 + (low - 0xDC00)) := by
  constructor
  · intro h
    unfold lowHalf at h
    split at h
    · cases h
    · cases h
    · rename_i cs
      obtain ⟨low, hread, h⟩ := bind_eq_ok_iff.mp h
      obtain ⟨second, rest, hcs, hsecond⟩ := hexFour_eq_ok_iff.mp hread
      split at h
      · rename_i hlow
        obtain rfl := Except.ok.inj h
        refine ⟨second, low, rest, ?_, hsecond, hlow, rfl⟩
        rw [hcs]
        rfl
      · cases h
    · cases h
  · rintro ⟨second, low, rest, rfl, hsecond, hlow, hc⟩
    have hread := hexFour_eq_ok_iff.mpr ⟨second, rest, rfl, hsecond⟩
    rw [hc]
    simp only [List.cons_append, lowHalf, hread, bind, Except.bind, hlow, if_true]
    rfl

theorem unescape_short {letter c : Char} (h : (letter, c) ∈ shortEscapes) (rest : List Char) :
    unescape (letter :: rest) = .ok (c, 1) := by
  simp only [shortEscapes, List.mem_cons, Prod.mk.injEq, List.not_mem_nil, or_false] at h
  rcases h with ⟨rfl, rfl⟩ | ⟨rfl, rfl⟩ | ⟨rfl, rfl⟩ | ⟨rfl, rfl⟩ | ⟨rfl, rfl⟩ | ⟨rfl, rfl⟩ |
    ⟨rfl, rfl⟩ | ⟨rfl, rfl⟩ <;> rfl

theorem unescape_form {c : Char} {form : List Char} (h : Form c ('\\' :: form))
    (rest : List Char) : unescape (form ++ rest) = .ok (c, form.length) := by
  generalize hwritten : '\\' :: form = written at h
  cases h with
  | plain hquote hslash hcontrol =>
      rw [List.cons.injEq] at hwritten
      exact absurd hwritten.1.symm hslash
  | short hletter =>
      rw [List.cons.injEq] at hwritten
      rw [hwritten.2]
      exact unescape_short hletter rest
  | @unit digits hdigits =>
      rw [List.cons.injEq] at hwritten
      have hread := hexFour_eq_ok_iff.mpr ⟨digits, rest, rfl, hdigits⟩
      obtain ⟨hlow, hhigh⟩ := surrogate_toNat c
      rw [hwritten.2, List.cons_append, unescape, hread, List.length_cons, hdigits.length_eq]
      simp only [bind, Except.bind, hlow, hhigh, Char.ofNat_toNat]
      rfl
  | @pair first second high low hfirst hsecond hhigh hlow hc =>
      rw [List.cons_append, List.cons.injEq] at hwritten
      have hchar : c = Char.ofNat (0x10000 + (high - 0xD800) * 0x400 + (low - 0xDC00)) := by
        rw [← hc, Char.ofNat_toNat]
      have hread : hexFour ((first ++ '\\' :: 'u' :: second) ++ rest) = .ok high :=
        hexFour_eq_ok_iff.mpr ⟨first, _, List.append_assoc _ _ _, hfirst⟩
      have hhalf := lowHalf_eq_ok_iff.mpr ⟨second, low, rest, rfl, hsecond, hlow, hchar⟩
      have hnotLow : isLowSurrogate high = false := by
        simp only [isHighSurrogate, Bool.and_eq_true, decide_eq_true_eq] at hhigh
        simp only [isLowSurrogate, Bool.and_eq_false_iff, decide_eq_false_iff_not]
        omega
      have hdrop : ((first ++ '\\' :: 'u' :: second) ++ rest).drop 4 =
          '\\' :: 'u' :: second ++ rest := by
        rw [List.append_assoc, ← hfirst.length_eq, List.drop_left]
      rw [hwritten.2, List.cons_append, List.cons_append, unescape, hread]
      simp only [bind, Except.bind, hnotLow, hhigh, hdrop, hhalf, if_true, List.length_cons,
        List.length_append, hfirst.length_eq, hsecond.length_eq]
      rfl

theorem toNat_pair {high low : Nat} (hhigh : isHighSurrogate high = true)
    (hlow : isLowSurrogate low = true) :
    (Char.ofNat (0x10000 + (high - 0xD800) * 0x400 + (low - 0xDC00))).toNat =
      0x10000 + (high - 0xD800) * 0x400 + (low - 0xDC00) := by
  simp only [isHighSurrogate, isLowSurrogate, Bool.and_eq_true, decide_eq_true_eq] at hhigh hlow
  apply toNat_ofNat
  right
  omega

theorem toNat_unit {unit : Nat} (h : unit < 0x10000) (hlow : ¬ isLowSurrogate unit = true)
    (hhigh : ¬ isHighSurrogate unit = true) : (Char.ofNat unit).toNat = unit := by
  simp only [isHighSurrogate, isLowSurrogate, Bool.and_eq_true, decide_eq_true_eq] at hhigh hlow
  apply toNat_ofNat
  rw [Nat.isValidChar]
  omega

/-- A text that begins with the rest of a form behind its backslash. -/
def BeginsForm (cs : List Char) (c : Char) (n : Nat) : Prop :=
  ∃ form rest, cs = form ++ rest ∧ form.length = n ∧ Form c ('\\' :: form)

theorem beginsForm_short {letter c d : Char} {rest : List Char} {n : Nat}
    (hletter : (letter, d) ∈ shortEscapes) (h : Except.ok (d, 1) = (.ok (c, n) : Except Fault _)) :
    BeginsForm (letter :: rest) c n := by
  rw [Except.ok.injEq, Prod.mk.injEq] at h
  obtain ⟨rfl, rfl⟩ := h
  exact ⟨[letter], rest, rfl, rfl, .short hletter⟩

theorem beginsForm_unit {first rest : List Char} {unit : Nat} (hfirst : FourDigits first unit)
    (hlow : ¬ isLowSurrogate unit = true) (hhigh : ¬ isHighSurrogate unit = true) :
    BeginsForm ('u' :: (first ++ rest)) (Char.ofNat unit) 5 := by
  refine ⟨'u' :: first, rest, rfl, ?_, ?_⟩
  · rw [List.length_cons, hfirst.length_eq]
  · apply Form.unit
    rw [toNat_unit hfirst.lt hlow hhigh]
    exact hfirst

theorem beginsForm_pair {first rest : List Char} {high : Nat} {c : Char}
    (hfirst : FourDigits first high) (hhigh : isHighSurrogate high = true)
    (h : lowHalf high rest = .ok c) : BeginsForm ('u' :: (first ++ rest)) c 11 := by
  obtain ⟨second, low, rest, rfl, hsecond, hlow, hc⟩ := lowHalf_eq_ok_iff.mp h
  refine ⟨'u' :: first ++ '\\' :: 'u' :: second, rest, ?_, ?_, ?_⟩
  · simp only [List.cons_append, List.append_assoc]
  · simp only [List.length_append, List.length_cons, hfirst.length_eq, hsecond.length_eq]
  · apply Form.pair hfirst hsecond hhigh hlow
    rw [hc]
    exact toNat_pair hhigh hlow

/-- What is read behind a backslash is the rest of a form. -/
theorem beginsForm_of_unescape {cs : List Char} {c : Char} {n : Nat}
    (h : unescape cs = .ok (c, n)) : BeginsForm cs c n := by
  unfold unescape at h
  split at h
  · cases h
  · rename_i cs
    obtain ⟨unit, hread, h⟩ := bind_eq_ok_iff.mp h
    obtain ⟨first, rest, rfl, hfirst⟩ := hexFour_eq_ok_iff.mp hread
    split at h
    · cases h
    · split at h
      · rename_i hlow hhigh
        rw [← hfirst.length_eq, List.drop_left] at h
        obtain ⟨c, hhalf, h⟩ := bind_eq_ok_iff.mp h
        cases h
        exact beginsForm_pair hfirst hhigh hhalf
      · rename_i hlow hhigh
        cases h
        exact beginsForm_unit hfirst hlow hhigh
  · exact beginsForm_short (by decide) h
  · exact beginsForm_short (by decide) h
  · exact beginsForm_short (by decide) h
  · exact beginsForm_short (by decide) h
  · exact beginsForm_short (by decide) h
  · exact beginsForm_short (by decide) h
  · exact beginsForm_short (by decide) h
  · exact beginsForm_short (by decide) h
  · cases h

/-! ### Texts -/

theorem read_escaped {c : Char} {cs form rest tail : List Char} (hc : Form c ('\\' :: form))
    (hrest : read rest = .ok (cs, tail)) :
    read ('\\' :: form ++ rest) = .ok (c :: cs, tail) := by
  rw [List.cons_append, read, if_neg (by decide), if_pos rfl, unescape_form hc]
  simp only [List.drop_left, hrest]
  rfl

theorem read_form {c : Char} {cs form rest tail : List Char} (hc : Form c form)
    (hrest : read rest = .ok (cs, tail)) : read (form ++ rest) = .ok (c :: cs, tail) := by
  cases hc with
  | plain hquote hslash hcontrol =>
      rw [List.cons_append, List.nil_append, read, if_neg hquote, if_neg hslash,
        if_neg (Nat.not_lt.mpr hcontrol), hrest]
      rfl
  | short h => exact read_escaped (.short h) hrest
  | unit h => exact read_escaped (.unit h) hrest
  | pair hfirst hsecond hhigh hlow h =>
      exact read_escaped (.pair hfirst hsecond hhigh hlow h) hrest

/-- Every form of a text is read as that text, up to the closing quote. -/
theorem read_forms {cs text : List Char} (h : Forms cs text) (rest : List Char) :
    read (text ++ '"' :: rest) = .ok (cs, rest) := by
  induction h with
  | nil =>
      rw [List.nil_append, read]
      rfl
  | cons hc hcs ih =>
      rw [List.append_assoc]
      exact read_form hc ih

/-- What is read up to a closing quote is a form of the text. -/
theorem forms_of_read {cs text rest : List Char} (h : read cs = .ok (text, rest)) :
    ∃ forms, cs = forms ++ '"' :: rest ∧ Forms text forms := by
  fun_induction read cs generalizing text with
  | case1 => cases h
  | case2 cs =>
      rw [Except.ok.injEq, Prod.mk.injEq] at h
      obtain ⟨rfl, rfl⟩ := h
      exact ⟨[], rfl, .nil⟩
  | case3 => cases h
  | case4 cs c n hu hquote ih =>
      obtain ⟨⟨text, tail⟩, hp, he⟩ := exists_of_map_eq_ok h
      rw [Prod.mk.injEq] at he
      obtain ⟨rfl, rfl⟩ := he
      obtain ⟨form, behind, rfl, rfl, hc⟩ := beginsForm_of_unescape hu
      obtain ⟨forms, hforms⟩ := ih hp
      rw [List.drop_left] at hforms
      refine ⟨'\\' :: form ++ forms, ?_, .cons hc hforms.2⟩
      rw [hforms.1, List.cons_append, List.cons_append, List.append_assoc]
  | case5 => cases h
  | case6 c cs hquote hslash hcontrol ih =>
      obtain ⟨⟨text, tail⟩, hp, he⟩ := exists_of_map_eq_ok h
      rw [Prod.mk.injEq] at he
      obtain ⟨rfl, rfl⟩ := he
      obtain ⟨forms, rfl, hforms⟩ := ih hp
      exact ⟨[c] ++ forms, rfl, .cons (.plain hquote hslash (Nat.le_of_not_lt hcontrol)) hforms⟩

/-! ### Writing -/

theorem hexValue?_hexDigit {n : Nat} (h : n < 16) : hexValue? (hexDigit n) = some n := by
  have hall : ∀ k : Fin 16, hexValue? (hexDigit k) = some k.val := by decide
  exact hall ⟨n, h⟩

theorem fourDigits_control {n : Nat} (h : n < 0x20) :
    FourDigits ['0', '0', hexDigit (n / 16), hexDigit (n % 16)] n := by
  have hzero : hexValue? '0' = some 0 := rfl
  have hsplit : ((0 * 16 + 0) * 16 + n / 16) * 16 + n % 16 = n := by omega
  have hdigits := FourDigits.digits hzero hzero (hexValue?_hexDigit (by omega : n / 16 < 16))
    (hexValue?_hexDigit (by omega : n % 16 < 16))
  rwa [hsplit] at hdigits

theorem form_escapeChar (c : Char) : Form c (escapeChar c) := by
  unfold escapeChar
  split_ifs with hquote hslash hback hfeed hline hreturn htab hcontrol
  · subst hquote
    exact .short (by decide)
  · subst hslash
    exact .short (by decide)
  · subst hback
    exact .short (by decide)
  · subst hfeed
    exact .short (by decide)
  · subst hline
    exact .short (by decide)
  · subst hreturn
    exact .short (by decide)
  · subst htab
    exact .short (by decide)
  · exact .unit (fourDigits_control hcontrol)
  · exact .plain hquote hslash (Nat.le_of_not_lt hcontrol)

/-- Writing uses forms of the text. -/
theorem forms_escape (cs : List Char) : Forms cs (escape cs) := by
  induction cs with
  | nil => exact .nil
  | cons c cs ih => exact .cons (form_escapeChar c) ih

end Phrasebook.Json.Quoted
