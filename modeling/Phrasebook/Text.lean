/-!
# Blank characters, trimming and splitting

Text is a `String` in the types of the library and a `List Char` where it is
taken apart, so that each scan is a recursion on its input.
-/

namespace Phrasebook.Text

/-- The characters with the Unicode property `White_Space`. -/
def isBlank (c : Char) : Bool :=
  let n := c.toNat
  (9 ≤ n && n ≤ 13) || n == 0x20 || n == 0x85 || n == 0xA0 || n == 0x1680 ||
    (0x2000 ≤ n && n ≤ 0x200A) || n == 0x2028 || n == 0x2029 || n == 0x202F ||
    n == 0x205F || n == 0x3000

/-- Drops blank characters at both ends. -/
def trimChars (cs : List Char) : List Char :=
  ((cs.dropWhile isBlank).reverse.dropWhile isBlank).reverse

/-- Drops blank characters at both ends. -/
def trim (s : String) : String :=
  String.ofList (trimChars s.toList)

/-- Holds of the empty text and of text that is blank throughout. -/
def isBlankText (s : String) : Bool :=
  s.toList.all isBlank

/-- Cuts at every character that satisfies `isBreak`: the first piece, and the
pieces after each break. -/
def split (isBreak : Char → Bool) : List Char → List Char × List (List Char)
  | [] => ([], [])
  | c :: cs =>
    let (piece, pieces) := split isBreak cs
    if isBreak c then ([], piece :: pieces) else (c :: piece, pieces)

/-- The pieces between breaks, at least one. -/
def pieces (isBreak : Char → Bool) (cs : List Char) : List (List Char) :=
  (split isBreak cs).1 :: (split isBreak cs).2

theorem split_of_none {isBreak : Char → Bool} {cs : List Char}
    (h : ∀ c ∈ cs, isBreak c = false) : split isBreak cs = (cs, []) := by
  induction cs with
  | nil => rfl
  | cons c cs ih =>
    have hc := h c (by simp)
    have hcs := ih fun d hd => h d (by simp [hd])
    simp [split, hc, hcs]

/-- A break between two texts separates their pieces. -/
theorem split_append_break {isBreak : Char → Bool} (a b : List Char) {c : Char}
    (hc : isBreak c = true) :
    split isBreak (a ++ c :: b) =
      ((split isBreak a).1, (split isBreak a).2 ++ pieces isBreak b) := by
  induction a with
  | nil => simp [split, pieces, hc]
  | cons d a ih =>
    by_cases hd : isBreak d = true <;> simp [split, ih, hd]

/-- A text without breaks is a piece of its own in front of a break, or at the end. -/
theorem split_append_of_none {isBreak : Char → Bool} {word rest : List Char}
    (hword : ∀ c ∈ word, isBreak c = false) (hrest : ∀ c ∈ rest.head?, isBreak c = true) :
    split isBreak (word ++ rest) = (word, (split isBreak rest).2) := by
  cases rest with
  | nil => rw [List.append_nil, split_of_none hword, split]
  | cons c rest =>
    have hc : isBreak c = true := hrest c rfl
    rw [split_append_break word rest hc, split_of_none hword]
    simp [split, pieces, hc]

/-- The characters of the pieces are those of the text, without the breaks. -/
theorem of_mem_pieces {isBreak : Char → Bool} {cs piece : List Char} {c : Char}
    (h : piece ∈ pieces isBreak cs) (hc : c ∈ piece) : c ∈ cs ∧ isBreak c = false := by
  induction cs generalizing piece with
  | nil =>
    obtain rfl : piece = [] := by simpa [pieces, split] using h
    cases hc
  | cons d cs ih =>
    have hrest {piece} (h : piece ∈ pieces isBreak cs) (hc : c ∈ piece) :
        c ∈ d :: cs ∧ isBreak c = false :=
      (ih h hc).imp_left (List.mem_cons_of_mem d)
    by_cases hd : isBreak d = true
    · simp only [pieces, split, hd, if_true, List.mem_cons] at h
      rcases h with rfl | h
      · cases hc
      · exact hrest (List.mem_cons.mpr h) hc
    · simp only [pieces, split, hd, Bool.false_eq_true, if_false, List.mem_cons] at h
      rcases h with rfl | h
      · rcases List.mem_cons.mp hc with rfl | hc
        · exact ⟨List.mem_cons_self, Bool.eq_false_iff.mpr hd⟩
        · exact hrest List.mem_cons_self hc
      · exact hrest (List.mem_cons_of_mem _ h) hc

theorem length_split_le (isBreak : Char → Bool) (cs : List Char) :
    (split isBreak cs).1.length ≤ cs.length := by
  induction cs with
  | nil => exact Nat.le_refl 0
  | cons c cs ih => by_cases hc : isBreak c = true <;> simp [split, hc, ih]

/-- A text has room for its first piece, a break and any other piece. -/
theorem length_of_mem_split {isBreak : Char → Bool} {cs piece : List Char}
    (h : piece ∈ (split isBreak cs).2) :
    (split isBreak cs).1.length + 1 + piece.length ≤ cs.length := by
  induction cs with
  | nil => cases h
  | cons c cs ih =>
    have hfirst := length_split_le isBreak cs
    by_cases hc : isBreak c = true
    · simp only [split, hc, if_true, List.mem_cons] at h
      simp only [split, hc, if_true, List.length_nil, List.length_cons]
      rcases h with rfl | h
      · omega
      · have hrest := ih h
        omega
    · simp only [split, hc, Bool.false_eq_true, if_false] at h
      have hrest := ih h
      simp only [split, hc, Bool.false_eq_true, if_false, List.length_cons]
      omega

theorem trimChars_sublist (cs : List Char) : (trimChars cs).Sublist cs := by
  have hend := (List.dropWhile_sublist isBlank (l := (cs.dropWhile isBlank).reverse)).reverse
  rw [List.reverse_reverse] at hend
  exact hend.trans (List.dropWhile_sublist isBlank)

theorem mem_of_mem_trimChars {cs : List Char} {c : Char} (h : c ∈ trimChars cs) : c ∈ cs :=
  (trimChars_sublist cs).mem h

theorem trimChars_of_none {cs : List Char} (h : ∀ c ∈ cs, isBlank c = false) :
    trimChars cs = cs := by
  have hdrop : ∀ l : List Char, (∀ c ∈ l, isBlank c = false) → l.dropWhile isBlank = l := by
    intro l hl
    cases l with
    | nil => rfl
    | cons c l => rw [List.dropWhile_cons_of_neg (by simp [hl c (by simp)])]
  rw [trimChars, hdrop cs h, hdrop cs.reverse (by simpa using h), List.reverse_reverse]

/-- A map that keeps the breaks acts on each piece. -/
theorem split_map {isBreak : Char → Bool} {f : Char → Char}
    (hf : ∀ c, isBreak (f c) = isBreak c) (cs : List Char) :
    split isBreak (cs.map f) =
      ((split isBreak cs).1.map f, (split isBreak cs).2.map (List.map f)) := by
  induction cs with
  | nil => rfl
  | cons c cs ih => by_cases hc : isBreak c = true <;> simp [split, ih, hf, hc]

/-- It does not matter which break separates two pieces. -/
theorem split_map_breaks {isBreak : Char → Bool} {f : Char → Char}
    (hf : ∀ c, isBreak (f c) = isBreak c) (hother : ∀ c, isBreak c = false → f c = c)
    (cs : List Char) : split isBreak (cs.map f) = split isBreak cs := by
  induction cs with
  | nil => rfl
  | cons c cs ih =>
    by_cases hc : isBreak c = true
    · simp [split, ih, hf, hc]
    · simp [split, ih, hc, hother c (by simpa using hc)]

theorem trimChars_map {f : Char → Char} (hf : ∀ c, isBlank (f c) = isBlank c) (cs : List Char) :
    trimChars (cs.map f) = (trimChars cs).map f := by
  have hcomp : isBlank ∘ f = isBlank := funext hf
  simp only [trimChars, List.dropWhile_map, ← List.map_reverse, hcomp]

theorem dropWhile_eq_self_iff {p : Char → Bool} {cs : List Char} :
    cs.dropWhile p = cs ↔ ∀ c ∈ cs.head?, p c = false := by
  cases cs with
  | nil => simp
  | cons c cs =>
    by_cases hc : p c = true
    · rw [List.dropWhile_cons_of_pos hc]
      refine iff_of_false (fun h => ?_) (by simp [hc])
      have hlength := (List.dropWhile_sublist p (l := cs)).length_le
      rw [h, List.length_cons] at hlength
      omega
    · rw [List.dropWhile_cons_of_neg hc]
      simp [hc]

/-- Trimming leaves a text as it is if its ends are not blank. -/
theorem trimChars_eq_self_iff {cs : List Char} :
    trimChars cs = cs ↔
      (∀ c ∈ cs.head?, isBlank c = false) ∧ ∀ c ∈ cs.getLast?, isBlank c = false := by
  rw [← List.head?_reverse, ← dropWhile_eq_self_iff, ← dropWhile_eq_self_iff]
  constructor
  · intro h
    have hfront := List.dropWhile_sublist isBlank (l := cs)
    have hback := List.dropWhile_sublist isBlank (l := (cs.dropWhile isBlank).reverse)
    have hlength := congrArg List.length h
    rw [trimChars, List.length_reverse] at hlength
    have hle := hback.length_le
    rw [List.length_reverse] at hle
    have hstart : cs.dropWhile isBlank = cs := hfront.eq_of_length_le (by omega)
    rw [trimChars, hstart, List.reverse_eq_iff] at h
    exact ⟨hstart, h⟩
  · rintro ⟨hstart, hend⟩
    rw [trimChars, hstart, hend, List.reverse_reverse]

/-- A text whose ends are not blank can be extended inside by what is not blank. -/
theorem trimChars_insert {a b inserted : List Char} (h : trimChars (a ++ b) = a ++ b)
    (hinserted : ∀ c ∈ inserted, isBlank c = false) :
    trimChars (a ++ inserted ++ b) = a ++ inserted ++ b := by
  rw [trimChars_eq_self_iff] at h ⊢
  simp only [List.head?_append, List.getLast?_append, Option.mem_def, Option.or_eq_some_iff] at h ⊢
  refine ⟨fun c hc => ?_, fun c hc => ?_⟩
  · rcases hc with (hc | ⟨ha, hc⟩) | ⟨ha, hc⟩
    · exact h.1 c (.inl hc)
    · exact hinserted c (List.mem_of_mem_head? hc)
    · exact h.1 c (.inr ⟨(Option.or_eq_none_iff.mp ha).1, hc⟩)
  · rcases hc with hc | ⟨hb, hc | ⟨hi, hc⟩⟩
    · exact h.2 c (.inl hc)
    · exact hinserted c (List.mem_of_mem_getLast? hc)
    · exact h.2 c (.inr ⟨hb, hc⟩)

/-- Blanks around a text are trimmed with those of the text. -/
theorem trimChars_blanks {front back : List Char} (hfront : ∀ c ∈ front, isBlank c = true)
    (hback : ∀ c ∈ back, isBlank c = true) (cs : List Char) :
    trimChars (front ++ cs ++ back) = trimChars cs := by
  have hreverse : ∀ c ∈ back.reverse, isBlank c = true := by simpa using hback
  rw [trimChars, List.append_assoc, List.dropWhile_append_of_pos hfront, List.dropWhile_append]
  split
  · rename_i hempty
    rw [List.isEmpty_iff] at hempty
    have hnone : (back ++ []).dropWhile isBlank = [] := List.dropWhile_append_of_pos hback
    rw [List.append_nil] at hnone
    rw [hnone, trimChars, hempty]
  · rw [List.reverse_append, List.dropWhile_append_of_pos hreverse, trimChars]

/-- What stands before a character that is not blank is trimmed at its start only. -/
theorem exists_trimChars_append_cons {a : List Char} {c : Char}
    (ha : ∀ d ∈ a.head?, isBlank d = false) (hc : isBlank c = false) (b : List Char) :
    ∃ b', trimChars (a ++ c :: b) = a ++ c :: b' := by
  have hstart : (a ++ c :: b).dropWhile isBlank = a ++ c :: b := by
    rw [dropWhile_eq_self_iff, List.head?_append]
    intro d hd
    rcases Option.or_eq_some_iff.mp hd with hd | ⟨-, hd⟩
    · exact ha d hd
    · cases hd
      exact hc
  refine ⟨(b.reverse.dropWhile isBlank).reverse, ?_⟩
  rw [trimChars, hstart, List.reverse_append, List.reverse_cons, List.append_assoc,
    List.dropWhile_append]
  split
  · rename_i hempty
    rw [List.isEmpty_iff] at hempty
    simp [hempty, hc]
  · simp

@[simp]
theorem toList_toLower (s : String) : s.toLower.toList = s.toList.map Char.toLower :=
  String.toList_map

@[simp]
theorem toList_toUpper (s : String) : s.toUpper.toList = s.toList.map Char.toUpper :=
  String.toList_map

/-- A character that is no letter comes from nothing but itself when cases change. -/
theorem eq_of_toLower_eq {c d : Char} (hd : d.isAlpha = false) (h : c.toLower = d) : c = d := by
  unfold Char.toLower at h
  split at h
  · rename_i hc
    subst h
    simp only [ge_iff_le, UInt32.le_iff_toNat_le] at hc
    unfold Char.isAlpha Char.isLower at hd
    simp [UInt32.le_iff_toNat_le, UInt32.toNat_add] at hd hc
    omega
  · exact h

theorem eq_of_toUpper_eq {c d : Char} (hd : d.isAlpha = false) (h : c.toUpper = d) : c = d := by
  unfold Char.toUpper at h
  split at h
  · rename_i hc
    subst h
    simp only [UInt32.le_iff_toNat_le] at hc
    unfold Char.isAlpha Char.isUpper at hd
    simp [UInt32.le_iff_toNat_le, UInt32.toNat_add] at hd hc
    omega
  · exact h

end Phrasebook.Text
