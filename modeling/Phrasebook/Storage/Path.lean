import Phrasebook.Text
/-!
# Paths

A path is kept as it was written, because answers show it. Its steps are the pieces
that name something, so empty and `.` pieces do not count. Its components are where it
starts, at the top or at a `.` in front, and then its steps: one path lies below another
when it goes on from the components of the other.
-/

namespace Phrasebook

/-- A path as written, with `/` between its pieces. -/
structure Path where
  /-- The text of the path. -/
  text : String
deriving DecidableEq, Repr, Inhabited

namespace Path

/-- Whether a character separates pieces. -/
def isSlash (c : Char) : Bool := c == '/'

/-- Whether a path starts at the top. -/
def isAbsolute (p : Path) : Bool := p.text.toList.head? == some '/'

/-- Appends `name`, with one slash between the two. An absolute `name` replaces
the path. -/
def join (p : Path) (name : String) : Path :=
  if name.toList.head? == some '/' then ⟨name⟩
  else if p.text.isEmpty || p.text.toList.getLast? == some '/' then ⟨p.text ++ name⟩
  else ⟨p.text ++ "/" ++ name⟩

/-- The pieces that name something: all but empty ones and `.`. -/
def steps (p : Path) : List String :=
  ((Text.pieces isSlash p.text.toList).map String.ofList).filter fun s => s ≠ "" && s ≠ "."

/-- Whether the first piece is `.`, which is the only place where such a piece counts
when paths are compared. -/
def startsHere (p : Path) : Bool := (Text.split isSlash p.text.toList).1 == ['.']

/-- Where a path starts, if it says so: at the top, or at a `.` in front. -/
def leading (p : Path) : List String :=
  if p.isAbsolute then ["/"] else if p.startsHere then ["."] else []

/-- The components by which paths are compared. -/
def components (p : Path) : List String := p.leading ++ p.steps

/-- Whether a component takes a step, and does not say where a path starts. -/
def isStep (component : String) : Bool := component ≠ "/" && component ≠ "."

/-- Whether a component is a name: it takes a step, and not one that leads up. -/
def isNormal (component : String) : Bool := isStep component && component ≠ ".."

/-- What follows the components of `base`, if the path lies below it or at it. -/
def below? (base p : Path) : Option (List String) :=
  if base.components <+: p.components then some (p.components.drop base.components.length)
  else none

/-- Splits a file name at its last dot, unless that dot comes first: the stem
and the extension. -/
def splitName (name : String) : String × Option String :=
  let cs := name.toList.reverse
  let extension := cs.takeWhile (· ≠ '.')
  match cs.drop extension.length with
  | _ :: stem =>
    if stem.isEmpty || name = ".." then (name, none)
    else (String.ofList stem.reverse, some (String.ofList extension.reverse))
  | [] => (name, none)

/-- The last step of a path, if it is a name. -/
def fileName? (p : Path) : Option String :=
  p.steps.getLast?.filter (· ≠ "..")

/-- The extension of the last step. -/
def extension? (p : Path) : Option String :=
  p.fileName?.bind fun name => (splitName name).2

/-- A text that names one entry of a directory: a single step, and none that
leads up. -/
def IsName (name : String) : Prop :=
  name ≠ "" ∧ name ≠ "." ∧ name ≠ ".." ∧ '/' ∉ name.toList

instance (name : String) : Decidable (IsName name) :=
  inferInstanceAs (Decidable (_ ∧ _))

/-- A character that is no dot tells a text from the steps that lead nowhere or up. -/
theorem isName_of_mem {name : String} {c : Char} (hc : c ∈ name.toList) (hdot : c ≠ '.')
    (hslash : '/' ∉ name.toList) : IsName name := by
  refine ⟨?_, ?_, ?_, hslash⟩ <;> rintro rfl <;> simp_all

/-- Names never lead up. -/
theorem up_not_mem {names : List String} (h : ∀ name ∈ names, IsName name) : ".." ∉ names :=
  fun hup => (h _ hup).2.2.1 rfl

theorem pieces_append_slash (a b : String) :
    Text.pieces isSlash (a ++ "/" ++ b).toList =
      Text.pieces isSlash a.toList ++ Text.pieces isSlash b.toList := by
  have htext : (a ++ "/" ++ b).toList = a.toList ++ '/' :: b.toList := by simp
  rw [htext]
  simp [Text.pieces, Text.split_append_break _ _ (by rfl : isSlash '/' = true)]

theorem pieces_of_isName {name : String} (h : IsName name) :
    Text.pieces isSlash name.toList = [name.toList] := by
  rw [Text.pieces, Text.split_of_none]
  intro c hc
  have hne : c ≠ '/' := fun e => h.2.2.2 (e ▸ hc)
  simpa [isSlash] using hne

theorem steps_append_slash (a b : String) :
    (⟨a ++ "/" ++ b⟩ : Path).steps = (⟨a⟩ : Path).steps ++ (⟨b⟩ : Path).steps := by
  simp only [steps, pieces_append_slash, List.map_append, List.filter_append]

theorem steps_of_isName {name : String} (h : IsName name) : (⟨name⟩ : Path).steps = [name] := by
  simp [steps, pieces_of_isName h, h.1, h.2.1]

/-- Every step is a name, except those that lead up. -/
theorem isName_of_mem_steps {p : Path} {step : String} (h : step ∈ p.steps)
    (hup : step ≠ "..") : IsName step := by
  simp only [steps, List.mem_filter, List.mem_map, Bool.and_eq_true, decide_eq_true_eq] at h
  obtain ⟨⟨piece, hpiece, rfl⟩, hempty, hdot⟩ := h
  refine ⟨hempty, hdot, hup, ?_⟩
  intro hslash
  rw [String.toList_ofList] at hslash
  exact absurd (Text.of_mem_pieces hpiece hslash).2 (by decide)

theorem isAbsolute_of_isName {name : String} (h : IsName name) :
    (⟨name⟩ : Path).isAbsolute = false := by
  have hhead : name.toList.head? ≠ some '/' := fun e => h.2.2.2 (List.mem_of_mem_head? e)
  simpa [isAbsolute] using hhead

theorem join_of_isAbsolute (p : Path) {name : String} (h : (⟨name⟩ : Path).isAbsolute = true) :
    p.join name = ⟨name⟩ :=
  if_pos h

theorem join_of_not_isAbsolute (p : Path) {name : String}
    (h : (⟨name⟩ : Path).isAbsolute = false) :
    p.join name = if p.text.isEmpty || p.text.toList.getLast? == some '/' then ⟨p.text ++ name⟩
      else ⟨p.text ++ "/" ++ name⟩ :=
  if_neg (Bool.eq_false_iff.mp h)

/-- Behind a text the name follows a slash, which is added if it is not there yet. -/
theorem exists_join_eq {p : Path} {name : String} (hp : p.text ≠ "")
    (h : (⟨name⟩ : Path).isAbsolute = false) :
    ∃ front, p.join name = ⟨front ++ "/" ++ name⟩ ∧ (p.text = front ∨ p.text = front ++ "/") := by
  rw [join_of_not_isAbsolute p h]
  obtain ⟨text⟩ := p
  by_cases hlast : text.toList.getLast? = some '/'
  · obtain ⟨cs, hcs⟩ := List.getLast?_eq_some_iff.mp hlast
    obtain rfl : text = String.ofList cs ++ "/" := String.toList_inj.mp (by simp [hcs])
    exact ⟨String.ofList cs, if_pos (by simp), .inr rfl⟩
  · exact ⟨text, if_neg (by simp [hlast, hp]), .inl rfl⟩

/-- A relative name adds its steps. -/
theorem steps_join (p : Path) {name : String} (h : (⟨name⟩ : Path).isAbsolute = false) :
    (p.join name).steps = p.steps ++ (⟨name⟩ : Path).steps := by
  by_cases hp : p.text = ""
  · rw [join_of_not_isAbsolute p h, hp]
    simp [steps, hp, Text.pieces, Text.split]
  · obtain ⟨front, hjoin, hfront⟩ := exists_join_eq hp h
    have hp : p = ⟨p.text⟩ := rfl
    rw [hjoin, steps_append_slash, hp]
    rcases hfront with hfront | hfront
    · rw [hfront]
    · -- the slash ends the text, and no step follows it
      have hsteps := steps_append_slash front ""
      rw [String.append_empty, show (⟨""⟩ : Path).steps = [] by decide, List.append_nil] at hsteps
      rw [hfront, hsteps]

/-- A relative name leaves a path at the top or away from it. -/
theorem isAbsolute_join (p : Path) {name : String} (h : (⟨name⟩ : Path).isAbsolute = false) :
    (p.join name).isAbsolute = p.isAbsolute := by
  rw [join_of_not_isAbsolute p h]
  obtain ⟨text⟩ := p
  cases htext : text.toList with
  | nil =>
      obtain rfl : text = "" := String.toList_eq_nil_iff.mp htext
      simpa [isAbsolute] using h
  | cons c cs =>
      split
      · simp [isAbsolute, htext]
      · simp [isAbsolute, htext]

/-- What starts at the top stays there, whatever is appended. -/
theorem isAbsolute_join_of_isAbsolute {p : Path} (h : p.isAbsolute = true) (name : String) :
    (p.join name).isAbsolute = true := by
  cases habs : (⟨name⟩ : Path).isAbsolute with
  | true => rw [join_of_isAbsolute p habs, habs]
  | false => rw [isAbsolute_join p habs, h]

theorem startsHere_eq_iff {p : Path} :
    p.startsHere = true ↔ (Text.split isSlash p.text.toList).1 = ['.'] :=
  beq_iff_eq

/-- A name does not change where a path starts. -/
theorem leading_join (p : Path) {name : String} (h : IsName name) :
    (p.join name).leading = p.leading := by
  have hrel := isAbsolute_of_isName h
  have hstarts : (p.join name).startsHere = p.startsHere := by
    rw [Bool.eq_iff_iff, startsHere_eq_iff, startsHere_eq_iff]
    by_cases hp : p.text = ""
    · have hpieces := pieces_of_isName h
      have hname : (Text.split isSlash name.toList).1 ≠ ['.'] := by
        rw [Text.pieces, List.cons.injEq] at hpieces
        rw [hpieces.1]
        exact fun e => h.2.1 (String.toList_inj.mp e)
      simpa [join_of_not_isAbsolute p hrel, hp, Text.split] using hname
    · obtain ⟨front, hjoin, hfront⟩ := exists_join_eq hp hrel
      -- the first piece ends in front of the slash, if there is one behind it or not
      have hsplit (rest : String) : (Text.split isSlash (front ++ "/" ++ rest).toList).1 =
          (Text.split isSlash front.toList).1 := by
        have htext : (front ++ "/" ++ rest).toList = front.toList ++ '/' :: rest.toList := by simp
        rw [htext, Text.split_append_break _ _ (by rfl : isSlash '/' = true)]
      have hslash := hsplit ""
      rw [String.append_empty] at hslash
      rw [hjoin, hsplit]
      rcases hfront with hfront | hfront
      · rw [hfront]
      · rw [hfront, hslash]
  rw [leading, leading, isAbsolute_join p hrel, hstarts]

/-- Whether a name can follow a path without a slash between the two. -/
def isOpen (p : Path) : Bool := p.text.toList.getLast?.all (· == '/')

theorem join_eq (p : Path) {name : String} (h : (⟨name⟩ : Path).isAbsolute = false) :
    p.join name = if p.isOpen then ⟨p.text ++ name⟩ else ⟨p.text ++ "/" ++ name⟩ := by
  have hopen : p.isOpen = (p.text.isEmpty || p.text.toList.getLast? == some '/') := by
    cases hlast : p.text.toList.getLast? with
    | none =>
        have hempty : p.text = "" := by simpa using hlast
        simp [isOpen, hempty]
    | some c =>
        have hempty : p.text ≠ "" := by
          intro e
          simp [e] at hlast
        simp [isOpen, hlast, hempty]
  rw [hopen, join_of_not_isAbsolute p h]

/-- What is appended decides whether a name can follow; behind a slash one always can. -/
theorem isOpen_join (p : Path) {name : String} (h : (⟨name⟩ : Path).isAbsolute = false) :
    (p.join name).isOpen = (⟨name⟩ : Path).isOpen := by
  have happend : ∀ text : String, (⟨text⟩ : Path).isOpen →
      (⟨text ++ name⟩ : Path).isOpen = (⟨name⟩ : Path).isOpen := by
    intro text htext
    simp only [isOpen, String.toList_append, List.getLast?_append] at htext ⊢
    cases name.toList.getLast? with
    | none => simpa using htext
    | some c => rfl
  rw [join_eq p h]
  cases hopen : p.isOpen with
  | true => exact happend p.text hopen
  | false => exact happend (p.text ++ "/") (by simp [isOpen])

/-- Appending to what was appended is appending to the longer path. -/
theorem join_join (root folder : Path) {name : String} (h : (⟨name⟩ : Path).isAbsolute = false) :
    root.join (folder.join name).text = (root.join folder.text).join name := by
  have hjoin : (⟨(folder.join name).text⟩ : Path).isAbsolute = folder.isAbsolute :=
    isAbsolute_join folder h
  cases habs : folder.isAbsolute with
  | true => rw [join_of_isAbsolute root (hjoin.trans habs), join_of_isAbsolute root habs]
  | false =>
      have hopen : (root.join folder.text).isOpen = folder.isOpen := isOpen_join root habs
      rw [join_eq root (hjoin.trans habs), join_eq (root.join folder.text) h, hopen,
        join_eq folder h, join_eq root habs]
      split <;> split <;> simp only [String.append_assoc]

/-- Something is left of what is appended. -/
theorem text_join_ne (p : Path) {name : String} (h : name ≠ "") : (p.join name).text ≠ "" := by
  unfold join
  split
  · exact h
  · split
    · simp [h]
    · simp [h]

/-- A name is the last piece of a path that it ends. Before it are the pieces of the path
that it is appended to, without the empty one behind a last slash. -/
theorem pieces_join {p : Path} {name : String} (hp : p.text ≠ "") (hname : IsName name) :
    ∃ init, Text.pieces isSlash (p.join name).text.toList = init ++ [name.toList] ∧
      (Text.pieces isSlash p.text.toList = init ∨
        Text.pieces isSlash p.text.toList = init ++ [[]]) := by
  obtain ⟨front, hjoin, hfront⟩ := exists_join_eq hp (isAbsolute_of_isName hname)
  refine ⟨Text.pieces isSlash front.toList, ?_, ?_⟩
  · rw [hjoin, pieces_append_slash, pieces_of_isName hname]
  · rcases hfront with hfront | hfront
    · exact .inl (by rw [hfront])
    · have hslash := pieces_append_slash front ""
      rw [String.append_empty] at hslash
      exact .inr (by rw [hfront, hslash]; rfl)

/-! ### Components -/

/-- One path lies below another when it goes on from the other's components. -/
theorem below?_eq_some_iff {base p : Path} {below : List String} :
    base.below? p = some below ↔ p.components = base.components ++ below := by
  unfold below?
  split
  · rename_i h
    obtain ⟨rest, hrest⟩ := h
    simp [← hrest, eq_comm]
  · rename_i h
    refine iff_of_false nofun fun hcomponents => h ?_
    exact hcomponents ▸ List.prefix_append _ _

example : (⟨"./i18n/"⟩ : Path).below? ⟨"./i18n//en.json"⟩ = some ["en.json"] ∧
    (⟨"./i18n/"⟩ : Path).below? ⟨"i18n/en.json"⟩ = none := by
  decide

theorem isStep_of_isName {name : String} (h : IsName name) : isStep name = true := by
  have hslash : name ≠ "/" := fun e => h.2.2.2 (by simp [e])
  simp [isStep, hslash, h.2.1]

theorem isNormal_of_isName {name : String} (h : IsName name) : isNormal name = true := by
  simp [isNormal, isStep_of_isName h, h.2.2.1]

theorem isStep_of_mem_steps {p : Path} {step : String} (h : step ∈ p.steps) :
    isStep step = true := by
  by_cases hup : step = ".."
  · simp [hup, isStep]
  · exact isStep_of_isName (isName_of_mem_steps h hup)

theorem isStep_of_mem_leading {p : Path} {mark : String} (h : mark ∈ p.leading) :
    isStep mark = false := by
  unfold leading at h
  split at h
  · simp [List.mem_singleton.mp h, isStep]
  · split at h
    · simp [List.mem_singleton.mp h, isStep]
    · cases h

/-- The steps of a path are those among its components. -/
theorem filter_isStep_components (p : Path) : p.components.filter isStep = p.steps := by
  rw [components, List.filter_append, List.filter_eq_nil_iff.mpr, List.nil_append,
    List.filter_eq_self.mpr]
  · exact fun step => isStep_of_mem_steps
  · exact fun mark hmark => Bool.eq_false_iff.mp (isStep_of_mem_leading hmark)

/-- The other components say where the path starts. -/
theorem filter_not_isStep_components (p : Path) :
    p.components.filter (!isStep ·) = p.leading := by
  rw [components, List.filter_append, List.filter_eq_self.mpr, List.filter_eq_nil_iff.mpr,
    List.append_nil]
  · intro step hstep
    simp [isStep_of_mem_steps hstep]
  · intro mark hmark
    simp [isStep_of_mem_leading hmark]

/-- Names do not tell where a path starts: one path lies below another by names when both
start alike and it goes on from the other's steps. -/
theorem below?_eq_some_iff_of_isName {base p : Path} {below : List String}
    (h : ∀ name ∈ below, IsName name) :
    base.below? p = some below ↔ p.leading = base.leading ∧ p.steps = base.steps ++ below := by
  have hbelow : ∀ name ∈ below, isStep name = true := fun name hn => isStep_of_isName (h name hn)
  rw [below?_eq_some_iff]
  constructor
  · intro hcomponents
    constructor
    · rw [← filter_not_isStep_components p, hcomponents, List.filter_append,
        filter_not_isStep_components, List.filter_eq_nil_iff.mpr (by simpa using hbelow),
        List.append_nil]
    · rw [← filter_isStep_components p, hcomponents, List.filter_append,
        filter_isStep_components, List.filter_eq_self.mpr hbelow]
  · rintro ⟨hstart, hgoes⟩
    rw [components, components, hstart, hgoes, List.append_assoc]

theorem leading_of_isAbsolute {p : Path} (h : p.isAbsolute = true) : p.leading = ["/"] :=
  if_pos h

/-- What lies below a path at the top is at the top. -/
theorem isAbsolute_of_below? {base p : Path} {below : List String} (hbase : base.isAbsolute = true)
    (h : base.below? p = some below) : p.isAbsolute = true := by
  rw [below?_eq_some_iff] at h
  have hmem : "/" ∈ p.leading := by
    rw [← filter_not_isStep_components p, h, List.filter_append, filter_not_isStep_components,
      leading_of_isAbsolute hbase]
    simp
  unfold leading at hmem
  split at hmem
  · assumption
  · split at hmem <;> simp at hmem

/-- At the top the steps tell what lies below a path. -/
theorem below?_congr {base p q : Path} (hp : p.isAbsolute = true) (hq : q.isAbsolute = true)
    (h : p.steps = q.steps) : base.below? p = base.below? q := by
  have hcomponents : p.components = q.components := by
    rw [components, components, leading_of_isAbsolute hp, leading_of_isAbsolute hq, h]
  rw [below?, below?, hcomponents]

theorem below?_join (p : Path) {name : String} (h : IsName name) :
    p.below? (p.join name) = some [name] := by
  rw [below?_eq_some_iff_of_isName (by simpa using h), leading_join p h,
    steps_join p (isAbsolute_of_isName h), steps_of_isName h]
  exact ⟨rfl, rfl⟩

/-- Names lead below a path, one step each. -/
theorem below?_foldl_join (p : Path) {names : List String} (h : ∀ name ∈ names, IsName name) :
    p.below? (names.foldl join p) = some names := by
  rw [below?_eq_some_iff_of_isName h]
  induction names generalizing p with
  | nil => simp
  | cons name names ih =>
      have hname := h name (by simp)
      obtain ⟨hleading, hsteps⟩ := ih (p.join name) fun n hn => h n (by simp [hn])
      rw [leading_join p hname] at hleading
      rw [steps_join p (isAbsolute_of_isName hname), steps_of_isName hname] at hsteps
      exact ⟨hleading, by simpa using hsteps⟩

/-- What lies below a directory of a folder lies below the folder, behind the name
of the directory. -/
theorem below?_of_below?_join {root folder p : Path} {name : String} {below : List String}
    (hname : IsName name) (hbelow : ∀ name ∈ below, IsName name)
    (h : (root.join (folder.join name).text).below? p = some below) :
    (root.join folder.text).below? p = some (name :: below) := by
  have hrel := isAbsolute_of_isName hname
  rw [join_join root folder hrel, below?_eq_some_iff_of_isName hbelow, leading_join _ hname,
    steps_join _ hrel, steps_of_isName hname, List.append_assoc] at h
  exact (below?_eq_some_iff_of_isName (by simpa using ⟨hname, hbelow⟩)).mpr h

/-- The last name on the way to a path below is the last step of the path. -/
theorem fileName?_of_below? {base p : Path} {below : List String} (h : base.below? p = some below)
    (hne : below ≠ []) (hnames : ∀ name ∈ below, IsName name) :
    p.fileName? = below.getLast? := by
  obtain ⟨-, hsteps⟩ := (below?_eq_some_iff_of_isName hnames).mp h
  rw [fileName?, hsteps, List.getLast?_append, List.getLast?_eq_some_getLast hne, Option.some_or,
    Option.filter_eq_some_iff]
  exact ⟨rfl, by simpa using (hnames _ (List.getLast_mem hne)).2.2.1⟩

/-! ### Extensions -/

theorem splitName_append {stem extension : String} (hstem : stem ≠ "")
    (hdot : '.' ∉ extension.toList) (hne : extension ≠ "") :
    splitName (stem ++ "." ++ extension) = (stem, some extension) := by
  have hchars : (stem ++ "." ++ extension).toList.reverse =
      extension.toList.reverse ++ '.' :: stem.toList.reverse := by simp
  have htake : (stem ++ "." ++ extension).toList.reverse.takeWhile (· ≠ '.') =
      extension.toList.reverse := by
    rw [hchars, List.takeWhile_append_of_pos]
    · simp
    · intro c hc
      simpa using fun e : c = '.' => hdot (e ▸ List.mem_reverse.mp hc)
  -- nothing follows the last dot of ".."
  have hup : stem ++ "." ++ extension ≠ ".." := by
    intro h
    rw [h] at htake
    exact hne (by simpa using htake.symm)
  unfold splitName
  simp only [htake]
  simp only [hchars, List.drop_left]
  simp [hstem, hup]

/-- A name with an extension is made of its stem and the extension. -/
theorem eq_of_splitName {name stem extension : String}
    (h : splitName name = (stem, some extension)) : name = stem ++ "." ++ extension := by
  unfold splitName at h
  dsimp only at h
  split at h
  · rename_i c rest hdrop
    split at h
    · cases h
    · have hsplit := List.takeWhile_append_dropWhile (p := (· ≠ '.')) (l := name.toList.reverse)
      have hrest : name.toList.reverse.dropWhile (· ≠ '.') = c :: rest := by
        have hlength := congrArg (List.drop (name.toList.reverse.takeWhile (· ≠ '.')).length) hsplit
        rw [List.drop_left, hdrop] at hlength
        exact hlength
      have hc := List.head?_dropWhile_not (· ≠ '.') name.toList.reverse
      rw [hrest] at hc hsplit
      obtain rfl : c = '.' := by simpa using hc
      cases h
      refine String.toList_inj.mp (List.reverse_inj.mp (hsplit.symm.trans ?_))
      simp
  · cases h

end Path

end Phrasebook
