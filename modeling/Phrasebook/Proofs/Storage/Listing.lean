import Phrasebook.Storage.Memory
import Phrasebook.Storage.Disk
/-!
# What a walk lists

A walk lists the files below the directory that it is asked about: each path goes
on from that directory, component by component, by names only. Memories under an
absolute root and disks keep to this, because every file in them was written under
steps that are names. A memory under a relative root does not: it tells files apart
by their steps, so a walk of `/a` lists what was written under `a`.
-/

namespace Phrasebook

/-- Every path in a listing leads down from the directory by names. -/
def Storage.ListsBelow (s : Storage) : Prop :=
  ∀ directory, ∀ path ∈ s.enumerate directory, ∃ below,
    (s.root.join directory.text).below? path = some below ∧ below ≠ [] ∧
      ∀ name ∈ below, Path.IsName name

namespace Memory

/-- A memory under an absolute root, where each file has the steps of its path and none
leads up. -/
structure Sound (m : Memory) : Prop where
  root : m.root.isAbsolute = true
  file : ∀ {steps path content}, (steps, path, content) ∈ m.files.entries →
    path.isAbsolute = true ∧ path.steps = steps ∧ ".." ∉ steps

theorem sound_empty {root : Path} (h : root.isAbsolute = true) : (empty root).Sound :=
  ⟨h, nofun⟩

theorem Sound.write {m : Memory} (h : m.Sound) {name : String}
    (hname : ".." ∉ (m.root.join name).steps) (content : Except ReadFault String) :
    (m.write name content).Sound := by
  refine ⟨h.root, ?_⟩
  intro steps path content' hmem
  rw [← OrderedMap.get?_eq_some_iff, Memory.write, OrderedMap.get?_insert] at hmem
  split at hmem
  · rename_i hsteps
    cases hmem
    subst hsteps
    cases hget : m.files.get? (m.root.join name).steps with
    | none => exact ⟨Path.isAbsolute_join_of_isAbsolute h.root name, rfl, hname⟩
    | some shown => exact h.file (OrderedMap.get?_eq_some_iff.mp hget)
  · exact h.file (OrderedMap.get?_eq_some_iff.mp hmem)

theorem Sound.remove {m : Memory} (h : m.Sound) (name : String) : (m.remove name).Sound := by
  refine ⟨h.root, ?_⟩
  intro steps path content hmem
  rw [Memory.remove, OrderedMap.entries_erase] at hmem
  exact h.file ((List.mem_filter.mp hmem).1)

/-- A listing has the files whose steps go on from those of the directory. -/
theorem mem_enumerate_iff {m : Memory} {directory path : Path} :
    path ∈ m.enumerate directory ↔ ∃ below content, below ≠ [] ∧
      ((m.root.join directory.text).steps ++ below, path, content) ∈ m.files.entries := by
  constructor
  · intro hpath
    obtain ⟨⟨steps, shown, content⟩, hfile, rfl⟩ := List.mem_map.mp hpath
    obtain ⟨hmem, hbelow⟩ := List.mem_filter.mp hfile
    simp only [Bool.and_eq_true, decide_eq_true_eq] at hbelow
    obtain ⟨⟨below, rfl⟩, hne⟩ := hbelow
    exact ⟨below, content, by simpa using hne, hmem⟩
  · rintro ⟨below, content, hne, hmem⟩
    exact List.mem_map.mpr ⟨_, List.mem_filter.mpr ⟨hmem, by simpa using hne⟩, rfl⟩

/-- The steps of a file below a directory are names. -/
theorem Sound.isName_of_mem {m : Memory} (h : m.Sound) {above below : List String} {path : Path}
    {content : Except ReadFault String} (hmem : (above ++ below, path, content) ∈ m.files.entries) :
    ∀ name ∈ below, Path.IsName name := by
  obtain ⟨-, hsteps, hup⟩ := h.file hmem
  intro name hname
  have hstep := List.mem_append_right above hname
  exact Path.isName_of_mem_steps (hsteps ▸ hstep) fun e => hup (e ▸ hstep)

/-- The path of a file goes on from a directory like its steps. -/
theorem Sound.below?_of_mem {m : Memory} (h : m.Sound) {directory path : Path}
    {below : List String} {content : Except ReadFault String}
    (hmem : ((m.root.join directory.text).steps ++ below, path, content) ∈ m.files.entries)
    (hnames : ∀ name ∈ below, Path.IsName name) :
    (m.root.join directory.text).below? path = some below := by
  obtain ⟨habs, hsteps, -⟩ := h.file hmem
  have hroot := Path.isAbsolute_join_of_isAbsolute h.root directory.text
  rw [Path.below?_eq_some_iff_of_isName hnames, Path.leading_of_isAbsolute habs,
    Path.leading_of_isAbsolute hroot]
  exact ⟨rfl, hsteps⟩

/-- A memory lists what lies below. -/
theorem Sound.listsBelow {m : Memory} (h : m.Sound) : m.storage.ListsBelow := by
  intro directory path hpath
  obtain ⟨below, content, hne, hmem⟩ := mem_enumerate_iff.mp hpath
  have hnames := h.isName_of_mem hmem
  exact ⟨below, h.below?_of_mem hmem hnames, hne, hnames⟩

end Memory

namespace Disk

/-- A disk where every way from the top is made of names. -/
structure Sound (d : Disk) : Prop where
  entry : ∀ {place entry}, (place, entry) ∈ d.entries.entries →
    place ≠ [] ∧ ∀ name ∈ place, Path.IsName name
  working : ∀ name ∈ d.working, Path.IsName name

theorem sound_empty {working : List String} (h : ∀ name ∈ working, Path.IsName name) :
    (empty working).Sound :=
  ⟨nofun, h⟩

theorem Sound.insert {d : Disk} (h : d.Sound) {place : List String} {name : String}
    (hplace : ∀ n ∈ place, Path.IsName n) (hname : Path.IsName name) (entry : Entry) :
    Sound { d with entries := d.entries.insert (place ++ [name]) entry } := by
  refine ⟨?_, h.working⟩
  intro place' entry' hmem
  rw [← OrderedMap.get?_eq_some_iff, OrderedMap.get?_insert] at hmem
  split at hmem
  · rename_i hplace'
    subst hplace'
    refine ⟨by simp, ?_⟩
    intro n hn
    rcases List.mem_append.mp hn with hn | hn
    · exact hplace n hn
    · exact List.mem_singleton.mp hn ▸ hname
  · exact h.entry (OrderedMap.get?_eq_some_iff.mp hmem)

/-- Directories are made under names, and the way through them ends in names. -/
theorem Sound.pave? {d d' : Disk} {place place' steps : List String} (h : d.Sound)
    (hplace : ∀ name ∈ place, Path.IsName name)
    (hsteps : ∀ step ∈ steps, step ≠ ".." → Path.IsName step)
    (hpave : d.pave? place steps = some (d', place')) :
    d'.Sound ∧ ∀ name ∈ place', Path.IsName name := by
  induction steps generalizing d place with
  | nil =>
      cases hpave
      exact ⟨h, hplace⟩
  | cons step steps ih =>
      have hrest : ∀ s ∈ steps, s ≠ ".." → Path.IsName s := fun s hs => hsteps s (by simp [hs])
      by_cases hup : step = ".."
      · subst hup
        exact ih h (fun name hn => hplace name (List.dropLast_subset _ hn)) hrest hpave
      · have hname := hsteps step (by simp) hup
        have hplace' : ∀ name ∈ place ++ [step], Path.IsName name := by
          intro name hn
          rcases List.mem_append.mp hn with hn | hn
          · exact hplace name hn
          · exact List.mem_singleton.mp hn ▸ hname
        rw [Disk.pave?] at hpave
        · split at hpave
          · exact ih h hplace' hrest hpave
          · cases hpave
          · exact ih (h.insert hplace hname _) hplace' hrest hpave
        · exact hup

theorem Sound.start {d : Disk} (h : d.Sound) (path : Path) :
    ∀ name ∈ d.start path, Path.IsName name := by
  unfold Disk.start
  split
  · exact nofun
  · exact h.working

theorem Sound.makeDirectory {d : Disk} (h : d.Sound) (path : Path) :
    (d.makeDirectory path).Sound := by
  unfold Disk.makeDirectory
  cases hpave : d.pave? (d.start path) path.steps with
  | none => exact h
  | some paved =>
      exact (h.pave? (h.start path) (fun _ hs hup => Path.isName_of_mem_steps hs hup) hpave).1

theorem Sound.write {d : Disk} (h : d.Sound) (path : Path)
    (content : Except ReadFault.Kind String) : (d.write path content).Sound := by
  unfold Disk.write
  split
  · rename_i name d' place hfile hpave
    obtain ⟨hlast, hup⟩ := Option.filter_eq_some_iff.mp hfile
    have hname := Path.isName_of_mem_steps (List.mem_of_getLast? hlast) (by simpa using hup)
    obtain ⟨hd', hplace⟩ := h.pave? (h.start path)
      (fun _ hs hup => Path.isName_of_mem_steps (List.dropLast_subset _ hs) hup) hpave
    split
    · exact hd'
    · exact hd'.insert hplace hname _
  · exact h

theorem Sound.remove {d : Disk} (h : d.Sound) (path : Path) : (d.remove path).Sound := by
  unfold Disk.remove
  split
  · split
    · exact h
    · refine ⟨?_, h.working⟩
      intro place entry hmem
      rw [OrderedMap.entries_erase] at hmem
      exact h.entry ((List.mem_filter.mp hmem).1)
  · exact h

/-- A directory is no file: the files below it have further steps. -/
theorem Sound.below_ne_nil {d : Disk} (h : d.Sound) {place below : List String} {entry : Entry}
    (hdir : d.isDirectory place = true) (hfile : (place ++ below, entry) ∈ d.entries.entries)
    (hentry : entry ≠ .directory) : below ≠ [] := by
  rintro rfl
  rw [List.append_nil] at hfile
  have hget := OrderedMap.get?_eq_some_iff.mpr hfile
  have hne : place.isEmpty = false := by simpa using (h.entry hfile).1
  simp only [isDirectory, entry?, hne, Bool.false_eq_true, if_false, hget, beq_iff_eq,
    Option.some.injEq] at hdir
  exact hentry hdir

/-- A walk of a directory lists all below it that is no directory. -/
theorem mem_enumerate_iff {d : Disk} {directory path : Path} :
    path ∈ d.enumerate directory ↔
      ∃ place below entry, d.locate directory = .ok place ∧ d.isDirectory place = true ∧
        (place ++ below, entry) ∈ d.entries.entries ∧ entry ≠ .directory ∧
        path = below.foldl Path.join directory := by
  unfold Disk.enumerate
  cases d.locate directory with
  | error kind => exact iff_of_false nofun (by rintro ⟨_, _, _, ⟨⟩, _⟩)
  | ok place =>
      dsimp only
      split
      · rename_i hdir
        simp only [List.mem_map, filesBelow, List.mem_mergeSort, List.mem_filterMap]
        constructor
        · rintro ⟨below, ⟨⟨steps, entry⟩, hmem, hsome⟩, rfl⟩
          simp only [Option.ite_none_right_eq_some, Bool.and_eq_true, decide_eq_true_eq,
            Option.some.injEq] at hsome
          obtain ⟨⟨hentry, rest, rfl⟩, rfl⟩ := hsome
          exact ⟨place, rest, entry, rfl, hdir, hmem, hentry, by rw [List.drop_left]⟩
        · rintro ⟨_, below, entry, ⟨⟩, -, hmem, hentry, rfl⟩
          exact ⟨below, ⟨⟨_, entry⟩, hmem, by simp [hentry]⟩, rfl⟩
      · rename_i hdir
        exact iff_of_false nofun (by rintro ⟨_, _, _, ⟨⟩, h, _⟩; exact hdir h)

/-- The way from a directory to an entry below is made of names. -/
theorem Sound.isName_of_mem {d : Disk} (h : d.Sound) {place below : List String} {entry : Entry}
    (hmem : (place ++ below, entry) ∈ d.entries.entries) : ∀ name ∈ below, Path.IsName name :=
  fun name hname => (h.entry hmem).2 name (List.mem_append_right _ hname)

/-- A disk lists what lies below. -/
theorem Sound.listsBelow {d : Disk} (h : d.Sound) (root : Path) :
    (d.storage root).ListsBelow := by
  intro directory path hpath
  obtain ⟨place, below, entry, -, hdir, hmem, hentry, rfl⟩ :=
    mem_enumerate_iff.mp (show path ∈ d.enumerate (root.join directory.text) from hpath)
  have hnames := h.isName_of_mem hmem
  exact ⟨below, Path.below?_foldl_join _ hnames, h.below_ne_nil hdir hmem hentry, hnames⟩

end Disk

end Phrasebook
