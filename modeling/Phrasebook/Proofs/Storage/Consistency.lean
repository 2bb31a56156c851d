import Phrasebook.Proofs.Storage.Listing
import Phrasebook.Results
/-!
# Walks and reads

What a walk lists can be asked for by the names along the way, and a file that is read
under such names is listed. So a walk of a directory and a walk of one below it list the
same files, as memories under an absolute root and disks under any root do.
-/

namespace Phrasebook

namespace Storage

variable (s : Storage)

/-- A directory as the storage sees it. -/
def base (directory : Path) : Path := s.root.join directory.text

/-- Whether a walk of a directory lists a file under these steps from it. -/
def Lists (directory : Path) (below : List String) : Prop :=
  ∃ path ∈ s.enumerate directory, (s.base directory).below? path = some below

/-- Walks and reads that tell of the same files. The empty path names no directory, and
so nothing is said about it. -/
structure Consistent : Prop where
  listsBelow : s.ListsBelow
  /-- What is listed is read like the path that its steps lead to. -/
  read_listed : ∀ {directory path below}, path ∈ s.enumerate directory →
    (s.base directory).below? path = some below →
    s.read path = s.read (below.foldl Path.join (s.base directory))
  /-- What can be read below a directory is listed. -/
  lists_of_read : ∀ {directory below text}, (s.base directory).text ≠ "" → below ≠ [] →
    (∀ name ∈ below, Path.IsName name) →
    s.read (below.foldl Path.join (s.base directory)) = .ok text → s.Lists directory below
  /-- What is listed for a directory is listed for the one above. -/
  lists_of_lists_join : ∀ {directory name below}, (s.base directory).text ≠ "" →
    Path.IsName name → s.Lists (directory.join name) below → s.Lists directory (name :: below)

variable {s : Storage}

/-- The steps below a directory under which a file is listed are names. -/
theorem ListsBelow.isName_of_lists (h : s.ListsBelow) {directory : Path} {below : List String}
    (hlists : s.Lists directory below) : below ≠ [] ∧ ∀ name ∈ below, Path.IsName name := by
  obtain ⟨path, hpath, hbelow⟩ := hlists
  obtain ⟨listed, hlisted, hnames⟩ := h _ path hpath
  obtain rfl : listed = below := Option.some.inj (hlisted.symm.trans hbelow)
  exact hnames

theorem base_join (s : Storage) (directory : Path) {name : String} (hname : Path.IsName name) :
    s.base (directory.join name) = (s.base directory).join name :=
  Path.join_join s.root directory (Path.isAbsolute_of_isName hname)

end Storage

namespace Memory

/-- A memory under an absolute root is read by the steps of its files. -/
theorem Sound.consistent {m : Memory} (h : m.Sound) : m.storage.Consistent := by
  have hread : ∀ {p q : Path}, p.steps = q.steps → m.storage.read p = m.storage.read q := by
    intro p q hsteps
    change m.read p = m.read q
    rw [Memory.read, Memory.read, hsteps]
  have hjoined (directory : Path) {below : List String}
      (hnames : ∀ name ∈ below, Path.IsName name) :
      (below.foldl Path.join (m.storage.base directory)).steps =
        (m.storage.base directory).steps ++ below :=
    ((Path.below?_eq_some_iff_of_isName hnames).mp (Path.below?_foldl_join _ hnames)).2
  refine ⟨h.listsBelow, ?_, ?_, ?_⟩
  · intro directory path below hpath hbelow
    obtain ⟨-, hnames⟩ := h.listsBelow.isName_of_lists ⟨path, hpath, hbelow⟩
    obtain ⟨-, hsteps⟩ := (Path.below?_eq_some_iff_of_isName hnames).mp hbelow
    exact hread (hsteps.trans (hjoined directory hnames).symm)
  · intro directory below text _ hne hnames hread
    change m.read _ = .ok text at hread
    rw [Memory.read, hjoined directory hnames] at hread
    split at hread
    · rename_i shown content hget
      have hfile := OrderedMap.get?_eq_some_iff.mp hget
      exact ⟨shown, mem_enumerate_iff.mpr ⟨below, content, hne, hfile⟩,
        h.below?_of_mem hfile hnames⟩
    · cases hread
  · rintro directory name below - hname ⟨path, hpath, hbelow⟩
    obtain ⟨-, hnames⟩ := h.listsBelow.isName_of_lists ⟨path, hpath, hbelow⟩
    have habove := Path.below?_of_below?_join hname hnames hbelow
    have hnames' : ∀ n ∈ name :: below, Path.IsName n := by simpa using ⟨hname, hnames⟩
    obtain ⟨-, hsteps⟩ := (Path.below?_eq_some_iff_of_isName hnames').mp habove
    obtain ⟨steps, content, -, hmem⟩ := mem_enumerate_iff.mp hpath
    obtain ⟨-, hshown, -⟩ := h.file hmem
    rw [← hshown, hsteps] at hmem
    exact ⟨path, mem_enumerate_iff.mpr ⟨name :: below, content, List.cons_ne_nil _ _, hmem⟩, habove⟩

end Memory

namespace Disk

variable {d : Disk}

theorem follow_append (place xs ys : List String) :
    d.follow place (xs ++ ys) = d.follow place xs >>= (d.follow · ys) := by
  induction xs generalizing place with
  | nil => rfl
  | cons piece xs ih =>
      rw [List.cons_append, follow, follow]
      split
      · rfl
      · split
        · exact ih _
        · split
          · exact ih _
          · split
            · rfl
            · split
              · rfl
              · exact ih _

/-- A name leads from a directory to what has the name there. -/
theorem follow_isName {place place' : List String} {name : String} (hname : Path.IsName name)
    (h : d.follow place [name] = .ok place') :
    d.isDirectory place = true ∧ place' = place ++ [name] := by
  simp only [follow, hname.1, hname.2.1, hname.2.2.1, or_self, if_false] at h
  split at h
  · cases h
  · rename_i hdir
    split at h
    · cases h
    · split at h
      · cases h
      · exact ⟨by simpa using hdir, (Except.ok.inj h).symm⟩

theorem locate_eq_ok_iff {path : Path} {place : List String} :
    d.locate path = .ok place ↔
      '\x00' ∉ path.text.toList ∧ path.text ≠ "" ∧ path.text.utf8ByteSize ≤ longestPath ∧
        d.follow (d.start path) ((Text.pieces Path.isSlash path.text.toList).map String.ofList) =
          .ok place := by
  unfold locate
  split
  · rename_i hnul
    exact iff_of_false nofun fun h => h.1 (by simpa using hnul)
  · rename_i hnul
    split
    · rename_i hempty
      exact iff_of_false nofun fun h => h.2.1 (by simpa using hempty)
    · rename_i hempty
      split
      · rename_i hlong
        exact iff_of_false nofun fun h => Nat.not_le.mpr hlong h.2.2.1
      · rename_i hlong
        exact ⟨fun h => ⟨by simpa using hnul, by simpa using hempty, Nat.not_lt.mp hlong, h⟩,
          fun h => h.2.2.2⟩

/-- A path that goes on from another by a name leads to an entry of the directory to which
the other leads. -/
theorem locate_join {path : Path} {name : String} {place' : List String} (hpath : path.text ≠ "")
    (hname : Path.IsName name) (h : d.locate (path.join name) = .ok place') :
    ∃ place, d.locate path = .ok place ∧ d.isDirectory place = true ∧ place' = place ++ [name] := by
  have hrel := Path.isAbsolute_of_isName hname
  obtain ⟨hnul, -, hlength, hfollow⟩ := locate_eq_ok_iff.mp h
  obtain ⟨init, hjoined, hinit⟩ := Path.pieces_join hpath hname
  have hstart : d.start (path.join name) = d.start path := by
    rw [start, start, Path.isAbsolute_join path hrel]
  rw [hstart, hjoined, List.map_append, follow_append] at hfollow
  obtain ⟨place, hplace, hlast⟩ := bind_eq_ok_iff.mp hfollow
  rw [List.map_singleton, String.ofList_toList] at hlast
  obtain ⟨hdir, rfl⟩ := follow_isName hname hlast
  obtain ⟨sep, htext⟩ : ∃ sep, (path.join name).text = path.text ++ (sep ++ name) := by
    rw [Path.join_eq _ hrel]
    split
    · exact ⟨"", by simp⟩
    · exact ⟨"/", by rw [String.append_assoc]⟩
  rw [htext] at hnul hlength
  refine ⟨place, locate_eq_ok_iff.mpr ⟨?_, hpath, ?_, ?_⟩, hdir, rfl⟩
  · intro hmem
    exact hnul (by simp [hmem])
  · simp only [String.utf8ByteSize_append] at hlength
    omega
  · rcases hinit with hinit | hinit
    · rw [hinit, hplace]
    · -- the empty piece behind the slash asks for a directory, and there is one
      rw [hinit, List.map_append, follow_append, hplace]
      simp [bind, Except.bind, follow, hdir]

/-- The names behind a path lead on through directories. -/
theorem locate_foldl_join {path : Path} {names place' : List String} (hpath : path.text ≠ "")
    (hnames : ∀ name ∈ names, Path.IsName name) (hne : names ≠ [])
    (h : d.locate (names.foldl Path.join path) = .ok place') :
    ∃ place, d.locate path = .ok place ∧ d.isDirectory place = true ∧ place' = place ++ names := by
  induction names generalizing path with
  | nil => exact absurd rfl hne
  | cons name names ih =>
      have hname := hnames name (by simp)
      cases names with
      | nil => exact locate_join hpath hname h
      | cons next names =>
          obtain ⟨place, hplace, -, rfl⟩ := ih (Path.text_join_ne path hname.1)
            (fun n hn => hnames n (by simp [hn])) (List.cons_ne_nil _ _) h
          obtain ⟨above, habove, hdir, rfl⟩ := locate_join hpath hname hplace
          exact ⟨above, habove, hdir, by simp⟩

/-- Only files have texts. -/
theorem exists_file_of_read {path : Path} {text : String} (h : d.read path = .ok text) :
    ∃ place, d.locate path = .ok place ∧ d.entry? place = some (.file text) := by
  unfold read at h
  dsimp only at h
  split at h
  · cases h
  · rename_i place hlocate
    split at h
    · rename_i hentry
      cases h
      exact ⟨place, hlocate, hentry⟩
    · cases h
    · cases h
    · cases h

theorem enumerate_storage (d : Disk) (root directory : Path) :
    (d.storage root).enumerate directory = d.enumerate ((d.storage root).base directory) := by
  simp only [storage, Storage.base]

/-- A disk is walked through the directories that reads pass through. -/
theorem Sound.consistent (h : d.Sound) (root : Path) : (d.storage root).Consistent := by
  refine ⟨h.listsBelow root, ?_, ?_, ?_⟩
  · intro directory path below hpath hbelow
    rw [enumerate_storage, mem_enumerate_iff] at hpath
    obtain ⟨place, names, entry, -, -, hmem, -, rfl⟩ := hpath
    have hlisted := Path.below?_foldl_join ((d.storage root).base directory)
      (h.isName_of_mem hmem)
    obtain rfl : names = below := Option.some.inj (hlisted.symm.trans hbelow)
    rfl
  · intro directory below text hbase hne hnames hread
    obtain ⟨place', hlocate', hfile⟩ := exists_file_of_read hread
    obtain ⟨place, hlocate, hdir, rfl⟩ := locate_foldl_join hbase hnames hne hlocate'
    refine ⟨_, ?_, Path.below?_foldl_join _ hnames⟩
    rw [enumerate_storage, mem_enumerate_iff]
    refine ⟨place, below, .file text, hlocate, hdir, ?_, nofun, rfl⟩
    rw [← OrderedMap.get?_eq_some_iff]
    simpa [hne, entry?] using hfile
  · rintro directory name below hbase hname ⟨path, hpath, hbelow⟩
    rw [enumerate_storage, Storage.base_join _ _ hname, mem_enumerate_iff] at hpath
    obtain ⟨place', names, entry, hlocate', -, hmem, hentry, rfl⟩ := hpath
    obtain ⟨place, hlocate, hdir, rfl⟩ := locate_join hbase hname hlocate'
    have hnames := h.isName_of_mem hmem
    rw [Storage.base_join _ _ hname, Path.below?_foldl_join _ hnames, Option.some.injEq] at hbelow
    subst hbelow
    refine ⟨_, ?_, Path.below?_foldl_join _ (by simpa using ⟨hname, hnames⟩)⟩
    rw [enumerate_storage, mem_enumerate_iff]
    exact ⟨place, name :: names, entry, hlocate, hdir, by simpa using hmem, hentry, rfl⟩

end Disk

end Phrasebook
