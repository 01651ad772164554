import SceneTracer.Files

namespace SceneTracer.Files

/-!
# A file that is written is read back

Writing a file changes the entry at one place, which is no directory. Paths pass through directories,
so the path of the file leads to the same place as before.

* `entryAt?_setEntry_self`, `entryAt?_setEntry_of_ne` — the entries after one is changed.
* `walk_setEntry` — ways through directories are the same after a change of what is none.
* `Written` — the effect of writing a file; `written_of_write` that writing has no other.
-/

variable {files after : Files} {place other : Place} {entry : Entry}

/-- What has been put in a place is there. The root is a directory and stays one. -/
theorem entryAt?_setEntry_self (hplace : place ≠ []) :
    (files.setEntry place entry).entryAt? place = some entry := by
  simp [entryAt?, setEntry, hplace]

/-- Removing the entries for a place does not change what is found for others. -/
theorem lookup_filter_ne {entries : List (Place × Entry)} (hne : other ≠ place) :
    (entries.filter fun e => e.1 != place).lookup other = entries.lookup other := by
  induction entries with
  | nil => rfl
  | cons e entries ih =>
    obtain ⟨at', found⟩ := e
    by_cases hat : at' = place
    · subst hat
      simp [List.lookup_cons, ih, beq_eq_false_iff_ne.mpr hne]
    · simp [List.lookup_cons, hat, ih]

/-- Other places keep what is there. -/
theorem entryAt?_setEntry_of_ne (hne : other ≠ place) :
    (files.setEntry place entry).entryAt? other = files.entryAt? other := by
  have hbeq : (other == place) = false := beq_eq_false_iff_ne.mpr hne
  simp [entryAt?, setEntry, List.lookup_cons, hbeq, lookup_filter_ne hne]

/-- A step leads on from a directory only, so it is the same after a change of what is none. -/
theorem follow_setEntry {start : Place} {name : String}
    (hplace : files.entryAt? place ≠ some .directory) (h : files.follow start name = .ok other) :
    (files.setEntry place entry).follow start name = .ok other := by
  have hstart : files.entryAt? start = some .directory := by
    unfold follow at h
    split at h
    · cases h
    · cases h
    · assumption
  -- A step starts from a directory, and no directory has been replaced.
  have hne : start ≠ place := by
    rintro rfl
    exact hplace hstart
  rw [← h]
  unfold follow
  rw [entryAt?_setEntry_of_ne hne]
  rfl

/-- A walk through directories leads to the same place after a change where there is no
directory. -/
theorem walk_setEntry {path : Path} {names : List String} (entry : Entry)
    (hplace : files.entryAt? place ≠ some .directory) (h : files.walk path names = .ok other) :
    (files.setEntry place entry).walk path names = .ok other := by
  unfold walk at h ⊢
  change names.foldlM _ (if path.startsWith "/" then [] else files.workingDirectory) = _
  generalize (if path.startsWith "/" then [] else files.workingDirectory) = start at h ⊢
  -- The induction is on the names that are left, from wherever they have led so far.
  induction names generalizing start with
  | nil => exact h
  | cons name names ih =>
    rw [List.foldlM_cons] at h ⊢
    cases hfollow : files.follow start name with
    | error reason =>
      rw [hfollow] at h
      cases h
    | ok next =>
      rw [hfollow] at h
      rw [follow_setEntry hplace hfollow]
      exact ih next h

/-- A file is written at the place that its path leads to, unless that is a directory. -/
theorem exists_of_write {path : Path} {content : ByteArray}
    (h : files.write path content = .ok after) :
    ∃ names place, namesIn path = .ok names ∧ path.endsWith "/" = false ∧
      files.walk path names = .ok place ∧ files.entryAt? place ≠ some .directory ∧
      after = files.setEntry place (.file content) := by
  unfold write at h
  -- One thing is checked after the other, and a write that succeeds has passed all the checks.
  cases hnames : namesIn path with
  | error reason =>
    rw [hnames] at h
    cases h
  | ok names =>
    rw [hnames] at h
    dsimp only [bind, Except.bind] at h
    split at h
    · split at h <;> cases h
    · rename_i hfile
      split at h
      · cases h
      · rename_i place hwalk
        split at h
        · cases h
        · rename_i hentry
          cases h
          exact ⟨names, place, rfl, by simpa using hfile, hwalk, hentry, rfl⟩

/-- The effect of writing a file: it is read back, and there is another entry at one place only, to
which its path leads. -/
structure Written (files : Files) (path : Path) (content : ByteArray) (after : Files) : Prop where
  read_eq : after.read path = .ok content
  others : ∃ place, files.resolve path = .ok place ∧
    ∀ other, other ≠ place → after.entryAt? other = files.entryAt? other

/-- **A file that is written is read back, and no other is changed.** -/
theorem written_of_write {path : Path} {content : ByteArray}
    (h : files.write path content = .ok after) : Written files path content after := by
  obtain ⟨names, place, hnames, hfile, hwalk, hentry, rfl⟩ := exists_of_write h
  have hplace : place ≠ [] := by
    rintro rfl
    exact hentry rfl
  -- The path leads to the same place in the old tree and in the new one.
  have hresolve : ∀ {tree : Files}, tree.walk path names = .ok place →
      tree.resolve path = .ok place := by
    intro tree htree
    rw [resolve, hnames]
    exact htree
  refine ⟨?_, place, hresolve hwalk, fun other hne => entryAt?_setEntry_of_ne hne⟩
  have hsame := hresolve (walk_setEntry (.file content) hentry hwalk)
  simp [read, Files.entry, hsame, entryAt?_setEntry_self hplace, hfile, bind, Except.bind, pure,
    Except.pure]

end SceneTracer.Files
