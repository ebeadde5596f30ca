import VisualNovel.Proofs.Files.Names

namespace VisualNovel

namespace FileTree

theorem get?_append (tree : FileTree) (place more : Place) :
    tree.get? (place ++ more) = (tree.get? place).bind (get? more) := by
  induction place generalizing tree with
  | nil => rfl
  | cons name rest ih =>
    rw [List.cons_append, get?_cons, get?_cons]
    cases Bindings.find? name tree.entries with
    | none => rfl
    | some child => exact ih child

theorem isDirectoryAt_iff {tree : FileTree} :
    tree.isDirectoryAt place = true ↔ ∃ entries, tree.get? place = some (.directory entries) := by
  unfold isDirectoryAt
  cases tree.get? place with
  | none => simp
  | some found => cases found <;> simp [isDirectory]

theorem isDirectoryAt_of_append {tree : FileTree}
    (under : tree.isDirectoryAt (place ++ more) = true) : tree.isDirectoryAt place = true := by
  obtain ⟨entries, found⟩ := isDirectoryAt_iff.1 under
  rw [get?_append] at found
  obtain ⟨above, here, below⟩ := Option.bind_eq_some_iff.1 found
  cases above with
  | directory entries => exact isDirectoryAt_iff.2 ⟨entries, here⟩
  | file content => cases more <;> cases below

theorem isDirectoryAt_dropLast {tree : FileTree} (here : tree.isDirectoryAt place = true) :
    tree.isDirectoryAt place.dropLast = true := by
  rcases List.eq_nil_or_concat place with rfl | ⟨front, name, rfl⟩
  · exact here
  · rw [List.concat_eq_append] at here ⊢
    rw [List.dropLast_concat]
    exact isDirectoryAt_of_append here

-- Elsewhere a change leaves directories and files as they are.
theorem put_elsewhere {tree : FileTree} (parent : tree.isDirectoryAt place = true)
    (elsewhere : ¬ place ++ [name] <+: asked) (new : FileTree) :
    (tree.put (place ++ [name]) new).isDirectoryAt asked = tree.isDirectoryAt asked ∧
      (tree.put (place ++ [name]) new).contentAt asked = tree.contentAt asked := by
  induction place generalizing tree asked with
  | nil =>
    obtain ⟨held, isTree⟩ := isDirectoryAt_iff.1 parent
    cases Option.some.inj isTree
    cases asked with
    | nil => exact ⟨rfl, rfl⟩
    | cons first rest =>
      have other : first ≠ name := by
        rintro rfl
        exact elsewhere (by simp)
      simp [put, isDirectoryAt, contentAt, get?_cons, FileTree.entries, Bindings.find?_put,
        other]
  | cons head place ih =>
    rw [isDirectoryAt, get?_cons] at parent
    cases found : Bindings.find? head tree.entries with
    | none => rw [found] at parent; cases parent
    | some child =>
      rw [found] at parent
      cases tree with
      | file content => cases found
      | directory entries =>
        have into : Bindings.find? head entries = some child := found
        cases asked with
        | nil => exact ⟨rfl, rfl⟩
        -- Below the same name the change goes on; below another one nothing is touched.
        | cons first rest =>
          by_cases same : first = head
          · subst same
            have below := ih parent (fun further => elsewhere (by simpa using further))
            simpa [put, isDirectoryAt, contentAt, get?_cons, FileTree.entries,
              Bindings.find?_put, into] using below
          · simp [put, isDirectoryAt, contentAt, get?_cons, FileTree.entries,
              Bindings.find?_put, same]

def KeepsDirectories (old new : FileTree) : Prop :=
  ∀ place, old.isDirectoryAt place = true → new.isDirectoryAt place = true

def KeepsFiles (old new : FileTree) : Prop :=
  ∀ place content, old.contentAt place = some content → new.contentAt place = some content

theorem keepsDirectories_put {tree : FileTree} (parent : tree.isDirectoryAt place = true)
    (free : tree.isDirectoryAt (place ++ [name]) = false) (new : FileTree) :
    KeepsDirectories tree (tree.put (place ++ [name]) new) := by
  intro asked directory
  by_cases inside : place ++ [name] <+: asked
  · obtain ⟨more, rfl⟩ := inside
    exact absurd (isDirectoryAt_of_append directory) (by simp [free])
  · rwa [(put_elsewhere parent inside new).1]

theorem contentAt_under {tree : FileTree} (free : tree.isDirectoryAt place = false) (name : String)
    (more : Place) : tree.contentAt (place ++ name :: more) = none := by
  rw [contentAt, get?_append]
  cases found : tree.get? place with
  | none => rfl
  | some held =>
    cases held with
    | file content => rfl
    | directory entries => rw [isDirectoryAt_iff.2 ⟨entries, found⟩] at free; cases free

theorem contentAt_put {tree new : FileTree} (parent : tree.isDirectoryAt place = true)
    (free : tree.isDirectoryAt (place ++ [name]) = false) (bare : new.entries = [])
    (other : asked ≠ place ++ [name]) :
    (tree.put (place ++ [name]) new).contentAt asked = tree.contentAt asked := by
  by_cases inside : place ++ [name] <+: asked
  · obtain ⟨more, rfl⟩ := inside
    cases more with
    | nil => exact absurd (List.append_nil _) other
    | cons first more =>
      rw [contentAt_under free, contentAt, get?_append, get?_put_self, Option.bind_some, get?_cons,
        bare]
      rfl
  · exact (put_elsewhere parent inside new).2

theorem contentAt_put_empty {tree : FileTree} (parent : tree.isDirectoryAt place = true)
    (free : tree.get? (place ++ [name]) = none) (asked : Place) :
    (tree.put (place ++ [name]) .empty).contentAt asked = tree.contentAt asked := by
  by_cases here : asked = place ++ [name]
  · simp [here, contentAt, free, content?, FileTree.empty]
  · exact contentAt_put parent (by simp [isDirectoryAt, free]) rfl here

end FileTree

namespace Disk

open FileTree

-- One step for each name; a name that is new becomes a directory.
theorem prepare_keeps {tree : FileTree} (here : tree.isDirectoryAt place = true)
    (prepared : prepare tree place names = (after, reached)) :
    KeepsDirectories tree after ∧ (∀ asked, after.contentAt asked = tree.contentAt asked) ∧
      ∀ stop, reached = some stop → after.isDirectoryAt stop = true := by
  induction names generalizing tree place with
  | nil =>
    cases prepared
    exact ⟨fun _ => id, fun _ => rfl, fun stop same => Option.some.inj same ▸ here⟩
  | cons name rest ih =>
    unfold prepare at prepared
    split at prepared
    · exact ih (isDirectoryAt_dropLast here) prepared
    · dsimp only at prepared
      split at prepared
      · rename_i entries found
        exact ih (isDirectoryAt_iff.2 ⟨entries, found⟩) prepared
      · cases prepared
        exact ⟨fun _ => id, fun _ => rfl, nofun⟩
      · rename_i free
        split at prepared
        · have made : (tree.put (place ++ [name]) .empty).isDirectoryAt (place ++ [name]) =
              true := by
            simp [isDirectoryAt, FileTree.empty, isDirectory]
          obtain ⟨directories, files, ends⟩ := ih made prepared
          have noDirectory : tree.isDirectoryAt (place ++ [name]) = false := by
            simp [isDirectoryAt, free]
          refine ⟨?_, ?_, ends⟩
          · intro asked old
            exact directories asked (keepsDirectories_put here noDirectory _ asked old)
          · intro asked
            exact (files asked).trans (contentAt_put_empty here free asked)
        · cases prepared
          exact ⟨fun _ => id, fun _ => rfl, nofun⟩

-- Either way a name is that of a directory before what is behind it is prepared.
theorem prepare_enters {tree : FileTree} (down : name ≠ "..")
    (prepared : prepare tree place (name :: rest) = (after, some stop)) :
    ∃ entered : FileTree, entered.isDirectoryAt (place ++ [name]) = true ∧
      prepare entered (place ++ [name]) rest = (after, some stop) := by
  rw [prepare, if_neg down] at prepared
  dsimp only at prepared
  split at prepared
  · rename_i entries found
    exact ⟨tree, isDirectoryAt_iff.2 ⟨entries, found⟩, prepared⟩
  · cases prepared
  · split at prepared
    · refine ⟨_, ?_, prepared⟩
      simp [isDirectoryAt, FileTree.empty, isDirectory]
    · cases prepared

theorem follow_prepared {tree : FileTree} (here : tree.isDirectoryAt place = true)
    (prepared : prepare tree place (names.filter fun name => !Path.isIdle name) =
      (after, some stop)) (kept : KeepsDirectories after final) (more : List String) :
    follow final place (names ++ more) = follow final stop more := by
  induction names generalizing tree place with
  | nil =>
    cases prepared
    rfl
  | cons name rest ih =>
    obtain ⟨directories, -, -⟩ := prepare_keeps here prepared
    have there : final.isDirectoryAt place = true := kept place (directories place here)
    rw [List.cons_append, follow]
    simp only [there, Bool.not_true, Bool.false_eq_true, if_false]
    by_cases idle : Path.isIdle name = true
    · rw [List.filter_cons_of_neg (by simp [idle])] at prepared
      rw [if_pos idle]
      exact ih here prepared
    · rw [List.filter_cons_of_pos (by simp [idle])] at prepared
      rw [if_neg idle]
      by_cases up : name = ".."
      · rw [prepare, if_pos up] at prepared
        rw [if_pos up]
        exact ih (isDirectoryAt_dropLast here) prepared
      · obtain ⟨entered, directory, further⟩ := prepare_enters up prepared
        obtain ⟨directories, -, -⟩ := prepare_keeps directory further
        obtain ⟨entries, found⟩ := isDirectoryAt_iff.1 (kept _ (directories _ directory))
        rw [if_neg up, found, if_pos (by rfl)]
        exact ih directory further

variable {disk after : Disk} {path text : String}

theorem isDirectoryAt_origin (here : disk.tree.isDirectoryAt disk.here = true) (path : String) :
    disk.tree.isDirectoryAt (disk.origin path) = true := by
  unfold origin
  split
  · exact isDirectoryAt_of_append (show disk.tree.isDirectoryAt ([] ++ disk.here) = true from here)
  · exact here

theorem locate_put {tree : FileTree} (here : disk.tree.isDirectoryAt disk.here = true)
    (prepared : prepare disk.tree (disk.origin path) (Path.steps (Path.parent path)) =
      (tree, some place))
    (inBounds : Path.isAllowed path = true) (named : Path.isName (Path.lastName path) = true)
    (free : tree.isDirectoryAt (place ++ [Path.lastName path]) = false) (text : String) :
    (⟨tree.put (place ++ [Path.lastName path]) (.file (.text text)), disk.here⟩ : Disk).locate
      path = some (place ++ [Path.lastName path]) := by
  obtain ⟨-, -, ends⟩ := prepare_keeps (isDirectoryAt_origin here path) prepared
  have parent := ends place rfl
  have kept := keepsDirectories_put parent free (.file (.text text))
  obtain ⟨front, whole, steps⟩ := Path.names_eq named
  rw [steps] at prepared
  have noPath : path ≠ "" := by
    rintro rfl
    exact absurd named (by decide)
  have led := follow_prepared (isDirectoryAt_origin here path) prepared kept [Path.lastName path]
  have solid := Path.isIdle_of_isName named
  have noUp : Path.lastName path ≠ ".." := by
    simp only [Path.isName, Bool.and_eq_true, decide_eq_true_eq] at named
    exact named.1.2
  have arrives : follow (tree.put (place ++ [Path.lastName path]) (.file (.text text))) place
      [Path.lastName path] = some (place ++ [Path.lastName path]) := by
    simp [follow, kept place parent, solid, noUp]
  simp only [locate, noPath, inBounds, decide_false, Bool.not_true, Bool.or_self,
    Bool.false_eq_true, if_false]
  rw [show (⟨tree.put (place ++ [Path.lastName path]) (.file (.text text)), disk.here⟩ :
    Disk).origin path = disk.origin path from rfl, whole, led, arrives]

-- The path leads to the text, and what any other file holds is as it was.
structure Holds (before after : Disk) (path text : String) (place : Place) : Prop where
  located : after.locate path = some place
  found : after.tree.get? place = some (.file (.text text))
  elsewhere : ∀ other, other ≠ place → after.tree.contentAt other = before.tree.contentAt other

-- How a write ends: with the file at its place, or with no more than directories on the way.
theorem write_cases (here : disk.tree.isDirectoryAt disk.here = true)
    (written : disk.write path text = (after, done)) :
    after.here = disk.here ∧ KeepsDirectories disk.tree after.tree ∧
      if done then ∃ place, Holds disk after path text place
      else ∀ place, after.tree.contentAt place = disk.tree.contentAt place := by
  unfold write at written
  split at written
  · cases written
    exact ⟨rfl, fun _ => id, fun _ => rfl⟩
  · split at written
    · rename_i tree prepared
      cases written
      obtain ⟨directories, files, -⟩ := prepare_keeps (isDirectoryAt_origin here path) prepared
      exact ⟨rfl, directories, files⟩
    · rename_i tree place prepared
      obtain ⟨directories, files, ends⟩ := prepare_keeps (isDirectoryAt_origin here path) prepared
      have parent := ends place rfl
      dsimp only at written
      split at written
      · rename_i allowed
        cases written
        simp only [Bool.and_eq_true, Bool.not_eq_true'] at allowed
        obtain ⟨⟨inBounds, named⟩, free⟩ := allowed
        refine ⟨rfl, ?_, _, locate_put here prepared inBounds named free text,
          FileTree.get?_put_self .., ?_⟩
        · intro asked old
          exact keepsDirectories_put parent free _ asked (directories asked old)
        · intro asked other
          exact (contentAt_put parent free rfl other).trans (files asked)
      · cases written
        exact ⟨rfl, directories, files⟩

theorem done_write (disk : Disk) (path text other : String) :
    (disk.write path text).2 = (disk.write path other).2 := by
  unfold write
  split
  · rfl
  · split
    · rfl
    · dsimp only
      split <;> rfl

theorem holds_of_write (here : disk.tree.isDirectoryAt disk.here = true)
    (written : disk.write path text = (after, true)) : ∃ place, Holds disk after path text place :=
  (write_cases here written).2.2

theorem Holds.look (holds : Holds before after path text place) : after.look path = .text text := by
  simp [Disk.look, holds.located, holds.found, entryOf]

theorem look_write (here : disk.tree.isDirectoryAt disk.here = true)
    (written : disk.write path text = (after, true)) : after.look path = .text text := by
  obtain ⟨place, holds⟩ := holds_of_write here written
  exact holds.look

theorem isDirectoryAt_here_write (here : disk.tree.isDirectoryAt disk.here = true)
    (written : disk.write path text = (after, done)) :
    after.tree.isDirectoryAt after.here = true := by
  obtain ⟨same, directories, -⟩ := write_cases here written
  rw [same]
  exact directories _ here

theorem isSome_get?_kept {old new : FileTree} (directories : KeepsDirectories old new)
    (files : KeepsFiles old new) (there : (old.get? place).isSome = true) :
    (new.get? place).isSome = true := by
  obtain ⟨found, known⟩ := Option.isSome_iff_exists.1 there
  cases found with
  | directory entries =>
    have directory := directories place (isDirectoryAt_iff.2 ⟨entries, known⟩)
    obtain ⟨entries, found⟩ := isDirectoryAt_iff.1 directory
    simp [found]
  | file content =>
    have file := files place content (by simp [contentAt, known, content?])
    rw [contentAt] at file
    obtain ⟨kept, isThere, -⟩ := Option.bind_eq_some_iff.1 file
    simp [isThere]

theorem follow_kept {old new : FileTree} (directories : KeepsDirectories old new)
    (files : KeepsFiles old new) (led : follow old place names = some stop) :
    follow new place names = some stop := by
  induction names generalizing place with
  | nil => exact led
  | cons name rest ih =>
    unfold follow at led ⊢
    by_cases directory : old.isDirectoryAt place = true
    · simp only [directory, directories place directory, Bool.not_true, Bool.false_eq_true,
        if_false] at led ⊢
      split at led
      · rename_i idle
        rw [if_pos idle]
        exact ih led
      · rename_i solid
        rw [if_neg solid]
        split at led
        · rename_i up
          rw [if_pos up]
          exact ih led
        · rename_i noUp
          rw [if_neg noUp]
          split at led
          · rename_i there
            have still := isSome_get?_kept directories files there
            rw [if_pos still]
            exact ih led
          · cases led
    · simp [directory] at led

theorem entryOf_eq_text {found : Option FileTree} :
    entryOf found = .text seen ↔ found.bind content? = some (.text seen) := by
  cases found with
  | none => simp [entryOf]
  | some tree =>
    cases tree with
    | directory entries => simp [entryOf, content?]
    | file content => cases content <;> simp [entryOf, content?]

theorem look_of_failed (here : disk.tree.isDirectoryAt disk.here = true)
    (failed : disk.write path text = (after, false)) (found : disk.look other = .text seen) :
    after.look other = .text seen := by
  obtain ⟨same, directories, files⟩ := write_cases here failed
  have kept : KeepsFiles disk.tree after.tree := fun place _ old => (files place).trans old
  unfold look locate at found ⊢
  split at found
  · cases found
  · rename_i asked
    rw [if_neg asked]
    have origin : after.origin other = disk.origin other := by simp [Disk.origin, same]
    rw [origin]
    cases led : follow disk.tree (disk.origin other) (Path.names other) with
    | none => rw [led] at found; cases found
    | some place =>
      rw [led] at found
      rw [follow_kept directories kept led]
      have content : disk.tree.contentAt place = some (.text seen) := entryOf_eq_text.1 found
      exact entryOf_eq_text.2 (kept place _ content)

end Disk

end VisualNovel
