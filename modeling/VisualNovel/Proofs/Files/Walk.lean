import VisualNovel.Proofs.Files.WriteLook
import VisualNovel.Proofs.Listing

namespace VisualNovel

namespace FileTree

-- Induction on a tree, with the hypothesis for everything that a directory names.
theorem byEntries {motive : FileTree → Prop} (file : ∀ content, motive (.file content))
    (directory : ∀ entries, (∀ name child, (name, child) ∈ entries → motive child) →
      motive (.directory entries)) : ∀ tree, motive tree
  | .file content => file content
  | .directory entries => directory entries (named entries)
where
  named : (entries : List (String × FileTree)) →
      ∀ name child, (name, child) ∈ entries → motive child
    | [], _, _, member => by cases member
    | (first, tree) :: rest, name, child, member => by
      rcases List.mem_cons.1 member with same | inside
      · cases same
        exact byEntries file directory tree
      · exact named rest name child inside

def IsPlain (name : String) : Prop :=
  Path.isIdle name = false ∧ name ≠ ".." ∧ '/' ∉ name.toList

structure WellNamed (entries : List (String × FileTree)) : Prop where
  plain : ∀ entry ∈ entries, IsPlain entry.1
  once : (entries.map Prod.fst).Nodup

def Proper (tree : FileTree) : Prop :=
  ∀ place sub, tree.get? place = some sub → WellNamed sub.entries

instance : Decidable (IsPlain name) :=
  inferInstanceAs (Decidable (Path.isIdle name = false ∧ name ≠ ".." ∧ '/' ∉ name.toList))

instance (entries : List (String × FileTree)) : Decidable (WellNamed entries) :=
  decidable_of_iff ((∀ entry ∈ entries, IsPlain entry.1) ∧ (entries.map Prod.fst).Nodup)
    ⟨fun ⟨plain, once⟩ => ⟨plain, once⟩, fun ⟨plain, once⟩ => ⟨plain, once⟩⟩

theorem Proper.named {entries : List (String × FileTree)}
    (proper : (FileTree.directory entries).Proper) : WellNamed entries := proper [] _ rfl

theorem Proper.get? {tree sub : FileTree} (proper : tree.Proper)
    (found : tree.get? place = some sub) : sub.Proper := by
  intro more below got
  exact proper (place ++ more) below (by rw [get?_append, found]; exact got)

theorem Proper.child {entries : List (String × FileTree)} {child : FileTree}
    (proper : (FileTree.directory entries).Proper) (member : (name, child) ∈ entries) :
    child.Proper := by
  have found : (FileTree.directory entries).get? [name] = some child := by
    rw [get?_cons]
    have once := proper.named.once
    exact congrArg (·.bind (FileTree.get? [])) (Bindings.find?_of_mem_once once member)
  exact proper.get? found

theorem walkEntries_eq (base : Place) (entries : List (String × FileTree)) :
    walkEntries base entries = entries.flatMap fun entry => walk (base ++ [entry.1]) entry.2 := by
  induction entries with
  | nil => rfl
  | cons head rest ih => rw [walkEntries, ih, List.flatMap_cons]

theorem mem_walk_directory {base : Place} {entries : List (String × FileTree)} :
    found ∈ walk base (.directory entries) ↔ found = (base, .directory entries) ∨
      ∃ name child, (name, child) ∈ entries ∧ found ∈ walk (base ++ [name]) child := by
  rw [walk, List.mem_cons, walkEntries_eq, List.mem_flatMap]
  simp only [Prod.exists]

theorem mem_walk_self (base : Place) (tree : FileTree) : (base, tree) ∈ walk base tree := by
  cases tree <;> simp [walk]

theorem get?_cons_eq_some {tree sub : FileTree} (found : tree.get? (name :: rest) = some sub) :
    ∃ entries child, tree = .directory entries ∧ Bindings.find? name entries = some child ∧
      child.get? rest = some sub := by
  obtain ⟨child, named, below⟩ := Option.bind_eq_some_iff.1 found
  cases tree with
  | file content => cases named
  | directory entries => exact ⟨entries, child, rfl, named, below⟩

theorem mem_walk_of_get? {tree sub : FileTree} (found : tree.get? place = some sub) (base : Place) :
    (base ++ place, sub) ∈ walk base tree := by
  induction place generalizing tree base with
  | nil =>
    cases found
    rw [List.append_nil]
    exact mem_walk_self ..
  | cons name rest ih =>
    obtain ⟨entries, child, rfl, named, below⟩ := get?_cons_eq_some found
    have further := ih below (base ++ [name])
    rw [List.append_assoc, List.singleton_append] at further
    exact mem_walk_directory.2 (.inr ⟨name, child, Bindings.mem_of_find? named, further⟩)

theorem get?_of_mem_walk {tree : FileTree} (proper : tree.Proper) (base : Place)
    (member : (asked, sub) ∈ walk base tree) :
    ∃ place, asked = base ++ place ∧ tree.get? place = some sub := by
  induction tree using byEntries generalizing base with
  | file content =>
    cases List.mem_singleton.1 member
    exact ⟨[], (List.append_nil _).symm, rfl⟩
  | directory entries ih =>
    rcases mem_walk_directory.1 member with same | ⟨name, child, among, inside⟩
    · cases same
      exact ⟨[], (List.append_nil _).symm, rfl⟩
    · obtain ⟨place, rfl, found⟩ := ih name child among (proper.child among) (base ++ [name]) inside
      refine ⟨name :: place, by simp, ?_⟩
      rw [get?_cons]
      have named := Bindings.find?_of_mem_once proper.named.once among
      exact Option.bind_eq_some_iff.2 ⟨child, named, found⟩

theorem mem_walk {tree : FileTree} (proper : tree.Proper) :
    (place, sub) ∈ tree.walk [] ↔ tree.get? place = some sub := by
  constructor
  · intro member
    obtain ⟨same, rfl, found⟩ := get?_of_mem_walk proper [] member
    exact found
  · intro found
    exact mem_walk_of_get? found []

theorem prefix_of_mem_walk {base : Place} {tree : FileTree}
    (member : found ∈ walk base tree) : base <+: found.1 := by
  induction tree using byEntries generalizing base with
  | file content =>
    cases List.mem_singleton.1 member
    exact List.prefix_rfl
  | directory entries ih =>
    rcases mem_walk_directory.1 member with rfl | ⟨name, child, among, inside⟩
    · exact List.prefix_rfl
    · exact (List.prefix_append base [name]).trans (ih name child among inside)

theorem eq_of_prefixes {base place : Place} (first : base ++ [a] <+: place)
    (second : base ++ [b] <+: place) : a = b := by
  have same := (List.prefix_of_prefix_length_le first second (by simp)).eq_of_length (by simp)
  exact List.singleton_inj.1 (List.append_cancel_left same)

theorem nodup_walk {tree : FileTree} (proper : tree.Proper) (base : Place) :
    ((tree.walk base).map Prod.fst).Nodup := by
  induction tree using byEntries generalizing base with
  | file content => exact List.pairwise_singleton ..
  | directory entries ih =>
    rw [walk, walkEntries_eq, List.map_cons, List.nodup_cons, List.map_flatMap]
    constructor
    · intro member
      obtain ⟨entry, among, inside⟩ := List.mem_flatMap.1 member
      obtain ⟨found, walked, same⟩ := List.mem_map.1 inside
      have longer := (prefix_of_mem_walk walked).length_le
      rw [same, List.length_append, List.length_singleton] at longer
      exact absurd longer (Nat.not_succ_le_self _)
    · refine List.pairwise_flatMap.2 ⟨fun entry among => ?_, ?_⟩
      · exact ih entry.1 entry.2 among (proper.child among) (base ++ [entry.1])
      · refine (List.pairwise_map.1 proper.named.once).imp ?_
        rintro one other different asked here again there rfl
        obtain ⟨found, walked, rfl⟩ := List.mem_map.1 here
        obtain ⟨other, later, same⟩ := List.mem_map.1 there
        exact different (eq_of_prefixes (prefix_of_mem_walk walked)
          (same ▸ prefix_of_mem_walk later))

theorem proper_iff {tree : FileTree} :
    tree.Proper ↔ ∀ found ∈ tree.walk [], WellNamed found.2.entries := by
  constructor
  · rintro proper ⟨place, sub⟩ member
    exact proper place sub ((mem_walk proper).1 member)
  · intro all place sub found
    exact all _ (mem_walk_of_get? found [])

instance (tree : FileTree) : Decidable tree.Proper := decidable_of_iff _ proper_iff.symm

theorem mem_files {tree : FileTree} (proper : tree.Proper) :
    (place, content) ∈ tree.files ↔ tree.get? place = some (.file content) := by
  simp only [files, List.mem_filterMap, Option.map_eq_some_iff]
  constructor
  · rintro ⟨⟨asked, sub⟩, walked, held, inside, same⟩
    cases same
    cases sub with
    | directory entries => cases inside
    | file content =>
      cases inside
      exact (mem_walk proper).1 walked
  · intro found
    exact ⟨(place, .file content), (mem_walk proper).2 found, content, rfl, rfl⟩

theorem nodup_files {tree : FileTree} (proper : tree.Proper) :
    (tree.files.map Prod.fst).Nodup := by
  have walked := List.pairwise_map.1 (nodup_walk proper [])
  refine List.pairwise_map.2 (List.Pairwise.filterMap _ ?_ walked)
  intro one other different file here again there
  obtain ⟨content, -, rfl⟩ := Option.map_eq_some_iff.1 here
  obtain ⟨content, -, rfl⟩ := Option.map_eq_some_iff.1 there
  exact different

end FileTree

namespace Disk

open FileTree

variable {disk : Disk}

def treeAt? (disk : Disk) (path : String) : Option FileTree :=
  (disk.locate path).bind fun place => disk.tree.get? place

-- Where the names of the path lead, whether the path can be asked for or is too long.
structure Leads (disk : Disk) (path : String) (place : Place) : Prop where
  named : path ≠ ""
  follows : follow disk.tree (disk.origin path) (Path.names path) = some place

theorem locate_eq_some : disk.locate path = some place ↔
    disk.Leads path place ∧ Path.isAllowed path = true := by
  unfold locate
  split
  · rename_i refused
    refine ⟨nofun, ?_⟩
    rintro ⟨⟨named, -⟩, allowed⟩
    simp [named, allowed] at refused
  · rename_i asked
    simp only [Bool.or_eq_true, decide_eq_true_eq, Bool.not_eq_true', not_or,
      Bool.not_eq_false] at asked
    exact ⟨fun led => ⟨⟨asked.1, led⟩, asked.2⟩, fun leads => leads.1.follows⟩

theorem follow_append (tree : FileTree) (place : Place) (first second : List String) :
    follow tree place (first ++ second) =
      (follow tree place first).bind fun reached => follow tree reached second := by
  induction first generalizing place with
  | nil => rfl
  | cons name rest ih =>
    rw [List.cons_append, follow, follow]
    split
    · rfl
    · split
      · exact ih place
      · split
        · exact ih place.dropLast
        · split
          · exact ih (place ++ [name])
          · rfl

theorem follow_plain {tree : FileTree} (plain : IsPlain name)
    (here : tree.isDirectoryAt place = true)
    (there : (tree.get? (place ++ [name])).isSome = true) :
    follow tree place [name] = some (place ++ [name]) := by
  simp [follow, here, there, plain.1, plain.2.1]

-- The empty name behind a closing mark only asks for a directory.
theorem eq_of_follow_empty {tree : FileTree} (stays : follow tree reached [""] = some place) :
    reached = place := by
  unfold follow at stays
  split at stays
  · cases stays
  · exact Option.some.inj stays

theorem Leads.join (leads : disk.Leads base place) (plain : IsPlain name)
    (here : disk.tree.isDirectoryAt place = true)
    (there : (disk.tree.get? (place ++ [name])).isSome = true) :
    disk.Leads (Path.join base name) (place ++ [name]) := by
  obtain ⟨named, follows⟩ := leads
  have onward := follow_plain plain here there
  have origin : disk.origin (Path.join base name) = disk.origin base := by
    rw [Disk.origin, Path.isAbsolute_join_plain plain.2.2 named, Disk.origin]
  refine ⟨?_, ?_⟩
  · intro empty
    have last := Path.lastName_join plain.2.2 base
    rw [empty] at last
    exact absurd plain.1 (by simp [← last, Path.lastName, Path.names, Path.isIdle])
  · rw [origin]
    rcases Path.names_join plain.2.2 base with ⟨front, own, joined⟩ | joined
    · rw [own, follow_append] at follows
      obtain ⟨reached, before, stays⟩ := Option.bind_eq_some_iff.1 follows
      have same : reached = place := eq_of_follow_empty stays
      rw [joined, follow_append, before, same]
      exact onward
    · rw [joined, follow_append, follows]
      exact onward

end Disk

end VisualNovel
