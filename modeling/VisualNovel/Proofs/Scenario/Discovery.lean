import VisualNovel.Scenario.Source
import VisualNovel.Proofs.Files.Walk

namespace VisualNovel.Scenario

open FileTree (IsPlain)

-- Paths are ordered by their names, from the first name on in which they differ.
def NamesBefore : List String → List String → Prop := List.Lex (· < ·)

theorem placeBefore_iff {first second : Place} :
    placeBefore first second = true ↔ first = second ∨ NamesBefore first second := by
  induction first generalizing second with
  | nil => cases second <;> simp [placeBefore, NamesBefore]
  | cons a as ih =>
    cases second with
    | nil => simp [placeBefore, NamesBefore]
    | cons b bs =>
      rw [placeBefore, NamesBefore, List.cons_lex_cons_iff]
      by_cases same : a = b
      · subst same
        simp [ih, NamesBefore]
      · simp [same]

theorem NamesBefore.trans (earlier : NamesBefore a b) (later : NamesBefore b c) :
    NamesBefore a c := List.lt_trans earlier later

theorem NamesBefore.irrefl (names : List String) : ¬ NamesBefore names names :=
  List.lt_irrefl names

theorem NamesBefore.append_left (before : NamesBefore a b) (front : List String) :
    NamesBefore (front ++ a) (front ++ b) := List.append_left_lt before

theorem placeBefore_total (first second : Place) :
    (placeBefore first second || placeBefore second first) = true := by
  induction first generalizing second with
  | nil => simp [placeBefore]
  | cons a as ih =>
    cases second with
    | nil => simp [placeBefore]
    | cons b bs =>
      rw [placeBefore, placeBefore]
      by_cases same : a = b
      · simpa [same] using ih bs
      · by_cases before : a < b
        · simp [same, before]
        · have after := Bindings.lt_of_not_lt_of_ne before same
          simp [same, Ne.symm same, after]

theorem placeBefore_trans {a b c : Place} (earlier : placeBefore a b = true)
    (later : placeBefore b c = true) : placeBefore a c = true := by
  rw [placeBefore_iff] at earlier later ⊢
  rcases earlier with rfl | earlier
  · exact later
  · rcases later with rfl | later
    · exact .inr earlier
    · exact .inr (earlier.trans later)

theorem plain_of_get? {tree : FileTree} (proper : tree.Proper)
    (found : tree.get? place = some sub) : ∀ name ∈ place, IsPlain name := by
  induction place generalizing tree with
  | nil => exact fun _ => nofun
  | cons name rest ih =>
    obtain ⟨entries, child, rfl, named, below⟩ := FileTree.get?_cons_eq_some found
    have among := Bindings.mem_of_find? named
    exact List.forall_mem_cons.2 ⟨proper.named.plain _ among, ih (proper.child among) below⟩

theorem steps_pathOf (plain : ∀ name ∈ place, IsPlain name) (root : String) :
    Path.steps (pathOf root place) = Path.steps root ++ place := by
  induction place generalizing root with
  | nil => exact (List.append_nil _).symm
  | cons name rest ih =>
    obtain ⟨here, further⟩ := List.forall_mem_cons.1 plain
    change Path.steps (pathOf (Path.join root name) rest) = _
    rw [ih further, Path.steps_join here.2.2 here.1, List.append_assoc, List.singleton_append]

theorem lastName_pathOf (plain : ∀ name ∈ place, IsPlain name) (root : String) :
    Path.lastName (pathOf root place) = place.getLast?.getD (Path.lastName root) := by
  rcases List.eq_nil_or_concat place with rfl | ⟨front, name, rfl⟩
  · rfl
  · rw [List.concat_eq_append] at plain ⊢
    have last := plain name (List.mem_append_right _ (List.mem_singleton_self name))
    rw [pathOf, List.foldl_append, List.foldl_cons, List.foldl_nil, Path.lastName_join last.2.2]
    simp

theorem leads_pathOf {disk : Disk} {tree : FileTree} (leads : disk.Leads root base)
    (under : disk.tree.get? base = some tree) (proper : tree.Proper)
    (found : tree.get? place = some sub) : disk.Leads (pathOf root place) (base ++ place) := by
  induction place generalizing root base tree with
  | nil =>
    rw [List.append_nil]
    exact leads
  | cons name rest ih =>
    obtain ⟨entries, child, rfl, named, below⟩ := FileTree.get?_cons_eq_some found
    have among := Bindings.mem_of_find? named
    have there : disk.tree.get? (base ++ [name]) = some child := by
      rw [FileTree.get?_append, under, Option.bind_some, FileTree.get?_cons, FileTree.entries, named]
      rfl
    have onward := leads.join (proper.named.plain _ among)
      (FileTree.isDirectoryAt_iff.2 ⟨entries, under⟩) (by rw [there]; rfl)
    have further := ih onward there (proper.child among) below
    rwa [List.append_assoc, List.singleton_append] at further

-- Every directory under the root can be asked for what it holds.
def Readable (root : String) (tree : FileTree) : Prop :=
  ∀ place sub, tree.get? place = some sub → sub.isDirectory = true →
    Path.isAllowed (pathOf root place) = true

theorem readable_of_walk {tree : FileTree} (asked : ∀ found ∈ tree.walk [],
    found.2.isDirectory = true → Path.isAllowed (pathOf root found.1) = true) :
    Readable root tree :=
  fun _ _ found directory => asked _ (FileTree.mem_walk_of_get? found []) directory

-- A file at a place under the root that is called as scenarios are.
structure CaseAt (disk : Disk) (root : String) (place : Place) : Prop where
  file : ∃ content, (disk.treeAt? root).bind (FileTree.get? place) = some (.file content)
  named : Path.lastName (pathOf root place) = fileName

variable {disk : Disk} {tree : FileTree} {root : String}

theorem Readable.above (readable : Readable root tree) (asked : Path.isAllowed root = true)
    (found : tree.get? place = some sub) :
    Path.isAllowed (pathOf root place.dropLast) = true := by
  rcases List.eq_nil_or_concat place with rfl | ⟨front, name, rfl⟩
  · exact asked
  · rw [List.concat_eq_append, FileTree.get?_append] at found
    obtain ⟨above, here, below⟩ := Option.bind_eq_some_iff.1 found
    rw [List.concat_eq_append, List.dropLast_concat]
    cases above with
    | file content => cases below
    | directory entries => exact readable front _ here rfl

theorem CaseAt.get? (isCase : CaseAt disk root place) (found : disk.treeAt? root = some tree) :
    ∃ content, tree.get? place = some (.file content) := by
  obtain ⟨content, held⟩ := isCase.file
  rw [found] at held
  exact ⟨content, held⟩

theorem leads_of_treeAt? (found : disk.treeAt? root = some tree) :
    ∃ base, disk.Leads root base ∧ disk.tree.get? base = some tree ∧
      Path.isAllowed root = true := by
  obtain ⟨base, located, here⟩ := Option.bind_eq_some_iff.1 found
  obtain ⟨leads, allowed⟩ := Disk.locate_eq_some.1 located
  exact ⟨base, leads, here, allowed⟩

theorem mem_placesUnder (found : disk.treeAt? root = some tree) (proper : tree.Proper)
    (readable : Readable root tree) :
    place ∈ placesUnder root tree ↔ CaseAt disk root place := by
  obtain ⟨-, -, -, asked⟩ := leads_of_treeAt? found
  rw [placesUnder, List.mem_mergeSort]
  simp only [List.mem_map, List.mem_filter, Prod.exists, exists_and_right, exists_eq_right,
    FileTree.mem_files proper]
  constructor
  · rintro ⟨content, here, isCase⟩
    refine ⟨⟨content, by rw [found]; exact here⟩, ?_⟩
    rw [lastName_pathOf (plain_of_get? proper here)]
    simp only [Scenario.isCase, Bool.and_eq_true, decide_eq_true_eq] at isCase
    exact isCase.1
  · intro isCase
    obtain ⟨content, here⟩ := isCase.get? found
    have named := isCase.named
    refine ⟨content, here, ?_⟩
    rw [lastName_pathOf (plain_of_get? proper here)] at named
    simp [Scenario.isCase, named, readable.above asked here]

theorem increasing_placesUnder (proper : tree.Proper) (root : String) :
    (placesUnder root tree).Pairwise NamesBefore := by
  have sorted : (placesUnder root tree).Pairwise (placeBefore · · = true) := by
    apply List.pairwise_mergeSort
    · exact fun a b c => placeBefore_trans
    · exact placeBefore_total
  have once : (placesUnder root tree).Nodup := by
    refine (List.mergeSort_perm _ _).nodup_iff.2 ?_
    exact (FileTree.nodup_files proper).sublist (List.filter_sublist.map _)
  refine (sorted.and once).imp ?_
  rintro a b ⟨before, different⟩
  exact (placeBefore_iff.1 before).resolve_left different

theorem discover_cases (disk : Disk) (root : String) :
    (discover disk root = .error (.noCases root) ∧
      ∀ tree, disk.treeAt? root = some tree → placesUnder root tree = []) ∨
    ∃ tree, disk.treeAt? root = some tree ∧ placesUnder root tree ≠ [] ∧
      discover disk root = .ok ((placesUnder root tree).map (pathOf root)) := by
  cases found : disk.treeAt? root with
  | none =>
    refine .inl ⟨?_, fun tree held => by cases held⟩
    rw [Disk.treeAt?] at found
    simp [discover, found]
  | some tree =>
    rw [Disk.treeAt?] at found
    cases places : placesUnder root tree with
    | nil =>
      refine .inl ⟨by simp [discover, found, places], fun other held => ?_⟩
      cases held
      exact places
    | cons first rest =>
      exact .inr ⟨tree, rfl, by simp [places], by simp [discover, found, places]⟩

theorem increasing_steps (found : disk.treeAt? root = some tree) (proper : tree.Proper)
    (readable : Readable root tree) :
    (((placesUnder root tree).map (pathOf root)).map Path.steps).Pairwise NamesBefore := by
  have behind : ((placesUnder root tree).map (pathOf root)).map Path.steps =
      (placesUnder root tree).map (Path.steps root ++ ·) := by
    rw [List.map_map]
    refine List.map_congr_left fun place member => ?_
    obtain ⟨content, here⟩ := ((mem_placesUnder found proper readable).1 member).get? found
    exact steps_pathOf (plain_of_get? proper here) root
  rw [behind, List.pairwise_map]
  exact (increasing_placesUnder proper root).imp (NamesBefore.append_left · _)

theorem treeAt?_pathOf (found : disk.treeAt? root = some tree) (proper : tree.Proper)
    (here : tree.get? place = some sub) (allowed : Path.isAllowed (pathOf root place) = true) :
    disk.treeAt? (pathOf root place) = some sub := by
  obtain ⟨base, leads, under, -⟩ := leads_of_treeAt? found
  have located := Disk.locate_eq_some.2 ⟨leads_pathOf leads under proper here, allowed⟩
  rw [Disk.treeAt?, located, Option.bind_some, FileTree.get?_append, under]
  exact here

theorem discover_lists_cases (disk : Disk) (root : String)
    (proper : ∀ tree, disk.treeAt? root = some tree → tree.Proper)
    (readable : ∀ tree, disk.treeAt? root = some tree → Readable root tree) :
    (∀ paths, discover disk root = .ok paths →
      (∀ path, path ∈ paths ↔ ∃ place, CaseAt disk root place ∧ path = pathOf root place) ∧
      (paths.map Path.steps).Pairwise NamesBefore ∧ paths.Nodup ∧
      ∀ path ∈ paths, Path.isAllowed path = true →
        ∃ content, disk.treeAt? path = some (.file content)) ∧
    ∀ failure, discover disk root = .error failure ↔
      failure = .noCases root ∧ ∀ place, ¬ CaseAt disk root place := by
  rcases discover_cases disk root with ⟨failed, nowhere⟩ | ⟨tree, found, nonempty, listed⟩
  · have noCase : ∀ place, ¬ CaseAt disk root place := by
      intro place isCase
      obtain ⟨content, held⟩ := isCase.file
      obtain ⟨tree, found, -⟩ := Option.bind_eq_some_iff.1 held
      have member :=
        (mem_placesUnder found (proper tree found) (readable tree found)).2 isCase
      rw [nowhere tree found] at member
      cases member
    rw [failed]
    constructor
    · intro paths reached
      cases reached
    · intro failure
      simp [noCase, eq_comm]
  · have exactly : ∀ place, place ∈ placesUnder root tree ↔ CaseAt disk root place :=
      fun _ => mem_placesUnder found (proper tree found) (readable tree found)
    have ordered := increasing_steps found (proper tree found) (readable tree found)
    rw [listed]
    constructor
    · intro paths reached
      cases reached
      refine ⟨?_, ordered, ?_, ?_⟩
      · intro path
        simp only [List.mem_map, exactly, eq_comm]
      · refine (List.pairwise_map.1 ordered).imp ?_
        rintro one other before rfl
        exact NamesBefore.irrefl _ before
      · intro path member allowed
        obtain ⟨place, isPlace, rfl⟩ := List.mem_map.1 member
        obtain ⟨content, here⟩ := ((exactly place).1 isPlace).get? found
        exact ⟨content, treeAt?_pathOf found (proper tree found) here allowed⟩
    · intro failure
      constructor
      · intro refused
        cases refused
      · rintro ⟨-, noCase⟩
        obtain ⟨place, member⟩ := List.exists_mem_of_ne_nil _ nonempty
        exact absurd ((exactly place).1 member) (noCase place)

-- Scenarios at two depths, a directory with the longer name of another, and one called as a scenario.
def shelf : FileTree := .directory
  [("a-b", .directory [(fileName, .file .bytes)]),
    ("a", .directory [("b", .directory [(fileName, .file .bytes)]), (fileName, .file .bytes)]),
    (fileName, .directory [("notes", .file .bytes)])]

def shelfDisk : Disk := ⟨.directory [("w", shelf)], []⟩

theorem discover_lists_cases_on_shelf :
    ∃ paths, discover shelfDisk "w" = .ok paths ∧ "w/a/testcase.json" ∈ paths ∧
      "w/a-b/testcase.json" ∈ paths ∧ "w/testcase.json" ∉ paths ∧
      (paths.map Path.steps).Pairwise NamesBefore := by
  have proper : shelf.Proper := by decide +kernel
  have readable : Readable "w" shelf := readable_of_walk (by decide +kernel)
  have onDisk : ∀ tree, shelfDisk.treeAt? "w" = some tree → tree = shelf := by
    rintro tree same
    exact (Option.some.inj same).symm
  obtain ⟨lists, fails⟩ := discover_lists_cases shelfDisk "w"
    (fun tree found => onDisk tree found ▸ proper) (fun tree found => onDisk tree found ▸ readable)
  have inA : CaseAt shelfDisk "w" ["a", fileName] := ⟨⟨.bytes, rfl⟩, by decide⟩
  have inAB : CaseAt shelfDisk "w" ["a-b", fileName] := ⟨⟨.bytes, rfl⟩, by decide⟩
  cases outcome : discover shelfDisk "w" with
  | error failure => exact absurd inA (((fails failure).1 outcome).2 _)
  | ok paths =>
    obtain ⟨exactly, ordered, -, files⟩ := lists paths outcome
    refine ⟨paths, rfl, (exactly _).2 ⟨_, inA, by decide⟩, (exactly _).2 ⟨_, inAB, by decide⟩, ?_,
      ordered⟩
    intro listed
    obtain ⟨content, file⟩ := files _ listed (by decide)
    cases file

end VisualNovel.Scenario
