import VisualNovel.Store
import VisualNovel.Proofs.Listing

namespace VisualNovel.LocalStore

theorem autosaveKey_ne_unlockedKey : autosaveKey ≠ unlockedKey := by decide

-- The labels in the order of their first occurrence, behind those that are there.
def addLabel (labels : List String) (label : String) : List String :=
  if label ∈ labels then labels else labels ++ [label]

theorem unlock_eq (store : LocalStore) (label : String) :
    store.unlock label = { store with unlocked := addLabel store.unlocked label } := by
  unfold unlock addLabel
  split <;> rfl

theorem unlockAll_eq (store : LocalStore) (labels : List String) :
    store.unlockAll labels = { store with unlocked := labels.foldl addLabel store.unlocked } := by
  induction labels generalizing store with
  | nil => rfl
  | cons label rest ih =>
    change (store.unlock label).unlockAll rest = _
    rw [ih, unlock_eq]
    rfl

theorem nodup_addLabel {labels : List String} (unique : labels.Nodup) :
    (addLabel labels label).Nodup := by
  unfold addLabel
  split
  · exact unique
  · rename_i fresh
    refine List.nodup_append.2 ⟨unique, by simp, ?_⟩
    intro old member new isNew same
    exact fresh (by simpa [← List.mem_singleton.1 isNew, ← same] using member)

theorem nodup_addLabels {labels more : List String} (unique : labels.Nodup) :
    (more.foldl addLabel labels).Nodup := by
  induction more generalizing labels with
  | nil => exact unique
  | cons label rest ih => exact ih (nodup_addLabel unique)

theorem addLabels_of_nodup {labels more : List String} (unique : (labels ++ more).Nodup) :
    more.foldl addLabel labels = labels ++ more := by
  induction more generalizing labels with
  | nil => simp
  | cons label rest ih =>
    have fresh : label ∉ labels := fun member =>
      (List.nodup_append.1 unique).2.2 label member label (List.mem_cons_self ..) rfl
    have added : addLabel labels label = labels ++ [label] := by simp [addLabel, fresh]
    rw [List.foldl_cons, added, ih (by simpa using unique)]
    simp

theorem addLabels_eq_append (labels more : List String) :
    ∃ added, (∀ label ∈ added, label ∈ more) ∧ more.foldl addLabel labels = labels ++ added := by
  induction more generalizing labels with
  | nil => exact ⟨[], nofun, (List.append_nil labels).symm⟩
  | cons label rest ih =>
    obtain ⟨added, among, appended⟩ := ih (addLabel labels label)
    have among' : ∀ other ∈ added, other ∈ label :: rest := fun other member =>
      List.mem_cons_of_mem _ (among other member)
    rw [List.foldl_cons, appended]
    by_cases known : label ∈ labels
    · exact ⟨added, among', by rw [addLabel, if_pos known]⟩
    · refine ⟨label :: added, ?_, by rw [addLabel, if_neg known, List.append_assoc]; rfl⟩
      intro other member
      rcases List.mem_cons.1 member with rfl | inside
      · exact List.mem_cons_self ..
      · exact among' other inside

theorem unlockAll_eq_append (store : LocalStore) (labels : List String) :
    ∃ added, (∀ label ∈ added, label ∈ labels) ∧
      store.unlockAll labels = { store with unlocked := store.unlocked ++ added } := by
  obtain ⟨added, among, appended⟩ := addLabels_eq_append store.unlocked labels
  exact ⟨added, among, by rw [unlockAll_eq, appended]⟩

theorem set_of_ordinary (store : LocalStore) (notAutosave : key ≠ autosaveKey)
    (notUnlocked : key ≠ unlockedKey) (value : Value) :
    store.set key value = { store with ordinary := store.ordinary.insert key value } := by
  simp [set, notAutosave, notUnlocked]

theorem set_autosave (store : LocalStore) (value : Value) :
    store.set autosaveKey value = { store with autosave := value.text?.or store.autosave } := by
  cases value <;> simp [set, setAutosave, Value.text?]

def relabelled (old : List String) (value : Value) : List String :=
  match value with
  | .list entries => (entries.filterMap Value.text?).foldl addLabel []
  | _ => old

theorem set_unlocked (store : LocalStore) (value : Value) :
    store.set unlockedKey value = { store with unlocked := relabelled store.unlocked value } := by
  have reserved : unlockedKey ≠ autosaveKey := autosaveKey_ne_unlockedKey.symm
  cases value <;> simp [set, relabelled, reserved, unlockAll_eq]

theorem tidy_empty : empty.Tidy := ⟨rfl, rfl, List.nodup_nil⟩

theorem tidy_setAutosave {store : LocalStore} (tidy : store.Tidy) (label : String) :
    (store.setAutosave label).Tidy := tidy

theorem tidy_unlockAll {store : LocalStore} (tidy : store.Tidy) (labels : List String) :
    (store.unlockAll labels).Tidy := by
  rw [unlockAll_eq]
  exact ⟨tidy.1, tidy.2.1, nodup_addLabels tidy.2.2⟩

theorem nodup_relabelled (unique : old.Nodup) (value : Value) : (relabelled old value).Nodup := by
  cases value with
  | list entries => exact nodup_addLabels List.nodup_nil
  | bool b => exact unique
  | number x => exact unique
  | text s => exact unique

theorem tidy_set {store : LocalStore} (tidy : store.Tidy) (key : String) (value : Value) :
    (store.set key value).Tidy := by
  by_cases isAutosave : key = autosaveKey
  · subst isAutosave
    rw [set_autosave]
    exact tidy
  · by_cases isUnlocked : key = unlockedKey
    · subst isUnlocked
      rw [set_unlocked]
      exact ⟨tidy.1, tidy.2.1, nodup_relabelled tidy.2.2 value⟩
    · rw [set_of_ordinary store isAutosave isUnlocked]
      refine ⟨?_, ?_, tidy.2.2⟩
      · exact (Dict.get?_insert_of_ne _ _ (Ne.symm isAutosave)).trans tidy.1
      · exact (Dict.get?_insert_of_ne _ _ (Ne.symm isUnlocked)).trans tidy.2.1

theorem tidy_remove {store : LocalStore} (tidy : store.Tidy) (key : String) :
    (store.remove key).2.Tidy := by
  unfold remove
  split
  · exact tidy
  · split
    · exact ⟨tidy.1, tidy.2.1, List.nodup_nil⟩
    · refine ⟨?_, ?_, tidy.2.2⟩
      · rw [Dict.get?_erase, tidy.1, ite_self]
      · rw [Dict.get?_erase, tidy.2.1, ite_self]

theorem tidy_apply {store : LocalStore} (tidy : store.Tidy) (mutation : Mutation) :
    (mutation.apply store).store.Tidy := by
  have seeded : ∀ absent : Bool, (if absent then (store.set mutation.var
      ((store.get? mutation.var).getD .zero), notices mutation.var
      ((store.get? mutation.var).getD .zero)) else (store, [])).1.Tidy := by
    intro absent
    cases absent with
    | false => exact tidy
    | true => exact tidy_set tidy _ _
  have first := seeded (store.get? mutation.var).isNone
  unfold Mutation.apply
  dsimp only [Scope.read, Scope.write, Scope.erase, Scope.notices]
  split
  · exact first
  · exact tidy_remove first _
  · exact tidy_set first _ _

theorem tidy_ofEntries {store : LocalStore} (tidy : store.Tidy)
    (entries : List (String × Value)) :
    (entries.foldl (fun store binding => store.set binding.1 binding.2) store).Tidy := by
  induction entries generalizing store with
  | nil => exact tidy
  | cons head rest ih => exact ih (tidy_set tidy _ _)

theorem tidy_ofMap (map : ValueMap) : (ofMap map).Tidy := tidy_ofEntries tidy_empty _

theorem autosave_set_elsewhere (store : LocalStore) (different : key ≠ autosaveKey)
    (value : Value) : (store.set key value).autosave = store.autosave := by
  by_cases isUnlocked : key = unlockedKey
  · rw [isUnlocked, set_unlocked]
  · rw [set_of_ordinary store different isUnlocked]

theorem unlocked_set_elsewhere (store : LocalStore) (different : key ≠ unlockedKey)
    (value : Value) : (store.set key value).unlocked = store.unlocked := by
  by_cases isAutosave : key = autosaveKey
  · rw [isAutosave, set_autosave]
  · rw [set_of_ordinary store isAutosave different]

theorem ordinary_set_elsewhere (store : LocalStore) (different : written ≠ key) (value : Value) :
    (store.set written value).ordinary.get? key = store.ordinary.get? key := by
  by_cases isAutosave : written = autosaveKey
  · rw [isAutosave, set_autosave]
  · by_cases isUnlocked : written = unlockedKey
    · rw [isUnlocked, set_unlocked]
    · rw [set_of_ordinary store isAutosave isUnlocked]
      exact Dict.get?_insert_of_ne _ _ (Ne.symm different)

-- Entries in key order write what belongs to a key once at most.
theorem read_ofEntries (read : LocalStore → γ) (take : Value → γ → γ)
    (own : ∀ store value, read (store.set key value) = take value (read store))
    (elsewhere : ∀ store written value, written ≠ key →
      read (store.set written value) = read store)
    (sorted : Bindings.Increasing entries) (store : LocalStore) :
    read (entries.foldl (fun store binding => store.set binding.1 binding.2) store) =
      match Bindings.find? key entries with
      | some value => take value (read store)
      | none => read store := by
  induction entries generalizing store with
  | nil => rfl
  | cons head rest ih =>
    obtain ⟨written, value⟩ := head
    rw [List.foldl_cons, ih (List.pairwise_cons.1 sorted).2]
    by_cases same : written = key
    · subst same
      simp [Bindings.find?_tail sorted, own]
    · simp [Bindings.find?_cons, same, elsewhere store written value same]

theorem autosave_ofMap (map : ValueMap) :
    (ofMap map).autosave = (map.get? autosaveKey).bind Value.text? := by
  have own : ∀ (store : LocalStore) (value : Value),
      (store.set autosaveKey value).autosave = value.text?.or store.autosave := by
    intro store value
    rw [set_autosave]
  have elsewhere : ∀ (store : LocalStore) (written : String) (value : Value),
      written ≠ autosaveKey → (store.set written value).autosave = store.autosave := by
    intro store written value different
    exact autosave_set_elsewhere store different value
  have written := read_ofEntries (fun store => store.autosave)
    (fun value old => value.text?.or old) own elsewhere map.increasing empty
  refine written.trans ?_
  change _ = (Bindings.find? autosaveKey map.bindings).bind Value.text?
  cases Bindings.find? autosaveKey map.bindings with
  | none => rfl
  | some value => exact Option.or_none ..

theorem unlocked_ofMap (map : ValueMap) :
    (ofMap map).unlocked = ((map.get? unlockedKey).map (relabelled [])).getD [] := by
  have own : ∀ (store : LocalStore) (value : Value),
      (store.set unlockedKey value).unlocked = relabelled store.unlocked value := by
    intro store value
    rw [set_unlocked]
  have elsewhere : ∀ (store : LocalStore) (written : String) (value : Value),
      written ≠ unlockedKey → (store.set written value).unlocked = store.unlocked := by
    intro store written value different
    exact unlocked_set_elsewhere store different value
  have written := read_ofEntries (fun store => store.unlocked)
    (fun value old => relabelled old value) own elsewhere map.increasing empty
  refine written.trans ?_
  change _ = ((Bindings.find? unlockedKey map.bindings).map (relabelled [])).getD []
  cases Bindings.find? unlockedKey map.bindings <;> rfl

theorem ordinary_ofMap (map : ValueMap) (notAutosave : key ≠ autosaveKey)
    (notUnlocked : key ≠ unlockedKey) : (ofMap map).ordinary.get? key = map.get? key := by
  have own : ∀ (store : LocalStore) (value : Value),
      (store.set key value).ordinary.get? key = some value := by
    intro store value
    rw [set_of_ordinary store notAutosave notUnlocked]
    exact Dict.get?_insert_self ..
  have elsewhere : ∀ (store : LocalStore) (written : String) (value : Value), written ≠ key →
      (store.set written value).ordinary.get? key = store.ordinary.get? key := by
    intro store written value different
    exact ordinary_set_elsewhere store different value
  have written := read_ofEntries (fun store => store.ordinary.get? key)
    (fun value _ => some value) own elsewhere map.increasing empty
  refine written.trans ?_
  change _ = Bindings.find? key map.bindings
  cases Bindings.find? key map.bindings <;> rfl

theorem get?_insertSome (map : ValueMap) (key : String) (value : Option Value)
    (sought : String) :
    (insertSome map key value).get? sought =
      if sought = key then value.or (map.get? key) else map.get? sought := by
  cases value with
  | none =>
    by_cases asked : sought = key <;> simp [insertSome, asked]
  | some value =>
    by_cases asked : sought = key <;> simp [insertSome, Dict.get?_insert, asked]

theorem get?_toMap {store : LocalStore} (tidy : store.Tidy) (key : String) :
    store.toMap.get? key = store.get? key := by
  have reserved : unlockedKey ≠ autosaveKey := autosaveKey_ne_unlockedKey.symm
  obtain ⟨noAutosave, noUnlocked, -⟩ := tidy
  rw [toMap, get?_insertSome, get?_insertSome, get?_insertSome]
  unfold get?
  by_cases isAutosave : key = autosaveKey
  · subst isAutosave
    simp [autosaveKey_ne_unlockedKey, noAutosave]
  · by_cases isUnlocked : key = unlockedKey
    · subst isUnlocked
      simp [reserved, noUnlocked]
    · simp [isAutosave, isUnlocked]

theorem texts_map_text (labels : List String) :
    (labels.map Value.text).filterMap Value.text? = labels := by
  induction labels with
  | nil => rfl
  | cons label rest ih => simp [Value.text?, ih]

theorem relabelled_unlockedValue? (unique : labels.Nodup) :
    ((unlockedValue? labels).map (relabelled [])).getD [] = labels := by
  unfold unlockedValue?
  split
  · rename_i noLabels
    exact noLabels.symm
  · simp only [Option.map_some, Option.getD_some, relabelled, texts_map_text]
    exact addLabels_of_nodup (by simpa using unique)

theorem ofMap_toMap {store : LocalStore} (tidy : store.Tidy) : ofMap store.toMap = store := by
  have reserved : unlockedKey ≠ autosaveKey := autosaveKey_ne_unlockedKey.symm
  have ordinary : (ofMap store.toMap).ordinary = store.ordinary := by
    apply Dict.ext_get?
    intro key
    by_cases isAutosave : key = autosaveKey
    · rw [isAutosave, (tidy_ofMap _).1, tidy.1]
    · by_cases isUnlocked : key = unlockedKey
      · rw [isUnlocked, (tidy_ofMap _).2.1, tidy.2.1]
      · rw [ordinary_ofMap _ isAutosave isUnlocked, get?_toMap tidy]
        simp [get?, isAutosave, isUnlocked]
  have autosave : (ofMap store.toMap).autosave = store.autosave := by
    rw [autosave_ofMap, get?_toMap tidy, get?, if_pos rfl]
    cases store.autosave <;> rfl
  have unlocked : (ofMap store.toMap).unlocked = store.unlocked := by
    rw [unlocked_ofMap, get?_toMap tidy]
    simp only [get?, reserved, if_false, if_true]
    exact relabelled_unlockedValue? tidy.2.2
  cases store
  cases made : ofMap _
  simp_all

end VisualNovel.LocalStore
