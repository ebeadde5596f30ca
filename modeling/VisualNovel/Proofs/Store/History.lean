import VisualNovel.Proofs.Store.OneMap
import VisualNovel.Playback.Operation

namespace VisualNovel

namespace LocalStore

inductive Change where
  | set (key : String) (value : Value)
  | remove (key : String)
  | setAutosave (label : String)
  | unlock (label : String)

def Change.perform (store : LocalStore) : Change → LocalStore
  | .set key value => store.set key value
  | .remove key => (store.remove key).2
  | .setAutosave label => store.setAutosave label
  | .unlock label => store.unlock label

def labelsOf (entries : List Value) : List String := entries.filterMap Value.text?

def labelsIn : Option Value → List String
  | some (.list entries) => labelsOf entries
  | _ => []

-- The labels unlocked since the list was last replaced, repetitions included.
def Change.unlocks (labels : List String) : Change → List String
  | .set key (.list entries) => if key = unlockedKey then labelsOf entries else labels
  | .set _ _ => labels
  | .remove key => if key = unlockedKey then [] else labels
  | .setAutosave _ => labels
  | .unlock label => labels ++ [label]

-- The stores that there can be, with the labels that were unlocked in them.
inductive Reached : LocalStore → List String → Prop where
  | empty : Reached .empty []
  | ofMap (map : ValueMap) : Reached (.ofMap map) (labelsIn (map.get? unlockedKey))
  | change (reached : Reached store labels) (change : Change) :
      Reached (change.perform store) (change.unlocks labels)

variable {store : LocalStore} {labels : List String} {map : ValueMap} {key label : String}

theorem remove_fst (store : LocalStore) (key : String) :
    (store.remove key).1 = store.get? key := by
  unfold remove get?
  split
  · rfl
  · split <;> rfl

theorem get?_remove_self (store : LocalStore) (key : String) :
    (store.remove key).2.get? key = none := by
  unfold remove get?
  split
  · rfl
  · split
    · rfl
    · rw [Dict.get?_erase, if_pos rfl]

theorem get?_remove_of_ne (store : LocalStore) (different : sought ≠ key) :
    (store.remove key).2.get? sought = store.get? sought := by
  unfold remove
  split
  · rename_i isAutosave
    have other : sought ≠ autosaveKey := isAutosave ▸ different
    rw [get?, get?, if_neg other, if_neg other]
  · split
    · rename_i isUnlocked
      have other : sought ≠ unlockedKey := isUnlocked ▸ different
      rw [get?, get?, if_neg other, if_neg other]
    · rw [get?, get?, Dict.get?_erase, if_neg different]

theorem get?_set_of_ne (store : LocalStore) (different : sought ≠ key) (value : Value) :
    (store.set key value).get? sought = store.get? sought := by
  have kept := ordinary_set_elsewhere store (Ne.symm different) value
  unfold get?
  split
  · rename_i isAutosave
    rw [autosave_set_elsewhere store (isAutosave ▸ Ne.symm different)]
  · split
    · rename_i isUnlocked
      rw [unlocked_set_elsewhere store (isUnlocked ▸ Ne.symm different)]
    · exact kept

theorem get?_setAutosave_of_ne (store : LocalStore) (different : key ≠ autosaveKey)
    (label : String) : (store.setAutosave label).get? key = store.get? key := by
  simp [get?, setAutosave, different]

theorem get?_unlockAll_of_ne (store : LocalStore) (different : key ≠ unlockedKey)
    (labels : List String) : (store.unlockAll labels).get? key = store.get? key := by
  simp [get?, unlockAll_eq, different]

theorem addLabel_eraseDups (labels : List String) (label : String) :
    addLabel labels.eraseDups label = (labels ++ [label]).eraseDups := by
  rw [List.eraseDups_append, addLabel]
  by_cases known : label ∈ labels
  · simp [known, List.removeAll]
  · have fresh : [label].removeAll labels = [label] := by simp [known, List.removeAll]
    rw [fresh, if_neg (mt List.mem_eraseDups.1 known)]
    rfl

theorem addLabels_eraseDups (labels more : List String) :
    more.foldl addLabel labels.eraseDups = (labels ++ more).eraseDups := by
  induction more generalizing labels with
  | nil => simp
  | cons label rest ih =>
    rw [List.foldl_cons, addLabel_eraseDups, ih, List.append_assoc, List.singleton_append]

theorem relabelled_list (old : List String) (entries : List Value) :
    relabelled old (.list entries) = (labelsOf entries).eraseDups :=
  addLabels_eraseDups [] (labelsOf entries)

theorem Reached.tidy (reached : Reached store labels) : store.Tidy := by
  induction reached with
  | empty => exact tidy_empty
  | ofMap map => exact tidy_ofMap map
  | @change store labels reached change ih =>
    cases change with
    | set key value => exact tidy_set ih key value
    | remove key => exact tidy_remove ih key
    | setAutosave label => exact tidy_setAutosave ih label
    | unlock label => exact tidy_unlockAll ih [label]

theorem unlocked_set (known : store.unlocked = labels.eraseDups) (key : String) (value : Value) :
    (store.set key value).unlocked = ((Change.set key value).unlocks labels).eraseDups := by
  by_cases isUnlocked : key = unlockedKey
  · subst isUnlocked
    rw [set_unlocked]
    cases value with
    | list entries => simp only [Change.unlocks, if_true, relabelled_list]
    | bool b => exact known
    | number x => exact known
    | text s => exact known
  · rw [unlocked_set_elsewhere store isUnlocked, known]
    cases value <;> simp only [Change.unlocks, isUnlocked, if_false]

theorem unlocked_remove (known : store.unlocked = labels.eraseDups) (key : String) :
    (store.remove key).2.unlocked = ((Change.remove key).unlocks labels).eraseDups := by
  have reserved : unlockedKey ≠ autosaveKey := autosaveKey_ne_unlockedKey.symm
  rw [Change.unlocks]
  by_cases isUnlocked : key = unlockedKey
  · subst isUnlocked
    simp [remove, reserved]
  · unfold remove
    split
    · simpa [isUnlocked] using known
    · simpa [isUnlocked] using known

-- Every label stands where it was unlocked first.
theorem Reached.unlocked_eq (reached : Reached store labels) :
    store.unlocked = labels.eraseDups := by
  induction reached with
  | empty => rfl
  | ofMap map =>
    rw [unlocked_ofMap]
    cases map.get? unlockedKey with
    | none => rfl
    | some value =>
      cases value with
      | list entries => exact relabelled_list [] entries
      | bool b => rfl
      | number x => rfl
      | text s => rfl
  | change reached change ih =>
    cases change with
    | set key value => exact unlocked_set ih key value
    | remove key => exact unlocked_remove ih key
    | setAutosave label => exact ih
    | unlock label =>
      rw [Change.perform, unlock_eq, Change.unlocks, ← addLabel_eraseDups, ← ih]

theorem unlock_unlock (store : LocalStore) (label : String) :
    (store.unlock label).unlock label = store.unlock label := by
  have unlocked : label ∈ (store.unlock label).unlocked := by
    rw [unlock_eq]
    unfold addLabel
    split <;> simp_all
  exact if_pos unlocked

theorem get?_toMap_ofMap (map : ValueMap) (notAutosave : key ≠ autosaveKey)
    (notUnlocked : key ≠ unlockedKey) : (ofMap map).toMap.get? key = map.get? key := by
  rw [get?_toMap (tidy_ofMap map), get?, if_neg notAutosave, if_neg notUnlocked,
    ordinary_ofMap map notAutosave notUnlocked]

theorem autosave_toMap_ofMap (map : ValueMap) (value : Value) :
    (ofMap map).toMap.get? autosaveKey = some value ↔
      ∃ label, map.get? autosaveKey = some (.text label) ∧ value = .text label := by
  rw [get?_toMap (tidy_ofMap map), get?, if_pos rfl, autosave_ofMap]
  cases map.get? autosaveKey with
  | none => simp
  | some own => cases own <;> simp [Value.text?, eq_comm]

theorem unlockedValue?_eq_some_iff {labels : List String} {value : Value} :
    unlockedValue? labels = some value ↔ labels ≠ [] ∧ value = .list (labels.map .text) := by
  unfold unlockedValue?
  split
  · simp_all
  · simp_all [eq_comm]

theorem eraseDups_eq_nil_iff {labels : List String} : labels.eraseDups = [] ↔ labels = [] := by
  cases labels with
  | nil => simp
  | cons label rest => simp [List.eraseDups_cons]

theorem unlocked_toMap_ofMap (map : ValueMap) (value : Value) :
    (ofMap map).toMap.get? unlockedKey = some value ↔ ∃ entries,
      map.get? unlockedKey = some (.list entries) ∧ labelsOf entries ≠ [] ∧
        value = .list ((labelsOf entries).eraseDups.map .text) := by
  have reserved : unlockedKey ≠ autosaveKey := autosaveKey_ne_unlockedKey.symm
  rw [get?_toMap (tidy_ofMap map), get?, if_neg reserved, if_pos rfl,
    (Reached.ofMap map).unlocked_eq, unlockedValue?_eq_some_iff, ne_eq, eraseDups_eq_nil_iff]
  cases map.get? unlockedKey with
  | none => simp [labelsIn]
  | some own => cases own <;> simp [labelsIn]

-- The store is the map that it shows, changed one key at a time.
structure ReadsAsMap (store : LocalStore) : Prop where
  shown (key : String) : store.get? key = store.toMap.get? key
  removed (key : String) : (store.remove key).1 = store.get? key
  gone (key : String) : (store.remove key).2.get? key = none
  othersRemoved (key : String) : ∀ other ≠ key, (store.remove key).2.get? other = store.get? other
  othersSet (key : String) (value : Value) :
    ∀ other ≠ key, (store.set key value).get? other = store.get? other
  again : ofMap store.toMap = store
  deleted (m : Machine) (own : m.stores.locals = store) (key : String) :
    m.deleteVariable key = (m.withLocals (store.remove key).2).shown [] (store.remove key).1

theorem readsAsMap (tidy : store.Tidy) : ReadsAsMap store where
  shown key := (get?_toMap tidy key).symm
  removed := remove_fst store
  gone := get?_remove_self store
  othersRemoved _ _ different := get?_remove_of_ne store different
  othersSet _ value _ different := get?_set_of_ne store different value
  again := ofMap_toMap tidy
  deleted _ own _ := own ▸ rfl

-- What is left of a map that was taken in and is shown again.
structure ShowsAgain (map again : ValueMap) : Prop where
  ordinary (key : String) (notAutosave : key ≠ autosaveKey) (notUnlocked : key ≠ unlockedKey) :
    again.get? key = map.get? key
  autosave (value : Value) : again.get? autosaveKey = some value ↔
    ∃ label, map.get? autosaveKey = some (.text label) ∧ value = .text label
  unlocked (value : Value) : again.get? unlockedKey = some value ↔
    ∃ entries, map.get? unlockedKey = some (.list entries) ∧ labelsOf entries ≠ [] ∧
      value = .list ((labelsOf entries).eraseDups.map .text)
  settled : (ofMap again).toMap = again

theorem reads_as_one_map :
    (∀ store labels, Reached store labels → ReadsAsMap store ∧ store.unlocked.Nodup ∧
      store.unlocked = labels.eraseDups ∧
      ∀ label, (store.unlock label).unlock label = store.unlock label) ∧
    ∀ map : ValueMap, ShowsAgain map (ofMap map).toMap := by
  refine ⟨fun store labels reached => ?_, fun map => ?_⟩
  · exact ⟨readsAsMap reached.tidy, reached.tidy.2.2, reached.unlocked_eq, unlock_unlock store⟩
  · exact {
      ordinary := fun key => get?_toMap_ofMap map
      autosave := autosave_toMap_ofMap map
      unlocked := unlocked_toMap_ofMap map
      settled := by rw [ofMap_toMap (tidy_ofMap map)] }

-- Two labels, the first of them unlocked twice.
theorem reads_as_one_map_after_unlocks : ∃ store, Reached store ["b", "a", "b"] ∧
    store.unlocked = ["b", "a"] ∧
    (store.remove unlockedKey).1 = some (.list [.text "b", .text "a"]) ∧
    ofMap store.toMap = store := by
  have reached := ((Reached.empty.change (.unlock "b")).change (.unlock "a")).change (.unlock "b")
  obtain ⟨asMap, -, labels, -⟩ := reads_as_one_map.1 _ _ reached
  exact ⟨_, reached, labels.trans (by decide), (asMap.removed _).trans (by decide), asMap.again⟩

end LocalStore

end VisualNovel
