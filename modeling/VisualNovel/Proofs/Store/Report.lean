import VisualNovel.Proofs.Store.Outcome

namespace VisualNovel

namespace LocalStore

-- How a key reads when a value was written to it, if it read `before`.
def readBack (key : String) (before : Option Value) (value : Value) : Option Value :=
  if key = autosaveKey then
    match value with
    | .text label => some (.text label)
    | _ => before
  else if key = unlockedKey then
    match value with
    | .list entries => unlockedValue? (labelsOf entries).eraseDups
    | _ => before
  else some value

-- The values that a key shows as they were written.
inductive Keeps (key : String) : Value → Prop where
  | ordinary (notAutosave : key ≠ autosaveKey) (notUnlocked : key ≠ unlockedKey) : Keeps key value
  | label (own : key = autosaveKey) : Keeps key (.text label)
  | labels (own : key = unlockedKey) (any : labels ≠ []) (unique : labels.Nodup) :
    Keeps key (.list (labels.map .text))

variable {store : LocalStore} {key : String} {value : Value}

theorem get?_set_self (store : LocalStore) (key : String) (value : Value) :
    (store.set key value).get? key = readBack key (store.get? key) value := by
  have reserved : unlockedKey ≠ autosaveKey := autosaveKey_ne_unlockedKey.symm
  by_cases isAutosave : key = autosaveKey
  · subst isAutosave
    rw [set_autosave]
    cases value <;> simp [readBack, get?, Value.text?]
  · by_cases isUnlocked : key = unlockedKey
    · subst isUnlocked
      rw [set_unlocked]
      cases value with
      | list entries => simp [readBack, get?, reserved, relabelled_list]
      | _ => simp [readBack, get?, reserved, relabelled]
    · rw [set_of_ordinary store isAutosave isUnlocked]
      simp [readBack, get?, isAutosave, isUnlocked]

theorem readBack_zero (key : String) (before : Option Value) (value : Value) :
    readBack key (readBack key before .zero) value = readBack key before value := by
  unfold readBack
  split
  · rfl
  · split <;> rfl

theorem get?_set_of_keeps (store : LocalStore) (keeps : Keeps key value) :
    (store.set key value).get? key = some value := by
  have reserved : unlockedKey ≠ autosaveKey := autosaveKey_ne_unlockedKey.symm
  cases keeps with
  | ordinary notAutosave notUnlocked => exact plain_locals notAutosave notUnlocked store value
  | label own =>
    subst own
    rw [set_autosave, get?, if_pos rfl]
    rfl
  | @labels labels own any unique =>
    subst own
    have same : relabelled store.unlocked (.list (labels.map .text)) = labels := by
      rw [relabelled, texts_map_text, addLabels_of_nodup (by simpa using unique), List.nil_append]
    rw [set_unlocked, same, get?, if_neg reserved, if_pos rfl, unlockedValue?_eq_some_iff]
    exact ⟨any, rfl⟩

theorem keeps_of_get?_set (shown : (store.set key value).get? key = some value) :
    Keeps key value := by
  have reserved : unlockedKey ≠ autosaveKey := autosaveKey_ne_unlockedKey.symm
  by_cases isAutosave : key = autosaveKey
  · subst isAutosave
    rw [set_autosave, get?, if_pos rfl] at shown
    obtain ⟨label, -, rfl⟩ := Option.map_eq_some_iff.1 shown
    exact .label rfl
  · by_cases isUnlocked : key = unlockedKey
    · subst isUnlocked
      rw [set_unlocked, get?, if_neg reserved, if_pos rfl, unlockedValue?_eq_some_iff] at shown
      obtain ⟨any, whole⟩ := shown
      cases value with
      | list entries =>
        rw [whole]
        exact .labels rfl any (nodup_addLabels List.nodup_nil)
      | _ => cases whole
    · exact .ordinary isAutosave isUnlocked

theorem labelsOf_texts {entries : List Value}
    (texts : ∀ entry ∈ entries, entry.text?.isSome = true) :
    (labelsOf entries).map .text = entries := by
  induction entries with
  | nil => rfl
  | cons entry rest ih =>
    obtain ⟨first, others⟩ := List.forall_mem_cons.1 texts
    cases entry with
    | text label => exact congrArg (List.cons (.text label)) (ih others)
    | _ => cases first

-- What is not kept is noticed, but for lists of labels.
theorem labels_of_unnoticed (misfit : ¬ Keeps key value) (silent : notices key value = []) :
    key = unlockedKey ∧ ∃ labels : List String,
      value = .list (labels.map .text) ∧ (labels = [] ∨ ¬ labels.Nodup) := by
  have reserved : unlockedKey ≠ autosaveKey := autosaveKey_ne_unlockedKey.symm
  by_cases isAutosave : key = autosaveKey
  · subst isAutosave
    cases value with
    | text label => exact absurd (.label rfl) misfit
    | _ => simp [notices] at silent
  · by_cases isUnlocked : key = unlockedKey
    · subst isUnlocked
      cases value with
      | list entries =>
        have texts : ∀ entry ∈ entries, entry.text?.isSome = true := by
          simpa [notices, reserved, Option.isSome_iff_ne_none] using silent
        have whole := congrArg Value.list (labelsOf_texts texts).symm
        refine ⟨rfl, labelsOf entries, whole, Decidable.or_iff_not_imp_left.2 ?_⟩
        intro any unique
        rw [whole] at misfit
        exact misfit (.labels rfl any unique)
      | _ => simp [notices, reserved] at silent
    · exact absurd (.ordinary isAutosave isUnlocked) misfit

end LocalStore

namespace Mutation

variable {σ : Type} [Scope σ] {mutation : Mutation} {value : Value}
  {previous result : Option Value}

theorem result_apply_eq_ok (store : σ) (mutation : Mutation) :
    (mutation.apply store).result = .ok (previous, result) ↔
      previous = Scope.read store mutation.var ∧
        mutation.next ((Scope.read store mutation.var).getD .zero) = .ok result := by
  rw [result_apply]
  cases mutation.next ((Scope.read store mutation.var).getD .zero) <;> simp [Except.map, eq_comm]

theorem notices_apply (store : σ)
    (made : mutation.next ((Scope.read store mutation.var).getD .zero) = .ok (some value)) :
    ∃ earlier, (mutation.apply store).notices = earlier ++ Scope.notices σ mutation.var value := by
  unfold apply
  dsimp only
  rw [made]
  exact ⟨_, rfl⟩

theorem readBack_seeded (store : LocalStore) (key : String) (value : Value) :
    LocalStore.readBack key ((seeded store key).get? key) value =
      LocalStore.readBack key (store.get? key) value := by
  unfold seeded
  split
  · change LocalStore.readBack key ((store.set key .zero).get? key) value = _
    rw [LocalStore.get?_set_self, LocalStore.readBack_zero]
  · rfl

structure ReportedLocal (mutation : Mutation) (store : LocalStore) (previous next : Option Value) :
    Prop where
  before : previous = store.get? mutation.var
  after : (mutation.apply store).store.get? mutation.var =
    next.bind (LocalStore.readBack mutation.var previous)
  true_iff : (mutation.apply store).store.get? mutation.var = next ↔
    ∀ value ∈ next, LocalStore.Keeps mutation.var value
  unnoticed (untrue : (mutation.apply store).store.get? mutation.var ≠ next)
    (silent : (mutation.apply store).notices = []) :
    mutation.var = unlockedKey ∧ ∃ labels : List String,
      next = some (.list (labels.map .text)) ∧ (labels = [] ∨ ¬ labels.Nodup)

theorem reportedLocal (store : LocalStore)
    (succeeds : (mutation.apply store).result = .ok (previous, result)) :
    mutation.ReportedLocal store previous result := by
  obtain ⟨rfl, made⟩ := (result_apply_eq_ok store mutation).1 succeeds
  cases result with
  | none =>
    have erased : (mutation.apply store).store.get? mutation.var = none := by
      rw [store_apply, made]
      exact LocalStore.get?_remove_self _ _
    exact {
      before := rfl
      after := erased
      true_iff := ⟨fun _ => nofun, fun _ => erased⟩
      unnoticed := fun untrue _ => absurd erased untrue }
  | some value =>
    have written : (mutation.apply store).store.get? mutation.var =
        ((seeded store mutation.var).set mutation.var value).get? mutation.var := by
      rw [store_apply, made]
      rfl
    have kept : (mutation.apply store).store.get? mutation.var = some value ↔
        LocalStore.Keeps mutation.var value := by
      rw [written]
      exact ⟨LocalStore.keeps_of_get?_set, LocalStore.get?_set_of_keeps _⟩
    have unnoticed (untrue : (mutation.apply store).store.get? mutation.var ≠ some value)
        (silent : (mutation.apply store).notices = []) :
        mutation.var = unlockedKey ∧ ∃ labels : List String,
          some value = some (.list (labels.map .text)) ∧ (labels = [] ∨ ¬ labels.Nodup) := by
      obtain ⟨earlier, noticed⟩ := notices_apply store made
      have own := (List.append_eq_nil_iff.1 (noticed.symm.trans silent)).2
      simpa using LocalStore.labels_of_unnoticed (mt kept.2 untrue) own
    exact {
      before := rfl
      after := by
        rw [written, LocalStore.get?_set_self, readBack_seeded]
        rfl
      true_iff := kept.trans (by simp)
      unnoticed := unnoticed }

theorem report_true_iff_kept (mutation : Mutation) :
    (∀ (map : ValueMap) previous next, (mutation.apply map).result = .ok (previous, next) →
      previous = map.get? mutation.var ∧ (mutation.apply map).store.get? mutation.var = next) ∧
    ∀ (store : LocalStore) previous next, (mutation.apply store).result = .ok (previous, next) →
      mutation.ReportedLocal store previous next := by
  refine ⟨fun map previous next succeeds => ?_, fun store previous next => reportedLocal store⟩
  obtain ⟨before, made⟩ := (result_apply_eq_ok map mutation).1 succeeds
  exact ⟨before, (reads_apply (plain_map _) map).made next (next_eq_ok_iff.1 made)⟩

-- A longer autosave label is kept; a flag in its place is kept among the globals only.
theorem report_true_iff_kept_at_autosave :
    let store : LocalStore := ⟨.empty, some "home", []⟩
    let longer : Mutation := ⟨.increment, autosaveKey, some (.text "2")⟩
    let flag : Mutation := ⟨.modify, autosaveKey, some (.bool true)⟩
    ((longer.apply store).result = .ok (some (.text "home"), some (.text "home2")) ∧
      (longer.apply store).store.get? autosaveKey = some (.text "home2")) ∧
    ((flag.apply store).result = .ok (some (.text "home"), some (.bool true)) ∧
      (flag.apply store).store.get? autosaveKey = some (.text "home")) ∧
    (flag.apply (Dict.empty : ValueMap)).result = .ok (none, some (.bool true)) ∧
      (flag.apply (Dict.empty : ValueMap)).store.get? autosaveKey = some (.bool true) := by
  intro store longer flag
  refine ⟨⟨rfl, ?_⟩, ⟨rfl, ?_⟩, rfl, ?_⟩
  · refine ((report_true_iff_kept longer).2 store _ _ rfl).true_iff.2 fun value member => ?_
    cases member
    exact .label rfl
  · exact ((report_true_iff_kept flag).2 store _ _ rfl).after
  · exact ((report_true_iff_kept flag).1 .empty none _ rfl).2

-- A list that names a label twice is reported as it was asked for, but holds the label once.
theorem repeated_label_misreported :
    ¬ ∀ (mutation : Mutation) (store : LocalStore) labels, store.Reached labels →
      ∀ previous next, (mutation.apply store).result = .ok (previous, next) →
        previous = store.get? mutation.var ∧
          (mutation.apply store).store.get? mutation.var = next := by
  intro claimed
  let twice : Mutation := ⟨.modify, unlockedKey, some (.list [.text "a", .text "a"])⟩
  have told := claimed twice _ _ (.change .empty (.unlock "b")) (some (.list [.text "b"])) _ rfl
  exact absurd told.2 (by decide)

end Mutation

end VisualNovel
