import VisualNovel.Proofs.Store.History

namespace VisualNovel

class LawfulScope (σ : Type) [Scope σ] : Prop where
  read_write_of_ne (store : σ) (value : Value) :
    other ≠ key → Scope.read (Scope.write store key value) other = Scope.read store other
  read_erase_of_ne (store : σ) :
    other ≠ key → Scope.read (Scope.erase store key) other = Scope.read store other
  read_erase (store : σ) (key : String) : Scope.read (Scope.erase store key) key = none

instance : LawfulScope ValueMap where
  read_write_of_ne store value different := Dict.get?_insert_of_ne store value different
  read_erase_of_ne store different := (Dict.get?_erase store _ _).trans (if_neg different)
  read_erase store key := (Dict.get?_erase store key key).trans (if_pos rfl)

instance : LawfulScope LocalStore where
  read_write_of_ne store value different := store.get?_set_of_ne different value
  read_erase_of_ne store different := store.get?_remove_of_ne different
  read_erase := LocalStore.get?_remove_self

def Scope.Plain (σ : Type) [Scope σ] (key : String) : Prop :=
  ∀ (store : σ) (value : Value), Scope.read (Scope.write store key value) key = some value

theorem plain_map (key : String) : Scope.Plain ValueMap key :=
  fun map value => Dict.get?_insert_self map key value

theorem plain_locals (notAutosave : key ≠ autosaveKey) (notUnlocked : key ≠ unlockedKey) :
    Scope.Plain LocalStore key := by
  intro store value
  change (store.set key value).get? key = some value
  rw [LocalStore.set_of_ordinary store notAutosave notUnlocked, LocalStore.get?,
    if_neg notAutosave, if_neg notUnlocked, Dict.get?_insert_self]

namespace Mutation

-- What a mutation makes of the current value; nothing if it removes the variable.
inductive Gives (mutation : Mutation) (current : Value) : Option Value → Prop where
  | given (action : mutation.action = .modify) : Gives mutation current mutation.value
  | sum (action : mutation.action = .increment) (left : current = .number x)
      (right : mutation.value = some (.number y)) : Gives mutation current (some (.number (x + y)))
  | joined (action : mutation.action = .increment) (right : mutation.value = some amount)
      (text : (∃ s, current = .text s) ∨ ∃ s, amount = .text s) :
      Gives mutation current (some (.text (current.spoken ++ amount.spoken)))
  | difference (action : mutation.action = .subtract) (left : current = .number x)
      (right : mutation.value = some (.number y)) : Gives mutation current (some (.number (x - y)))

variable {σ : Type} [Scope σ] {mutation : Mutation} {current : Value} {result : Option Value}

theorem add_eq_ok_iff {amount sum : Value} : current.add amount = .ok sum ↔
    (∃ x y, current = .number x ∧ amount = .number y ∧ sum = .number (x + y)) ∨
      ((∃ s, current = .text s) ∨ ∃ s, amount = .text s) ∧
        sum = .text (current.spoken ++ amount.spoken) := by
  cases current <;> cases amount <;> simp [Value.add, eq_comm]

theorem subtract_eq_ok_iff {amount difference : Value} :
    current.subtract amount = .ok difference ↔
      ∃ x y, current = .number x ∧ amount = .number y ∧ difference = .number (x - y) := by
  cases current <;> cases amount <;> simp [Value.subtract, eq_comm]

theorem map_some_eq_ok_iff {made : Except MutationFailure Value} :
    made.map some = .ok result ↔ ∃ value, made = .ok value ∧ result = some value := by
  cases made <;> simp [Except.map, eq_comm]

theorem next_eq_ok_iff : mutation.next current = .ok result ↔ mutation.Gives current result := by
  constructor
  · intro made
    unfold next at made
    split at made
    · rename_i action
      cases made
      exact .given action
    · rename_i action right
      obtain ⟨value, added, rfl⟩ := map_some_eq_ok_iff.1 made
      obtain ⟨x, y, left, rfl, rfl⟩ | ⟨text, rfl⟩ := add_eq_ok_iff.1 added
      · exact .sum action left right
      · exact .joined action right text
    · rename_i action right
      obtain ⟨value, subtracted, rfl⟩ := map_some_eq_ok_iff.1 made
      obtain ⟨x, y, left, rfl, rfl⟩ := subtract_eq_ok_iff.1 subtracted
      exact .difference action left right
    all_goals cases made
  · intro gives
    cases gives with
    | given action => simp only [next, action]
    | sum action left right => simp only [next, action, right, left, Value.add, Except.map]
    | joined action right text =>
      simp only [next, action, right]
      exact map_some_eq_ok_iff.2 ⟨_, add_eq_ok_iff.2 (.inr ⟨text, rfl⟩), rfl⟩
    | difference action left right =>
      simp only [next, action, right, left, Value.subtract, Except.map]

theorem next_eq_error_iff :
    (∃ failure, mutation.next current = .error failure) ↔
      ∀ result, ¬ mutation.Gives current result := by
  cases made : mutation.next current with
  | error failure =>
    refine ⟨fun _ result gives => ?_, fun _ => ⟨failure, rfl⟩⟩
    cases made.symm.trans (next_eq_ok_iff.2 gives)
  | ok result => exact ⟨nofun, fun fails => absurd (next_eq_ok_iff.1 made) (fails result)⟩

def seeded (store : σ) (key : String) : σ :=
  match Scope.read store key with
  | none => Scope.write store key .zero
  | some _ => store

theorem seeded_eq (store : σ) (key : String) :
    (if (Scope.read store key).isNone then
      (Scope.write store key ((Scope.read store key).getD .zero),
        Scope.notices σ key ((Scope.read store key).getD .zero))
    else (store, [])).1 = seeded store key := by
  unfold seeded
  cases Scope.read store key <;> rfl

theorem store_apply (store : σ) (mutation : Mutation) : (mutation.apply store).store =
    match mutation.next ((Scope.read store mutation.var).getD .zero) with
    | .error _ => seeded store mutation.var
    | .ok none => Scope.erase (seeded store mutation.var) mutation.var
    | .ok (some value) => Scope.write (seeded store mutation.var) mutation.var value := by
  rw [← seeded_eq]
  unfold apply
  dsimp only
  cases mutation.next ((Scope.read store mutation.var).getD .zero) with
  | error failure => rfl
  | ok result => cases result <;> rfl

theorem result_apply (store : σ) (mutation : Mutation) : (mutation.apply store).result =
    (mutation.next ((Scope.read store mutation.var).getD .zero)).map fun result =>
      (Scope.read store mutation.var, result) := by
  unfold apply
  dsimp only
  cases mutation.next ((Scope.read store mutation.var).getD .zero) with
  | error failure => rfl
  | ok result => cases result <;> rfl

theorem result_apply_eq_error (store : σ) (mutation : Mutation) :
    (∃ failure, (mutation.apply store).result = .error failure) ↔
      ∃ failure, mutation.next ((Scope.read store mutation.var).getD .zero) = .error failure := by
  rw [result_apply]
  cases mutation.next ((Scope.read store mutation.var).getD .zero) <;> simp [Except.map]

theorem read_seeded_of_ne [LawfulScope σ] (store : σ) (different : other ≠ key) :
    Scope.read (seeded store key) other = Scope.read store other := by
  unfold seeded
  split
  · exact LawfulScope.read_write_of_ne store .zero different
  · rfl

theorem read_apply_of_ne [LawfulScope σ] (store : σ) (different : other ≠ mutation.var) :
    Scope.read (mutation.apply store).store other = Scope.read store other := by
  rw [store_apply, ← read_seeded_of_ne store different]
  split
  · rfl
  · exact LawfulScope.read_erase_of_ne _ different
  · exact LawfulScope.read_write_of_ne _ _ different

-- The other keys read as before, and a failure is reported exactly if nothing was made.
structure ChangesOneKey (mutation : Mutation) (store : σ) : Prop where
  others : ∀ other ≠ mutation.var,
    Scope.read (mutation.apply store).store other = Scope.read store other
  fails : (∃ failure, (mutation.apply store).result = .error failure) ↔
    ∀ result, ¬ mutation.Gives ((Scope.read store mutation.var).getD .zero) result

theorem changesOneKey [LawfulScope σ] (mutation : Mutation) (store : σ) :
    mutation.ChangesOneKey store where
  others _ different := read_apply_of_ne store different
  fails := (result_apply_eq_error store mutation).trans next_eq_error_iff

structure ReadsAfter (mutation : Mutation) (before after : Option Value) : Prop where
  made (result : Option Value) (gives : mutation.Gives (before.getD .zero) result) : after = result
  failed (fails : ∀ result, ¬ mutation.Gives (before.getD .zero) result) :
    after = some (before.getD .zero)

theorem reads_apply [LawfulScope σ] (plain : Scope.Plain σ mutation.var) (store : σ) :
    mutation.ReadsAfter (Scope.read store mutation.var)
      (Scope.read (mutation.apply store).store mutation.var) := by
  constructor
  · intro result gives
    rw [store_apply, next_eq_ok_iff.2 gives]
    cases result with
    | none => exact LawfulScope.read_erase _ _
    | some value => exact plain _ value
  · intro fails
    obtain ⟨failure, failed⟩ := next_eq_error_iff.2 fails
    rw [store_apply, failed]
    change Scope.read (seeded store mutation.var) mutation.var = _
    unfold seeded
    cases found : Scope.read store mutation.var with
    | none => exact plain store .zero
    | some value => exact found

-- What a mutation does to a reserved field; `takes` says which values the field can hold.
structure FieldAfter (mutation : Mutation) (current : Value) (takes : Value → γ → Prop)
    (blank before after : γ) : Prop where
  taken (value : Value) (content : γ) (gives : mutation.Gives current (some value))
    (fits : takes value content) : after = content
  cleared (gives : mutation.Gives current none) : after = blank
  kept (misfit : ∀ value content, mutation.Gives current (some value) → ¬ takes value content)
    (notCleared : ¬ mutation.Gives current none) : after = before

theorem fieldAfter_apply (store : LocalStore) (field : LocalStore → γ) (takes : Value → γ → Prop)
    (removed : ∀ store : LocalStore, field (store.remove mutation.var).2 = blank)
    (fits : ∀ (store : LocalStore) value content, takes value content →
      field (store.set mutation.var value) = content)
    (misfits : ∀ (store : LocalStore) value, (∀ content, ¬ takes value content) →
      field (store.set mutation.var value) = field store)
    (zero : ∀ content, ¬ takes .zero content) :
    mutation.FieldAfter ((store.get? mutation.var).getD .zero) takes blank (field store)
      (field (mutation.apply store).store) := by
  have seed : field (seeded store mutation.var) = field store := by
    unfold seeded
    split
    · exact misfits store .zero zero
    · rfl
  constructor
  · intro value content gives fit
    have made : mutation.next ((Scope.read store mutation.var).getD .zero) = .ok (some value) :=
      next_eq_ok_iff.2 gives
    rw [store_apply, made]
    exact fits _ value content fit
  · intro gives
    have made : mutation.next ((Scope.read store mutation.var).getD .zero) = .ok none :=
      next_eq_ok_iff.2 gives
    rw [store_apply, made]
    exact removed _
  · intro misfit notCleared
    rw [store_apply]
    split
    · exact seed
    · rename_i made
      exact absurd (next_eq_ok_iff.1 made) notCleared
    · rename_i value made
      have misfit' := fun content => misfit value content (next_eq_ok_iff.1 made)
      exact (misfits _ value misfit').trans seed

def TakesLabel (value : Value) (content : Option String) : Prop :=
  ∃ label, value = .text label ∧ content = some label

def TakesLabels (value : Value) (content : List String) : Prop :=
  ∃ entries, value = .list entries ∧ content = (LocalStore.labelsOf entries).eraseDups

theorem autosave_apply (store : LocalStore) (own : mutation.var = autosaveKey) :
    mutation.FieldAfter ((store.get? mutation.var).getD .zero) TakesLabel none store.autosave
      (mutation.apply store).store.autosave := by
  apply fieldAfter_apply store LocalStore.autosave
  · intro store
    simp [LocalStore.remove, own]
  · rintro store _ _ ⟨label, rfl, rfl⟩
    rw [own, LocalStore.set_autosave]
    rfl
  · intro store value misfit
    rw [own, LocalStore.set_autosave]
    cases value with
    | text label => exact absurd ⟨label, rfl, rfl⟩ (misfit (some label))
    | _ => rfl
  · rintro content ⟨label, isText, -⟩
    cases isText

theorem unlocked_apply (store : LocalStore) (own : mutation.var = unlockedKey) :
    mutation.FieldAfter ((store.get? mutation.var).getD .zero) TakesLabels [] store.unlocked
      (mutation.apply store).store.unlocked := by
  have reserved : unlockedKey ≠ autosaveKey := LocalStore.autosaveKey_ne_unlockedKey.symm
  apply fieldAfter_apply store LocalStore.unlocked
  · intro store
    simp [LocalStore.remove, own, reserved]
  · rintro store _ _ ⟨entries, rfl, rfl⟩
    rw [own, LocalStore.set_unlocked]
    exact LocalStore.relabelled_list store.unlocked entries
  · intro store value misfit
    rw [own, LocalStore.set_unlocked]
    cases value with
    | list entries => exact absurd ⟨entries, rfl, rfl⟩ (misfit _)
    | _ => rfl
  · rintro content ⟨entries, isList, -⟩
    cases isList

theorem mutation_changes_named_key (mutation : Mutation) :
    (∀ map : ValueMap, mutation.ChangesOneKey map ∧
      mutation.ReadsAfter (map.get? mutation.var) ((mutation.apply map).store.get? mutation.var)) ∧
    ∀ store : LocalStore, mutation.ChangesOneKey store ∧
      (mutation.var ≠ autosaveKey → mutation.var ≠ unlockedKey →
        mutation.ReadsAfter (store.get? mutation.var)
          ((mutation.apply store).store.get? mutation.var)) ∧
      (mutation.var = autosaveKey →
        mutation.FieldAfter ((store.get? mutation.var).getD .zero) TakesLabel none store.autosave
          (mutation.apply store).store.autosave) ∧
      (mutation.var = unlockedKey →
        mutation.FieldAfter ((store.get? mutation.var).getD .zero) TakesLabels [] store.unlocked
          (mutation.apply store).store.unlocked) := by
  refine ⟨fun map => ⟨changesOneKey mutation map, reads_apply (plain_map _) map⟩, fun store => ?_⟩
  refine ⟨changesOneKey mutation store, fun notAutosave notUnlocked => ?_, autosave_apply store,
    unlocked_apply store⟩
  exact reads_apply (plain_locals notAutosave notUnlocked) store

-- A failure on a fresh global, and labels written as a list in which one stands twice.
theorem mutation_changes_named_key_at_labels :
    (Mutation.apply (Dict.empty : ValueMap) ⟨.subtract, "x", none⟩).store.get? "x" =
      some .zero ∧
    (Mutation.apply LocalStore.empty
      ⟨.modify, unlockedKey, some (.list [.text "b", .zero, .text "a", .text "b"])⟩).store.unlocked =
      ["b", "a"] := by
  constructor
  · obtain ⟨-, reads⟩ := (mutation_changes_named_key ⟨.subtract, "x", none⟩).1 .empty
    exact reads.failed nofun
  · obtain ⟨-, -, -, labels⟩ := (mutation_changes_named_key
      ⟨.modify, unlockedKey, some (.list [.text "b", .zero, .text "a", .text "b"])⟩).2 .empty
    exact (labels rfl).taken _ _ (.given rfl) ⟨_, rfl, by decide⟩

end Mutation

end VisualNovel
