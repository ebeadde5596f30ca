import VisualNovel.Store
import VisualNovel.Proofs.Listing

namespace VisualNovel.Environment

theorem set?_of_contains {flags : Environment} (known : flags.contains key = true) :
    flags.set? key value = some (flags.insert key value) := by
  rw [set?, if_pos known]

theorem set?_eq_some {flags : Environment} (set : flags.set? key value = some next) :
    flags.contains key = true ∧ next = flags.insert key value := by
  unfold set? at set
  split at set
  · exact ⟨‹_›, (Option.some.inj set).symm⟩
  · cases set

theorem set?_eq_none {flags : Environment} :
    flags.set? key value = none ↔ flags.contains key = false := by
  unfold set?
  split <;> simp_all

theorem keys_set? {flags : Environment} (set : flags.set? key value = some next) :
    next.keys = flags.keys := by
  obtain ⟨known, rfl⟩ := set?_eq_some set
  exact Dict.keys_insert_of_contains known

theorem keys_setAll {flags : Environment} (set : flags.setAll entries = .ok next) :
    next.keys = flags.keys := by
  induction entries generalizing flags with
  | nil => cases set; rfl
  | cons head rest ih =>
    unfold setAll at set
    split at set
    · rename_i changed one
      rw [ih set, keys_set? one]
    · cases set

theorem setAll_of_contains {flags : Environment}
    (known : ∀ binding ∈ entries, flags.contains binding.1 = true) :
    flags.setAll entries =
      .ok (entries.foldl (fun map binding => map.insert binding.1 binding.2) flags) := by
  induction entries generalizing flags with
  | nil => rfl
  | cons head rest ih =>
    have first := known head (List.mem_cons_self ..)
    rw [setAll, set?_of_contains first]
    apply ih
    intro binding member
    rw [Dict.contains_insert, known binding (List.mem_cons_of_mem _ member), Bool.or_true]

theorem setAll_toList {flags wanted : Environment} (same : flags.keys = wanted.keys) :
    flags.setAll wanted.toList = .ok wanted := by
  have known : ∀ binding ∈ wanted.toList, flags.contains binding.1 = true := by
    intro binding member
    rw [Dict.contains_of_keys_eq same]
    exact Dict.contains_eq_true.2 ⟨_, Dict.mem_toList.1 member⟩
  rw [setAll_of_contains known]
  apply congrArg
  apply Dict.ext_get?
  intro key
  have written := Dict.get?_insertAll wanted.increasing flags key
  rw [Dict.toList, written]
  change (wanted.get? key).or (flags.get? key) = wanted.get? key
  cases found : wanted.get? key with
  | some value => rfl
  | none =>
    have absent : flags.contains key = false := by
      rw [Dict.contains_of_keys_eq same]
      simp [Dict.contains, found]
    simpa [Dict.contains] using absent

theorem setAll_of_unknown {flags : Environment}
    (known : ∀ binding ∈ earlier, flags.contains binding.1 = true)
    (unknown : flags.contains key = false) :
    flags.setAll (earlier ++ (key, value) :: later) = .error key := by
  induction earlier generalizing flags with
  | nil => simp [setAll, set?_eq_none.2 unknown]
  | cons head rest ih =>
    have first := known head (List.mem_cons_self ..)
    have same (sought : String) :
        Dict.contains (flags.insert head.1 head.2) sought = flags.contains sought :=
      Dict.contains_of_keys_eq (Dict.keys_insert_of_contains first) sought
    rw [List.cons_append, setAll, set?_of_contains first]
    apply ih
    · intro binding member
      rw [same, known binding (List.mem_cons_of_mem _ member)]
    · rw [same, unknown]

-- The least flag of these that does not exist.
structure FirstUnknown (flags wanted : Environment) (key : String) : Prop where
  named : wanted.contains key = true
  unknown : flags.contains key = false
  least : ∀ other < key, wanted.contains other = true → flags.contains other = true

theorem setAll_cases (flags wanted : Environment) :
    ((∀ key, wanted.contains key = true → flags.contains key = true) ∧
      ∃ next : Environment, flags.setAll wanted.toList = .ok next ∧
        ∀ key, next.get? key = (wanted.get? key).or (flags.get? key)) ∨
    ∃ key, FirstUnknown flags wanted key ∧ flags.setAll wanted.toList = .error key := by
  cases sought : wanted.toList.find? (fun binding => !flags.contains binding.1) with
  | none =>
    have known : ∀ binding ∈ wanted.toList, flags.contains binding.1 = true := by
      simpa using sought
    refine .inl ⟨?_, _, setAll_of_contains known, Dict.get?_insertAll wanted.increasing flags⟩
    intro key inside
    obtain ⟨value, found⟩ := Dict.contains_eq_true.1 inside
    exact known (key, value) (Dict.mem_toList.2 found)
  | some binding =>
    obtain ⟨key, value⟩ := binding
    obtain ⟨unknown, earlier, later, listed, known⟩ := List.find?_eq_some_iff_append.1 sought
    simp only [Bool.not_eq_eq_eq_not, Bool.not_not] at unknown known
    refine .inr ⟨key, ⟨?_, unknown, ?_⟩, listed ▸ setAll_of_unknown known unknown⟩
    · have member : (key, value) ∈ wanted.toList := by simp [listed]
      exact Dict.contains_eq_true.2 ⟨value, Dict.mem_toList.1 member⟩
    · intro other before inside
      obtain ⟨flag, found⟩ := Dict.contains_eq_true.1 inside
      exact known _ (Dict.mem_earlier listed (Dict.mem_toList.2 found) before)

end VisualNovel.Environment
