import VisualNovel.Script.Source

namespace VisualNovel

-- The item at this place has the property, and none before it has.
structure Earliest (p : α → Prop) (items : List α) (index : Nat) (item : α) : Prop where
  here : items[index]? = some item
  holds : p item
  before : ∀ i < index, ∀ earlier, items[i]? = some earlier → ¬ p earlier

section

variable {p : α → Prop}

theorem Earliest.head (holds : p item) : Earliest p (item :: rest) 0 item := ⟨rfl, holds, nofun⟩

theorem Earliest.tail (other : ¬ p item) (first : Earliest p rest index found) :
    Earliest p (item :: rest) (index + 1) found := by
  refine ⟨first.here, first.holds, fun i early earlier there => ?_⟩
  cases i with
  | zero => rwa [← Option.some.inj there]
  | succ i => exact first.before i (Nat.lt_of_succ_lt_succ early) earlier there

theorem Earliest.mem (first : Earliest p items index item) : item ∈ items :=
  List.mem_of_getElem? first.here

theorem Earliest.unique (first : Earliest p items index item)
    (other : Earliest p items place found) : index = place ∧ item = found := by
  have same : index = place := by
    rcases Nat.lt_trichotomy index place with sooner | same | later
    · exact absurd first.holds (other.before _ sooner _ first.here)
    · exact same
    · exact absurd other.holds (first.before _ later _ other.here)
  subst same
  exact ⟨rfl, Option.some.inj (first.here.symm.trans other.here)⟩

end

def Json.IsObject (value : Json) : Prop := ∃ members, value = .object members

namespace Script

-- The list of steps of a value: the value itself, or the last of its members of that name.
inductive Carries : Json → List Json → Prop where
  | list : Carries (.array items) items
  | member (found : (Dict.ofList members).get? "steps" = some (.array items)) :
      Carries (.object members) items

inductive Loads (value : Json) : Except ScriptError Script → Prop where
  | steps (carries : Carries value items) (objects : ∀ item ∈ items, item.IsObject) :
      Loads value (.ok (items.map Step.ofJson))
  | stray (carries : Carries value items)
      (first : Earliest (fun item => ¬ item.IsObject) items index item) :
      Loads value (.error (.notAnObject index item.typeName))
  | noList (absent : ∀ items, ¬ Carries value items) (shape : error.code = "API_SCRIPT_SHAPE") :
      Loads value (.error error)

theorem ofItems_cases (items : List Json) (index : Nat) :
    ((∀ item ∈ items, item.IsObject) ∧ ofItems index items = .ok (items.map Step.ofJson)) ∨
    ∃ i item, Earliest (fun item => ¬ item.IsObject) items i item ∧
      ofItems index items = .error (.notAnObject (index + i) item.typeName) := by
  induction items generalizing index with
  | nil => exact .inl ⟨List.forall_mem_nil _, rfl⟩
  | cons item rest ih =>
    cases item with
    | object members =>
      have object : (Json.object members).IsObject := ⟨members, rfl⟩
      rcases ih (index + 1) with ⟨objects, loaded⟩ | ⟨i, found, first, refused⟩
      · refine .inl ⟨List.forall_mem_cons.2 ⟨object, objects⟩, ?_⟩
        rw [ofItems, loaded]
        rfl
      · refine .inr ⟨i + 1, found, first.tail (not_not_intro object), ?_⟩
        rw [ofItems, refused, Nat.add_right_comm]
        rfl
    | _ => exact .inr ⟨0, _, .head nofun, rfl⟩

theorem Carries.unique (carries : Carries value items) (other : Carries value entries) :
    items = entries := by
  cases carries with
  | list => cases other; rfl
  | member found =>
    cases other with
    | member again => exact Json.array.inj (Option.some.inj (found.symm.trans again))

theorem Carries.loads (carries : Carries value items) : Loads value (ofItems 0 items) := by
  rcases ofItems_cases items 0 with ⟨objects, loaded⟩ | ⟨i, item, first, refused⟩
  · rw [loaded]
    exact .steps carries objects
  · rw [refused, Nat.zero_add]
    exact .stray carries first

theorem ofJson_loads (value : Json) : Loads value (ofJson value) := by
  cases value with
  | array items => exact Carries.list.loads
  | object members =>
    rw [ofJson]
    split
    · rename_i found
      exact (Carries.member found).loads
    · rename_i other
      refine .noList (fun items carries => ?_) rfl
      cases carries with
      | member found => exact other items found
  | _ => exact .noList nofun rfl

variable {value : Json} {script : Script}

theorem ofJson_eq_ok_iff : ofJson value = .ok script ↔
    ∃ items, Carries value items ∧ (∀ item ∈ items, item.IsObject) ∧
      script = items.map Step.ofJson := by
  have loads := ofJson_loads value
  generalize ofJson value = result at loads
  cases loads with
  | steps carries objects =>
    constructor
    · rintro ⟨⟩
      exact ⟨_, carries, objects, rfl⟩
    · rintro ⟨items, again, -, rfl⟩
      rw [carries.unique again]
  | stray carries first =>
    refine ⟨nofun, ?_⟩
    rintro ⟨items, again, objects, -⟩
    exact absurd (objects _ (carries.unique again ▸ first.mem)) first.holds
  | noList absent shape =>
    refine ⟨nofun, ?_⟩
    rintro ⟨items, carries, -⟩
    exact absurd carries (absent items)

theorem code_of_ofJson (refused : ofJson value = .error error) :
    error.code = "API_SCRIPT_SHAPE" := by
  have loads := ofJson_loads value
  rw [refused] at loads
  cases loads with
  | stray carries first => rfl
  | noList absent shape => exact shape

theorem first_of_ofJson (refused : ofJson value = .error error) (carries : Carries value items) :
    ∃ index item, Earliest (fun item => ¬ item.IsObject) items index item ∧
      error = .notAnObject index item.typeName := by
  have loads := ofJson_loads value
  rw [refused] at loads
  cases loads with
  | stray own first => exact ⟨_, _, own.unique carries ▸ first, rfl⟩
  | noList absent shape => exact absurd carries (absent items)

def Known (script : Script) : Prop := ∀ step ∈ script, step.kind.isUnknown = false

def FirstUnknown (script : Script) : Nat → Step → Prop :=
  Earliest (fun step => step.kind.isUnknown = true) script

theorem isUnknown_iff {kind : StepKind} :
    kind.isUnknown = true ↔ ∃ typeName reason, kind = .unknown typeName reason := by
  cases kind <;> simp [StepKind.isUnknown]

theorem unknownFrom?_cases (script : Script) (index : Nat) :
    (script.Known ∧ script.unknownFrom? index = none) ∨
    ∃ i step typeName reason, script.FirstUnknown i step ∧ step.kind = .unknown typeName reason ∧
      script.unknownFrom? index = some (.unsupported (index + i) step.id typeName reason) := by
  induction script generalizing index with
  | nil => exact .inl ⟨List.forall_mem_nil _, rfl⟩
  | cons step rest ih =>
    cases unknown : step.kind.isUnknown with
    | true =>
      obtain ⟨typeName, reason, kind⟩ := isUnknown_iff.1 unknown
      refine .inr ⟨0, step, typeName, reason, .head unknown, kind, ?_⟩
      rw [unknownFrom?, kind]
      rfl
    | false =>
      have passed : unknownFrom? index (step :: rest) = unknownFrom? (index + 1) rest := by
        rw [unknownFrom?]
        split
        · rename_i kind
          rw [kind] at unknown
          cases unknown
        · rfl
      rw [passed]
      rcases ih (index + 1) with ⟨known, unfound⟩ | ⟨i, found, typeName, reason, first, kind, blamed⟩
      · exact .inl ⟨List.forall_mem_cons.2 ⟨unknown, known⟩, unfound⟩
      · refine .inr ⟨i + 1, found, typeName, reason, first.tail (by simp [unknown]), kind, ?_⟩
        rw [blamed, Nat.add_right_comm, Nat.add_assoc]

theorem firstUnknown?_cases (script : Script) :
    (script.Known ∧ script.firstUnknown? = none) ∨
    ∃ index step typeName reason, script.FirstUnknown index step ∧
      step.kind = .unknown typeName reason ∧
      script.firstUnknown? = some (.unsupported index step.id typeName reason) := by
  have found := unknownFrom?_cases script 0
  simp only [Nat.zero_add] at found
  exact found

end Script

end VisualNovel
