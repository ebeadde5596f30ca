import VisualNovel.Proofs.Playback.Rest

namespace VisualNovel

theorem StepKind.labelName?_eq_some {kind : StepKind} {label : String} :
    kind.labelName? = some label ↔ kind = .label label := by
  cases kind <;> simp [labelName?]

namespace Script

-- The step with this index has the label, and none before it does.
structure FirstLabel (script : Script) (label : String) (target : Nat) : Prop where
  here : ∃ step, script[target]? = some step ∧ step.kind = .label label
  first : ∀ earlier < target, ∀ step, script[earlier]? = some step → step.kind ≠ .label label

variable {script : Script}

theorem findIdx?_eq_some_iff_first {seeks : Step → Bool} {Fits : Step → Prop}
    (same : ∀ step, seeks step = true ↔ Fits step) : script.findIdx? seeks = some target ↔
    (∃ step, script[target]? = some step ∧ Fits step) ∧
      ∀ earlier < target, ∀ step, script[earlier]? = some step → ¬ Fits step := by
  rw [List.findIdx?_eq_some_iff_getElem]
  constructor
  · rintro ⟨inside, here, first⟩
    refine ⟨⟨_, List.getElem?_eq_getElem inside, (same _).1 here⟩, ?_⟩
    intro earlier before step there fits
    obtain ⟨within, rfl⟩ := List.getElem?_eq_some_iff.1 there
    exact first earlier before ((same _).2 fits)
  · rintro ⟨⟨step, there, fits⟩, first⟩
    obtain ⟨inside, rfl⟩ := List.getElem?_eq_some_iff.1 there
    refine ⟨inside, (same _).2 fits, ?_⟩
    intro earlier before sought
    have there := List.getElem?_eq_getElem (Nat.lt_trans before inside)
    exact first earlier before _ there ((same _).1 sought)

theorem labelled_iff (label : String) (step : Step) :
    decide (step.kind.labelName? = some label) = true ↔ step.kind = .label label := by
  rw [decide_eq_true_eq, StepKind.labelName?_eq_some]

theorem firstLabel_of_labelIndex? (found : script.labelIndex? label = some target) :
    script.FirstLabel label target := by
  obtain ⟨here, first⟩ := (findIdx?_eq_some_iff_first (labelled_iff label)).1 found
  exact ⟨here, first⟩

theorem no_label_of_labelIndex? (missing : script.labelIndex? label = none) :
    ∀ step ∈ script, step.kind ≠ .label label := by
  intro step member
  have other := List.findIdx?_eq_none_iff.1 missing step member
  simpa [StepKind.labelName?_eq_some] using other

end Script

namespace Machine

variable {m other : Machine} {keys : List String}

structure SameStores (m loaded : Machine) : Prop where
  globals : loaded.stores.globals = m.stores.globals
  locals : ∀ key, loaded.localValue? key = m.localValue? key
  autosave : loaded.stores.locals.autosave = m.stores.locals.autosave
  unlocked : loaded.stores.locals.unlocked = m.stores.locals.unlocked

-- A start without label works from the step with this index on.
def BeginsAt (m : Machine) (index : Nat) : Prop :=
  ∀ budget, m.start budget none = (m.landOn index).drive budget []

-- A start without label does no work: it seeks the label and there is none.
structure StallsFor (m : Machine) (label : String) (stalled : Machine) : Prop where
  replies : ∀ budget, m.start budget none =
    some ⟨stalled, [.record (.labelNotFound label)], .ok ()⟩
  stalls : stalled.isStalled = true
  fault : stalled.lastFault = some (.unresolvedLabel label)
  stores : stalled.stores = m.stores

theorem load_locals (resting : Resting keys m) (other : Machine) :
    (other.load m.script m.stores.globals m.stores.locals.toMap).machine.stores.locals =
      m.stores.locals := LocalStore.ofMap_toMap resting.tidy

theorem sameStores_load (resting : Resting keys m) (other : Machine) :
    SameStores m (other.load m.script m.stores.globals m.stores.locals.toMap).machine := by
  have same := load_locals resting other
  exact ⟨rfl, fun key => congrArg (LocalStore.get? · key) same, congrArg _ same, congrArg _ same⟩

theorem load_eq_new (other : Machine) (script : Script) (globals locals : ValueMap) :
    other.load script globals locals =
      (new (some other.seed) (some other.stores.environment) other.stepGuard).load script
        globals locals := rfl

theorem beginsAt_top (idle : m.phase = .idle) (nonempty : m.script ≠ [])
    (absent : m.stores.locals.autosave = none ∨ m.stores.locals.autosave = some "") :
    m.BeginsAt 0 := by
  have nowhere : m.entry? none = none := by
    rcases absent with missing | empty
    · simp [missing, entry?]
    · simp [empty, entry?]
  intro budget
  simp [start, nonempty, idle, nowhere, landOn]

theorem entry?_autosave (passed : m.stores.locals.autosave = some label) (named : label ≠ "") :
    m.entry? none = some label := by
  simp [passed, named, entry?]

theorem beginsAt_label (idle : m.phase = .idle) (nonempty : m.script ≠ [])
    (sought : m.entry? none = some label) (found : m.script.labelIndex? label = some target) :
    m.BeginsAt target := by
  intro budget
  simp [start, nonempty, idle, sought, jumpToLabel, found, landOn]

theorem stallsFor_label (idle : m.phase = .idle) (quiet : m.due = false)
    (nonempty : m.script ≠ []) (sought : m.entry? none = some label)
    (missing : m.script.labelIndex? label = none) :
    ∃ stalled, m.StallsFor label stalled := by
  let stalled : Machine :=
    { m with phase := .playing, lastFault := some (.unresolvedLabel label) }
  have settled : stalled.pending = false := by simp [stalled, pending, quiet]
  have resting : stalled.rest = stalled := by simp [rest, stalled, quiet]
  refine ⟨stalled, ?_, by simp [isStalled, stalled, quiet, Fault.stalls], rfl, rfl⟩
  intro budget
  have running : m.phase ≠ .ended := by simp [idle]
  have jumped : ({ m with phase := .playing } : Machine).jumpToLabel label =
      (stalled, [.record (.labelNotFound label)]) := by
    simp [jumpToLabel, missing, stalled]
  simp only [start, if_neg nonempty, if_neg running, sought, jumped]
  rw [drive_of_rests .nil (fun _ _ => Nat.zero_le _) settled (fun _ => Nat.zero_le _), resting]
  rfl

theorem reload_restores {seed : Option UInt32} {environment : Option Environment}
    {stepGuard : Option Nat} (reached : Reaches (new seed environment stepGuard) m)
    (other : Machine) :
    let loading := other.load m.script m.stores.globals m.stores.locals.toMap
    let loaded := loading.machine
    loading = (new (some other.seed) (some other.stores.environment) other.stepGuard).load
      m.script m.stores.globals m.stores.locals.toMap ∧
    SameStores m loaded ∧
    (m.script ≠ [] →
      (m.stores.locals.autosave = none ∨ m.stores.locals.autosave = some "" → loaded.BeginsAt 0) ∧
      ∀ label, m.stores.locals.autosave = some label → label ≠ "" →
        (∃ target, m.script.FirstLabel label target ∧ loaded.BeginsAt target) ∨
        ((∀ step ∈ m.script, step.kind ≠ .label label) ∧
          ∃ stalled, loaded.StallsFor label stalled)) := by
  intro loading loaded
  have resting := resting_of_new reached
  have same : SameStores m loaded := sameStores_load resting other
  refine ⟨load_eq_new other _ _ _, same, ?_⟩
  intro nonempty
  refine ⟨fun absent => beginsAt_top rfl nonempty (same.autosave ▸ absent), ?_⟩
  intro label passed named
  have sought : loaded.entry? none = some label :=
    entry?_autosave (same.autosave.trans passed) named
  cases found : m.script.labelIndex? label with
  | some target =>
    exact .inl ⟨target, Script.firstLabel_of_labelIndex? found,
      beginsAt_label rfl nonempty sought found⟩
  | none =>
    exact .inr ⟨Script.no_label_of_labelIndex? found,
      stallsFor_label rfl rfl nonempty sought found⟩

-- A story that passed an autosave point before its line, loaded by a machine that ended another.
theorem reload_restores_at_autosave : ∃ m other : Machine,
    Reaches (new none none (some 8)) m ∧ m.script ≠ [] ∧
    m.stores.locals.autosave = some "noon" ∧ other.phase = .ended ∧
    let loading := other.load m.script m.stores.globals m.stores.locals.toMap
    let loaded := loading.machine
    loading = (new (some other.seed) (some other.stores.environment) other.stepGuard).load
      m.script m.stores.globals m.stores.locals.toMap ∧
    SameStores m loaded ∧
    ((∃ target, m.script.FirstLabel "noon" target ∧ loaded.BeginsAt target) ∨
      ((∀ step ∈ m.script, step.kind ≠ .label "noon") ∧
        ∃ stalled, loaded.StallsFor "noon" stalled)) := by
  let script : Script :=
    [⟨none, .next "noon"⟩, ⟨none, .dialogue none none⟩, ⟨none, .label "noon"⟩]
  let ended : Machine := { new (some 7) none (some 2) with phase := .ended }
  have loaded := Reaches.perform .refl
    (show (new none none (some 8)).perform 0 (.load script .empty .empty) = some _ from rfl)
  have started := Reaches.perform loaded (show Machine.perform 0 _ (.start none) = some _ from rfl)
  have nonempty : script ≠ [] := nofun
  obtain ⟨fresh, same, begins⟩ := reload_restores started ended
  exact ⟨_, ended, started, nonempty, rfl, rfl, fresh, same,
    (begins nonempty).2 "noon" rfl (by decide)⟩

end Machine

end VisualNovel
