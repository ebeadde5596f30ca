import VisualNovel.Proofs.Playback.Resumption

namespace VisualNovel

theorem StepKind.isDialogue_iff {kind : StepKind} :
    kind.isDialogue = true ↔ ∃ label content, kind = .dialogue label content := by
  cases kind <;> simp [isDialogue]

theorem StepKind.isChoice_iff {kind : StepKind} :
    kind.isChoice = true ↔ ∃ options, kind = .choice options := by
  cases kind <;> simp [isChoice]

namespace Snapshot

-- A run of this script can be parked in the phase of the snapshot at its place.
def Fits (s : Snapshot) (script : Script) : Prop :=
  ∃ step, script[s.cursor]? = some step ∧
    ((s.phase = .waiting ∧ ∃ label content, step.kind = .dialogue label content) ∨
      (s.phase = .choice ∧ ∃ options, step.kind = .choice options))

def FlagsAmong (s : Snapshot) (flags : Environment) : Prop :=
  ∀ key, s.environment.contains key = true → flags.contains key = true

theorem not_flagsAmong {s : Snapshot} {flags : Environment}
    (first : flags.FirstUnknown s.environment key) : ¬ s.FlagsAmong flags := by
  intro known
  exact Bool.false_ne_true (first.unknown.symm.trans (known key first.named))

end Snapshot

namespace Machine

structure TakenUp (m : Machine) (s : Snapshot) (next : Machine) : Prop where
  flags : ∀ key, next.stores.environment.get? key =
    (s.environment.get? key).or (m.stores.environment.get? key)
  globals : next.stores.globals = s.globals
  locals : next.stores.locals = .ofMap s.locals
  cursor : next.cursor = s.cursor
  phase : next.phase = s.phase
  generator : next.generator.state = s.generatorState
  stepCount : next.stepCount = 0
  lastFault : next.lastFault = none
  quiet : next.due = false
  kept : next.script = m.script ∧ next.seed = m.seed ∧ next.stepGuard = m.stepGuard

-- The reasons for which a snapshot is refused, in their order, and what becomes of the others.
inductive Judges (m : Machine) (s : Snapshot) : Reply Unit → Prop where
  | schema (other : s.schemaVersion ≠ Snapshot.schema) :
      Judges m s ⟨m, [], .error (.snapshotSchema s.schemaVersion)⟩
  | place (own : s.schemaVersion = Snapshot.schema) (misfit : ¬ s.Fits m.script) :
      Judges m s ⟨m, [], .error (.snapshotCursor s.cursor s.phase)⟩
  | flag (own : s.schemaVersion = Snapshot.schema) (fits : s.Fits m.script)
      (first : m.stores.environment.FirstUnknown s.environment key) :
      Judges m s ⟨m, [], .error (.unknownEnvironmentKey key)⟩
  | takes (own : s.schemaVersion = Snapshot.schema) (fits : s.Fits m.script)
      (known : s.FlagsAmong m.stores.environment) (taken : TakenUp m s next)
      (silent : storyEvents signals = []) : Judges m s ⟨next, signals, .ok ()⟩

variable {m : Machine} {s : Snapshot}

theorem fits_iff : m.fits s = true ↔ s.Fits m.script := by
  unfold fits Snapshot.Fits
  cases m.script[s.cursor]? with
  | none => simp
  | some step => cases s.phase <;> simp [StepKind.isDialogue_iff, StepKind.isChoice_iff]

theorem resume_judges (m : Machine) (s : Snapshot) : Judges m s (m.resume s) := by
  unfold resume
  split
  · exact .schema ‹_›
  · rename_i own
    have own := Decidable.not_not.1 own
    split
    · rename_i unfit
      refine .place own fun fits => ?_
      simp [fits_iff.2 fits] at unfit
    · rename_i fit
      have fits : s.Fits m.script := fits_iff.1 (by simpa using fit)
      rcases Environment.setAll_cases m.stores.environment s.environment with
        ⟨known, environment, set, flags⟩ | ⟨key, first, refused⟩
      · rw [set]
        have taken : TakenUp m s { m.resetRun with
            stores := ⟨s.globals, .ofMap s.locals, environment⟩
            generator := ⟨s.generatorState⟩
            cursor := s.cursor
            phase := s.phase } :=
          ⟨flags, rfl, rfl, rfl, rfl, rfl, rfl, rfl, rfl, rfl, rfl, rfl⟩
        exact .takes own fits known taken (storyEvents_shown (isRemark_refusals _) _)
      · rw [refused]
        exact .flag own fits first

variable {reply : Reply Unit}

theorem Judges.accepts_iff (judged : Judges m s reply) : reply.result = .ok () ↔
    s.schemaVersion = Snapshot.schema ∧ s.Fits m.script ∧ s.FlagsAmong m.stores.environment := by
  cases judged with
  | schema other => exact iff_of_false nofun fun met => other met.1
  | place own misfit => exact iff_of_false nofun fun met => misfit met.2.1
  | flag own fits first =>
    exact iff_of_false nofun fun met => Snapshot.not_flagsAmong first met.2.2
  | takes own fits known taken silent => exact iff_of_true rfl ⟨own, fits, known⟩

theorem Judges.unchanged (judged : Judges m s reply) (refused : reply.result = .error error) :
    reply = ⟨m, [], .error error⟩ := by
  cases judged <;> cases refused <;> rfl

theorem Judges.taken (judged : Judges m s reply) (accepted : reply.result = .ok ()) :
    TakenUp m s reply.machine ∧ storyEvents reply.signals = [] := by
  cases judged with
  | takes own fits known taken silent => exact ⟨taken, silent⟩
  | _ => cases accepted

-- What an error names, and its code, by the first condition that does not hold.
structure FirstReason (m : Machine) (s : Snapshot) (error : StoryError) : Prop where
  schema : s.schemaVersion ≠ Snapshot.schema →
    error = .snapshotSchema s.schemaVersion ∧ error.code = "SNAPSHOT_SCHEMA"
  place : s.schemaVersion = Snapshot.schema → ¬ s.Fits m.script →
    error = .snapshotCursor s.cursor s.phase ∧ error.code = "SNAPSHOT_CURSOR"
  flag : s.schemaVersion = Snapshot.schema → s.Fits m.script →
    ∃ key, m.stores.environment.FirstUnknown s.environment key ∧
      error = .unknownEnvironmentKey key ∧ error.code = "ENGINE_UNKNOWN_ENVIRONMENT_KEY"

theorem Judges.firstReason (judged : Judges m s reply) (refused : reply.result = .error error) :
    FirstReason m s error := by
  cases judged with
  | schema other =>
    cases refused
    exact ⟨fun _ => ⟨rfl, rfl⟩, fun own => absurd own other, fun own => absurd own other⟩
  | place own misfit =>
    cases refused
    exact ⟨absurd own, fun _ _ => ⟨rfl, rfl⟩, fun _ fits => absurd fits misfit⟩
  | flag own fits first =>
    cases refused
    exact ⟨absurd own, fun _ misfit => absurd fits misfit, fun _ _ => ⟨_, first, rfl, rfl⟩⟩
  | takes own fits known taken silent => cases refused

theorem resume_accepts_exactly (m : Machine) (s : Snapshot) :
    ((m.resume s).result = .ok () ↔ s.schemaVersion = Snapshot.schema ∧ s.Fits m.script ∧
      s.FlagsAmong m.stores.environment) ∧
    (∀ error, (m.resume s).result = .error error →
      m.resume s = ⟨m, [], .error error⟩ ∧ FirstReason m s error) ∧
    ((m.resume s).result = .ok () →
      TakenUp m s (m.resume s).machine ∧ storyEvents (m.resume s).signals = []) := by
  have judged := resume_judges m s
  refine ⟨judged.accepts_iff, ?_, judged.taken⟩
  intro error refused
  exact ⟨judged.unchanged refused, judged.firstReason refused⟩

-- A snapshot whose second flag does not exist: the first is not set either.
theorem resume_accepts_exactly_at_second_flag :
    let m : Machine := { new none none none with script := [⟨none, .dialogue none none⟩] }
    let s : Snapshot := ⟨Snapshot.schema, 0, .waiting, .empty, .empty,
      .ofList [("isDay", false), ("isNoon", true)], 7⟩
    m.resume s = ⟨m, [], .error (.unknownEnvironmentKey "isNoon")⟩ ∧
      ¬ s.FlagsAmong m.stores.environment := by
  intro m s
  obtain ⟨accepts, refuses, -⟩ := resume_accepts_exactly m s
  have refused : (m.resume s).result = .error (.unknownEnvironmentKey "isNoon") := rfl
  have fits : s.Fits m.script := ⟨_, rfl, .inl ⟨rfl, none, none, rfl⟩⟩
  refine ⟨(refuses _ refused).1, fun known => ?_⟩
  cases refused.symm.trans (accepts.2 ⟨rfl, fits, known⟩)

end Machine

end VisualNovel
