import VisualNovel.Proofs.Playback.Operations
import VisualNovel.Proofs.Store.Flags

namespace VisualNovel

-- The faults under which a machine can rest without having left the phase of playing.
def Fault.explainsRest : Fault → Bool
  | .unknownEnvironmentKey _ => true
  | fault => fault.stalls

theorem Fault.explainsRest_of_stalls {fault : Fault} (stalls : fault.stalls = true) :
    fault.explainsRest = true := by
  cases fault <;> simp_all [explainsRest, Fault.stalls]

namespace Machine

-- The machines that a host can come to, each operation with a budget of its own.
inductive Reaches (first : Machine) : Machine → Prop where
  | refl : Reaches first first
  | perform (before : Reaches first m) (returned : m.perform budget operation = some reply) :
      Reaches first reply.machine

structure AtRest (keys : List String) (m : Machine) : Prop where
  quiet : m.due = false
  inside : m.cursor ≤ m.script.length
  waiting : m.phase = .waiting → ∃ step, m.currentStep? = some step ∧ step.kind.isDialogue = true
  choice : m.phase = .choice → ∃ step, m.currentStep? = some step ∧ step.kind.isChoice = true
  ended : m.phase = .ended → m.cursor = m.script.length ∨
    ∃ step, m.currentStep? = some step ∧ step.kind = .finishDialogue
  playing : m.phase = .playing → m.script ≠ []
  flags : m.stores.environment.keys = keys
  tidy : m.stores.locals.Tidy

-- Where a machine in this phase can stand. While it plays, that is anywhere in its script.
def Placed (script : Script) (cursor : Nat) : Phase → Prop
  | .idle => True
  | .playing => script ≠ []
  | .waiting => ∃ step, script[cursor]? = some step ∧ step.kind.isDialogue = true
  | .choice => ∃ step, script[cursor]? = some step ∧ step.kind.isChoice = true
  | .ended => cursor = script.length ∨
    ∃ step, script[cursor]? = some step ∧ step.kind = .finishDialogue

structure Standing (keys : List String) (m : Machine) : Prop where
  inside : m.cursor ≤ m.script.length
  placed : Placed m.script m.cursor m.phase
  flags : m.stores.environment.keys = keys
  tidy : m.stores.locals.Tidy

-- A machine that plays either has its next unit due or remembers the jump that found no target.
structure Sound (keys : List String) (m : Machine) : Prop extends Standing keys m where
  halted : m.phase = .playing → m.due = false → m.lastFault.any Fault.stalls = true

structure Driven (keys : List String) (m : Machine) : Prop extends Sound keys m where
  quiet : m.due = false

-- As any operation leaves it: what was remembered may be another refusal by now.
structure Resting (keys : List String) (m : Machine) : Prop extends Standing keys m where
  quiet : m.due = false
  explained : m.phase = .playing → m.lastFault.any Fault.explainsRest = true

variable {m next : Machine} {keys : List String} {step : Step} {phase : Phase}
  {seed : Option UInt32} {environment : Option Environment} {stepGuard : Option Nat}

theorem Standing.at_phase (standing : Standing keys m) (same : m.phase = phase) :
    Placed m.script m.cursor phase := same ▸ standing.placed

theorem Standing.nonempty (standing : Standing keys m) (playing : m.phase = .playing) :
    m.script ≠ [] := standing.at_phase playing

theorem Standing.atRest (standing : Standing keys m) (quiet : m.due = false) : AtRest keys m where
  quiet := quiet
  inside := standing.inside
  waiting := standing.at_phase
  choice := standing.at_phase
  ended := standing.at_phase
  playing := standing.at_phase
  flags := standing.flags
  tidy := standing.tidy

theorem Driven.resting (driven : Driven keys m) : Resting keys m where
  toStanding := driven.toStanding
  quiet := driven.quiet
  explained playing := by
    have halted := driven.halted playing driven.quiet
    obtain ⟨fault, known, stalls⟩ := (Option.any_eq_true ..).1 halted
    rw [known]
    exact Fault.explainsRest_of_stalls stalls

theorem resting_new :
    Resting (environment.getD .standard).keys (new seed environment stepGuard) :=
  ⟨⟨Nat.le_refl _, trivial, rfl, LocalStore.tidy_empty⟩, rfl, nofun⟩

theorem Resting.withStores (resting : Resting keys m) {stores : Stores}
    (flags : stores.environment.keys = keys) (tidy : stores.locals.Tidy) :
    Resting keys { m with stores := stores } :=
  ⟨⟨resting.inside, resting.placed, flags, tidy⟩, resting.quiet, resting.explained⟩

theorem Standing.landOn (standing : Standing keys m) (inside : target < m.script.length) :
    Sound keys (m.landOn target) :=
  ⟨⟨Nat.le_of_lt inside, List.ne_nil_of_length_pos (Nat.zero_lt_of_lt inside), standing.flags,
    standing.tidy⟩, nofun⟩

theorem Standing.withFault (standing : Standing keys m) (fault : Option Fault) :
    Standing keys { m with lastFault := fault } :=
  ⟨standing.inside, standing.placed, standing.flags, standing.tidy⟩

theorem Standing.jumpToLabel (standing : Standing keys m) (label : String) :
    Sound keys (m.jumpToLabel label).1 := by
  unfold Machine.jumpToLabel
  split
  · rename_i target found
    exact standing.landOn (Script.labelIndex?_lt found)
  · exact ⟨standing.withFault _, fun _ _ => rfl⟩

theorem inside_of_currentStep? (here : m.currentStep? = some step) : m.cursor < m.script.length :=
  (List.getElem?_eq_some_iff.1 here).1

theorem placed_of_parks (here : m.currentStep? = some step)
    (parked : step.kind.parks phase = true) : Placed m.script m.cursor phase := by
  unfold StepKind.parks at parked
  split at parked
  · rename_i label content kind
    exact ⟨step, here, by rw [kind]; rfl⟩
  · rename_i options kind
    exact ⟨step, here, by rw [kind]; rfl⟩
  · cases parked

theorem ne_playing_of_parks {kind : StepKind} (parked : kind.parks phase = true) :
    phase ≠ .playing := by
  rintro rfl
  simp [StepKind.parks] at parked

-- One case for each way to leave a step.
theorem Standing.leaves (standing : Standing keys m) (here : m.currentStep? = some step)
    (playing : m.phase = .playing) (left : m.Leaves step next signals) : Sound keys next := by
  have nonempty := standing.nonempty playing
  cases left with
  | goesOn stores fault _ environment tidy =>
    refine ⟨⟨inside_of_currentStep? here, ?_, ?_, tidy standing.tidy⟩, nofun⟩
    · change Placed m.script (m.cursor + 1) m.phase
      rw [playing]
      exact nonempty
    · exact (congrArg Dict.keys environment).trans standing.flags
  | jumps generator inside =>
    exact ⟨⟨Nat.le_of_lt inside, nonempty, standing.flags, standing.tidy⟩, nofun⟩
  | stuck generator fault record stalls =>
    exact ⟨⟨standing.inside, standing.placed, standing.flags, standing.tidy⟩,
      fun _ _ => stalls⟩
  | parks phase event parked =>
    exact ⟨⟨standing.inside, placed_of_parks here parked, standing.flags, standing.tidy⟩,
      fun isPlaying => absurd isPlaying (ne_playing_of_parks parked)⟩
  | ends last =>
    exact ⟨⟨standing.inside, .inr ⟨step, here, last⟩, standing.flags, standing.tidy⟩, nofun⟩

theorem Standing.finish (standing : Standing keys m) (beyond : m.currentStep? = none) :
    Sound keys m.finish.1 := by
  have last : m.cursor = m.script.length :=
    Nat.le_antisymm standing.inside (List.getElem?_eq_none_iff.1 beyond)
  exact ⟨⟨standing.inside, .inl last, standing.flags, standing.tidy⟩, nofun⟩

theorem Standing.begun (standing : Standing keys m) (due : Bool) (count : Nat) :
    Standing keys { m with due := due, stepCount := count } :=
  ⟨standing.inside, standing.placed, standing.flags, standing.tidy⟩

theorem Standing.work (standing : Standing keys m) (playing : m.phase = .playing) :
    Sound keys m.work.1 := by
  rcases m.work_acts with ⟨beyond, ended⟩ | ⟨step, here, acts⟩
  · rw [ended]
    exact standing.finish beyond
  · exact (standing.begun false (m.stepCount + 1)).leaves here playing acts.leaves

theorem Works.sound (works : Works units m signals next) (sound : Sound keys m) :
    Sound keys next := by
  induction works with
  | nil => exact sound
  | cons due further ih => exact ih (sound.toStanding.work (pending_iff.1 due).2)

theorem Sound.rest (sound : Sound keys m) (settled : m.pending = false) : Sound keys m.rest := by
  refine ⟨sound.toStanding.begun false m.stepCount, fun playing _ => sound.halted playing ?_⟩
  cases due : m.due with
  | false => rfl
  | true => exact absurd (pending_iff.2 ⟨due, playing⟩) (by simp [settled])

theorem Standing.giveUp (standing : Standing keys m) (limit : Nat) :
    Sound keys (m.giveUp limit) :=
  ⟨⟨standing.inside, trivial, standing.flags, standing.tidy⟩, nofun⟩

theorem Drives.driven {reply : Reply Unit} (drives : Drives m units reply)
    (sound : Sound keys m) : Driven keys reply.machine := by
  cases drives with
  | rests works within settled => exact ⟨(works.sound sound).rest settled, rfl⟩
  | trips works guarded left => exact ⟨(works.sound sound).toStanding.giveUp _, rfl⟩

theorem Resting.load (resting : Resting keys m) (script : Script) (globals locals : ValueMap) :
    Resting keys (m.load script globals locals).machine :=
  ⟨⟨Nat.zero_le _, trivial, resting.flags, LocalStore.tidy_ofMap locals⟩, rfl, nofun⟩

theorem Resting.opens (resting : Resting keys m) {drive : Drive} (opens : drive.Opens m opened) :
    Sound keys opened.1 := by
  cases opens with
  | atLabel nonempty running entry =>
    -- The phase is set before the jump, which leaves it alone when it finds no target.
    have playing : Standing keys { m with phase := .playing } :=
      ⟨resting.inside, nonempty, resting.flags, resting.tidy⟩
    exact playing.jumpToLabel _
  | atTop nonempty running entry =>
    exact ⟨⟨Nat.zero_le _, nonempty, resting.flags, resting.tidy⟩, nofun⟩
  | behind waiting =>
    obtain ⟨step, here, -⟩ := resting.at_phase waiting
    have inside := inside_of_currentStep? here
    have nonempty := List.ne_nil_of_length_pos (Nat.zero_lt_of_lt inside)
    exact ⟨⟨inside, nonempty, resting.flags, resting.tidy⟩, nofun⟩
  | atChoice choice => exact resting.toStanding.jumpToLabel _

theorem Resting.opening (resting : Resting keys m) {drive : Drive}
    (opening : drive.opening? m = some (entered, earlier)) : Sound keys entered :=
  resting.opens (Drive.opens_of_opening opening)

theorem Resting.returns (resting : Resting keys m) {drive : Drive} {reply : Reply Unit}
    (returns : drive.Returns m units reply) : Resting keys reply.machine := by
  cases returns with
  | idle nothing => rwa [Drive.idle_machine]
  | drives opening drives => exact (drives.driven (resting.opening opening)).resting

theorem Resting.on (resting : Resting keys m) (drive : Drive)
    (returned : drive.on budget m = some reply) : Resting keys reply.machine := by
  obtain ⟨units, returns, -⟩ := Drive.on_eq_some_iff.1 returned
  exact resting.returns returns

theorem placed_of_fits {s : Snapshot} (fits : m.fits s = true) :
    Placed m.script s.cursor s.phase ∧ s.cursor < m.script.length := by
  unfold Machine.fits at fits
  split at fits
  · rename_i step here phase
    rw [phase]
    exact ⟨⟨step, here, fits⟩, (List.getElem?_eq_some_iff.1 here).1⟩
  · rename_i step here phase
    rw [phase]
    exact ⟨⟨step, here, fits⟩, (List.getElem?_eq_some_iff.1 here).1⟩
  · cases fits

theorem isSuspended_of_fits {s : Snapshot} (fits : m.fits s = true) :
    s.phase.isSuspended = true := by
  unfold Machine.fits at fits
  split at fits
  · rename_i waiting; rw [waiting]; rfl
  · rename_i choice; rw [choice]; rfl
  · cases fits

theorem ne_playing_of_fits {s : Snapshot} (fits : m.fits s = true) : s.phase ≠ .playing := by
  intro playing
  have suspended := isSuspended_of_fits fits
  rw [playing] at suspended
  cases suspended

theorem Resting.taken (resting : Resting keys m) {s : Snapshot} {flags : Environment}
    (fits : m.fits s = true) (same : flags.keys = m.stores.environment.keys) :
    Resting keys (m.taken s flags) := by
  obtain ⟨placed, inside⟩ := placed_of_fits fits
  exact ⟨⟨Nat.le_of_lt inside, placed, same.trans resting.flags,
    LocalStore.tidy_ofMap s.locals⟩, rfl, fun playing => absurd playing (ne_playing_of_fits fits)⟩

theorem Performs.resting (performs : Performs m operation reply) (resting : Resting keys m) :
    Resting keys reply.machine := by
  cases performs with
  | drives drive returns => exact resting.returns returns
  | loads script globals locals => exact resting.load script globals locals
  | stops unended => exact ⟨⟨resting.inside, trivial, resting.flags, resting.tidy⟩, rfl, nofun⟩
  | ended ended => exact resting
  | sets set =>
    exact resting.withStores ((Environment.keys_set? set).trans resting.flags) resting.tidy
  | strays unknown => exact ⟨resting.toStanding.withFault _, resting.quiet, fun _ => rfl⟩
  | reads reads result => exact resting
  | writes writes stores environment tidy remarks answer =>
    exact resting.withStores ((congrArg Dict.keys environment).trans resting.flags)
      (tidy resting.tidy)
  | refuses s error => exact resting
  | resumes fits set => exact resting.taken fits (Environment.keys_setAll set)

theorem Resting.perform (resting : Resting keys m)
    (returned : m.perform budget operation = some reply) : Resting keys reply.machine :=
  (performs_of_perform returned).resting resting

theorem Resting.setEnvironment (resting : Resting keys m) (key : String) (value : Bool) :
    Resting keys (m.setEnvironment key value).machine :=
  (performs_setEnvironment m key value).resting resting

theorem Resting.resume (resting : Resting keys m) (s : Snapshot) :
    Resting keys (m.resume s).machine := (performs_resume m s).resting resting

theorem resting_of_reaches (resting : Resting keys m) (reached : Reaches m next) :
    Resting keys next := by
  induction reached with
  | refl => exact resting
  | perform before returned ih => exact ih.perform returned

theorem resting_of_new (reached : Reaches (new seed environment stepGuard) m) :
    Resting (environment.getD .standard).keys m :=
  resting_of_reaches resting_new reached

theorem snapshot_isOk_iff : (∃ s, m.snapshot = .ok s) ↔ m.phase = .waiting ∨ m.phase = .choice := by
  unfold Machine.snapshot
  cases m.phase <;> simp [Phase.isSuspended]

theorem resume_of_fits {s : Snapshot} (schema : s.schemaVersion = Snapshot.schema)
    (fits : m.fits s = true) (flags : m.stores.environment.keys = s.environment.keys) :
    m.resume s = (m.taken s s.environment).shown (refusals (LocalStore.mapNotices s.locals)) () := by
  simp [Machine.resume, taken, schema, fits, Environment.setAll_toList flags]

theorem Resting.fits (resting : Resting keys m) (suspended : m.phase.isSuspended = true)
    {s : Snapshot} (cursor : s.cursor = m.cursor) (phase : s.phase = m.phase) :
    m.fits s = true := by
  unfold Machine.fits
  rw [cursor, phase]
  cases own : m.phase with
  | waiting =>
    obtain ⟨step, here, kind⟩ := resting.toStanding.at_phase own
    simp [here, kind]
  | choice =>
    obtain ⟨step, here, kind⟩ := resting.toStanding.at_phase own
    simp [here, kind]
  | idle => simp [own, Phase.isSuspended] at suspended
  | playing => simp [own, Phase.isSuspended] at suspended
  | ended => simp [own, Phase.isSuspended] at suspended

theorem snapshot_eq_ok (taken : m.snapshot = .ok s) : m.phase.isSuspended = true ∧
    s = ⟨Snapshot.schema, m.cursor, m.phase, m.stores.globals, m.stores.locals.toMap,
      m.stores.environment, m.generator.state⟩ := by
  unfold Machine.snapshot at taken
  split at taken
  · rename_i suspended
    cases taken
    exact ⟨suspended, rfl⟩
  · cases taken

theorem rest_invariant (reached : Reaches (new seed environment stepGuard) m) :
    AtRest (environment.getD .standard).keys m ∧
      ((∃ s, m.snapshot = .ok s) ↔ m.phase = .waiting ∨ m.phase = .choice) ∧
      ∀ s, m.snapshot = .ok s → (m.resume s).result = .ok () := by
  have resting := resting_of_new reached
  refine ⟨resting.toStanding.atRest resting.quiet, snapshot_isOk_iff, ?_⟩
  intro s taken
  obtain ⟨suspended, rfl⟩ := snapshot_eq_ok taken
  rw [resume_of_fits rfl (resting.fits suspended rfl rfl) rfl]
  rfl

theorem rest_invariant_at_dialogue : ∃ m, Reaches (new none none (some 8)) m ∧
    m.phase = .waiting ∧ AtRest Environment.standard.keys m ∧
    ((∃ s, m.snapshot = .ok s) ↔ m.phase = .waiting ∨ m.phase = .choice) ∧
    ∀ s, m.snapshot = .ok s → (m.resume s).result = .ok () := by
  let load : Operation := .load [⟨none, .dialogue none none⟩] .empty .empty
  have loaded := Reaches.perform .refl
    (show (new none none (some 8)).perform 0 load = some _ from rfl)
  have started := Reaches.perform loaded (show Machine.perform 0 _ (.start none) = some _ from rfl)
  exact ⟨_, started, rfl, rest_invariant started⟩

end Machine

end VisualNovel
