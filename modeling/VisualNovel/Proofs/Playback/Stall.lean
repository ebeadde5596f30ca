import VisualNovel.Proofs.Playback.Rest

namespace VisualNovel

namespace Operation

def isStart : Operation → Bool
  | .start _ => true
  | _ => false

def leavesPlaying : Operation → Bool
  | .load _ _ _ => true
  | .start _ => true
  | .stop => true
  | .resume _ => true
  | _ => false

def conceals (keys : List String) : Operation → Bool
  | .setEnvironment key _ => key ∉ keys
  | _ => false

theorem plain_of_access (operation : Operation)
    (access : operation.reads = true ∨ operation.writes = true) :
    operation.conceals keys = false ∧ operation.isStart = false := by
  cases operation <;> first | exact ⟨rfl, rfl⟩ | simp [reads, writes] at access

end Operation

namespace Drive

variable {m : Machine}

theorem conceals_operation (drive : Drive) : drive.operation.conceals keys = false := by
  cases drive <;> rfl

theorem isStart_of_idle (drive : Drive) (nothing : drive.opening? m = none)
    (playing : m.phase = .playing) (nonempty : m.script ≠ []) :
    drive.operation.isStart = false := by
  cases drive with
  | start label =>
    have kept := opening?_start_eq_none.1 nothing
    rw [playing] at kept
    exact absurd (kept.resolve_left nonempty) nofun
  | advance => rfl
  | choose label => rfl

theorem ne_playing_of_opening (drive : Drive) (opening : drive.opening? m = some opened)
    (other : drive.operation.isStart = false) : m.phase ≠ .playing := by
  intro playing
  cases opens_of_opening opening with
  | atLabel => cases other
  | atTop => cases other
  | behind waiting => cases playing.symm.trans waiting
  | atChoice choice => cases playing.symm.trans choice

end Drive

namespace Machine

-- The operations that led to a machine, the latest first, each with the machine it was done on.
inductive Trail (first : Machine) : List (Machine × Operation) → Machine → Prop where
  | nil : Trail first [] first
  | cons (before : Trail first history m) (returned : m.perform budget operation = some reply) :
      Trail first ((m, operation) :: history) reply.machine

-- Since the machine came to play last, a flag was set that it does not have.
def Concealed (keys : List String) : List (Machine × Operation) → Prop
  | [] => False
  | (m, operation) :: earlier => m.phase = .playing ∧ operation.isStart = false ∧
      (operation.conceals keys = true ∨ Concealed keys earlier)

variable {m : Machine} {keys : List String}

theorem reaches_of_trail (trail : Trail first history m) : Reaches first m := by
  induction trail with
  | nil => exact .refl
  | cons before returned ih => exact .perform ih returned

theorem isStalled_iff : m.isStalled = true ↔
    m.phase = .playing ∧ m.due = false ∧ m.lastFault.any Fault.stalls = true := by
  simp [isStalled, and_assoc]

theorem Driven.isStalled (driven : Driven keys m) (playing : m.phase = .playing) :
    m.isStalled = true :=
  isStalled_iff.2 ⟨playing, driven.quiet, driven.halted playing driven.quiet⟩

-- What one operation does to a stall, if the machine plays after it.
def ShownAfter (keys : List String) (m : Machine) (operation : Operation) : Prop :=
  m.phase = .playing → operation.isStart = false →
    operation.conceals keys = false ∧ m.isStalled = true

theorem shownAfter_of_same {next : Machine} {operation : Operation}
    (same : next.isStalled = m.isStalled) (phase : next.phase = m.phase)
    (shown : operation.conceals keys = false) (other : operation.isStart = false)
    (playing : next.phase = .playing) :
    next.isStalled = true ↔ ShownAfter keys m operation := by
  simp [ShownAfter, same, ← phase, playing, shown, other]

theorem shownAfter_of_driven {next : Machine} {operation : Operation}
    (driven : Driven keys next) (before : m.phase ≠ .playing) (playing : next.phase = .playing) :
    next.isStalled = true ↔ ShownAfter keys m operation := by
  simp [ShownAfter, driven.isStalled playing, before]

theorem shownAfter_setEnvironment_unknown {key : String} (resting : Resting keys m)
    (unknown : m.stores.environment.set? key value = none) (playing : m.phase = .playing) :
    ¬ ShownAfter keys m (.setEnvironment key value) := by
  have missing : key ∉ keys := by
    rw [← resting.flags, Dict.mem_keys, Environment.set?_eq_none.1 unknown]
    exact nofun
  intro shown
  simpa [Operation.conceals, missing] using (shown playing rfl).1

theorem isStalled_returns (resting : Resting keys m) {drive : Drive} {reply : Reply Unit}
    (returns : drive.Returns m units reply) (playing : reply.machine.phase = .playing) :
    reply.machine.isStalled = true ↔ ShownAfter keys m drive.operation := by
  cases returns with
  | idle nothing =>
    rw [Drive.idle_machine] at playing ⊢
    have other := drive.isStart_of_idle nothing playing (resting.nonempty playing)
    exact shownAfter_of_same rfl rfl drive.conceals_operation other playing
  | @drives entered earlier _ own opening drives =>
    have driven : Driven keys (own.behind earlier).machine :=
      drives.driven (resting.opening opening)
    cases start : drive.operation.isStart with
    | true => simp [ShownAfter, start, driven.isStalled playing]
    | false => exact shownAfter_of_driven driven (drive.ne_playing_of_opening opening start) playing

theorem Performs.isStalled (performs : Performs m operation reply) (resting : Resting keys m)
    (playing : reply.machine.phase = .playing) :
    reply.machine.isStalled = true ↔ ShownAfter keys m operation := by
  cases performs with
  | drives drive returns => exact isStalled_returns resting returns playing
  | loads script globals locals => cases playing
  | stops unended => cases playing
  | ended ended => exact absurd (ended.symm.trans playing) nofun
  | @sets key value environment set =>
    have known : key ∈ keys := by
      rw [← resting.flags, Dict.mem_keys]
      exact (Environment.set?_eq_some set).1
    exact shownAfter_of_same rfl rfl (by simpa [Operation.conceals] using known) rfl playing
  | strays unknown =>
    refine iff_of_false ?_ (shownAfter_setEnvironment_unknown resting unknown playing)
    intro stalled
    exact Bool.false_ne_true (isStalled_iff.1 stalled).2.2
  | reads reads result =>
    obtain ⟨shown, other⟩ := operation.plain_of_access (.inl reads)
    exact shownAfter_of_same rfl rfl shown other playing
  | writes writes stores environment tidy remarks answer =>
    obtain ⟨shown, other⟩ := operation.plain_of_access (.inr writes)
    exact shownAfter_of_same rfl rfl shown other playing
  | refuses s error => exact shownAfter_of_same rfl rfl rfl rfl playing
  | resumes fits set => exact absurd playing (ne_playing_of_fits fits)

-- Along the trail: what each operation does to the stall that was there before it.
theorem isStalled_trail (resting : Resting keys first) (idle : first.phase ≠ .playing)
    (trail : Trail first history m) (playing : m.phase = .playing) :
    m.isStalled = true ↔ ¬ Concealed keys history := by
  induction trail with
  | nil => exact absurd playing idle
  | @cons history m budget operation reply before returned ih =>
    have held := resting_of_reaches resting (reaches_of_trail before)
    rw [(performs_of_perform returned).isStalled held playing]
    by_cases played : m.phase = .playing
    · simp [ShownAfter, Concealed, played, ih played]
    · simp [ShownAfter, Concealed, played]

theorem keeps_playing (playing : m.phase = .playing) (other : operation.leavesPlaying = false)
    (budget : Nat) :
    ∃ reply, m.perform budget operation = some reply ∧ reply.machine.phase = .playing := by
  cases operation with
  | load script globals locals => cases other
  | start label => cases other
  | stop => cases other
  | resume s => cases other
  | advance => exact ⟨m.unchanged.done, by simp [perform, advance, playing], playing⟩
  | choose label => exact ⟨m.unchanged.done, by simp [perform, choose, playing], playing⟩
  | setEnvironment key value =>
    refine ⟨_, rfl, ?_⟩
    change (m.setEnvironment key value).machine.phase = .playing
    unfold Machine.setEnvironment
    split <;> exact playing
  | _ => exact ⟨_, rfl, playing⟩

theorem stalled_iff_not_concealed {seed : Option UInt32} {environment : Option Environment}
    {stepGuard : Option Nat} (trail : Trail (new seed environment stepGuard) history m)
    (playing : m.phase = .playing) :
    (m.isStalled = true ↔ ¬ Concealed (environment.getD .standard).keys history) ∧
      ∀ budget operation, operation.leavesPlaying = false →
        ∃ reply, m.perform budget operation = some reply ∧ reply.machine.phase = .playing := by
  constructor
  · exact isStalled_trail resting_new nofun trail playing
  · intro budget operation other
    exact keeps_playing playing other budget

-- A story of one step, started at a label that it does not have, before and after a flag is set
-- that its machine does not have.
theorem stalled_iff_not_concealed_at_missing_label : ∃ m history,
    Trail (new none none none) history m ∧ m.phase = .playing ∧
      (m.isStalled = true ↔ ¬ Concealed Environment.standard.keys history) ∧
      ∀ budget operation, operation.leavesPlaying = false →
        ∃ reply, m.perform budget operation = some reply ∧ reply.machine.phase = .playing := by
  let load : Operation := .load [⟨none, .start⟩] .empty .empty
  have loaded := Trail.cons .nil
    (show (new none none none).perform 0 load = some _ from rfl)
  have started := Trail.cons loaded
    (show Machine.perform 0 _ (.start (some "nowhere")) = some _ from rfl)
  exact ⟨_, _, started, rfl, stalled_iff_not_concealed started rfl⟩

theorem stall_concealed_by_missing_flag :
    ¬ ∀ m, Reaches (new none none none) m → m.phase = .playing → m.isStalled = true := by
  intro shown
  let load : Operation := .load [⟨none, .start⟩] .empty .empty
  have loaded := Reaches.perform .refl
    (show (new none none none).perform 0 load = some _ from rfl)
  have started := Reaches.perform loaded
    (show Machine.perform 0 _ (.start (some "nowhere")) = some _ from rfl)
  have refused := Reaches.perform started
    (show Machine.perform 0 _ (.setEnvironment "isNoon" true) = some _ from rfl)
  exact absurd (shown _ refused (by decide)) (by decide)

end Machine

end VisualNovel
