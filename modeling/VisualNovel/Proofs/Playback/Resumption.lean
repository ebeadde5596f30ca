import VisualNovel.Proofs.Playback.Past
import VisualNovel.Proofs.Playback.Rest
import Mathlib.Data.List.Forall2

namespace VisualNovel

structure View where
  phase : Phase
  cursor : Nat
  globals : ValueMap
  locals : ValueMap
  environment : Environment
  autosave : Option String
  unlocked : List String
  stalled : Bool
  snapshot : Except StoryError Snapshot

namespace Machine

def view (m : Machine) : View :=
  { phase := m.phase
    cursor := m.cursor
    globals := m.stores.globals
    locals := m.stores.locals.toMap
    environment := m.stores.environment
    autosave := m.stores.locals.autosave
    unlocked := m.stores.locals.unlocked
    stalled := m.isStalled
    snapshot := m.snapshot }

-- The replies to calls in turn, each call with a budget of its own, if all of them return.
def calls (m : Machine) : List (Nat × Operation) → Option (List (Reply Answer))
  | [] => some []
  | (budget, operation) :: rest =>
    (m.perform budget operation).bind fun reply =>
      (reply.machine.calls rest).map (reply :: ·)

def past (m : Machine) : Past := ⟨m.seed, m.stepCount, m.lastFault⟩

end Machine

-- Two replies to the same call, one of them by a machine that has a past besides.
structure Alike (past : Past) (original resumed : Reply Answer) : Prop where
  result : original.result = resumed.result
  signals : original.signals = resumed.signals
  view : original.machine.view = resumed.machine.view
  steps : original.machine.stepCount = past.steps + resumed.machine.stepCount
  fault : original.machine.lastFault = resumed.machine.lastFault.or past.fault

namespace Machine

variable {m other : Machine} {keys : List String}

theorem calls_nil_eq_some (returned : m.calls [] = some replies) : replies = [] := by
  rw [calls] at returned
  exact (Option.some.inj returned).symm

theorem calls_cons_eq_some (returned : m.calls (call :: more) = some replies) :
    ∃ reply later, m.perform call.1 call.2 = some reply ∧
      reply.machine.calls more = some later ∧ replies = reply :: later := by
  rw [calls] at returned
  obtain ⟨reply, performed, returned⟩ := Option.bind_eq_some_iff.1 returned
  obtain ⟨later, continued, rfl⟩ := Option.map_eq_some_iff.1 returned
  exact ⟨reply, later, performed, continued, rfl⟩

-- A machine that rests while it plays remembers a fault of its own, which hides that of the past.
theorem isStalled_withPast (resting : Resting keys m) (past : Past) :
    (m.withPast past).isStalled = m.isStalled := by
  by_cases playing : m.phase = .playing
  · obtain ⟨fault, known, -⟩ := (Option.any_eq_true ..).1 (resting.explained playing)
    simp [isStalled, withPast, known]
  · simp [isStalled, withPast, playing]

theorem view_withPast (resting : Resting keys m) (past : Past) :
    (m.withPast past).view = m.view := by
  have stalled := isStalled_withPast resting past
  unfold view
  rw [stalled]
  rfl

theorem alike_withPast {reply : Reply Answer} (resting : Resting keys reply.machine)
    (past : Past) : Alike past (reply.withPast past) reply :=
  ⟨rfl, rfl, view_withPast resting past, rfl, rfl⟩

theorem calls_withPast (goOn : ∀ call ∈ requests, call.2.goesOn = true) (past : Past) :
    (m.withPast past).calls requests =
      (m.calls requests).map (List.map (Reply.withPast · past)) := by
  induction requests generalizing m with
  | nil => rfl
  | cons call rest ih =>
    obtain ⟨budget, operation⟩ := call
    obtain ⟨here, after⟩ := List.forall_mem_cons.1 goOn
    rw [calls, calls, perform_withPast m past budget here]
    cases m.perform budget operation with
    | none => rfl
    | some reply =>
      simp only [Option.map_some, Option.bind_some]
      rw [show (reply.withPast past).machine = reply.machine.withPast past from rfl, ih after]
      simp [Option.map_map, Function.comp_def]

theorem calls_keep {P : Machine → Prop}
    (keeps : ∀ call ∈ requests, ∀ {before : Machine} {reply}, P before →
      before.perform call.1 call.2 = some reply → P reply.machine)
    (holds : P m) (returned : m.calls requests = some replies) :
    ∀ reply ∈ replies, P reply.machine := by
  induction requests generalizing m replies with
  | nil =>
    cases calls_nil_eq_some returned
    exact List.forall_mem_nil _
  | cons call rest ih =>
    obtain ⟨reply, later, performed, continued, rfl⟩ := calls_cons_eq_some returned
    obtain ⟨here, others⟩ := List.forall_mem_cons.1 keeps
    have after := here holds performed
    exact List.forall_mem_cons.2 ⟨after, ih others after continued⟩

theorem resting_calls (resting : Resting keys m) (returned : m.calls requests = some replies) :
    ∀ reply ∈ replies, Resting keys reply.machine := by
  refine calls_keep (fun call _ => ?_) resting returned
  exact Resting.perform

theorem forall₂_alike {past : Past}
    (resting : ∀ reply ∈ replies, Resting keys reply.machine) :
    List.Forall₂ (Alike past) (replies.map (Reply.withPast · past)) replies := by
  induction replies with
  | nil => exact .nil
  | cons reply rest ih =>
    obtain ⟨here, others⟩ := List.forall_mem_cons.1 resting
    exact .cons (alike_withPast here past) (ih others)

-- A fault is remembered until a load or a resume, though a later one may take its place.
theorem lastFault_stays (goesOn : operation.goesOn = true)
    (returned : m.perform budget operation = some reply) (faulty : m.lastFault.isSome = true) :
    reply.machine.lastFault.isSome = true := by
  have split : m = ({ m with lastFault := none } : Machine).withPast ⟨m.seed, 0, m.lastFault⟩ := by
    simp [withPast]
  rw [split, perform_withPast _ _ budget goesOn] at returned
  obtain ⟨clean, -, rfl⟩ := Option.map_eq_some_iff.1 returned
  simp [Reply.withPast, withPast, faulty]

theorem lastFault_stays_calls (goOn : ∀ call ∈ requests, call.2.goesOn = true)
    (returned : m.calls requests = some replies) (faulty : m.lastFault.isSome = true) :
    ∀ reply ∈ replies, reply.machine.lastFault.isSome = true := by
  refine calls_keep (P := fun m => m.lastFault.isSome = true) (fun call member => ?_) faulty returned
  exact fun faulty performed => lastFault_stays (goOn call member) performed faulty

theorem lastFault_pairwise (goOn : ∀ call ∈ requests, call.2.goesOn = true)
    (returned : m.calls requests = some replies) :
    replies.Pairwise fun earlier later =>
      earlier.machine.lastFault.isSome = true → later.machine.lastFault.isSome = true := by
  induction requests generalizing m replies with
  | nil =>
    cases calls_nil_eq_some returned
    exact .nil
  | cons call rest ih =>
    obtain ⟨reply, later, performed, continued, rfl⟩ := calls_cons_eq_some returned
    obtain ⟨-, others⟩ := List.forall_mem_cons.1 goOn
    refine List.pairwise_cons.2 ⟨?_, ih others continued⟩
    intro answer member faulty
    exact lastFault_stays_calls others continued faulty answer member

structure Resumed (keys : List String) (original resumed : Machine) : Prop where
  resting : Resting keys resumed
  clean : resumed.lastFault = none
  fresh : resumed.stepCount = 0
  same : original = resumed.withPast original.past

theorem fits_of_script (script : other.script = m.script) (s : Snapshot) :
    other.fits s = m.fits s := by
  unfold Machine.fits
  rw [script]

theorem resume_snapshot (resting : Resting keys m) (taken : m.snapshot = .ok s)
    (script : other.script = m.script) (guard : other.stepGuard = m.stepGuard)
    (flags : other.stores.environment.keys = m.stores.environment.keys) :
    ∃ resumed signals, other.resume s = ⟨resumed, signals, .ok ()⟩ ∧
      storyEvents signals = [] ∧ Resumed keys m resumed := by
  obtain ⟨suspended, made⟩ := snapshot_eq_ok taken
  have own : m.fits s = true := resting.fits suspended (by rw [made]) (by rw [made])
  have fits : other.fits s = true := (fits_of_script script s).trans own
  obtain ⟨placed, inside⟩ := placed_of_fits fits
  have playing := ne_playing_of_fits fits
  subst made
  refine ⟨_, _, resume_of_fits rfl fits flags, storyEvents_shown (isRemark_refusals _) _, ?_, rfl, rfl, ?_⟩
  · exact ⟨⟨Nat.le_of_lt inside, placed, resting.flags, LocalStore.tidy_ofMap _⟩, rfl,
      fun isPlaying => absurd isPlaying playing⟩
  -- Every field is in the snapshot, in the other machine, or in the past.
  · obtain ⟨ownScript, cursor, phase, ⟨globals, locals, environment⟩, generator, seed, stepGuard,
      due, stepCount, lastFault⟩ := m
    have quiet : due = false := resting.quiet
    have folded : LocalStore.ofMap locals.toMap = locals := LocalStore.ofMap_toMap resting.tidy
    have sameScript : other.script = ownScript := script
    have sameGuard : other.stepGuard = stepGuard := guard
    simp [withPast, Machine.taken, resetRun, Machine.past, quiet, folded, sameScript, sameGuard]

theorem resume_transparent {seed : Option UInt32} {environment : Option Environment}
    {stepGuard : Option Nat} (reached : Reaches (new seed environment stepGuard) m)
    (suspended : m.phase = .waiting ∨ m.phase = .choice) (other : Machine)
    (script : other.script = m.script) (guard : other.stepGuard = m.stepGuard)
    (flags : other.stores.environment.keys = m.stores.environment.keys) :
    ∃ s resumed signals, m.snapshot = .ok s ∧ other.resume s = ⟨resumed, signals, .ok ()⟩ ∧
      storyEvents signals = [] ∧ m.view = resumed.view ∧ resumed.lastFault = none ∧
      ∀ requests, (∀ call ∈ requests, call.2.goesOn = true) →
        Option.Rel (List.Forall₂ (Alike m.past)) (m.calls requests) (resumed.calls requests) ∧
        ∀ replies, resumed.calls requests = some replies →
          replies.Pairwise fun earlier later =>
            earlier.machine.lastFault.isSome = true → later.machine.lastFault.isSome = true := by
  have resting := resting_of_new reached
  obtain ⟨s, taken⟩ := snapshot_isOk_iff.2 suspended
  obtain ⟨resumed, signals, accepted, silent, result⟩ :=
    resume_snapshot resting taken script guard flags
  refine ⟨s, resumed, signals, taken, accepted, silent, ?_, result.clean, ?_⟩
  · have seen := view_withPast result.resting m.past
    rwa [← result.same] at seen
  · intro requests goOn
    refine ⟨?_, fun replies returned => lastFault_pairwise goOn returned⟩
    have same := calls_withPast goOn m.past (m := resumed)
    rw [← result.same] at same
    rw [same]
    cases returned : resumed.calls requests with
    | none => exact .none
    | some replies =>
      exact .some (forall₂_alike (resting_calls result.resting returned))

-- A story of one line, taken up from its snapshot by a machine with another seed.
theorem resume_transparent_at_dialogue : ∃ m other : Machine, m.phase = .waiting ∧
    other.seed ≠ m.seed ∧ ∃ s resumed signals, m.snapshot = .ok s ∧
      other.resume s = ⟨resumed, signals, .ok ()⟩ ∧ m.view = resumed.view ∧
      ∀ requests, (∀ call ∈ requests, call.2.goesOn = true) →
        Option.Rel (List.Forall₂ (Alike m.past)) (m.calls requests) (resumed.calls requests) := by
  let script : Script := [⟨none, .dialogue none none⟩]
  let other := ((new (some 7) none (some 8)).load script .empty .empty).machine
  have loaded := Reaches.perform .refl
    (show (new none none (some 8)).perform 0 (.load script .empty .empty) = some _ from rfl)
  have started := Reaches.perform loaded (show Machine.perform 0 _ (.start none) = some _ from rfl)
  obtain ⟨s, resumed, signals, taken, accepted, -, seen, -, further⟩ :=
    resume_transparent started (.inl rfl) other rfl rfl rfl
  exact ⟨_, other, rfl, by decide, s, resumed, signals, taken, accepted, seen,
    fun requests goOn => (further requests goOn).1⟩

end Machine

end VisualNovel
