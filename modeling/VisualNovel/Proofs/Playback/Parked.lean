import VisualNovel.Proofs.Playback.Kept
import VisualNovel.Proofs.Playback.Telling
import Mathlib.Data.List.Basic

namespace VisualNovel

namespace Machine

-- A machine that is parked on a step, with the event of that step and its options.
inductive ParkedOn (m : Machine) : Event → List ChoiceOption → Prop where
  | dialogue (waiting : m.phase = .waiting) (here : m.currentStep? = some step)
      (kind : step.kind = .dialogue label content) :
      ParkedOn m (.say (m.stores.renderText label) (m.stores.renderText content)) []
  | choice (choice : m.phase = .choice) (here : m.currentStep? = some step)
      (kind : step.kind = .choice options) : ParkedOn m (.choice options) options

-- Signals that told nothing, or left the machine where their last story event stops.
def Fresh (m : Machine) (signals : List Signal) : Prop :=
  storyEvents signals = [] ∨ m.Tells (storyEvents signals)

variable {m before : Machine} {keys : List String} {event : Event} {told : List Event}
  {options : List ChoiceOption} {reply : Reply Unit}

theorem ParkedOn.currentBoundary? (parked : ParkedOn m event options) :
    m.currentBoundary? = some event := by
  cases parked with
  | dialogue waiting here kind => exact currentBoundary?_dialogue here kind waiting
  | choice choice here kind => exact currentBoundary?_choice here kind choice

theorem ParkedOn.setEnvironment (parked : ParkedOn m event options) (key : String) (value : Bool) :
    ParkedOn (m.setEnvironment key value).machine event options := by
  unfold Machine.setEnvironment
  split
  · cases parked with
    | dialogue waiting here kind => exact .dialogue waiting here kind
    | choice choice here kind => exact .choice choice here kind
  · cases parked with
    | dialogue waiting here kind => exact .dialogue waiting here kind
    | choice choice here kind => exact .choice choice here kind

theorem Resting.parkedOn (resting : Resting keys m) (suspended : m.phase.isSuspended = true) :
    ∃ event options, ParkedOn m event options := by
  cases phase : m.phase with
  | waiting =>
    obtain ⟨step, here, dialogue⟩ := resting.toStanding.at_phase phase
    cases kind : step.kind with
    | dialogue label content => exact ⟨_, _, .dialogue phase here kind⟩
    | _ => rw [kind] at dialogue; cases dialogue
  | choice =>
    obtain ⟨step, here, choice⟩ := resting.toStanding.at_phase phase
    cases kind : step.kind with
    | choice options => exact ⟨_, _, .choice phase here kind⟩
    | _ => rw [kind] at choice; cases choice
  | idle => rw [phase] at suspended; cases suspended
  | playing => rw [phase] at suspended; cases suspended
  | ended => rw [phase] at suspended; cases suspended

theorem Tells.waiting_iff (tells : m.Tells told) :
    m.phase = .waiting ↔ ∃ name text, told.getLast? = some (.say name text) := by
  rw [tells.phase_iff rfl]
  constructor
  · rintro ⟨event, last, stop⟩
    cases event <;> cases stop
    exact ⟨_, _, last⟩
  · rintro ⟨name, text, last⟩
    exact ⟨_, last, rfl⟩

theorem Tells.choice_iff (tells : m.Tells told) :
    m.phase = .choice ↔ ∃ options, told.getLast? = some (.choice options) := by
  rw [tells.phase_iff rfl]
  constructor
  · rintro ⟨event, last, stop⟩
    cases event <;> cases stop
    exact ⟨_, last⟩
  · rintro ⟨options, last⟩
    exact ⟨_, last, rfl⟩

theorem Tells.ended_iff (tells : m.Tells told) :
    m.phase = .ended ↔ told.getLast? = some .finish := by
  rw [tells.phase_iff rfl]
  constructor
  · rintro ⟨event, last, stop⟩
    cases event <;> cases stop
    exact last
  · exact fun last => ⟨_, last, rfl⟩

theorem isOpen_of_isSuspended {phase : Phase} (suspended : phase.isSuspended = true) :
    phase.isOpen = false := by
  cases phase <;> first | rfl | cases suspended

theorem Tells.shown (tells : m.Tells told) (suspended : m.phase.isSuspended = true) :
    m.currentBoundary? = told.getLast? := by
  have closed := isOpen_of_isSuspended suspended
  obtain ⟨event, last, -, shown⟩ := tells.getLast?_iff closed
  rw [last, shown suspended]

theorem currentBoundary?_of_running (running : m.phase.isSuspended = false) :
    m.currentBoundary? = none := by
  unfold Machine.currentBoundary?
  split
  · rfl
  · split
    · rename_i waiting
      rw [waiting] at running
      cases running
    · rename_i choice
      rw [choice] at running
      cases running
    · rfl

theorem Fresh.of_returns {drive : Drive} (returns : drive.Returns before units reply) :
    reply.machine.Fresh reply.signals := by
  rcases Nat.eq_zero_or_pos units with rfl | worked
  · exact .inl returns.quiet
  · exact .inr (returns.tells worked)

theorem Fresh.of_on (drive : Drive) (returned : drive.on budget before = some reply) :
    reply.machine.Fresh reply.signals := by
  obtain ⟨units, returns, -⟩ := Drive.on_eq_some_iff.1 returned
  exact .of_returns returns

theorem Fresh.behind (fresh : m.Fresh signals) (quiet : storyEvents earlier = []) :
    m.Fresh (earlier ++ signals) := by
  unfold Fresh
  rw [storyEvents_append, quiet]
  exact fresh

theorem fresh_of_create {setup : Setup} (created : setup.create budget text = some outcome)
    (accepted : outcome.result = .ok m) : m.Fresh outcome.signals := by
  unfold Setup.create at created
  split at created
  · cases Option.some.inj created
    exact .inl rfl
  · rename_i script parsed
    have quiet : storyEvents (setup.loaded script).signals = [] := by
      unfold Setup.loaded Machine.load shown
      exact storyEvents_shown (isRemark_refusals _) _
    dsimp only at created
    split at created
    · obtain ⟨reply, started, rfl⟩ := Option.map_eq_some_iff.1 created
      cases machine_of_outcome accepted
      have fresh := Fresh.of_on (.start setup.startLabel) started
      exact fresh.behind quiet
    · cases Option.some.inj created
      exact .inl quiet

theorem ParkedOn.isSuspended (parked : ParkedOn m event options) :
    m.phase.isSuspended = true := by
  cases parked with
  | dialogue waiting here kind => rw [waiting]; rfl
  | choice choice here kind => rw [choice]; rfl

theorem Fresh.last (fresh : m.Fresh signals) (told : storyEvents signals ≠ [])
    (parked : ParkedOn m event options) :
    ∃ earlier, storyEvents signals = earlier ++ [event] := by
  have shown := (fresh.resolve_left told).shown parked.isSuspended
  have last := shown.symm.trans parked.currentBoundary?
  exact ⟨_, (List.dropLast_append_getLast? event last).symm⟩

end Machine

end VisualNovel
