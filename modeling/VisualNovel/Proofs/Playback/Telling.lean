import VisualNovel.Proofs.Playback.Units

namespace VisualNovel

def Event.stop? : Event → Option Phase
  | .say _ _ => some .waiting
  | .choice _ => some .choice
  | .finish => some .ended
  | .showSprite _ _ => none
  | .removeSprite _ => none
  | .background _ => none
  | .autoSave _ => none
  | .updateDebug _ _ _ => none

-- A story that was not stopped plays on, or was paused from outside.
def Phase.isOpen : Phase → Bool
  | .idle => true
  | .playing => true
  | .waiting => false
  | .choice => false
  | .ended => false

theorem Event.closed_of_stop? {event : Event} {phase : Phase} (stop : event.stop? = some phase) :
    phase.isOpen = false := by
  cases event <;> cases stop <;> rfl

theorem Event.story_of_stop? {event : Event} {phase : Phase} (stop : event.stop? = some phase) :
    event.isDebug = false := by
  cases event <;> first | rfl | cases stop

theorem Event.open_of_isPassing {event : Event} (passing : event.isPassing = true) :
    event.stop? = none := by
  cases event <;> first | rfl | cases passing

namespace Machine

-- Where a machine stands that has told these story events.
inductive Tells (m : Machine) : List Event → Prop where
  | goesOn {told : List Event} (running : m.phase.isOpen = true)
      (unstopped : ∀ event ∈ told, event.stop? = none) : Tells m told
  | stops {before : List Event} {event : Event} (unstopped : ∀ event ∈ before, event.stop? = none)
      (stop : event.stop? = some m.phase)
      (shown : m.phase.isSuspended = true → m.currentBoundary? = some event) :
      Tells m (before ++ [event])

variable {m next : Machine} {told earlier later : List Event} {event : Event} {phase : Phase}
  {step : Step}

theorem Tells.silent (running : m.phase.isOpen = true) (quiet : storyEvents signals = []) :
    m.Tells (storyEvents signals) := by
  rw [quiet]
  exact .goesOn running (List.forall_mem_nil _)

theorem Tells.dropLast (tells : m.Tells told) : ∀ event ∈ told.dropLast, event.stop? = none := by
  cases tells with
  | goesOn running unstopped => exact fun event member => unstopped event (List.dropLast_subset _ member)
  | stops unstopped stop shown => simpa using unstopped

theorem Tells.getLast?_iff (tells : m.Tells told) (phase : m.phase.isOpen = false) :
    ∃ event, told.getLast? = some event ∧ event.stop? = some m.phase ∧
      (m.phase.isSuspended = true → m.currentBoundary? = some event) := by
  cases tells with
  | goesOn running unstopped => rw [running] at phase; cases phase
  | stops unstopped stop shown => exact ⟨_, by simp, stop, shown⟩

theorem Tells.phase_of_getLast? (tells : m.Tells told) (last : told.getLast? = some event)
    (stop : event.stop? = some phase) : m.phase = phase := by
  cases tells with
  | goesOn running unstopped =>
    rw [unstopped event (List.mem_of_getLast? last)] at stop
    cases stop
  | stops unstopped own shown =>
    simp only [List.getLast?_append, List.getLast?_singleton, Option.some_or,
      Option.some.injEq] at last
    subst last
    exact Option.some.inj (own.symm.trans stop)

theorem Tells.phase_iff (tells : m.Tells told) (closed : phase.isOpen = false) :
    m.phase = phase ↔ ∃ event, told.getLast? = some event ∧ event.stop? = some phase := by
  constructor
  · rintro rfl
    obtain ⟨event, last, stop, -⟩ := tells.getLast?_iff closed
    exact ⟨event, last, stop⟩
  · rintro ⟨event, last, stop⟩
    exact tells.phase_of_getLast? last stop

theorem Tells.unstopped (tells : m.Tells told) (running : m.phase.isOpen = true) :
    ∀ event ∈ told, event.stop? = none := by
  cases tells with
  | goesOn _ unstopped => exact unstopped
  | stops unstopped stop shown =>
    rw [Event.closed_of_stop? stop] at running
    cases running

theorem Tells.prepend (tells : m.Tells later) (unstopped : ∀ event ∈ earlier, event.stop? = none) :
    m.Tells (earlier ++ later) := by
  cases tells with
  | goesOn running others => exact .goesOn running (List.forall_mem_append.2 ⟨unstopped, others⟩)
  | stops others stop shown =>
    rw [← List.append_assoc]
    exact .stops (List.forall_mem_append.2 ⟨unstopped, others⟩) stop shown

theorem Tells.rest (tells : m.Tells told) : m.rest.Tells told := by
  cases tells with
  | goesOn running unstopped => exact .goesOn running unstopped
  | stops unstopped stop shown => exact .stops unstopped stop shown

theorem tells_of_jumpToLabel (running : m.phase.isOpen = true) (label : String) :
    (m.jumpToLabel label).1.Tells (storyEvents (m.jumpToLabel label).2) := by
  unfold jumpToLabel
  split
  · exact .silent rfl rfl
  · exact .silent running rfl

theorem tells_of_jumpToId (running : m.phase.isOpen = true) (id : StepId) :
    (m.jumpToId id).1.Tells (storyEvents (m.jumpToId id).2) := by
  unfold jumpToId
  split
  · exact .silent rfl rfl
  · exact .silent running rfl

theorem tells_of_tell (running : m.phase.isOpen = true) (unstopped : event.stop? = none) :
    (m.tell event).1.Tells (storyEvents (m.tell event).2) := by
  refine .goesOn running fun other member => ?_
  obtain ⟨signal, sent, story⟩ := List.mem_filterMap.1 member
  cases List.mem_singleton.1 sent
  simp only [Signal.story?] at story
  split at story
  · cases story
  · rwa [← Option.some.inj story]

theorem currentBoundary?_dialogue (here : m.currentStep? = some step)
    (kind : step.kind = .dialogue label content) (waiting : m.phase = .waiting) :
    m.currentBoundary? = some (m.sayEvent label content) := by
  simp [currentBoundary?, here, kind, waiting]

theorem currentBoundary?_choice (here : m.currentStep? = some step)
    (kind : step.kind = .choice options) (choice : m.phase = .choice) :
    m.currentBoundary? = some (.choice options) := by
  simp [currentBoundary?, here, kind, choice]

-- A parked machine shows the event under which it was parked.
theorem tells_of_park (stop : event.stop? = some phase)
    (shown : { m with phase := phase }.currentBoundary? = some event) :
    (m.park phase event).1.Tells (storyEvents (m.park phase event).2) := by
  have told : (Signal.event event).story? = some event := by
    simp [Signal.story?, Event.story_of_stop? stop]
  have silent : Signal.story? { m with phase := phase }.debugEvent = none := rfl
  have alone : storyEvents (m.park phase event).2 = [] ++ [event] := by
    simp [storyEvents, park, told, silent]
  rw [alone]
  exact .stops (List.forall_mem_nil _) stop fun _ => shown

theorem tells_of_finish (m : Machine) : m.finish.1.Tells (storyEvents m.finish.2) :=
  show m.finish.1.Tells ([] ++ [.finish]) from .stops (List.forall_mem_nil _) rfl nofun

theorem Acts.tells {done : Machine × List Signal} (acts : Acts m step done)
    (here : m.currentStep? = some step) (running : m.phase.isOpen = true) :
    done.1.Tells (storyEvents done.2) := by
  cases acts with
  | passes => exact .silent running rfl
  | emits stores environment tidy passing =>
    exact tells_of_tell running (Event.open_of_isPassing passing)
  | changes stores environment tidy remarks =>
    exact .silent running (storyEvents_shown remarks _)
  | strays => exact .silent running rfl
  | skips kind => exact .silent running rfl
  | jumpsToLabel generator label =>
    exact tells_of_jumpToLabel (m := { m with generator := generator }) running label
  | jumpsToId id => exact tells_of_jumpToId running id
  | speaks kind => exact tells_of_park rfl (currentBoundary?_dialogue here kind rfl)
  | asks kind => exact tells_of_park rfl (currentBoundary?_choice here kind rfl)
  | ends kind => exact tells_of_finish m

theorem work_tells (running : m.phase.isOpen = true) :
    m.work.1.Tells (storyEvents m.work.2) := by
  rcases m.work_acts with ⟨-, ended⟩ | ⟨step, here, acts⟩
  · rw [ended]
    exact tells_of_finish m
  · exact acts.tells here running

theorem running_of_pending (pending : m.pending = true) : m.phase.isOpen = true := by
  rw [(pending_iff.1 pending).2]
  rfl

-- After the first unit the machine has stopped, or what that unit told goes before the rest.
theorem Works.tells (works : Works units m signals next) (running : m.phase.isOpen = true) :
    next.Tells (storyEvents signals) := by
  induction works with
  | nil => exact .silent running rfl
  | @cons units signals next m due further ih =>
    have first := work_tells running
    rw [storyEvents_append]
    cases further with
    | nil => simpa [storyEvents] using first
    | cons still more =>
      have goesOn := running_of_pending still
      exact (ih goesOn).prepend (first.unstopped goesOn)

theorem Drives.tells {reply : Reply Unit} (drives : Drives m units reply)
    (running : m.phase.isOpen = true) : reply.machine.Tells (storyEvents reply.signals) := by
  cases drives with
  | rests works within settled => exact (works.tells running).rest
  | trips works guarded left =>
    have unstopped := (works.tells running).unstopped (running_of_pending left)
    refine .goesOn rfl ?_
    simpa [tripped, storyEvents_append, storyEvents, Signal.story?, debugEvent, Event.isDebug]
      using unstopped

theorem Drives.running {reply : Reply Unit} (drives : Drives m units reply) (worked : 0 < units) :
    m.phase.isOpen = true := by
  cases drives with
  | rests works within settled =>
    cases works with
    | nil => cases worked
    | cons due further => exact running_of_pending due
  | trips works guarded left =>
    cases works with
    | nil => cases worked
    | cons due further => exact running_of_pending due

theorem Drives.unworked {reply : Reply Unit} (drives : Drives m 0 reply) :
    storyEvents reply.signals = [] ∧
      (reply.machine.phase = m.phase ∨ reply.machine.phase = .idle) := by
  cases drives with
  | rests works within settled => cases works; exact ⟨rfl, .inl rfl⟩
  | trips works guarded left => cases works; exact ⟨rfl, .inr rfl⟩

end Machine

namespace Drive

open Machine

variable {m : Machine} {drive : Drive} {reply : Reply Unit}

theorem storyEvents_jumpToLabel (m : Machine) (label : String) :
    storyEvents (m.jumpToLabel label).2 = [] := by
  unfold jumpToLabel
  split <;> rfl

theorem quiet_of_opening (opening : drive.opening? m = some (entered, earlier)) :
    storyEvents earlier = [] := by
  rcases opening_cases opening with ⟨phase, label, -, jumped⟩ | ⟨cursor, -, rfl⟩
  · have quiet := storyEvents_jumpToLabel { m with phase := phase } label
    rwa [jumped] at quiet
  · rfl

theorem storyEvents_idle (drive : Drive) (m : Machine) :
    storyEvents (drive.idle m).signals = [] := by
  rcases drive.idle_cases m with same | same <;> rw [same] <;> rfl

theorem storyEvents_behind (opening : drive.opening? m = some (entered, earlier))
    (reply : Reply Unit) :
    storyEvents (reply.behind earlier).signals = storyEvents reply.signals := by
  rw [Reply.behind, storyEvents_append, quiet_of_opening opening, List.nil_append]

theorem Returns.tells (returns : drive.Returns m units reply) (worked : 0 < units) :
    reply.machine.Tells (storyEvents reply.signals) := by
  cases returns with
  | idle nothing => cases worked
  | drives opening drives =>
    rw [storyEvents_behind opening]
    exact drives.tells (drives.running worked)

theorem Returns.quiet (returns : drive.Returns m 0 reply) : storyEvents reply.signals = [] := by
  cases returns with
  | idle nothing => exact storyEvents_idle drive m
  | drives opening drives =>
    rw [storyEvents_behind opening]
    exact drives.unworked.1

theorem Returns.storyOpen (returns : drive.Returns m units reply) :
    ∀ event ∈ (storyEvents reply.signals).dropLast, event.stop? = none := by
  rcases Nat.eq_zero_or_pos units with rfl | worked
  · rw [returns.quiet]
    exact List.forall_mem_nil _
  · exact (returns.tells worked).dropLast

end Drive

end VisualNovel
