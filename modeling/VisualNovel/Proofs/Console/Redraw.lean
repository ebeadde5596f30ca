import VisualNovel.Proofs.Console.Leaving

namespace VisualNovel

open Machine

-- The boundary of a machine that is parked: the step under its cursor comes last, with its options.
def Boundary.Shows (m : Machine) (boundary : Boundary) : Prop :=
  ∃ before event options, ParkedOn m event options ∧ boundary.events = before ++ [event] ∧
    boundary.options = options

-- The players that wait for a line. Between two lines the disk may have changed.
inductive Prompts : Player → Prop where
  | begin (began : (Player.begin budget here options).runOn disk = (some turn, after))
      (ready : turn.next = .ready player) : Prompts player
  | feed (before : Prompts earlier)
      (fed : (earlier.feed budget line).runOn disk = (some turn, after))
      (ready : turn.next = .ready player) : Prompts player

variable {m : Machine} {keys : List String}

theorem optionsOf_event (parked : ParkedOn m event options) :
    Boundary.optionsOf (some event) = options := by
  cases parked <;> rfl

theorem shows_collect (resting : Resting keys m) (suspended : m.phase.isSuspended = true)
    (fresh : m.Fresh signals) : (Boundary.collect m signals).Shows m := by
  obtain ⟨event, options, parked⟩ := resting.parkedOn suspended
  have shown := parked.currentBoundary?
  have offered : (Boundary.collect m signals).options = options := by
    rw [Boundary.collect, shown, optionsOf_event parked]
  by_cases told : storyEvents signals = []
  · refine ⟨[], event, options, parked, ?_, offered⟩
    simp [Boundary.collect, told, suspended, shown]
  · obtain ⟨earlier, last⟩ := fresh.last told parked
    refine ⟨earlier, event, options, parked, ?_, offered⟩
    rw [Boundary.collect]
    dsimp only
    rw [if_neg fun both => told both.1, last]

theorem options_collect (running : m.phase.isSuspended = false) (signals : List Signal) :
    (Boundary.collect m signals).options = [] := by
  rw [Boundary.collect, currentBoundary?_of_running running]
  rfl

namespace Player

structure Faces (player : Player) : Prop where
  resting : Resting Environment.standard.keys player.machine
  shows : player.machine.phase.isSuspended = true → player.boundary.Shows player.machine
  offers : player.machine.phase.isSuspended = false → player.boundary.options = []

variable {player : Player} {setup : Setup}

theorem faces_refresh (resting : Resting Environment.standard.keys m) (fresh : m.Fresh signals)
    (ready : (player.refresh before m signals).next = .ready next) : next.Faces := by
  unfold refresh at ready
  dsimp only at ready
  split at ready
  · cases ready
  · cases ready
    exact ⟨resting, fun suspended => shows_collect resting suspended fresh, fun running =>
      options_collect running signals⟩

theorem faces_renew (standard : setup.environment = none)
    (ran : player.renew budget setup items = some turn) (ready : turn.next = .ready next) :
    next.Faces := by
  obtain ⟨outcome, created, rfl⟩ := Option.map_eq_some_iff.1 ran
  cases accepted : outcome.result with
  | error error => rw [accepted] at ready; cases ready
  | ok machine =>
    rw [accepted] at ready
    obtain ⟨script, -, -, resting⟩ := create_cases created accepted
    rw [standard] at resting
    exact faces_refresh resting (fresh_of_create created accepted) ready

theorem faces_moved (drive : Drive) (resting : Resting Environment.standard.keys reply.machine)
    (moved : drive.on budget m = some reply) (ready : (player.moved reply).next = .ready next) :
    next.Faces := by
  unfold Player.moved at ready
  split at ready
  · exact faces_refresh resting (.of_on drive moved) ready
  · cases ready

theorem Faces.setFlag (faces : player.Faces) (key : String) (value : Bool)
    (ready : (player.setFlag key value).next = .ready next) : next.Faces := by
  cases ready
  have same := (setEnvironment_quiet player.machine key value).2.phase
  refine ⟨faces.resting.setEnvironment key value, ?_, ?_⟩
  · intro suspended
    rw [same] at suspended
    obtain ⟨before, event, options, parked, last, offered⟩ := faces.shows suspended
    exact ⟨before, event, options, parked.setEnvironment key value, last, offered⟩
  · intro running
    rw [same] at running
    exact faces.offers running

theorem keep_cases (player : Player) (disk : Disk) :
    (∃ items, (player.keep.runOn disk).1 = player.stay items []) ∨
      ∃ error, (player.keep.runOn disk).1 = fail [] [] error := by
  unfold Player.keep
  rw [FileProgram.runOn_bind]
  generalize FileProgram.runOn disk _ = saved
  obtain ⟨result, after⟩ := saved
  cases result with
  | ok done => exact .inl ⟨_, rfl⟩
  | error error => exact .inr ⟨error, rfl⟩

theorem faces_takeBack (ran : ((player.takeBack budget).runOn disk).1 = some turn)
    (ready : turn.next = .ready next) : next.Faces := by
  unfold takeBack at ran
  rw [FileProgram.runOn_bind] at ran
  generalize FileProgram.runOn disk _ = loaded at ran
  obtain ⟨result, after⟩ := loaded
  cases result with
  | error error => cases ran; cases ready
  | ok stores => exact faces_renew rfl ran ready

theorem obey_save (player : Player) (budget : Nat) (disk : Disk) :
    (player.obey budget .save).runOn disk =
      (some (player.keep.runOn disk).1, (player.keep.runOn disk).2) := by
  rw [Player.obey, FileProgram.runOn_bind]
  rfl

theorem Faces.obey (faces : player.Faces) {command : PlayCommand}
    (ran : ((player.obey budget command).runOn disk).1 = some turn)
    (ready : turn.next = .ready next) : next.Faces := by
  cases command with
  | save =>
    simp only [obey_save, Option.some.injEq] at ran
    obtain ⟨items, stays⟩ | ⟨error, fails⟩ := player.keep_cases disk
    · rw [← ran, stays] at ready
      cases ready
      exact faces
    · rw [← ran, fails] at ready
      cases ready
  | load => exact faces_takeBack ran ready
  | restart => exact faces_renew rfl ran ready
  | env key value =>
    match key, value with
    | some key, some value =>
      cases ran
      exact faces.setFlag key value ready
    | none, _ =>
      cases ran
      cases ready
      exact faces
    | some _, none =>
      cases ran
      cases ready
      exact faces
  | quit =>
    cases ran
    cases ready
  | help =>
    cases ran
    cases ready
    exact faces
  | stores =>
    cases ran
    cases ready
    exact faces

theorem Faces.continueWith (faces : player.Faces)
    (ran : player.continueWith budget typed = some turn) (ready : turn.next = .ready next) :
    next.Faces := by
  unfold Player.continueWith at ran
  split at ran
  · obtain ⟨reply, moved, rfl⟩ := Option.map_eq_some_iff.1 ran
    exact faces_moved .advance (faces.resting.on .advance moved) moved ready
  · split at ran
    · obtain ⟨reply, moved, rfl⟩ := Option.map_eq_some_iff.1 ran
      exact faces_moved (.choose _) (faces.resting.on (.choose _) moved) moved ready
    · cases ran
      cases ready
      exact faces
  · cases ran
    cases ready
    exact faces

theorem Faces.feed (faces : player.Faces) {line : InputLine}
    (ran : (player.feed budget line).runOn disk = (some turn, after))
    (ready : turn.next = .ready next) : next.Faces := by
  have ran := congrArg Prod.fst ran
  unfold Player.feed at ran
  split at ran
  · cases ran
    cases ready
  · split at ran
    · exact faces.obey ran ready
    · exact faces.continueWith ran ready

theorem faces_begin (ran : (Player.begin budget here options).runOn disk = (some turn, after))
    (ready : turn.next = .ready next) : next.Faces := by
  have ran := congrArg Prod.fst ran
  unfold Player.begin at ran
  rw [FileProgram.runOn_bind] at ran
  split at ran
  · cases ran
    cases ready
  · obtain ⟨outcome, created, rfl⟩ := Option.map_eq_some_iff.1 ran
    dsimp only at ready
    cases accepted : outcome.result with
    | error error => rw [accepted] at ready; cases ready
    | ok machine =>
      rw [accepted] at ready
      obtain ⟨own, -, -, resting⟩ := create_cases created accepted
      exact faces_refresh resting (fresh_of_create created accepted) ready

end Player

theorem Prompts.faces (prompts : Prompts player) : player.Faces := by
  induction prompts with
  | begin began ready => exact Player.faces_begin began ready
  | feed before fed ready ih => exact ih.feed fed ready

-- A story stops at a line, at a choice or at its end. A drive tells its stop last and nothing after
-- it, the machine rests in the phase of that stop, and whoever asks there is shown it again.
theorem stops_are_shown :
    (∀ (drive : Drive) (budget : Nat) (m : Machine) (reply : Reply Unit),
      drive.on budget m = some reply → ∃ units, drive.Returns m units reply) ∧
    (∀ (drive : Drive) (m : Machine) (units : Nat) (reply : Reply Unit),
      drive.Returns m units reply →
        let told := storyEvents reply.signals
        (∀ event ∈ told.dropLast, event.stop? = none) ∧
        (0 < units →
          (reply.machine.phase = .waiting ↔
            ∃ name text, told.getLast? = some (.say name text)) ∧
          (reply.machine.phase = .choice ↔ ∃ options, told.getLast? = some (.choice options)) ∧
          (reply.machine.phase = .ended ↔ told.getLast? = some .finish) ∧
          (reply.machine.phase.isSuspended = true →
            reply.machine.currentBoundary? = told.getLast?))) ∧
    (∀ (seed : Option UInt32) (environment : Option Environment) (limit : Option Nat) (m : Machine),
      Reaches (.new seed environment limit) m →
        (m.phase.isSuspended = true →
          ∃ event options, ParkedOn m event options ∧ m.currentBoundary? = some event) ∧
        (m.phase.isSuspended = false → m.currentBoundary? = none)) ∧
    (∀ (budget : Nat) (here : String) (command : AgentCommand) (disk after : Disk)
      (report : Agent.Report), (Agent.run budget here command).on disk = (.ok (some report), after) →
        ∃ played reply, Agent.Leaves budget here disk command played reply ∧
          report.boundary = .collect reply.machine reply.signals ∧
          (reply.machine.phase.isSuspended = true → report.boundary.Shows reply.machine) ∧
          (reply.machine.phase.isSuspended = false → report.boundary.options = [])) ∧
    ∀ player, Prompts player →
      (player.machine.phase.isSuspended = true → player.boundary.Shows player.machine) ∧
      (player.machine.phase.isSuspended = false → player.boundary.options = []) := by
  refine ⟨?_, ?_, ?_, ?_, fun player prompts => ⟨prompts.faces.shows, prompts.faces.offers⟩⟩
  · intro drive budget m reply returned
    obtain ⟨units, returns, -⟩ := Drive.on_eq_some_iff.1 returned
    exact ⟨units, returns⟩
  · intro drive m units reply returns
    refine ⟨returns.storyOpen, fun worked => ?_⟩
    have tells := returns.tells worked
    exact ⟨tells.waiting_iff, tells.choice_iff, tells.ended_iff, tells.shown⟩
  · intro seed environment limit m reached
    have resting := resting_of_new reached
    refine ⟨fun suspended => ?_, currentBoundary?_of_running⟩
    obtain ⟨event, options, parked⟩ := resting.parkedOn suspended
    exact ⟨event, options, parked, parked.currentBoundary?⟩
  · intro budget here command disk after report ran
    obtain ⟨played, reply, leaves, settled⟩ := Agent.leaves_of_run ran
    obtain ⟨script, -, ready⟩ := leaves.ready
    have same := (report_of_settle settled).1
    refine ⟨played, reply, leaves, same, ?_, ?_⟩
    · rw [same]
      exact fun suspended => shows_collect ready.resting suspended leaves.fresh
    · rw [same]
      exact fun running => options_collect running reply.signals

def Next.waits : Next → Bool
  | .ready player => player.machine.phase = .waiting
  | .finished _ => false

-- A player of a story of one line waits at that line.
theorem stops_are_shown_at_one_line : ∃ player, Prompts player ∧
    player.machine.phase = .waiting ∧ player.boundary.Shows player.machine := by
  have waits : ((Player.begin 9 "/w" ⟨"s", none, none⟩).runOn numberDisk).1.any (·.next.waits) := by
    decide +kernel
  generalize began : (Player.begin 9 "/w" ⟨"s", none, none⟩).runOn numberDisk = started at waits
  obtain ⟨found, after⟩ := started
  obtain ⟨turn, rfl, waiting⟩ := (Option.any_eq_true ..).1 waits
  cases ready : turn.next with
  | finished code =>
    rw [ready] at waiting
    cases waiting
  | ready player =>
    rw [ready] at waiting
    have prompts := Prompts.begin began ready
    have phase : player.machine.phase = .waiting := of_decide_eq_true waiting
    have shows := (stops_are_shown.2.2.2.2 player prompts).1
    exact ⟨player, prompts, phase, shows (by rw [phase]; rfl)⟩

end VisualNovel
