import VisualNovel.Console.Run
import VisualNovel.Proofs.Console.Moves

namespace VisualNovel

inductive Move where
  | advance
  | choose (label : String)
  | env (key : String) (value : Bool)
deriving DecidableEq

namespace Move

def command (stateIn stateOut : String) : Move → AgentCommand
  | .advance => .advance stateIn stateOut
  | .choose label => .choose stateIn label stateOut
  | .env key value => .env stateIn key value stateOut

def on (budget : Nat) (m : Machine) : Move → Option (Reply Unit)
  | .advance => m.advance budget
  | .choose label => m.choose budget label
  | .env key value => some (m.setEnvironment key value)

end Move

-- A command after the start: its move, with a budget, and the file that it is to leave.
structure Call where
  budget : Nat
  move : Move
  stateOut : String
deriving DecidableEq

abbrev AgentResult := Except ConsoleError (Option Agent.Report)

structure Link where
  call : Call
  before : Disk
  result : AgentResult
  after : Disk

-- The file from which the next command goes on: that of the last command which succeeded. Behind a
-- success that left no file there is no next command.
def nextFile (stateIn : String) : AgentResult → Option String
  | .error _ => some stateIn
  | .ok none => none
  | .ok (some report) => report.stateOut

def chain (here stateIn : String) (disk : Disk) : List Call → List Link
  | [] => []
  | call :: rest =>
    let command := call.move.command stateIn call.stateOut
    let (result, after) := (Agent.run call.budget here command).run.runOn disk
    ⟨call, disk, result, after⟩ ::
      match nextFile stateIn result with
      | none => []
      | some path => chain here path after rest

-- A command that made its move but could not leave its file. The next one goes on from the file
-- before, as if this one had not been.
def couldNotSave : AgentResult → Bool
  | .error .stateUnwritable => true
  | _ => false

def savedLinks (links : List Link) : List Link :=
  links.filter fun link => !couldNotSave link.result

-- The lines about the story, of all that a command prints.
def storyMarks : List String := ["EVENT:", "EVENT_JSON:", "CHOICE:"]

def isStoryLine (line : String) : Bool :=
  storyMarks.any fun mark => mark.toList.isPrefixOf line.toList

def linesOf : AgentResult → List String
  | .error error => error.lines
  | .ok none => []
  | .ok (some report) => report.lines

structure Told where
  code : Nat
  story : List String
deriving DecidableEq

def told (result : AgentResult) : Option Told :=
  (Console.agentOutput result).map fun output => ⟨output.code, (linesOf result).filter isStoryLine⟩

theorem text_agentOutput (printed : Console.agentOutput result = some output) :
    output.text = Console.text (linesOf result) := by
  unfold Console.agentOutput at printed
  split at printed
  · cases Option.some.inj printed; rfl
  · cases printed
  · cases Option.some.inj printed; rfl

-- A parked machine goes on, and so does one whose host was refused.
def Reply.goesOn (reply : Reply Unit) : Bool :=
  match reply.result with
  | .error _ => true
  | .ok () => reply.machine.phase.isSuspended

def live (m : Machine) : List Call → List (Option (Reply Unit))
  | [] => []
  | call :: rest =>
    match call.move.on call.budget m with
    | none => [none]
    | some reply => some reply :: if reply.goesOn then live reply.machine rest else []

def liveResult : Option (Reply Unit) → AgentResult
  | none => .ok none
  | some reply =>
    match reply.result with
    | .error error => .error (.story error)
    | .ok () => .ok (some ⟨Boundary.collect reply.machine reply.signals, none⟩)

theorem told_error (error : ConsoleError) :
    told (.error error) = some ⟨1, []⟩ := by
  have silent : error.lines.filter isStoryLine = [] := by
    simp [ConsoleError.lines, isStoryLine, storyMarks, List.isPrefixOf]
  simp [told, Console.agentOutput, linesOf, silent]

theorem story_of_report (report : Agent.Report) :
    report.lines.filter isStoryLine =
      ("EVENT:" ++ report.boundary.kind.name) ::
        report.boundary.events.map (fun event => "EVENT_JSON:" ++ event.toJson.write) ++
        report.boundary.options.map Agent.optionLine := by
  have kind (name : String) : isStoryLine ("EVENT:" ++ name) = true := by
    simp [isStoryLine, storyMarks]
  have shown (event : Event) : isStoryLine ("EVENT_JSON:" ++ event.toJson.write) = true := by
    simp [isStoryLine, storyMarks]
  have offered (option : ChoiceOption) : isStoryLine (Agent.optionLine option) = true := by
    simp [isStoryLine, storyMarks, Agent.optionLine]
  have fault (fault : Fault) : isStoryLine (Agent.faultLine fault) = false := by
    simp [isStoryLine, storyMarks, Agent.faultLine, List.isPrefixOf]
  have file (path : String) : isStoryLine ("STATE_OUT:" ++ path) = false := by
    simp [isStoryLine, storyMarks, List.isPrefixOf]
  have result : isStoryLine "RESULT:OK" = false := by
    simp [isStoryLine, storyMarks, List.isPrefixOf]
  simp [Agent.Report.lines, List.filter_append, List.filter_map,
    Function.comp_def, kind, shown, offered, fault, file, result]

theorem told_report {one other : Agent.Report} (kind : one.boundary.kind = other.boundary.kind)
    (events : one.boundary.events = other.boundary.events)
    (options : one.boundary.options = other.boundary.options) :
    told (.ok (some one)) = told (.ok (some other)) := by
  simp [told, Console.agentOutput, linesOf, story_of_report, kind, events, options]

theorem Move.on_withPast (move : Move) (budget : Nat) (m : Machine) (past : Past) :
    move.on budget (m.withPast past) = (move.on budget m).map (·.withPast past) := by
  cases move with
  | advance => exact Machine.advance_withPast m past budget
  | choose label => exact Machine.choose_withPast m past budget label
  | env key value => exact congrArg some (Machine.setEnvironment_withPast m past key value)

variable {script : Script} {m : Machine} {disk : Disk}

theorem Ready.on (ready : Ready script m) {move : Move} (moved : move.on budget m = some reply) :
    Ready script reply.machine := by
  cases move with
  | advance => exact ⟨ready.resting.on .advance moved, ready.plays.on .advance moved⟩
  | choose label =>
    exact ⟨ready.resting.on (.choose label) moved, ready.plays.on (.choose label) moved⟩
  | env key value =>
    cases Option.some.inj moved
    exact ⟨ready.resting.setEnvironment key value, ready.plays.setEnvironment key value⟩

-- Only a flag that does not exist is refused, and then the machine only remembers that.
theorem refused_cases (ready : Ready script m) {move : Move}
    (moved : move.on budget m = some reply) (refused : reply.result = .error error) :
    ∃ key value, move = .env key value ∧ Environment.standard.contains key = false ∧
      error = .unknownEnvironmentKey key ∧
      reply.machine = { m with lastFault := some (.unknownEnvironmentKey key) } := by
  cases move with
  | advance =>
    rw [ready.plays.result_on .advance moved] at refused
    cases refused
  | choose label =>
    rw [ready.plays.result_on (.choose label) moved] at refused
    cases refused
  | env key value =>
    cases Option.some.inj moved
    unfold Machine.setEnvironment at refused ⊢
    split at refused
    · cases refused
    · rename_i unknown
      cases refused
      have absent : Environment.standard.contains key = false := by
        rw [← Dict.contains_of_keys_eq ready.resting.flags]
        exact Environment.set?_eq_none.1 unknown
      exact ⟨key, value, rfl, absent, rfl, rfl⟩

theorem setEnvironment_unknown (ready : Ready script m)
    (unknown : Environment.standard.contains key = false) (value : Bool) :
    (m.setEnvironment key value).result = .error (.unknownEnvironmentKey key) := by
  have absent : m.stores.environment.set? key value = none := by
    rw [Environment.set?_eq_none, Dict.contains_of_keys_eq ready.resting.flags, unknown]
  simp [Machine.setEnvironment, absent]

-- How one command ends, beside the reply of the machine whose file it reads.
inductive Answers (path stateIn : String) (m : Machine) (call : Call) (disk : Disk) :
    AgentResult → Disk → Prop where
  | running (runs : call.move.on call.budget m = none) :
      Answers path stateIn m call disk (.ok none) disk
  | refused (moved : call.move.on call.budget m = some reply)
      (refusal : reply.result = .error error) (still : SavedAt path reply.machine stateIn disk) :
      Answers path stateIn m call disk (.error (.story error)) disk
  | unsaved (moved : call.move.on call.budget m = some reply) (accepted : reply.result = .ok ())
      (still : SavedAt path m stateIn after) :
      Answers path stateIn m call disk (.error .stateUnwritable) after
  | saved (moved : call.move.on call.budget m = some reply) (accepted : reply.result = .ok ())
      (parked : reply.machine.phase.isSuspended = true)
      (alike : told (.ok (some report)) = told (liveResult (some reply)))
      (left : report.stateOut = some call.stateOut)
      (next : SavedAt path reply.machine call.stateOut after) :
      Answers path stateIn m call disk (.ok (some report)) after
  | finished (moved : call.move.on call.budget m = some reply) (accepted : reply.result = .ok ())
      (gone : reply.machine.phase.isSuspended = false)
      (alike : told (.ok (some report)) = told (liveResult (some reply)))
      (left : report.stateOut = none) :
      Answers path stateIn m call disk (.ok (some report)) disk

theorem run_command (budget : Nat) (here stateIn stateOut : String) (move : Move) :
    Agent.run budget here (move.command stateIn stateOut) =
      Agent.move here stateIn stateOut (move.on budget) := by
  cases move <;> rfl

theorem SavedAt.of_snapshot (saved : SavedAt path m stateIn disk) {other : Machine}
    (same : other.snapshot = m.snapshot) : SavedAt path other stateIn disk :=
  ⟨saved.here, same ▸ saved.file⟩

theorem told_withPast {reply : Reply Unit} (resting : Machine.Resting keys reply.machine)
    (accepted : reply.result = .ok ()) (past : Past) (left : Option String) :
    told (.ok (some ⟨Boundary.collect reply.machine reply.signals, left⟩)) =
      told (liveResult (some (reply.withPast past))) := by
  have acceptedPast : (reply.withPast past).result = .ok () := accepted
  have same : Boundary.collect (reply.withPast past).machine (reply.withPast past).signals = _ :=
    collect_withPast resting past reply.signals
  simp only [liveResult, acceptedPast, same]
  exact told_report rfl rfl rfl

theorem answers (ready : Ready script m) (storable : m.Storable)
    (saved : SavedAt path m stateIn disk) (absolute : Path.isAbsolute path = true)
    (found : disk.look path = .text text) (parsed : Script.parse text = .ok script)
    (here : String) (call : Call) :
    ∃ result after,
      (Agent.run call.budget here (call.move.command stateIn call.stateOut)).on disk =
        (result, after) ∧ Answers path stateIn m call disk result after := by
  -- The machine that is taken up differs from the one that was saved in its past only.
  obtain ⟨resumed, taken, same⟩ : ∃ resumed, (Agent.takeUp here stateIn).on disk = _ ∧ _ :=
    on_takeUp ready storable saved absolute found parsed
  have readyToo : Ready script resumed :=
    ⟨same.resting, ⟨(congrArg Machine.script same.same).symm.trans ready.plays.script,
      (congrArg Machine.stepGuard same.same).symm.trans ready.plays.stepGuard⟩⟩
  have moved := Move.on_withPast call.move call.budget resumed m.past
  rw [← same.same] at moved
  rw [run_command]
  unfold Agent.move
  rw [FileTask.on_bind_ok taken]
  dsimp only
  cases own : call.move.on call.budget resumed with
  | none =>
    rw [own] at moved
    exact ⟨_, _, rfl, .running moved⟩
  | some reply =>
    rw [own] at moved
    have rests := (readyToo.on own).resting
    cases result : reply.result with
    | error error =>
      refine ⟨.error (.story error), disk, ?_, ?_⟩
      · dsimp only
        rw [FileTask.on_bind, FileTask.on_ofStory, result]
        rfl
      · obtain ⟨key, value, -, -, -, changed⟩ := refused_cases ready moved result
        exact .refused moved result (saved.of_snapshot (by rw [changed]; rfl))
    | ok done =>
      have accepted : (FileTask.ofStory reply.result).on disk = (.ok done, disk) := by
        rw [FileTask.on_ofStory, result]
        rfl
      dsimp only
      rw [FileTask.on_bind_ok accepted]
      obtain ⟨ended, after, ran, settled⟩ :=
        settles reply.machine reply.signals path call.stateOut saved.here
      cases settled with
      | finished gone =>
        rw [FileTask.on_bind_ok ran]
        exact ⟨_, _, rfl, .finished moved result gone (told_withPast rests result _ _) rfl⟩
      | saved parked next =>
        rw [FileTask.on_bind_ok ran]
        refine ⟨_, _, rfl, .saved moved result parked (told_withPast rests result _ _) rfl ?_⟩
        exact next.of_snapshot rfl
      | unsaved still kept =>
        obtain ⟨s, own, file⟩ := saved.file
        rw [FileTask.on_bind_error ran]
        exact ⟨_, _, rfl, .unsaved moved result ⟨still, s, own, kept stateIn _ file⟩⟩

-- A flag that no story has is refused: the command fails and writes nothing.
def Link.RefusesUnknown (link : Link) : Prop :=
  ∀ key value, link.call.move = .env key value → Environment.standard.contains key = false →
    link.result = .error (.story (.unknownEnvironmentKey key)) ∧
      told link.result = some ⟨1, []⟩ ∧ link.after = link.before

theorem refusesUnknown (ready : Ready script m)
    (answered : Answers path stateIn m call disk result after) :
    Link.RefusesUnknown ⟨call, disk, result, after⟩ := by
  intro key value isEnv unknown
  have moved : call.move.on call.budget m = some (m.setEnvironment key value) := by
    rw [show call.move = .env key value from isEnv]
    rfl
  have refusal := setEnvironment_unknown ready unknown value
  cases answered with
  | running runs => rw [moved] at runs; cases runs
  | refused replied refused still =>
    cases Option.some.inj (moved.symm.trans replied)
    cases refusal.symm.trans refused
    exact ⟨rfl, told_error _, rfl⟩
  | unsaved replied accepted still =>
    cases Option.some.inj (moved.symm.trans replied)
    cases refusal.symm.trans accepted
  | saved replied accepted parked alike left next =>
    cases Option.some.inj (moved.symm.trans replied)
    cases refusal.symm.trans accepted
  | finished replied accepted gone alike left =>
    cases Option.some.inj (moved.symm.trans replied)
    cases refusal.symm.trans accepted

theorem chain_cons (ran : (Agent.run call.budget here (call.move.command stateIn
    call.stateOut)).on disk = (result, after)) (rest : List Call) :
    chain here stateIn disk (call :: rest) = ⟨call, disk, result, after⟩ ::
      match nextFile stateIn result with
      | none => []
      | some path => chain here path after rest := by
  have same : (Agent.run call.budget here (call.move.command stateIn
    call.stateOut)).run.runOn disk = (result, after) := ran
  rw [chain]
  simp only [same]

theorem chain_single (here stateIn : String) (disk : Disk) (call : Call) :
    ∃ link, chain here stateIn disk [call] = [link] ∧ link.call = call ∧ link.before = disk := by
  cases ran : (Agent.run call.budget here (call.move.command stateIn call.stateOut)).on disk with
  | mk result after =>
    refine ⟨⟨call, disk, result, after⟩, ?_, rfl, rfl⟩
    rw [chain_cons ran]
    split <;> rfl

theorem live_cons (moved : call.move.on call.budget m = some reply) (rest : List Call) :
    live m (call :: rest) =
      some reply :: if reply.goesOn then live reply.machine rest else [] := by
  rw [live, moved]

theorem savedLinks_cons (saved : couldNotSave link.result = false) (links : List Link) :
    savedLinks (link :: links) = link :: savedLinks links := by
  simp [savedLinks, saved]

-- What a chain from here on tells, beside the machine whose file it reads.
def TellsAs (m : Machine) (links : List Link) : Prop :=
  (savedLinks links).map (fun link => told link.result) =
    (live m ((savedLinks links).map Link.call)).map fun reply => told (liveResult reply)

-- The machine can be stored wherever one of the replies leaves it parked.
def AllStorable (replies : List (Option (Reply Unit))) : Prop :=
  ∀ outcome ∈ replies, ∀ reply ∈ outcome,
    reply.machine.phase.isSuspended = true → reply.machine.Storable

instance (replies : List (Option (Reply Unit))) : Decidable (AllStorable replies) :=
  inferInstanceAs (Decidable (∀ outcome ∈ replies, ∀ reply ∈ outcome,
    reply.machine.phase.isSuspended = true → reply.machine.Storable))

theorem AllStorable.of_cons (all : AllStorable (some reply :: replies)) :
    (reply.machine.phase.isSuspended = true → reply.machine.Storable) ∧ AllStorable replies :=
  ⟨all _ (List.mem_cons_self ..) reply rfl, fun outcome member =>
    all outcome (List.mem_cons_of_mem _ member)⟩

def Keeps (m : Machine) (links : List Link) : Prop :=
  AllStorable (live m ((savedLinks links).map Link.call))

theorem storable_of_refused {m other : Machine} (storable : m.Storable)
    (same : other = { m with lastFault := fault }) : other.Storable := by
  rw [same]
  exact ⟨storable.cursor, storable.globals, storable.locals, storable.shallow⟩

theorem tellsAs_cons (moved : call.move.on call.budget m = some reply)
    (saved : couldNotSave result = false) (alike : told result = told (liveResult (some reply)))
    (further : if reply.goesOn then TellsAs reply.machine links else links = []) :
    TellsAs m (⟨call, before, result, after⟩ :: links) := by
  unfold TellsAs
  rw [savedLinks_cons saved, List.map_cons, List.map_cons, live_cons moved, List.map_cons, alike]
  split at further
  · rename_i goesOn
    rw [if_pos goesOn, further]
  · rename_i finished
    rw [if_neg finished, further]
    rfl

theorem keeps_of_cons (moved : call.move.on call.budget m = some reply)
    (saved : couldNotSave result = false)
    (keeps : Keeps m (⟨call, before, result, after⟩ :: links)) (goesOn : reply.goesOn = true) :
    (reply.machine.phase.isSuspended = true → reply.machine.Storable) ∧
      Keeps reply.machine links := by
  unfold Keeps at keeps
  rw [savedLinks_cons saved, List.map_cons, live_cons moved, if_pos goesOn] at keeps
  exact keeps.of_cons

theorem chain_told (absolute : Path.isAbsolute path = true)
    (parsed : Script.parse text = .ok script) (here : String) (calls : List Call)
    (ready : Ready script m) (storable : m.Storable) (saved : SavedAt path m stateIn disk)
    (unchanged : ∀ link ∈ chain here stateIn disk calls, link.before.look path = .text text)
    (keeps : Keeps m (chain here stateIn disk calls)) :
    TellsAs m (chain here stateIn disk calls) ∧
      ∀ link ∈ chain here stateIn disk calls, link.RefusesUnknown := by
  -- What carries the induction is that the file holds the machine that is kept in memory.
  induction calls generalizing m stateIn disk with
  | nil => exact ⟨rfl, fun link member => nomatch member⟩
  | cons call rest ih =>
    have first : disk.look path = .text text := by
      rw [chain_cons rfl] at unchanged
      exact (List.forall_mem_cons.1 unchanged).1
    obtain ⟨result, after, ran, answered⟩ :=
      answers ready storable saved absolute first parsed here call
    have refusesFirst := refusesUnknown ready answered
    rw [chain_cons ran] at unchanged keeps ⊢
    have later := (List.forall_mem_cons.1 unchanged).2
    cases answered with
    | running runs =>
      refine ⟨?_, List.forall_mem_cons.2 ⟨refusesFirst, fun link member => nomatch member⟩⟩
      simp [TellsAs, savedLinks, couldNotSave, nextFile, live, runs, liveResult]
    | @refused reply error moved refusal still =>
      have goesOn : reply.goesOn = true := by simp [Reply.goesOn, refusal]
      obtain ⟨key, value, -, -, -, changed⟩ := refused_cases ready moved refusal
      have further := ih (ready.on moved) (storable_of_refused storable changed) still later
        (keeps_of_cons moved rfl keeps goesOn).2
      refine ⟨tellsAs_cons moved rfl ?_ ?_, List.forall_mem_cons.2 ⟨refusesFirst, further.2⟩⟩
      · simp only [liveResult, refusal]
      · rw [if_pos goesOn]
        exact further.1
    | @unsaved reply after moved accepted still =>
      have further := ih ready storable still later keeps
      exact ⟨further.1, List.forall_mem_cons.2 ⟨refusesFirst, further.2⟩⟩
    | @saved reply report after moved accepted parked alike left next =>
      have goesOn : reply.goesOn = true := by simp [Reply.goesOn, accepted, parked]
      simp only [nextFile, left] at later keeps ⊢
      obtain ⟨keepsNext, keepsLater⟩ := keeps_of_cons moved rfl keeps goesOn
      have further := ih (ready.on moved) (keepsNext parked) next later keepsLater
      refine ⟨tellsAs_cons moved rfl alike ?_, List.forall_mem_cons.2 ⟨refusesFirst, further.2⟩⟩
      rw [if_pos goesOn]
      exact further.1
    | @finished reply report moved accepted gone alike left =>
      have stops : reply.goesOn = false := by simp [Reply.goesOn, accepted, gone]
      simp only [nextFile, left]
      refine ⟨tellsAs_cons moved rfl alike ?_,
        List.forall_mem_cons.2 ⟨refusesFirst, fun link member => nomatch member⟩⟩
      rw [if_neg (by simp [stops])]

end VisualNovel
