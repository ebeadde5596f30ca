import VisualNovel.Scenario.Source
import VisualNovel.Proofs.Playback.Kept
import Mathlib.Data.List.Basic

namespace VisualNovel

namespace Machine

structure Deed where
  before : Machine
  operation : Operation
  reply : Reply Answer

def course (budget : Nat) (m : Machine) : List Operation → Option (List Deed)
  | [] => some []
  | operation :: rest =>
    (m.perform budget operation).bind fun reply =>
      (course budget reply.machine rest).map (⟨m, operation, reply⟩ :: ·)

def after (m : Machine) : List Deed → Machine
  | [] => m
  | deed :: rest => deed.reply.machine.after rest

namespace Deed

def signals (deeds : List Deed) : List Signal := deeds.flatMap fun deed => deed.reply.signals

theorem signals_cons (deed : Deed) (deeds : List Deed) :
    signals (deed :: deeds) = deed.reply.signals ++ signals deeds := rfl

theorem signals_append (earlier later : List Deed) :
    signals (earlier ++ later) = signals earlier ++ signals later := by
  simp [signals]

-- A move is in its place where the machine waits for it, a flag where the machine has it.
def Fits (deed : Deed) : Prop :=
  match deed.operation with
  | .advance => deed.before.phase = .waiting
  | .choose _ => deed.before.phase = .choice
  | .setEnvironment _ _ => deed.reply.result = .ok .done
  | _ => True

theorem fits_start (m : Machine) (label : Option String) (reply : Reply Answer) :
    Fits ⟨m, .start label, reply⟩ := trivial

end Deed

variable {m : Machine} {rest : List Operation}

theorem course_nil_eq_some (returned : m.course budget [] = some deeds) : deeds = [] := by
  rw [course] at returned
  exact (Option.some.inj returned).symm

theorem course_cons_eq_some (returned : m.course budget (operation :: rest) = some deeds) :
    ∃ reply later, m.perform budget operation = some reply ∧
      reply.machine.course budget rest = some later ∧
      deeds = ⟨m, operation, reply⟩ :: later := by
  rw [course] at returned
  obtain ⟨reply, performed, returned⟩ := Option.bind_eq_some_iff.1 returned
  obtain ⟨later, continued, rfl⟩ := Option.map_eq_some_iff.1 returned
  exact ⟨reply, later, performed, continued, rfl⟩

theorem course_append_eq_some (returned : m.course budget (first ++ second) = some deeds) :
    ∃ earlier later, m.course budget first = some earlier ∧
      (m.after earlier).course budget second = some later ∧ deeds = earlier ++ later := by
  induction first generalizing m deeds with
  | nil => exact ⟨[], deeds, rfl, returned, rfl⟩
  | cons operation rest ih =>
    obtain ⟨reply, further, performed, continued, rfl⟩ := course_cons_eq_some returned
    obtain ⟨earlier, later, before, behind, rfl⟩ := ih continued
    refine ⟨⟨m, operation, reply⟩ :: earlier, later, ?_, behind, rfl⟩
    simp [course, performed, before]

theorem after_append (m : Machine) (earlier later : List Deed) :
    m.after (earlier ++ later) = (m.after earlier).after later := by
  induction earlier generalizing m with
  | nil => rfl
  | cons deed rest ih => exact ih deed.reply.machine

theorem Plays.course {script : Script} {guard : Option Nat} {operations : List Operation}
    (plays : Plays script guard m)
    (kept : ∀ operation ∈ operations, ∀ script globals locals,
      operation ≠ .load script globals locals)
    (ran : m.course budget operations = some deeds) : Plays script guard (m.after deeds) := by
  induction operations generalizing m deeds with
  | nil =>
    cases course_nil_eq_some ran
    exact plays
  | cons operation rest ih =>
    obtain ⟨reply, later, performed, continued, rfl⟩ := course_cons_eq_some ran
    obtain ⟨here, others⟩ := List.forall_mem_cons.1 kept
    have played := plays.perform here performed
    exact (ih played others continued :)

end Machine

namespace Scenario

open Machine (Deed Plays)

def Action.operation : Action → Operation
  | .advance => .advance
  | .choose label => .choose label
  | .env key value => .setEnvironment key value

def moves (actions : List Action) : Nat := actions.countP fun action => action.kind ≠ .env

def staged (scenario : Scenario) (script : Script) : Reply Unit :=
  (Machine.new (some (scenario.randomSeed.getD 1)) none none).load script scenario.globals
    scenario.locals

def operations (scenario : Scenario) : List Operation :=
  scenario.environment.toList.map (fun flag => .setEnvironment flag.1 flag.2) ++
    .start scenario.startLabel :: scenario.actions.map Action.operation

def Report.of (observed : List Observation) (used boundaries : Nat) (final : Machine) : Report where
  observed := observed ++ if final.isStalled then [.stalled] else []
  used := used
  boundaries := boundaries
  phase := final.phase
  globals := final.stores.globals
  locals := final.stores.locals.toMap

-- What a replay comes to: this report if all is well, and else a failure.
def Settles (replayed : Option (Except Failure Report)) (well : Prop) (report : Report) : Prop :=
  ∃ result, replayed = some result ∧ ∀ other, result = .ok other ↔ well ∧ other = report

variable {m : Machine} {script : Script} {well : Prop} {report : Report} {action : Action}

theorem settles_of_report (fine : well) : Settles (some (.ok report)) well report := by
  refine ⟨_, rfl, ?_⟩
  intro other
  constructor
  · intro same
    exact ⟨fine, (Except.ok.inj same).symm⟩
  · rintro ⟨-, rfl⟩
    rfl

theorem settles_of_failure (failure : Failure) (amiss : ¬ well) :
    Settles (some (.error failure)) well report :=
  ⟨_, rfl, fun _ => ⟨nofun, fun fine => absurd fine.1 amiss⟩⟩

theorem Settles.congr (settles : Settles replayed well report) (same : well ↔ other)
    (equal : report = also) : Settles replayed other also := by
  rwa [← equal, ← propext same]

theorem Action.eq_env (flag : action.kind = .env) : ∃ key value, action = .env key value := by
  cases action with
  | env key value => exact ⟨key, value, rfl⟩
  | advance => cases flag
  | choose label => cases flag

theorem Action.operation_ne_load (action : Action) (script : Script) (globals locals : ValueMap) :
    action.operation ≠ .load script globals locals := by
  cases action <;> exact nofun

theorem moves_cons_env (key : String) (value : Bool) (rest : List Action) :
    moves (.env key value :: rest) = moves rest := by
  simp [moves, Action.kind]

theorem moves_cons_move (move : action.kind ≠ .env) (rest : List Action) :
    moves (action :: rest) = moves rest + 1 := by
  simp [moves, move]

namespace Observation

theorem ofSignals_append (earlier later : List Signal) :
    ofSignals (earlier ++ later) = ofSignals earlier ++ ofSignals later := by
  simp [ofSignals, events]

theorem ofSignals_map_some (signals : List Signal) :
    (ofSignals signals).map some = (storyEvents signals).map ofEvent? := by
  induction signals with
  | nil => rfl
  | cons signal rest ih =>
    cases signal with
    | record r => exact ih
    | event e =>
      rw [ofSignals, events, storyEvents] at ih ⊢
      cases e <;>
        simp [List.filterMap_cons, Signal.event?, Signal.story?, Event.isDebug, ofEvent?, ih]

end Observation

theorem ofSignals_setEnvironment (m : Machine) (key : String) (value : Bool) :
    Observation.ofSignals (m.setEnvironment key value).signals = [] := by
  unfold Machine.setEnvironment
  split <;> rfl

theorem fits_env {reply : Reply Unit} (key : String) (value : Bool) :
    Deed.Fits ⟨m, .setEnvironment key value, reply.done⟩ ↔ reply.result = .ok () := by
  obtain ⟨next, signals, result⟩ := reply
  cases result <;> simp [Deed.Fits, Reply.done, Reply.map, Except.map]

namespace Progress

variable {observed : List Observation} {used : Nat} {rest : List Action}

theorem needed?_eq_none {progress : Progress} :
    progress.needed? = none ↔ progress.machine.phase.isSuspended = false := by
  unfold needed?
  cases progress.machine.phase <;> simp [Phase.isSuspended]

theorem fits_move (move : action.kind ≠ .env) (reply : Reply Answer) :
    Deed.Fits ⟨m, action.operation, reply⟩ ↔
      needed? ⟨m, observed, used, action :: rest⟩ = some action.kind := by
  cases action with
  | advance =>
    cases phase : m.phase <;> simp [Deed.Fits, Action.operation, needed?, Action.kind, phase]
  | choose label =>
    cases phase : m.phase <;> simp [Deed.Fits, Action.operation, needed?, Action.kind, phase]
  | env key value => exact absurd rfl move

theorem flagged_steady (move : action.kind ≠ .env) :
    flagged ⟨m, observed, used, action :: rest⟩ = .ok ⟨m, observed, used, action :: rest⟩ := by
  cases action with
  | env key value => exact absurd rfl move
  | _ => rfl

theorem finish_set (set : (m.setEnvironment key value).result = .ok ()) (left : Nat) :
    finish budget left ⟨m, observed, used, .env key value :: rest⟩ =
      finish budget left ⟨(m.setEnvironment key value).machine, observed, used + 1, rest⟩ := by
  cases left with
  | zero => rfl
  | succ left => simp [finish, flagged, applyFlags, set]

theorem finish_refused (refused : (m.setEnvironment key value).result ≠ .ok ()) (left : Nat) :
    ∃ failure, finish budget left ⟨m, observed, used, .env key value :: rest⟩ =
      some (.error failure) := by
  cases left with
  | zero => exact ⟨_, rfl⟩
  | succ left =>
    cases result : (m.setEnvironment key value).result with
    | ok done => exact absurd result refused
    | error error => exact ⟨.story error, by simp [finish, flagged, applyFlags, result]⟩

theorem finish_fit (plays : Plays script none m)
    (needed : needed? ⟨m, observed, used, action :: rest⟩ = some action.kind)
    (returned : m.perform budget action.operation = some reply) (left : Nat) :
    finish budget (left + 1) ⟨m, observed, used, action :: rest⟩ =
      finish budget left
        ⟨reply.machine, observed ++ Observation.ofSignals reply.signals, used + 1, rest⟩ := by
  cases action with
  | env key value => cases phase : m.phase <;> simp [needed?, Action.kind, phase] at needed
  | advance =>
    obtain ⟨advanced, ran, rfl⟩ := Option.map_eq_some_iff.1 returned
    have fine := plays.result_on .advance ran
    rw [finish, flagged_steady (by simp [Action.kind])]
    simp [needed, act, Action.kind, ran, moved, fine, Reply.done, Reply.map]
  | choose label =>
    obtain ⟨chosen, ran, rfl⟩ := Option.map_eq_some_iff.1 returned
    have fine := plays.result_on (.choose label) ran
    rw [finish, flagged_steady (by simp [Action.kind])]
    simp [needed, act, Action.kind, ran, moved, fine, Reply.done, Reply.map]

theorem finish_misfit (move : action.kind ≠ .env)
    (misfit : needed? ⟨m, observed, used, action :: rest⟩ ≠ some action.kind) (left : Nat) :
    ∃ failure, finish budget (left + 1) ⟨m, observed, used, action :: rest⟩ =
      some (.error failure) := by
  rw [finish, flagged_steady move]
  cases needed : needed? ⟨m, observed, used, action :: rest⟩ with
  | none => exact ⟨.unusedActions used _, by simp [needed, report]; rfl⟩
  | some kind =>
    have other : kind ≠ action.kind := fun same => misfit (same ▸ needed)
    refine ⟨.actionMismatch (eventIndex ⟨m, observed, used, action :: rest⟩) kind action.kind, ?_⟩
    simp only [needed, act]
    cases kind <;> cases action <;> first | exact absurd rfl other | rfl

theorem settles_end (left : Nat) :
    Settles (finish budget (left + 1) ⟨m, observed, used, []⟩) (m.phase.isSuspended = false)
      (.of observed used (boundaryLimit - left) m) := by
  have flagged : flagged ⟨m, observed, used, []⟩ = .ok ⟨m, observed, used, []⟩ := rfl
  rw [finish, flagged]
  cases needed : needed? ⟨m, observed, used, []⟩ with
  | none =>
    simp only [needed]
    exact settles_of_report (needed?_eq_none.1 needed)
  | some kind =>
    simp only [needed]
    refine settles_of_failure (.actionMissing (eventIndex ⟨m, observed, used, []⟩) kind) ?_
    intro rests
    rw [needed?_eq_none.2 rests] at needed
    cases needed

-- From the next boundary on: what is reported is the course of the actions that remain.
theorem settles_finish {remaining : List Action} (plays : Plays script none m)
    (ran : m.course budget (remaining.map Action.operation) = some deeds) (left : Nat) :
    Settles (finish budget left ⟨m, observed, used, remaining⟩)
      ((∀ deed ∈ deeds, deed.Fits) ∧ (m.after deeds).phase.isSuspended = false ∧
        moves remaining < left)
      (.of (observed ++ Observation.ofSignals (Deed.signals deeds)) (used + remaining.length)
        (boundaryLimit + 1 + moves remaining - left) (m.after deeds)) := by
  induction remaining generalizing m observed used deeds left with
  | nil =>
    cases Machine.course_nil_eq_some ran
    cases left with
    | zero => exact settles_of_failure _ (by simp)
    | succ left =>
      refine (settles_end left).congr (by simp [Machine.after, moves]) ?_
      simp [Machine.after, moves, Deed.signals, Observation.ofSignals, events]
  | cons action rest ih =>
    obtain ⟨reply, later, performed, continued, rfl⟩ := Machine.course_cons_eq_some ran
    have length : used + (action :: rest).length = used + 1 + rest.length := by
      rw [List.length_cons]
      omega
    rw [List.forall_mem_cons, Machine.after, Deed.signals_cons, Observation.ofSignals_append,
      length]
    by_cases move : action.kind = .env
    · obtain ⟨key, value, rfl⟩ := Action.eq_env move
      cases Option.some.inj performed
      rw [moves_cons_env]
      by_cases set : (m.setEnvironment key value).result = .ok ()
      · have silent := ofSignals_setEnvironment m key value
        rw [finish_set set]
        refine (ih (plays.setEnvironment key value) continued left).congr ?_ ?_
        · simp only [Action.operation, fits_env, set, true_and]
          rfl
        · simp [Reply.done, Reply.map, silent]
      · obtain ⟨failure, refused⟩ := finish_refused set left
        rw [refused]
        exact settles_of_failure _ fun fine => set ((fits_env key value).1 fine.1.1)
    · rw [moves_cons_move move]
      cases left with
      | zero => exact settles_of_failure _ (by simp)
      | succ left =>
        by_cases needed : needed? ⟨m, observed, used, action :: rest⟩ = some action.kind
        · have played : Plays script none reply.machine :=
            plays.perform action.operation_ne_load performed
          have boundaries : boundaryLimit + 1 + (moves rest + 1) - (left + 1) =
              boundaryLimit + 1 + moves rest - left := by omega
          have fits := (fits_move move reply).2 needed
          rw [finish_fit plays needed performed, boundaries, ← List.append_assoc]
          exact (ih played continued left).congr (by simp [fits]) rfl
        · obtain ⟨failure, refused⟩ := finish_misfit move needed left
          rw [refused]
          exact settles_of_failure _ fun fine => needed ((fits_move move reply).1 fine.1.1)

end Progress

theorem setFlags_course {flags : List (String × Bool)}
    (ran : m.course budget (flags.map fun flag => .setEnvironment flag.1 flag.2) = some deeds) :
    ((∀ deed ∈ deeds, deed.Fits) ∧ setFlags m flags = .ok (m.after deeds) ∧
        Observation.ofSignals (Deed.signals deeds) = []) ∨
      (¬ (∀ deed ∈ deeds, deed.Fits) ∧ ∃ error, setFlags m flags = .error error) := by
  induction flags generalizing m deeds with
  | nil =>
    cases Machine.course_nil_eq_some ran
    exact .inl ⟨List.forall_mem_nil _, rfl, rfl⟩
  | cons flag rest ih =>
    obtain ⟨key, value⟩ := flag
    obtain ⟨reply, later, performed, continued, rfl⟩ := Machine.course_cons_eq_some ran
    cases Option.some.inj performed
    rw [List.forall_mem_cons, Deed.signals_cons, Observation.ofSignals_append, setFlags]
    have silent := ofSignals_setEnvironment m key value
    cases result : (m.setEnvironment key value).result with
    | ok done =>
      have fits := (fits_env (m := m) key value).2 result
      rcases ih continued with ⟨fine, set, quiet⟩ | ⟨amiss, refused⟩
      · exact .inl ⟨⟨fits, fine⟩, set, by simp [Reply.done, Reply.map, silent, quiet]⟩
      · exact .inr ⟨fun fine => amiss fine.2, refused⟩
    | error error =>
      refine .inr ⟨?_, error, rfl⟩
      rintro ⟨fits, -⟩
      rw [(fits_env key value).1 fits] at result
      cases result

theorem start_of_parsed (parsed : Script.parse text = .ok script) (scenario : Scenario)
    (budget : Nat) :
    Progress.start budget scenario text =
      match setFlags (scenario.staged script).machine scenario.environment.toList with
      | .error error => some (.error (.story error))
      | .ok machine =>
        (machine.start budget scenario.startLabel).map fun reply =>
          match reply.result with
          | .error error => .error (.story error)
          | .ok () =>
            .ok ⟨reply.machine,
              Observation.ofSignals ((scenario.staged script).signals ++ reply.signals), 0,
              scenario.actions⟩ := by
  have lenient : Setup.scriptOf false text = .ok script := by simp [Setup.scriptOf, parsed]
  simp only [Progress.start, Setup.create, Setup.standard, lenient]
  rfl

theorem settles_replay (parsed : Script.parse text = .ok script) (scenario : Scenario)
    (ran : (scenario.staged script).machine.course budget scenario.operations = some deeds) :
    Settles (scenario.replay budget text)
      ((∀ deed ∈ deeds, deed.Fits) ∧
        ((scenario.staged script).machine.after deeds).phase.isSuspended = false ∧
        moves scenario.actions < boundaryLimit)
      (.of (Observation.ofSignals ((scenario.staged script).signals ++ Deed.signals deeds))
        scenario.actions.length (1 + moves scenario.actions)
        ((scenario.staged script).machine.after deeds)) := by
  have plays : Plays script none (scenario.staged script).machine := ⟨rfl, rfl⟩
  obtain ⟨flags, later, flagged, continued, rfl⟩ := Machine.course_append_eq_some ran
  obtain ⟨reply, acts, performed, acted, rfl⟩ := Machine.course_cons_eq_some continued
  obtain ⟨started, begun, rfl⟩ := Option.map_eq_some_iff.1 performed
  rw [List.forall_mem_append, List.forall_mem_cons, Machine.after_append, replay,
    start_of_parsed parsed]
  rcases setFlags_course flagged with ⟨fine, set, quiet⟩ | ⟨amiss, error, refused⟩
  · have ready : Plays script none ((scenario.staged script).machine.after flags) := by
      refine plays.course ?_ flagged
      intro operation member
      obtain ⟨flag, -, rfl⟩ := List.mem_map.1 member
      exact nofun
    have well := ready.result_on (.start _) begun
    simp only [set, begun, Option.map_some, well, Option.bind_some]
    refine (Progress.settles_finish (ready.on (.start _) begun) acted boundaryLimit).congr ?_ ?_
    · simp only [iff_true_intro fine, iff_true_intro (Deed.fits_start ..), true_and]
      rfl
    · have boundaries : boundaryLimit + 1 + moves scenario.actions - boundaryLimit =
          1 + moves scenario.actions := by omega
      rw [Deed.signals_append, Deed.signals_cons, boundaries, Nat.zero_add]
      simp [Observation.ofSignals_append, quiet, Machine.after, Reply.done, Reply.map]
  · simp only [refused, Option.bind_some]
    exact settles_of_failure _ fun fine => amiss fine.1.1

-- The report that a course deserves.
structure Reports (scenario : Scenario) (script : Script) (deeds : List Deed) (report : Report) :
    Prop where
  observed : ∃ seen,
    seen.map some =
      (storyEvents ((scenario.staged script).signals ++ Deed.signals deeds)).map
        Observation.ofEvent? ∧
    report.observed = seen ++
      if ((scenario.staged script).machine.after deeds).isStalled then [.stalled] else []
  used : report.used = scenario.actions.length
  boundaries : report.boundaries = 1 + moves scenario.actions
  phase : report.phase = ((scenario.staged script).machine.after deeds).phase
  globals : report.globals = ((scenario.staged script).machine.after deeds).stores.globals
  locals : report.locals = ((scenario.staged script).machine.after deeds).stores.locals.toMap

theorem reports_iff {scenario : Scenario} : scenario.Reports script deeds report ↔
    report = .of (Observation.ofSignals ((scenario.staged script).signals ++ Deed.signals deeds))
      scenario.actions.length (1 + moves scenario.actions)
      ((scenario.staged script).machine.after deeds) := by
  have images := Observation.ofSignals_map_some
    ((scenario.staged script).signals ++ Deed.signals deeds)
  constructor
  · rintro ⟨⟨seen, shown, observed⟩, used, boundaries, phase, globals, locals⟩
    have same := (List.map_inj_right fun _ _ => Option.some.inj).1 (shown.trans images.symm)
    obtain ⟨ownObserved, ownUsed, ownBoundaries, ownPhase, ownGlobals, ownLocals⟩ := report
    simp_all [Report.of]
  · rintro rfl
    exact ⟨⟨_, images, rfl⟩, rfl, rfl, rfl, rfl, rfl⟩

theorem replayIn_of_text (readable : disk.look (Path.join directory scenario.script) = .text text) :
    (replayIn budget directory scenario).runOn disk = (scenario.replay budget text, disk) := by
  simp [replayIn, readScript, readText, FileProgram.runOn, readable]

theorem replay_of_unparsed (refused : Script.parse text = .error error) (scenario : Scenario)
    (budget : Nat) : ∃ failure, scenario.replay budget text = some (.error failure) := by
  have unread : Setup.scriptOf false text = .error (.script error) := by
    simp [Setup.scriptOf, refused]
  refine ⟨.story (.script error), ?_⟩
  simp only [replay, Progress.start, Setup.create, Setup.standard, unread]
  rfl

theorem replay_follows_course (scenario : Scenario)
    (readable : disk.look (Path.join directory scenario.script) = .text text)
    (returns : ∀ script, Script.parse text = .ok script →
      ∃ deeds, (scenario.staged script).machine.course budget scenario.operations = some deeds) :
    ∃ result, (scenario.replayIn budget directory).runOn disk = (some result, disk) ∧
      ∀ report, result = .ok report ↔
        ∃ script deeds, Script.parse text = .ok script ∧
          (scenario.staged script).machine.course budget scenario.operations = some deeds ∧
          (∀ deed ∈ deeds, deed.Fits) ∧
          ((scenario.staged script).machine.after deeds).phase.isSuspended = false ∧
          moves scenario.actions ≤ 4999 ∧ scenario.Reports script deeds report := by
  rw [replayIn_of_text readable]
  cases parsed : Script.parse text with
  | error error =>
    obtain ⟨failure, failed⟩ := replay_of_unparsed parsed scenario budget
    refine ⟨.error failure, by rw [failed], ?_⟩
    intro report
    constructor
    · nofun
    · rintro ⟨script, deeds, read, -⟩
      cases read
  | ok script =>
    obtain ⟨deeds, ran⟩ := returns script parsed
    obtain ⟨result, replayed, reported⟩ := settles_replay parsed scenario ran
    refine ⟨result, by rw [replayed], ?_⟩
    intro report
    rw [reported report, ← reports_iff]
    constructor
    · rintro ⟨⟨fits, settled, within⟩, reports⟩
      exact ⟨script, deeds, rfl, ran, fits, settled, Nat.le_of_lt_succ within, reports⟩
    · rintro ⟨own, others, read, going, fits, settled, within, reports⟩
      cases read
      cases ran.symm.trans going
      exact ⟨⟨fits, settled, Nat.lt_succ_of_le within⟩, reports⟩

-- A story of one line, which is read to its end after a flag has been set again.
def dawnScript : String := "[\x7b\"type\":\"dialogue\",\"content\":\"dawn\"\x7d]"

def dawnDisk : Disk := ⟨.directory [("w", .directory [("s", .file (.text dawnScript))])], ["w"]⟩

def dawn : Scenario where
  schemaVersion := schema
  script := "s"
  randomSeed := none
  globals := .empty
  locals := .empty
  environment := Dict.ofList [("isDay", true)]
  startLabel := none
  actions := [.env "isNight" false, .advance]
  expectedEvents := []
  expectedState := none
  expectedVariables := .empty
  expectedGlobals := .empty

theorem replay_follows_course_to_the_end : ∃ report script deeds,
    (dawn.replayIn 9 "/w").runOn dawnDisk = (some (.ok report), dawnDisk) ∧
    Script.parse dawnScript = .ok script ∧ (∀ deed ∈ deeds, deed.Fits) ∧
    report.observed = [.say "" "dawn", .ended] ∧ report.boundaries = 2 ∧
    dawn.Reports script deeds report := by
  have readable : dawnDisk.look (Path.join "/w" dawn.script) = .text dawnScript := by
    decide +kernel
  have parsed : Script.parse dawnScript = .ok [⟨none, .dialogue none (some "dawn")⟩] := by
    decide +kernel
  have returns : ∀ script, Script.parse dawnScript = .ok script →
      ∃ deeds, (dawn.staged script).machine.course 9 dawn.operations = some deeds := by
    intro script read
    cases parsed.symm.trans read
    exact Option.isSome_iff_exists.1 (by decide +kernel)
  obtain ⟨result, replayed, reported⟩ := replay_follows_course dawn readable returns
  have observed : ((dawn.replayIn 9 "/w").runOn dawnDisk).1 = some (.ok
      ⟨[.say "" "dawn", .ended], 2, 2, .ended, .empty, .empty⟩) := by decide +kernel
  rw [replayed] at observed
  cases Option.some.inj observed
  obtain ⟨script, deeds, read, -, fits, -, -, reports⟩ := (reported _).1 rfl
  exact ⟨_, script, deeds, replayed, read, fits, rfl, rfl, reports⟩

end Scenario

end VisualNovel
