import VisualNovel.Proofs.Playback.Kept
import VisualNovel.Proofs.Script.Loading
import Mathlib.Data.List.Basic

namespace VisualNovel

def Reports (signals : List Signal) : Prop :=
  ∃ id typeName reason, .record (.unknownSkipped id typeName reason) ∈ signals

theorem not_reports_nil : ¬ Reports [] := fun ⟨_, _, _, member⟩ => nomatch member

theorem not_reports_append (first : ¬ Reports earlier) (second : ¬ Reports later) :
    ¬ Reports (earlier ++ later) := by
  rintro ⟨id, typeName, reason, member⟩
  rcases List.mem_append.1 member with early | late
  · exact first ⟨id, typeName, reason, early⟩
  · exact second ⟨id, typeName, reason, late⟩

theorem not_reports_event (event : Event) : ¬ Reports [.event event] := by simp [Reports]

namespace Machine

-- The machine remembers no step as unknown, and none was reported.
structure Understands (m : Machine) (signals : List Signal) : Prop where
  fault : ∀ id typeName, m.lastFault ≠ some (.unknownStepType id typeName)
  log : ¬ Reports signals

-- The operations on a machine that leave it its script, with all that they have emitted.
inductive Serves (first : Machine) : List Signal → Machine → Prop where
  | nil : Serves first [] first
  | cons (before : Serves first signals m)
      (kept : ∀ script globals locals, operation ≠ .load script globals locals)
      (returned : m.perform budget operation = some reply) :
      Serves first (signals ++ reply.signals) reply.machine

variable {m next : Machine} {step : Step} {signals earlier later : List Signal}

theorem Understands.append (before : ¬ Reports earlier) (understands : next.Understands later) :
    next.Understands (earlier ++ later) :=
  ⟨understands.fault, not_reports_append before understands.log⟩

theorem Understands.quiet (understands : m.Understands earlier)
    (same : next.lastFault = m.lastFault) (quiet : ¬ Reports signals) : next.Understands signals :=
  ⟨fun id typeName => same ▸ understands.fault id typeName, quiet⟩

theorem not_reports_remarks (remarks : ∀ signal ∈ signals, signal.isRemark = true) :
    ¬ Reports signals := by
  rintro ⟨id, typeName, reason, member⟩
  cases remarks _ member

theorem Understands.jumpToLabel (understands : m.Understands earlier) (label : String) :
    (m.jumpToLabel label).1.Understands (m.jumpToLabel label).2 := by
  unfold Machine.jumpToLabel
  split
  · exact understands.quiet rfl not_reports_nil
  · exact ⟨nofun, by simp [Reports]⟩

theorem Understands.jumpToId (understands : m.Understands earlier) (id : StepId) :
    (m.jumpToId id).1.Understands (m.jumpToId id).2 := by
  unfold Machine.jumpToId
  split
  · exact understands.quiet rfl not_reports_nil
  · exact ⟨nofun, by simp [Reports]⟩

theorem Understands.finish (understands : m.Understands earlier) :
    m.finish.1.Understands m.finish.2 :=
  understands.quiet rfl (by simp [Reports, Machine.finish, debugEvent])

theorem Acts.understands {done : Machine × List Signal} (acts : Acts m step done)
    (understands : m.Understands earlier) (known : step.kind.isUnknown = false) :
    done.1.Understands done.2 := by
  cases acts with
  | passes => exact understands.quiet rfl not_reports_nil
  | emits stores environment tidy passing => exact understands.quiet rfl (not_reports_event _)
  | changes stores environment tidy remarks =>
    exact understands.quiet rfl
      (not_reports_append (not_reports_remarks remarks) (not_reports_event _))
  | strays => exact ⟨nofun, by simp [Reports]⟩
  | skips kind =>
    rw [kind] at known
    cases known
  | jumpsToLabel generator label =>
    have drawn : ({ m with generator := generator } : Machine).Understands earlier :=
      ⟨understands.fault, understands.log⟩
    exact drawn.jumpToLabel label
  | jumpsToId id => exact understands.jumpToId id
  | speaks kind => exact understands.quiet rfl (by simp [Reports, park, debugEvent])
  | asks kind => exact understands.quiet rfl (by simp [Reports, park, debugEvent])
  | ends kind => exact understands.finish

variable {script : Script} {guard : Option Nat}

theorem Understands.work (understands : m.Understands earlier) (plays : Plays script guard m)
    (known : script.Known) : m.work.1.Understands m.work.2 := by
  rcases m.work_acts with ⟨-, ended⟩ | ⟨step, here, acts⟩
  · rw [ended]
    exact understands.finish
  · have member : step ∈ script := plays.script ▸ List.mem_of_getElem? here
    have taking : m.taking.Understands earlier := ⟨understands.fault, understands.log⟩
    exact acts.understands taking (known step member)

theorem Works.understands (works : Works units m signals next) (plays : Plays script guard m)
    (known : script.Known) (understands : m.Understands earlier) :
    next.Understands (earlier ++ signals) := by
  induction works generalizing earlier with
  | nil => rwa [List.append_nil]
  | cons due further ih =>
    rw [← List.append_assoc]
    exact ih plays.work ((understands.work plays known).append understands.log)

theorem Drives.understands {reply : Reply Unit} (drives : Drives m units reply)
    (plays : Plays script guard m) (known : script.Known) (understands : m.Understands earlier) :
    reply.machine.Understands (earlier ++ reply.signals) := by
  cases drives with
  | rests works within settled =>
    have worked := works.understands plays known understands
    exact ⟨worked.fault, worked.log⟩
  | trips works guarded left =>
    have worked := works.understands plays known understands
    refine ⟨nofun, ?_⟩
    simp only [tripped]
    rw [← List.append_assoc]
    exact not_reports_append worked.log (by simp [Reports, debugEvent])

theorem Understands.opening {drive : Drive} (understands : m.Understands earlier)
    (opening : drive.opening? m = some (entered, led)) : entered.Understands led := by
  rcases Drive.opening_cases opening with ⟨phase, label, -, jumped⟩ | ⟨cursor, rfl, rfl⟩
  · have here : ({ m with phase := phase } : Machine).Understands earlier :=
      ⟨understands.fault, understands.log⟩
    have landed := here.jumpToLabel label
    rwa [jumped] at landed
  · exact understands.quiet rfl not_reports_nil

theorem passes_understands {drive : Drive} (passes : drive.Passes m units signals next)
    (plays : Plays script guard m) (known : script.Known) (understands : m.Understands earlier) :
    next.Understands signals := by
  cases passes with
  | works opening works =>
    have entered := plays.opening opening
    exact works.understands entered known (understands.opening opening)

theorem returns_understands {drive : Drive} {reply : Reply Unit}
    (returns : drive.Returns m units reply) (plays : Plays script guard m) (known : script.Known)
    (understands : m.Understands earlier) : reply.machine.Understands reply.signals := by
  cases returns with
  | idle nothing =>
    rcases drive.idle_cases m with same | same
    · rw [same]
      exact understands.quiet rfl not_reports_nil
    · rw [same]
      exact understands.quiet rfl (by simp [Reports])
  | drives opening drives =>
    have entered := plays.opening opening
    exact drives.understands entered known (understands.opening opening)

theorem Understands.perform (understands : m.Understands earlier) (plays : Plays script guard m)
    (known : script.Known)
    (kept : ∀ script globals locals, operation ≠ .load script globals locals)
    (returned : m.perform budget operation = some reply) :
    reply.machine.Understands reply.signals := by
  have shown {signals : List Signal} (remarks : ∀ signal ∈ signals, signal.isRemark = true)
      (event : Event) : ¬ Reports (signals ++ [.event event]) :=
    not_reports_append (not_reports_remarks remarks) (not_reports_event event)
  cases performs_of_perform returned with
  | drives drive returns => exact returns_understands returns plays known understands
  | loads script globals locals => exact absurd rfl (kept script globals locals)
  | stops unended => exact understands.quiet rfl (not_reports_event _)
  | strays unknown => exact ⟨nofun, by simp [Reports]⟩
  | writes writes stores environment tidy remarks answer =>
    exact understands.quiet rfl (shown remarks _)
  | resumes fits set => exact ⟨nofun, shown (isRemark_refusals _) _⟩
  | _ => exact understands.quiet rfl not_reports_nil

theorem Serves.plays (serves : Serves first signals m) (plays : Plays script guard first) :
    Plays script guard m := by
  induction serves with
  | nil => exact plays
  | cons before kept returned ih => exact ih.perform kept returned

theorem Serves.understands (serves : Serves first signals m) (plays : Plays script guard first)
    (known : script.Known) (understands : first.Understands earlier) :
    m.Understands (earlier ++ signals) := by
  induction serves with
  | nil => rwa [List.append_nil]
  | cons before kept returned ih =>
    rw [← List.append_assoc]
    exact (ih.perform (before.plays plays) known kept returned).append ih.log

end Machine

namespace Setup

inductive Creates (setup : Setup) (text : String) : Outcome → Prop where
  | unread (unread : Script.parse text = .error error) :
      Creates setup text (refused (.script error))
  | unknown (parsed : Script.parse text = .ok script) (first : script.FirstUnknown index step)
      (kind : step.kind = .unknown typeName reason) :
      Creates setup text (refused (.script (.unsupported index step.id typeName reason)))
  | plays (parsed : Script.parse text = .ok script) (known : script.Known)
      (plays : m.Plays script setup.stepGuard) (understands : m.Understands signals) :
      Creates setup text ⟨signals, .ok m⟩
  | trips (parsed : Script.parse text = .ok script) (known : script.Known) :
      Creates setup text ⟨signals, .error (.guardExceeded limit)⟩

variable {setup : Setup} {text : String} {outcome : Outcome}

theorem code_of_parse (unread : Script.parse text = .error error) :
    error.code ≠ "API_SCRIPT_UNKNOWN_STEP" := by
  unfold Script.parse at unread
  split at unread
  · rw [Script.code_of_ofJson unread]
    decide
  · cases unread
    decide

theorem loaded_understands (setup : Setup) (script : Script) :
    (setup.loaded script).machine.Understands (setup.loaded script).signals :=
  ⟨nofun, not_reports_append (Machine.not_reports_remarks (Machine.isRemark_refusals _)) (not_reports_event _)⟩

theorem start_understands (returned : (setup.loaded script).machine.start budget label = some reply)
    (known : script.Known) :
    reply.machine.Plays script setup.stepGuard ∧ reply.machine.Understands reply.signals ∧
      (reply.result = .ok () ∨ ∃ limit, reply.result = .error (.guardExceeded limit)) := by
  have plays : (setup.loaded script).machine.Plays script setup.stepGuard := ⟨rfl, rfl⟩
  have driven : (Drive.start label).on budget (setup.loaded script).machine = some reply := returned
  obtain ⟨units, returns, -⟩ := Drive.on_eq_some_iff.1 driven
  refine ⟨plays.on (.start label) returned, ?_, ?_⟩
  · exact Machine.returns_understands returns plays known (setup.loaded_understands script)
  · cases returns with
    | idle nothing => exact .inl (Drive.idle_result _ _)
    | drives opening drives =>
      cases drives with
      | rests works within settled => exact .inl rfl
      | trips works guarded left => exact .inr ⟨_, rfl⟩

theorem Creates.of_reply {reply : Reply Unit} (parsed : Script.parse text = .ok script)
    (known : script.Known) (plays : reply.machine.Plays script setup.stepGuard)
    (understands : reply.machine.Understands reply.signals) (quiet : ¬ Reports earlier)
    (ended : reply.result = .ok () ∨ ∃ limit, reply.result = .error (.guardExceeded limit)) :
    Creates setup text (Setup.outcome earlier reply) := by
  unfold Setup.outcome
  rcases ended with done | ⟨limit, given⟩
  · rw [done]
    exact .plays parsed known plays (understands.append quiet)
  · rw [given]
    exact .trips parsed known

theorem create_eq_of_unread (unread : Script.parse text = .error error) :
    setup.create budget text = some (refused (.script error)) := by
  simp [create, scriptOf, unread]

theorem create_eq_of_unknown (strict : setup.strict = true)
    (parsed : Script.parse text = .ok script) (found : script.firstUnknown? = some error) :
    setup.create budget text = some (refused (.script error)) := by
  simp [create, scriptOf, strict, parsed, found]

theorem create_eq_of_known (parsed : Script.parse text = .ok script)
    (known : script.firstUnknown? = none) :
    setup.create budget text =
      if setup.autoStart then
        ((setup.loaded script).machine.start budget setup.startLabel).map
          (Setup.outcome (setup.loaded script).signals)
      else some (Setup.outcome [] (setup.loaded script)) := by
  simp [create, scriptOf, parsed, known]

theorem creates_of_create (strict : setup.strict = true)
    (created : setup.create budget text = some outcome) : Creates setup text outcome := by
  cases parsed : Script.parse text with
  | error error =>
    rw [create_eq_of_unread parsed] at created
    cases Option.some.inj created
    exact .unread parsed
  | ok script =>
    rcases script.firstUnknown?_cases with
      ⟨known, unfound⟩ | ⟨index, step, typeName, reason, first, kind, found⟩
    · rw [create_eq_of_known parsed unfound] at created
      have loaded := setup.loaded_understands script
      split at created
      · obtain ⟨reply, started, rfl⟩ := Option.map_eq_some_iff.1 created
        obtain ⟨plays, understands, ended⟩ := start_understands started known
        exact .of_reply parsed known plays understands loaded.log ended
      · cases Option.some.inj created
        exact .of_reply parsed known ⟨rfl, rfl⟩ loaded not_reports_nil (.inl rfl)
    · rw [create_eq_of_unknown strict parsed found] at created
      cases Option.some.inj created
      exact .unknown parsed first kind

theorem create_of_firstUnknown (strict : setup.strict = true)
    (parsed : Script.parse text = .ok script) (first : script.FirstUnknown index step) :
    ∃ typeName reason, step.kind = .unknown typeName reason ∧
      setup.create budget text =
        some (refused (.script (.unsupported index step.id typeName reason))) := by
  rcases script.firstUnknown?_cases with
    ⟨known, -⟩ | ⟨place, own, typeName, reason, again, kind, found⟩
  · exact absurd first.holds (by simp [known step first.mem])
  · obtain ⟨rfl, rfl⟩ := first.unique again
    exact ⟨typeName, reason, kind, create_eq_of_unknown strict parsed found⟩

theorem unknown_step_iff (strict : setup.strict = true) :
    (∃ outcome error, setup.create budget text = some outcome ∧ outcome.result = .error error ∧
      error.code = "API_SCRIPT_UNKNOWN_STEP") ↔
    ∃ script, Script.parse text = .ok script ∧ ∃ step ∈ script, step.kind.isUnknown = true := by
  constructor
  · rintro ⟨outcome, error, created, refused, code⟩
    cases creates_of_create strict created with
    | unread unread =>
      cases refused
      exact absurd code (code_of_parse unread)
    | unknown parsed first kind => exact ⟨_, parsed, _, first.mem, first.holds⟩
    | plays parsed known plays understands => cases refused
    | trips parsed known =>
      cases refused
      exact absurd code (by decide : "ENGINE_GUARD_EXCEEDED" ≠ "API_SCRIPT_UNKNOWN_STEP")
  · rintro ⟨script, parsed, step, member, unknown⟩
    rcases script.firstUnknown?_cases with ⟨known, -⟩ | ⟨_, _, _, _, first, -, -⟩
    · exact absurd unknown (by simp [known step member])
    · obtain ⟨_, _, -, created⟩ := create_of_firstUnknown strict parsed first
      exact ⟨_, _, created, rfl, rfl⟩

-- A list of objects is a script of as many steps, and what is none is refused by its first stray
-- item. A strict setup is refused for an unknown step exactly if there is one, naming the first of
-- them before anything is emitted. A machine that it gives never remembers or reports an unknown
-- step, after any operations but a load and amid any drive, whether that comes to rest or not.
theorem strict_scripts_are_understood :
    (∀ value script, Script.ofJson value = .ok script ↔
      ∃ items, Script.Carries value items ∧ (∀ item ∈ items, item.IsObject) ∧
        script = items.map Step.ofJson ∧ Script.ofArray? (.array items) = some script) ∧
    (∀ value error, Script.ofJson value = .error error →
      error.code = "API_SCRIPT_SHAPE" ∧
        ∀ items, Script.Carries value items →
          ∃ index item, Earliest (fun item => ¬ item.IsObject) items index item ∧
            error = .notAnObject index item.typeName) ∧
    ∀ setup : Setup, setup.strict = true → ∀ budget text,
      ((∃ outcome error, setup.create budget text = some outcome ∧
          outcome.result = .error error ∧ error.code = "API_SCRIPT_UNKNOWN_STEP") ↔
        ∃ script, Script.parse text = .ok script ∧
          ∃ step ∈ script, step.kind.isUnknown = true) ∧
      (∀ script index step, Script.parse text = .ok script → script.FirstUnknown index step →
        ∃ typeName reason, step.kind = .unknown typeName reason ∧
          setup.create budget text =
            some ⟨[], .error (.script (.unsupported index step.id typeName reason))⟩) ∧
      ∀ outcome m, setup.create budget text = some outcome → outcome.result = .ok m →
        ∀ signals next, m.Serves signals next →
          next.Understands (outcome.signals ++ signals) ∧
          ∀ drive units passed amid, Drive.Passes next drive units passed amid →
            amid.Understands (outcome.signals ++ signals ++ passed) := by
  refine ⟨fun value script => ?_, fun value error refused => ?_,
    fun setup strict budget text => ⟨unknown_step_iff strict, ?_, ?_⟩⟩
  · rw [Script.ofJson_eq_ok_iff]
    constructor
    · rintro ⟨items, carries, objects, rfl⟩
      exact ⟨items, carries, objects, rfl, rfl⟩
    · rintro ⟨items, carries, objects, same, -⟩
      exact ⟨items, carries, objects, same⟩
  · exact ⟨Script.code_of_ofJson refused, fun items => Script.first_of_ofJson refused⟩
  · exact fun script index step parsed first => create_of_firstUnknown strict parsed first
  · intro outcome m created accepted signals next serves
    cases creates_of_create strict created with
    | unread unread => cases accepted
    | unknown parsed first kind => cases accepted
    | trips parsed known => cases accepted
    | plays parsed known plays understands =>
      cases accepted
      have served := serves.understands plays known understands
      refine ⟨served, fun drive units passed amid passes => ?_⟩
      exact (Machine.passes_understands passes (serves.plays plays) known served).append served.log

def teleportScript : String :=
  "[\x7b\"type\":\"dialogue\"\x7d,\x7b\"id\":\"x9\",\"type\":\"teleport\"\x7d]"

def silentScript : String := "[\x7b\"type\":\"dialogue\"\x7d]"

-- The second step of a script is refused by its place; the first by itself is played to its end.
theorem strict_scripts_are_understood_at_teleport :
    (∃ reason, ({ standard with strict := true } : Setup).create 9 teleportScript =
      some ⟨[], .error (.script (.unsupported 1 (some (.text "x9")) "teleport" reason))⟩) ∧
    ∃ outcome m reply, ({ standard with strict := true } : Setup).create 9 silentScript =
        some outcome ∧ outcome.result = .ok m ∧ m.perform 9 .advance = some reply ∧
      reply.machine.phase = .ended ∧
      reply.machine.Understands (outcome.signals ++ reply.signals) := by
  obtain ⟨-, -, strict⟩ := strict_scripts_are_understood
  constructor
  · let unknown : Mismatch := .unknownVariant "teleport" (StepType.all.map StepType.name)
    have parsed : Script.parse teleportScript = .ok
        [⟨none, .dialogue none none⟩,
          ⟨some (.text "x9"), .unknown "teleport" unknown.message⟩] := by
      decide +kernel
    have first : Script.FirstUnknown
        [⟨none, .dialogue none none⟩, ⟨some (.text "x9"), .unknown "teleport" unknown.message⟩] 1
        ⟨some (.text "x9"), .unknown "teleport" unknown.message⟩ := .tail nofun (.head rfl)
    obtain ⟨typeName, reason, kind, created⟩ :=
      (strict { standard with strict := true } rfl 9 teleportScript).2.1 _ _ _ parsed first
    cases kind
    exact ⟨unknown.message, created⟩
  · have ended : (({ standard with strict := true } : Setup).create 9 silentScript).bind
        (fun outcome => outcome.result.toOption.bind fun m =>
          (m.perform 9 .advance).map fun reply => reply.machine.phase) = some .ended := by
      decide +kernel
    obtain ⟨⟨signals, result⟩, created, played⟩ := Option.bind_eq_some_iff.1 ended
    cases result with
    | error error => cases played
    | ok m =>
      obtain ⟨reply, advanced, ended⟩ := Option.map_eq_some_iff.1 played
      have serves : m.Serves reply.signals reply.machine := .cons .nil (by simp) advanced
      have understood := (strict _ rfl 9 silentScript).2.2 _ m created rfl _ _ serves
      exact ⟨_, m, reply, created, rfl, advanced, ended, understood.1⟩

end Setup

end VisualNovel
