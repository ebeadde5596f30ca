import VisualNovel.Proofs.Console.Chain

namespace VisualNovel

structure Session where
  start : AgentResult
  links : List Link

namespace Session

def told (played : Session) : List (Option Told) :=
  VisualNovel.told played.start ::
    (savedLinks played.links).map fun link => VisualNovel.told link.result

def calls (played : Session) : List Call := (savedLinks played.links).map Link.call

end Session

def session (budget : Nat) (here : String) (options : StartOptions) (calls : List Call)
    (disk : Disk) : Session :=
  let (result, after) := (Agent.run budget here (.start options)).run.runOn disk
  match result with
  | .ok (some ⟨_, some path⟩) => ⟨result, chain here path after calls⟩
  | _ => ⟨result, []⟩

-- The machine that is kept in memory, at its first stop.
def engine (budget : Nat) (here : String) (options : StartOptions) :
    FileTask (Option (Reply Unit)) := do
  let script ← LoadedScript.load here options.script
  let globals ← Agent.values options.globals
  let locals ← Agent.values options.locals
  let setup : Setup := { Setup.standard with
    globals, locals, seed := options.seed, startLabel := options.startLabel }
  match setup.create budget script.text with
  | none => return none
  | some created =>
    let machine ← FileTask.ofStory created.result
    return some ⟨machine, created.signals, .ok ()⟩

def liveSession (calls : List Call) :
    Except ConsoleError (Option (Reply Unit)) → List (Option (Reply Unit))
  | .error _ => []
  | .ok none => [none]
  | .ok (some first) => some first :: if first.goesOn then live first.machine calls else []

def liveTold (calls : List Call) (started : Except ConsoleError (Option (Reply Unit))) :
    List (Option Told) :=
  match started with
  | .error error => [told (.error error)]
  | .ok _ => (liveSession calls started).map fun reply => told (liveResult reply)

variable {disk : Disk}

theorem on_loadScript_cases (here path : String) (disk : Disk) :
    (∃ error, (LoadedScript.load here path).on disk = (.error error, disk)) ∨
    ∃ text script, (LoadedScript.load here path).on disk =
        (.ok ⟨Path.join here path, text⟩, disk) ∧
      disk.look (Path.join here path) = .text text ∧ Script.parse text = .ok script := by
  have loaded := on_loadScript_eq here path disk
  cases found : disk.look (Path.join here path) with
  | text text =>
    cases parsed : Script.parse text with
    | ok script => exact .inr ⟨text, script, on_loadScript found parsed, rfl, parsed⟩
    | error error =>
      simp only [found, LoadedScript.checked, parsed] at loaded
      exact .inl ⟨_, loaded⟩
  | _ =>
    rw [found] at loaded
    exact .inl ⟨_, loaded⟩

theorem on_values (argument : Option String) (disk : Disk) :
    ∃ result, (Agent.values argument).on disk = (result, disk) :=
  ⟨_, Prod.ext rfl ((silent_values argument).looks disk)⟩

-- How a session starts, beside the reply of the machine that is kept in memory.
inductive Starts (path stateOut : String) (disk : Disk) :
    Except ConsoleError (Option (Reply Unit)) → AgentResult → Disk → Prop where
  | failed : Starts path stateOut disk (.error error) (.error error) disk
  | running : Starts path stateOut disk (.ok none) (.ok none) disk
  | unsaved : Starts path stateOut disk (.ok (some reply)) (.error .stateUnwritable) after
  | saved {reply : Reply Unit} {script : Script} {text : String} {after : Disk}
      (accepted : reply.result = .ok ()) (ready : Ready script reply.machine)
      (found : disk.look path = .text text) (parsed : Script.parse text = .ok script)
      (parked : reply.machine.phase.isSuspended = true)
      (next : SavedAt path reply.machine stateOut after) :
      Starts path stateOut disk (.ok (some reply))
        (.ok (some ⟨Boundary.collect reply.machine reply.signals, some stateOut⟩)) after
  | finished {reply : Reply Unit} (accepted : reply.result = .ok ())
      (gone : reply.machine.phase.isSuspended = false) :
      Starts path stateOut disk (.ok (some reply))
        (.ok (some ⟨Boundary.collect reply.machine reply.signals, none⟩)) disk

theorem starts (budget : Nat) (here : String) (options : StartOptions)
    (there : disk.tree.isDirectoryAt disk.here = true) :
    ∃ started result after, (engine budget here options).on disk = (started, disk) ∧
      (Agent.run budget here (.start options)).on disk = (result, after) ∧
      Starts (Path.join here options.script) options.stateOut disk started result after := by
  unfold Agent.run Agent.start engine
  obtain ⟨error, load⟩ | ⟨text, script, load, found, parsed⟩ :=
    on_loadScript_cases here options.script disk
  · exact ⟨_, _, _, FileTask.on_bind_error load, FileTask.on_bind_error load, .failed⟩
  rw [FileTask.on_bind_ok load, FileTask.on_bind_ok load]
  obtain ⟨globals, globalsRead⟩ := on_values options.globals disk
  obtain ⟨locals, localsRead⟩ := on_values options.locals disk
  cases globals with
  | error error =>
    exact ⟨_, _, _, FileTask.on_bind_error globalsRead, FileTask.on_bind_error globalsRead,
      .failed⟩
  | ok globals =>
  rw [FileTask.on_bind_ok globalsRead, FileTask.on_bind_ok globalsRead]
  cases locals with
  | error error =>
    exact ⟨_, _, _, FileTask.on_bind_error localsRead, FileTask.on_bind_error localsRead, .failed⟩
  | ok locals =>
  rw [FileTask.on_bind_ok localsRead, FileTask.on_bind_ok localsRead]
  dsimp only
  generalize created : Setup.create budget _ text = outcome
  cases outcome with
  | none => exact ⟨_, _, _, rfl, rfl, .running⟩
  | some outcome =>
  dsimp only
  cases accepted : outcome.result with
  | error error =>
    have refused : (FileTask.ofStory (.error error : Except StoryError Machine)).on disk =
      (.error (.story error), disk) := rfl
    exact ⟨_, _, _, FileTask.on_bind_error refused, FileTask.on_bind_error refused, .failed⟩
  | ok machine =>
  have made : (FileTask.ofStory (.ok machine)).on disk = (.ok machine, disk) := rfl
  rw [FileTask.on_bind_ok made, FileTask.on_bind_ok made]
  obtain ⟨own, ownParsed, plays, resting⟩ := Machine.create_cases created accepted
  cases (scriptOf_lenient parsed).symm.trans ownParsed
  obtain ⟨ended, after, ran, settled⟩ := settles machine outcome.signals
    (Path.join here options.script) options.stateOut there
  refine ⟨_, ended.map some, after, rfl, ?_, ?_⟩
  · cases ended with
    | error error => exact FileTask.on_bind_error ran
    | ok report => exact FileTask.on_bind_ok ran
  · cases settled with
    | saved parked next => exact .saved rfl ⟨resting, plays⟩ found parsed parked next
    | unsaved still kept => exact .unsaved
    | finished gone => exact .finished rfl gone

theorem session_of_saved {disk : Disk} (ran : (Agent.run budget here (.start options)).on disk =
    (.ok (some ⟨boundary, some path⟩), after)) (calls : List Call) :
    session budget here options calls disk =
      ⟨.ok (some ⟨boundary, some path⟩), chain here path after calls⟩ := by
  have same : (Agent.run budget here (.start options)).run.runOn disk =
    (.ok (some ⟨boundary, some path⟩), after) := ran
  unfold session
  rw [same]

-- Commands one after the other tell their reader what one machine tells that is kept in memory, as
-- long as the script stays as it is and the files keep what is in the stores.
theorem session_told (played : session budget here options calls disk = whole)
    (absolute : Path.isAbsolute here = true) (there : disk.tree.isDirectoryAt disk.here = true)
    (writable : couldNotSave whole.start = false)
    (unchanged : ∀ link ∈ whole.links, link.before.look (Path.join here options.script) =
      disk.look (Path.join here options.script))
    (storable : AllStorable (liveSession whole.calls ((engine budget here options).on disk).1)) :
    whole.told = liveTold whole.calls ((engine budget here options).on disk).1 ∧
      ∀ link ∈ whole.links, link.RefusesUnknown := by
  obtain ⟨started, result, after, engineRan, ran, start⟩ := starts budget here options there
  have same : (Agent.run budget here (.start options)).run.runOn disk = (result, after) := ran
  rw [engineRan] at storable ⊢
  unfold session at played
  rw [same] at played
  cases start with
  | failed =>
    subst played
    exact ⟨rfl, fun link member => absurd member List.not_mem_nil⟩
  | running =>
    subst played
    exact ⟨rfl, fun link member => absurd member List.not_mem_nil⟩
  | unsaved =>
    subst played
    cases writable
  | @finished reply accepted gone =>
    subst played
    have stops : reply.goesOn = false := by simp [Reply.goesOn, accepted, gone]
    refine ⟨?_, fun link member => absurd member List.not_mem_nil⟩
    simp only [liveTold, liveSession, stops, liveResult, accepted, List.map_cons]
    rfl
  | @saved reply script text after accepted ready found parsed parked next =>
    subst played
    have goesOn : reply.goesOn = true := by simp [Reply.goesOn, accepted, parked]
    have absolutePath := Path.isAbsolute_join absolute options.script
    rw [found] at unchanged
    simp only [liveSession, goesOn, if_true] at storable
    obtain ⟨storableFirst, keeps⟩ := storable.of_cons
    have further := chain_told absolutePath parsed here calls ready (storableFirst parked) next
      unchanged keeps
    refine ⟨?_, further.2⟩
    simp only [liveTold, liveSession, goesOn, if_true, List.map_cons]
    have first : told (.ok (some ⟨Boundary.collect reply.machine reply.signals,
        some options.stateOut⟩)) = told (liveResult (some reply)) := by
      simp only [liveResult, accepted]
      exact told_report rfl rfl rfl
    exact congrArg₂ List.cons first further.1

def numberScript : String := "[\x7b\"type\":\"dialogue\",\"content\":\"<x>\"\x7d]"

def numberDisk : Disk :=
  ⟨.directory [("w", .directory [("s", .file (.text numberScript))])], ["w"]⟩

def numberOptions (text : String) : StartOptions :=
  ⟨"s", some ("\x7b\"x\":" ++ text ++ "\x7d"), none, none, none, "a"⟩

def numberBoundary (text : String) : Boundary := ⟨.say, [.say "" text], [], none⟩

-- Sets a flag to what it is. The reader is shown the line once more.
def dayCall : Call := ⟨9, .env "isDay" true, "b"⟩

theorem session_told_at_faithful_number :
    ∃ whole link, session 9 "/w" (numberOptions "1.5") [dayCall] numberDisk = whole ∧
      whole.start = .ok (some ⟨numberBoundary "1.5", some "a"⟩) ∧ whole.links = [link] ∧
      whole.told = liveTold whole.calls
        ((engine 9 "/w" (numberOptions "1.5")).on numberDisk).1 ∧ link.RefusesUnknown := by
  have path : Path.join "/w" "s" = "/w/s" := by decide +kernel
  have first : ((Agent.run 9 "/w" (.start (numberOptions "1.5"))).on numberDisk).1 =
    .ok (some ⟨numberBoundary "1.5", some "a"⟩) := by decide +kernel
  have kept : ((Agent.run 9 "/w" (.start (numberOptions "1.5"))).on numberDisk).2.look "/w/s" =
    numberDisk.look "/w/s" := by decide +kernel
  have storable : ∀ calls ∈ [[], [dayCall]], AllStorable (liveSession calls
    ((engine 9 "/w" (numberOptions "1.5")).on numberDisk).1) := by decide +kernel
  generalize ran : (Agent.run 9 "/w" (.start (numberOptions "1.5"))).on numberDisk = started
    at first kept
  obtain ⟨result, after⟩ := started
  dsimp only at first kept
  subst first
  obtain ⟨link, single, called, before⟩ := chain_single "/w" "a" after dayCall
  have whole := session_of_saved ran [dayCall]
  rw [single] at whole
  have unchanged : ∀ other ∈ [link], other.before.look (Path.join "/w" "s") =
      numberDisk.look (Path.join "/w" "s") := by
    intro other member
    rw [List.mem_singleton.1 member, before, path, kept]
  have called : (savedLinks [link]).map Link.call ∈ [[], [dayCall]] := by
    cases lost : couldNotSave link.result <;> simp [savedLinks, lost, called]
  obtain ⟨same, refuses⟩ :=
    session_told whole (by decide) (by decide) rfl unchanged (storable _ called)
  exact ⟨_, link, whole, rfl, rfl, same, refuses link (List.mem_singleton_self _)⟩

-- The file keeps a finite number that is read back as the one next to it.
theorem session_parts_at_unfaithful_number :
    (∀ outcome ∈ liveSession [dayCall] ((engine 9 "/w" (numberOptions "5e32")).on numberDisk).1,
      ∀ reply ∈ outcome, ∀ binding ∈ reply.machine.stores.globals.toList,
        binding.2.isFinite = true) ∧
    (session 9 "/w" (numberOptions "5e32") [dayCall] numberDisk).calls = [dayCall] ∧
    (session 9 "/w" (numberOptions "5e32") [dayCall] numberDisk).told ≠
      liveTold [dayCall] ((engine 9 "/w" (numberOptions "5e32")).on numberDisk).1 := by
  decide +kernel

end VisualNovel
