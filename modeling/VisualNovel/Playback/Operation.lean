import VisualNovel.Playback.Machine

namespace VisualNovel

structure Snapshot where
  schemaVersion : String
  cursor : Nat
  phase : Phase
  globals : ValueMap
  locals : ValueMap
  environment : Environment
  generatorState : UInt32
deriving DecidableEq

namespace Snapshot

def schema : String := "vn-snapshot.v1"

def memberNames : List String :=
  ["schemaVersion", "cursor", "state", "globals", "variables", "environment", "rngState"]

def members (s : Snapshot) : List (String × Json) :=
  [("schemaVersion", .string s.schemaVersion), ("cursor", .ofNat s.cursor),
    ("state", .string s.phase.name), ("globals", s.globals.toJson),
    ("variables", s.locals.toJson), ("environment", s.environment.toJson),
    ("rngState", .ofNat s.generatorState.toNat)]

def toJson (s : Snapshot) : Json := .object s.members

def wordLimit : Nat := 2 ^ 64

def stateLimit : Nat := 2 ^ 32

-- A phase is written as its name, alone or as the one key of an object that holds nothing.
def phaseOfJson? : Json → Option Phase
  | .string name => Phase.ofName? name
  | .object [(name, .null)] => Phase.ofName? name
  | _ => none

def ofFields? (field : String → Option Json) : Option Snapshot := do
  let schemaVersion ← (field "schemaVersion").bind Json.string?
  let cursor ← (field "cursor").bind (Json.nat? wordLimit)
  let phase ← (field "state").bind phaseOfJson?
  let globals ← (field "globals").bind ValueMap.ofJson?
  let locals ← (field "variables").bind ValueMap.ofJson?
  let environment ← (field "environment").bind Environment.ofJson?
  let generatorState ← (field "rngState").bind (Json.nat? stateLimit)
  return ⟨schemaVersion, cursor, phase, globals, locals, environment, generatorState.toUInt32⟩

def ofJson? (value : Json) : Option Snapshot :=
  (value.fieldsOf? memberNames).bind ofFields?

end Snapshot

structure Reply (α : Type) where
  machine : Machine
  signals : List Signal
  result : Except StoryError α

namespace Machine

def rest (m : Machine) : Machine := { m with due := false }

-- At the limit the run is given up, but keeps its place.
def giveUp (m : Machine) (limit : Nat) : Machine :=
  { m with phase := .idle, lastFault := some (.guardExceeded limit), due := false }

-- Work until the machine rests, at most as many units as the step guard allows.
def drive (budget : Nat) (m : Machine) (earlier : List Signal) : Option (Reply Unit) :=
  match m.stepGuard with
  | some limit =>
    let (m, log) := m.workOn limit earlier.reverse
    if m.pending then
      let stopped := m.giveUp limit
      some ⟨stopped,
        log.reverse ++ [.record (.guardExceeded limit m.cursor), stopped.debugEvent],
        .error (.guardExceeded limit)⟩
    else some ⟨m.rest, log.reverse, .ok ()⟩
  | none =>
    let (m, log) := m.workOn budget earlier.reverse
    if m.pending then none else some ⟨m.rest, log.reverse, .ok ()⟩

def unchanged (m : Machine) : Reply Unit := ⟨m, [], .ok ()⟩

def shown (m : Machine) (signals : List Signal) (value : α) : Reply α :=
  ⟨m, signals ++ [m.debugEvent], .ok value⟩

def resetRun (m : Machine) : Machine :=
  { m with due := false, stepCount := 0, lastFault := none, generator := ⟨m.seed⟩ }

def load (m : Machine) (script : Script) (globals locals : ValueMap) : Reply Unit :=
  let m := { m with
    script := script
    stores := ⟨globals, .ofMap locals, m.stores.environment⟩
    cursor := 0
    phase := .idle }
  m.resetRun.shown (refusals (LocalStore.mapNotices locals)) ()

-- A start without label goes to the autosave point, if one has been passed.
def entry? (m : Machine) (label : Option String) : Option String :=
  match label with
  | some label => some label
  | none => m.stores.locals.autosave.filter fun label => label ≠ ""

def start (budget : Nat) (m : Machine) (label : Option String) : Option (Reply Unit) :=
  if m.script = [] then some m.unchanged
  else if m.phase = .ended then some ⟨m, [.record .startIgnored], .ok ()⟩
  else
    let playing := { m with phase := .playing }
    match m.entry? label with
    | some label =>
      let (m, signals) := playing.jumpToLabel label
      m.drive budget signals
    | none => { playing with cursor := 0, due := true }.drive budget []

def stop (m : Machine) : Reply Unit :=
  if m.phase = .ended then m.unchanged
  else { m with phase := .idle, due := false }.shown [] ()

def advance (budget : Nat) (m : Machine) : Option (Reply Unit) :=
  if m.phase = .waiting then { m with phase := .playing }.proceed.drive budget []
  else some m.unchanged

def choose (budget : Nat) (m : Machine) (label : String) : Option (Reply Unit) :=
  if m.phase = .choice then
    let (m, signals) := m.jumpToLabel label
    m.drive budget signals
  else some m.unchanged

def setEnvironment (m : Machine) (key : String) (value : Bool) : Reply Unit :=
  match m.stores.environment.set? key value with
  | some environment =>
    ⟨{ m with stores := { m.stores with environment := environment } }, [], .ok ()⟩
  | none =>
    ⟨{ m with lastFault := some (.unknownEnvironmentKey key) },
      [.record (.environmentKeyRejected key)], .error (.unknownEnvironmentKey key)⟩

def localValue? (m : Machine) (key : String) : Option Value := m.stores.locals.get? key

def globalValue? (m : Machine) (key : String) : Option Value := m.stores.globals.get? key

def setVariable (m : Machine) (key : String) (value : Value) : Reply Unit :=
  let (m, signals) := m.setLocal key value
  m.shown signals ()

def deleteVariable (m : Machine) (key : String) : Reply (Option Value) :=
  let (removed, locals) := m.stores.locals.remove key
  (m.withLocals locals).shown [] removed

def setGlobal (m : Machine) (key : String) (value : Value) : Reply Unit :=
  (m.withGlobals (m.stores.globals.insert key value)).shown [] ()

def deleteGlobal (m : Machine) (key : String) : Reply (Option Value) :=
  (m.withGlobals (m.stores.globals.erase key)).shown [] (m.globalValue? key)

-- The event of the step on which the machine is parked, rendered anew.
def currentBoundary? (m : Machine) : Option Event :=
  match m.currentStep? with
  | none => none
  | some step =>
    match step.kind, m.phase with
    | .dialogue label content, .waiting => some (m.sayEvent label content)
    | .choice options, .choice => some (.choice options)
    | _, _ => none

def snapshot (m : Machine) : Except StoryError Snapshot :=
  if m.phase.isSuspended then
    .ok {
      schemaVersion := Snapshot.schema
      cursor := m.cursor
      phase := m.phase
      globals := m.stores.globals
      locals := m.stores.locals.toMap
      environment := m.stores.environment
      generatorState := m.generator.state }
  else .error (.notSuspended m.phase)

def fits (m : Machine) (s : Snapshot) : Bool :=
  match m.script[s.cursor]?, s.phase with
  | some step, .waiting => step.kind.isDialogue
  | some step, .choice => step.kind.isChoice
  | _, _ => false

def resume (m : Machine) (s : Snapshot) : Reply Unit :=
  if s.schemaVersion ≠ Snapshot.schema then ⟨m, [], .error (.snapshotSchema s.schemaVersion)⟩
  else if !m.fits s then ⟨m, [], .error (.snapshotCursor s.cursor s.phase)⟩
  else
    match m.stores.environment.setAll s.environment.toList with
    | .error key => ⟨m, [], .error (.unknownEnvironmentKey key)⟩
    | .ok environment =>
      let m := { m.resetRun with
        stores := ⟨s.globals, .ofMap s.locals, environment⟩
        generator := ⟨s.generatorState⟩
        cursor := s.cursor
        phase := s.phase }
      m.shown (refusals (LocalStore.mapNotices s.locals)) ()

end Machine

inductive Operation where
  | load (script : Script) (globals locals : ValueMap)
  | start (label : Option String)
  | stop
  | advance
  | choose (label : String)
  | setEnvironment (key : String) (value : Bool)
  | getVariable (key : String)
  | setVariable (key : String) (value : Value)
  | deleteVariable (key : String)
  | getGlobal (key : String)
  | setGlobal (key : String) (value : Value)
  | deleteGlobal (key : String)
  | boundary
  | snapshot
  | resume (snapshot : Snapshot)
deriving DecidableEq

inductive Answer where
  | done
  | value (value : Option Value)
  | event (event : Option Event)
  | snapshot (snapshot : Snapshot)
deriving DecidableEq

def Reply.map (f : α → β) (reply : Reply α) : Reply β :=
  ⟨reply.machine, reply.signals, reply.result.map f⟩

def Reply.done (reply : Reply Unit) : Reply Answer := reply.map fun _ => .done

def Machine.perform (budget : Nat) (m : Machine) : Operation → Option (Reply Answer)
  | .load script globals locals => some (m.load script globals locals).done
  | .start label => (m.start budget label).map Reply.done
  | .stop => some m.stop.done
  | .advance => (m.advance budget).map Reply.done
  | .choose label => (m.choose budget label).map Reply.done
  | .setEnvironment key value => some (m.setEnvironment key value).done
  | .getVariable key => some ⟨m, [], .ok (.value (m.localValue? key))⟩
  | .setVariable key value => some (m.setVariable key value).done
  | .deleteVariable key => some ((m.deleteVariable key).map .value)
  | .getGlobal key => some ⟨m, [], .ok (.value (m.globalValue? key))⟩
  | .setGlobal key value => some (m.setGlobal key value).done
  | .deleteGlobal key => some ((m.deleteGlobal key).map .value)
  | .boundary => some ⟨m, [], .ok (.event m.currentBoundary?)⟩
  | .snapshot => some ⟨m, [], m.snapshot.map .snapshot⟩
  | .resume s => some (m.resume s).done

structure Setup where
  globals : Option ValueMap
  locals : Option ValueMap
  environment : Option Environment
  seed : Option UInt32
  autoStart : Bool
  startLabel : Option String
  strict : Bool
  stepGuard : Option Nat

namespace Setup

def standard : Setup := ⟨none, none, none, none, true, none, false, none⟩

structure Outcome where
  signals : List Signal
  result : Except StoryError Machine

def refused (error : StoryError) : Outcome := ⟨[], .error error⟩

-- With `strict`, a script with an unknown step is refused before anything is emitted.
def scriptOf (strict : Bool) (text : String) : Except StoryError Script :=
  match Script.parse text with
  | .error error => .error (.script error)
  | .ok script =>
    match strict, script.firstUnknown? with
    | true, some error => .error (.script error)
    | _, _ => .ok script

def loaded (setup : Setup) (script : Script) : Reply Unit :=
  (Machine.new setup.seed setup.environment setup.stepGuard).load script
    (setup.globals.getD .empty) (setup.locals.getD .empty)

def outcome (earlier : List Signal) (reply : Reply Unit) : Outcome :=
  ⟨earlier ++ reply.signals, reply.result.map fun _ => reply.machine⟩

def create (budget : Nat) (setup : Setup) (text : String) : Option Outcome :=
  match scriptOf setup.strict text with
  | .error error => some (refused error)
  | .ok script =>
    let reply := setup.loaded script
    if setup.autoStart then
      (reply.machine.start budget setup.startLabel).map (outcome reply.signals)
    else some (outcome [] reply)

-- The seed and the saved stores of the setup do not matter: the snapshot brings its own.
def resume (setup : Setup) (text : String) (snapshot : Snapshot) : Outcome :=
  match scriptOf false text with
  | .error error => refused error
  | .ok script =>
    let reply := (Machine.new none setup.environment setup.stepGuard).load script .empty .empty
    outcome reply.signals (reply.machine.resume snapshot)

end Setup

end VisualNovel
