import VisualNovel.Scenario.Basic
import VisualNovel.Playback.Operation

namespace VisualNovel.Scenario

structure Report where
  observed : List Observation
  used : Nat
  boundaries : Nat
  phase : Phase
  globals : ValueMap
  locals : ValueMap
deriving DecidableEq

structure Progress where
  machine : Machine
  observed : List Observation
  used : Nat
  remaining : List Action

def boundaryLimit : Nat := 5000

def setFlags (machine : Machine) : List (String × Bool) → Except StoryError Machine
  | [] => .ok machine
  | (key, value) :: rest =>
    let reply := machine.setEnvironment key value
    match reply.result with
    | .ok () => setFlags reply.machine rest
    | .error error => .error error

def applyFlags (machine : Machine) (used : Nat) :
    List Action → Except StoryError (Machine × Nat × List Action)
  | .env key value :: rest =>
    let reply := machine.setEnvironment key value
    match reply.result with
    | .ok () => applyFlags reply.machine (used + 1) rest
    | .error error => .error error
  | remaining => .ok (machine, used, remaining)

namespace Progress

def start (budget : Nat) (scenario : Scenario) (text : String) :
    Option (Except Failure Progress) :=
  let setup : Setup := { Setup.standard with
    globals := some scenario.globals
    locals := some scenario.locals
    seed := some (scenario.randomSeed.getD 1)
    autoStart := false }
  (setup.create budget text).bind fun created =>
    match created.result with
    | .error error => some (.error (.story error))
    | .ok machine =>
      match setFlags machine scenario.environment.toList with
      | .error error => some (.error (.story error))
      | .ok machine =>
        (machine.start budget scenario.startLabel).map fun reply =>
          match reply.result with
          | .error error => .error (.story error)
          | .ok () =>
            .ok ⟨reply.machine, Observation.ofSignals (created.signals ++ reply.signals), 0,
              scenario.actions⟩

def needed? (progress : Progress) : Option ActionKind :=
  match progress.machine.phase with
  | .waiting => some .advance
  | .choice => some .choose
  | _ => none

def eventIndex (progress : Progress) : Nat := progress.observed.length - 1

def moved (progress : Progress) (rest : List Action) (reply : Reply Unit) :
    Except Failure Progress :=
  match reply.result with
  | .error error => .error (.story error)
  | .ok () =>
    .ok ⟨reply.machine, progress.observed ++ Observation.ofSignals reply.signals, progress.used + 1,
      rest⟩

def act (budget : Nat) (progress : Progress) (needed : ActionKind) :
    Option (Except Failure Progress) :=
  match progress.remaining with
  | [] => some (.error (.actionMissing progress.eventIndex needed))
  | action :: rest =>
    match needed, action with
    | .advance, .advance => (progress.machine.advance budget).map (progress.moved rest)
    | .choose, .choose label => (progress.machine.choose budget label).map (progress.moved rest)
    | _, _ => some (.error (.actionMismatch progress.eventIndex needed action.kind))

def report (boundaries : Nat) (progress : Progress) : Except Failure Report :=
  if progress.remaining = [] then
    .ok {
      observed :=
        progress.observed ++ if progress.machine.isStalled then [Observation.stalled] else []
      used := progress.used
      boundaries := boundaries
      phase := progress.machine.phase
      globals := progress.machine.stores.globals
      locals := progress.machine.stores.locals.toMap }
  else .error (.unusedActions progress.used (progress.used + progress.remaining.length))

def flagged (progress : Progress) : Except Failure Progress :=
  match applyFlags progress.machine progress.used progress.remaining with
  | .error error => .error (.story error)
  | .ok (machine, used, remaining) => .ok { progress with machine, used, remaining }

-- From the next boundary on, with `left` more boundaries allowed.
def finish (budget : Nat) : (left : Nat) → Progress → Option (Except Failure Report)
  | 0, _ => some (.error (.boundaryLimit boundaryLimit))
  | left + 1, progress =>
    match progress.flagged with
    | .error failure => some (.error failure)
    | .ok progress =>
      match progress.needed? with
      | none => some (progress.report (boundaryLimit - left))
      | some needed =>
        (progress.act budget needed).bind fun
          | .error failure => some (.error failure)
          | .ok progress => finish budget left progress

end Progress

def replay (budget : Nat) (scenario : Scenario) (text : String) :
    Option (Except Failure Report) :=
  (Progress.start budget scenario text).bind fun
    | .error failure => some (.error failure)
    | .ok progress => progress.finish budget boundaryLimit

-- The first place at which two lists of observations differ, counted from `index`.
def checkFrom (index : Nat) : (expected actual : List Observation) → Except Failure Unit
  | expected :: restExpected, actual :: restActual =>
    if expected = actual then checkFrom (index + 1) restExpected restActual
    else .error (.event index expected actual)
  | _, _ => .ok ()

def checkEvents (expected actual : List Observation) : Except Failure Unit :=
  if actual.length = expected.length then checkFrom 0 expected actual
  else .error (.eventCount expected.length actual)

def checkState (expected : Option Phase) (actual : Phase) : Except Failure Unit :=
  match expected with
  | none => .ok ()
  | some phase => if phase = actual then .ok () else .error (.state phase actual)

-- Every expected value has to be there; others may be there as well.
def checkValues (scope : VariableScope) (actual : ValueMap) :
    List (String × Value) → Except Failure Unit
  | [] => .ok ()
  | (key, value) :: rest =>
    if (actual.get? key).any value.agrees then checkValues scope actual rest
    else .error (.value scope key value (actual.get? key))

def check (scenario : Scenario) (report : Report) : Except Failure Unit := do
  checkEvents scenario.expectedEvents report.observed
  checkState scenario.expectedState report.phase
  checkValues .locals report.locals scenario.expectedVariables.toList
  checkValues .globals report.globals scenario.expectedGlobals.toList

end VisualNovel.Scenario
