import VisualNovel.Console.Storage

namespace VisualNovel

structure StartOptions where
  script : String
  globals : Option String
  locals : Option String
  startLabel : Option String
  seed : Option UInt32
  stateOut : String
deriving DecidableEq

inductive AgentCommand where
  | start (options : StartOptions)
  | advance (stateIn stateOut : String)
  | choose (stateIn label stateOut : String)
  | env (stateIn key : String) (value : Bool) (stateOut : String)
deriving DecidableEq

namespace Agent

structure Report where
  boundary : Boundary
  stateOut : Option String
deriving DecidableEq

def optionLine (option : ChoiceOption) : String :=
  "CHOICE:" ++ option.label ++ "|" ++ (Json.string option.display).write

def faultLine (fault : Fault) : String := "FAULT_JSON:" ++ (Json.string fault.describe).write

def Report.lines (report : Report) : List String :=
  ["RESULT:OK", "EVENT:" ++ report.boundary.kind.name] ++
    report.boundary.events.map (fun event => "EVENT_JSON:" ++ event.toJson.write) ++
    report.boundary.options.map optionLine ++
    report.boundary.fault.toList.map faultLine ++
    ["STATE_OUT:" ++ report.stateOut.getD "NONE"]

-- Values in JSON, given in place or, behind an `@`, by the path of a file.
def valuesOfText (text : String) : Except ConsoleError ValueMap :=
  match (Json.read? text).bind ValueMap.ofJson? with
  | some values => .ok values
  | none => .error .valuesInvalid

def valuesText (argument : String) : FileTask String :=
  match argument.toList with
  | '@' :: path => do
    match ← FileTask.look (String.ofList path) with
    | .text text => return text
    | _ => throw .scriptUnreadable
  | _ => return argument

def values : Option String → FileTask (Option ValueMap)
  | none => return none
  | some argument => do return some (← FileTask.ofExcept (valuesOfText (← valuesText argument)))

-- The end of every command. A run that is not parked leaves the file as it is.
def settle (scriptPath stateOut : String) (m : Machine) (signals : List Signal) :
    FileTask Report := do
  let boundary := Boundary.collect m signals
  if boundary.kind.isSuspended then
    let snapshot ← FileTask.ofStory m.snapshot
    SavedRun.save stateOut ⟨scriptPath, snapshot⟩
    return ⟨boundary, some stateOut⟩
  else return ⟨boundary, none⟩

def start (budget : Nat) (workingDirectory : String) (options : StartOptions) :
    FileTask (Option Report) := do
  let script ← LoadedScript.load workingDirectory options.script
  let globals ← values options.globals
  let locals ← values options.locals
  let setup : Setup := { Setup.standard with
    globals, locals, seed := options.seed, startLabel := options.startLabel }
  match setup.create budget script.text with
  | none => return none
  | some created =>
    let machine ← FileTask.ofStory created.result
    return some (← settle script.path options.stateOut machine created.signals)

-- The saved run with its script, on a machine that is parked where the run was.
def takeUp (workingDirectory stateIn : String) : FileTask (LoadedScript × Machine) := do
  let run ← SavedRun.load stateIn
  let script ← LoadedScript.load workingDirectory run.scriptPath
  let machine ← FileTask.ofStory (Setup.standard.resume script.text run.snapshot).result
  return (script, machine)

def move (workingDirectory stateIn stateOut : String) (change : Machine → Option (Reply Unit)) :
    FileTask (Option Report) := do
  let (script, machine) ← takeUp workingDirectory stateIn
  match change machine with
  | none => return none
  | some reply =>
    FileTask.ofStory reply.result
    return some (← settle script.path stateOut reply.machine reply.signals)

def run (budget : Nat) (workingDirectory : String) : AgentCommand → FileTask (Option Report)
  | .start options => start budget workingDirectory options
  | .advance stateIn stateOut => move workingDirectory stateIn stateOut (Machine.advance budget)
  | .choose stateIn label stateOut =>
    move workingDirectory stateIn stateOut fun m => m.choose budget label
  | .env stateIn key value stateOut =>
    move workingDirectory stateIn stateOut fun m => some (m.setEnvironment key value)

end Agent

end VisualNovel
