import VisualNovel.Json.Selective
import VisualNovel.Scenario.Replay
import VisualNovel.Files

namespace VisualNovel

namespace Scenario

def requiredText (field : String → Option Json) (name : String) : Option String :=
  (field name).bind Json.string?

def actionOfFields? (kind : String) (value : Json) : Option Action :=
  match kind with
  | "advance" => (value.fieldsOf? []).map fun _ => .advance
  | "choose" => do
    let field ← value.fieldsOf? ["label"]
    return .choose (← requiredText field "label")
  | "env" => do
    let field ← value.fieldsOf? ["key", "value"]
    return .env (← requiredText field "key") (← (field "value").bind Json.bool?)
  | _ => none

def actionOfJson? (value : Json) : Option Action := do
  let (kind, rest) ← value.tagged? "kind"
  actionOfFields? kind rest

def observationOfFields? (kind : String) (value : Json) : Option Observation :=
  match kind with
  | "say" => do
    let field ← value.fieldsOf? ["character", "text"]
    return .say (← requiredText field "character") (← requiredText field "text")
  | "choice" => do
    let field ← value.fieldsOf? ["choices"]
    return .choice (← (field "choices").bind (Json.listOf? Json.string?))
  | "showSprite" => do
    let field ← value.fieldsOf? ["sprite", "location"]
    return .showSprite (← requiredText field "sprite") (← requiredText field "location")
  | "removeSprite" => do
    let field ← value.fieldsOf? ["sprite"]
    return .removeSprite (← requiredText field "sprite")
  | "background" => do
    let field ← value.fieldsOf? ["path"]
    return .background (← requiredText field "path")
  | "autoSave" => do
    let field ← value.fieldsOf? ["label"]
    return .autoSave (← requiredText field "label")
  | "stalled" => (value.fieldsOf? []).map fun _ => .stalled
  | "end" => (value.fieldsOf? []).map fun _ => .ended
  | _ => none

def observationOfJson? (value : Json) : Option Observation := do
  let (kind, rest) ← value.tagged? "kind"
  observationOfFields? kind rest

def memberNames : List String :=
  ["schemaVersion", "script", "randomSeed", "globals", "variables", "environment", "startLabel",
    "actions", "expectedEvents", "expectedState", "expectedVariables", "expectedGlobals"]

def seedLimit : Nat := 2 ^ 32

def standardScript : String := "script.json"

def ofFields? (field : String → Option Json) : Option Scenario := do
  let schemaVersion ← requiredText field "schemaVersion"
  let script ← Json.defaulted Json.string? standardScript (field "script")
  let randomSeed ← Json.optional (Json.nat? seedLimit) (field "randomSeed")
  let globals ← Json.defaulted ValueMap.ofJson? .empty (field "globals")
  let locals ← Json.defaulted ValueMap.ofJson? .empty (field "variables")
  let environment ← Json.defaulted Environment.ofJson? .empty (field "environment")
  let startLabel ← Json.optional Json.string? (field "startLabel")
  let actions ← Json.defaulted (Json.listOf? actionOfJson?) [] (field "actions")
  let expectedEvents ←
    Json.defaulted (Json.listOf? observationOfJson?) [] (field "expectedEvents")
  let expectedState ← Json.optional Snapshot.phaseOfJson? (field "expectedState")
  let expectedVariables ← Json.defaulted ValueMap.ofJson? .empty (field "expectedVariables")
  let expectedGlobals ← Json.defaulted ValueMap.ofJson? .empty (field "expectedGlobals")
  return {
    schemaVersion, script, randomSeed := randomSeed.map Nat.toUInt32, globals, locals
    environment, startLabel, actions, expectedEvents, expectedState, expectedVariables
    expectedGlobals }

def ofJson? (value : Json) : Option Scenario := (value.fieldsOf? memberNames).bind ofFields?

def parse? (text : String) : Option Scenario :=
  (Json.readFor? (.ofNames memberNames) text).bind ofJson?

def fileName : String := "testcase.json"

def readText (path : String) : FileProgram (Except Failure String) :=
  .look path fun
    | .text text => .done (.ok text)
    | _ => .done (.error (.unreadable path))

def readScript (directory name : String) : FileProgram (Except Failure String) :=
  readText (Path.join directory name)

-- A scenario whose schema version is another one is refused after it has been understood.
def ofText (path text : String) : Except Failure Scenario :=
  match parse? text with
  | none => .error (.malformed path)
  | some scenario =>
    if scenario.schemaVersion = schema then .ok scenario
    else .error (.schemaVersion scenario.schemaVersion)

def load (path : String) : FileProgram (Except Failure Scenario) := do
  match ← readText path with
  | .error failure => return .error failure
  | .ok text => return ofText path text

def replayIn (budget : Nat) (directory : String) (scenario : Scenario) :
    FileProgram (Option (Except Failure Report)) := do
  match ← readScript directory scenario.script with
  | .error failure => return some (.error failure)
  | .ok text => return scenario.replay budget text

def checked (scenario : Scenario) : Except Failure Report → Except Failure Unit
  | .error failure => .error failure
  | .ok report => scenario.check report

def checkFile (budget : Nat) (directory path : String) :
    FileProgram (Option (Except Failure Unit)) := do
  match ← load path with
  | .error failure => return some (.error failure)
  | .ok scenario => return (← scenario.replayIn budget directory).map scenario.checked

def placeBefore : Place → Place → Bool
  | [], _ => true
  | _ :: _, [] => false
  | a :: as, b :: bs => if a = b then placeBefore as bs else a < b

def pathOf (root : String) (place : Place) : String := place.foldl Path.join root

-- The directory of a scenario has to be asked for what it holds.
def isCase (root : String) : Place × Content → Bool
  | (place, _) =>
    place.getLast?.getD (Path.lastName root) = fileName &&
      Path.isAllowed (pathOf root place.dropLast)

-- Places of scenarios relative to the root, which may be such a file itself.
def placesUnder (root : String) (tree : FileTree) : List Place :=
  ((tree.files.filter (isCase root)).map Prod.fst).mergeSort placeBefore

def discover (disk : Disk) (root : String) : Except Failure (List String) :=
  let found := (disk.locate root).bind fun place => disk.tree.get? place
  match (found.map (placesUnder root)).getD [] with
  | [] => .error (.noCases root)
  | places => .ok (places.map (pathOf root))

end Scenario

end VisualNovel
