import VisualNovel.Playback.Event

namespace VisualNovel

namespace Scenario

inductive ActionKind where
  | advance
  | choose
  | env
deriving DecidableEq

def ActionKind.name : ActionKind → String
  | .advance => "advance"
  | .choose => "choose"
  | .env => "env"

-- Flags are set between two stops of the story and never move it on.
inductive Action where
  | advance
  | choose (label : String)
  | env (key : String) (value : Bool)
deriving DecidableEq

def Action.kind : Action → ActionKind
  | .advance => .advance
  | .choose _ => .choose
  | .env _ _ => .env

inductive Observation where
  | say (character text : String)
  | choice (displays : List String)
  | showSprite (sprite location : String)
  | removeSprite (sprite : String)
  | background (path : String)
  | autoSave (label : String)
  | stalled
  | ended
deriving DecidableEq

namespace Observation

def ofEvent? : Event → Option Observation
  | .say character text => some (.say character text)
  | .choice options => some (.choice (options.map ChoiceOption.display))
  | .showSprite finalLocation placement => some (.showSprite placement.sprite finalLocation)
  | .removeSprite sprite => some (.removeSprite sprite)
  | .background path => some (.background path)
  | .autoSave label => some (.autoSave label)
  | .finish => some .ended
  | .updateDebug _ _ _ => none

def ofSignals (signals : List Signal) : List Observation := (events signals).filterMap ofEvent?

def kindName : Observation → String
  | .say _ _ => "say"
  | .choice _ => "choice"
  | .showSprite _ _ => "showSprite"
  | .removeSprite _ => "removeSprite"
  | .background _ => "background"
  | .autoSave _ => "autoSave"
  | .stalled => "stalled"
  | .ended => "end"

def fields : Observation → List (String × Json)
  | .say character text => [("character", .string character), ("text", .string text)]
  | .choice displays => [("choices", .array (displays.map .string))]
  | .showSprite sprite location => [("sprite", .string sprite), ("location", .string location)]
  | .removeSprite sprite => [("sprite", .string sprite)]
  | .background path => [("path", .string path)]
  | .autoSave label => [("label", .string label)]
  | .stalled => []
  | .ended => []

def toJson (seen : Observation) : Json := .object (("kind", .string seen.kindName) :: seen.fields)

end Observation

end Scenario

-- Of the final variables and globals only those that are named have to agree.
structure Scenario where
  schemaVersion : String
  script : String
  randomSeed : Option UInt32
  globals : ValueMap
  locals : ValueMap
  environment : Environment
  startLabel : Option String
  actions : List Scenario.Action
  expectedEvents : List Scenario.Observation
  expectedState : Option Phase
  expectedVariables : ValueMap
  expectedGlobals : ValueMap
deriving DecidableEq

namespace Scenario

def schema : String := "vn-tool-case.v1"

-- Why a scenario cannot be read, played to its end, or does not come out as expected.
inductive Failure where
  | unreadable (path : String)
  | malformed (path : String)
  | schemaVersion (found : String)
  | noCases (root : String)
  | story (error : StoryError)
  | actionMissing (eventIndex : Nat) (needed : ActionKind)
  | actionMismatch (eventIndex : Nat) (needed actual : ActionKind)
  | unusedActions (used total : Nat)
  | boundaryLimit (limit : Nat)
  | eventCount (expected : Nat) (observed : List Observation)
  | event (index : Nat) (expected actual : Observation)
  | state (expected actual : Phase)
  | value (scope : VariableScope) (key : String) (expected : Value) (actual : Option Value)
deriving DecidableEq

namespace Failure

def storeName : VariableScope → String
  | .locals => "variable"
  | .globals => "global"

def message : Failure → String
  | .unreadable path => "Failed to read file " ++ path ++ "."
  | .malformed path => "Failed to parse testcase " ++ path ++ "."
  | .schemaVersion found =>
    "Invalid testcase schema version \"" ++ found ++ "\", expected \"" ++ schema ++ "\"."
  | .noCases root => "No testcase.json files under " ++ root ++ "."
  | .story error => "Engine error: " ++ error.code ++ ": " ++ error.message
  | .actionMissing eventIndex needed =>
    "Action missing at event index " ++ toString eventIndex ++ ": expected " ++ needed.name ++ "."
  | .actionMismatch eventIndex needed actual =>
    "Action kind mismatch at event index " ++ toString eventIndex ++ ": expected " ++ needed.name ++
      ", got " ++ actual.name ++ "."
  | .unusedActions used total =>
    "Unused actions: used " ++ toString used ++ " of " ++ toString total ++ "."
  | .boundaryLimit limit => "Guard exceeded: max_boundaries=" ++ toString limit ++ "."
  | .eventCount expected observed =>
    "Expected event count " ++ toString expected ++ ", actual " ++ toString observed.length ++
      ". observed=" ++ (Json.array (observed.map Observation.toJson)).writeIndented
  | .event index expected actual =>
    "Event mismatch at index " ++ toString index ++ ". expected=" ++ expected.toJson.write ++
      " actual=" ++ actual.toJson.write
  | .state expected actual =>
    "Expected final state " ++ expected.name ++ ", actual " ++ actual.name ++ "."
  | .value scope key expected actual =>
    "Final " ++ storeName scope ++ " \"" ++ key ++ "\" mismatch. expected=" ++
      expected.toJson.write ++ " actual=" ++ (Json.ofOption Value.toJson actual).write

end Failure

end Scenario

end VisualNovel
