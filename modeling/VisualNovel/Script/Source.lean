import VisualNovel.Script.Decode
import VisualNovel.Json.Reader

namespace VisualNovel

inductive ScriptError where
  | notJson
  | noStepList
  | notAList (found : String)
  | notAnObject (index : Nat) (found : String)
  | unsupported (index : Nat) (id : Option StepId) (typeName reason : String)
deriving DecidableEq

namespace ScriptError

def code : ScriptError → String
  | .notJson => "API_SCRIPT_JSON"
  | .unsupported _ _ _ _ => "API_SCRIPT_UNKNOWN_STEP"
  | .noStepList => "API_SCRIPT_SHAPE"
  | .notAList _ => "API_SCRIPT_SHAPE"
  | .notAnObject _ _ => "API_SCRIPT_SHAPE"

def message : ScriptError → String
  | .notJson => "Script is not valid JSON."
  | .noStepList => "Script object must carry a \"steps\" array."
  | .notAList found => "Script must be an array of steps, got " ++ found ++ "."
  | .notAnObject index found =>
    "Step at index " ++ toString index ++ " must be an object, got " ++ found ++ "."
  | .unsupported index _ typeName reason =>
    "Step at index " ++ toString index ++ " has unsupported type \"" ++ typeName ++ "\": " ++ reason

def stepId? : ScriptError → Option StepId
  | .unsupported _ id _ _ => id
  | _ => none

end ScriptError

namespace Script

def ofItems (index : Nat) : List Json → Except ScriptError Script
  | [] => .ok []
  | .object members :: rest =>
    match ofItems (index + 1) rest with
    | .ok steps => .ok (Step.ofJson (.object members) :: steps)
    | .error error => .error error
  | item :: _ => .error (.notAnObject index item.typeName)

def ofJson : Json → Except ScriptError Script
  | .array items => ofItems 0 items
  | .object members =>
    match (Dict.ofList members).get? "steps" with
    | some (.array items) => ofItems 0 items
    | _ => .error .noStepList
  | value => .error (.notAList value.typeName)

def parse (text : String) : Except ScriptError Script :=
  match Json.readCanonical? text with
  | some value => ofJson value
  | none => .error .notJson

-- Without the check on the items: any list is a script.
def ofArray? : Json → Option Script
  | .array items => some (items.map Step.ofJson)
  | _ => none

def unknownFrom? (index : Nat) : Script → Option ScriptError
  | [] => none
  | step :: rest =>
    match step.kind with
    | .unknown typeName reason => some (.unsupported index step.id typeName reason)
    | _ => unknownFrom? (index + 1) rest

-- The complaint about the first step that is not known.
def firstUnknown? (script : Script) : Option ScriptError := script.unknownFrom? 0

end Script

end VisualNovel
