import VisualNovel.Store
import VisualNovel.Script.Source

namespace VisualNovel

inductive Phase where
  | idle
  | playing
  | waiting
  | choice
  | ended
deriving DecidableEq

namespace Phase

def name : Phase → String
  | .idle => "IDLE"
  | .playing => "PLAYING"
  | .waiting => "WAITING"
  | .choice => "CHOICE"
  | .ended => "ENDED"

def all : List Phase := [.idle, .playing, .waiting, .choice, .ended]

def ofName? (name : String) : Option Phase := all.find? fun phase => phase.name = name

def isSuspended : Phase → Bool
  | .waiting => true
  | .choice => true
  | _ => false

end Phase

inductive Event where
  | say (character text : String)
  | choice (options : List ChoiceOption)
  | showSprite (finalLocation : String) (placement : Placement)
  | removeSprite (sprite : String)
  | background (path : String)
  | autoSave (label : String)
  | finish
  | updateDebug (globals locals : ValueMap) (phase : Phase)
deriving DecidableEq

-- Debug events show the stores; all others are part of the story.
def Event.isDebug : Event → Bool
  | .updateDebug _ _ _ => true
  | _ => false

def ChoiceOption.toJson (option : ChoiceOption) : Json :=
  .object [("display", .string option.display), ("label", .string option.label)]

def Event.toJson : Event → Json
  | .say character text =>
    .object [("kind", .string "say"), ("character", .string character), ("text", .string text)]
  | .choice options =>
    .object [("kind", .string "choice"), ("choices", .array (options.map ChoiceOption.toJson))]
  | .showSprite finalLocation placement =>
    .object [("kind", .string "showSprite"), ("finalLocation", .string finalLocation),
      ("placement", placement.toJson)]
  | .removeSprite sprite => .object [("kind", .string "removeSprite"), ("sprite", .string sprite)]
  | .background path => .object [("kind", .string "background"), ("path", .string path)]
  | .autoSave label => .object [("kind", .string "autoSave"), ("label", .string label)]
  | .finish => .object [("kind", .string "finish")]
  | .updateDebug globals locals phase =>
    .object [("kind", .string "updateDebug"), ("globals", globals.toJson),
      ("variables", locals.toJson), ("state", .string phase.name)]

-- The last thing that went wrong, as the machine remembers it.
inductive Fault where
  | unresolvedLabel (label : String)
  | unresolvedStepId (id : StepId)
  | unknownStepType (stepId : Option StepId) (typeName : String)
  | conditionFailureWithoutFallback (stepId : Option StepId)
  | unknownEnvironmentKey (key : String)
  | guardExceeded (limit : Nat)
deriving DecidableEq

-- After a jump without target nothing is left to do.
def Fault.stalls : Fault → Bool
  | .unresolvedLabel _ => true
  | .unresolvedStepId _ => true
  | _ => false

def StepId.describe : StepId → String
  | .number n => "Number(" ++ (StepId.number n).show ++ ")"
  | .text s => "Text(" ++ Text.quoted s ++ ")"

def StepId.describeOption : Option StepId → String
  | none => "None"
  | some id => "Some(" ++ id.describe ++ ")"

def Fault.record (name : String) (fields : List (String × String)) : String :=
  name ++ " \x7b " ++
    ", ".intercalate (fields.map fun field => field.1 ++ ": " ++ field.2) ++ " \x7d"

def Fault.describe : Fault → String
  | .unresolvedLabel label => record "UnresolvedLabel" [("label", Text.quoted label)]
  | .unresolvedStepId id => record "UnresolvedStepId" [("id", id.describe)]
  | .unknownStepType stepId typeName =>
    record "UnknownStepType"
      [("step_id", StepId.describeOption stepId), ("type_name", Text.quoted typeName)]
  | .conditionFailureWithoutFallback stepId =>
    record "ConditionFailureWithoutFallback" [("step_id", StepId.describeOption stepId)]
  | .unknownEnvironmentKey key => record "UnknownEnvironmentKey" [("key", Text.quoted key)]
  | .guardExceeded limit => record "GuardExceeded" [("limit", toString limit)]

inductive Level where
  | warn
  | error
deriving DecidableEq

def Level.name : Level → String
  | .warn => "WARN"
  | .error => "ERROR"

inductive Record where
  | labelNotFound (label : String)
  | stepIdNotFound (id : StepId)
  | unknownSkipped (id : Option StepId) (typeName reason : String)
  | noFallback (id : Option StepId)
  | guardExceeded (limit cursor : Nat)
  | environmentKeyRejected (key : String)
  | startIgnored
  | creationWithoutAction (key : String)
  | mutationFailed (scope : VariableScope) (key : String) (failure : MutationFailure)
  | refused (notice : Notice)
deriving DecidableEq

namespace Record

def level : Record → Level
  | .environmentKeyRejected _ => .warn
  | .startIgnored => .warn
  | .creationWithoutAction _ => .warn
  | .refused _ => .warn
  | .labelNotFound _ => .error
  | .stepIdNotFound _ => .error
  | .unknownSkipped _ _ _ => .error
  | .noFallback _ => .error
  | .guardExceeded _ _ => .error
  | .mutationFailed _ _ _ => .error

def message : Record → String
  | .labelNotFound _ => "critical: label not found"
  | .stepIdNotFound _ => "critical: step id not found"
  | .unknownSkipped _ _ _ => "unknown instruction skipped"
  | .noFallback _ => "condition failed but no end id provided"
  | .guardExceeded _ _ => "step guard exceeded, pausing"
  | .environmentKeyRejected _ => "unknown environment key rejected"
  | .startIgnored => "start ignored: script already ended"
  | .creationWithoutAction _ => "meta step without known action"
  | .mutationFailed _ _ _ => "variable modification failed"
  | .refused (.autosaveNotText _) => "autosave label must be a string, ignored"
  | .refused (.unlockedEntryNotText _) => "unlocked dialogue entry must be a string, ignored"
  | .refused (.unlockedNotList _) => "unlocked dialogues must be an array, ignored"

def idText : Option StepId → String
  | none => "-"
  | some id => id.show

def fields : Record → List (String × String)
  | .labelNotFound label => [("category", "flow"), ("label", label)]
  | .stepIdNotFound id => [("category", "flow"), ("id", id.show)]
  | .unknownSkipped id typeName reason =>
    [("category", "step"), ("id", idText id), ("step_type", typeName), ("reason", reason)]
  | .noFallback id => [("category", "cond"), ("id", idText id)]
  | .guardExceeded limit cursor =>
    [("category", "flow"), ("limit", toString limit), ("cursor", toString cursor)]
  | .environmentKeyRejected key => [("category", "flow"), ("key", key)]
  | .startIgnored => [("category", "flow")]
  | .creationWithoutAction key => [("category", "var"), ("key", key)]
  | .mutationFailed scope key failure =>
    [("category", "var"), ("scope", scope.name), ("key", key), ("reason", failure.message)]
  | .refused (.autosaveNotText found) => [("category", "var"), ("value_type", found)]
  | .refused (.unlockedEntryNotText found) => [("category", "var"), ("value_type", found)]
  | .refused (.unlockedNotList found) => [("category", "var"), ("value_type", found)]

end Record

-- Events and records share one order, that of their emission.
inductive Signal where
  | event (event : Event)
  | record (record : Record)
deriving DecidableEq

namespace Signal

def event? : Signal → Option Event
  | .event e => some e
  | .record _ => none

def record? : Signal → Option Record
  | .event _ => none
  | .record r => some r

def story? : Signal → Option Event
  | .event e => if e.isDebug then none else some e
  | .record _ => none

end Signal

def events (signals : List Signal) : List Event := signals.filterMap Signal.event?

def storyEvents (signals : List Signal) : List Event := signals.filterMap Signal.story?

def records (signals : List Signal) : List Record := signals.filterMap Signal.record?

inductive StoryError where
  | script (error : ScriptError)
  | unknownEnvironmentKey (key : String)
  | guardExceeded (limit : Nat)
  | notSuspended (phase : Phase)
  | snapshotSchema (found : String)
  | snapshotCursor (cursor : Nat) (phase : Phase)
deriving DecidableEq

namespace StoryError

def code : StoryError → String
  | .script error => error.code
  | .unknownEnvironmentKey _ => "ENGINE_UNKNOWN_ENVIRONMENT_KEY"
  | .guardExceeded _ => "ENGINE_GUARD_EXCEEDED"
  | .notSuspended _ => "ENGINE_NOT_SUSPENDED"
  | .snapshotSchema _ => "SNAPSHOT_SCHEMA"
  | .snapshotCursor _ _ => "SNAPSHOT_CURSOR"

def message : StoryError → String
  | .script error => error.message
  | .unknownEnvironmentKey key => "Environment key \"" ++ key ++ "\" is not defined."
  | .guardExceeded limit =>
    "Execution guard exceeded " ++ toString limit ++ " steps without suspension."
  | .notSuspended phase =>
    "snapshot() is only allowed while waiting for advance or a choice, state is " ++ phase.name ++
      "."
  | .snapshotSchema found => "Unsupported snapshot schema \"" ++ found ++ "\"."
  | .snapshotCursor cursor phase =>
    "Snapshot cursor " ++ toString cursor ++ " in state " ++ phase.name ++
      " does not point at a matching step."

def stepId? : StoryError → Option StepId
  | .script error => error.stepId?
  | _ => none

end StoryError

end VisualNovel
