import VisualNovel.Playback.Operation

namespace VisualNovel

inductive ConsoleError where
  | story (error : StoryError)
  | scriptNotFound (path : String)
  | scriptNotFile (path : String)
  | scriptUnreadable
  | valuesInvalid
  | stateNotFound (path : String)
  | stateUnreadable
  | stateInvalid
  | stateSchema (found : String)
  | stateUnwritable
  | inputUnreadable
deriving DecidableEq

namespace ConsoleError

def code : ConsoleError → String
  | .story error => error.code
  | .scriptNotFound _ => "CLI_SCRIPT_NOT_FOUND"
  | .scriptNotFile _ => "CLI_SCRIPT_NOT_FILE"
  | .scriptUnreadable => "CLI_SCRIPT_READ"
  | .valuesInvalid => "CLI_VALUES_INVALID"
  | .stateNotFound _ => "CLI_STATE_NOT_FOUND"
  | .stateUnreadable => "CLI_STATE_READ"
  | .stateInvalid => "CLI_STATE_INVALID"
  | .stateSchema _ => "CLI_STATE_SCHEMA"
  | .stateUnwritable => "CLI_STATE_WRITE"
  | .inputUnreadable => "CLI_IO"

def message : ConsoleError → String
  | .story error => error.message
  | .scriptNotFound path => "script does not exist: " ++ path
  | .scriptNotFile path => "script is not a file: " ++ path
  | .scriptUnreadable => "the file cannot be read as text"
  | .valuesInvalid => "the values are not a JSON object of values"
  | .stateNotFound path => "State file does not exist: " ++ path
  | .stateUnreadable => "the state file cannot be read as text"
  | .stateInvalid => "the state file does not hold a state"
  | .stateSchema found => "Unsupported state schema: " ++ found
  | .stateUnwritable => "the state file cannot be written"
  | .inputUnreadable => "the input is not text"

def lines (error : ConsoleError) : List String :=
  ["RESULT:ERROR", "ERROR_CODE:" ++ error.code,
    "ERROR_MSG_JSON:" ++ (Json.string error.message).write]

end ConsoleError

inductive BoundaryKind where
  | say
  | choice
  | ended
  | stalled
  | paused
deriving DecidableEq

namespace BoundaryKind

def name : BoundaryKind → String
  | .say => "SAY"
  | .choice => "CHOICE"
  | .ended => "END"
  | .stalled => "STALLED"
  | .paused => "PAUSED"

-- Only here a run can be taken up again later.
def isSuspended : BoundaryKind → Bool
  | .say => true
  | .choice => true
  | _ => false

def ofMachine (m : Machine) : BoundaryKind :=
  match m.phase with
  | .waiting => .say
  | .choice => .choice
  | .ended => .ended
  | .playing => if m.isStalled then .stalled else .paused
  | .idle => .paused

end BoundaryKind

structure Boundary where
  kind : BoundaryKind
  events : List Event
  options : List ChoiceOption
  fault : Option Fault
deriving DecidableEq

namespace Boundary

def optionsOf : Option Event → List ChoiceOption
  | some (.choice options) => options
  | _ => []

-- `signals` are those since the last boundary.
def collect (m : Machine) (signals : List Signal) : Boundary :=
  let fresh := storyEvents signals
  { kind := .ofMachine m
    events := if fresh = [] ∧ m.phase.isSuspended then m.currentBoundary?.toList else fresh
    options := optionsOf m.currentBoundary?
    fault := m.lastFault }

end Boundary

end VisualNovel
