import VisualNovel.Console.Agent
import VisualNovel.Console.Player

namespace VisualNovel

inductive Request where
  | agent (command : AgentCommand)
  | play (options : PlayOptions)
deriving DecidableEq

inductive NoRequest where
  | help
  | misuse
deriving DecidableEq

namespace Arguments

abbrev Reading := Except NoRequest

structure OptionName where
  name : String
  accepts : String → Bool

abbrev Given := List (String × String)

def anyText (name : String) : OptionName := ⟨name, fun _ => true⟩

def signedNatural? : List Char → Option Nat
  | '-' :: digits => if digits ≠ [] && digits.all (· = '0') then some 0 else none
  | digits => naturalOf? digits

def seed? (text : String) : Option UInt32 :=
  ((signedNatural? text.toList).filter (· < 2 ^ 32)).map Nat.toUInt32

def take (known : List OptionName) (given : Given) (name value : String) : Reading Given :=
  match known.find? fun option => option.name = name with
  | none => throw .misuse
  | some option =>
    if (Bindings.find? name given).isSome || !option.accepts value then throw .misuse
    else return given ++ [(name, value)]

def isHelpLetter : List Char → Bool
  | '-' :: 'h' :: _ => true
  | _ => false

def isPlain (word : String) : Bool := word = "-" || word.toList.head? ≠ some '-'

-- The name of an option, with the value behind `=`.
def splitOption (chars : List Char) : String × Option String :=
  let name := chars.takeWhile (· ≠ '=')
  match chars.drop name.length with
  | [] => (String.ofList name, none)
  | _ :: value => (String.ofList name, some (String.ofList value))

def readOptions (known : List OptionName) (given : Given) : List String → Reading Given
  | [] => return given
  | ["--"] => return given
  | word :: rest =>
    match word.toList with
    | '-' :: '-' :: chars =>
      match splitOption chars, rest with
      | ("help", none), _ => throw .help
      | (name, some value), rest => do readOptions known (← take known given name value) rest
      | (name, none), value :: rest =>
        if isPlain value then do readOptions known (← take known given name value) rest
        else throw .misuse
      | (_, none), [] => throw .misuse
    | chars => if isHelpLetter chars then throw .help else throw .misuse

def need (given : Given) (name : String) : Reading String :=
  match Bindings.find? name given with
  | some value => return value
  | none => throw .misuse

def startOptions (words : List String) : Reading StartOptions := do
  let given ← readOptions
    [anyText "script", anyText "globals", anyText "variables", anyText "start-label",
      ⟨"seed", fun text => (seed? text).isSome⟩, anyText "state-out"] [] words
  return {
    script := ← need given "script"
    globals := Bindings.find? "globals" given
    locals := Bindings.find? "variables" given
    startLabel := Bindings.find? "start-label" given
    seed := (Bindings.find? "seed" given).bind seed?
    stateOut := ← need given "state-out" }

def advanceCommand (words : List String) : Reading AgentCommand := do
  let given ← readOptions [anyText "state-in", anyText "state-out"] [] words
  return .advance (← need given "state-in") (← need given "state-out")

def chooseCommand (words : List String) : Reading AgentCommand := do
  let given ← readOptions [anyText "state-in", anyText "label", anyText "state-out"] [] words
  return .choose (← need given "state-in") (← need given "label") (← need given "state-out")

def envCommand (words : List String) : Reading AgentCommand := do
  let given ← readOptions
    [anyText "state-in", anyText "key",
      ⟨"value", fun text => (PlayCommand.flag? text).isSome⟩, anyText "state-out"] [] words
  let value := (PlayCommand.flag? (← need given "value")).getD false
  return .env (← need given "state-in") (← need given "key") value (← need given "state-out")

def playOptions (words : List String) : Reading PlayOptions := do
  let given ← readOptions [anyText "script", anyText "save-file", anyText "start-label"] [] words
  return ⟨← need given "script", Bindings.find? "save-file" given,
    Bindings.find? "start-label" given⟩

-- Help on help is help, but help on nothing that exists is not.
def agentHelp : List String → NoRequest
  | [] => .help
  | [word] =>
    if word ∈ ["start", "advance", "choose", "env", "help"] then .help else .misuse
  | _ => .misuse

def rootHelp : List String → NoRequest
  | [] => .help
  | "agent" :: rest => agentHelp rest
  | [word] => if word ∈ ["play", "help"] then .help else .misuse
  | _ => .misuse

-- Neither a command nor a request for help, unless the word is one.
def noCommand (word : String) : NoRequest :=
  if word = "--help" || isHelpLetter word.toList then .help else .misuse

def agentCommand : List String → Reading AgentCommand
  | "start" :: rest => AgentCommand.start <$> startOptions rest
  | "advance" :: rest => advanceCommand rest
  | "choose" :: rest => chooseCommand rest
  | "env" :: rest => envCommand rest
  | "help" :: rest => throw (agentHelp rest)
  | word :: _ => throw (noCommand word)
  | [] => throw .misuse

def request : List String → Reading Request
  | "agent" :: rest => Request.agent <$> agentCommand rest
  | "play" :: rest => Request.play <$> playOptions rest
  | "help" :: rest => throw (rootHelp rest)
  | word :: _ => throw (noCommand word)
  | [] => throw .misuse

end Arguments

namespace Console

structure Output where
  code : Nat
  text : String
deriving DecidableEq

def text (lines : List String) : String := String.join (lines.map Shown.line)

def refused : NoRequest → Output
  | .help => ⟨0, ""⟩
  | .misuse => ⟨2, ""⟩

def agentOutput : Except ConsoleError (Option Agent.Report) → Option Output
  | .error error => some ⟨1, text error.lines⟩
  | .ok none => none
  | .ok (some report) => some ⟨0, text report.lines⟩

def playOutput (transcript : Transcript) : Output :=
  ⟨transcript.code, String.join (transcript.shown.map Shown.text)⟩

def runRequest (budget : Nat) (workingDirectory : String) (input : List InputLine) :
    Request → FileProgram (Option Output)
  | .agent command => do
    return agentOutput (← (Agent.run budget workingDirectory command).run)
  | .play options => do
    return (← play budget workingDirectory options input).map playOutput

def run (budget : Nat) (workingDirectory : String) (words : List String)
    (input : List InputLine) : FileProgram (Option Output) :=
  match Arguments.request words with
  | .error reason => return some (refused reason)
  | .ok request => runRequest budget workingDirectory input request

end Console

end VisualNovel
