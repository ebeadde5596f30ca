import VisualNovel.Console.Storage

namespace VisualNovel

inductive InputLine where
  | text (s : String)
  | notText
deriving DecidableEq

namespace InputLine

-- A line ends behind its line feed; the last may lack one. `line` is what has been read, backwards.
def cut (line : List UInt8) : List UInt8 → List (List UInt8)
  | [] => if line = [] then [] else [line.reverse]
  | byte :: rest =>
    if byte = 10 then (byte :: line).reverse :: cut [] rest else cut (byte :: line) rest

def ofBytes (bytes : List UInt8) : InputLine :=
  match String.fromUTF8? ⟨bytes.toArray⟩ with
  | some s => .text s
  | none => .notText

def all (bytes : List UInt8) : List InputLine := (cut [] bytes).map ofBytes

end InputLine

structure PlayOptions where
  script : String
  saveFile : Option String
  startLabel : Option String
deriving DecidableEq

inductive PlayCommand where
  | help
  | save
  | load
  | restart
  | env (key : Option String) (value : Option Bool)
  | stores
  | quit
deriving DecidableEq

namespace PlayCommand

def flag? : String → Option Bool
  | "true" => some true
  | "false" => some false
  | _ => none

-- Words behind those that a command needs do not matter.
def ofWords? : List String → Option PlayCommand
  | ":help" :: _ => some .help
  | ":save" :: _ => some .save
  | ":load" :: _ => some .load
  | ":restart" :: _ => some .restart
  | ":env" :: rest => some (.env rest[0]? (rest[1]?.bind flag?))
  | ":vars" :: _ => some .stores
  | ":quit" :: _ => some .quit
  | _ => none

end PlayCommand

inductive Shown where
  | title (title : String)
  | help
  | event (event : Event)
  | stalled (fault : Option Fault)
  | ending
  | prompt
  | saved (path : String)
  | loaded (path : String)
  | restarted
  | flagSet (key : String) (value : Bool)
  | flagRefused (error : StoryError)
  | flagUsage
  | stores (environment : Environment) (globals locals : ValueMap)
  | goodbye
  | unknownChoice (line : String)
  | stuck
  | failure (error : ConsoleError)
deriving DecidableEq

namespace Shown

def line (text : String) : String := text ++ "\n"

def helpText : String :=
  "commands: :help :save :load :restart :env KEY true|false :vars :quit"

def optionLines (number : Nat) : List ChoiceOption → String
  | [] => ""
  | option :: rest =>
    line ("  [" ++ toString number ++ "] " ++ option.display) ++ optionLines (number + 1) rest

def eventText : Event → String
  | .say character text =>
    line "" ++ line (if character = "" then text else character ++ ": " ++ text)
  | .choice options => line "" ++ optionLines 1 options
  | .showSprite finalLocation placement =>
    line ("[show " ++ placement.sprite ++ " @ " ++ finalLocation ++ "]")
  | .removeSprite sprite => line ("[hide " ++ sprite ++ "]")
  | .background path => line ("[background " ++ path ++ "]")
  | .autoSave label => line ("[autosave " ++ label ++ "]")
  | .finish => ""
  | .updateDebug _ _ _ => ""

def flagWord (value : Bool) : String := if value then "true" else "false"

def faultText : Option Fault → String
  | none => "unknown"
  | some fault => fault.describe

def text : Shown → String
  | .title name => line ("VN player: " ++ name)
  | .help => line helpText
  | .event seen => eventText seen
  | .stalled fault => line ("[STALLED] " ++ faultText fault)
  | .ending => line "[END]"
  | .prompt => "> "
  | .saved path => line ("saved: " ++ path)
  | .loaded path => line ("loaded: " ++ path)
  | .restarted => line "restarted"
  | .flagSet key value => line ("env " ++ key ++ "=" ++ flagWord value)
  | .flagRefused error => line ("error: " ++ error.code ++ ": " ++ error.message)
  | .flagUsage => line "usage: :env KEY true|false"
  | .stores environment globals locals =>
    line ("environment: " ++ environment.toJson.write) ++
      line ("globals: " ++ globals.toJson.write) ++
      line ("variables: " ++ locals.toJson.write)
  | .goodbye => line "bye"
  | .unknownChoice typed => line ("unknown choice: " ++ typed)
  | .stuck => line "the story cannot continue; try :restart or :load"
  | .failure error => String.join (error.lines.map line)

end Shown

-- A number in decimal digits, a plus before them allowed.
def naturalOf? (text : List Char) : Option Nat :=
  let digits := match text with
    | '+' :: rest => rest
    | _ => text
  if digits ≠ [] && digits.all Char.isDigit then some (Nat.ofDigitChars 10 digits 0) else none

def countLimit : Nat := 2 ^ 64

-- A number picks the option at its place, counted from one; any other text picks by label.
def resolveChoice (typed : String) (options : List ChoiceOption) : Option String :=
  match (naturalOf? typed.toList).filter (· < countLimit) with
  | some 0 => none
  | some (index + 1) => options[index]?.map ChoiceOption.label
  | none => (options.find? fun option => option.label = typed).map ChoiceOption.label

structure Player where
  script : LoadedScript
  saveFile : String
  startLabel : Option String
  machine : Machine
  boundary : Boundary

-- Where a turn leads: to the next line, or out with a code.
inductive Next where
  | ready (player : Player)
  | finished (code : Nat)

structure Turn where
  shown : List Shown
  signals : List Signal
  next : Next

namespace Player

def standardSaveFile : String := ".vn/save.json"

def render (boundary : Boundary) : List Shown :=
  boundary.events.map .event ++
    if boundary.kind = .stalled then [.stalled boundary.fault] else []

-- To the next stop of the story, reached under these signals.
def refresh (player : Player) (before : List Shown) (m : Machine) (signals : List Signal) : Turn :=
  let boundary := Boundary.collect m signals
  if boundary.kind = .ended then
    ⟨before ++ render boundary ++ [.ending], signals, .finished 0⟩
  else
    ⟨before ++ render boundary ++ [.prompt], signals, .ready { player with machine := m, boundary }⟩

-- The same stop once more, without showing it again.
def stay (player : Player) (shown : List Shown) (signals : List Signal) : Turn :=
  ⟨shown ++ [.prompt], signals, .ready player⟩

def fail (shown : List Shown) (signals : List Signal) (error : ConsoleError) : Turn :=
  ⟨shown ++ [.failure error], signals, .finished 1⟩

def renew (budget : Nat) (player : Player) (setup : Setup) (shown : List Shown) : Option Turn :=
  (setup.create budget player.script.text).map fun created =>
    match created.result with
    | .ok machine => player.refresh shown machine created.signals
    | .error error => fail [] created.signals (.story error)

def moved (player : Player) (reply : Reply Unit) : Turn :=
  match reply.result with
  | .ok () => player.refresh [] reply.machine reply.signals
  | .error error => fail [] reply.signals (.story error)

def setFlag (player : Player) (key : String) (value : Bool) : Turn :=
  let reply := player.machine.setEnvironment key value
  let shown : Shown := match reply.result with
    | .ok () => .flagSet key value
    | .error error => .flagRefused error
  { player with machine := reply.machine }.stay [shown] reply.signals

def keep (player : Player) : FileProgram Turn := do
  let stores : SavedStores := ⟨player.machine.stores.globals, player.machine.stores.locals.toMap⟩
  match ← (SavedStores.save player.saveFile stores).run with
  | .ok () => return player.stay [.saved player.saveFile] []
  | .error error => return fail [] [] error

def takeBack (budget : Nat) (player : Player) : FileProgram (Option Turn) := do
  match ← (SavedStores.load player.saveFile).run with
  | .error error => return some (fail [] [] error)
  | .ok stores =>
    let setup : Setup := { Setup.standard with
      globals := some stores.globals, locals := some stores.locals }
    return player.renew budget setup [.loaded player.saveFile]

def restart (budget : Nat) (player : Player) : Option Turn :=
  let setup : Setup := { Setup.standard with
    globals := some player.machine.stores.globals, startLabel := player.startLabel }
  player.renew budget setup [.restarted]

def showStores (player : Player) : Turn :=
  let stores := player.machine.stores
  player.stay [.stores stores.environment stores.globals stores.locals.toMap] []

def obey (budget : Nat) (player : Player) : PlayCommand → FileProgram (Option Turn)
  | .help => return some (player.stay [.help] [])
  | .save => do return some (← player.keep)
  | .load => player.takeBack budget
  | .restart => return player.restart budget
  | .env (some key) (some value) => return some (player.setFlag key value)
  | .env _ _ => return some (player.stay [.flagUsage] [])
  | .stores => return some player.showStores
  | .quit => return some ⟨[.goodbye], [], .finished 0⟩

-- A line that is no command moves the story on, as far as its stop allows.
def continueWith (budget : Nat) (player : Player) (typed : String) : Option Turn :=
  match player.boundary.kind with
  | .say => (player.machine.advance budget).map player.moved
  | .choice =>
    match resolveChoice typed player.boundary.options with
    | some label => (player.machine.choose budget label).map player.moved
    | none => some (player.stay [.unknownChoice typed] [])
  | _ => some (player.stay [.stuck] [])

def feed (budget : Nat) (player : Player) : InputLine → FileProgram (Option Turn)
  | .notText => return some (fail [] [] .inputUnreadable)
  | .text line =>
    match PlayCommand.ofWords? (Text.words line) with
    | some command => player.obey budget command
    | none => return player.continueWith budget (Text.trim line)

def start (budget : Nat) (options : PlayOptions) (script : LoadedScript) : Option Turn :=
  let greeting : List Shown := [.title script.title, .help]
  let setup : Setup := { Setup.standard with startLabel := options.startLabel }
  (setup.create budget script.text).map fun created =>
    match created.result with
    | .error error => fail greeting created.signals (.story error)
    | .ok machine =>
      let player : Player :=
        ⟨script, options.saveFile.getD standardSaveFile, options.startLabel, machine,
          .collect machine []⟩
      player.refresh greeting machine created.signals

def begin (budget : Nat) (workingDirectory : String) (options : PlayOptions) :
    FileProgram (Option Turn) := do
  match ← (LoadedScript.load workingDirectory options.script).run with
  | .error error => return some (fail [] [] error)
  | .ok script => return start budget options script

end Player

structure Transcript where
  shown : List Shown
  signals : List Signal
  code : Nat
deriving DecidableEq

def Transcript.after (turn : Turn) (rest : Transcript) : Transcript :=
  ⟨turn.shown ++ rest.shown, turn.signals ++ rest.signals, rest.code⟩

-- The end of the input is a way to leave.
def converse (budget : Nat) (turn : Turn) : List InputLine → FileProgram (Option Transcript)
  | [] =>
    return some ⟨turn.shown, turn.signals, match turn.next with
      | .ready _ => 0
      | .finished code => code⟩
  | line :: rest => do
    match turn.next with
    | .finished code => return some ⟨turn.shown, turn.signals, code⟩
    | .ready player =>
      match ← player.feed budget line with
      | none => return none
      | some next => return (← converse budget next rest).map (Transcript.after turn)

def play (budget : Nat) (workingDirectory : String) (options : PlayOptions)
    (input : List InputLine) : FileProgram (Option Transcript) := do
  match ← Player.begin budget workingDirectory options with
  | none => return none
  | some turn => converse budget turn input

end VisualNovel
