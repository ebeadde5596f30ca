import VisualNovel.Console.Run

namespace VisualNovel.Terminal

def lookAt (path : String) : IO Entry := do
  if path.isEmpty || !Path.isAllowed path then return .missing
  let place := { (← IO.currentDir) with toString := path }
  if !(← place.pathExists) then return .missing
  if ← place.isDir then return .directory
  try return .text (← IO.FS.readFile place)
  catch _ => return .unreadable

def writeTo (path text : String) : IO Bool := do
  try
    let parent := Path.parent path
    if path.isEmpty || !Path.isAllowed parent then return false
    if !parent.isEmpty then IO.FS.createDirAll parent
    if !Path.isAllowed path then return false
    IO.FS.writeFile path text
    return true
  catch _ => return false

def perform : FileProgram α → IO α
  | .done value => pure value
  | .look path next => do perform (next (← lookAt path))
  | .write path text next => do perform (next (← writeTo path text))

-- More work than any run comes to.
def budget : Nat := 2 ^ 62

def endless : IO UInt32 := do
  IO.eprintln "the story does not come to a stop"
  return 1

def emit (output : Console.Output) : IO UInt32 := do
  IO.print output.text
  return output.code.toUInt32

def runAgent (here : String) (command : AgentCommand) : IO UInt32 := do
  let result ← perform (Agent.run budget here command).run
  match Console.agentOutput result with
  | none => endless
  | some output => emit output

-- The bytes up to the next line feed, or to the end of the input.
partial def lineBytes (input : IO.FS.Stream) (read : ByteArray) : IO ByteArray := do
  let next ← input.read 1
  if next.isEmpty then return read
  let read := read ++ next
  if next.toList = [10] then return read else lineBytes input read

def nextLine (input : IO.FS.Stream) : IO (Option InputLine) := do
  let bytes ← lineBytes input .empty
  return if bytes.isEmpty then none else some (.ofBytes bytes.toList)

partial def converse (input output : IO.FS.Stream) : Option Turn → IO UInt32
  | none => endless
  | some turn => do
    output.putStr (String.join (turn.shown.map Shown.text))
    output.flush
    match turn.next with
    | .finished code => return code.toUInt32
    | .ready player =>
      match ← nextLine input with
      | none => return 0
      | some line => converse input output (← perform (player.feed budget line))

def runPlay (here : String) (options : PlayOptions) : IO UInt32 := do
  converse (← IO.getStdin) (← IO.getStdout) (← perform (Player.begin budget here options))

def usage : String := String.join (["usage:",
  "  agent start --script PATH --state-out PATH [--globals JSON] [--variables JSON]",
  "              [--start-label LABEL] [--seed N]",
  "  agent advance --state-in PATH --state-out PATH",
  "  agent choose --state-in PATH --label LABEL --state-out PATH",
  "  agent env --state-in PATH --key KEY --value true|false --state-out PATH",
  "  play --script PATH [--save-file PATH] [--start-label LABEL]"].map Shown.line)

def refuse (reason : NoRequest) : IO UInt32 := do
  match reason with
  | .help => IO.print usage
  | .misuse => IO.eprint usage
  return (Console.refused reason).code.toUInt32

def run (words : List String) : IO UInt32 := do
  let here := (← IO.currentDir).toString
  match Arguments.request words with
  | .error reason => refuse reason
  | .ok (.agent command) => runAgent here command
  | .ok (.play options) => runPlay here options

end VisualNovel.Terminal

def main (words : List String) : IO UInt32 := VisualNovel.Terminal.run words
