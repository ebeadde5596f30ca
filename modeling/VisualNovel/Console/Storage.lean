import VisualNovel.Console.Basic
import VisualNovel.Json.Selective
import VisualNovel.Files

namespace VisualNovel

abbrev FileTask := ExceptT ConsoleError FileProgram

namespace FileTask

def look (path : String) : FileTask Entry := ExceptT.mk (.look path fun entry => .done (.ok entry))

-- The directories on the way are created if need be.
def save (path : String) (value : Json) : FileTask Unit :=
  ExceptT.mk (.write path value.write fun written =>
    .done (if written then .ok () else .error .stateUnwritable))

def ofExcept (result : Except ConsoleError α) : FileTask α := ExceptT.mk (.done result)

def ofStory (result : Except StoryError α) : FileTask α := ofExcept (result.mapError .story)

end FileTask

-- What a file must hold: a value of its own kind, under the schema of that kind.
def checkedSchema (schema : String) : Option (String × α) → Except ConsoleError α
  | none => .error .stateInvalid
  | some (found, value) => if found = schema then .ok value else .error (.stateSchema found)

def loadState (ofText : String → Except ConsoleError α) (path : String) : FileTask α := do
  match ← FileTask.look path with
  | .missing => throw (.stateNotFound path)
  | .text text => FileTask.ofExcept (ofText text)
  | .directory => throw .stateUnreadable
  | .unreadable => throw .stateUnreadable

structure SavedRun where
  scriptPath : String
  snapshot : Snapshot
deriving DecidableEq

namespace SavedRun

def schema : String := "vn-player-state.v1"

def toJson (run : SavedRun) : Json :=
  .object [("schemaVersion", .string schema), ("scriptPath", .string run.scriptPath),
    ("snapshot", run.snapshot.toJson)]

def ofFields? (field : String → Option Json) : Option (String × SavedRun) := do
  let found ← (field "schemaVersion").bind Json.string?
  let scriptPath ← (field "scriptPath").bind Json.string?
  let snapshot ← (field "snapshot").bind Snapshot.ofJson?
  return (found, ⟨scriptPath, snapshot⟩)

def ofJson? (value : Json) : Option (String × SavedRun) :=
  (value.fieldsOf? ["schemaVersion", "scriptPath", "snapshot"]).bind ofFields?

def wanted : Json.Wanted :=
  .members [("schemaVersion", .whole), ("scriptPath", .whole),
    ("snapshot", .ofNames Snapshot.memberNames)]

def ofText (text : String) : Except ConsoleError SavedRun :=
  checkedSchema schema ((Json.readFor? wanted text).bind ofJson?)

def load (path : String) : FileTask SavedRun := loadState ofText path

def save (path : String) (run : SavedRun) : FileTask Unit := FileTask.save path run.toJson

end SavedRun

structure SavedStores where
  globals : ValueMap
  locals : ValueMap
deriving DecidableEq

namespace SavedStores

def schema : String := "vn-save.v1"

def toJson (stores : SavedStores) : Json :=
  .object [("schemaVersion", .string schema), ("globals", stores.globals.toJson),
    ("variables", stores.locals.toJson)]

def ofFields? (field : String → Option Json) : Option (String × SavedStores) := do
  let found ← (field "schemaVersion").bind Json.string?
  let globals ← (field "globals").bind ValueMap.ofJson?
  let locals ← (field "variables").bind ValueMap.ofJson?
  return (found, ⟨globals, locals⟩)

def memberNames : List String := ["schemaVersion", "globals", "variables"]

def ofJson? (value : Json) : Option (String × SavedStores) :=
  (value.fieldsOf? memberNames).bind ofFields?

def ofText (text : String) : Except ConsoleError SavedStores :=
  checkedSchema schema ((Json.readFor? (.ofNames memberNames) text).bind ofJson?)

def load (path : String) : FileTask SavedStores := loadState ofText path

def save (path : String) (stores : SavedStores) : FileTask Unit := FileTask.save path stores.toJson

end SavedStores

structure LoadedScript where
  path : String
  text : String
deriving DecidableEq

namespace LoadedScript

def title (script : LoadedScript) : String := Path.stem (Path.lastName script.path)

def checked (path text : String) : Except ConsoleError LoadedScript :=
  match Script.parse text with
  | .ok _ => .ok ⟨path, text⟩
  | .error error => .error (.story (.script error))

-- A script whose steps are not all known is loaded all the same.
def load (workingDirectory path : String) : FileTask LoadedScript := do
  let path := Path.join workingDirectory path
  match ← FileTask.look path with
  | .missing => throw (.scriptNotFound path)
  | .directory => throw (.scriptNotFile path)
  | .unreadable => throw .scriptUnreadable
  | .text text => FileTask.ofExcept (checked path text)

end LoadedScript

end VisualNovel
