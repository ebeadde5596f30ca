import VisualNovel.Dict

namespace VisualNovel

namespace Path

-- The pieces between the slashes, the empty ones included.
def names (path : String) : List String := (path.toList.splitOn '/').map String.ofList

def isAbsolute (path : String) : Bool := path.toList.head? = some '/'

-- An absolute path stands for itself, whatever it is joined to.
def join (base path : String) : String :=
  if isAbsolute path then path
  else if base = "" || base.toList.getLast? = some '/' then base ++ path
  else base ++ "/" ++ path

-- A name that stays where it is.
def isIdle (name : String) : Bool := name = "" || name = "."

def steps (path : String) : List String := (names path).filter fun name => !isIdle name

def dropIdleEnd (names : List String) : List String := (names.reverse.dropWhile isIdle).reverse

-- The path to what has to exist before this path can be created.
def parent (path : String) : String :=
  "/".intercalate (dropIdleEnd (dropIdleEnd (names path)).dropLast)

def lastName (path : String) : String := (names path).getLast?.getD ""

def stemChars (name : List Char) : List Char :=
  match name.reverse.dropWhile (· ≠ '.') with
  | [] => name
  | _ :: stem => if stem = [] then name else stem.reverse

def stem (name : String) : String := String.ofList (stemChars name.toList)

-- A name by which something new can be created.
def isName (name : String) : Bool :=
  !isIdle name && name ≠ ".." && name.utf8ByteSize ≤ 255

-- The bytes of a path, with the zero byte that ends it.
def sizeLimit : Nat := 4096

-- No other path can be asked for, wherever it would lead.
def isAllowed (path : String) : Bool :=
  path.utf8ByteSize < sizeLimit && !path.toList.contains '\x00'

end Path

-- A file holds text, or bytes that are not text and that nothing here looks into.
inductive Content where
  | text (s : String)
  | bytes
deriving DecidableEq

abbrev Place := List String

inductive FileTree where
  | file (content : Content)
  | directory (entries : List (String × FileTree))

namespace FileTree

instance : Inhabited FileTree := ⟨.directory []⟩

def empty : FileTree := .directory []

def entries : FileTree → List (String × FileTree)
  | .file _ => []
  | .directory entries => entries

def isDirectory : FileTree → Bool
  | .file _ => false
  | .directory _ => true

def content? : FileTree → Option Content
  | .file content => some content
  | .directory _ => none

def get? : Place → FileTree → Option FileTree
  | [], tree => some tree
  | name :: rest, tree => (Bindings.find? name tree.entries).bind (get? rest)

def contentAt (tree : FileTree) (place : Place) : Option Content :=
  (tree.get? place).bind content?

def isDirectoryAt (tree : FileTree) (place : Place) : Bool :=
  (tree.get? place).any isDirectory

-- What is missing on the way becomes a directory, and so does a file on the way.
def put : FileTree → Place → FileTree → FileTree
  | _, [], new => new
  | tree, name :: rest, new =>
    let child := (Bindings.find? name tree.entries).getD empty
    .directory (Bindings.put name (put child rest new) tree.entries)

mutual

-- All places under a place, each before those that are under it, with what is there.
def walk (place : Place) : FileTree → List (Place × FileTree)
  | .file content => [(place, .file content)]
  | .directory entries => (place, .directory entries) :: walkEntries place entries

def walkEntries (place : Place) : List (String × FileTree) → List (Place × FileTree)
  | [] => []
  | (name, tree) :: rest => walk (place ++ [name]) tree ++ walkEntries place rest

end

def files (tree : FileTree) : List (Place × Content) :=
  (tree.walk []).filterMap fun found => found.2.content?.map fun content => (found.1, content)

theorem get?_nil (tree : FileTree) : tree.get? [] = some tree := rfl

theorem get?_cons (name : String) (rest : Place) (tree : FileTree) :
    tree.get? (name :: rest) = (Bindings.find? name tree.entries).bind (get? rest) := rfl

@[simp] theorem get?_put_self (tree : FileTree) (place : Place) (new : FileTree) :
    (tree.put place new).get? place = some new := by
  induction place generalizing tree with
  | nil => rfl
  | cons name rest ih => simp [put, get?, entries, Bindings.find?_put, ih]

end FileTree

structure Disk where
  tree : FileTree
  here : Place

inductive Entry where
  | missing
  | directory
  | text (s : String)
  | unreadable
deriving DecidableEq

namespace Disk

def origin (disk : Disk) (path : String) : Place :=
  if Path.isAbsolute path then [] else disk.here

-- Where the names lead. Every name that is followed, also one that stays, is asked of a directory.
def follow (tree : FileTree) (place : Place) : List String → Option Place
  | [] => some place
  | name :: rest =>
    if !tree.isDirectoryAt place then none
    else if Path.isIdle name then follow tree place rest
    else if name = ".." then follow tree place.dropLast rest
    else if (tree.get? (place ++ [name])).isSome then follow tree (place ++ [name]) rest
    else none

def entryOf : Option FileTree → Entry
  | none => .missing
  | some (.directory _) => .directory
  | some (.file (.text s)) => .text s
  | some (.file .bytes) => .unreadable

def locate (disk : Disk) (path : String) : Option Place :=
  if path = "" || !Path.isAllowed path then none
  else follow disk.tree (disk.origin path) (Path.names path)

def look (disk : Disk) (path : String) : Entry :=
  entryOf ((disk.locate path).bind fun place => disk.tree.get? place)

-- Creates the directories that are missing on the way, up to the first that cannot be created.
def prepare (tree : FileTree) (place : Place) : List String → FileTree × Option Place
  | [] => (tree, some place)
  | name :: rest =>
    if name = ".." then prepare tree place.dropLast rest
    else
      let next := place ++ [name]
      match tree.get? next with
      | some (.directory _) => prepare tree next rest
      | some (.file _) => (tree, none)
      | none => if Path.isName name then prepare (tree.put next .empty) next rest else (tree, none)

-- The directories that were created stay, also when the file cannot be written.
def write (disk : Disk) (path text : String) : Disk × Bool :=
  if !Path.isAllowed (Path.parent path) then (disk, false)
  else
    match prepare disk.tree (disk.origin path) (Path.steps (Path.parent path)) with
    | (tree, none) => (⟨tree, disk.here⟩, false)
    | (tree, some place) =>
      let name := Path.lastName path
      if Path.isAllowed path && Path.isName name && !tree.isDirectoryAt (place ++ [name]) then
        (⟨tree.put (place ++ [name]) (.file (.text text)), disk.here⟩, true)
      else (⟨tree, disk.here⟩, false)

end Disk

-- What a program does next depends on what it is told about the files.
inductive FileProgram (α : Type) where
  | done (value : α)
  | look (path : String) (next : Entry → FileProgram α)
  | write (path text : String) (next : Bool → FileProgram α)

namespace FileProgram

def bind : FileProgram α → (α → FileProgram β) → FileProgram β
  | .done value, f => f value
  | .look path next, f => .look path fun entry => (next entry).bind f
  | .write path text next, f => .write path text fun written => (next written).bind f

instance : Monad FileProgram where
  pure := .done
  bind := FileProgram.bind

def runOn (disk : Disk) : FileProgram α → α × Disk
  | .done value => (value, disk)
  | .look path next => (next (disk.look path)).runOn disk
  | .write path text next =>
    let (changed, written) := disk.write path text
    (next written).runOn changed

@[simp] theorem runOn_pure (disk : Disk) (value : α) :
    (pure value : FileProgram α).runOn disk = (value, disk) := rfl

@[simp] theorem runOn_bind (disk : Disk) (first : FileProgram α) (next : α → FileProgram β) :
    (first >>= next).runOn disk = (next (first.runOn disk).1).runOn (first.runOn disk).2 := by
  show (first.bind next).runOn disk = _
  induction first generalizing disk with
  | done value => rfl
  | look path continuation ih => simp only [FileProgram.bind, runOn, ih]
  | write path text continuation ih => simp only [FileProgram.bind, runOn, ih]

end FileProgram

end VisualNovel
