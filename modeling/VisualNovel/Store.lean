import VisualNovel.Script.Step
import VisualNovel.Template

namespace VisualNovel

inductive VariableScope where
  | locals
  | globals
deriving DecidableEq

def VariableScope.name : VariableScope → String
  | .locals => "local"
  | .globals => "global"

def autosaveKey : String := "_autosave"

def unlockedKey : String := "_unlocked_dialogues"

-- Two reserved keys are kept apart and typed. From outside the store is one map.
structure LocalStore where
  ordinary : ValueMap
  autosave : Option String
  unlocked : List String
deriving DecidableEq

-- What the store would not take, with the type of the refused value.
inductive Notice where
  | autosaveNotText (found : String)
  | unlockedEntryNotText (found : String)
  | unlockedNotList (found : String)
deriving DecidableEq

namespace LocalStore

def empty : LocalStore := ⟨.empty, none, []⟩

instance : Inhabited LocalStore := ⟨empty⟩

def unlockedValue? (labels : List String) : Option Value :=
  if labels = [] then none else some (.list (labels.map .text))

def get? (store : LocalStore) (key : String) : Option Value :=
  if key = autosaveKey then store.autosave.map .text
  else if key = unlockedKey then unlockedValue? store.unlocked
  else store.ordinary.get? key

-- Labels keep the order in which they were unlocked first.
def unlock (store : LocalStore) (label : String) : LocalStore :=
  if label ∈ store.unlocked then store else { store with unlocked := store.unlocked ++ [label] }

def unlockAll (store : LocalStore) (labels : List String) : LocalStore :=
  labels.foldl unlock store

def setAutosave (store : LocalStore) (label : String) : LocalStore :=
  { store with autosave := some label }

def set (store : LocalStore) (key : String) (value : Value) : LocalStore :=
  if key = autosaveKey then
    match value with
    | .text label => store.setAutosave label
    | _ => store
  else if key = unlockedKey then
    match value with
    | .list entries => { store with unlocked := [] }.unlockAll (entries.filterMap Value.text?)
    | _ => store
  else { store with ordinary := store.ordinary.insert key value }

-- What `set` leaves out of the value it is given.
def notices (key : String) (value : Value) : List Notice :=
  if key = autosaveKey then
    match value with
    | .text _ => []
    | _ => [.autosaveNotText value.typeName]
  else if key = unlockedKey then
    match value with
    | .list entries =>
      (entries.filter fun entry => entry.text?.isNone).map fun entry =>
        .unlockedEntryNotText entry.typeName
    | _ => [.unlockedNotList value.typeName]
  else []

def remove (store : LocalStore) (key : String) : Option Value × LocalStore :=
  if key = autosaveKey then (store.autosave.map .text, { store with autosave := none })
  else if key = unlockedKey then (unlockedValue? store.unlocked, { store with unlocked := [] })
  else (store.ordinary.get? key, { store with ordinary := store.ordinary.erase key })

def ofMap (map : ValueMap) : LocalStore :=
  map.toList.foldl (fun store binding => store.set binding.1 binding.2) empty

def mapNotices (map : ValueMap) : List Notice :=
  map.toList.flatMap fun binding => notices binding.1 binding.2

def insertSome (map : ValueMap) (key : String) : Option Value → ValueMap
  | none => map
  | some value => map.insert key value

def toMap (store : LocalStore) : ValueMap :=
  insertSome (insertSome store.ordinary autosaveKey (store.autosave.map .text)) unlockedKey
    (unlockedValue? store.unlocked)

-- Reserved keys stay out of the ordinary variables, and no dialogue is unlocked twice.
def Tidy (store : LocalStore) : Prop :=
  store.ordinary.get? autosaveKey = none ∧ store.ordinary.get? unlockedKey = none ∧
    store.unlocked.Nodup

end LocalStore

-- The flags of a host, fixed when the machine is built.
abbrev Environment := Dict Bool

namespace Environment

def standard : Environment := Dict.ofList [("isNight", false), ("isDay", true)]

def set? (flags : Environment) (key : String) (value : Bool) : Option Environment :=
  if flags.contains key then some (flags.insert key value) else none

-- Sets the flags in turn, up to the first that does not exist.
def setAll (flags : Environment) : List (String × Bool) → Except String Environment
  | [] => .ok flags
  | (key, value) :: rest =>
    match flags.set? key value with
    | some flags => setAll flags rest
    | none => .error key

def toJson (flags : Environment) : Json := Dict.toJson .bool flags

def ofJson? (value : Json) : Option Environment := Dict.ofJson? Json.bool? value

end Environment

class Scope (σ : Type) where
  read : σ → String → Option Value
  write : σ → String → Value → σ
  erase : σ → String → σ
  notices : String → Value → List Notice

instance : Scope ValueMap where
  read map key := map.get? key
  write map key value := map.insert key value
  erase map key := map.erase key
  notices _ _ := []

instance : Scope LocalStore where
  read := LocalStore.get?
  write := LocalStore.set
  erase store key := (store.remove key).2
  notices := LocalStore.notices

inductive MutationFailure where
  | cannotAdd (amount current : String)
  | cannotSubtract (amount current : String)
  | noValue (key : String)
  | noAction (key : String)
deriving DecidableEq

def MutationFailure.message : MutationFailure → String
  | .cannotAdd amount current => "cannot add " ++ amount ++ " to " ++ current
  | .cannotSubtract amount current => "cannot subtract " ++ amount ++ " from " ++ current
  | .noValue key => "mutation of \"" ++ key ++ "\" has no value"
  | .noAction key => "mutation of \"" ++ key ++ "\" has no known action"

namespace Value

-- Numbers are added; as soon as one side is a text, both texts are joined.
def add (current amount : Value) : Except MutationFailure Value :=
  match current, amount with
  | .number x, .number y => .ok (.number (x + y))
  | .text _, _ => .ok (.text (current.spoken ++ amount.spoken))
  | _, .text _ => .ok (.text (current.spoken ++ amount.spoken))
  | _, _ => .error (.cannotAdd amount.typeName current.typeName)

def subtract (current amount : Value) : Except MutationFailure Value :=
  match current, amount with
  | .number x, .number y => .ok (.number (x - y))
  | _, _ => .error (.cannotSubtract amount.typeName current.typeName)

end Value

namespace Mutation

-- The value to write, or nothing if the variable is to be erased.
def next (mutation : Mutation) (current : Value) : Except MutationFailure (Option Value) :=
  match mutation.action, mutation.value with
  | .modify, value => .ok value
  | .increment, some amount => (current.add amount).map some
  | .subtract, some amount => (current.subtract amount).map some
  | .increment, none => .error (.noValue mutation.var)
  | .subtract, none => .error (.noValue mutation.var)
  | .other, _ => .error (.noAction mutation.var)

-- The store afterwards, what it refused, and on success the values before and after.
structure Outcome (σ : Type) where
  store : σ
  notices : List Notice
  result : Except MutationFailure (Option Value × Option Value)

-- An absent variable first becomes the number 0, which a failing change leaves behind.
def apply [Scope σ] (store : σ) (mutation : Mutation) : Outcome σ :=
  let key := mutation.var
  let previous := Scope.read store key
  let current := previous.getD .zero
  let (seeded, seedNotices) :=
    if previous.isNone then (Scope.write store key current, Scope.notices σ key current)
    else (store, [])
  match mutation.next current with
  | .error failure => ⟨seeded, seedNotices, .error failure⟩
  | .ok none => ⟨Scope.erase seeded key, seedNotices, .ok (previous, none)⟩
  | .ok (some value) =>
    ⟨Scope.write seeded key value, seedNotices ++ Scope.notices σ key value,
      .ok (previous, some value)⟩

end Mutation

-- Without a target to compare with, only "not equal" holds.
def Comparison.holds (comparison : Comparison) (value : Value) : Option Value → Bool
  | none => comparison = .notEqual
  | some target =>
    match comparison with
    | .equal => value.agrees target
    | .notEqual => !value.agrees target
    | .greaterThan => value.order target = some .gt
    | .lessThan => value.order target = some .lt
    | .unknown => false

structure Stores where
  globals : ValueMap
  locals : LocalStore
  environment : Environment
deriving DecidableEq

namespace Stores

-- A flag hides both variables of its name.
def conditionValue (stores : Stores) (scope : VariableScope) (name : String) : Value :=
  match stores.environment.get? name with
  | some flag => .bool flag
  | none =>
    let found := match scope with
      | .globals => stores.globals.get? name
      | .locals => stores.locals.get? name
    found.getD .zero

def satisfies (stores : Stores) (scope : VariableScope) (condition : Condition) : Bool :=
  condition.comparison.holds (stores.conditionValue scope condition.var) condition.value

-- A global hides the local of its name.
def lookup (stores : Stores) (key : String) : Option Value :=
  match stores.globals.get? key with
  | some value => some value
  | none => stores.locals.get? key

def renderText (stores : Stores) (template : Option String) : String :=
  match template with
  | none => ""
  | some text => Template.render (fun key => (stores.lookup key).map Value.spoken) text

-- The dynamic location counts only if rendering it leaves no placeholder behind.
def spriteLocation (stores : Stores) (placement : Placement) : String :=
  match placement.dynLocation with
  | none => stores.renderText placement.location
  | some dynamic =>
    if dynamic = "" then stores.renderText placement.location
    else
      let rendered := stores.renderText (some dynamic)
      if Template.hasPlaceholder rendered then stores.renderText placement.location else rendered

end Stores

end VisualNovel
