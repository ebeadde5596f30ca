import VisualNovel.Dict

namespace VisualNovel

-- Whole numbers of 64 bits, signed or not, stay exact; every other number is a double.
inductive Number where
  | whole (n : Int)
  | real (x : Float)
deriving DecidableEq

-- Members stand in the order in which they were written, and a key may occur twice.
inductive Json where
  | null
  | bool (b : Bool)
  | number (n : Number)
  | string (text : String)
  | array (items : List Json)
  | object (members : List (String × Json))

instance : Inhabited Json := ⟨.null⟩

-- A whole number counts as the double nearest to it.
def Number.toFloat : Number → Float
  | .real x => x
  | .whole n => if n < 0 then -n.natAbs.toUInt64.toFloat else n.natAbs.toUInt64.toFloat

namespace Json

def typeName : Json → String
  | .null => "null"
  | .bool _ => "boolean"
  | .number _ => "number"
  | .string _ => "string"
  | .array _ => "array"
  | .object _ => "object"

def ofFloat (x : Float) : Json := if x.isFinite then .number (.real x) else .null

def ofInt (n : Int) : Json := .number (.whole n)

def ofNat (n : Nat) : Json := .number (.whole n)

-- An absent optional value is written as `null`.
def ofOption (encode : α → Json) : Option α → Json
  | none => .null
  | some value => encode value

-- Members sorted by key; the last of two equal keys wins.
mutual

def canonical : Json → Json
  | .array items => .array (canonicalItems items)
  | .object members => .object (Dict.ofList (canonicalMembers members)).toList
  | .null => .null
  | .bool b => .bool b
  | .number n => .number n
  | .string text => .string text

def canonicalItems : List Json → List Json
  | [] => []
  | item :: rest => item.canonical :: canonicalItems rest

def canonicalMembers : List (String × Json) → List (String × Json)
  | [] => []
  | (key, value) :: rest => (key, value.canonical) :: canonicalMembers rest

end

-- The decoders below accept exactly one kind of value each.
def bool? : Json → Option Bool
  | .bool b => some b
  | _ => none

def string? : Json → Option String
  | .string text => some text
  | _ => none

def float? : Json → Option Float
  | .number n => some n.toFloat
  | _ => none

def nat? (bound : Nat) : Json → Option Nat
  | .number (.whole n) => if 0 ≤ n ∧ n.toNat < bound then some n.toNat else none
  | _ => none

def int64? : Json → Option Int
  | .number (.whole n) => if -2 ^ 63 ≤ n ∧ n < 2 ^ 63 then some n else none
  | _ => none

def array? : Json → Option (List Json)
  | .array items => some items
  | _ => none

def object? : Json → Option (List (String × Json))
  | .object members => some members
  | _ => none

def get? (value : Json) (key : String) : Option Json := value.object?.bind (Bindings.find? key)

-- `null` and an absent value are the same.
def present : Option Json → Option Json
  | some .null => none
  | value => value

def occurrences (name : String) (members : List (String × Json)) : Nat :=
  members.countP fun member => member.1 = name

-- The members by name. A list may be too short, but not too long.
def fieldsOf? (names : List String) : Json → Option (String → Option Json)
  | .object members =>
    if names.all fun name => occurrences name members ≤ 1 then
      some fun name => Bindings.find? name members
    else none
  | .array items =>
    if items.length ≤ names.length then some fun name => Bindings.find? name (names.zip items)
    else none
  | _ => none

-- A value that names its kind: an object by one of its members, a list by its first item. The rest
-- is what the kind is about.
def tagged? (tag : String) : Json → Option (String × Json)
  | .object members =>
    if occurrences tag members = 1 then
      ((Bindings.find? tag members).bind string?).map fun kind => (kind, .object members)
    else none
  | .array (.string kind :: rest) => some (kind, .array rest)
  | _ => none

-- A member that may be absent, but not `null`.
def defaulted (decode : Json → Option α) (default : α) : Option Json → Option α
  | none => some default
  | some value => decode value

-- A member that may be absent or `null`.
def optional (decode : Json → Option α) : Option Json → Option (Option α)
  | none => some none
  | some .null => some none
  | some value => (decode value).map some

def listOf? (decode : Json → Option α) (value : Json) : Option (List α) :=
  value.array?.bind (List.mapM decode)

end Json

end VisualNovel
