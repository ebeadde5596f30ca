import VisualNovel.Json.Writer

namespace VisualNovel

inductive Value where
  | bool (b : Bool)
  | number (x : Float)
  | text (s : String)
  | list (items : List Value)

abbrev ValueMap := Dict Value

namespace Value

instance : Inhabited Value := ⟨.bool false⟩

mutual

def decideEq : (left right : Value) → Decidable (left = right)
  | .bool a, .bool b => if same : a = b then isTrue (by rw [same]) else isFalse (by simpa)
  | .number x, .number y => if same : x = y then isTrue (by rw [same]) else isFalse (by simpa)
  | .text s, .text t => if same : s = t then isTrue (by rw [same]) else isFalse (by simpa)
  | .list xs, .list ys =>
    match decideItemsEq xs ys with
    | isTrue same => isTrue (by rw [same])
    | isFalse different => isFalse (by simpa)
  | .bool _, .number _ => isFalse nofun
  | .bool _, .text _ => isFalse nofun
  | .bool _, .list _ => isFalse nofun
  | .number _, .bool _ => isFalse nofun
  | .number _, .text _ => isFalse nofun
  | .number _, .list _ => isFalse nofun
  | .text _, .bool _ => isFalse nofun
  | .text _, .number _ => isFalse nofun
  | .text _, .list _ => isFalse nofun
  | .list _, .bool _ => isFalse nofun
  | .list _, .number _ => isFalse nofun
  | .list _, .text _ => isFalse nofun

def decideItemsEq : (left right : List Value) → Decidable (left = right)
  | [], [] => isTrue rfl
  | [], _ :: _ => isFalse nofun
  | _ :: _, [] => isFalse nofun
  | x :: xs, y :: ys =>
    match decideEq x y, decideItemsEq xs ys with
    | isTrue first, isTrue rest => isTrue (by rw [first, rest])
    | isFalse different, _ => isFalse fun equal => different (List.cons.inj equal).1
    | isTrue _, isFalse different => isFalse fun equal => different (List.cons.inj equal).2

end

instance : DecidableEq Value := decideEq

def zero : Value := .number 0

def typeName : Value → String
  | .bool _ => "boolean"
  | .number _ => "number"
  | .text _ => "string"
  | .list _ => "array"

def text? : Value → Option String
  | .text s => some s
  | _ => none

def number? : Value → Option Float
  | .number x => some x
  | _ => none

def list? : Value → Option (List Value)
  | .list items => some items
  | _ => none

-- Numbers that are not whole, or are too long, as a line of dialogue shows them.
def spokenLayout : Decimal.Layout :=
  { reach := .always, wholePoint := false, exponentPlus := false, tie := .up
    notANumber := "NaN", infinite := "Infinity", minusInfinite := "-Infinity" }

-- Whole numbers of at most fifteen digits are written in full and without the sign of zero.
def spokenNumber (x : Float) : String :=
  let size := Decimal.Binary.ofFloat x
  if x.isFinite && size.isWhole && size.whole < 10 ^ 15 then
    let n : Int := if Decimal.isNegative x then -size.whole else size.whole
    String.ofList (Json.wholeText n)
  else spokenLayout.write x

mutual

-- The text that stands for a value inside a line of dialogue.
def spoken : Value → String
  | .bool true => "true"
  | .bool false => "false"
  | .number x => spokenNumber x
  | .text s => s
  | .list items => spokenItems items

def spokenItems : List Value → String
  | [] => ""
  | item :: [] => item.spoken
  | item :: next :: rest => item.spoken ++ "," ++ spokenItems (next :: rest)

end

-- As a story compares values: NaN agrees with nothing, and the two zeros agree.
mutual

def agrees : Value → Value → Bool
  | .bool a, .bool b => a = b
  | .number x, .number y => x == y
  | .text s, .text t => s = t
  | .list xs, .list ys => agreesItems xs ys
  | _, _ => false

def agreesItems : List Value → List Value → Bool
  | [], [] => true
  | x :: xs, y :: ys => x.agrees y && agreesItems xs ys
  | _, _ => false

end

-- Only numbers among themselves and texts among themselves are ordered, texts by code points.
def order : Value → Value → Option Ordering
  | .number x, .number y =>
    if x < y then some .lt else if x == y then some .eq else if y < x then some .gt else none
  | .text s, .text t => some (if s < t then .lt else if s = t then .eq else .gt)
  | _, _ => none

mutual

-- A number that is not finite is written as `null`, which reads back as no value.
def toJson : Value → Json
  | .bool b => .bool b
  | .number x => .ofFloat x
  | .text s => .string s
  | .list items => .array (itemsToJson items)

def itemsToJson : List Value → List Json
  | [] => []
  | item :: rest => item.toJson :: itemsToJson rest

end

mutual

def ofJson? : Json → Option Value
  | .bool b => some (.bool b)
  | .number n => some (.number n.toFloat)
  | .string s => some (.text s)
  | .array items => (itemsOfJson? items).map .list
  | .null => none
  | .object _ => none

def itemsOfJson? : List Json → Option (List Value)
  | [] => some []
  | item :: rest =>
    match ofJson? item, itemsOfJson? rest with
    | some value, some values => some (value :: values)
    | _, _ => none

end

mutual

def isFinite : Value → Bool
  | .number x => x.isFinite
  | .list items => allFinite items
  | .bool _ => true
  | .text _ => true

def allFinite : List Value → Bool
  | [] => true
  | item :: rest => item.isFinite && allFinite rest

end

end Value

namespace Dict

def mapValues (f : α → β) (map : Dict α) : List (String × β) :=
  map.toList.map fun binding => (binding.1, f binding.2)

def toJson (encode : α → Json) (map : Dict α) : Json := .object (map.mapValues encode)

def membersOfJson? (decode : Json → Option α) : List (String × Json) → Option (List (String × α))
  | [] => some []
  | (key, value) :: rest =>
    match decode value, membersOfJson? decode rest with
    | some value, some members => some ((key, value) :: members)
    | _, _ => none

-- Every member has to decode, also one that a later member of the same key replaces.
def ofJson? (decode : Json → Option α) (value : Json) : Option (Dict α) :=
  value.object?.bind fun members => (membersOfJson? decode members).map ofList

end Dict

def ValueMap.toJson (map : ValueMap) : Json := Dict.toJson Value.toJson map

def ValueMap.ofJson? (value : Json) : Option ValueMap := Dict.ofJson? Value.ofJson? value

end VisualNovel
