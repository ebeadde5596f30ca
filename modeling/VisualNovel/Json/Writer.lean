import VisualNovel.Json.Basic
import VisualNovel.Decimal

namespace VisualNovel.Json

-- Doubles from 0.00001 up to 10 ^ 16 are written without exponent and always with a point.
def realLayout : Decimal.Layout :=
  { reach := .between (-5) 15, wholePoint := true, exponentPlus := true, tie := .even
    notANumber := "null", infinite := "null", minusInfinite := "null" }

def wholeText (n : Int) : List Char :=
  if n < 0 then '-' :: Nat.toDigits 10 n.natAbs else Nat.toDigits 10 n.natAbs

def numberText : Number → List Char
  | .whole n => wholeText n
  | .real x => (realLayout.write x).toList

def hexPair (n : Nat) : List Char := [Nat.digitChar (n / 16 % 16), Nat.digitChar (n % 16)]

def escapeChar (c : Char) : List Char :=
  if c = '"' then ['\\', '"']
  else if c = '\\' then ['\\', '\\']
  else if c = '\n' then ['\\', 'n']
  else if c = '\r' then ['\\', 'r']
  else if c = '\t' then ['\\', 't']
  else if c = '\x08' then ['\\', 'b']
  else if c = '\x0c' then ['\\', 'f']
  else if c.toNat < 0x20 then '\\' :: 'u' :: '0' :: '0' :: hexPair c.toNat
  else [c]

def stringText (text : String) : List Char := '"' :: (text.toList.flatMap escapeChar ++ ['"'])

mutual

def chars : Json → List Char
  | .null => ['n', 'u', 'l', 'l']
  | .bool true => ['t', 'r', 'u', 'e']
  | .bool false => ['f', 'a', 'l', 's', 'e']
  | .number n => numberText n
  | .string text => stringText text
  | .array items => '[' :: (itemChars items ++ [']'])
  | .object members => '\x7b' :: (memberChars members ++ ['\x7d'])

def itemChars : List Json → List Char
  | [] => []
  | item :: [] => item.chars
  | item :: next :: rest => item.chars ++ ',' :: itemChars (next :: rest)

def memberChars : List (String × Json) → List Char
  | [] => []
  | (key, value) :: [] => stringText key ++ ':' :: value.chars
  | (key, value) :: next :: rest =>
    stringText key ++ ':' :: (value.chars ++ ',' :: memberChars (next :: rest))

end

def write (value : Json) : String := String.ofList value.chars

def newLine (depth : Nat) : List Char := '\n' :: List.replicate (2 * depth) ' '

mutual

-- `depth` counts the brackets around the value.
def indentedChars (depth : Nat) : Json → List Char
  | .array [] => ['[', ']']
  | .array (item :: items) =>
    '[' :: (indentedItems (depth + 1) (item :: items) ++ newLine depth ++ [']'])
  | .object [] => ['\x7b', '\x7d']
  | .object (member :: members) =>
    '\x7b' :: (indentedMembers (depth + 1) (member :: members) ++ newLine depth ++ ['\x7d'])
  | .null => ['n', 'u', 'l', 'l']
  | .bool true => ['t', 'r', 'u', 'e']
  | .bool false => ['f', 'a', 'l', 's', 'e']
  | .number n => numberText n
  | .string text => stringText text

def indentedItems (depth : Nat) : List Json → List Char
  | [] => []
  | item :: [] => newLine depth ++ indentedChars depth item
  | item :: next :: rest =>
    newLine depth ++ indentedChars depth item ++ ',' :: indentedItems depth (next :: rest)

def indentedMembers (depth : Nat) : List (String × Json) → List Char
  | [] => []
  | (key, value) :: [] => newLine depth ++ stringText key ++ ':' :: ' ' :: indentedChars depth value
  | (key, value) :: next :: rest =>
    newLine depth ++ stringText key ++
      ':' :: ' ' :: (indentedChars depth value ++ ',' :: indentedMembers depth (next :: rest))

end

def writeIndented (value : Json) : String := String.ofList (indentedChars 0 value)

end VisualNovel.Json
