import VisualNovel.Json.Basic

namespace VisualNovel.Json

def depthLimit : Nat := 127

def wordBound : Nat := 2 ^ 64

def isLayout (c : Char) : Bool := c = ' ' || c = '\n' || c = '\t' || c = '\r'

def skipLayout (text : List Char) : List Char := text.dropWhile isLayout

def hexDigit? (c : Char) : Option Nat :=
  if '0' ≤ c && c ≤ '9' then some (c.toNat - '0'.toNat)
  else if 'a' ≤ c && c ≤ 'f' then some (c.toNat - 'a'.toNat + 10)
  else if 'A' ≤ c && c ≤ 'F' then some (c.toNat - 'A'.toNat + 10)
  else none

def hexWord? (a b c d : Char) : Option Nat := do
  let a ← hexDigit? a
  let b ← hexDigit? b
  let c ← hexDigit? c
  let d ← hexDigit? d
  return ((a * 16 + b) * 16 + c) * 16 + d

def shortEscape? : Char → Option Char
  | '"' => some '"'
  | '\\' => some '\\'
  | '/' => some '/'
  | 'b' => some '\x08'
  | 'f' => some '\x0c'
  | 'n' => some '\n'
  | 'r' => some '\r'
  | 't' => some '\t'
  | _ => none

def isHighSurrogate (n : Nat) : Bool := 0xd800 ≤ n && n < 0xdc00

def isLowSurrogate (n : Nat) : Bool := 0xdc00 ≤ n && n < 0xe000

def joinSurrogates (high low : Nat) : Char :=
  Char.ofNat (0x10000 + (high - 0xd800) * 0x400 + (low - 0xdc00))

def keep (c : Char) : Option (List Char × List Char) → Option (List Char × List Char)
  | some (read, rest) => some (c :: read, rest)
  | none => none

-- The characters of a string up to its closing quote, and the text behind the quote. Halves of a
-- surrogate pair are refused unless they follow each other.
def readString : List Char → Option (List Char × List Char)
  | [] => none
  | '"' :: rest => some ([], rest)
  | '\\' :: 'u' :: a :: b :: c :: d :: '\\' :: 'u' :: e :: f :: g :: h :: rest =>
    match hexWord? a b c d with
    | none => none
    | some unit =>
      if isHighSurrogate unit then
        match hexWord? e f g h with
        | none => none
        | some low =>
          if isLowSurrogate low then keep (joinSurrogates unit low) (readString rest) else none
      else if isLowSurrogate unit then none
      else keep (Char.ofNat unit) (readString ('\\' :: 'u' :: e :: f :: g :: h :: rest))
  | '\\' :: 'u' :: a :: b :: c :: d :: rest =>
    match hexWord? a b c d with
    | none => none
    | some unit =>
      if isHighSurrogate unit || isLowSurrogate unit then none
      else keep (Char.ofNat unit) (readString rest)
  | '\\' :: c :: rest =>
    match shortEscape? c with
    | none => none
    | some plain => keep plain (readString rest)
  | c :: rest => if c.toNat < 0x20 || c = '\\' then none else keep c (readString rest)
termination_by text => text.length

def digit? (c : Char) : Option Nat := if c.isDigit then some (c.toNat - '0'.toNat) else none

-- A significand and a power of ten, while the digits are read.
structure Scaled where
  significand : Nat
  exponent : Int

-- Digits before the point: what no longer fits only raises the exponent.
def wholeDigits (full : Bool) (s : Scaled) : List Char → Scaled × List Char
  | [] => (s, [])
  | c :: rest =>
    match digit? c with
    | none => (s, c :: rest)
    | some d =>
      if full || wordBound ≤ s.significand * 10 + d then
        wholeDigits true ⟨s.significand, s.exponent + 1⟩ rest
      else wholeDigits false ⟨s.significand * 10 + d, s.exponent⟩ rest

-- Digits behind the point: from the first that no longer fits they are dropped.
def fractionDigits (full : Bool) (s : Scaled) : List Char → Scaled × List Char
  | [] => (s, [])
  | c :: rest =>
    match digit? c with
    | none => (s, c :: rest)
    | some d =>
      if full || wordBound ≤ s.significand * 10 + d then fractionDigits true s rest
      else fractionDigits false ⟨s.significand * 10 + d, s.exponent - 1⟩ rest

def readNat (n : Nat) : List Char → Nat × List Char
  | [] => (n, [])
  | c :: rest =>
    match digit? c with
    | none => (n, c :: rest)
    | some d => readNat (n * 10 + d) rest

def powerOfTen (k : Nat) : Float := Float.ofScientific 1 false k

-- Division steps of at most 308 places, until the number is reached or has become zero.
def scaleDown (x : Float) (places : Nat) : Float :=
  if places ≤ 308 then x / powerOfTen places
  else if x == 0 then x
  else scaleDown (x / powerOfTen 308) (places - 308)
termination_by places

-- A number beyond the doubles is refused, one below them is zero.
def Scaled.magnitude? (s : Scaled) : Option Float :=
  let x := s.significand.toUInt64.toFloat
  if s.exponent < 0 then some (scaleDown x s.exponent.natAbs)
  else if 308 < s.exponent then (if x == 0 then some x else none)
  else
    let y := x * powerOfTen s.exponent.toNat
    if y.isInf then none else some y

def signed (negative : Bool) (x : Float) : Number := .real (if negative then -x else x)

-- Exponents beyond 32 bits are not computed with.
def exponentBound : Nat := 2 ^ 31

def withExponent (negative : Bool) (s : Scaled) (minus : Bool) (e : Nat) : Option Number :=
  if exponentBound ≤ e then
    if s.significand = 0 || minus then some (signed negative 0) else none
  else
    let exponent := if minus then s.exponent - e else s.exponent + e
    (Scaled.magnitude? ⟨s.significand, exponent⟩).map (signed negative)

def readExponent (negative : Bool) (s : Scaled) (text : List Char) : Option (Number × List Char) :=
  let (minus, text) := match text with
    | '+' :: rest => (false, rest)
    | '-' :: rest => (true, rest)
    | _ => (false, text)
  match text with
  | [] => none
  | c :: _ =>
    if c.isDigit then
      let (e, rest) := readNat 0 text
      (withExponent negative s minus e).map (·, rest)
    else none

def readScale (negative : Bool) (s : Scaled) (text : List Char) : Option (Number × List Char) :=
  match text with
  | 'e' :: rest => readExponent negative s rest
  | 'E' :: rest => readExponent negative s rest
  | _ => s.magnitude?.map fun x => (signed negative x, text)

def exactWhole (negative : Bool) (n : Nat) : Number :=
  if !negative then .whole n
  else if n = 0 || 2 ^ 63 < n then signed true n.toUInt64.toFloat
  else .whole (-n)

def readMagnitude (negative : Bool) (text : List Char) : Option (Number × List Char) :=
  match text with
  | [] => none
  | first :: afterFirst =>
    if !first.isDigit then none
    else
      let (s, rest) :=
        if first = '0' then (⟨0, 0⟩, afterFirst) else wholeDigits false ⟨0, 0⟩ text
      match rest with
      | '.' :: d :: fraction =>
        if d.isDigit then
          let (s, rest) := fractionDigits false s (d :: fraction)
          readScale negative s rest
        else none
      | '.' :: [] => none
      | 'e' :: rest => readExponent negative s rest
      | 'E' :: rest => readExponent negative s rest
      | _ =>
        if first = '0' && (match rest with | c :: _ => c.isDigit | [] => false) then none
        else if s.exponent = 0 then some (exactWhole negative s.significand, rest)
        else s.magnitude?.map fun x => (signed negative x, rest)

-- Only so many digits are kept as fit 64 bits, so the last bit may differ from the nearest double.
def readNumber : List Char → Option (Number × List Char)
  | '-' :: rest => readMagnitude true rest
  | text => readMagnitude false text

mutual

-- Every call reads a character or opens a shorter text, so the length of the text is fuel enough.
def readValue (fuel depth : Nat) (text : List Char) : Option (Json × List Char) :=
  match fuel with
  | 0 => none
  | fuel + 1 =>
    match skipLayout text with
    | 'n' :: 'u' :: 'l' :: 'l' :: rest => some (.null, rest)
    | 't' :: 'r' :: 'u' :: 'e' :: rest => some (.bool true, rest)
    | 'f' :: 'a' :: 'l' :: 's' :: 'e' :: rest => some (.bool false, rest)
    | '"' :: rest => (readString rest).map fun (read, rest) => (.string (String.ofList read), rest)
    | '[' :: rest =>
      match depth with
      | 0 => none
      | depth + 1 =>
        match skipLayout rest with
        | ']' :: rest => some (.array [], rest)
        | rest => (readItems fuel depth rest).map fun (items, rest) => (.array items, rest)
    | '{' :: rest =>
      match depth with
      | 0 => none
      | depth + 1 =>
        match skipLayout rest with
        | '}' :: rest => some (.object [], rest)
        | rest => (readMembers fuel depth rest).map fun (members, rest) => (.object members, rest)
    | text => (readNumber text).map fun (n, rest) => (.number n, rest)

def readItems (fuel depth : Nat) (text : List Char) : Option (List Json × List Char) :=
  match fuel with
  | 0 => none
  | fuel + 1 =>
    match readValue fuel depth text with
    | none => none
    | some (item, rest) =>
      match skipLayout rest with
      | ',' :: rest => (readItems fuel depth rest).map fun (items, rest) => (item :: items, rest)
      | ']' :: rest => some ([item], rest)
      | _ => none

def readMembers (fuel depth : Nat) (text : List Char) :
    Option (List (String × Json) × List Char) :=
  match fuel with
  | 0 => none
  | fuel + 1 =>
    match skipLayout text with
    | '"' :: rest =>
      match readString rest with
      | none => none
      | some (key, rest) =>
        match skipLayout rest with
        | ':' :: rest =>
          match readValue fuel depth rest with
          | none => none
          | some (value, rest) =>
            let member := (String.ofList key, value)
            match skipLayout rest with
            | ',' :: rest =>
              (readMembers fuel depth rest).map fun (members, rest) => (member :: members, rest)
            | '}' :: rest => some ([member], rest)
            | _ => none
        | _ => none
    | _ => none

end

def ofChars? (text : List Char) : Option Json :=
  match readValue (text.length + 1) depthLimit text with
  | some (value, rest) => if skipLayout rest = [] then some value else none
  | none => none

def read? (text : String) : Option Json := ofChars? text.toList

-- The same with each object's members in key order, once each.
def readCanonical? (text : String) : Option Json := (read? text).map canonical

end VisualNovel.Json
