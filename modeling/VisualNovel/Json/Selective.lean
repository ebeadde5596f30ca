import VisualNovel.Json.Reader

namespace VisualNovel.Json

def skipString : List Char → Option (List Char)
  | [] => none
  | '"' :: rest => some rest
  | '\\' :: 'u' :: a :: b :: c :: d :: rest =>
    if (hexWord? a b c d).isSome then skipString rest else none
  | '\\' :: c :: rest => if (shortEscape? c).isSome then skipString rest else none
  | c :: rest => if c.toNat < 0x20 || c = '\\' then none else skipString rest
termination_by text => text.length

def skipDigits : List Char → Option (List Char)
  | [] => none
  | c :: rest => if c.isDigit then some (rest.dropWhile Char.isDigit) else none

def skipSign : List Char → List Char
  | '+' :: rest => rest
  | '-' :: rest => rest
  | text => text

def skipExponent : List Char → Option (List Char)
  | 'e' :: rest => skipDigits (skipSign rest)
  | 'E' :: rest => skipDigits (skipSign rest)
  | text => some text

def skipFraction : List Char → Option (List Char)
  | '.' :: rest => (skipDigits rest).bind skipExponent
  | text => skipExponent text

def startsWithDigit : List Char → Bool
  | c :: _ => c.isDigit
  | [] => false

def skipMagnitude : List Char → Option (List Char)
  | '0' :: rest => if startsWithDigit rest then none else skipFraction rest
  | text => (skipDigits text).bind skipFraction

def skipNumber : List Char → Option (List Char)
  | '-' :: rest => skipMagnitude rest
  | text => skipMagnitude text

mutual

def skipValue (fuel : Nat) (text : List Char) : Option (List Char) :=
  match fuel with
  | 0 => none
  | fuel + 1 =>
    match skipLayout text with
    | 'n' :: 'u' :: 'l' :: 'l' :: rest => some rest
    | 't' :: 'r' :: 'u' :: 'e' :: rest => some rest
    | 'f' :: 'a' :: 'l' :: 's' :: 'e' :: rest => some rest
    | '"' :: rest => skipString rest
    | '[' :: rest =>
      match skipLayout rest with
      | ']' :: rest => some rest
      | rest => skipItems fuel rest
    | '{' :: rest =>
      match skipLayout rest with
      | '}' :: rest => some rest
      | rest => skipMembers fuel rest
    | text => skipNumber text

def skipItems (fuel : Nat) (text : List Char) : Option (List Char) :=
  match fuel with
  | 0 => none
  | fuel + 1 =>
    match (skipValue fuel text).map skipLayout with
    | some (',' :: rest) => skipItems fuel rest
    | some (']' :: rest) => some rest
    | _ => none

def skipMembers (fuel : Nat) (text : List Char) : Option (List Char) :=
  match fuel with
  | 0 => none
  | fuel + 1 =>
    match skipLayout text with
    | '"' :: rest =>
      match (skipString rest).map skipLayout with
      | some (':' :: rest) =>
        match (skipValue fuel rest).map skipLayout with
        | some (',' :: rest) => skipMembers fuel rest
        | some ('}' :: rest) => some rest
        | _ => none
      | _ => none
    | _ => none

end

-- What is asked of a text: all of it, or of a record the named members.
inductive Wanted where
  | whole
  | members (named : List (String × Wanted))

mutual

-- Members that are not wanted are left out.
def readWanted (fuel depth : Nat) (text : List Char) : Wanted → Option (Json × List Char)
  | .whole => readValue fuel depth text
  | .members named =>
    match fuel, depth, skipLayout text with
    | fuel + 1, depth + 1, '{' :: rest =>
      match skipLayout rest with
      | '}' :: rest => some (.object [], rest)
      | rest => (readNamed fuel depth rest named).map fun (members, rest) => (.object members, rest)
    | fuel + 1, depth + 1, '[' :: rest =>
      match skipLayout rest with
      | ']' :: rest => some (.array [], rest)
      | rest => (readPlaced fuel depth rest named).map fun (items, rest) => (.array items, rest)
    | _, _, _ => readValue fuel depth text
termination_by (fuel, 0)

-- The items of a list that stand for the named members in order.
def readPlaced (fuel depth : Nat) (text : List Char) (named : List (String × Wanted)) :
    Option (List Json × List Char) :=
  match fuel with
  | 0 => none
  | fuel + 1 =>
    let wanted := match named with
      | [] => .whole
      | first :: _ => first.2
    match readWanted fuel depth text wanted with
    | none => none
    | some (item, rest) =>
      match skipLayout rest with
      | ',' :: rest =>
        (readPlaced fuel depth rest named.tail).map fun (items, rest) => (item :: items, rest)
      | ']' :: rest => some ([item], rest)
      | _ => none
termination_by (fuel, 0)

def readNamed (fuel depth : Nat) (text : List Char) (named : List (String × Wanted)) :
    Option (List (String × Json) × List Char) :=
  match fuel with
  | 0 => none
  | fuel + 1 =>
    match skipLayout text with
    | '"' :: rest =>
      match readString rest with
      | none => none
      | some (key, rest) =>
        match skipLayout rest with
        | ':' :: rest =>
          let key := String.ofList key
          match readNamedValue fuel depth key rest (Bindings.find? key named) with
          | none => none
          | some (member, rest) =>
            match skipLayout rest with
            | ',' :: rest =>
              (readNamed fuel depth rest named).map fun (members, rest) => (member ++ members, rest)
            | '}' :: rest => some (member, rest)
            | _ => none
        | _ => none
    | _ => none
termination_by (fuel, 0)

def readNamedValue (fuel depth : Nat) (key : String) (text : List Char) (wanted : Option Wanted) :
    Option (List (String × Json) × List Char) :=
  match wanted with
  | none => (skipValue fuel text).map fun rest => ([], rest)
  | some wanted =>
    (readWanted fuel depth text wanted).map fun (value, rest) => ([(key, value)], rest)
termination_by (fuel, 1)

end

-- A text that can be read as a whole is. Otherwise what is not wanted only needs the right form.
def readFor? (wanted : Wanted) (text : String) : Option Json :=
  match read? text with
  | some value => some value
  | none =>
    match readWanted (text.toList.length + 1) depthLimit text.toList wanted with
    | some (value, rest) => if skipLayout rest = [] then some value else none
    | none => none

-- Members that are wanted as a whole.
def Wanted.ofNames (names : List String) : Wanted :=
  .members (names.map fun name => (name, .whole))

end VisualNovel.Json
