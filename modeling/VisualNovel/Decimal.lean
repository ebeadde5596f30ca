-- Powers are the core library's, also where this is read beside a library that has its own.
attribute [instance (2000), default_instance 20000] instPowNat

namespace VisualNovel.Decimal

-- `mantissa * 2 ^ exponent`, with `narrow` set where the double below is only half as far away as
-- the double above (at a power of two).
structure Binary where
  mantissa : Nat
  exponent : Int
  narrow : Bool
deriving DecidableEq, Repr

-- The magnitude of a finite double. The sign, the infinities and NaN are told apart before.
def Binary.ofFloat (x : Float) : Binary :=
  let bits : Nat := x.toBits.toNat
  let fraction : Nat := bits % 2 ^ 52
  let biased : Nat := bits / 2 ^ 52 % 2 ^ 11
  if biased = 0 then ⟨fraction, -1074, false⟩
  else ⟨fraction + 2 ^ 52, (biased : Int) - 1075, fraction = 0 && 1 < biased⟩

def isNegative (x : Float) : Bool := 2 ^ 63 ≤ x.toBits.toNat

def Binary.isWhole (b : Binary) : Bool :=
  0 ≤ b.exponent || b.mantissa % 2 ^ b.exponent.natAbs = 0

def Binary.whole (b : Binary) : Nat :=
  if 0 ≤ b.exponent then b.mantissa * 2 ^ b.exponent.toNat
  else b.mantissa / 2 ^ b.exponent.natAbs

-- `coefficient * 10 ^ exponent`.
structure Numeral where
  coefficient : Nat
  exponent : Int
deriving DecidableEq, Repr

-- Which neighbour an exact tie goes to.
inductive Tie where
  | even
  | up
deriving DecidableEq, Repr

-- A value and the ends of its rounding interval over one denominator, which also holds the grid.
structure Window where
  low : Nat
  value : Nat
  high : Nat
  grid : Nat
  closed : Bool
deriving DecidableEq, Repr

-- Quarter units of the last binary place make both ends whole numbers for either kind of neighbour.
def Binary.window (b : Binary) (place : Int) : Window :=
  let scale := 2 ^ (b.exponent - 2).toNat * 10 ^ (-place).toNat
  { low := (4 * b.mantissa - if b.narrow then 1 else 2) * scale
    value := 4 * b.mantissa * scale
    high := (4 * b.mantissa + 2) * scale
    grid := 10 ^ place.toNat * 2 ^ (2 - b.exponent).toNat
    closed := b.mantissa % 2 = 0 }

def Window.admits (w : Window) (point : Nat) : Bool :=
  if w.closed then w.low ≤ point * w.grid && point * w.grid ≤ w.high
  else w.low < point * w.grid && point * w.grid < w.high

-- The point of the grid inside the window, if any: of the two neighbours the nearer one.
def Window.choose (w : Window) (tie : Tie) : Option Nat :=
  let below := w.value / w.grid
  let above := below + 1
  match w.admits below, w.admits above with
  | false, false => none
  | true, false => some below
  | false, true => some above
  | true, true =>
    let middle := (below + above) * w.grid
    if 2 * w.value < middle then some below
    else if middle < 2 * w.value then some above
    else match tie with
      | .up => some above
      | .even => some (if below % 2 = 0 then below else above)

-- Grids are tried from `place` downwards, coarse to fine.
def Binary.search (b : Binary) (tie : Tie) (place : Int) : Nat → Numeral
  | 0 => ⟨(b.window place).value / (b.window place).grid, place⟩
  | steps + 1 =>
    match (b.window place).choose tie with
    | some point => ⟨point, place⟩
    | none => b.search tie (place - 1) steps

-- A power of ten that is above the whole interval: log10 2 lies just below 30103 / 100000.
def Binary.ceiling (b : Binary) : Int :=
  (b.exponent + Nat.log2 b.mantissa + 2) * 30103 / 100000 + 2

-- Seventeen digits always suffice, and the first grid tried is at most four places too coarse.
def Binary.shortest (b : Binary) (tie : Tie) : Numeral :=
  if b.mantissa = 0 then ⟨0, 0⟩ else b.search tie b.ceiling 24

def shortest (x : Float) (tie : Tie) : Numeral := (Binary.ofFloat x).shortest tie

-- The exponents of the scientific form that are written positionally.
inductive Reach where
  | always
  | between (least greatest : Int)
deriving DecidableEq, Repr

-- `wholePoint` keeps `.0` on a positional whole number; `exponentPlus` writes `e+7` for `e7`.
structure Layout where
  reach : Reach
  wholePoint : Bool
  exponentPlus : Bool
  tie : Tie
  notANumber : String
  infinite : String
  minusInfinite : String
deriving DecidableEq, Repr

def Reach.covers : Reach → Int → Bool
  | .always, _ => true
  | .between least greatest, e => least ≤ e && e ≤ greatest

def digits (n : Nat) : List Char := Nat.toDigits 10 n

-- `point` digits stand before the point; missing places are zeros.
def positional (wholePoint : Bool) (ds : List Char) (point : Int) : List Char :=
  if point ≤ 0 then
    '0' :: '.' :: (List.replicate point.natAbs '0' ++ ds)
  else
    let front := point.toNat
    let whole := ds.take front ++ List.replicate (front - ds.length) '0'
    match ds.drop front with
    | [] => if wholePoint then whole ++ ['.', '0'] else whole
    | rest => whole ++ '.' :: rest

def scientific (exponentPlus : Bool) (ds : List Char) (e : Int) : List Char :=
  let lead := match ds with
    | [] => []
    | d :: [] => [d]
    | d :: rest => d :: '.' :: rest
  let sign := if e < 0 then ['-'] else if exponentPlus then ['+'] else []
  lead ++ 'e' :: (sign ++ digits e.natAbs)

def Layout.magnitude (layout : Layout) (x : Float) : List Char :=
  let d := shortest x layout.tie
  if d.coefficient = 0 then (if layout.wholePoint then ['0', '.', '0'] else ['0'])
  else
    let ds := digits d.coefficient
    let e := d.exponent + ds.length - 1
    if layout.reach.covers e then positional layout.wholePoint ds (e + 1)
    else scientific layout.exponentPlus ds e

def Layout.write (layout : Layout) (x : Float) : String :=
  if x.isNaN then layout.notANumber
  else if x.isInf then (if isNegative x then layout.minusInfinite else layout.infinite)
  else
    String.ofList (if isNegative x then '-' :: layout.magnitude x else layout.magnitude x)

end VisualNovel.Decimal
