import EntityForge.Binary64

/-!
The decimal text of a binary64 number.

The digits are the fewest that read back as the number, and of those the nearest to it. Where the
point stands, and when an exponent replaces zeros, is left to a layout.
-/

namespace EntityForge

/-- Which neighbour a value exactly halfway between two decimals goes to. -/
inductive Tie where
  | even
  | up
  deriving Repr, DecidableEq

/-- Digits `d₁ d₂ …` with the point before the digit after `point` many: `0.d₁d₂… · 10 ^ point`. -/
structure Decimal where
  digits : List Char
  point : Int
  deriving Repr, DecidableEq

def digitsOf (n : Nat) : List Char := Nat.toDigits 10 n

/-- The least `p` for which a positive `num / den` is below `10 ^ p`. -/
def pointOf (num den : Nat) : Int :=
  if den ≤ num then (digitsOf (num / den)).length
  else 1 - ((digitsOf ((den - 1) / num)).length : Int)

/-- The reals that round to a magnitude, as numerators over one denominator; the ends belong to them
when `closed`. -/
structure Interval where
  low : Nat
  value : Nat
  high : Nat
  den : Nat
  closed : Bool

/-- Half the gap to the neighbours on either side. Just above a power of two the gap below is half the
gap above. -/
def Magnitude.interval (x : Magnitude) : Interval :=
  let narrow := x.mantissa == Magnitude.mantissaLimit / 2 && decide (Magnitude.leastExponent < x.exponent)
  let m := 4 * x.mantissa
  let factor := Nat.pow 2 (x.exponent - 2).toNat
  { low := (m - if narrow then 1 else 2) * factor
    value := m * factor
    high := (m + 2) * factor
    den := Nat.pow 2 (2 - x.exponent).toNat
    closed := x.mantissa % 2 == 0 }

/-- The decimal of `count` digits that lies in the interval, of two the nearer. -/
def Interval.decimal? (i : Interval) (tie : Tie) (count : Nat) : Option Decimal :=
  let point := pointOf i.value i.den
  let unit := point - count
  let up := Nat.pow 10 (-unit).toNat
  let den := i.den * Nat.pow 10 unit.toNat
  let below := i.value * up / den
  let fitsBelow := if i.closed then decide (i.low * up ≤ below * den)
    else decide (i.low * up < below * den)
  let fitsAbove := if i.closed then decide ((below + 1) * den ≤ i.high * up)
    else decide ((below + 1) * den < i.high * up)
  let rest := 2 * (i.value * up - below * den)
  let nearerAbove := decide (den < rest)
    || (rest == den && (tie == .up || below % 2 == 1))
  let chosen :=
    if fitsBelow && fitsAbove then some (if nearerAbove then below + 1 else below)
    else if fitsBelow then some below
    else if fitsAbove then some (below + 1)
    else none
  chosen.map fun d =>
    let ds := digitsOf d
    ⟨(ds.reverse.dropWhile (· == '0')).reverse, point + ds.length - count⟩

/-- Seventeen digits always suffice. -/
def Magnitude.shortest (x : Magnitude) (tie : Tie) : Decimal :=
  ((List.range' 1 17).findSome? (x.interval.decimal? tie)).getD ⟨['0'], 1⟩

/-- How a format writes a number: the points between which no exponent is used, if the format uses
exponents at all, and whether a whole number shows that it is not an integer. -/
structure FloatLayout where
  tie : Tie
  plainPoints : Option (Int × Int)
  marksWhole : Bool

namespace FloatLayout

def zeros (n : Nat) : List Char := List.replicate n '0'

def plain (layout : FloatLayout) (d : Decimal) : List Char :=
  let size := d.digits.length
  if d.point ≤ 0 then ['0', '.'] ++ zeros (-d.point).toNat ++ d.digits
  else if (size : Int) ≤ d.point then
    d.digits ++ zeros (d.point - size).toNat ++ (if layout.marksWhole then ['.', '0'] else [])
  else d.digits.take d.point.toNat ++ ['.'] ++ d.digits.drop d.point.toNat

/-- One digit before the point, and a signed exponent. -/
def scientific (d : Decimal) : List Char :=
  let power := d.point - 1
  d.digits.take 1 ++ (if d.digits.length ≤ 1 then [] else '.' :: d.digits.drop 1)
    ++ ['e', if power < 0 then '-' else '+'] ++ digitsOf power.natAbs

def isPlain (layout : FloatLayout) (point : Int) : Bool :=
  match layout.plainPoints with
  | none => true
  | some (least, most) => decide (least ≤ point) && decide (point ≤ most)

def magnitudeText (layout : FloatLayout) (x : Magnitude) : List Char :=
  if x.isZero then layout.plain ⟨['0'], 1⟩
  else
    let d := x.shortest layout.tie
    if layout.isPlain d.point then layout.plain d else scientific d

def text (layout : FloatLayout) (x : Binary64) : String :=
  String.ofList ((if x.negative then ['-'] else []) ++ layout.magnitudeText x.magnitude)

end FloatLayout

end EntityForge
