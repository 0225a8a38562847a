/-!
Finite binary64 numbers as exact values.

A magnitude is a natural number times a power of two. Arithmetic computes the exact result first and
rounds it once, so what rounding does is visible in one function, `Magnitude.nearest`.
-/

namespace EntityForge

/-- The magnitude `mantissa · 2 ^ exponent`. -/
structure Magnitude where
  mantissa : Nat
  exponent : Int
  deriving Repr, DecidableEq

structure Binary64 where
  negative : Bool
  magnitude : Magnitude
  deriving Repr, DecidableEq

namespace Magnitude

/-- Mantissas have 53 bits. -/
def mantissaLimit : Nat := Nat.pow 2 53

/-- Below this exponent there are no magnitudes: the smallest have shorter mantissas instead. -/
def leastExponent : Int := -1074

def greatestExponent : Int := 971

def zero : Magnitude := ⟨0, leastExponent⟩

def isZero (x : Magnitude) : Bool := x.mantissa == 0

/-- The quotient rounded to the nearest natural number, a half going to the even neighbour. -/
def roundQuotient (num den : Nat) : Nat :=
  let q := num / den
  let r := num % den
  if 2 * r < den || (2 * r == den && q % 2 == 0) then q else q + 1

/-- The fraction `num / den · 2 ^ shift`. -/
def shifted (num den : Nat) (shift : Int) : Nat × Nat :=
  if 0 ≤ shift then (num * Nat.pow 2 shift.toNat, den) else (num, den * Nat.pow 2 (-shift).toNat)

/-- The exponent at which `num / den` has a mantissa of 53 bits, or the least exponent. -/
def exponentOf (num den : Nat) : Int :=
  let guess : Int := (num.log2 : Int) - den.log2 - 53
  let (n, d) := shifted num den (-guess)
  max leastExponent (if n / d < mantissaLimit then guess else guess + 1)

/-- The magnitude nearest to `num / den`, or nothing when that lies beyond the greatest one. -/
def nearest (num den : Nat) : Option Magnitude :=
  if num == 0 then some zero
  else
    let e := exponentOf num den
    let (n, d) := shifted num den (-e)
    let m := roundQuotient n d
    let rounded : Magnitude := if m == mantissaLimit then ⟨mantissaLimit / 2, e + 1⟩ else ⟨m, e⟩
    if greatestExponent < rounded.exponent then none else some rounded

def ofNat? (n : Nat) : Option Magnitude := nearest n 1

def times? (x y : Magnitude) : Option Magnitude :=
  let (n, d) := shifted (x.mantissa * y.mantissa) 1 (x.exponent + y.exponent)
  nearest n d

def over? (x y : Magnitude) : Option Magnitude :=
  let (n, d) := shifted x.mantissa y.mantissa (x.exponent - y.exponent)
  nearest n d

/-- The greatest power of ten that is a magnitude. -/
def greatestTen : Nat := 308

def tenTo (k : Nat) : Magnitude := (ofNat? (Nat.pow 10 k)).getD zero

/-- Division by `10 ^ k`, in steps no longer than the greatest power of ten; each step rounds. -/
def divideByTen (x : Magnitude) (k : Nat) : Magnitude :=
  if x.isZero then zero
  else if k ≤ greatestTen then (x.over? (tenTo k)).getD zero
  else divideByTen ((x.over? (tenTo greatestTen)).getD zero) (k - greatestTen)
termination_by k
decreasing_by simp_all [greatestTen]; omega

/-- `significand · 10 ^ exponent`: the significand is rounded, and so is its product with, or quotient
by, the power of ten. Nothing when the result lies beyond the greatest magnitude. -/
def ofDecimal? (significand : Nat) (exponent : Int) : Option Magnitude := do
  let x ← ofNat? significand
  if exponent < 0 then some (x.divideByTen (-exponent).toNat)
  else if exponent ≤ greatestTen then x.times? (tenTo exponent.toNat)
  else if x.isZero then some zero
  else none

end Magnitude

namespace Binary64

/-- The number nearest to an integer of at most 64 bits. -/
def ofInt (n : Int) : Binary64 :=
  ⟨decide (n < 0), (Magnitude.ofNat? n.natAbs).getD Magnitude.zero⟩

end Binary64

end EntityForge
