import EntityForge.Text.Casing

/-!
Comparator expressions: how a query string asks for a range of numbers.

An expression is the name of an operator and its operands in angle brackets, as in `between<1,5>`.
Operands are natural numbers below `2 ^ 64`.
-/

namespace EntityForge

/-- How many operands an operator takes. -/
inductive Arity where
  | one
  | two
  | many
  deriving Repr, DecidableEq

namespace Arity

def admits : Arity → Nat → Bool
  | .one, n => n == 1
  | .two, n => n == 2
  | .many, n => n != 0

def description : Arity → String
  | .one => "1"
  | .two => "2"
  | .many => "1 or more"

end Arity

inductive Comparator where
  | eq
  | ne
  | gt
  | lt
  | gte
  | lte
  | between
  | notBetween
  | isIn
  | notIn
  deriving Repr, DecidableEq

namespace Comparator

def all : List Comparator :=
  [.eq, .ne, .gt, .lt, .gte, .lte, .between, .notBetween, .isIn, .notIn]

def name : Comparator → String
  | .eq => "eq"
  | .ne => "ne"
  | .gt => "gt"
  | .lt => "lt"
  | .gte => "gte"
  | .lte => "lte"
  | .between => "between"
  | .notBetween => "notBetween"
  | .isIn => "in"
  | .notIn => "notIn"

def arity : Comparator → Arity
  | .between | .notBetween => .two
  | .isIn | .notIn => .many
  | .eq | .ne | .gt | .lt | .gte | .lte => .one

def ofName? (name : String) : Option Comparator := all.find? fun c => c.name == name

theorem ofName?_name (c : Comparator) : ofName? c.name = some c := by
  cases c <;> decide

end Comparator

structure Comparison where
  op : Comparator
  operands : List Nat
  deriving Repr, DecidableEq

/-- What an expression should have gone on with. -/
inductive Wanted where
  | openAngle
  | digit
  | commaOrEnd
  | nothing
  deriving Repr, DecidableEq

inductive ComparisonError where
  | unknownComparator (name : String)
  | expected (wanted : Wanted)
  | numberOutOfRange (digits : String)
  | wrongArity (op : Comparator) (got : Nat)
  deriving Repr, DecidableEq

def Wanted.description : Wanted → String
  | .openAngle => "<"
  | .digit => "digit"
  | .commaOrEnd => ", or >"
  | .nothing => "end of input"

def ComparisonError.message : ComparisonError → String
  | .unknownComparator name => "Unknown comparator: " ++ name
  | .expected wanted => "Expected " ++ wanted.description
  | .numberOutOfRange digits => "Invalid number: " ++ digits
  | .wrongArity op got =>
    op.name ++ " takes " ++ op.arity.description ++ " operand(s), got " ++ toString got

namespace Comparison

open Text (isAsciiLetter isAsciiDigit)

def numberText (n : Nat) : List Char := Nat.toDigits 10 n

def chars (e : Comparison) : List Char :=
  e.op.name.toList ++ '<' :: ((e.operands.map numberText).intersperse [',']).flatten ++ ['>']

def text (e : Comparison) : String := String.ofList e.chars

def operandLimit : Nat := UInt64.size

def valueOf (digits : List Char) : Nat :=
  digits.foldl (fun acc c => acc * 10 + (c.toNat - 48)) 0

/-- The operand made of the digits read so far, which are in reverse. -/
def operand (reversed : List Char) : Except ComparisonError Nat :=
  if reversed.isEmpty then .error (.expected .digit)
  else if valueOf reversed.reverse < operandLimit then .ok (valueOf reversed.reverse)
  else .error (.numberOutOfRange (String.ofList reversed.reverse))

/-- The operands and the closing bracket; `reversed` are the digits of the operand that is being
read. -/
def operandsOf (reversed : List Char) : List Char → Except ComparisonError (List Nat)
  | [] => do
    let _ ← operand reversed
    .error (.expected .commaOrEnd)
  | c :: cs =>
    if isAsciiDigit c then operandsOf (c :: reversed) cs
    else do
      let n ← operand reversed
      if c = ',' then return n :: (← operandsOf [] cs)
      else if c = '>' then
        if cs.isEmpty then return [n] else .error (.expected .nothing)
      else .error (.expected .commaOrEnd)

def ofChars (cs : List Char) : Except ComparisonError Comparison := do
  let name := String.ofList (cs.takeWhile isAsciiLetter)
  match Comparator.ofName? name with
  | none => .error (.unknownComparator name)
  | some op =>
    match cs.dropWhile isAsciiLetter with
    | '<' :: rest =>
      let operands ← operandsOf [] rest
      if op.arity.admits operands.length then return ⟨op, operands⟩
      else .error (.wrongArity op operands.length)
    | _ => .error (.expected .openAngle)

def parse (s : String) : Except ComparisonError Comparison := ofChars s.toList

end Comparison

end EntityForge
