import EntityForge.Text.Casing

/-!
The lexemes of JSON text.

Lexing never fails. A lexeme that cannot be finished becomes a last token that says how the text broke
off, because whether that matters, and as what, depends on whether anyone reads the lexeme.
-/

namespace EntityForge.Json

/-- How text ceases to be JSON: it ended too early, or something else stands where it went on. -/
inductive Break where
  | cutShort
  | malformed
  deriving Repr, DecidableEq

/-- An unfinished lexeme, as it counts for a reader of its value and for one who passes over it. -/
structure Tear where
  reading : Break
  skipping : Break
  deriving Repr, DecidableEq

def Tear.both (b : Break) : Tear := ⟨b, b⟩

inductive Word where
  | null
  | true
  | false
  deriving Repr, DecidableEq

def Word.text : Word → List Char
  | .null => ['n', 'u', 'l', 'l']
  | .true => ['t', 'r', 'u', 'e']
  | .false => ['f', 'a', 'l', 's', 'e']

/-- Part of a string: a character, or the sixteen bits of an escape with four digits. -/
inductive Piece where
  | char (c : Char)
  | unit (bits : Nat)
  deriving Repr, DecidableEq

structure Quoted where
  pieces : List Piece
  tear : Option Tear
  deriving Repr, DecidableEq

/-- A number as written. An exponent has a sign and digits. -/
structure Numeral where
  negative : Bool
  whole : List Char
  fraction : Option (List Char)
  power : Option (Bool × List Char)
  deriving Repr, DecidableEq

inductive Mark where
  | openBrace
  | closeBrace
  | openBracket
  | closeBracket
  | comma
  | colon
  deriving Repr, DecidableEq

inductive Token where
  | mark (m : Mark)
  | word (w : Word)
  | numeral (n : Numeral)
  | quoted (q : Quoted)
  | torn (t : Tear)
  /-- A character with which no lexeme begins. -/
  | stray
  deriving Repr, DecidableEq

namespace Numeral

/-- Where a numeral that is being read has got to. -/
inductive Spot where
  | sign
  | zero
  | whole
  | point
  | fraction
  | powerMark
  | powerSign
  | power
  deriving Repr, DecidableEq

/-- The digits of a draft are in reverse. -/
structure Draft where
  spot : Spot
  numeral : Numeral
  deriving Repr, DecidableEq

open Text (isAsciiDigit)

namespace Draft

def pushWhole (d : Draft) (spot : Spot) (c : Char) : Draft :=
  ⟨spot, { d.numeral with whole := c :: d.numeral.whole }⟩

def pushFraction (d : Draft) (c : Char) : Draft :=
  ⟨.fraction, { d.numeral with fraction := some (c :: d.numeral.fraction.getD []) }⟩

def pushPower (d : Draft) (c : Char) : Draft :=
  let (negative, digits) := d.numeral.power.getD (false, [])
  ⟨.power, { d.numeral with power := some (negative, c :: digits) }⟩

def startPower (d : Draft) : Draft :=
  ⟨.powerMark, { d.numeral with power := some (false, []) }⟩

def signPower (d : Draft) (c : Char) : Draft :=
  ⟨.powerSign, { d.numeral with power := some (c == '-', []) }⟩

def isPowerMark (c : Char) : Bool := c == 'e' || c == 'E'

/-- The draft one character further, unless the numeral does not go on with it. -/
def push? (d : Draft) (c : Char) : Option Draft :=
  match d.spot with
  | .sign => if isAsciiDigit c then some (d.pushWhole (if c == '0' then .zero else .whole) c) else none
  | .zero =>
    if c == '.' then some { d with spot := .point }
    else if isPowerMark c then some d.startPower else none
  | .whole =>
    if isAsciiDigit c then some (d.pushWhole .whole c)
    else if c == '.' then some { d with spot := .point }
    else if isPowerMark c then some d.startPower else none
  | .point => if isAsciiDigit c then some (d.pushFraction c) else none
  | .fraction =>
    if isAsciiDigit c then some (d.pushFraction c)
    else if isPowerMark c then some d.startPower else none
  | .powerMark =>
    if c == '+' || c == '-' then some (d.signPower c)
    else if isAsciiDigit c then some (d.pushPower c) else none
  | .powerSign | .power => if isAsciiDigit c then some (d.pushPower c) else none

def isComplete (d : Draft) : Bool :=
  match d.spot with
  | .zero | .whole | .fraction | .power => true
  | .sign | .point | .powerMark | .powerSign => false

/-- A numeral may end before `c`. A digit after a leading zero belongs to no numeral. -/
def mayEndBefore (d : Draft) (c : Char) : Bool :=
  d.isComplete && !(d.spot == .zero && isAsciiDigit c)

def finish (d : Draft) : Numeral :=
  { d.numeral with
    whole := d.numeral.whole.reverse
    fraction := d.numeral.fraction.map List.reverse
    power := d.numeral.power.map fun p => (p.1, p.2.reverse) }

def start (negative : Bool) : Draft := ⟨.sign, ⟨negative, [], none, none⟩⟩

end Draft

end Numeral

def hexValue? (c : Char) : Option Nat :=
  if '0' ≤ c && c ≤ '9' then some (c.toNat - 48)
  else if 'a' ≤ c && c ≤ 'f' then some (c.toNat - 87)
  else if 'A' ≤ c && c ≤ 'F' then some (c.toNat - 55)
  else none

def fourHex? (a b c d : Char) : Option Nat := do
  return ((← hexValue? a) * 16 + (← hexValue? b)) * 256 + ((← hexValue? c) * 16 + (← hexValue? d))

/-- The character that a one-letter escape stands for. -/
def simpleEscape? (c : Char) : Option Char :=
  match c with
  | '"' => some '"'
  | '\\' => some '\\'
  | '/' => some '/'
  | 'b' => some '\x08'
  | 'f' => some '\x0c'
  | 'n' => some '\n'
  | 'r' => some '\r'
  | 't' => some '\t'
  | _ => none

def isBlank (c : Char) : Bool := c == ' ' || c == '\n' || c == '\t' || c == '\r'

/-- What the lexer is in the middle of. -/
inductive Scan where
  | idle
  | word (rest : List Char) (w : Word)
  | quoted (reversed : List Piece)
  | numeral (d : Numeral.Draft)
  deriving Repr, DecidableEq

/-- The tokens that a character completes between lexemes, and what it begins. -/
def Scan.start (c : Char) : List Token × Scan :=
  if isBlank c then ([], .idle)
  else match c with
    | '\x7b' => ([.mark .openBrace], .idle)
    | '\x7d' => ([.mark .closeBrace], .idle)
    | '[' => ([.mark .openBracket], .idle)
    | ']' => ([.mark .closeBracket], .idle)
    | ',' => ([.mark .comma], .idle)
    | ':' => ([.mark .colon], .idle)
    | '"' => ([], .quoted [])
    | '-' => ([], .numeral (Numeral.Draft.start true))
    | 'n' => ([], .word ['u', 'l', 'l'] .null)
    | 't' => ([], .word ['r', 'u', 'e'] .true)
    | 'f' => ([], .word ['a', 'l', 's', 'e'] .false)
    | _ =>
      match (Numeral.Draft.start false).push? c with
      | some d => ([], .numeral d)
      | none => ([.stray], .idle)

def tornString (reversed : List Piece) (b : Break) : List Token :=
  [.quoted ⟨reversed.reverse, some (.both b)⟩]

/-- An escape takes the four bytes after its `u` before it looks at them. -/
def shortHexBreak (rest : List Char) : Break :=
  if (String.ofList rest).utf8ByteSize < 4 then .cutShort else .malformed

def tokens : Scan → List Char → List Token
  | .idle, [] => []
  | .idle, c :: cs => (Scan.start c).1 ++ tokens (Scan.start c).2 cs
  | .word [] w, [] => [.word w]
  | .word (_ :: _) _, [] => [.torn (.both .cutShort)]
  | .word [] w, c :: cs => .word w :: ((Scan.start c).1 ++ tokens (Scan.start c).2 cs)
  | .word (x :: xs) w, c :: cs =>
    if c = x then tokens (.word xs w) cs else [.torn (.both .malformed)]
  | .numeral d, [] =>
    if d.isComplete then [.numeral d.finish] else [.torn ⟨.cutShort, .malformed⟩]
  | .numeral d, c :: cs =>
    match d.push? c with
    | some next => tokens (.numeral next) cs
    | none =>
      if d.mayEndBefore c then
        .numeral d.finish :: ((Scan.start c).1 ++ tokens (Scan.start c).2 cs)
      else [.torn (.both .malformed)]
  | .quoted ps, [] => tornString ps .cutShort
  | .quoted ps, '"' :: cs => .quoted ⟨ps.reverse, none⟩ :: tokens .idle cs
  | .quoted ps, ['\\'] => tornString ps .cutShort
  | .quoted ps, '\\' :: 'u' :: a :: b :: c :: d :: cs =>
    match fourHex? a b c d with
    | some bits => tokens (.quoted (.unit bits :: ps)) cs
    | none => tornString ps .malformed
  | .quoted ps, '\\' :: 'u' :: cs => tornString ps (shortHexBreak cs)
  | .quoted ps, '\\' :: e :: cs =>
    match simpleEscape? e with
    | some c => tokens (.quoted (.char c :: ps)) cs
    | none => tornString ps .malformed
  | .quoted ps, c :: cs =>
    if c.toNat < 32 then tornString ps .malformed
    else tokens (.quoted (.char c :: ps)) cs

def lex (text : String) : List Token := tokens .idle text.toList

end EntityForge.Json
