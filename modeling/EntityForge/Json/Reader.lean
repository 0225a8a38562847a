import EntityForge.Json.Fault

/-!
Values read from the tree of a text.

A reader goes from left to right and stops at the first fault it meets. Passing over a value asks less
of it than reading it does: numbers of any size, lone surrogates and nesting of any depth are passed
over.
-/

namespace EntityForge.Json

abbrev Read (α : Type) := Except Fault α

def malformed {α : Type} : Read α := .error (.broken .malformed)

def mismatch {α : Type} (m : Mismatch) : Read α := .error (.mismatch m)

namespace Numeral

/-- Digits are taken into a significand of 64 bits as long as they fit; `dropped` counts the digits
before the point that did not. -/
structure Significand where
  value : Nat
  dropped : Nat
  deriving Repr, DecidableEq

def digit (c : Char) : Nat := c.toNat - 48

def fits (n : Nat) : Bool := decide (n < UInt64.size)

def Significand.pushWhole (s : Significand) (c : Char) : Significand :=
  if s.dropped == 0 && fits (s.value * 10 + digit c) then ⟨s.value * 10 + digit c, 0⟩
  else ⟨s.value, s.dropped + 1⟩

def wholeSignificand (n : Numeral) : Significand := n.whole.foldl Significand.pushWhole ⟨0, 0⟩

/-- Digits after the point go into the same significand until the first one that does not fit; the
second component counts them. -/
def takeFraction (value : Nat) : List Char → Nat × Nat
  | [] => (value, 0)
  | c :: cs =>
    if fits (value * 10 + digit c) then
      let (v, count) := takeFraction (value * 10 + digit c) cs
      (v, count + 1)
    else (value, 0)

def powerValue (n : Numeral) : Int :=
  match n.power with
  | none => 0
  | some (negative, digits) =>
    let magnitude : Nat := digits.foldl (fun acc c => acc * 10 + digit c) 0
    if negative then -magnitude else magnitude

def float? (n : Numeral) : Option Binary64 :=
  let whole := n.wholeSignificand
  let (significand, places) := takeFraction whole.value (n.fraction.getD [])
  (Magnitude.ofDecimal? significand (whole.dropped - places + n.powerValue)).map (⟨n.negative, ·⟩)

/-- An integer of 64 bits when no point, power or sign before a zero says otherwise. -/
def int? (n : Numeral) : Option Int :=
  let whole := n.wholeSignificand
  if n.fraction.isSome || n.power.isSome || whole.dropped != 0 then none
  else if !n.negative then some whole.value
  else if 0 < whole.value && whole.value ≤ UInt64.size / 2 then some (-whole.value)
  else none

/-- Nothing when the numeral lies beyond the greatest number. -/
def value? (n : Numeral) : Option Number :=
  match n.int? with
  | some i => some (.int i)
  | none => n.float?.map .float

def read (n : Numeral) : Read Number :=
  match n.value? with
  | some result => .ok result
  | none => malformed

end Numeral

namespace Quoted

def isHighSurrogate (bits : Nat) : Bool := 0xD800 ≤ bits && bits < 0xDC00

def isLowSurrogate (bits : Nat) : Bool := 0xDC00 ≤ bits && bits < 0xE000

def pairOf (high low : Nat) : Char :=
  Char.ofNat ((high - 0xD800) * 1024 + (low - 0xDC00) + 0x10000)

/-- The characters; two escapes may make up one. -/
def readPieces (tear : Option Tear) : List Piece → Read (List Char)
  | [] =>
    match tear with
    | none => .ok []
    | some t => .error (.broken t.reading)
  | .char c :: ps => do return c :: (← readPieces tear ps)
  | .unit high :: .unit low :: ps =>
    if isHighSurrogate high then
      if isLowSurrogate low then do return pairOf high low :: (← readPieces tear ps)
      else malformed
    else if isLowSurrogate high then malformed
    else do return Char.ofNat high :: (← readPieces tear (.unit low :: ps))
  | .unit bits :: ps =>
    if isLowSurrogate bits then malformed
    else if isHighSurrogate bits then
      match ps, tear with
      | [], some t => .error (.broken t.reading)
      | _, _ => malformed
    else do return Char.ofNat bits :: (← readPieces tear ps)

def read (q : Quoted) : Read String := do return String.ofList (← readPieces q.tear q.pieces)

end Quoted

/-- The end of an array or object. -/
def checkEnd : Option Tear → Read Unit
  | none => .ok ()
  | some t => .error (.broken t.reading)

namespace Node

/-- Passes over a value. -/
def skip (node : Node) : Read Unit :=
  match node.tear? with
  | none => .ok ()
  | some t => .error (.broken t.skipping)

/-- How many containers may be open at once. -/
def depthLimit : Nat := 127

/-- A value is looked at no further than it takes to say what it is. -/
def found : Node → Read Found
  | .word .null => .ok .null
  | .word .true => .ok (.flag true)
  | .word .false => .ok (.flag false)
  | .numeral n => do return .number (← n.read)
  | .text q => do return .text (← q.read)
  | .array .. => .ok .sequence
  | .object .. => .ok .mapping
  | .torn t => .error (.broken t.reading)

def refuse {α : Type} (node : Node) (expected : Expected) : Read α := do
  mismatch (.wrongType (← node.found) expected)

def readText : Node → Read String
  | .text q => q.read
  | node => node.refuse .text

def readFlag : Node → Read Bool
  | .word .true => .ok true
  | .word .false => .ok false
  | node => node.refuse .flag

/-- A count has 32 bits. -/
def readCount (node : Node) : Read Nat :=
  match node with
  | .numeral n => do
    match ← n.read with
    | .int value =>
      if 0 ≤ value ∧ value < UInt32.size then .ok value.toNat else mismatch (.countOutOfRange value)
    | .float value => mismatch (.wrongType (.number (.float value)) .count)
  | node => node.refuse .count

/-- Null is as good as nothing. -/
def readOptional {α : Type} (read : Node → Read α) : Node → Read (Option α)
  | .word .null => .ok none
  | node => do return some (← read node)

def readItems {α : Type} (read : Node → Read α) : List Node → Read (List α)
  | [] => .ok []
  | item :: items => do
    let first ← read item
    return first :: (← readItems read items)

/-- `room` containers may still be opened, this one included. -/
def readList {α : Type} (read : Nat → Node → Read α) (room : Nat) (node : Node) : Read (List α) :=
  match node with
  | .array items tear =>
    match room with
    | 0 => malformed
    | inner + 1 => do
      let values ← readItems (read inner) items
      checkEnd tear
      return values
  | node => node.refuse .sequence

def readMembers {α : Type} (read : Node → Read α) : List (Quoted × Node) → Read (List (String × α))
  | [] => .ok []
  | (key, value) :: members => do
    let name ← key.read
    let first ← read value
    return (name, first) :: (← readMembers read members)

def readEntries {α : Type} (read : Nat → Node → Read α) (room : Nat) (node : Node) :
    Read (Entries α) :=
  match node with
  | .object members tear =>
    match room with
    | 0 => malformed
    | inner + 1 => do
      let pairs ← readMembers (read inner) members
      checkEnd tear
      return Entries.ofList pairs
  | node => node.refuse .mapping

mutual

def readJson (room : Nat) : Node → Read Json
  | .word .null => .ok .null
  | .word .true => .ok (.bool true)
  | .word .false => .ok (.bool false)
  | .numeral n => do return .number (← n.read)
  | .text q => do return .string (← q.read)
  | .array items tear =>
    match room with
    | 0 => malformed
    | inner + 1 => do
      let values ← readJsonItems inner items
      checkEnd tear
      return .array values
  | .object members tear =>
    match room with
    | 0 => malformed
    | inner + 1 => do
      let pairs ← readJsonMembers inner members
      checkEnd tear
      return .object (Entries.ofList pairs)
  | .torn t => .error (.broken t.reading)

def readJsonItems (room : Nat) : List Node → Read (List Json)
  | [] => .ok []
  | item :: items => do
    let first ← readJson room item
    return first :: (← readJsonItems room items)

def readJsonMembers (room : Nat) : List (Quoted × Node) → Read (List (String × Json))
  | [] => .ok []
  | (key, value) :: members => do
    let name ← key.read
    let first ← readJson room value
    return (name, first) :: (← readJsonMembers room members)

end

end Node

/-- Reads a whole text; nothing but blanks may follow the value. -/
def readText {α : Type} (read : Nat → Node → Read α) (text : String) : Read α := do
  let (node, rest) := Node.ofText text
  let value ← read Node.depthLimit node
  if rest.isEmpty then return value else malformed

def parse (text : String) : Read Json := readText Node.readJson text

end EntityForge.Json
