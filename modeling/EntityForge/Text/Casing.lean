import EntityForge.Text.CaseTable

/-!
Lower and upper case of any character.

A character may turn into several, so a mapping gives a list. Case is mapped one character at a time:
the place of a character in its word never matters.
-/

namespace EntityForge.Text

def isAsciiLower (c : Char) : Bool := 'a' ≤ c && c ≤ 'z'

def isAsciiUpper (c : Char) : Bool := 'A' ≤ c && c ≤ 'Z'

def isAsciiDigit (c : Char) : Bool := '0' ≤ c && c ≤ '9'

def isAsciiLetter (c : Char) : Bool := isAsciiLower c || isAsciiUpper c

/-- The table's answer for a character beyond ASCII; a character no entry names is its own image. -/
def mapBeyondAscii (runs : List CaseRun) (expansions : List (Nat × List Nat)) (c : Char) :
    List Char :=
  match expansions.lookup c.toNat with
  | some codes => codes.map Char.ofNat
  | none =>
    match runs.find? (·.covers c.toNat) with
    | some run => [Char.ofNat (run.apply c.toNat)]
    | none => [c]

def lowerChar (c : Char) : List Char :=
  if c.toNat < 128 then
    [if isAsciiUpper c then Char.ofNat (c.toNat + 32) else c]
  else
    mapBeyondAscii lowerRuns lowerExpansions c

def upperChar (c : Char) : List Char :=
  if c.toNat < 128 then
    [if isAsciiLower c then Char.ofNat (c.toNat - 32) else c]
  else
    mapBeyondAscii upperRuns upperExpansions c

def upper (cs : List Char) : List Char := cs.flatMap upperChar

def lower (cs : List Char) : List Char := cs.flatMap lowerChar

/-- Maps the first character and leaves the others alone. -/
def mapFirst (f : Char → List Char) : List Char → List Char
  | [] => []
  | c :: cs => f c ++ cs

theorem upper_append (a b : List Char) : upper (a ++ b) = upper a ++ upper b := by
  simp [upper]

end EntityForge.Text
