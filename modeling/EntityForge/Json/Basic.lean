import EntityForge.Binary64.Shortest
import EntityForge.Entries

/-!
JSON values. Members keep the order in which they came, and a number keeps whether it was written as
an integer, because both show again when a value is printed.
-/

namespace EntityForge

namespace Json

/-- An integer of 64 bits, signed or not, or anything else as a binary64 number. -/
inductive Number where
  | int (value : Int)
  | float (value : Binary64)
  deriving Repr, DecidableEq

end Json

inductive Json where
  | null
  | bool (value : Bool)
  | number (value : Json.Number)
  | string (value : String)
  | array (items : List Json)
  | object (members : List (String × Json))
  deriving Repr

namespace Json

/-- A whole number is marked by `.0`; an exponent comes in below `0.00001` and from `1e+16` on. -/
def floatLayout : FloatLayout := ⟨.even, some (-4, 16), true⟩

def Number.text : Number → String
  | .int value => toString value
  | .float value => floatLayout.text value

def ofInt (n : Int) : Json := .number (.int n)

/-- The value under a key of an object. -/
def get? (json : Json) (key : String) : Option Json :=
  match json with
  | .object members => Entries.get? members key
  | _ => none

def member? (json : Json) : List String → Option Json
  | [] => some json
  | key :: keys => (json.get? key).bind fun value => value.member? keys

def keys : Json → List String
  | .object members => Entries.keys members
  | _ => []

end Json

end EntityForge
