import EntityForge.Json.Printer
import EntityForge.Json.Tree

/-!
What is wrong with a text that does not hold the value that is wanted.
-/

namespace EntityForge.Json

/-- What stands in the text instead of what was expected. -/
inductive Found where
  | null
  | flag (value : Bool)
  | number (value : Number)
  | text (value : String)
  | sequence
  | mapping
  deriving Repr, DecidableEq

inductive Expected where
  | text
  | flag
  | count
  | sequence
  | mapping
  | record (name : String)
  deriving Repr, DecidableEq

/-- A well-formed text with a value that does not fit. -/
inductive Mismatch where
  | wrongType (found : Found) (expected : Expected)
  | countOutOfRange (value : Int)
  | missingField (key : String)
  | repeatedField (key : String)
  | tooFewItems (present : Nat) (record : String) (count : Nat)
  | noDefaultForm
  deriving Repr, DecidableEq

inductive Fault where
  | broken (b : Break)
  | mismatch (m : Mismatch)
  deriving Repr, DecidableEq

def Found.description : Found → String
  | .null => "null"
  | .flag true => "boolean `true`"
  | .flag false => "boolean `false`"
  | .number (.int value) => "integer `" ++ toString value ++ "`"
  | .number (.float value) => "floating point `" ++ floatLayout.text value ++ "`"
  | .text value => "string " ++ Text.quoted value
  | .sequence => "sequence"
  | .mapping => "map"

def Expected.description : Expected → String
  | .text => "a string"
  | .flag => "a boolean"
  | .count => "u32"
  | .sequence => "a sequence"
  | .mapping => "a map"
  | .record name => "struct " ++ name

def Mismatch.message : Mismatch → String
  | .wrongType found expected =>
    "invalid type: " ++ found.description ++ ", expected " ++ expected.description
  | .countOutOfRange value => "invalid value: integer `" ++ toString value ++ "`, expected u32"
  | .missingField key => "missing field `" ++ key ++ "`"
  | .repeatedField key => "duplicate field `" ++ key ++ "`"
  | .tooFewItems present record count =>
    "invalid length " ++ toString present ++ ", expected struct " ++ record ++ " with "
      ++ toString count ++ (if count = 1 then " element" else " elements")
  | .noDefaultForm => "data did not match any variant of untagged enum DefaultDef"

def Fault.message : Fault → String
  | .broken .cutShort => "the text ends too early"
  | .broken .malformed => "the text is no JSON"
  | .mismatch m => m.message

end EntityForge.Json
