import EntityForge.Json.Basic
import EntityForge.Text.Quoted

/-!
The two texts of a JSON value: one without any blank, and one with a line for every item and member.
-/

namespace EntityForge.Json

open Text (hexDigit)

/-- Quotes, backslashes and control characters are escaped; every other character stands for itself. -/
def escape (c : Char) : List Char :=
  match c with
  | '"' => ['\\', '"']
  | '\\' => ['\\', '\\']
  | '\x08' => ['\\', 'b']
  | '\x0c' => ['\\', 'f']
  | '\n' => ['\\', 'n']
  | '\r' => ['\\', 'r']
  | '\t' => ['\\', 't']
  | _ =>
    if c.toNat < 32 then ['\\', 'u', '0', '0', hexDigit (c.toNat / 16), hexDigit (c.toNat % 16)]
    else [c]

def quote (s : String) : List Char := '"' :: (s.toList.flatMap escape ++ ['"'])

mutual

def compact : Json → List Char
  | .null => ['n', 'u', 'l', 'l']
  | .bool true => ['t', 'r', 'u', 'e']
  | .bool false => ['f', 'a', 'l', 's', 'e']
  | .number n => n.text.toList
  | .string s => quote s
  | .array items => '[' :: (compactItems items ++ [']'])
  | .object members => '\x7b' :: (compactMembers members ++ ['\x7d'])

def compactItems : List Json → List Char
  | [] => []
  | [item] => compact item
  | item :: items => compact item ++ ',' :: compactItems items

def compactMembers : List (String × Json) → List Char
  | [] => []
  | [(key, value)] => quote key ++ ':' :: compact value
  | (key, value) :: members => quote key ++ ':' :: (compact value ++ ',' :: compactMembers members)

end

def indent (depth : Nat) : List Char := List.replicate (2 * depth) ' '

mutual

def pretty (depth : Nat) : Json → List Char
  | .array (item :: items) =>
    '[' :: '\n' :: (prettyItems (depth + 1) (item :: items) ++ '\n' :: (indent depth ++ [']']))
  | .object (member :: members) =>
    '\x7b' :: '\n' :: (prettyMembers (depth + 1) (member :: members)
      ++ '\n' :: (indent depth ++ ['\x7d']))
  | .array [] => ['[', ']']
  | .object [] => ['\x7b', '\x7d']
  | .null => compact .null
  | .bool value => compact (.bool value)
  | .number n => compact (.number n)
  | .string s => compact (.string s)

def prettyItems (depth : Nat) : List Json → List Char
  | [] => []
  | [item] => indent depth ++ pretty depth item
  | item :: items => indent depth ++ (pretty depth item ++ ',' :: '\n' :: prettyItems depth items)

def prettyMembers (depth : Nat) : List (String × Json) → List Char
  | [] => []
  | [(key, value)] => indent depth ++ (quote key ++ ':' :: ' ' :: pretty depth value)
  | (key, value) :: members =>
    indent depth ++ (quote key ++ ':' :: ' ' :: (pretty depth value
      ++ ',' :: '\n' :: prettyMembers depth members))

end

def compactText (json : Json) : String := String.ofList json.compact

def prettyText (json : Json) : String := String.ofList (json.pretty 0)

end EntityForge.Json
