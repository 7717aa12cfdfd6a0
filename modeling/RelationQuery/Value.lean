import RelationQuery.Fields
import RelationQuery.Number

/-! Values of columns and their JSON text. -/
namespace RelationQuery

inductive Value where
  | null
  | boolean (value : Bool)
  | number (value : Number)
  | text (value : String)
  | array (items : List Value)
  | object (fields : List (String × Value))
  deriving Inhabited

abbrev Row := Fields Value

namespace Value

def isNull : Value → Bool
  | .null => true
  | _ => false

/-- The value as a number of things; whatever is no unsigned integer counts none. -/
def count : Value → Nat
  | .number value => value.unsigned?.getD 0
  | _ => 0

def escapeChar (c : Char) : List Char :=
  if c = '"' then ['\\', '"']
  else if c = '\\' then ['\\', '\\']
  else if c = '\x08' then ['\\', 'b']
  else if c = '\t' then ['\\', 't']
  else if c = '\n' then ['\\', 'n']
  else if c = '\x0c' then ['\\', 'f']
  else if c = '\r' then ['\\', 'r']
  else if c.toNat < 0x20 then
    ['\\', 'u', '0', '0', Nat.digitChar (c.toNat / 16), Nat.digitChar (c.toNat % 16)]
  else [c]

def jsonText (s : String) : List Char := '"' :: (s.toList.flatMap escapeChar ++ ['"'])

mutual

/-- Compact JSON: no blanks, and only the control characters, quotes and backslashes escaped. -/
def json : Value → List Char
  | .null => "null".toList
  | .boolean value => if value then "true".toList else "false".toList
  | .number value => value.text
  | .text value => jsonText value
  | .array items => '[' :: ([','].intercalate (jsonItems items) ++ [']'])
  | .object fields => '\x7b' :: ([','].intercalate (jsonFields fields) ++ ['\x7d'])

def jsonItems : List Value → List (List Char)
  | [] => []
  | item :: rest => item.json :: jsonItems rest

def jsonFields : List (String × Value) → List (List Char)
  | [] => []
  | (name, value) :: rest => (jsonText name ++ ':' :: value.json) :: jsonFields rest

end

end Value

end RelationQuery
