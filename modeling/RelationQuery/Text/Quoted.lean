import RelationQuery.Text.Extending
import RelationQuery.Text.Printable

/-! The quoted form of a text in a description. -/
namespace RelationQuery.Text

/-- A character between quotes. By its code stands what a reader could not see on its own. -/
def quoteChar (c : Char) : List Char :=
  if c = '"' then ['\\', '"']
  else if c = '\\' then ['\\', '\\']
  else if c = '\t' then ['\\', 't']
  else if c = '\n' then ['\\', 'n']
  else if c = '\r' then ['\\', 'r']
  else if c = '\x00' then ['\\', '0']
  else if isExtending c || !isPrintable c then
    ['\\', 'u', '\x7b'] ++ Nat.toDigits 16 c.toNat ++ ['\x7d']
  else [c]

def quoted (s : String) : String :=
  String.ofList ('"' :: (s.toList.flatMap quoteChar ++ ['"']))

def quotedList (list : List String) : String :=
  "[" ++ String.intercalate ", " (list.map quoted) ++ "]"

end RelationQuery.Text
