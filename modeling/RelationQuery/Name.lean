import RelationQuery.Text.Blank
import RelationQuery.Text.Caseless

/-! Dotted names, and names given together with another one to use. -/
namespace RelationQuery.Name

def isDotted (name : String) : Bool := name.toList.contains '.'

def qualify (owner name : String) : String :=
  if isDotted name then name else owner ++ "." ++ name

def last (name : String) : String :=
  String.ofList (((name.toList.splitOn '.').getLast?).getD [])

/-- The two letters of `AS`, the second also as a long s, which the Unicode case folding of an
`s` takes in. -/
def isAs : List Char → Bool
  | [a, s] => (a == 'a' || a == 'A') && (s == 's' || s == 'S' || s == '\u017f')
  | _ => false

/-- Parts `orders as big` into the name and what it is to be called. A text of any other form is
a name with the blanks around it dropped. -/
def splitLabel (raw : String) : String × Option String :=
  match Text.words raw.toList with
  | [name, as, label] =>
    if isAs as then (String.ofList name, some (String.ofList label)) else (Text.trimmed raw, none)
  | _ => (Text.trimmed raw, none)

end RelationQuery.Name
