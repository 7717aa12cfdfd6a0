import RelationQuery.Text.Blank
import RelationQuery.Text.Caseless

/-! Which names of tables and columns may enter a statement. -/
namespace RelationQuery

inductive Forbidden where
  | separator
  | quoteMark
  | comment
  | logical
  deriving DecidableEq

namespace Forbidden

def message : Forbidden → String
  | .separator => "contains a statement separator"
  | .quoteMark => "contains a quote character"
  | .comment => "contains a comment marker"
  | .logical => "contains a dialect logical operator"

def sequences : List (String × Forbidden) :=
  [(";", .separator), ("'", .quoteMark), ("\"", .quoteMark), ("\x60", .quoteMark),
   ("--", .comment), ("/*", .comment), ("*/", .comment), ("||", .logical), ("&&", .logical)]

def first? (cs : List Char) : Option Forbidden :=
  sequences.findSome? fun (part, fault) => if Text.occurs part.toList cs then some fault else none

end Forbidden

namespace Identifier

inductive Kind where
  | column
  | table
  deriving DecidableEq

inductive Fault where
  | empty
  | forbidden (sequence : Forbidden)
  | shape (kind : Kind)
  | tooLong
  | keyword
  | logical
  | procedure
  deriving DecidableEq

def Fault.message : Fault → String
  | .empty => "identifier is empty"
  | .forbidden sequence => sequence.message
  | .shape .column =>
    "must be letters, digits and underscores, optionally qualified once with a dot"
  | .shape .table => "must be letters, digits and underscores without a dot"
  | .tooLong => "exceeds 64 characters"
  | .keyword => "is a reserved SQL keyword"
  | .logical => "is a logical operator"
  | .procedure => "uses a stored-procedure prefix"

def Fault.describe (name : String) (fault : Fault) : String :=
  "Invalid identifier \x60" ++ name ++ "\x60: " ++ fault.message

def keywords : List String :=
  ["SELECT", "INSERT", "UPDATE", "DELETE", "DROP", "ALTER", "CREATE", "TRUNCATE", "UNION",
   "EXEC", "EXECUTE", "GRANT", "REVOKE", "MERGE", "CALL", "DECLARE", "SHUTDOWN", "ATTACH",
   "DETACH", "PRAGMA"]

def logicalOperators : List String := ["OR", "AND"]

def procedureMarks : List String := ["xp_", "sp_"]

def isStart (c : Char) : Bool := c.isAlpha || c == '_'

def isPart (c : Char) : Bool := c.isAlphanum || c == '_'

def isWord : List Char → Bool
  | [] => false
  | c :: cs => isStart c && cs.all isPart

def parts (name : List Char) : List (List Char) := name.splitOn '.'

def isShaped (kind : Kind) (name : List Char) : Bool :=
  match kind, parts name with
  | _, [word] => isWord word
  | .column, [qualifier, word] => isWord qualifier && isWord word
  | _, _ => false

/-- A shaped part is of ASCII, so that its characters are its bytes. -/
def checkPart (part : List Char) : Except Fault Unit :=
  if 64 < part.length then .error .tooLong
  else if Text.isListed keywords part then .error .keyword
  else if Text.isListed logicalOperators part then .error .logical
  else if procedureMarks.any fun mark => mark.toList.isPrefixOf (part.map Char.toLower) then
    .error .procedure
  else .ok ()

/-- Settles whether a name is fit to be quoted into a statement, and if not what is wrong first. -/
def check (kind : Kind) (name : List Char) : Except Fault Unit := do
  if name.isEmpty then throw .empty
  if let some sequence := Forbidden.first? name then throw (.forbidden sequence)
  if !isShaped kind name then throw (.shape kind)
  (parts name).forM checkPart

end Identifier

end RelationQuery
