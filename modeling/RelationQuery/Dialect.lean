import RelationQuery.Text.Caseless

/-! What differs between the databases: quotes around names, literals and truth values. -/
namespace RelationQuery

/-- The SQL a statement is written in. They differ in how names are quoted, how truth values are
spelt and whether a backslash in a literal escapes. -/
inductive Dialect where
  | sqlite
  | postgresql
  | mysql
  deriving DecidableEq

namespace Dialect

def name : Dialect → String
  | .sqlite => "sqlite"
  | .postgresql => "postgresql"
  | .mysql => "mysql"

def aliases : Dialect → List String
  | .sqlite => ["sqlite", "turso", "libsql"]
  | .postgresql => ["postgresql", "postgres", "pg"]
  | .mysql => ["mysql"]

def all : List Dialect := [.sqlite, .postgresql, .mysql]

def parse? (s : String) : Option Dialect :=
  all.find? fun dialect => Text.isListed dialect.aliases s.toList

def unknownMessage : String := "unknown dialect"

def quoteMark : Dialect → Char
  | .mysql => '\x60'
  | _ => '"'

/-- Encloses a text in marks; a mark inside is written twice. -/
def enclose (mark : Char) (cs : List Char) : List Char :=
  mark :: (cs.flatMap (fun c => if c = mark then [mark, mark] else [c]) ++ [mark])

/-- One part of a name. A star stays bare, so that it still selects every column. -/
def quotePart (dialect : Dialect) (part : List Char) : List Char :=
  if part = ['*'] then part else enclose dialect.quoteMark part

def quoteChars (dialect : Dialect) (name : List Char) : List Char :=
  ['.'].intercalate ((name.splitOn '.').map dialect.quotePart)

def quote (dialect : Dialect) (name : String) : String :=
  String.ofList (dialect.quoteChars name.toList)

def escapeLiteral (dialect : Dialect) (c : Char) : List Char :=
  if c = '\'' then ['\'', '\'']
  else if c = '\\' ∧ dialect = .mysql then ['\\', '\\']
  else [c]

def literalChars (dialect : Dialect) (cs : List Char) : List Char :=
  '\'' :: (cs.flatMap dialect.escapeLiteral ++ ['\''])

def literal (dialect : Dialect) (s : String) : String :=
  String.ofList (dialect.literalChars s.toList)

def boolean : Dialect → Bool → String
  | .postgresql, true => "TRUE"
  | .postgresql, false => "FALSE"
  | _, true => "1"
  | _, false => "0"

end Dialect

end RelationQuery
