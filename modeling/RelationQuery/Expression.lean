import RelationQuery.Dialect
import RelationQuery.Expression.Lexeme
import RelationQuery.Name

/-! Expressions over columns: which are let into a statement, and how their columns are written. -/
namespace RelationQuery

namespace Expression

inductive Mode where
  | column
  | calculation
  deriving DecidableEq

namespace Mode

def columnFunctions : List String :=
  ["COUNT", "SUM", "AVG", "MIN", "MAX", "ABS", "ROUND", "CEIL", "CEILING", "FLOOR", "COALESCE",
   "IFNULL", "NULLIF", "LOWER", "UPPER", "LENGTH", "TRIM"]

def calculationFunctions : List String :=
  ["DATE", "DATETIME", "JULIANDAY", "STRFTIME", "DATEDIFF", "DATE_PART", "NOW", "IIF", "IF",
   "GREATEST", "LEAST", "MOD", "POWER", "SQRT"]

def columnKeywords : List String := ["NULL", "IS", "NOT", "AND", "OR", "DISTINCT"]

def calculationKeywords : List String :=
  ["CASE", "WHEN", "THEN", "ELSE", "END", "IN", "BETWEEN"]

def functions : Mode → List String
  | .column => columnFunctions
  | .calculation => columnFunctions ++ calculationFunctions

def keywords : Mode → List String
  | .column => columnKeywords
  | .calculation => columnKeywords ++ calculationKeywords

def maxLength : Mode → Nat
  | .column => 200
  | .calculation => 500

end Mode

inductive Fault where
  | empty
  | tooLong (limit : Nat)
  | forbidden (sequence : Forbidden)
  | lexical (fault : Lexeme.Fault)
  | unbalanced
  | function (name : List Char)
  | calculationOnly (keyword : List Char)
  | word (text : List Char) (fault : Identifier.Fault)
  deriving DecidableEq

def Fault.message : Fault → String
  | .empty => "expression is empty"
  | .tooLong limit => "exceeds " ++ toString limit ++ " characters"
  | .forbidden sequence => sequence.message
  | .lexical fault => fault.message
  | .unbalanced => "unbalanced parentheses"
  | .function name => "function \x60" ++ String.ofList name ++ "\x60 is not allowed"
  | .calculationOnly keyword =>
    "keyword \x60" ++ String.ofList keyword ++ "\x60 is only allowed in calculations"
  | .word text fault => "token \x60" ++ String.ofList text ++ "\x60 " ++ fault.message

def balanced : Nat → List Lexeme → Bool
  | depth, [] => depth == 0
  | depth, lexeme :: rest =>
    match lexeme.kind, depth with
    | .opening, depth => balanced (depth + 1) rest
    | .closing, 0 => false
    | .closing, depth + 1 => balanced depth rest
    | _, depth => balanced depth rest

/-- What an expression is written from: text to copy, and columns to quote. -/
inductive Piece where
  | copied (text : List Char)
  | column (name : List Char)
  deriving DecidableEq

/-- A word is called when the next lexeme that is not blank is an opening parenthesis. -/
def isCalled (rest : List Lexeme) : Bool :=
  (rest.find? (·.kind != .blank)).any (·.kind == .opening)

/-- The part a word plays: a call comes before a keyword, a keyword before a column. -/
def classifyWord (mode : Mode) (word : List Char) (called : Bool) : Except Fault Piece :=
  if called then
    if Text.isListed mode.functions word then .ok (.copied word) else .error (.function word)
  else if Text.isListed mode.keywords word then .ok (.copied word)
  else if Text.isListed Mode.calculationKeywords word then .error (.calculationOnly word)
  else
    match Identifier.check .column word with
    | .error fault => .error (.word word fault)
    | .ok () => .ok (.column word)

def classify (mode : Mode) : List Lexeme → Except Fault (List Piece)
  | [] => .ok []
  | lexeme :: rest => do
    let piece ←
      if lexeme.kind = .word then classifyWord mode lexeme.text (isCalled rest)
      else pure (.copied lexeme.text)
    let pieces ← classify mode rest
    pure (piece :: pieces)

end Expression

structure Expression where
  pieces : List Expression.Piece
  deriving DecidableEq

namespace Expression

def parse (mode : Mode) (source : String) : Except Fault Expression := do
  let cs := source.toList
  if (Text.trim cs).isEmpty then throw .empty
  if mode.maxLength < source.utf8ByteSize then throw (.tooLong mode.maxLength)
  if let some sequence := Forbidden.first? cs then throw (.forbidden sequence)
  let lexemes ← (Lexeme.scan cs).mapError .lexical
  if !balanced 0 lexemes then throw .unbalanced
  return ⟨← classify mode lexemes⟩

def Piece.sql (dialect : Dialect) (owner : String) : Piece → String
  | .copied text => String.ofList text
  | .column name => dialect.quote (Name.qualify owner (String.ofList name))

/-- The expression with every bare column quoted as one of `owner` and every dotted one as
written; all else, the blanks too, is copied. -/
def sql (dialect : Dialect) (owner : String) (e : Expression) : String :=
  String.join (e.pieces.map (Piece.sql dialect owner))

def validate (mode : Mode) (source : String) : Except Fault Unit :=
  (parse mode source).map fun _ => ()

def qualify (mode : Mode) (dialect : Dialect) (owner source : String) : Except Fault String :=
  (parse mode source).map (sql dialect owner)

end Expression

end RelationQuery
