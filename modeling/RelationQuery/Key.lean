import RelationQuery.Config
import RelationQuery.Name
import RelationQuery.Value

/-! Key columns as they are read from rows, and the texts by which keys are compared. -/
namespace RelationQuery

structure KeyName where
  hidden : String
  plain : Option String
  deriving DecidableEq

namespace KeyName

/-- A qualified key of the current table may belong to a joined one; only its reserved name is
trusted. -/
def own (config : Config) (key : String) : KeyName :=
  { hidden := config.hiddenKey key
    plain := if Name.isDotted key then none else some key }

/-- Keys of fetched rows always belong to the table fetched from. -/
def foreign (config : Config) (key : String) : KeyName :=
  { hidden := config.hiddenColumn (Name.last key), plain := some (Name.last key) }

def read (name : KeyName) (row : Row) : Option Value :=
  let value := Fields.get? row name.hidden <|> name.plain.bind (Fields.get? row)
  value.filter (!·.isNull)

def readAll (names : List KeyName) (row : Row) : Option (List Value) := names.mapM (·.read row)

end KeyName

namespace Key

def integralBound : Nat := 9000000000000000

def numberText : Number → List Char
  | .integer value _ => (toString value).toList
  | .float value =>
    match value.integral? with
    | some integer =>
      if integer.natAbs < integralBound then (toString integer).toList else value.text
    | none => value.text

def partText : Value → List Char
  | .text value => value.toList
  | .boolean value => [if value then '1' else '0']
  | .number value => numberText value
  | value => value.json

/-- The text of a key. Integers, doubles without a fraction and texts spelt alike are the same
key; a control character parts the columns. -/
def text (values : List Value) : String :=
  String.ofList (['\x1f'].intercalate (values.map partText))

end Key

end RelationQuery
