import RelationQuery.Load
import RelationQuery.Result.Decode
import RelationQuery.Result.Record
import RelationQuery.Result.Shape

/-! What a caller gets back: rows, records of their fields, or values of its own types. -/
namespace RelationQuery

structure Result where
  rows : List Row
  total : Option Nat

namespace Result

/-- Rows as the database and the loading left them, less the reserved columns. -/
def ofRows (config : Config) (rows : List Row) (total : Option Nat) : Result :=
  let shape : Shape := {
    reserved := some config.correlationPrefix
    cap := some config.maxResultDepth }
  { rows := rows.map shape.row, total }

/-- The rows as records, shaped once more to any depth. -/
def records (result : Result) : List Record :=
  result.rows.map fun row => Field.ofFields (({} : Shape).row row)

def decode {α : Type} (decoder : Decode.Decoder α) (result : Result) : Except Error (List α) :=
  (result.rows.mapM fun row => decoder (.object row)).mapError .mapping

end Result

def Query.get (driver : Driver) (q : Query) : Except Error Result × List String :=
  let (outcome, sent) := (q.run driver).exec []
  (outcome.map fun (rows, total) => Result.ofRows q.config rows total, sent)

end RelationQuery
