import RelationQuery.Dialect
import RelationQuery.Value

/-! Values written into a statement. -/
namespace RelationQuery

/-- A value as a literal. Arrays and objects become the text of their JSON. -/
def Value.sql (dialect : Dialect) : Value → String
  | .null => "NULL"
  | .boolean value => dialect.boolean value
  | .number value => String.ofList value.text
  | .text value => dialect.literal value
  | value => String.ofList (dialect.literalChars value.json)

end RelationQuery
