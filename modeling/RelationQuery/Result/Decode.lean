import RelationQuery.Error
import RelationQuery.Value

/-! Reading values as the types a caller expects. -/
namespace RelationQuery.Decode

abbrev Decoder (α : Type) := Value → Except Error.Mapping α

def int : Decoder Int
  | .number value =>
    match value.signed? with
    | some value => .ok value
    | none => .error (.unexpectedType "a signed integer")
  | _ => .error (.unexpectedType "a signed integer")

def double : Decoder Binary64
  | .number value =>
    match value.double? with
    | some value => .ok value
    | none => .error (.unexpectedType "a number")
  | _ => .error (.unexpectedType "a number")

def text : Decoder String
  | .text value => .ok value
  | _ => .error (.unexpectedType "a text")

def nullable {α : Type} (decoder : Decoder α) : Decoder (Option α)
  | .null => .ok none
  | value => some <$> decoder value

def list {α : Type} (decoder : Decoder α) : Decoder (List α)
  | .array items => items.mapM decoder
  | _ => .error (.unexpectedType "a list")

/-- The values of the named fields, as far as an object has them. An array holds the fields in
their order and has to have them all. -/
def fields (names : List String) : Decoder (List (Option Value))
  | .object held => .ok (names.map (Fields.get? held))
  | .array items =>
    if items.length = names.length then .ok (items.map some)
    else .error (.unexpectedType "an object")
  | _ => .error (.unexpectedType "an object")

def required {α : Type} (name : String) (decoder : Decoder α) :
    Option Value → Except Error.Mapping α
  | some value => decoder value
  | none => .error (.missingField name)

def optional {α : Type} (absent : α) (decoder : Decoder α) :
    Option Value → Except Error.Mapping α
  | some value => decoder value
  | none => .ok absent

end RelationQuery.Decode
