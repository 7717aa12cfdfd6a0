import RelationQuery.Value

/-! Values with named fields, read by accessors. -/
namespace RelationQuery

inductive Field where
  | null
  | boolean (value : Bool)
  | number (value : Number)
  | text (value : String)
  | list (items : List Field)
  | record (fields : List (String × Field))

abbrev Record := Fields Field

namespace Field

mutual

def ofValue : Value → Field
  | .null => .null
  | .boolean value => .boolean value
  | .number value => .number value
  | .text value => .text value
  | .array items => .list (ofItems items)
  | .object fields => .record (ofFields fields)

def ofItems : List Value → List Field
  | [] => []
  | item :: rest => ofValue item :: ofItems rest

def ofFields : List (String × Value) → List (String × Field)
  | [] => []
  | (name, value) :: rest => (name, ofValue value) :: ofFields rest

end

theorem ofFields_eq_map (fields : List (String × Value)) :
    ofFields fields = fields.map fun field => (field.1, ofValue field.2) := by
  induction fields with
  | nil => simp [ofFields]
  | cons field rest ih => simp [ofFields, ih]

def isNull : Field → Bool
  | .null => true
  | _ => false

/-- A number is true unless it is the integer zero; a float is neither. -/
def bool? : Field → Option Bool
  | .boolean value => some value
  | .number value => value.signed?.map (· != 0)
  | _ => none

def int? : Field → Option Int
  | .number value => value.signed?
  | _ => none

def double? : Field → Option Binary64
  | .number value => value.double?
  | _ => none

def text? : Field → Option String
  | .text value => some value
  | _ => none

def list? : Field → Option (List Field)
  | .list items => some items
  | _ => none

def record? : Field → Option Record
  | .record fields => some fields
  | _ => none

end Field

namespace Record

def describe (record : Record) : String :=
  "\x7b" ++ String.intercalate ", " (Fields.names record) ++ "\x7d"

end Record

end RelationQuery
