import RelationQuery.Value

/-! The shape results are given: reserved columns dropped, and objects that are numbered like a
list turned into one. -/
namespace RelationQuery

/-- What is done to the values of a row: names that start with `reserved` are dropped, and
containers from depth `cap` on stay as they are. A row is at depth 0. -/
structure Shape where
  reserved : Option String := none
  cap : Option Nat := none

namespace Shape

def isIndexed {α : Type} (fields : Fields α) : Bool :=
  !fields.isEmpty &&
    (List.range fields.length).all fun index => (Fields.names fields).contains (toString index)

def indexed {α : Type} (fields : Fields α) : List α :=
  (List.range fields.length).filterMap fun index => Fields.get? fields (toString index)

def keeps (shape : Shape) (name : String) : Bool :=
  !shape.reserved.any fun reserved => reserved.toList.isPrefixOf name.toList

def isCapped (shape : Shape) (depth : Nat) : Bool := shape.cap.any (· ≤ depth)

def strip {α : Type} (shape : Shape) (fields : Fields α) : Fields α :=
  fields.filter fun (name, _) => shape.keeps name

/-- An object from its shaped fields; whether it is numbered is seen before any is dropped. -/
def container (shape : Shape) (fields : Fields Value) : Value :=
  if isIndexed fields then .array (indexed fields) else .object (shape.strip fields)

mutual

def value (shape : Shape) (depth : Nat) : Value → Value
  | .array items =>
    if shape.isCapped depth then .array items else .array (shape.items (depth + 1) items)
  | .object fields =>
    if shape.isCapped depth then .object fields
    else shape.container (shape.fields (depth + 1) fields)
  | leaf => leaf

def items (shape : Shape) (depth : Nat) : List Value → List Value
  | [] => []
  | item :: rest => shape.value depth item :: shape.items depth rest

def fields (shape : Shape) (depth : Nat) : List (String × Value) → List (String × Value)
  | [] => []
  | (name, held) :: rest => (name, shape.value depth held) :: shape.fields depth rest

end

theorem items_eq_map (shape : Shape) (depth : Nat) (list : List Value) :
    shape.items depth list = list.map (shape.value depth) := by
  induction list with
  | nil => simp [items]
  | cons item rest ih => simp [items, ih]

theorem fields_eq_map (shape : Shape) (depth : Nat) (list : List (String × Value)) :
    shape.fields depth list = list.map fun field => (field.1, shape.value depth field.2) := by
  induction list with
  | nil => simp [fields]
  | cons field rest ih => simp [fields, ih]

def row (shape : Shape) (row : Row) : Row := shape.strip (shape.fields 1 row)

end Shape

end RelationQuery
