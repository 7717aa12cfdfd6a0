import Mathlib.Data.List.Nodup
import Mathlib.Data.List.Perm.Subperm
import RelationQuery.Result

/-! The rows of a result and its records. Records are made by shaping the rows once more, to any
depth and with no name reserved, so they read the rows field by field just where the first shaping
left no object that is numbered like a list: `Result.records_eq_iff`. It leaves one where dropping
reserved fields uncovers one, and below its cap. -/
namespace RelationQuery

namespace Field

mutual

theorem ofValue_inj : ∀ value other : Value, ofValue value = ofValue other ↔ value = other
  | .array items, .array others => by simp [ofValue, ofItems_inj items]
  | .object fields, .object others => by simp [ofValue, ofFields_inj fields]
  | .null, other => by cases other <;> simp [ofValue]
  | .boolean _, other => by cases other <;> simp [ofValue]
  | .number _, other => by cases other <;> simp [ofValue]
  | .text _, other => by cases other <;> simp [ofValue]
  | .array _, .null | .array _, .boolean _ | .array _, .number _ | .array _, .text _
  | .array _, .object _ => by simp [ofValue]
  | .object _, .null | .object _, .boolean _ | .object _, .number _ | .object _, .text _
  | .object _, .array _ => by simp [ofValue]

theorem ofItems_inj : ∀ items others : List Value, ofItems items = ofItems others ↔ items = others
  | [], [] => by simp
  | [], _ :: _ | _ :: _, [] => by simp [ofItems]
  | item :: rest, other :: others => by
    simp [ofItems, ofValue_inj item, ofItems_inj rest]

theorem ofFields_inj : ∀ fields others : List (String × Value),
    ofFields fields = ofFields others ↔ fields = others
  | [], [] => by simp
  | [], _ :: _ | _ :: _, [] => by simp [ofFields]
  | (_, value) :: rest, (_, other) :: others => by
    simp [ofFields, ofValue_inj value, ofFields_inj rest, and_assoc]

end

end Field

namespace Fields

theorem get?_eq_some_iff {α : Type} {fields : Fields α} (nodup : fields.names.Nodup)
    {name : String} {value : α} : get? fields name = some value ↔ (name, value) ∈ fields := by
  induction fields with
  | nil => simp [get?]
  | cons field rest ih =>
    obtain ⟨other, held⟩ := field
    obtain ⟨apart, nodup⟩ := List.nodup_cons.1 nodup
    by_cases same : other = name
    · subst same
      have absent : (other, value) ∉ rest := fun member =>
        apart (List.mem_map.2 ⟨_, member, rfl⟩)
      simp [get?, absent, eq_comm]
    · simp [get?, same, Ne.symm same, ih nodup]

end Fields

namespace Shape

/-! ### Objects numbered like a list -/

theorem isIndexed_congr {α β : Type} {fields : Fields α} {others : Fields β}
    (h : fields.names = others.names) : isIndexed fields = isIndexed others := by
  have lengths : fields.length = others.length := by
    simpa [Fields.names] using congrArg List.length h
  have empty : List.isEmpty fields = List.isEmpty others := by
    rw [Bool.eq_iff_iff, List.isEmpty_iff_length_eq_zero, List.isEmpty_iff_length_eq_zero, lengths]
  simp only [isIndexed, h, lengths, empty]

theorem nodup_map_toString_range (count : Nat) : ((List.range count).map toString).Nodup := by
  refine List.Nodup.map (fun number other same => ?_) List.nodup_range
  simp only [Nat.toString_eq_ofList_toDigits, String.ofList_inj] at same
  simpa using congrArg (Nat.ofDigitChars 10 · 0) same

theorem names_perm_of_isIndexed {α : Type} {fields : Fields α} (h : isIndexed fields = true) :
    ((List.range fields.length).map toString).Perm fields.names := by
  have subset : (List.range fields.length).map toString ⊆ fields.names := by
    intro name member
    obtain ⟨index, inRange, rfl⟩ := List.mem_map.1 member
    simp only [isIndexed, Bool.and_eq_true, List.all_eq_true, List.contains_iff_mem] at h
    exact h.2 index inRange
  exact ((nodup_map_toString_range _).subperm subset).perm_of_length_le (by simp [Fields.names])

theorem mem_indexed_iff {α : Type} {fields : Fields α} (h : isIndexed fields = true) {value : α} :
    value ∈ indexed fields ↔ ∃ name, (name, value) ∈ fields := by
  have names := names_perm_of_isIndexed h
  have nodup : fields.names.Nodup := names.nodup_iff.1 (nodup_map_toString_range _)
  simp only [indexed, List.mem_filterMap, Fields.get?_eq_some_iff nodup]
  constructor
  · rintro ⟨index, -, member⟩
    exact ⟨_, member⟩
  · rintro ⟨name, member⟩
    have listed : name ∈ (List.range fields.length).map toString :=
      names.mem_iff.2 (List.mem_map_of_mem member)
    obtain ⟨index, inRange, rfl⟩ := List.mem_map.1 listed
    exact ⟨index, inRange, member⟩

end Shape

namespace Value

inductive Within (inner : Value) : Value → Prop
  | refl : Within inner inner
  | item {items : List Value} {item : Value} (member : item ∈ items) (within : Within inner item) :
    Within inner (.array items)
  | field {fields : List (String × Value)} {field : String × Value} (member : field ∈ fields)
    (within : Within inner field.2) : Within inner (.object fields)

def Named (value : Value) : Prop :=
  ∀ fields, Within (.object fields) value → Shape.isIndexed fields = false

@[simp] theorem named_array {items : List Value} :
    (array items).Named ↔ ∀ item ∈ items, item.Named := by
  constructor
  · exact fun h item member fields within => h fields (.item member within)
  · rintro h fields (- | ⟨member, within⟩)
    exact h _ member fields within

@[simp] theorem named_object {fields : List (String × Value)} :
    (object fields).Named ↔
      Shape.isIndexed fields = false ∧ ∀ field ∈ fields, field.2.Named := by
  constructor
  · exact fun h => ⟨h fields .refl, fun _ member inner within => h inner (.field member within)⟩
  · rintro ⟨own, held⟩ inner (- | - | ⟨member, within⟩)
    · exact own
    · exact held _ member inner within

@[simp] theorem named_null : null.Named := by rintro fields ⟨⟩
@[simp] theorem named_boolean (value : Bool) : (boolean value).Named := by rintro fields ⟨⟩
@[simp] theorem named_number (value : Number) : (number value).Named := by rintro fields ⟨⟩
@[simp] theorem named_text (value : String) : (text value).Named := by rintro fields ⟨⟩

end Value

namespace Shape

@[simp] theorem names_fields (shape : Shape) (depth : Nat) (list : List (String × Value)) :
    Fields.names (shape.fields depth list) = Fields.names list := by
  simp [fields_eq_map, Fields.names]

theorem isIndexed_fields (shape : Shape) (depth : Nat) (list : List (String × Value)) :
    isIndexed (shape.fields depth list) = isIndexed list :=
  isIndexed_congr (shape.names_fields depth list)

theorem strip_fields (shape : Shape) (depth : Nat) (list : List (String × Value)) :
    shape.strip (shape.fields depth list) = shape.fields depth (shape.strip list) := by
  simp only [strip, fields_eq_map, List.filter_map]
  rfl

/-! ### Shaping to any depth -/

@[simp] theorem strip_empty {α : Type} (fields : Fields α) : ({} : Shape).strip fields = fields :=
  by simp [strip, keeps]

mutual

theorem value_empty_eq_self_iff (depth : Nat) :
    ∀ value : Value, ({} : Shape).value depth value = value ↔ value.Named
  | .null => by simp [value]
  | .boolean _ => by simp [value]
  | .number _ => by simp [value]
  | .text _ => by simp [value]
  | .array items => by
    simp [value, isCapped, items_empty_eq_self_iff (depth + 1) items]
  | .object list => by
    have inner := fields_empty_eq_self_iff (depth + 1) list
    by_cases numbered : isIndexed list = true
    · simp [value, isCapped, container, isIndexed_fields, numbered]
    · simp [value, isCapped, container, isIndexed_fields, numbered, inner]

theorem items_empty_eq_self_iff (depth : Nat) :
    ∀ list : List Value, ({} : Shape).items depth list = list ↔ ∀ item ∈ list, item.Named
  | [] => by simp [items]
  | item :: rest => by
    simp [items, value_empty_eq_self_iff depth item, items_empty_eq_self_iff depth rest]

theorem fields_empty_eq_self_iff (depth : Nat) :
    ∀ list : List (String × Value), ({} : Shape).fields depth list = list ↔
      ∀ field ∈ list, field.2.Named
  | [] => by simp [fields]
  | (_, held) :: rest => by
    simp [fields, value_empty_eq_self_iff depth held, fields_empty_eq_self_iff depth rest]

end

/-! ### What the first shaping leaves -/

/-- The shaped value holds an object numbered like a list. Either an object it reaches is so
numbered only once its reserved fields are dropped, or one stands where it no longer reaches. -/
inductive Misleads (shape : Shape) : Nat → Value → Prop
  | stripped {depth : Nat} {fields : List (String × Value)}
    (reached : shape.isCapped depth = false) (named : isIndexed fields = false)
    (uncovered : isIndexed (shape.strip fields) = true) : Misleads shape depth (.object fields)
  | beyond {depth : Nat} {fields : List (String × Value)} {value : Value}
    (capped : shape.isCapped depth = true) (within : Value.Within (.object fields) value)
    (numbered : isIndexed fields = true) : Misleads shape depth value
  | item {depth : Nat} {items : List Value} {item : Value}
    (reached : shape.isCapped depth = false) (member : item ∈ items)
    (misleads : Misleads shape (depth + 1) item) : Misleads shape depth (.array items)
  | field {depth : Nat} {fields : List (String × Value)} {field : String × Value}
    (reached : shape.isCapped depth = false) (member : field ∈ fields)
    (kept : isIndexed fields = true ∨ shape.keeps field.1 = true)
    (misleads : Misleads shape (depth + 1) field.2) : Misleads shape depth (.object fields)

variable {shape : Shape} {depth : Nat}

theorem misleads_of_capped (capped : shape.isCapped depth = true) {value : Value} :
    shape.Misleads depth value ↔ ¬ value.Named := by
  constructor
  · intro h named
    cases h with
    | beyond _ within numbered => simp [named _ within] at numbered
    | _ => simp_all
  · intro h
    simp only [Value.Named, not_forall, Bool.not_eq_false] at h
    obtain ⟨fields, within, numbered⟩ := h
    exact .beyond capped within numbered

theorem misleads_array (reached : shape.isCapped depth = false) {items : List Value} :
    shape.Misleads depth (.array items) ↔ ∃ item ∈ items, shape.Misleads (depth + 1) item := by
  constructor
  · rintro (_ | ⟨capped, -, -⟩ | ⟨-, member, misleads⟩)
    · simp [reached] at capped
    · exact ⟨_, member, misleads⟩
  · rintro ⟨item, member, misleads⟩
    exact .item reached member misleads

theorem misleads_object (reached : shape.isCapped depth = false) {fields : List (String × Value)} :
    shape.Misleads depth (.object fields) ↔
      (isIndexed fields = false ∧ isIndexed (shape.strip fields) = true) ∨
      ∃ field ∈ fields, (isIndexed fields = true ∨ shape.keeps field.1 = true) ∧
        shape.Misleads (depth + 1) field.2 := by
  constructor
  · rintro (⟨-, named, uncovered⟩ | ⟨capped, -, -⟩ | _ | ⟨-, member, kept, misleads⟩)
    · exact .inl ⟨named, uncovered⟩
    · simp [reached] at capped
    · exact .inr ⟨_, member, kept, misleads⟩
  · rintro (⟨named, uncovered⟩ | ⟨field, member, kept, misleads⟩)
    · exact .stripped reached named uncovered
    · exact .field reached member kept misleads

theorem named_container {fields : Fields Value} :
    (shape.container fields).Named ↔
      (isIndexed fields = true ∨ isIndexed (shape.strip fields) = false) ∧
      ∀ field ∈ fields, isIndexed fields = true ∨ shape.keeps field.1 = true → field.2.Named := by
  by_cases numbered : isIndexed fields = true
  · simp [container, numbered, mem_indexed_iff numbered]
    grind
  · simp [container, numbered, strip]

mutual

/-- Shaping leaves no object numbered like a list just where the value does not mislead. -/
theorem named_value_iff (depth : Nat) :
    ∀ value : Value, (shape.value depth value).Named ↔ ¬ shape.Misleads depth value
  | .null | .boolean _ | .number _ | .text _ => by
    cases reached : shape.isCapped depth with
    | true => simp [value, misleads_of_capped reached]
    | false =>
      simp only [value, Value.named_null, Value.named_boolean, Value.named_number,
        Value.named_text, true_iff]
      rintro (_ | ⟨capped, -, -⟩)
      simp [reached] at capped
  | .array list => by
    cases reached : shape.isCapped depth with
    | true => simp [value, reached, misleads_of_capped reached]
    | false =>
      simp [value, reached, misleads_array reached, named_items_iff (depth + 1) list]
  | .object list => by
    cases reached : shape.isCapped depth with
    | true => simp [value, reached, misleads_of_capped reached]
    | false =>
      have inner := named_fields_iff (depth + 1) list fun name =>
        isIndexed list = true ∨ shape.keeps name = true
      have uncovered : isIndexed (shape.strip (shape.fields (depth + 1) list)) =
          isIndexed (shape.strip list) := by rw [strip_fields, isIndexed_fields]
      simp only [value, reached, Bool.false_eq_true, if_false, named_container, isIndexed_fields,
        uncovered, inner, misleads_object reached]
      grind

theorem named_items_iff (depth : Nat) : ∀ list : List Value,
    (∀ item ∈ shape.items depth list, item.Named) ↔ ∀ item ∈ list, ¬ shape.Misleads depth item
  | [] => by simp [items]
  | item :: rest => by simp [items, named_value_iff depth item, named_items_iff depth rest]

theorem named_fields_iff (depth : Nat) : ∀ (list : List (String × Value)) (kept : String → Prop),
    (∀ field ∈ shape.fields depth list, kept field.1 → field.2.Named) ↔
      ∀ field ∈ list, kept field.1 → ¬ shape.Misleads depth field.2
  | [], _ => by simp [fields]
  | (_, held) :: rest, kept => by
    simp only [fields, List.forall_mem_cons, named_value_iff depth held,
      named_fields_iff depth rest kept]

end

end Shape

/-! ### Rows and records -/

theorem Shape.ofFields_row_eq_iff (columns : Row) :
    Field.ofFields (({} : Shape).row columns) = Field.ofFields columns ↔
      ∀ column ∈ columns, column.2.Named := by
  rw [Field.ofFields_inj, row, strip_empty, fields_empty_eq_self_iff]

theorem Shape.named_row_iff (shape : Shape) (columns : Row) :
    (∀ column ∈ shape.row columns, column.2.Named) ↔
      ∀ column ∈ columns, shape.keeps column.1 = true → ¬ shape.Misleads 1 column.2 := by
  simpa [row, strip] using named_fields_iff 1 columns (shape.keeps · = true)

/-- Whatever the rows hold, the records of a result have the names of its rows in their order.
They hold its values field by field just where no column that is kept misleads: where dropping
the reserved fields uncovers no object numbered like a list, and none stands below the cap. -/
theorem Result.records_eq_iff (config : Config) (rows : List Row) (total : Option Nat) :
    let result := Result.ofRows config rows total
    let shape : Shape := {
      reserved := some config.correlationPrefix
      cap := some config.maxResultDepth }
    result.records.map Fields.names = result.rows.map Fields.names ∧
      (result.records = result.rows.map Field.ofFields ↔
        ∀ row ∈ rows, ∀ column ∈ row, shape.keeps column.1 = true →
          ¬ shape.Misleads 1 column.2) := by
  intro result shape
  constructor
  · simp [records, Fields.names, Field.ofFields_eq_map, Shape.row, Shape.fields_eq_map]
  · calc
      result.records = result.rows.map Field.ofFields ↔
          ∀ row ∈ result.rows, ∀ column ∈ row, column.2.Named := by
        simp [records, List.map_inj_left, Shape.ofFields_row_eq_iff]
      _ ↔ ∀ row ∈ rows, ∀ column ∈ shape.row row, column.2.Named := List.forall_mem_map
      _ ↔ _ := by simp only [Shape.named_row_iff]

theorem Result.records_ne_uncovered :
    let result := Result.ofRows {} [[("tags", .object [("0", .text "a"), ("__rq_id", .null)])]] none
    result.records ≠ result.rows.map Field.ofFields := by
  intro result same
  have listed : result.records = [[("tags", .list [.text "a"])]] := by rfl
  have held : result.rows.map Field.ofFields = [[("tags", .record [("0", .text "a")])]] := by rfl
  simp [listed, held] at same

end RelationQuery
