import RelationQuery.Proofs.Paths

/-! Objects that are numbered like a list, made into it place by place. Main statement: if every
name is a number below their count, written as it is printed, then no number is left out, so that
each value has a place of its own and each place gets a value; any other object stays as it is. -/
namespace RelationQuery

namespace Shape

/-! ### Place by place -/

def unsigned : List Char → List Char
  | '+' :: digits => digits
  | digits => digits

def readIndex? (name : String) : Option Nat :=
  let digits := unsigned name.toList
  if !digits.isEmpty && digits.all Char.isDigit then some (Nat.ofDigitChars 10 digits 0) else none

def isPlace (count : Nat) (name : String) : Bool :=
  (readIndex? name).any fun index => index < count && toString index == name

def write? (places : List Value) (field : String × Value) : Option (List Value) :=
  match readIndex? field.1 with
  | none => some places
  | some index => if index < places.length then some (places.set index field.2) else none

/-- The list that fields stand for, written into empty places one by one if every name is one of
them; else the fields themselves. There is no outcome if a value is written where no place is. -/
def sequence? (fields : Fields Value) : Option (Except (Fields Value) (List Value)) :=
  if !fields.isEmpty && (Fields.names fields).all (isPlace fields.length) then
    (fields.foldlM write? (List.replicate fields.length .null)).map .ok
  else some (.error fields)

/-! ### Names that are places -/

theorem unsigned_of_isDigit {cs : List Char} (digits : ∀ c ∈ cs, c.isDigit) : unsigned cs = cs := by
  unfold unsigned
  split
  · exact absurd (digits '+' List.mem_cons_self) (by decide)
  · rfl

theorem readIndex?_toString (index : Nat) : readIndex? (toString index) = some index := by
  have digits : ∀ c ∈ Nat.toDigits 10 index, c.isDigit := fun c member =>
    Nat.isDigit_of_mem_toDigits (by decide) (by decide) member
  have held : Nat.toDigits 10 index ≠ [] := Nat.toDigits_ne_nil
  simp only [readIndex?, Nat.toString_eq_ofList_toDigits, String.toList_ofList,
    unsigned_of_isDigit digits, List.isEmpty_eq_false_iff.2 held, List.all_eq_true.2 digits,
    Nat.ofDigitChars_ten_toDigits, Bool.not_false, Bool.and_self, if_true]

theorem toString_inj {index other : Nat} : toString index = toString other ↔ index = other := by
  refine ⟨fun same => ?_, congrArg toString⟩
  simpa only [readIndex?_toString, Option.some.injEq] using congrArg readIndex? same

theorem isPlace_iff {count : Nat} {name : String} :
    isPlace count name ↔ ∃ index < count, name = toString index := by
  unfold isPlace
  rw [Option.any_eq_true]
  constructor
  · rintro ⟨index, _, here⟩
    simp only [Bool.and_eq_true, decide_eq_true_eq, beq_iff_eq] at here
    exact ⟨index, here.1, here.2.symm⟩
  · rintro ⟨index, below, rfl⟩
    exact ⟨index, readIndex?_toString index, by simp [below]⟩

theorem write?_place {places : List Value} {index : Nat} (below : index < places.length)
    (value : Value) : write? places (toString index, value) = some (places.set index value) := by
  rw [write?, readIndex?_toString]
  exact if_pos below

theorem numbered_iff_isPlace {α : Type} {fields : Fields α} (nodup : fields.names.Nodup) :
    fields.Numbered ↔ 0 < fields.length ∧ ∀ name ∈ fields.names, isPlace fields.length name := by
  refine and_congr_right fun _ => ?_
  constructor
  · intro numbers name member
    obtain ⟨index, inRange, rfl⟩ := List.mem_map.1 (numbers.subset member)
    exact isPlace_iff.2 ⟨index, List.mem_range.1 inRange, rfl⟩
  · intro places
    have subset : fields.names ⊆ (List.range fields.length).map toString := by
      intro name member
      obtain ⟨index, below, rfl⟩ := isPlace_iff.1 (places name member)
      exact List.mem_map_of_mem (List.mem_range.2 below)
    exact (nodup.subperm subset).perm_of_length_le (by simp [Fields.names])

/-! ### All values in their places -/

/-- By induction on the fields: no value is written where no place is, and each place holds the
value under its number or, if there is none, what it held. -/
theorem foldlM_write? {fields : Fields Value} (nodup : fields.names.Nodup) {places : List Value}
    (named : ∀ name ∈ fields.names, isPlace places.length name) :
    ∃ items, fields.foldlM write? places = some items ∧ items.length = places.length ∧
      ∀ index < places.length,
        items[index]? = (Fields.get? fields (toString index)).or places[index]? := by
  induction fields generalizing places with
  | nil => exact ⟨places, rfl, rfl, fun index _ => by simp [Fields.get?]⟩
  | cons field rest ih =>
    obtain ⟨name, value⟩ := field
    obtain ⟨apart, others⟩ := List.nodup_cons.1 nodup
    obtain ⟨here, later⟩ := List.forall_mem_cons.1 named
    obtain ⟨place, below, rfl⟩ := isPlace_iff.1 here
    have length : (places.set place value).length = places.length := List.length_set
    obtain ⟨items, written, same, held⟩ := ih others (length ▸ later)
    refine ⟨items, ?_, same.trans length, ?_⟩
    · rw [List.foldlM_cons, write?_place below]
      exact written
    · intro index inRange
      rw [held index (length ▸ inRange)]
      -- A later field has another name, and so does not write to this place again.
      by_cases same : place = index
      · subst same
        have absent : Fields.get? rest (toString place) = none := by
          rw [Option.eq_none_iff_forall_not_mem]
          exact fun value found => apart (Fields.mem_names_iff.2 ⟨value, found⟩)
        rw [absent, Fields.get?, if_pos rfl, List.getElem?_set_self below, Option.none_or,
          Option.some_or]
      · rw [Fields.get?, if_neg (same ∘ toString_inj.1), List.getElem?_set_ne same]

theorem sequence?_eq {fields : Fields Value} (nodup : fields.names.Nodup) :
    sequence? fields =
      some (if isIndexed fields then .ok (indexed fields) else .error fields) := by
  have condition : (!fields.isEmpty && (Fields.names fields).all (isPlace fields.length)) =
      isIndexed fields := by
    rw [Bool.eq_iff_iff, Fields.isIndexed_iff_numbered, numbered_iff_isPlace nodup]
    simp [List.length_pos_iff]
  rw [sequence?, condition]
  by_cases indexed? : isIndexed fields
  · have numbered : fields.Numbered := Fields.isIndexed_iff_numbered.1 indexed?
    have places : ∀ name ∈ fields.names,
        isPlace (List.replicate fields.length Value.null).length name := by
      rw [List.length_replicate]
      exact ((numbered_iff_isPlace nodup).1 numbered).2
    obtain ⟨items, written, length, held⟩ := foldlM_write? nodup places
    rw [List.length_replicate] at length held
    have same : items = indexed fields := by
      refine List.ext_getElem? fun index => ?_
      rw [getElem?_indexed numbered]
      split
      next inRange =>
        obtain ⟨value, found⟩ := exists_get?_of_numbered numbered inRange
        rw [held index inRange, found, Option.some_or]
      next beyond => exact List.getElem?_eq_none (by omega)
    rw [if_pos indexed?, if_pos indexed?, written, Option.map_some, same]
  · rw [if_neg indexed?, if_neg indexed?]

/-! ### What an object is made into -/

/-- What fields are made into: a list of all their values if they are named by all the numbers
below their count and by nothing else, and else the same fields. -/
structure Sequenced (fields : Fields Value) (outcome : Except (Fields Value) (List Value)) :
    Prop where
  listed : (∃ items, outcome = .ok items) ↔
    0 < fields.length ∧
      ∀ name, name ∈ Fields.names fields ↔ ∃ index < fields.length, name = toString index
  length : ∀ items, outcome = .ok items → items.length = fields.length
  held : ∀ items, outcome = .ok items → ∀ index < fields.length,
    ∃ value, Fields.get? fields (toString index) = some value ∧ items[index]? = some value
  unchanged : ∀ rest, outcome = .error rest → rest = fields

def ofSequenced (shape : Shape) (depth : Nat) : Except (Fields Value) (List Value) → Value
  | .ok items => .array (shape.items depth items)
  | .error rest => .object (shape.strip (shape.fields depth rest))

theorem numbered_iff_mem {α : Type} {fields : Fields α} (nodup : fields.names.Nodup) :
    fields.Numbered ↔
      0 < fields.length ∧
        ∀ name, name ∈ fields.names ↔ ∃ index < fields.length, name = toString index := by
  refine and_congr_right fun _ => ?_
  rw [List.perm_ext_iff_of_nodup nodup (nodup_map_toString_range _)]
  simp only [List.mem_map, List.mem_range, eq_comm]

theorem indexed_fields (shape : Shape) (depth : Nat) (fields : Fields Value) :
    indexed (shape.fields depth fields) = shape.items depth (indexed fields) := by
  simp only [indexed, fields_eq_map, items_eq_map, List.length_map, Fields.get?_map,
    List.map_filterMap]

theorem sequenced_ite {fields : Fields Value} (nodup : fields.names.Nodup) :
    Sequenced fields (if isIndexed fields then .ok (indexed fields) else .error fields) := by
  by_cases indexed? : isIndexed fields
  · have numbered : fields.Numbered := Fields.isIndexed_iff_numbered.1 indexed?
    rw [if_pos indexed?]
    exact
      { listed := iff_of_true ⟨_, rfl⟩ ((numbered_iff_mem nodup).1 numbered)
        length := by
          rintro items ⟨⟩
          exact length_indexed numbered
        held := by
          rintro items ⟨⟩ index inRange
          obtain ⟨value, found⟩ := exists_get?_of_numbered numbered inRange
          exact ⟨value, found, by rw [getElem?_indexed numbered, if_pos inRange, found]⟩
        unchanged := fun _ => nofun }
  · have unnumbered : ¬fields.Numbered := fun numbered =>
      indexed? (Fields.isIndexed_iff_numbered.2 numbered)
    rw [if_neg indexed?]
    exact
      { listed := iff_of_false nofun fun named => unnumbered ((numbered_iff_mem nodup).2 named)
        length := fun _ => nofun
        held := fun _ => nofun
        unchanged := by
          rintro rest ⟨⟩
          rfl }

/-- For every object, whatever the order it has its names in: no value is written where no place is,
the outcome is the list of all its values by their numbers or the same object, and an object that
is not capped is shaped from that outcome. -/
theorem exists_sequenced (fields : Fields Value) (nodup : fields.names.Nodup) :
    ∃ outcome, sequence? fields = some outcome ∧ Sequenced fields outcome ∧
      ∀ (shape : Shape) (depth : Nat), shape.isCapped depth = false →
        shape.value depth (.object fields) = shape.ofSequenced (depth + 1) outcome := by
  refine ⟨_, sequence?_eq nodup, sequenced_ite nodup, fun shape depth uncapped => ?_⟩
  rw [value, uncapped, if_neg Bool.false_ne_true, container, isIndexed_fields, indexed_fields]
  split <;> rfl

theorem eleven_exists_sequenced :
    let fields : Fields Value := ["0", "1", "10", "2", "3", "4", "5", "6", "7", "8", "9"].map
      fun name => (name, .text name)
    fields.Ordered ∧ fields.names.Nodup ∧
      sequence? fields = some (.ok ((List.range 11).map fun index => .text (toString index))) ∧
      ∃ outcome, sequence? fields = some outcome ∧ Sequenced fields outcome ∧
        ∀ (shape : Shape) (depth : Nat), shape.isCapped depth = false →
          shape.value depth (.object fields) = shape.ofSequenced (depth + 1) outcome := by
  intro fields
  have ordered : fields.names.Pairwise (· < ·) := by decide +kernel
  have nodup : fields.names.Nodup := by decide +kernel
  exact ⟨ordered, nodup, rfl, exists_sequenced fields nodup⟩

end Shape

end RelationQuery
