import RelationQuery.Proofs.Join
import RelationQuery.Proofs.Origin
import RelationQuery.Proofs.Reshaping

/-! How deep objects stand in the rows of a run, and how deep the shaping of a result reaches. Each
level of relations puts objects two containers deeper, a list and a row. Main statement: where the
shaping reaches more than twice as deep as relations nest, no reserved column is left. -/
namespace RelationQuery

namespace Value

/-- `inner` stands in the value, that many lists and objects deep. -/
inductive Stands (inner : Value) : Nat → Value → Prop
  | here : Stands inner 0 inner
  | item {depth : Nat} {items : List Value} {item : Value} (member : item ∈ items)
    (stands : Stands inner depth item) : Stands inner (depth + 1) (.array items)
  | field {depth : Nat} {fields : List (String × Value)} {field : String × Value}
    (member : field ∈ fields) (stands : Stands inner depth field.2) :
    Stands inner (depth + 1) (.object fields)

theorem within_iff_stands {inner value : Value} :
    Within inner value ↔ ∃ depth, Stands inner depth value := by
  constructor
  · intro within
    induction within with
    | refl => exact ⟨0, .here⟩
    | item member _ ih => exact ⟨_, .item member ih.choose_spec⟩
    | field member _ ih => exact ⟨_, .field member ih.choose_spec⟩
  · rintro ⟨depth, stands⟩
    induction stands with
    | here => exact .refl
    | item member _ ih => exact .item member ih
    | field member _ ih => exact .field member ih

def Shallow (bound : Nat) (value : Value) : Prop :=
  ∀ depth fields, Stands (.object fields) depth value → depth < bound

variable {bound : Nat}

theorem Shallow.mono {value : Value} (h : value.Shallow bound) {more : Nat} (le : bound ≤ more) :
    value.Shallow more :=
  fun depth fields stands => Nat.lt_of_lt_of_le (h depth fields stands) le

theorem shallow_zero_iff {value : Value} :
    value.Shallow 0 ↔ ∀ fields, ¬Within (.object fields) value := by
  constructor
  · intro h fields within
    obtain ⟨depth, stands⟩ := within_iff_stands.1 within
    exact Nat.not_lt_zero _ (h depth fields stands)
  · intro h depth fields stands
    exact absurd (within_iff_stands.2 ⟨depth, stands⟩) (h fields)

@[simp] theorem shallow_array {items : List Value} :
    (array items).Shallow bound ↔ ∀ item ∈ items, item.Shallow (bound - 1) := by
  constructor
  · exact fun h item member depth fields stands =>
      Nat.lt_sub_of_add_lt (h _ fields (.item member stands))
  · rintro h _ fields (_ | ⟨member, stands⟩)
    exact Nat.add_lt_of_lt_sub (h _ member _ fields stands)

@[simp] theorem shallow_object {fields : List (String × Value)} :
    (object fields).Shallow bound ↔ 0 < bound ∧ ∀ field ∈ fields, field.2.Shallow (bound - 1) := by
  constructor
  · exact fun h => ⟨h 0 fields .here, fun field member depth inner stands =>
      Nat.lt_sub_of_add_lt (h _ inner (.field member stands))⟩
  · rintro ⟨own, held⟩ _ inner (_ | _ | ⟨member, stands⟩)
    · exact own
    · exact Nat.add_lt_of_lt_sub (held _ member _ inner stands)

@[simp] theorem shallow_null : null.Shallow bound := by rintro _ _ ⟨⟩

end Value

/-! ### What shaping leaves of an object it reaches -/

namespace Shape

def Spares (shape : Shape) (value : Value) : Prop :=
  ∀ fields, Value.Within (.object fields) value → ∀ field ∈ fields, shape.keeps field.1 = true

variable {shape : Shape}

theorem spares_of_shallow {value : Value} (h : value.Shallow 0) : shape.Spares value :=
  fun fields within => absurd within (Value.shallow_zero_iff.1 h fields)

@[simp] theorem spares_array {items : List Value} :
    shape.Spares (.array items) ↔ ∀ item ∈ items, shape.Spares item := by
  constructor
  · exact fun h item member fields within => h fields (.item member within)
  · rintro h fields (_ | ⟨member, within⟩)
    exact h _ member fields within

@[simp] theorem spares_object {fields : List (String × Value)} :
    shape.Spares (.object fields) ↔
      ∀ field ∈ fields, shape.keeps field.1 = true ∧ shape.Spares field.2 := by
  constructor
  · exact fun h field member => ⟨h fields .refl field member,
      fun inner within => h inner (.field member within)⟩
  · rintro h inner (_ | _ | ⟨member, within⟩)
    · exact fun field member => (h field member).1
    · exact (h _ member).2 inner within

theorem spares_container {fields : Fields Value} (h : ∀ field ∈ fields, shape.Spares field.2) :
    shape.Spares (shape.container fields) := by
  unfold container
  split
  · next numbered =>
    refine spares_array.2 fun item member => ?_
    obtain ⟨name, held⟩ := (mem_indexed_iff numbered).1 member
    exact h _ held
  · refine spares_object.2 fun field member => ?_
    obtain ⟨held, kept⟩ := List.mem_filter.1 member
    exact ⟨kept, h field held⟩

theorem isCapped_eq_false_iff {depth : Nat} :
    shape.isCapped depth = false ↔ ∀ cap ∈ shape.cap, depth < cap := by
  unfold isCapped
  cases shape.cap <;> simp

mutual

theorem spares_value (depth bound : Nat) (reach : ∀ cap ∈ shape.cap, depth + bound ≤ cap) :
    ∀ value : Value, value.Shallow bound → shape.Spares (shape.value depth value)
  | .null, h | .boolean _, h | .number _, h | .text _, h => by
    rw [value] <;> exact fun _ => (nomatch ·)
  | .array items, h => by
    rw [value]
    cases capped : shape.isCapped depth with
    | true =>
      obtain ⟨cap, given, le⟩ : ∃ cap, shape.cap = some cap ∧ cap ≤ depth := by
        simpa [isCapped, Option.any_eq_true] using capped
      obtain rfl : bound = 0 := by
        have := reach cap given
        omega
      exact spares_of_shallow h
    | false =>
      have reached := isCapped_eq_false_iff.1 capped
      refine spares_array.2 (spares_items (depth + 1) (bound - 1) (fun cap given => ?_) items
        (Value.shallow_array.1 h))
      have := reached cap given
      have := reach cap given
      omega
  | .object list, h => by
    obtain ⟨own, held⟩ := Value.shallow_object.1 h
    have reached : shape.isCapped depth = false := isCapped_eq_false_iff.2 fun cap given =>
      Nat.lt_of_lt_of_le (Nat.lt_add_of_pos_right own) (reach cap given)
    rw [value, reached]
    refine spares_container (spares_fields (depth + 1) (bound - 1) (fun cap given => ?_) list held)
    have := reach cap given
    omega

theorem spares_items (depth bound : Nat) (reach : ∀ cap ∈ shape.cap, depth + bound ≤ cap) :
    ∀ list : List Value, (∀ item ∈ list, item.Shallow bound) →
      ∀ item ∈ shape.items depth list, shape.Spares item
  | [], _ => nofun
  | first :: rest, h => by
    obtain ⟨here, later⟩ := List.forall_mem_cons.1 h
    exact List.forall_mem_cons.2
      ⟨spares_value depth bound reach first here, spares_items depth bound reach rest later⟩

theorem spares_fields (depth bound : Nat) (reach : ∀ cap ∈ shape.cap, depth + bound ≤ cap) :
    ∀ list : List (String × Value), (∀ field ∈ list, field.2.Shallow bound) →
      ∀ field ∈ shape.fields depth list, shape.Spares field.2
  | [], _ => nofun
  | (_, first) :: rest, h => by
    obtain ⟨here, later⟩ := List.forall_mem_cons.1 h
    exact List.forall_mem_cons.2
      ⟨spares_value depth bound reach first here, spares_fields depth bound reach rest later⟩

end

theorem spares_row {bound : Nat} (reach : ∀ cap ∈ shape.cap, bound < cap) {row : Row}
    (h : ∀ column ∈ row, column.2.Shallow bound) : shape.Spares (.object (shape.row row)) := by
  refine spares_object.2 fun column member => ?_
  obtain ⟨held, kept⟩ := List.mem_filter.1 member
  refine ⟨kept, spares_fields 1 bound (fun cap given => ?_) row h column held⟩
  rw [Nat.add_comm]
  exact reach cap given

end Shape

/-! ### What a run stores -/

def Row.Shallow (bound : Nat) (row : Row) : Prop := ∀ column ∈ row, column.2.Shallow bound

namespace Relation

variable {bound : Nat}

theorem shallow_gather_nil (cardinality : Cardinality) : (gather cardinality []).Shallow bound := by
  cases cardinality <;> simp [gather]

theorem shallow_gather (cardinality : Cardinality) {rows : List Row}
    (h : ∀ row ∈ rows, Row.Shallow bound row) : (gather cardinality rows).Shallow (bound + 2) := by
  cases cardinality with
  | many =>
    simp only [gather, Value.shallow_array, List.forall_mem_map, Value.shallow_object]
    exact fun row member => ⟨Nat.succ_pos _, h row member⟩
  | one =>
    unfold gather
    cases rows with
    | nil => exact Value.shallow_null
    | cons row rest =>
      refine Value.shallow_object.2 ⟨Nat.succ_pos _, fun column member => ?_⟩
      exact (h row List.mem_cons_self column member).mono (Nat.le_succ _)

theorem mem_put {name : String} {value : Value} {row : Row} {column : String × Value}
    (member : column ∈ Fields.put name value row) : column = (name, value) ∨ column ∈ row := by
  induction row with
  | nil => exact .inl (List.mem_singleton.1 member)
  | cons first rest ih =>
    obtain ⟨other, held⟩ := first
    unfold Fields.put at member
    split at member
    · exact (List.mem_cons.1 member).imp id (List.mem_cons_of_mem _)
    · split at member
      · exact List.mem_cons.1 member
      · rcases List.mem_cons.1 member with rfl | later
        · exact .inr List.mem_cons_self
        · exact (ih later).imp id (List.mem_cons_of_mem _)

variable {config : Config} {relation : Relation}

theorem shallow_nestedLoop {rows fetched : List Row} (h : ∀ row ∈ rows, Row.Shallow bound row)
    (gathered : ∀ matching ⊆ fetched, (gather relation.cardinality matching).Shallow bound) :
    ∀ row ∈ nestedLoop config relation rows fetched, Row.Shallow bound row := by
  intro stored member column held
  obtain ⟨row, found, rfl⟩ := List.mem_map.1 member
  rcases mem_put held with rfl | old
  · exact gathered _ (List.filter_subset_self _)
  · exact h row found column old

theorem yields_attach {fetch? : Option (Fetch (List Row))} {depth : Nat} {rows : List Row}
    (h : ∀ row ∈ rows, Row.Shallow bound row)
    (fetches : ∀ keys, (relation.fetchRelated fetch? config depth keys).Yields fun fetched =>
      ∀ matching ⊆ fetched, (gather relation.cardinality matching).Shallow bound) :
    (attach fetch? config depth rows relation).Yields fun stored =>
      ∀ row ∈ stored, Row.Shallow bound row := by
  rw [attach_eq_ite]
  dsimp only
  split
  · refine Load.Yields.pure (shallow_nestedLoop h fun matching lone => ?_)
    rw [List.subset_nil.1 lone]
    exact shallow_gather_nil _
  · rw [map_eq_pure_bind]
    exact (fetches _).bind fun fetched gathered => Load.Yields.pure (shallow_nestedLoop h gathered)

end Relation

def Driver.Flat (driver : Driver) : Prop :=
  ∀ sent sql rows, driver sent sql = .ok rows → ∀ row ∈ rows, ∀ column ∈ row,
    ∀ fields, ¬Value.Within (.object fields) column.2

namespace Query

variable {driver : Driver}

theorem yields_ask (flat : driver.Flat) (sql : String) :
    (Load.ask driver sql).Yields fun rows => ∀ row ∈ rows, Row.Shallow 0 row := by
  refine Load.Triple.ask (fun sent rows _ answer row member column held => ?_) fun _ _ _ _ =>
    True.intro
  exact Value.shallow_zero_iff.2 (flat sent sql rows answer row member column held)

/-- By induction on the levels below: one more level is two containers more. -/
theorem yields_loadUsing (flat : driver.Flat) (levels : Nat) (q : Query) (assembly : Assembly) :
    (q.loadUsing driver (fetchWithin driver levels) assembly).Yields fun rows =>
      ∀ row ∈ rows, Row.Shallow (2 * levels) row := by
  induction levels generalizing q assembly with
  | zero =>
    unfold loadUsing
    refine (Load.Yields.trivial _).bind fun text _ => (yields_ask flat text).bind fun rows h => ?_
    refine Load.Yields.foldlM h fun relation _ rows h => Relation.yields_attach h fun keys => ?_
    exact Load.Yields.throw _
  | succ levels ih =>
    unfold loadUsing
    refine (Load.Yields.trivial _).bind fun text _ => (yields_ask flat text).bind fun rows h => ?_
    refine Load.Yields.foldlM (fun row member column held => ?_) fun relation _ rows h =>
      Relation.yields_attach h fun keys => ?_
    · exact (h row member column held).mono (Nat.zero_le _)
    · unfold Relation.fetchRelated fetchWithin
      dsimp only
      refine (Load.Yields.trivial _).bind fun child _ => ?_
      refine (Load.Yields.trivial _).bind fun assembly _ => ?_
      refine (ih child _).imp fun fetched deep matching held => ?_
      exact Relation.shallow_gather _ fun row member => deep row (held member)

theorem yields_run (flat : driver.Flat) (q : Query) :
    (q.run driver).Yields fun outcome =>
      ∀ row ∈ outcome.1, Row.Shallow (2 * (q.config.maxDepth - q.depth)) row := by
  unfold run
  refine (Load.Yields.trivial _).bind fun assembly _ => ?_
  dsimp only
  split
  all_goals
    refine (Load.Yields.trivial _).bind fun total _ => ?_
    exact (yields_loadUsing flat _ q assembly).bind fun rows h => Load.Yields.pure h

/-- Where results are searched more than twice as deep as relations nest, and the database itself
returns no objects, no object at any depth of a row of the result has a reserved name. -/
theorem no_reserved_of_get (flat : driver.Flat) {q : Query}
    (deep : 2 * q.config.maxDepth < q.config.maxResultDepth) {result : Result}
    {sent : List String} (got : q.get driver = (.ok result, sent)) :
    ∀ row ∈ result.rows, ∀ fields, Value.Within (.object fields) (.object row) →
      ∀ name ∈ Fields.names fields,
        ¬q.config.correlationPrefix.toList <+: name.toList := by
  obtain ⟨rows, total, ran, rfl⟩ : ∃ rows total,
      (q.run driver).exec [] = (.ok (rows, total), sent) ∧
        result = Result.ofRows q.config rows total := by
    unfold get at got
    rcases ran : (q.run driver).exec [] with ⟨error | ⟨rows, total⟩, later⟩
    · simp [ran, Except.map] at got
    · simp only [ran, Except.map, Prod.mk.injEq, Except.ok.injEq] at got
      exact ⟨rows, total, by rw [got.2], got.1.symm⟩
  have shallow := (yields_run flat q).of_exec True.intro ran
  intro row member fields within name named
  obtain ⟨before, found, rfl⟩ := List.mem_map.1 member
  obtain ⟨field, held, rfl⟩ := List.mem_map.1 named
  let shape : Shape := {
    reserved := some q.config.correlationPrefix
    cap := some q.config.maxResultDepth }
  have reach : ∀ cap ∈ shape.cap, 2 * (q.config.maxDepth - q.depth) < cap := by
    rintro _ ⟨⟩
    omega
  have spares : shape.Spares (.object (shape.row before)) :=
    Shape.spares_row reach (shallow before found)
  have kept := spares fields within field held
  simpa [shape, Shape.keeps, ← List.isPrefixOf_iff_prefix] using kept

def twoDeep : Config := { maxDepth := 2, maxResultDepth := 5 }

def totals : Query := built twoDeep [
  .fromTable "users",
  .select "name",
  .load .many {
    target := "orders", foreign := ["user_id"], own := ["id"]
    refinement := some [
      .select "total",
      .load .many {
        target := "payments", foreign := ["order_id"], own := ["id"]
        refinement := some [.select "paid"] }] }]

def onePayment : Driver := fun sent _ => .ok <|
  match sent.length with
  | 0 => [[("__rq_id", .text "u1"), ("name", .text "Ann")]]
  | 1 => [[("__rq_id", .text "o1"), ("__rq_user_id", .text "u1"), ("total", .text "9.50")]]
  | _ => [[("__rq_order_id", .text "o1"), ("paid", .text "9.50")]]

theorem flat_onePayment : onePayment.Flat := by
  intro sent sql rows answer row member column held fields within
  have text : ∃ value, column.2 = .text value := by
    obtain rfl := Except.ok.inj answer
    split at member <;>
      obtain rfl := List.mem_singleton.1 member <;>
      simp only [List.mem_cons, List.not_mem_nil, or_false] at held <;> aesop
  obtain ⟨value, same⟩ := text
  rw [same] at within
  cases within

theorem totals_unreserved : ∃ result sent,
    totals.get onePayment = (.ok result, sent) ∧
    rowTexts (.ok result) = ["\x7b\"name\":\"Ann\",\"orders\":[\x7b\"payments\":[\x7b\"paid\":" ++
      "\"9.50\"\x7d],\"total\":\"9.50\"\x7d]\x7d"] ∧
    2 * totals.config.maxDepth < totals.config.maxResultDepth ∧ onePayment.Flat ∧
    ∀ row ∈ result.rows, ∀ fields, Value.Within (.object fields) (.object row) →
      ∀ name ∈ Fields.names fields, ¬totals.config.correlationPrefix.toList <+: name.toList := by
  have shown : rowTexts (totals.get onePayment).1 = ["\x7b\"name\":\"Ann\",\"orders\":[" ++
      "\x7b\"payments\":[\x7b\"paid\":\"9.50\"\x7d],\"total\":\"9.50\"\x7d]\x7d"] := by
    have levels : totals.config.maxDepth - totals.depth = 2 := by decide +kernel
    unfold get run
    simp only [levels, fetchWithin, loadUsing, Relation.attach_eq_ite, Relation.distinctKeys_eq]
    decide +kernel
  have deep : 2 * totals.config.maxDepth < totals.config.maxResultDepth := by decide +kernel
  rcases got : totals.get onePayment with ⟨error | result, sent⟩
  · rw [got] at shown
    cases shown
  · rw [got] at shown
    exact ⟨result, sent, rfl, shown, deep, flat_onePayment,
      no_reserved_of_get flat_onePayment deep got⟩

end Query

end RelationQuery
