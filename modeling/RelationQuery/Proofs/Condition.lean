import RelationQuery.Proofs.Expression
import RelationQuery.Proofs.Nesting

/-! Conditions and subqueries in a statement. Main statement: a condition is cut apart from what
follows, and its literals are those of the values it holds. -/
namespace RelationQuery

open Token

namespace Cut

variable {dialect : Dialect} {allowed : List Char → Prop}

theorem space {n : Nat} : Leads dialect allowed n n " " := of_flat (by decide)

theorem joint (leading : Bool) (connective : Connective) (n : Nat) :
    Leads dialect allowed n n (Clause.joint leading connective) := by
  cases leading <;> cases connective <;> exact of_flat (by decide)

theorem parted_joint (connective : Connective) (text : String) :
    Parted (Clause.joint false connective ++ text).toList := by
  cases connective <;> simp [Clause.joint, Parted, Connective.sql]

theorem clauseText {clause : Clause String} (leading : Bool) {a b : Nat}
    (items : ∀ connective content, .item connective content ∈ clause →
      Reads dialect allowed 0 0 content)
    (nested : Clause.nesting a clause = some b) :
    Reads dialect allowed a b (Clause.text leading clause) ∧
      (leading = false → Parted (Clause.text leading clause).toList) := by
  unfold Clause.nesting at nested
  induction clause generalizing leading a with
  | nil =>
    cases nested
    exact ⟨empty, fun _ => by simp [Clause.text, Parted]⟩
  | cons entry rest ih =>
    have more (leading : Bool) {a : Nat} := ih leading (a := a) fun connective content member =>
      items connective content (List.mem_cons_of_mem _ member)
    rw [List.foldlM_cons] at nested
    cases entry with
    | item connective content =>
      obtain ⟨text, parted⟩ := more false nested
      have held := (items connective content List.mem_cons_self).lift a
      rw [Nat.zero_add] at held
      rw [Clause.text]
      refine ⟨((joint leading connective a).next held).followed text (parted rfl), ?_⟩
      rintro rfl
      rw [String.append_assoc]
      exact parted_joint connective _
    | opening connective negated =>
      obtain ⟨text, _⟩ := more true nested
      have opens : Leads dialect allowed a (a + 1) (if negated then "NOT (" else "(") := by
        have lifted (text : String) (h : Fixed text 0 1) :
            Leads dialect allowed (0 + a) (1 + a) text := (of_fixed h).lift a
        rw [Nat.zero_add, Nat.add_comm] at lifted
        cases negated
        · exact lifted _ (by decide)
        · exact lifted _ (by decide)
      rw [Clause.text]
      refine ⟨((joint leading connective a).next opens).next text, ?_⟩
      rintro rfl
      rw [String.append_assoc]
      exact parted_joint connective _
    | closing =>
      cases a with
      | zero => cases nested
      | succ a =>
        obtain ⟨text, _⟩ := more false nested
        have closes : Leads dialect allowed (1 + a) (0 + a) ")" := (of_fixed (by decide)).lift a
        rw [Nat.zero_add, Nat.add_comm] at closes
        rw [Clause.text]
        exact ⟨closes.next text, fun _ => by simp [Parted]⟩

theorem quotePair (left : String) (between : String) (right : String) {n : Nat}
    (h : Fixed between 0 0) (separates : Parted between.toList ∧ between.toList ≠ []) :
    Reads dialect allowed n n (dialect.quote left ++ between ++ dialect.quote right) := by
  have first : Reads dialect allowed n n (dialect.quote left) := quote left
  exact (first.sep (of_flat h) separates.1 separates.2).next (quote right)

theorem keyMatch (key : KeyMatch) : Reads dialect allowed 0 0 (key.sql dialect) :=
  quotePair key.inner " = " key.outer (by decide) (by decide)

theorem table (table : Table) : Reads dialect allowed 0 0 (table.sql dialect) := by
  unfold Table.sql
  split
  · exact quotePair table.name " AS " _ (by decide) (by decide)
  · exact quote table.name

theorem joinSql (join : Join) : Reads dialect allowed 0 0 (join.sql dialect) := by
  have kind : Leads dialect allowed 0 0 (join.kind.sql ++ " ") := by
    cases join.kind <;> exact of_fixed (by decide)
  have named := (kind.next (table join.table)).mark " ON " (c := 0) (by decide) (by decide)
  have pair : Reads dialect allowed 0 0
      (dialect.quote join.left ++ " = " ++ dialect.quote join.right) :=
    quotePair join.left " = " join.right (by decide) (by decide)
  have whole := named.next pair
  simpa only [Join.sql, String.append_assoc] using whole

theorem source (source : Source) : Reads dialect allowed 0 0 (source.sql dialect) := by
  have joins : Reads dialect allowed 0 0
        (String.join (source.joins.map fun join => " " ++ join.sql dialect)) ∧
      Parted (String.join (source.joins.map fun join => " " ++ join.sql dialect)).toList := by
    apply join
    · intro text member
      obtain ⟨join, _, rfl⟩ := List.mem_map.1 member
      exact space.next (joinSql join)
    · intro text member
      obtain ⟨join, _, rfl⟩ := List.mem_map.1 member
      simp [Parted]
  exact (table source.table).followed joins.1 joins.2

theorem comparison (comparison : Comparison) : Leads dialect allowed 0 0 comparison.sql := by
  cases comparison <;> exact of_fixed (by decide)

theorem operator (operator : Operator) : Leads dialect allowed 0 0 operator.sql := by
  cases operator with
  | compare held => exact comparison held
  | like | notLike | is | isNot => exact of_fixed (by decide)

theorem selecting {what body : String} (first : Reads dialect allowed 0 0 what)
    (second : Reads dialect allowed 0 0 body) :
    Leads dialect allowed 0 0 (Subquery.selecting what body) := by
  have head : Leads dialect allowed 0 1 "(SELECT " := of_fixed (by decide)
  have middle := (head.next (first.lift 1)).mark " FROM " (c := 1) (by decide) (by decide)
  exact (middle.next (second.lift 1)).mark ")" (by decide) (by decide)

end Cut

def Aggregate.Parsed (measure : Aggregate Expression) (owner : String) : Prop :=
  ∀ e, measure.operand = .expression e →
    '*' ∉ owner.toList ∧ ∃ mode source, Expression.parse mode source = .ok e

mutual

/-- All values in a condition are given ones, and all groups in it are closed. -/
def Condition.Grounded (given : Value → Prop) : Condition → Prop
  | .compare _ _ value => given value
  | .member _ _ values => ∀ value ∈ values, given value
  | .existence _ rows => rows.Grounded given
  | .count rows _ _ => rows.Grounded given
  | .aggregate measure rows _ value =>
    measure.Parsed rows.label ∧ rows.Grounded given ∧ given value

def Subquery.Grounded (given : Value → Prop) : Subquery Condition → Prop
  | ⟨_, _, _, refinement⟩ =>
    Clause.nesting 0 refinement = some 0 ∧ Condition.ClauseGrounded given refinement

def Condition.ClauseGrounded (given : Value → Prop) : List (Entry Condition) → Prop
  | [] => True
  | entry :: rest => Condition.EntryGrounded given entry ∧ Condition.ClauseGrounded given rest

def Condition.EntryGrounded (given : Value → Prop) : Entry Condition → Prop
  | .item _ content => content.Grounded given
  | _ => True

end

variable {dialect : Dialect} {given : Value → Prop}

theorem Aggregate.reads_sql {allowed : List Char → Prop} {measure : Aggregate Expression}
    {owner : String} (h : measure.Parsed owner) :
    Reads dialect allowed 0 0 (measure.sql dialect owner) := by
  have operand : Reads dialect allowed 0 0 (measure.operand.sql dialect owner) := by
    cases operand : measure.operand with
    | star => exact Cut.of_solid "*" (by decide) (by decide)
    | column name => exact Cut.quote _
    | expression e =>
      obtain ⟨plain, mode, source, parsed⟩ := h e operand
      exact Expression.reads_sql parsed plain
  have call : ∀ (kind : Aggregate.Kind) function, kind.function? = some function →
      Fixed (function ++ "(") 0 1 := by
    rintro ⟨⟩ _ ⟨⟩ <;> decide
  unfold Aggregate.sql
  dsimp only
  split
  · next function named =>
    have head : Leads dialect allowed 0 1 (function ++ "(") := Cut.of_fixed (call _ _ named)
    exact ((head.next (operand.lift 1)).mark ")" (by decide) (by decide)).reads
  · exact operand

theorem Condition.reads_memberSql {column : String} {negated : Bool} {values : List Value}
    (h : ∀ value ∈ values, given value) :
    Reads dialect (LiteralOf given) 0 0 (Condition.memberSql dialect column negated values) := by
  unfold Condition.memberSql
  split
  · cases negated <;> exact (Cut.of_fixed (by decide)).reads
  · have list : Reads dialect (LiteralOf given) 0 0
        (String.intercalate ", " (values.map (Value.sql dialect))) := by
      apply Cut.intercalate (Cut.of_fixed (by decide))
      · exact fun rest => by simp [Parted]
      · intro text member
        obtain ⟨value, held, rfl⟩ := List.mem_map.1 member
        exact Cut.value (h value held)
    have opening : Leads dialect (LiteralOf given) 0 1
        (dialect.quote column ++ if negated then " NOT IN (" else " IN (") := by
      cases negated <;> exact (Cut.quote column).mark _ (by decide) (by decide)
    exact ((opening.next (list.lift 1)).mark ")" (by decide) (by decide)).reads

mutual

theorem Condition.reads_sql : ∀ condition : Condition, condition.Grounded given →
    Reads dialect (LiteralOf given) 0 0 (condition.sql dialect)
  | .compare column operator value, h => by
    have name : Reads dialect (LiteralOf given) 0 0 (dialect.quote column) := Cut.quote column
    have relation := name.mark " " (c := 0) (by decide) (by decide)
    exact ((relation.next (Cut.operator operator)).next Cut.space).next (Cut.value h)
  | .member column negated values, h => Condition.reads_memberSql h
  | .existence negated rows, h => by
    have one : Reads dialect (LiteralOf given) 0 0 "1" := Cut.of_solid _ (by decide) (by decide)
    have body := Cut.selecting one (Subquery.reads_sql rows h)
    have head : Leads dialect (LiteralOf given) 0 0
        (if negated then "NOT EXISTS " else "EXISTS ") := by
      cases negated <;> exact Cut.of_fixed (by decide)
    exact (head.next body).reads
  | .count rows comparison bound, h => by
    have all : Reads dialect (LiteralOf given) 0 0 "COUNT(*)" :=
      Cut.of_solid _ (by decide) (by decide)
    have body := Cut.selecting all (Subquery.reads_sql rows h)
    have relation := ((body.next Cut.space).next (Cut.comparison comparison)).next Cut.space
    exact relation.next (Cut.digits bound)
  | .aggregate measure rows comparison value, h => by
    have body := Cut.selecting (Aggregate.reads_sql h.1) (Subquery.reads_sql rows h.2.1)
    have head : Leads dialect (LiteralOf given) 0 1 "COALESCE(" := Cut.of_fixed (by decide)
    have total := (head.next (body.lift 1)).reads.mark ", 0) " (c := 0) (by decide) (by decide)
    have relation := (total.next (Cut.comparison comparison)).next Cut.space
    exact relation.next (Cut.value h.2.2)

theorem Subquery.reads_sql : ∀ rows : Subquery Condition, rows.Grounded given →
    Reads dialect (LiteralOf given) 0 0 (rows.sql dialect)
  | ⟨label, source, keys, refinement⟩, h => by
    have matched : Reads dialect (LiteralOf given) 0 0
        (String.intercalate " AND " (keys.map (KeyMatch.sql dialect))) := by
      apply Cut.intercalate (Cut.of_fixed (by decide))
      · exact fun rest => by simp [Parted]
      · intro text member
        obtain ⟨key, _, rfl⟩ := List.mem_map.1 member
        exact Cut.keyMatch key
    have items := Condition.reads_items refinement h.2
    have nested : Clause.nesting 0 (Condition.clauseSql dialect refinement) = some 0 := by
      rw [Condition.clauseSql_eq_map, Clause.nesting_map]
      exact h.1
    have narrowed := (Cut.clauseText true items nested).1
    rw [Subquery.sql]
    have front := ((Cut.source source).mark " WHERE " (c := 0) (by decide) (by decide)).next matched
    by_cases bare : refinement.isEmpty
    · rw [if_pos bare]
      exact front.followed Cut.empty (by decide)
    · rw [if_neg bare]
      have group : Leads dialect (LiteralOf given) 0 1 " AND (" := Cut.of_fixed (by decide)
      have closed := (group.next (narrowed.lift 1)).mark ")" (c := 0) (by decide) (by decide)
      exact front.followed closed.reads (by simp [Parted])

theorem Condition.reads_items : ∀ clause : List (Entry Condition),
    Condition.ClauseGrounded given clause → ∀ connective content,
      .item connective content ∈ Condition.clauseSql dialect clause →
        Reads dialect (LiteralOf given) 0 0 content
  | [], _, _, _, member => by
    simp [Condition.clauseSql] at member
  | entry :: rest, h, connective, content, member => by
    rw [Condition.clauseSql] at member
    rcases List.mem_cons.1 member with here | later
    · exact Condition.reads_entry entry h.1 connective content here.symm
    · exact Condition.reads_items rest h.2 connective content later

theorem Condition.reads_entry : ∀ entry : Entry Condition, Condition.EntryGrounded given entry →
    ∀ connective content, Condition.entrySql dialect entry = .item connective content →
      Reads dialect (LiteralOf given) 0 0 content
  | .item _ condition, h, _, _, eq => by
    cases eq
    exact Condition.reads_sql condition h
  | .opening .., _, _, _, eq => by cases eq
  | .closing, _, _, _, eq => by cases eq

end

theorem Condition.reads_clause {clause : Clause Condition}
    (grounded : Condition.ClauseGrounded given clause)
    (nested : Clause.nesting 0 clause = some 0) :
    Reads dialect (LiteralOf given) 0 0
      (Clause.text true (Condition.clauseSql dialect clause)) := by
  rw [← Clause.nesting_map (Condition.sql dialect), ← Condition.clauseSql_eq_map] at nested
  exact (Cut.clauseText true (Condition.reads_items clause grounded) nested).1

section Mono

variable {wider : Value → Prop}

mutual

theorem Condition.grounded_mono (sub : ∀ value, given value → wider value) :
    ∀ condition : Condition, condition.Grounded given → condition.Grounded wider
  | .compare .., h => sub _ h
  | .member .., h => fun value member => sub value (h value member)
  | .existence _ rows, h => Subquery.grounded_mono sub rows h
  | .count rows _ _, h => Subquery.grounded_mono sub rows h
  | .aggregate _ rows _ _, h => ⟨h.1, Subquery.grounded_mono sub rows h.2.1, sub _ h.2.2⟩

theorem Subquery.grounded_mono (sub : ∀ value, given value → wider value) :
    ∀ rows : Subquery Condition, rows.Grounded given → rows.Grounded wider
  | ⟨_, _, _, refinement⟩, h => ⟨h.1, Condition.clauseGrounded_mono sub refinement h.2⟩

theorem Condition.clauseGrounded_mono (sub : ∀ value, given value → wider value) :
    ∀ clause : List (Entry Condition),
      Condition.ClauseGrounded given clause → Condition.ClauseGrounded wider clause
  | [], h => h
  | entry :: rest, h =>
    ⟨Condition.entryGrounded_mono sub entry h.1, Condition.clauseGrounded_mono sub rest h.2⟩

theorem Condition.entryGrounded_mono (sub : ∀ value, given value → wider value) :
    ∀ entry : Entry Condition,
      Condition.EntryGrounded given entry → Condition.EntryGrounded wider entry
  | .item _ content, h => Condition.grounded_mono sub content h
  | .opening .., h => h
  | .closing, h => h

end

end Mono

end RelationQuery
