import RelationQuery.Proofs.Condition
import RelationQuery.Proofs.Statement

/-! Statements as texts. Main statement: what a statement is written as is tokens from end to end,
and its literals are those of the values it was given. -/
namespace RelationQuery

open Token

variable {dialect : Dialect} {given : Value → Prop}

namespace Clause

theorem eq_map_of_settled? {clause : Clause Place} {settled : Clause Condition}
    (h : settled? clause = some settled) : clause = settled.map (Entry.map Place.ready) := by
  induction clause generalizing settled with
  | nil =>
    cases h
    rfl
  | cons entry rest ih =>
    rcases entry with ⟨connective, condition | slot⟩ | ⟨connective, negated⟩ | _
    · obtain ⟨_, more, rfl⟩ := Option.map_eq_some_iff.1 h
      rw [ih more]
      rfl
    · cases h
    · obtain ⟨_, more, rfl⟩ := Option.map_eq_some_iff.1 h
      rw [ih more]
      rfl
    · obtain ⟨_, more, rfl⟩ := Option.map_eq_some_iff.1 h
      rw [ih more]
      rfl

end Clause

theorem Condition.clauseGrounded_iff {clause : Clause Condition} :
    Condition.ClauseGrounded given clause ↔ ∀ connective condition,
      .item connective condition ∈ clause → condition.Grounded given := by
  induction clause with
  | nil => simp [Condition.ClauseGrounded]
  | cons entry rest ih =>
    rw [Condition.ClauseGrounded, ih]
    cases entry with
    | item connective condition =>
      constructor
      · rintro ⟨first, more⟩ other held member
        rcases List.mem_cons.1 member with here | later
        · cases here
          exact first
        · exact more other held later
      · intro all
        exact ⟨all connective condition List.mem_cons_self,
          fun other held member => all other held (List.mem_cons_of_mem _ member)⟩
    | opening | closing => simp [Condition.EntryGrounded]

def Output.Grounded (given : Value → Prop) : Output → Prop
  | .column .. => True
  | .aggregate measure rows _ => measure.Parsed rows.label ∧ rows.Grounded given

structure Statement.Grounded (given : Value → Prop) (s : Statement) : Prop where
  outputs : ∀ output ∈ s.outputs, output.Grounded given
  extras : ∀ output ∈ s.extras, output.Grounded given
  conditions : ∀ connective condition, .item connective (.ready condition) ∈ s.conditions →
    condition.Grounded given
  nesting : Clause.nesting 0 s.conditions = some s.openGroups

theorem Output.grounded_mono {wider : Value → Prop} (sub : ∀ value, given value → wider value)
    {output : Output} (h : output.Grounded given) : output.Grounded wider := by
  cases output with
  | column => exact h
  | aggregate measure rows label => exact ⟨h.1, Subquery.grounded_mono sub rows h.2⟩

theorem Output.reads_sql {output : Output} (h : output.Grounded given) :
    Reads dialect (LiteralOf given) 0 0 (output.sql dialect) := by
  cases output with
  | column name label =>
    cases label with
    | none => exact Cut.quote name
    | some label => exact Cut.quotePair name " AS " label (by decide) (by decide)
  | aggregate measure rows label =>
    have what : Reads dialect (LiteralOf given) 0 0 (measure.sql dialect rows.label) :=
      Aggregate.reads_sql h.1
    have body := Cut.selecting what (Subquery.reads_sql rows h.2)
    have named := body.reads.mark " AS " (c := 0) (by decide) (by decide)
    exact named.next (Cut.quote label)

namespace Statement

variable {s : Statement}

theorem Grounded.mono {wider : Value → Prop} (sub : ∀ value, given value → wider value)
    (h : s.Grounded given) : s.Grounded wider where
  outputs output member := Output.grounded_mono sub (h.outputs output member)
  extras output member := Output.grounded_mono sub (h.extras output member)
  conditions connective condition member :=
    Condition.grounded_mono sub condition (h.conditions connective condition member)
  nesting := h.nesting

theorem ready_of_filter {clause : Clause Condition} (filter : s.filter = .ok clause) :
    s.openGroups = 0 ∧ s.conditions = clause.map (Entry.map .ready) := by
  unfold Statement.filter at filter
  split at filter
  · cases filter
  · next closed =>
    split at filter
    · next settled =>
      cases filter
      exact ⟨Nat.eq_zero_of_not_pos closed, Clause.eq_map_of_settled? settled⟩
    · cases filter

theorem Grounded.of_filter (h : s.Grounded given) {clause : Clause Condition}
    (filter : s.filter = .ok clause) :
    Condition.ClauseGrounded given clause ∧ Clause.nesting 0 clause = some 0 := by
  obtain ⟨closed, whole⟩ := ready_of_filter filter
  constructor
  · rw [Condition.clauseGrounded_iff]
    intro connective condition member
    apply h.conditions connective condition
    rw [whole]
    exact List.mem_map_of_mem member
  · have nested := h.nesting
    rwa [whole, Clause.nesting_map, closed] at nested

theorem reads_bodyText (h : s.Grounded given) {table : Table} {clause : Clause Condition}
    (filter : s.filter = .ok clause) :
    Reads s.dialect (LiteralOf given) 0 0 (s.bodyText table clause) := by
  obtain ⟨grounded, nested⟩ := h.of_filter filter
  have source : Reads s.dialect (LiteralOf given) 0 0
      (({ table, joins := s.joins } : Source).sql s.dialect) := Cut.source _
  unfold bodyText Clause.sql?
  dsimp only
  by_cases bare : clause.isEmpty
  · rw [if_pos bare]
    exact source
  · rw [if_neg bare]
    exact (source.mark " WHERE " (by decide) (by decide)).next
      (Condition.reads_clause grounded nested)

theorem reads_projectionSql (h : s.Grounded given) (table : Table) :
    Reads s.dialect (LiteralOf given) 0 0 (s.projectionSql table) := by
  have chosen : Reads s.dialect (LiteralOf given) 0 0
      (if s.outputs.isEmpty then s.dialect.quote table.knownAs ++ ".*"
      else String.intercalate ", " (s.outputs.map (Output.sql s.dialect))) := by
    split
    · have star : Reads s.dialect (LiteralOf given) 0 0 ".*" :=
        Cut.of_solid _ (by decide) (by decide)
      exact (Cut.quote _).followed star (by decide)
    · apply Cut.intercalate (Cut.of_fixed (by decide))
      · exact fun rest => by simp [Parted]
      · intro text member
        obtain ⟨output, held, rfl⟩ := List.mem_map.1 member
        exact Output.reads_sql (h.outputs output held)
  have extras : Reads s.dialect (LiteralOf given) 0 0
        (String.join (s.extras.map fun extra => ", " ++ extra.sql s.dialect)) ∧
      Parted (String.join (s.extras.map fun extra => ", " ++ extra.sql s.dialect)).toList := by
    apply Cut.join
    · intro text member
      obtain ⟨output, held, rfl⟩ := List.mem_map.1 member
      have comma : Leads s.dialect (LiteralOf given) 0 0 ", " := Cut.of_fixed (by decide)
      exact comma.next (Output.reads_sql (h.extras output held))
    · intro text member
      obtain ⟨output, _, rfl⟩ := List.mem_map.1 member
      simp [Parted]
  exact chosen.followed extras.1 extras.2

theorem reads_orderSql (s : Statement) (allowed : List Char → Prop) :
    Reads s.dialect allowed 0 0 s.orderSql ∧ Parted s.orderSql.toList := by
  unfold orderSql
  split
  · exact ⟨Cut.empty, by decide⟩
  · refine ⟨?_, by simp [Parted]⟩
    have head : Leads s.dialect allowed 0 0 " ORDER BY " := Cut.of_fixed (by decide)
    apply head.next
    apply Cut.intercalate (Cut.of_fixed (by decide))
    · exact fun rest => by simp [Parted]
    · intro text member
      obtain ⟨⟨column, direction⟩, _, rfl⟩ := List.mem_map.1 member
      have name : Reads s.dialect allowed 0 0 (s.dialect.quote column) := Cut.quote column
      have way : Leads s.dialect allowed 0 0 direction.sql := by
        cases direction <;> exact Cut.of_fixed (by decide)
      exact ((name.mark " " (by decide) (by decide)).next way).reads

theorem reads_pagingSql (s : Statement) (allowed : List Char → Prop) :
    Reads s.dialect allowed 0 0 s.pagingSql ∧ Parted s.pagingSql.toList := by
  have limit (count : Nat) : Reads s.dialect allowed 0 0 (" LIMIT " ++ toString count) :=
    (Cut.of_fixed (by decide) : Leads s.dialect allowed 0 0 " LIMIT ").next (Cut.digits count)
  unfold pagingSql
  split
  · next count skipped _ _ =>
    have offset := (limit count).mark " OFFSET " (c := 0) (by decide) (by decide)
    exact ⟨offset.next (Cut.digits skipped), by simp [Parted]⟩
  · next count _ _ => exact ⟨limit count, by simp [Parted]⟩
  · next skipped _ _ =>
    have head : Leads s.dialect allowed 0 0
        ((if s.dialect = .postgresql then "" else " LIMIT -1") ++ " OFFSET ") := by
      split <;> exact Cut.of_fixed (by decide)
    refine ⟨head.next (Cut.digits skipped), ?_⟩
    split <;> simp [Parted]
  · exact ⟨Cut.empty, by decide⟩

theorem safe_of_sql (h : s.Grounded given) {text : String} (written : s.sql = .ok text) :
    Safe s.dialect (LiteralOf given) text := by
  obtain ⟨table, clause, filter, rfl⟩ := exists_of_sql written
  have head : Leads s.dialect (LiteralOf given) 0 0 "SELECT " := Cut.of_fixed (by decide)
  have chosen := (head.next (reads_projectionSql h table)).mark " FROM " (c := 0) (by decide)
    (by decide)
  have body : Reads s.dialect (LiteralOf given) 0 0 (s.bodyText table clause) :=
    reads_bodyText h filter
  have order := reads_orderSql s (LiteralOf given)
  have paging := reads_pagingSql s (LiteralOf given)
  exact (((chosen.next body).followed order.1 order.2).followed paging.1 paging.2).safe

theorem safe_of_countSql (h : s.Grounded given) {column text : String}
    (written : s.countSql column = .ok text) : Safe s.dialect (LiteralOf given) text := by
  obtain ⟨table, clause, filter, rfl⟩ := exists_of_countSql written
  have head : Leads s.dialect (LiteralOf given) 0 0 "SELECT COUNT(*) AS " :=
    Cut.of_fixed (by decide)
  have named := (head.next (Cut.quote column)).mark " FROM " (c := 0) (by decide) (by decide)
  have body : Reads s.dialect (LiteralOf given) 0 0 (s.bodyText table clause) :=
    reads_bodyText h filter
  exact (named.next body).safe

end Statement

end RelationQuery
