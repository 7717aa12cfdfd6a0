import RelationQuery.Load
import RelationQuery.Proofs.Outcome

/-! What it takes to write a statement, and the texts it is written as then. -/
namespace RelationQuery

namespace Clause

def Settled (clause : Clause Place) : Prop := ∀ entry ∈ clause, ∀ connective slot,
  entry ≠ .item connective (.reserved slot)

theorem isSome_settled?_iff {clause : Clause Place} :
    (settled? clause).isSome ↔ Settled clause := by
  unfold Settled
  induction clause with
  | nil => simp [settled?]
  | cons entry rest ih =>
    rcases entry with ⟨connective, condition | slot⟩ | ⟨connective, negated⟩ | _ <;>
      simp [settled?, ih]

theorem settled_behind_iff {lead clause : Clause Place} (h : Settled lead) :
    Settled (clause.behind lead) ↔ Settled clause := by
  unfold behind
  by_cases empty : clause.isEmpty
  · rw [List.isEmpty_iff.1 empty]
    simpa [Settled] using h
  · rw [if_neg empty]
    constructor
    · intro settled entry member
      exact settled entry (by simp [member])
    · intro settled entry member
      simp only [List.mem_append, List.mem_cons, List.not_mem_nil, or_false] at member
      rcases member with leads | rfl | inner | rfl
      · exact h entry leads
      · simp
      · exact settled entry inner
      · simp

end Clause

theorem Relation.settled_keyFilter (columns : List String) (keys : List (List Value)) :
    Clause.Settled (keyFilter columns keys) := by
  intro entry member connective slot
  unfold keyFilter at member
  rintro rfl
  split at member
  · simp at member
  · simp only [List.mem_cons, reduceCtorEq, List.mem_append, List.mem_flatMap, List.not_mem_nil,
      or_false, false_or, ← List.map_uncurry_zip_eq_zipWith, List.mem_map] at member
    obtain ⟨_, _, _, _, equality⟩ := member
    cases equality

namespace Statement

theorem requireTable_ok_iff {s : Statement} {table : Table} :
    s.requireTable = .ok table ↔ s.table = some table := by
  unfold requireTable
  split
  · next held => rw [held, Except.ok.injEq, Option.some_inj]
  · next missing => simp [missing]

def bodyText (s : Statement) (table : Table) (clause : Clause Condition) : String :=
  let source := ({ table, joins := s.joins } : Source).sql s.dialect
  match clause.sql? s.dialect with
  | some conditions => source ++ " WHERE " ++ conditions
  | none => source

theorem bodySql_eq (s : Statement) : s.bodySql = do
    let table ← s.requireTable
    let clause ← s.filter
    return s.bodyText table clause := by
  unfold bodySql sourceSql source filterSql bodyText
  cases s.requireTable with
  | error error => rfl
  | ok table =>
    cases s.filter with
    | error error => rfl
    | ok clause =>
      change (match clause.sql? s.dialect with
        | some _ => Except.ok _
        | none => Except.ok _) = Except.ok (match clause.sql? s.dialect with
          | some _ => _
          | none => _)
      cases clause.sql? s.dialect <;> rfl

theorem sql_eq (s : Statement) : s.sql = do
    let table ← s.requireTable
    let clause ← s.filter
    return "SELECT " ++ s.projectionSql table ++ " FROM " ++ s.bodyText table clause ++
      s.orderSql ++ s.pagingSql := by
  unfold sql
  rw [bodySql_eq]
  cases s.requireTable with
  | error error => rfl
  | ok table =>
    simp only [bind, Except.bind, pure, Except.pure]
    cases s.filter <;> rfl

theorem countSql_eq (column : String) (s : Statement) : s.countSql column = do
    let table ← s.requireTable
    let clause ← s.filter
    return "SELECT COUNT(*) AS " ++ s.dialect.quote column ++ " FROM " ++
      s.bodyText table clause := by
  unfold countSql
  rw [bodySql_eq]
  cases s.requireTable with
  | error error => rfl
  | ok table =>
    simp only [bind, Except.bind, pure, Except.pure]
    cases s.filter <;> rfl

theorem exists_of_sql {s : Statement} {text : String} (h : s.sql = .ok text) :
    ∃ table clause, s.filter = .ok clause ∧
      text = "SELECT " ++ s.projectionSql table ++ " FROM " ++ s.bodyText table clause ++
        s.orderSql ++ s.pagingSql := by
  rw [sql_eq] at h
  obtain ⟨table, _, h⟩ := Outcome.exists_of_bind h
  obtain ⟨clause, filter, h⟩ := Outcome.exists_of_bind h
  exact ⟨table, clause, filter, (Except.ok.inj h).symm⟩

theorem exists_of_countSql {s : Statement} {column text : String}
    (h : s.countSql column = .ok text) :
    ∃ table clause, s.filter = .ok clause ∧
      text = "SELECT COUNT(*) AS " ++ s.dialect.quote column ++ " FROM " ++
        s.bodyText table clause := by
  rw [countSql_eq] at h
  obtain ⟨table, _, h⟩ := Outcome.exists_of_bind h
  obtain ⟨clause, filter, h⟩ := Outcome.exists_of_bind h
  exact ⟨table, clause, filter, (Except.ok.inj h).symm⟩

/-- What keeps a statement from being written: it has no table, or its conditions are not
complete. -/
def ready (s : Statement) : Except Error Unit := do
  let _ ← s.requireTable
  let _ ← s.filter

theorem sql_ready (s : Statement) : s.sql.map (fun _ => ()) = s.ready := by
  rw [sql_eq, ready]
  cases s.requireTable with
  | error error => rfl
  | ok table => cases s.filter <;> rfl

theorem countSql_ready (column : String) (s : Statement) :
    (s.countSql column).map (fun _ => ()) = s.ready := by
  rw [countSql_eq, ready]
  cases s.requireTable with
  | error error => rfl
  | ok table => cases s.filter <;> rfl

theorem sql_error_iff (s : Statement) (error : Error) :
    s.sql = .error error ↔ s.ready = .error error := by
  rw [← sql_ready]
  cases s.sql <;> simp [Except.map]

theorem exists_sql_iff (s : Statement) :
    (∃ text, s.sql = .ok text) ↔ s.ready = .ok () := by
  rw [← sql_ready]
  cases s.sql <;> simp [Except.map]

theorem exists_countSql {s : Statement} {text : String} (h : s.sql = .ok text) (column : String) :
    ∃ text, s.countSql column = .ok text := by
  have ready := (exists_sql_iff s).1 ⟨text, h⟩
  rw [← countSql_ready column] at ready
  cases count : s.countSql column with
  | error error => simp [count, Except.map] at ready
  | ok text => exact ⟨text, rfl⟩

theorem countSql_error {s : Statement} {error : Error} (h : s.sql = .error error)
    (column : String) : s.countSql column = .error error := by
  rw [sql_error_iff, ← countSql_ready column] at h
  cases count : s.countSql column with
  | error other => simpa [count, Except.map] using h
  | ok text => simp [count, Except.map] at h

theorem ready_follow {lead : Clause Place} (h : lead.Settled) (s : Statement) :
    (s.follow lead).ready = s.ready := by
  have settled : (s.conditions.behind lead).settled?.isSome = s.conditions.settled?.isSome := by
    rw [Bool.eq_iff_iff, Clause.isSome_settled?_iff, Clause.isSome_settled?_iff]
    exact Clause.settled_behind_iff h
  have filter : (s.follow lead).filter.map (fun _ => ()) = s.filter.map (fun _ => ()) := by
    unfold Statement.filter follow
    dsimp only
    split
    · rfl
    · cases front : (s.conditions.behind lead).settled? <;>
        cases back : s.conditions.settled? <;> simp_all [Except.map]
  have ready (s : Statement) :
      s.ready = s.requireTable.bind fun _ => s.filter.map fun _ => () := by
    unfold Statement.ready
    cases s.requireTable with
    | error error => rfl
    | ok table => cases s.filter <;> rfl
  rw [ready, ready, filter]
  rfl

end Statement

end RelationQuery
