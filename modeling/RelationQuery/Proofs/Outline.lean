import RelationQuery.Proofs.Nesting
import RelationQuery.Proofs.Outcome

/-! Clauses as trees of groups. Main statement: what calls leave as a flat clause is written as the
tree that the calls describe, less the groups that no condition came into. -/
namespace RelationQuery

namespace Entry

variable {α β : Type} (f : α → β)

@[simp] theorem map_item (connective : Connective) (content : α) :
    map f (.item connective content) = .item connective (f content) := rfl

@[simp] theorem map_opening (connective : Connective) (negated : Bool) :
    map f (.opening connective negated) = .opening connective negated := rfl

@[simp] theorem map_closing : map f .closing = .closing := rfl

@[simp] theorem isOpening_map (entry : Entry α) : (map f entry).isOpening = entry.isOpening := by
  cases entry <;> rfl

end Entry

/-- Conditions and groups of them, in order. A group may be empty. -/
inductive Outline (α : Type) where
  | done
  | item (connective : Connective) (content : α) (rest : Outline α)
  | group (connective : Connective) (negated : Bool) (members rest : Outline α)

def Connective.join : List (Connective × String) → String
  | [] => ""
  | (_, first) :: rest =>
    first ++ String.join (rest.map fun (connective, text) => " " ++ connective.sql ++ " " ++ text)

namespace Outline

variable {α : Type}

def calls : Outline α → Clause α
  | done => []
  | item connective content rest => .item connective content :: rest.calls
  | group connective negated members rest =>
    .opening connective negated :: (members.calls ++ .closing :: rest.calls)

def clause : Outline α → Clause α
  | done => []
  | item connective content rest => .item connective content :: rest.clause
  | group connective negated members rest =>
    (if members.clause = [] then []
      else .opening connective negated :: (members.clause ++ [.closing])) ++ rest.clause

/-- What there is to write of an outline, side by side. A group is one text, and none at all when
nothing in it is left to write. -/
def pieces (render : α → String) : Outline α → List (Connective × String)
  | done => []
  | item connective content rest => (connective, render content) :: rest.pieces render
  | group connective negated members rest =>
    (if members.pieces render = [] then []
      else
        [(connective, (if negated then "NOT (" else "(") ++
          Connective.join (members.pieces render) ++ ")")]) ++
      rest.pieces render

def sql? (dialect : Dialect) (outline : Outline Condition) : Option String :=
  let pieces := outline.pieces (Condition.sql dialect)
  if pieces = [] then none else some (Connective.join pieces)

end Outline

namespace Clause

/-- The conditions of a clause in order, each with its connective and the groups around it, the
innermost first. -/
def located {α : Type} (around : List (Connective × Bool)) :
    Clause α → List (List (Connective × Bool) × Connective × α)
  | [] => []
  | .item connective content :: rest => (around, connective, content) :: located around rest
  | .opening connective negated :: rest => located ((connective, negated) :: around) rest
  | .closing :: rest => located around.tail rest

end Clause

def Statement.enter (s : Statement) : Entry Condition → Except Error Statement
  | .item connective condition => .ok (s.addCondition connective condition)
  | .opening connective negated => .ok (s.openGroup connective negated)
  | .closing => s.closeGroup

namespace Outline

variable {α : Type}

theorem isOpening_getLast?_clause (outline : Outline α) :
    outline.clause.getLast?.any Entry.isOpening = false := by
  induction outline with
  | done => rfl
  | item connective content rest ih =>
    rw [clause, List.getLast?_cons]
    cases last : rest.clause.getLast? with
    | none => rfl
    | some entry => simpa [last] using ih
  | group connective negated members rest _ ih =>
    rw [clause, List.getLast?_append]
    cases last : rest.clause.getLast? with
    | some entry => simpa [last] using ih
    | none =>
      split
      · rfl
      · rw [List.getLast?_cons, List.getLast?_concat]
        rfl

theorem closeGroup_clause {β : Type} (f : α → β) (lead : Clause β) (connective : Connective)
    (negated : Bool) (members : Outline α) :
    Clause.closeGroup (lead ++ .opening connective negated :: members.clause.map (Entry.map f)) =
      lead ++ (if members.clause = [] then []
        else .opening connective negated :: (members.clause ++ [.closing])).map (Entry.map f) := by
  have last := isOpening_getLast?_clause members
  unfold Clause.closeGroup
  by_cases empty : members.clause = []
  · simp [empty, Entry.isOpening]
  · obtain ⟨front, entry, split⟩ := List.eq_nil_or_concat members.clause |>.resolve_left empty
    rw [split, List.concat_eq_append, List.getLast?_concat] at last
    have kept : entry.isOpening = false := last
    simp [split, List.getLast?_append, List.getLast?_cons, kept]

theorem foldlM_enter (outline : Outline Condition) (s : Statement) :
    outline.calls.foldlM Statement.enter s =
      .ok { s with conditions := s.conditions ++ outline.clause.map (Entry.map .ready) } := by
  induction outline generalizing s with
  | done => simp [calls, clause, pure, Except.pure]
  | item connective condition rest ih =>
    rw [calls, List.foldlM_cons, Statement.enter, Outcome.ok_bind, ih]
    simp [Statement.addCondition, Clause.add, clause]
  | group connective negated members rest inner outer =>
    have closes : Clause.closeGroup ((s.conditions.openGroup connective negated) ++
        members.clause.map (Entry.map .ready)) = s.conditions ++
          (if members.clause = [] then []
            else .opening connective negated :: (members.clause ++ [.closing])).map
              (Entry.map .ready) := by
      rw [Clause.openGroup, List.append_assoc]
      exact closeGroup_clause Place.ready s.conditions connective negated members
    rw [calls, List.foldlM_cons, Statement.enter, Outcome.ok_bind, List.foldlM_append, inner,
      Outcome.ok_bind, List.foldlM_cons, Statement.enter, Statement.closeGroup]
    simp only [Statement.openGroup, Nat.add_one_ne_zero, if_false, closes, Outcome.ok_bind, outer]
    simp [clause]

/-- Calls that close every group are those of an outline. More generally, where `depth` groups are
open already, an outline stands before each of the calls that close them, and one behind. -/
theorem exists_calls_eq {calls : Clause α} {depth : Nat} (h : Clause.nesting depth calls = some 0) :
    ∃ (first : Outline α) (others : List (Outline α)), others.length = depth ∧
      calls = first.calls ++ others.flatMap fun outline => .closing :: outline.calls := by
  induction calls generalizing depth with
  | nil =>
    cases h
    exact ⟨done, [], rfl, rfl⟩
  | cons call rest ih =>
    unfold Clause.nesting at h
    rw [List.foldlM_cons] at h
    cases call with
    | item connective content =>
      obtain ⟨first, others, length, rfl⟩ := ih h
      exact ⟨item connective content first, others, length, rfl⟩
    | opening connective negated =>
      obtain ⟨members, _ | ⟨first, others⟩, length, rfl⟩ := ih h
      · cases length
      · exact ⟨group connective negated members first, others, Nat.succ.inj length,
          by simp [Outline.calls]⟩
    | closing =>
      cases depth with
      | zero => cases h
      | succ depth =>
        obtain ⟨first, others, length, rfl⟩ := ih h
        exact ⟨done, first :: others, congrArg Nat.succ length, rfl⟩

theorem calls_injective {first second : Outline α} {behind after : Clause α}
    (ends : ∀ entry ∈ behind.head?, entry = .closing)
    (stops : ∀ entry ∈ after.head?, entry = .closing)
    (h : first.calls ++ behind = second.calls ++ after) : first = second ∧ behind = after := by
  induction first generalizing second behind after with
  | done =>
    cases second with
    | done => exact ⟨rfl, h⟩
    | item | group =>
      rw [calls, List.nil_append] at h
      subst h
      cases ends _ rfl
  | item connective content rest ih =>
    cases second with
    | item =>
      simp only [calls, List.cons_append, List.cons.injEq, Entry.item.injEq] at h
      obtain ⟨⟨rfl, rfl⟩, h⟩ := h
      obtain ⟨rfl, rfl⟩ := ih ends stops h
      exact ⟨rfl, rfl⟩
    | done =>
      rw [calls, List.nil_append] at h
      subst h
      cases stops _ rfl
    | group => cases (List.cons.inj h).1
  | group connective negated members rest inner outer =>
    cases second with
    | group =>
      simp only [calls, List.cons_append, List.append_assoc, List.cons.injEq,
        Entry.opening.injEq] at h
      obtain ⟨⟨rfl, rfl⟩, h⟩ := h
      obtain ⟨rfl, more⟩ := inner (by simp) (by simp) h
      obtain ⟨rfl, rfl⟩ := outer ends stops (List.cons.inj more).2
      exact ⟨rfl, rfl⟩
    | done =>
      rw [calls, List.nil_append] at h
      subst h
      cases stops _ rfl
    | item => cases (List.cons.inj h).1

theorem existsUnique_calls_eq {calls : Clause α} (h : Clause.nesting 0 calls = some 0) :
    ∃! outline : Outline α, outline.calls = calls := by
  obtain ⟨outline, others, length, rfl⟩ := exists_calls_eq h
  obtain rfl := List.length_eq_zero_iff.1 length
  refine ⟨outline, by simp, fun other same => ?_⟩
  have bare : other.calls ++ [] = outline.calls ++ [] := by simpa using same
  exact (calls_injective (by simp) (by simp) bare).1

def joinFrom (leading : Bool) : List (Connective × String) → String
  | [] => ""
  | (connective, text) :: rest => Clause.joint leading connective ++ text ++ joinFrom false rest

theorem joinFrom_append (leading : Bool) (first second : List (Connective × String)) :
    joinFrom leading (first ++ second) =
      joinFrom leading first ++ joinFrom (leading && first.isEmpty) second := by
  induction first generalizing leading with
  | nil => simp [joinFrom]
  | cons piece rest ih => simp [joinFrom, ih, String.append_assoc]

theorem joinFrom_true (pieces : List (Connective × String)) :
    joinFrom true pieces = Connective.join pieces := by
  have follow (rest : List (Connective × String)) : joinFrom false rest =
      String.join (rest.map fun (connective, text) => " " ++ connective.sql ++ " " ++ text) := by
    induction rest with
    | nil => rfl
    | cons piece rest ih => simp [joinFrom, ih, Clause.joint, String.join_cons]
  cases pieces with
  | nil => rfl
  | cons piece rest =>
    rw [joinFrom, follow]
    simp [Connective.join, Clause.joint]

theorem clause_eq_nil_iff (render : α → String) (outline : Outline α) :
    outline.clause = [] ↔ outline.pieces render = [] := by
  induction outline with
  | done => simp [clause, pieces]
  | item => simp [clause, pieces]
  | group connective negated members rest inner outer =>
    by_cases empty : members.clause = []
    · simp [clause, pieces, empty, inner.1 empty, outer]
    · have kept : members.pieces render ≠ [] := fun blank => empty (inner.2 blank)
      simp [clause, pieces, empty, kept]

/-- Writing the flat clause writes the pieces of the outline one after the other. -/
theorem text_clause (render : α → String) (outline : Outline α) (leading : Bool)
    (behind : Clause String) :
    Clause.text leading (outline.clause.map (Entry.map render) ++ behind) =
      joinFrom leading (outline.pieces render) ++
        Clause.text (leading && (outline.pieces render).isEmpty) behind := by
  induction outline generalizing leading behind with
  | done => simp [clause, pieces, joinFrom]
  | item connective content rest ih =>
    simp [clause, pieces, Clause.text, joinFrom, ih, String.append_assoc]
  | group connective negated members rest inner outer =>
    by_cases empty : members.clause = []
    · simp [clause, pieces, empty, (clause_eq_nil_iff render members).1 empty, outer]
    · have kept : members.pieces render ≠ [] :=
        fun blank => empty ((clause_eq_nil_iff render members).2 blank)
      simp [clause, pieces, empty, kept, Clause.text, inner, outer, joinFrom,
        joinFrom_true, String.append_assoc]

theorem sql?_clause (dialect : Dialect) (outline : Outline Condition) :
    outline.clause.sql? dialect = outline.sql? dialect := by
  unfold Clause.sql? sql?
  have empty := clause_eq_nil_iff (Condition.sql dialect) outline
  by_cases blank : outline.clause = []
  · simp [blank, empty.1 blank]
  · have text := text_clause (Condition.sql dialect) outline true []
    rw [List.append_nil, joinFrom_true, Clause.text, String.append_empty] at text
    have kept : outline.pieces (Condition.sql dialect) ≠ [] := fun h => blank (empty.2 h)
    simp [blank, kept, Condition.clauseSql_eq_map, text]

theorem located_clause (outline : Outline α) (around : List (Connective × Bool))
    {behind after : Clause α} (h : Clause.located around behind = Clause.located around after) :
    Clause.located around (outline.clause ++ behind) =
      Clause.located around (outline.calls ++ after) := by
  induction outline generalizing around behind after with
  | done => exact h
  | item connective content rest ih => simp [clause, calls, Clause.located, ih around h]
  | group connective negated members rest inner outer =>
    have within : Clause.located ((connective, negated) :: around)
          (members.clause ++ .closing :: (rest.clause ++ behind)) =
        Clause.located ((connective, negated) :: around)
          (members.calls ++ .closing :: (rest.calls ++ after)) := inner _ (outer around h)
    by_cases empty : members.clause = []
    · simpa [clause, calls, empty, Clause.located] using within
    · simpa [clause, calls, empty, Clause.located] using within

theorem pieces_eq_nil_iff (render : α → String) (outline : Outline α) :
    outline.pieces render = [] ↔
      ∀ connective content, .item connective content ∉ outline.calls := by
  induction outline with
  | done => simp [pieces, calls]
  | item connective content rest =>
    simp only [pieces, calls, List.cons_ne_nil, List.mem_cons, false_iff, not_forall, not_not]
    exact ⟨connective, content, .inl rfl⟩
  | group connective negated members rest inner outer =>
    by_cases empty : members.pieces render = []
    · simp [pieces, calls, empty, outer, inner.1 empty]
    · obtain ⟨other, content, found⟩ : ∃ other content, .item other content ∈ members.calls := by
        simpa using mt inner.2 empty
      simp only [pieces, empty, if_false, List.cons_append, List.cons_ne_nil, false_iff, not_forall,
        not_not]
      exact ⟨other, content, by simp [calls, found]⟩

end Outline

namespace Statement

theorem openGroups_enter {s after : Statement} {call : Entry Condition}
    (h : s.enter call = .ok after) : Entry.nest s.openGroups call = some after.openGroups := by
  cases call with
  | item | opening =>
    cases h
    rfl
  | closing =>
    rw [enter, closeGroup] at h
    rw [Entry.nest]
    split at h
    · cases h
    · next opened =>
      cases h
      rw [if_neg opened]

theorem nesting_of_enter {start s : Statement} {calls : Clause Condition}
    (h : calls.foldlM enter start = .ok s) :
    Clause.nesting start.openGroups calls = some s.openGroups := by
  unfold Clause.nesting
  induction calls generalizing start with
  | nil =>
    cases h
    rfl
  | cons call rest ih =>
    rw [List.foldlM_cons] at h ⊢
    obtain ⟨next, here, more⟩ := Outcome.exists_of_bind h
    rw [openGroups_enter here]
    exact ih more

theorem filter_of_ready {s : Statement} {clause : Clause Condition} (closed : s.openGroups = 0)
    (h : s.conditions = clause.map (Entry.map .ready)) : s.filter = .ok clause := by
  have settled : Clause.settled? (clause.map (Entry.map Place.ready)) = some clause := by
    clear h
    induction clause with
    | nil => rfl
    | cons entry rest ih => cases entry <;> simp [Clause.settled?, ih]
  unfold filter
  simp [closed, h, settled]

/-- Calls that close every group they open describe one outline, and its text is that of the
clause they leave: groups without a condition are gone, and what is first in its group or in the
whole stands without its connective. Every condition is in the groups that were open when it was
added, and there is no text exactly when no condition was. -/
theorem filterSql_of_calls {start s : Statement} {calls : Clause Condition}
    (bare : start.conditions = [] ∧ start.openGroups = 0)
    (entered : calls.foldlM enter start = .ok s) (closed : s.openGroups = 0) :
    (∃! outline : Outline Condition, outline.calls = calls) ∧
    (∀ outline : Outline Condition, outline.calls = calls →
      s.filterSql = .ok (outline.sql? s.dialect)) ∧
    (∃ clause, s.filter = .ok clause ∧ Clause.located [] clause = Clause.located [] calls) ∧
    (s.filterSql = .ok none ↔ ∀ connective condition, .item connective condition ∉ calls) := by
  have nested := nesting_of_enter entered
  rw [bare.2, closed] at nested
  obtain ⟨outline, rfl, unique⟩ := Outline.existsUnique_calls_eq nested
  rw [Outline.foldlM_enter] at entered
  obtain rfl := Except.ok.inj entered
  have filter : Statement.filter { start with
      conditions := start.conditions ++ outline.clause.map (Entry.map .ready) } =
        .ok outline.clause := by
    apply filter_of_ready closed
    rw [bare.1, List.nil_append]
  have text : Statement.filterSql { start with
      conditions := start.conditions ++ outline.clause.map (Entry.map .ready) } =
        .ok (outline.sql? start.dialect) := by
    unfold filterSql
    rw [filter, Outcome.ok_bind, Outline.sql?_clause]
    rfl
  refine ⟨⟨outline, rfl, unique⟩, ?_, ⟨outline.clause, filter, ?_⟩, ?_⟩
  · intro other same
    rw [unique other same]
    exact text
  · have located : Clause.located [] (outline.clause ++ []) =
        Clause.located [] (outline.calls ++ []) := outline.located_clause [] rfl
    simpa using located
  · rw [text, ← Outline.pieces_eq_nil_iff (Condition.sql start.dialect)]
    unfold Outline.sql?
    simp

theorem filterSql_of_groups :
    let start : Statement := { dialect := .sqlite }
    let calls : Clause Condition := [
      .opening .and false, .closing, .item .or (.compare "paid" .isNot .null),
      .opening .or true, .opening .and false, .closing, .item .or (.compare "open" .is .null),
      .item .and (.member "id" false []), .closing]
    ∃ s, (start.conditions = [] ∧ start.openGroups = 0) ∧
      calls.foldlM enter start = .ok s ∧ s.openGroups = 0 ∧
      s.filterSql = .ok (some "\"paid\" IS NOT NULL OR NOT (\"open\" IS NULL AND 1 = 0)") := by
  intro start calls
  let outline : Outline Condition :=
    .group .and false .done <| .item .or (.compare "paid" .isNot .null) <|
      .group .or true (.group .and false .done <| .item .or (.compare "open" .is .null) <|
        .item .and (.member "id" false []) .done) .done
  have text : outline.sql? .sqlite =
      some "\"paid\" IS NOT NULL OR NOT (\"open\" IS NULL AND 1 = 0)" := by decide +kernel
  refine ⟨_, ⟨rfl, rfl⟩, rfl, rfl, ?_⟩
  exact ((filterSql_of_calls ⟨rfl, rfl⟩ rfl rfl).2.1 outline rfl).trans (congrArg _ text)

end Statement

end RelationQuery
