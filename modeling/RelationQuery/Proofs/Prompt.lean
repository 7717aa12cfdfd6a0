import RelationQuery.Proofs.Assembly
import RelationQuery.Proofs.Deferral
import RelationQuery.Proofs.Statement

/-! Existence conditions that are compiled where they are declared. Main statement: that changes
nothing about the statement a query comes to. -/
namespace RelationQuery

/-- Steps of which some existence conditions, inside groups, are compiled on the spot; `depth` is
the number of groups open before them. -/
inductive Sooner : Nat → Refinement → Refinement → Prop
  | nil (depth : Nat) : Sooner depth [] []
  | same {depth : Nat} {rest others : Refinement} (step : Step)
    (later : Sooner (step.groups depth) rest others) :
    Sooner depth (step :: rest) (step :: others)
  | prompt {depth : Nat} {rest others : Refinement} (connective : Connective)
    (edge : Edge Refinement) (opened : depth ≠ 0) (later : Sooner depth rest others) :
    Sooner depth (.filterExists connective false edge :: rest)
      (.filterExistsNow connective edge :: others)

namespace Query

structure Fresh (q : Query) : Prop where
  closed : q.statement.openGroups = 0
  idle : q.deferrals = []
  free : q.statement.conditions.slots = []

theorem fresh_empty (config : Config) : (empty config).Fresh := ⟨rfl, rfl, rfl⟩

theorem fresh_below (config : Config) (table : Table) (depth : Nat) (correlated : Bool) :
    (below config table depth correlated).Fresh := ⟨rfl, rfl, rfl⟩

def withSlots (slots : Nat) (q : Query) : Query :=
  { q with statement := { q.statement with slots } }

variable {subquery : SubqueryCompiler} {q start after ideal : Query}

theorem Fresh.matches (h : q.Fresh) : q.Matches subquery q := by
  refine ⟨fun _ => .member "" false [], q.statement.slots, ⟨?_, ?_, ?_⟩, ?_, ?_⟩
  · rw [h.free, h.idle]
    rfl
  · simp [h.idle]
  · simp [Within, h.idle]
  · simp [Compiles, h.idle]
  · unfold completed
    rw [Clause.complete_of_slots h.free, ← h.idle]

theorem Matches.eq_withSlots (h : q.Matches subquery ideal)
    (closed : q.statement.openGroups = 0) :
    q.deferrals = [] ∧ q.statement.conditions.slots = [] ∧ ∃ slots, ideal = q.withSlots slots := by
  obtain ⟨meant, slots, waiting, _, rfl⟩ := h
  obtain ⟨idle, free⟩ := waiting.idle closed
  refine ⟨idle, free, slots, ?_⟩
  unfold completed withSlots
  rw [Clause.complete_of_slots free, ← idle]

theorem applyPromptly_false (step : Step) :
    q.applyPromptly subquery false step = q.applyUsing subquery step := by
  unfold applyPromptly
  split
  · exact if_neg (by simp)
  · rfl

theorem refinePromptly_cons_eq {step other : Step} {prompt : Bool} {marked : List (Step × Bool)}
    {others : Refinement}
    (here : q.applyPromptly subquery prompt step = q.applyUsing subquery other)
    (later : ∀ next, q.applyPromptly subquery prompt step = (next, none) →
      next.refinePromptly subquery marked = next.refineUsing subquery others) :
    q.refinePromptly subquery ((step, prompt) :: marked) =
      q.refineUsing subquery (other :: others) := by
  rw [refinePromptly, refineUsing, ← here]
  rcases went : q.applyPromptly subquery prompt step with ⟨next, _ | error⟩
  · exact later next went
  · rfl

theorem refinePromptly_unmarked (subquery : SubqueryCompiler) (q : Query) (steps : Refinement) :
    q.refinePromptly subquery (steps.map (·, false)) = q.refineUsing subquery steps := by
  induction steps generalizing q with
  | nil => rfl
  | cons step rest ih =>
    exact refinePromptly_cons_eq (applyPromptly_false step) fun next _ => ih next

theorem exists_refinePromptly {marked : List (Step × Bool)} (fresh : start.Fresh)
    (calls : ∀ step ∈ marked.map Prod.fst, step.isCall)
    (tableFirst : TableFirst (marked.map Prod.fst))
    (runs : start.refineUsing subquery (marked.map Prod.fst) = .ok q)
    (closed : q.statement.openGroups = 0) :
    q.deferrals = [] ∧ ∃ slots, start.refinePromptly subquery marked = .ok (q.withSlots slots) := by
  have steady : start.Steady (marked.map Prod.fst) :=
    ⟨fun waits => absurd fresh.idle waits, tableFirst⟩
  have unmarked : ((marked.map Prod.fst).map (·, false)).map Prod.fst = marked.map Prod.fst := by
    simp
  have prompt : ((marked.map Prod.fst).map (·, false)).map (fun call => (call.1, true)) =
      marked.map fun call => (call.1, true) := by
    simp
  rw [← refinePromptly_unmarked] at runs
  rw [← unmarked] at calls steady
  obtain ⟨ideal, idealRuns, first⟩ :=
    fresh.matches.follows (List.forall_mem_map.1 calls) steady runs closed
  rw [unmarked] at calls steady
  rw [prompt] at idealRuns
  obtain ⟨other, runs, second⟩ :=
    fresh.matches.leads (List.forall_mem_map.1 calls) steady idealRuns
  obtain ⟨idle, _, slots, rfl⟩ := first.eq_withSlots closed
  have otherClosed : other.statement.openGroups = 0 := by
    obtain ⟨_, _, _, _, eq⟩ := second
    exact (congrArg (·.statement.openGroups) eq).symm.trans closed
  obtain ⟨_, _, _, eq⟩ := second.eq_withSlots otherClosed
  have same := congrArg (withSlots other.statement.slots) eq
  exact ⟨idle, other.statement.slots, runs.trans (congrArg Except.ok same.symm)⟩

theorem exists_of_sooner (subquery : SubqueryCompiler) {depth : Nat} {steps others : Refinement}
    (h : Sooner depth steps others) : ∃ marked : List (Step × Bool),
      marked.map Prod.fst = steps ∧ ∀ q : Query, q.statement.openGroups = depth →
        (∀ step ∈ steps, step.isCall) →
        q.refinePromptly subquery marked = q.refineUsing subquery others := by
  induction h with
  | nil => exact ⟨[], rfl, fun _ _ _ => rfl⟩
  | same step later ih =>
    obtain ⟨marked, rfl, agree⟩ := ih
    refine ⟨(step, false) :: marked, rfl, fun q opened calls => ?_⟩
    refine refinePromptly_cons_eq (applyPromptly_false step) fun next went => ?_
    have advances := advances_of_applyPromptly (calls step List.mem_cons_self) went
    have depth := openGroups_advances (calls step List.mem_cons_self) advances
    rw [opened] at depth
    exact agree next depth fun step member => calls step (List.mem_cons_of_mem _ member)
  | prompt connective edge inside later ih =>
    obtain ⟨marked, rfl, agree⟩ := ih
    refine ⟨(.filterExists connective false edge, true) :: marked, rfl, fun q opened calls => ?_⟩
    have here : q.applyPromptly subquery true (.filterExists connective false edge) =
        q.applyUsing subquery (.filterExistsNow connective edge) :=
      if_pos ⟨rfl, opened ▸ inside⟩
    refine refinePromptly_cons_eq here fun next went => ?_
    have advances := advances_of_applyPromptly (calls _ List.mem_cons_self) went
    have depth := openGroups_advances (calls _ List.mem_cons_self) advances
    rw [opened] at depth
    exact agree next depth fun step member => calls step (List.mem_cons_of_mem _ member)

theorem exists_refineUsing_of_sooner {steps others : Refinement} (fresh : start.Fresh)
    (calls : ∀ step ∈ steps, step.isCall) (tableFirst : TableFirst steps)
    (sooner : Sooner 0 steps others) (runs : start.refineUsing subquery steps = .ok q)
    (closed : q.statement.openGroups = 0) :
    q.deferrals = [] ∧ ∃ slots, start.refineUsing subquery others = .ok (q.withSlots slots) := by
  obtain ⟨marked, rfl, agree⟩ := exists_of_sooner subquery sooner
  rw [← agree start fresh.closed calls]
  exact exists_refinePromptly fresh calls tableFirst runs closed

theorem assemble_withSlots (closed : q.statement.openGroups = 0) (idle : q.deferrals = [])
    (slots : Nat) : (q.withSlots slots).assemble subquery = (fun assembly =>
      { assembly with statement := { assembly.statement with slots } }) <$>
        q.assemble subquery := by
  have closed' : (q.withSlots slots).statement.openGroups = 0 := closed
  have idle' : (q.withSlots slots).deferrals = [] := idle
  rw [assemble_eq closed' idle', assemble_eq closed idle]
  simp only [map_bind]
  rfl

theorem sql_withSlots (closed : q.statement.openGroups = 0) (idle : q.deferrals = [])
    (slots : Nat) : (q.withSlots slots).sql = q.sql := by
  unfold Query.sql compile
  rw [assemble_withSlots closed idle]
  cases q.assemble compileSubquery <;> rfl

theorem closed_of_assemble {assembly : Assembly} (h : q.assemble subquery = .ok assembly) :
    q.statement.openGroups = 0 := by
  unfold assemble at h
  exact Nat.eq_zero_of_not_pos (Outcome.of_check h).1

theorem compileSubqueryWithin_of_sooner {levels : Nat} {scope : Scope} {link : Link Refinement}
    {base : String} {rows : Subquery Condition} {steps others : Refinement}
    (refined : link.refinement = some steps) (calls : ∀ step ∈ steps, step.isCall)
    (tableFirst : TableFirst steps) (sooner : Sooner 0 steps others)
    (compiles : compileSubqueryWithin levels scope link base = .ok rows) :
    compileSubqueryWithin levels scope { link with refinement := some others } base =
      .ok rows := by
  cases levels with
  | zero => cases compiles
  | succ levels =>
    unfold compileSubqueryWithin at compiles ⊢
    obtain ⟨q, runs, compiles⟩ := Outcome.exists_of_bind compiles
    obtain ⟨assembly, assembled, compiles⟩ := Outcome.exists_of_bind compiles
    rw [refined] at runs
    have closed := closed_of_assemble assembled
    obtain ⟨idle, slots, runs⟩ := exists_refineUsing_of_sooner (fresh_below ..) calls tableFirst
      sooner runs closed
    have same : (q.withSlots slots).assemble (compileSubqueryWithin levels) = _ :=
      assemble_withSlots closed idle slots
    rw [assembled] at same
    change (Query.refineUsing _ others _ >>= _) = _
    rw [runs, Outcome.ok_bind, same]
    exact compiles

/-- An existence condition inside a group ends up where it was declared. A run of calls that sets
its table first goes through also when any of these conditions, in either form, are compiled and
put in place on the spot, and when any that ask for related rows are replaced by the calls that do
so. It comes to the same query, but for the number of places reserved, and so to the same text. A
refinement in which they are replaced makes the same subquery. -/
theorem sql_of_prompt {start q : Query} {steps : Refinement} (fresh : start.Fresh)
    (calls : ∀ step ∈ steps, step.isCall) (tableFirst : TableFirst steps)
    (runs : start.refine steps = .ok q) (closed : q.statement.openGroups = 0) :
    (∀ marked : List (Step × Bool), marked.map Prod.fst = steps →
      ∃ slots, start.refinePromptly compileSubquery marked = .ok (q.withSlots slots) ∧
        (q.withSlots slots).sql = q.sql) ∧
    ∀ others, Sooner 0 steps others →
      (∃ slots, start.refine others = .ok (q.withSlots slots) ∧
        (q.withSlots slots).sql = q.sql) ∧
      ∀ (scope : Scope) (link : Link Refinement) (base : String) (rows : Subquery Condition),
        link.refinement = some steps → compileSubquery scope link base = .ok rows →
          compileSubquery scope { link with refinement := some others } base = .ok rows := by
  constructor
  · rintro marked rfl
    obtain ⟨idle, slots, went⟩ := exists_refinePromptly fresh calls tableFirst runs closed
    exact ⟨slots, went, sql_withSlots closed idle slots⟩
  · intro others sooner
    obtain ⟨idle, slots, went⟩ := exists_refineUsing_of_sooner fresh calls tableFirst sooner runs
      closed
    exact ⟨⟨slots, went, sql_withSlots closed idle slots⟩, fun scope link base rows refined =>
      compileSubqueryWithin_of_sooner refined calls tableFirst sooner⟩

def groupedCalls : List Step := [
  .fromTable "users",
  .openGroup .and false,
  .filterExists .and true { target := "orders", foreign := ["user_id"], own := ["id"] },
  .openGroup .or false,
  .filterExists .and false { target := "payments", foreign := ["user_id"], own := ["id"] },
  .filter .and "status" (.text "open"),
  .closeGroup,
  .closeGroup]

def groupedPromptCalls : List Step := [
  .fromTable "users",
  .openGroup .and false,
  .filterExists .and true { target := "orders", foreign := ["user_id"], own := ["id"] },
  .openGroup .or false,
  .filterExistsNow .and { target := "payments", foreign := ["user_id"], own := ["id"] },
  .filter .and "status" (.text "open"),
  .closeGroup,
  .closeGroup]

def groupedText : String :=
  "SELECT \"users\".* FROM \"users\" WHERE (NOT EXISTS (SELECT 1 FROM \"orders\" AS " ++
    "\"orders_s1\" WHERE \"orders_s1\".\"user_id\" = \"users\".\"id\") OR (EXISTS (SELECT 1 " ++
    "FROM \"payments\" AS \"payments_s1\" WHERE \"payments_s1\".\"user_id\" = " ++
    "\"users\".\"id\") AND \"status\" = 'open'))"

theorem grouped_sql_of_prompt :
    (empty {}).Fresh ∧ (∀ step ∈ groupedCalls, step.isCall) ∧ TableFirst groupedCalls ∧
    Sooner 0 groupedCalls groupedPromptCalls ∧
    ∃ q slots, (empty {}).refine groupedCalls = .ok q ∧ q.statement.openGroups = 0 ∧
      (empty {}).refine groupedPromptCalls = .ok (q.withSlots slots) ∧
      (q.withSlots slots).sql.toOption = some groupedText := by
  have calls : ∀ step ∈ groupedCalls, step.isCall := by decide
  have tableFirst : TableFirst groupedCalls := by
    unfold TableFirst
    decide
  have sooner : Sooner 0 groupedCalls groupedPromptCalls :=
    .same _ <| .same _ <| .same _ <| .same _ <| .prompt _ _ (by decide) <| .same _ <| .same _ <|
      .same _ (.nil _)
  refine ⟨fresh_empty {}, calls, tableFirst, sooner, ?_⟩
  have ends : ((empty {}).refine groupedCalls).toOption.map (fun q =>
      (q.statement.openGroups, q.sql.toOption)) = some (0, some groupedText) := by decide +kernel
  cases runs : (empty {}).refine groupedCalls with
  | error error =>
    rw [runs] at ends
    cases ends
  | ok q =>
  rw [runs] at ends
  obtain ⟨closed, text⟩ := Prod.ext_iff.1 (Option.some.inj ends)
  obtain ⟨⟨slots, others, same⟩, _⟩ :=
    (sql_of_prompt (fresh_empty {}) calls tableFirst runs closed).2 _ sooner
  exact ⟨q, slots, rfl, closed, others, (congrArg Except.toOption same).trans text⟩

end Query

end RelationQuery
