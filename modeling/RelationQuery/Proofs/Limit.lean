import Mathlib.Logic.Function.Iterate
import RelationQuery.Proofs.Completion
import RelationQuery.Proofs.Contribution
import RelationQuery.Proofs.Depth

/-! What keeps a query from its text for nesting too deep. Main statement: where calls and
refinements behave, it is a condition on related rows that is declared in a refinement run on the
last level, and nothing else. -/
namespace RelationQuery

namespace Outcome

variable {ε α β : Type} {stuck : Prop} {error : ε}

def FailsIf (stuck : Prop) (error : ε) (result : Except ε α) : Prop :=
  (stuck → result = .error error) ∧ (¬stuck → ∃ a, result = .ok a)

theorem FailsIf.bind {first : Except ε α} {next : α → Except ε β} (h : FailsIf stuck error first)
    (rest : ∀ a, ∃ b, next a = .ok b) : FailsIf stuck error (first >>= next) := by
  constructor
  · intro sticks
    rw [h.1 sticks]
    rfl
  · intro free
    obtain ⟨a, made⟩ := h.2 free
    rw [made]
    exact rest a

theorem FailsIf.congr {other : Prop} {result : Except ε α} (h : FailsIf stuck error result)
    (same : stuck ↔ other) : FailsIf other error result :=
  ⟨h.1 ∘ same.2, h.2 ∘ mt same.1⟩

theorem FailsIf.fails {result : Except ε α} (h : FailsIf stuck error result) :
    Fails (· = error) result := by
  rintro other failed
  by_cases sticks : stuck
  · exact (Except.error.inj ((h.1 sticks).symm.trans failed)).symm
  · obtain ⟨a, made⟩ := h.2 sticks
    cases made.symm.trans failed

theorem FailsIf.fails_ne {result : Except ε α} (h : FailsIf stuck error result) (free : ¬stuck) :
    Fails (· ≠ error) result := by
  obtain ⟨a, made⟩ := h.2 free
  exact made ▸ .ok

end Outcome

open Outcome

/-! ### Which refinements are run on which level -/

namespace Step

def column? : Step → Option Ask
  | .aggregate kind edge _ =>
    edge.link.toOption.map fun link => (link, link.label.getD (link.target ++ "_" ++ kind.name))
  | _ => none

def relates : Step → Bool
  | .filterCount .. | .filterExists .. | .filterExistsNow .. | .filterAggregate .. => true
  | _ => false

/-- Whether a step may stand in a refinement of related rows: it adds a join, a condition or an
aggregate to have a condition on. -/
def narrows : Step → Bool
  | .join .. | .filter .. | .filterIn .. | .openGroup .. | .closeGroup | .aggregate .. => true
  | step => step.relates

theorem relates_of_ask? {columns : List Ask} {step : Step} {ask : Ask}
    (asks : step.ask? columns = some ask) : step.relates := by
  cases step with
  | filterCount | filterExists | filterExistsNow | filterAggregate => rfl
  | _ => cases asks

theorem isCall_of_narrows {step : Step} (narrows : step.narrows) : step.isCall := by
  cases step with
  | fail | attempt => cases narrows
  | _ => rfl

end Step

namespace Refinement

def columns (steps : Refinement) : List Ask := steps.filterMap Step.column?

def asked (steps : Refinement) : List Ask := steps.filterMap (Step.ask? steps.columns)

def asks (correlated : Bool) (steps : Refinement) : List Ask :=
  steps.asked ++ if correlated then [] else steps.columns

end Refinement

namespace Ask

def steps (ask : Ask) : Refinement := ask.1.refinement.getD []

/-- What the refinements of subqueries ask for, one level further in. -/
def below (asks : List Ask) : List Ask := asks.flatMap fun ask => ask.steps.asks true

/-- The refinement of a subquery only narrows its rows. It goes through and closes its groups, or
it stops where the subqueries would nest too deep. -/
def Behaves (config : Config) (level : Nat) (ask : Ask) : Prop :=
  (∀ step ∈ ask.steps, step.narrows) ∧
    ((Query.below config ⟨ask.1.target, some (ask.2 ++ "_s" ++ toString level)⟩ level true).refine
      ask.steps).map (·.statement.openGroups) ∈ [.ok 0, .error (.tooDeep config.maxDepth)]

instance (config : Config) (level : Nat) (ask : Ask) : Decidable (ask.Behaves config level) :=
  inferInstanceAs (Decidable (_ ∧ _))

end Ask

/-! ### From calls to the subqueries that are made -/

namespace Query

variable {subquery : SubqueryCompiler} {q after : Query} {step : Step} {fragment : Fragment}
  {columns : List Ask}

theorem find?_columns {aggregates : List RelatedAggregate} {label : String}
    {held : RelatedAggregate} (before : aggregates.map RelatedAggregate.ask <+: columns)
    (found : aggregates.find? (·.label = label) = some held) :
    columns.find? (·.2 = label) = some held.ask := by
  obtain ⟨rest, rfl⟩ := before
  have same : (fun ask : Ask => decide (ask.2 = label)) ∘ RelatedAggregate.ask =
      fun held => decide (held.label = label) := rfl
  rw [List.find?_append, List.find?_map, same, found]
  rfl

theorem column?_of_fragment (call : step.isCall)
    (gives : q.fragment subquery step = .ok fragment) :
    step.column? = fragment.aggregate?.map RelatedAggregate.ask := by
  cases Step.gives_of_fragment gives with
  | aggregate kind column operand checked =>
    simp only [Step.column?, checked]
    rfl
  | attempt => cases call
  | _ => rfl

theorem asks_of_fragment (call : step.isCall)
    (before : q.aggregates.map RelatedAggregate.ask <+: columns)
    (gives : q.fragment subquery step = .ok fragment) :
    (∃ declaration, fragment = .declared declaration ∧
      declaration.ask? true = step.ask? columns) ∨
    (∀ declaration, fragment ≠ .declared declaration) ∧
      ∀ ask ∈ step.ask? columns, ∃ scope rows, q.scope = .ok scope ∧
        subquery scope ask.1 ask.2 = .ok rows := by
  have compiled {edge : Edge Refinement} {link : Link Refinement} {scope : Scope}
      {existence : RelatedExistence} {condition : Condition} (checked : edge.link = .ok link)
      (known : q.scope = .ok scope) (same : existence.link = link)
      (made : existence.compile subquery scope = .ok condition) :
      ∀ ask ∈ edge.ask?, ∃ scope rows, q.scope = .ok scope ∧
        subquery scope ask.1 ask.2 = .ok rows := by
    rw [Edge.ask?_of_link checked]
    rintro _ ⟨⟩
    obtain ⟨rows, made, _⟩ := Outcome.exists_of_bind made
    exact ⟨scope, rows, known, same ▸ made⟩
  cases Step.gives_of_fragment gives with
  | load | aggregate => exact .inl ⟨_, rfl, rfl⟩
  | filterCount _ _ _ _ checked | filterExists _ _ checked =>
    exact .inl ⟨_, rfl, (Edge.ask?_of_link checked).symm⟩
  | filterExistsHere checked known made | filterExistsNow checked known made =>
    refine .inr ⟨?_, compiled checked known rfl made⟩
    rintro _ ⟨⟩
  | @filterAggregate held connective key value comparison member =>
    refine .inl ⟨_, rfl, ?_⟩
    obtain ⟨⟨label, operator⟩, parted, gives⟩ := Outcome.exists_of_bind gives
    dsimp only at gives
    split at gives
    · obtain ⟨_, gives⟩ := Outcome.of_check gives
      split at gives
      · next found =>
        cases gives
        simp only [Step.ask?, parted]
        exact (find?_columns before found).symm
      · cases gives
    · cases gives
  | attempt => cases call
  | _ =>
    refine .inr ⟨?_, ?_⟩
    · rintro _ ⟨⟩
    · rintro _ ⟨⟩

theorem isSome_ask?_of_fragment (relates : step.relates)
    (before : q.aggregates.map RelatedAggregate.ask <+: columns)
    (gives : q.fragment subquery step = .ok fragment) : (step.ask? columns).isSome := by
  cases Step.gives_of_fragment gives with
  | filterCount _ _ _ _ checked | filterExists _ _ checked | filterExistsHere checked
  | filterExistsNow checked =>
    rw [Step.ask?, Edge.ask?_of_link checked]
    rfl
  | filterAggregate =>
    rcases asks_of_fragment rfl before gives with ⟨_, ⟨⟩, same⟩ | ⟨other, _⟩
    · rw [← same]
      rfl
    · exact absurd rfl (other _)
  | _ => cases relates

theorem declarations_put_of_ne (plain : ∀ declaration, fragment ≠ .declared declaration) :
    (q.put fragment).declarations = q.declarations := by
  cases fragment with
  | declared declaration => exact absurd rfl (plain declaration)
  | entry entry => cases entry <;> rfl
  | _ => rfl

/-- A subquery is declared, or waits to be made, or is made for what stands here. -/
def Meets (subquery : SubqueryCompiler) (config : Config) (depth : Nat) (q : Query) (ask : Ask) :
    Prop :=
  (∃ declaration ∈ q.declarations, declaration.ask? true = some ask) ∨
    (∃ deferred ∈ q.deferrals, deferred.existence.ask = ask) ∨
    ∃ scope rows, scope.config = config ∧ scope.depth = depth ∧
      subquery scope ask.1 ask.2 = .ok rows

structure Adds (subquery : SubqueryCompiler) (config : Config) (depth : Nat) (columns : List Ask)
    (step : Step) (q after : Query) : Prop where
  column : after.aggregates.map RelatedAggregate.ask =
    q.aggregates.map RelatedAggregate.ask ++ step.column?.toList
  declared : ∀ declaration ∈ after.declarations,
    declaration ∈ q.declarations ∨ declaration.ask? true = step.ask? columns
  waiting : ∀ deferred ∈ after.deferrals,
    deferred ∈ q.deferrals ∨ step.ask? columns = some deferred.existence.ask
  kept : ∀ ask, q.Meets subquery config depth ask → after.Meets subquery config depth ask
  met : ∀ ask ∈ step.ask? columns, after.Meets subquery config depth ask
  sure : step.relates → (step.ask? columns).isSome

variable {config : Config} {depth : Nat} {correlated : Bool} {calls front back : Refinement}

theorem adds_put (placed : q.Placed config depth correlated) (call : step.isCall)
    (before : q.aggregates.map RelatedAggregate.ask <+: columns)
    (gives : q.fragment subquery step = .ok fragment) :
    Adds subquery config depth columns step q (q.put fragment) := by
  have column : (q.put fragment).aggregates.map RelatedAggregate.ask =
      q.aggregates.map RelatedAggregate.ask ++ step.column?.toList := by
    rw [aggregates_put, List.map_append, column?_of_fragment call gives]
    cases fragment.aggregate? <;> rfl
  have waiting {deferred : Deferred} (held : deferred ∈ (q.put fragment).deferrals) :
      deferred ∈ q.deferrals := deferrals_put fragment ▸ held
  have kept (ask : Ask) (h : q.Meets subquery config depth ask) :
      (q.put fragment).Meets subquery config depth ask := by
    rcases h with ⟨declaration, held, asks⟩ | ⟨deferred, held, same⟩ | made
    · exact .inl ⟨declaration, declarations_subset_put fragment held, asks⟩
    · exact .inr (.inl ⟨deferred, (deferrals_put fragment).symm ▸ held, same⟩)
    · exact .inr (.inr made)
  refine ⟨column, ?_, fun _ held => .inl (waiting held), kept, ?_,
    fun relates => isSome_ask?_of_fragment relates before gives⟩
  · rcases asks_of_fragment call before gives with ⟨declaration, rfl, same⟩ | ⟨plain, _⟩
    · intro other held
      refine (List.mem_append.1 held).imp_right fun here => ?_
      exact List.mem_singleton.1 here ▸ same
    · exact fun _ held => .inl (declarations_put_of_ne plain ▸ held)
  · intro ask asks
    rcases asks_of_fragment call before gives with ⟨declaration, rfl, same⟩ | ⟨_, made⟩
    · exact .inl ⟨declaration, List.mem_append_right _ List.mem_cons_self, same.trans asks⟩
    · obtain ⟨scope, rows, known, made⟩ := made ask asks
      obtain ⟨configured, depth⟩ := placed.scope known
      exact .inr (.inr ⟨scope, rows, configured, depth, made⟩)

theorem adds_defer {connective : Connective} {negated : Bool} {edge : Edge Refinement}
    {link : Link Refinement} (checked : edge.link = .ok link) :
    Adds subquery config depth columns (.filterExists connective negated edge) q
      (q.defer { link, negated, connective }) where
  column := (List.append_nil _).symm
  declared _ held := .inl held
  waiting deferred held := by
    refine (List.mem_append.1 held).imp_right fun here => ?_
    exact List.mem_singleton.1 here ▸ Edge.ask?_of_link checked
  kept ask h := by
    refine h.imp_right (Or.imp_left ?_)
    rintro ⟨deferred, held, same⟩
    exact ⟨deferred, List.mem_append_left _ held, same⟩
  met ask asks := by
    rw [Step.ask?, Edge.ask?_of_link checked] at asks
    cases asks
    exact .inr (.inl ⟨_, List.mem_append_right _ List.mem_cons_self, rfl⟩)
  sure _ := by
    rw [Step.ask?, Edge.ask?_of_link checked]
    rfl

theorem adds_closeGroup (placed : q.Placed config depth correlated)
    (closes : q.closeGroup subquery = (after, none)) :
    Adds subquery config depth columns .closeGroup q after := by
  have advances : q.Advances subquery false .closeGroup after := .closeGroup closes
  obtain ⟨_, _, conditions, rfl⟩ := of_closeGroup closes
  refine ⟨(List.append_nil _).symm, fun _ held => .inl held, fun _ held =>
    .inl (List.mem_filter.1 held).1, fun ask h => ?_, nofun, nofun⟩
  refine h.imp_right fun h => ?_
  rcases h with ⟨deferred, held, same⟩ | made
  · rcases mem_deferrals_advances advances held with waits | ⟨scope, condition, known, compiled⟩
    · exact .inl ⟨deferred, waits, same⟩
    · obtain ⟨rows, made, _⟩ := Outcome.exists_of_bind compiled
      obtain ⟨configured, depth⟩ := placed.scope known
      exact .inr ⟨scope, rows, configured, depth, same ▸ made⟩
  · exact .inr made

theorem adds_of_advances (placed : q.Placed config depth correlated) (call : step.isCall)
    (before : q.aggregates.map RelatedAggregate.ask <+: columns)
    (advances : q.Advances subquery false step after) :
    Adds subquery config depth columns step q after := by
  cases advances with
  | put gives => exact adds_put placed call before gives
  | defer checked => exact adds_defer checked
  | closeGroup closes => exact adds_closeGroup placed closes

/-- What a query at some place owes to calls, behind the first of them: the subqueries in its
conditions are those that the calls ask for, and those that the first ones ask for are met. -/
structure Owes (subquery : SubqueryCompiler) (config : Config) (depth : Nat) (correlated : Bool)
    (calls front : Refinement) (q : Query) : Prop where
  placed : q.Placed config depth correlated
  columns : q.aggregates.map RelatedAggregate.ask = front.columns
  declared : ∀ declaration ∈ q.declarations, ∀ ask ∈ declaration.ask? true, ask ∈ calls.asked
  waiting : ∀ deferred ∈ q.deferrals, deferred.existence.ask ∈ calls.asked
  met : ∀ step ∈ front, ∀ ask ∈ step.ask? calls.columns, q.Meets subquery config depth ask
  sure : ∀ step ∈ front, step.relates → (step.ask? calls.columns).isSome

theorem Owes.adds (h : q.Owes subquery config depth correlated calls front)
    (split : calls = front ++ step :: back) (call : step.isCall)
    (went : q.applyUsing subquery step = (after, none)) :
    after.Owes subquery config depth correlated calls (front ++ [step]) := by
  have member : step ∈ calls := split ▸ List.mem_append_right _ List.mem_cons_self
  have before : q.aggregates.map RelatedAggregate.ask <+: calls.columns := by
    rw [h.columns, split, Refinement.columns, Refinement.columns, List.filterMap_append]
    exact List.prefix_append ..
  have placed : (q.applyUsing subquery step).1.Placed config depth correlated :=
    h.placed.applyUsing step
  have advances := advances_of_applyPromptly call ((applyPromptly_false ..).trans went)
  have adds := adds_of_advances h.placed call before advances
  rw [went] at placed
  refine ⟨placed, ?_, ?_, ?_, ?_, ?_⟩
  · rw [adds.column, h.columns, Refinement.columns, Refinement.columns, List.filterMap_append]
    cases column : step.column? <;> simp [column]
  · intro declaration held ask asks
    rcases adds.declared declaration held with old | same
    · exact h.declared declaration old ask asks
    · exact List.mem_filterMap.2 ⟨step, member, same ▸ asks⟩
  · intro deferred held
    rcases adds.waiting deferred held with old | asks
    · exact h.waiting deferred old
    · exact List.mem_filterMap.2 ⟨step, member, asks⟩
  · intro earlier done ask asks
    rcases List.mem_append.1 done with old | here
    · exact adds.kept ask (h.met earlier old ask asks)
    · obtain rfl := List.mem_singleton.1 here
      exact adds.met ask asks
  · intro earlier done
    rcases List.mem_append.1 done with old | here
    · exact h.sure earlier old
    · obtain rfl := List.mem_singleton.1 here
      exact adds.sure

theorem Owes.refineUsing (h : q.Owes subquery config depth correlated calls front)
    (split : calls = front ++ back) (allowed : ∀ step ∈ calls, step.isCall)
    (ran : q.refineUsing subquery back = .ok after) :
    after.Owes subquery config depth correlated calls calls := by
  induction back generalizing front q with
  | nil =>
    cases ran
    rw [List.append_nil] at split
    subst split
    exact h
  | cons step rest ih =>
    obtain ⟨next, went, ran⟩ := exists_of_refineUsing ran
    have member : step ∈ calls := split ▸ List.mem_append_right _ List.mem_cons_self
    refine ih (h.adds split (allowed step member) went) ?_ ran
    rw [split, List.append_assoc]
    rfl

theorem Owes.fails_refineUsing {P : Error → Prop}
    (h : q.Owes subquery config depth correlated calls front) (split : calls = front ++ back)
    (allowed : ∀ step ∈ calls, step.isCall) (checks : ∀ error : Error, error.isCheck → P error)
    (fails : ∀ ask ∈ calls.asked, ∀ scope : Scope, scope.config = config → scope.depth = depth →
      Fails P (subquery scope ask.1 ask.2)) : Fails P (q.refineUsing subquery back) := by
  induction back generalizing front q with
  | nil => exact .ok
  | cons step rest ih =>
    have member : step ∈ calls := split ▸ List.mem_append_right _ List.mem_cons_self
    unfold Query.refineUsing
    rcases went : q.applyUsing subquery step with ⟨next, _ | error⟩
    · refine ih (h.adds split (allowed step member) went) ?_
      rw [split, List.append_assoc]
      rfl
    · refine .error (fails_applyUsing (allowed step member) checks calls.columns ?_ ?_ went)
      · intro scope known ask asks
        obtain ⟨configured, depth⟩ := h.placed.scope known
        exact fails ask (List.mem_filterMap.2 ⟨step, member, asks⟩) scope configured depth
      · intro scope known deferred held
        obtain ⟨configured, depth⟩ := h.placed.scope known
        exact fails _ (h.waiting deferred held) scope configured depth

theorem Owes.mem_of_mem_asks (h : q.Owes subquery config depth correlated calls calls) {ask : Ask}
    (member : ask ∈ q.asks) : ask ∈ calls.asks correlated := by
  obtain ⟨declaration, declared, asks⟩ := List.mem_filterMap.1 member
  rw [h.placed.correlated] at asks
  have condition (asks : declaration.ask? true = some ask) : ask ∈ calls.asks correlated :=
    List.mem_append_left _ (h.declared declaration declared ask asks)
  cases correlated with
  | true => exact condition asks
  | false =>
    cases declaration with
    | aggregate held =>
      cases asks
      refine List.mem_append_right _ ?_
      have held : held ∈ q.aggregates := List.mem_filterMap.2 ⟨_, declared, rfl⟩
      exact h.columns ▸ List.mem_map_of_mem held
    | relation | count | existence | filter => exact condition asks

theorem Owes.asks_or_made (h : q.Owes subquery config depth correlated calls calls)
    (idle : q.deferrals = []) {ask : Ask} (member : ask ∈ calls.asks correlated) :
    ask ∈ q.asks ∨ ∃ scope rows, scope.config = config ∧ scope.depth = depth ∧
      subquery scope ask.1 ask.2 = .ok rows := by
  unfold Query.asks
  rw [h.placed.correlated]
  rcases List.mem_append.1 member with asked | column
  · obtain ⟨step, done, asks⟩ := List.mem_filterMap.1 asked
    rcases h.met step done ask asks with ⟨declaration, declared, asks⟩ | ⟨_, held, _⟩ | made
    · refine .inl (List.mem_filterMap.2 ⟨declaration, declared, ?_⟩)
      cases declaration with
      | aggregate => cases asks
      | relation | count | existence | filter => exact asks
    · cases idle ▸ held
    · exact .inr made
  · split at column
    · cases column
    · next plain =>
      rw [← h.columns] at column
      obtain ⟨held, found, rfl⟩ := List.mem_map.1 column
      obtain ⟨declaration, declared, same⟩ := List.mem_filterMap.1 found
      refine .inl (List.mem_filterMap.2 ⟨declaration, declared, ?_⟩)
      cases declaration <;> cases same
      exact if_neg plain

/-! ### What stops at the limit -/

/-- The parts of a query are compiled unless a subquery that is asked for sticks. -/
theorem Owes.parts (h : q.Owes subquery config depth correlated calls calls)
    (formed : q.WellFormed) (idle : q.deferrals = []) {stuck : Ask → Prop} {error : Error}
    (each : ∀ ask ∈ calls.asks correlated, ∀ scope : Scope, scope.config = config →
      scope.depth = depth → FailsIf (stuck ask) error (subquery scope ask.1 ask.2))
    {scope : Scope} (known : q.scope = .ok scope) :
    FailsIf (∃ ask ∈ calls.asks correlated, stuck ask) error (q.parts subquery scope) := by
  obtain ⟨configured, depth⟩ := h.placed.scope known
  constructor
  · rintro ⟨ask, member, sticks⟩
    rcases h.asks_or_made idle member with declared | ⟨other, rows, same, level, made⟩
    · have fails : Fails (· = error) (q.parts subquery scope) :=
        fails_parts formed fun ask member =>
          (each ask (h.mem_of_mem_asks member) scope configured depth).fails
      cases compiled : q.parts subquery scope with
      | error other => rw [fails other compiled]
      | ok parts =>
        obtain ⟨rows, made⟩ := exists_of_parts compiled declared
        cases ((each ask member scope configured depth).1 sticks).symm.trans made
    · cases ((each ask member other same level).1 sticks).symm.trans made
  · intro free
    refine exists_parts_of_asks formed fun ask declared => ?_
    have member := h.mem_of_mem_asks declared
    exact (each ask member scope configured depth).2 fun sticks => free ⟨ask, member, sticks⟩

structure Narrowed (q : Query) : Prop where
  tabled : q.statement.table.isSome
  plain : q.statement.shapingClause? = none
  alone : q.picked Declaration.relation? = []

theorem Narrowed.moves (h : q.Narrowed) (narrows : step.narrows)
    (moves : q.Moves subquery step after) : after.Narrowed := by
  have declare {declaration : Declaration} (other : declaration.relation? = none) :
      (q.declare declaration).picked Declaration.relation? = [] := by
    change (q.declarations ++ [declaration]).filterMap Declaration.relation? = []
    rw [List.filterMap_append, List.filterMap_cons_none other]
    exact congrArg (· ++ []) h.alone
  cases moves with
  | put gives =>
    cases gives with
    | join | filter | filterIn | openGroup | closeGroup | filterExistsHere | filterExistsNow =>
      exact ⟨h.tabled, h.plain, h.alone⟩
    | aggregate | filterCount | filterExists | filterAggregate =>
      exact ⟨h.tabled, h.plain, declare rfl⟩
    | _ => cases narrows
  | fill _ _ _ fills =>
    obtain ⟨_, _, rfl⟩ := Statement.exists_of_fill fills
    exact ⟨h.tabled, h.plain, h.alone⟩
  | defer | drop => exact ⟨h.tabled, h.plain, h.alone⟩

theorem Narrowed.refineUsing (h : q.Narrowed) (narrows : ∀ step ∈ calls, step.narrows)
    (ran : q.refineUsing subquery calls = .ok after) : after.Narrowed := by
  rw [eq_foldl_of_refineUsing ran]
  exact List.foldlRecOn calls _ h fun _ held step member =>
    of_moves (fun h => h.moves (narrows step member)) held

theorem Narrowed.exists_select (h : q.Narrowed) (waiting : q.Waiting)
    (closed : q.statement.openGroups = 0) {table : Table}
    (known : q.statement.table = some table) (scope : Scope) (link : Link Refinement)
    (base : String) (parts : Parts) :
    ∃ rows, scope.select link base (q.assembled table.knownAs parts).statement = .ok rows := by
  obtain ⟨clause, filter⟩ := exists_filter_of_closed waiting closed table.knownAs parts
  have plain : (q.assembled table.knownAs parts).statement.shapingClause? = none := h.plain
  have sourced : (q.assembled table.knownAs parts).statement.source =
      .ok { table, joins := q.statement.joins } := by
    change (q.statement.requireTable >>= fun table => _) = _
    rw [Statement.requireTable_ok_iff.2 known]
    rfl
  unfold Scope.select
  dsimp only
  rw [plain, sourced, filter]
  exact ⟨_, rfl⟩

theorem owes_begun (placed : q.Placed config depth correlated) (declarations : q.declarations = [])
    (deferrals : q.deferrals = []) (calls : Refinement) :
    q.Owes subquery config depth correlated calls [] where
  placed := placed
  columns := by
    unfold aggregates
    rw [declarations]
    rfl
  declared := by simp [declarations]
  waiting := by simp [deferrals]
  met := nofun
  sure := nofun

end Query

/-! ### Level by level -/

namespace Ask

theorem iterate_below (levels : Nat) (asks : List Ask) :
    below^[levels] asks = asks.flatMap fun ask => below^[levels] [ask] := by
  induction levels generalizing asks with
  | zero => exact (List.flatMap_singleton' asks).symm
  | succ levels ih =>
    have step (ask : Ask) : below^[levels + 1] [ask] =
        (ask.steps.asks true).flatMap fun inner => below^[levels] [inner] := by
      rw [Function.iterate_succ_apply, below, List.flatMap_singleton, ih]
    simp only [step]
    rw [Function.iterate_succ_apply, ih, below, List.flatMap_assoc]

theorem iterate_below_singleton (levels : Nat) (ask : Ask) :
    below^[levels + 1] [ask] = below^[levels] (ask.steps.asks true) := by
  rw [Function.iterate_succ_apply, below, List.flatMap_singleton]

theorem exists_below_ne_nil_iff {levels : Nat} {asks : List Ask} :
    (∃ ask ∈ asks, below^[levels] [ask] ≠ []) ↔ below^[levels] asks ≠ [] := by
  rw [iterate_below levels asks, ne_eq, List.flatMap_eq_nil_iff]
  simp

theorem mem_iterate_below {levels : Nat} {asks : List Ask} {ask inner : Ask} (member : ask ∈ asks)
    (reached : inner ∈ below^[levels] [ask]) : inner ∈ below^[levels] asks := by
  rw [iterate_below]
  exact List.mem_flatMap.2 ⟨ask, member, reached⟩

end Ask

theorem Error.ne_tooDeep_of_isCheck {limit : Nat} (error : Error) (check : error.isCheck) :
    error ≠ .tooDeep limit := by
  rintro rfl
  cases check

theorem Ask.Behaves.outcome {config : Config} {level : Nat} {ask : Ask}
    (behaves : ask.Behaves config level) {result : Except Error Query}
    (ran : (Query.below config ⟨ask.1.target, some (ask.2 ++ "_s" ++ toString level)⟩ level
      true).refine ask.steps = result) :
    (∃ rows, result = .ok rows ∧ rows.statement.openGroups = 0) ∨
      result = .error (.tooDeep config.maxDepth) := by
  have among := behaves.2
  rw [ran] at among
  cases result with
  | ok rows =>
    have same : (Except.ok rows.statement.openGroups : Except Error Nat) = .ok 0 := by
      simpa [Except.map] using among
    exact .inl ⟨rows, rfl, Except.ok.inj same⟩
  | error error =>
    right
    simpa [Except.map] using among

theorem Ask.Behaves.asks_ne_nil_iff {config : Config} {level : Nat} {ask : Ask}
    (behaves : ask.Behaves config level) :
    ask.steps.asks true ≠ [] ↔ ∃ step ∈ ask.steps, step.relates := by
  unfold Refinement.asks
  rw [if_pos rfl, List.append_nil]
  constructor
  · intro asked
    obtain ⟨inner, member⟩ := List.exists_mem_of_ne_nil _ asked
    obtain ⟨step, member, asks⟩ := List.mem_filterMap.1 member
    exact ⟨step, member, Step.relates_of_ask? asks⟩
  · rintro ⟨step, member, relates⟩ idle
    have placed : (Query.below config ⟨ask.1.target, some (ask.2 ++ "_s" ++ toString level)⟩ level
        true).Placed config level true := ⟨rfl, rfl, rfl⟩
    have begun : Query.Owes compileSubquery config level true ask.steps [] _ :=
      Query.owes_begun placed rfl rfl ask.steps
    have calls : ∀ step ∈ ask.steps, step.isCall := fun step member =>
      Step.isCall_of_narrows (behaves.1 step member)
    rcases behaves.outcome rfl with ⟨rows, ran, _⟩ | ran
    · have owes := begun.refineUsing rfl calls ran
      obtain ⟨inner, asks⟩ := Option.isSome_iff_exists.1 (owes.sure step member relates)
      have asked : inner ∈ ask.steps.asked := List.mem_filterMap.2 ⟨step, member, asks⟩
      rw [idle] at asked
      cases asked
    · have never : Fails (· ≠ .tooDeep config.maxDepth) (Query.refine ask.steps _) :=
        begun.fails_refineUsing rfl calls Error.ne_tooDeep_of_isCheck (by simp [idle])
      exact absurd rfl (never _ ran)

theorem Ask.iterate_below_ne_nil_iff {config : Config} {asks : List Ask}
    (room : 1 ≤ config.maxDepth)
    (behaves : ∀ ask ∈ below^[config.maxDepth - 1] asks, ∃ level, ask.Behaves config level) :
    below^[config.maxDepth] asks ≠ [] ↔
      ∃ ask ∈ below^[config.maxDepth - 1] asks, ∃ step ∈ ask.steps, step.relates := by
  have levels : config.maxDepth = (config.maxDepth - 1) + 1 := (Nat.sub_add_cancel room).symm
  rw [levels, Function.iterate_succ_apply', below, ne_eq, List.flatMap_eq_nil_iff,
    Nat.add_sub_cancel]
  push Not
  refine exists_congr fun ask => and_congr_right fun reached => ?_
  obtain ⟨level, behaves⟩ := behaves ask reached
  exact behaves.asks_ne_nil_iff

namespace Query

variable {config : Config}

theorem failsIf_of_room {stuck : Ask → Prop} {scope : Scope} {ask : Ask}
    (room : scope.depth < scope.config.maxDepth)
    (behaves : ask.Behaves scope.config (scope.depth + 1))
    (each : ∀ inner ∈ ask.steps.asks true, ∀ other : Scope, other.config = scope.config →
      other.depth = scope.depth + 1 → FailsIf (stuck inner) (.tooDeep scope.config.maxDepth)
        (compileSubquery other inner.1 inner.2)) :
    FailsIf (∃ inner ∈ ask.steps.asks true, stuck inner) (.tooDeep scope.config.maxDepth)
      (compileSubquery scope ask.1 ask.2) := by
  have calls : ∀ step ∈ ask.steps, step.isCall := fun step member =>
    Step.isCall_of_narrows (behaves.1 step member)
  have begun : (scope.below ask.1 ask.2).Owes compileSubquery scope.config (scope.depth + 1) true
      ask.steps [] := owes_begun (scope.placed_below ask.1 ask.2) rfl rfl ask.steps
  rw [compileSubquery_of_room room]
  change FailsIf _ _ ((scope.below ask.1 ask.2).refine ask.steps >>= _)
  rcases behaves.outcome (Eq.refl ((scope.below ask.1 ask.2).refine ask.steps)) with
    ⟨rows, ran, closed⟩ | ran
  · have owes := begun.refineUsing rfl calls ran
    have waiting := (waiting_below ..).refineUsing calls ran
    have formed := (WellFormed.below ..).refineUsing ran
    have narrowed := Narrowed.refineUsing ⟨rfl, rfl, rfl⟩ behaves.1 ran
    obtain ⟨table, known⟩ := Option.isSome_iff_exists.1 narrowed.tabled
    have loads : rows.checkRelations = .ok () := by
      unfold checkRelations
      rw [narrowed.alone]
    have parts := owes.parts formed (waiting.idle closed).1 each (scope_of_table known)
    rw [ran, Outcome.ok_bind, compile_eq_of_closed waiting closed known loads, bind_assoc]
    refine parts.bind fun parts => ?_
    exact narrowed.exists_select waiting closed known scope ask.1 ask.2 parts
  · -- Refining ended in the error already, and nothing but a subquery can have brought it.
    rw [ran]
    refine ⟨fun _ => rfl, fun free => ?_⟩
    have never : Fails (· ≠ .tooDeep scope.config.maxDepth)
        ((scope.below ask.1 ask.2).refine ask.steps) := by
      refine begun.fails_refineUsing rfl calls Error.ne_tooDeep_of_isCheck ?_
      intro inner asked other placed depth
      have member : inner ∈ ask.steps.asks true := List.mem_append_left _ asked
      exact (each inner member other placed depth).fails_ne fun sticks =>
        free ⟨inner, member, sticks⟩
    exact absurd rfl (never _ ran)

/-- With so many levels left a subquery is made, unless a subquery on the level past the last one is
asked for in it. -/
theorem failsIf_compileSubquery {levels : Nat} {scope : Scope} {ask : Ask}
    (placed : scope.config = config) (left : config.maxDepth - scope.depth = levels)
    (behaves : ∀ further < levels, ∀ inner ∈ Ask.below^[further] [ask],
      inner.Behaves config (scope.depth + 1 + further)) :
    FailsIf (Ask.below^[levels] [ask] ≠ []) (.tooDeep config.maxDepth)
      (compileSubquery scope ask.1 ask.2) := by
  induction levels generalizing scope ask with
  | zero =>
    rw [compileSubquery_of_full (placed ▸ Nat.le_of_sub_eq_zero left), placed]
    exact ⟨fun _ => rfl, fun free => absurd (List.cons_ne_nil _ _) free⟩
  | succ levels ih =>
    subst placed
    have room : scope.depth < scope.config.maxDepth := by omega
    rw [Ask.iterate_below_singleton]
    refine (failsIf_of_room room (behaves 0 (Nat.succ_pos _) ask List.mem_cons_self) ?_).congr
      Ask.exists_below_ne_nil_iff
    intro inner member other placed depth
    refine ih placed (by omega) fun further less last reached => ?_
    have deeper : last ∈ Ask.below^[further + 1] [ask] := by
      rw [Ask.iterate_below_singleton]
      exact Ask.mem_iterate_below member reached
    have level : other.depth + 1 + further = scope.depth + 1 + (further + 1) := by omega
    exact level ▸ behaves _ (Nat.succ_lt_succ less) last deeper

theorem failsIf_sql {calls : Refinement} {q : Query} (ran : (empty config).refine calls = .ok q)
    (allowed : ∀ step ∈ calls, step.isCall) (tabled : q.statement.table.isSome)
    (closed : q.statement.openGroups = 0)
    (behaves : ∀ further < config.maxDepth, ∀ ask ∈ Ask.below^[further] (calls.asks false),
      ask.Behaves config (further + 1)) :
    FailsIf (Ask.below^[config.maxDepth] (calls.asks false) ≠ []) (.tooDeep config.maxDepth)
      q.sql := by
  have placed : (empty config).Placed config 0 false := ⟨rfl, rfl, rfl⟩
  have begun : (empty config).Owes compileSubquery config 0 false calls [] :=
    owes_begun placed rfl rfl calls
  have owes := begun.refineUsing rfl allowed ran
  have waiting := (waiting_empty config).refineUsing allowed ran
  have formed := (WellFormed.empty config).refineUsing ran
  obtain ⟨table, known⟩ := Option.isSome_iff_exists.1 tabled
  have each : ∀ ask ∈ calls.asks false, ∀ scope : Scope, scope.config = config → scope.depth = 0 →
      FailsIf (Ask.below^[config.maxDepth] [ask] ≠ []) (.tooDeep config.maxDepth)
        (compileSubquery scope ask.1 ask.2) := by
    intro ask member scope placed depth
    refine failsIf_compileSubquery placed (by rw [depth, Nat.sub_zero]) ?_
    intro further less inner reached
    have level : scope.depth + 1 + further = further + 1 := by omega
    exact level ▸ behaves further less inner (Ask.mem_iterate_below member reached)
  have parts := owes.parts formed (waiting.idle closed).1 each (scope_of_table known)
  rw [sql, compile_eq_of_closed waiting closed known
    (checkRelations_of_plain owes.placed.correlated), bind_assoc]
  exact (parts.congr Ask.exists_below_ne_nil_iff).bind
    (exists_sql_assembled waiting closed known)

/-- Neither a subquery nor a fetch stands further in than the settings allow, with every query and
subquery around it counted. And where calls have gone through on a query over a table that has its
groups closed, and the refinements of its subqueries behave down to the last level, that level is
used to the full: the query is too deep for its text just if a refinement run there declares a
condition on related rows. -/
theorem tooDeep_iff_relates (config : Config) (calls : List Step) (driver : Driver) :
    (∀ assembly, (built config calls).compile = .ok assembly →
      assembly.statement.NestsWithin config.maxDepth 0) ∧
    (∃ lead dispatches, ((built config calls).get driver).2 = lead ++ Dispatch.logs dispatches ∧
      (∀ text ∈ lead, ∃ assembly, (built config calls).compile = .ok assembly ∧
        (assembly.statement.sql = .ok text ∨
          ∃ column, assembly.statement.countSql column = .ok text)) ∧
      (built config calls).Fetches config.maxDepth 0 (built config calls).relations
        dispatches) ∧
    (((empty config).refine calls).isOk → (∀ call ∈ calls, call.isCall) →
      (built config calls).statement.table.isSome →
      (built config calls).statement.openGroups = 0 → 1 ≤ config.maxDepth →
      (∀ level < config.maxDepth, ∀ ask ∈ Ask.below^[level] (Refinement.asks false calls),
        ask.Behaves config (level + 1)) →
      ((built config calls).sql = .error (.tooDeep config.maxDepth) ↔
        ∃ ask ∈ Ask.below^[config.maxDepth - 1] (Refinement.asks false calls),
          ∃ step ∈ ask.steps, step.relates) ∧
      ((built config calls).sql = .error (.tooDeep config.maxDepth) ∨
        ∃ text, (built config calls).sql = .ok text)) := by
  refine ⟨fun assembly compiled => ?_, exists_fetches_of_get config calls driver, ?_⟩
  · exact Statement.nestsWithin (Nat.sub_zero _) ((Leaves.built config calls).within compiled)
  · intro ran allowed tabled closed room behaves
    have ran : (empty config).refine calls = .ok (built config calls) := by
      cases went : (empty config).refine calls with
      | error error => cases went ▸ ran
      | ok q => exact congrArg _ (eq_foldl_of_refineUsing went)
    obtain ⟨stuck, free⟩ := failsIf_sql ran allowed tabled closed behaves
    have deep := Ask.iterate_below_ne_nil_iff room fun ask reached =>
      ⟨_, behaves _ (Nat.sub_lt room Nat.one_pos) ask reached⟩
    by_cases sticks : Ask.below^[config.maxDepth] (Refinement.asks false calls) ≠ []
    · exact ⟨iff_of_true (stuck sticks) (deep.1 sticks), .inl (stuck sticks)⟩
    · obtain ⟨text, made⟩ := free sticks
      refine ⟨iff_of_false (fun failed => ?_) (mt deep.2 sticks), .inr ⟨text, made⟩⟩
      cases made.symm.trans failed

def nestedCalls (innermost : Refinement) : List Step := [
  .fromTable "users",
  .filterExists .and false {
    target := "orders", foreign := ["user_id"], own := ["id"]
    refinement := some [
      .filterCount .and {
        target := "items", foreign := ["order_id"], own := ["id"]
        refinement := some innermost } ">" 1] }]

def priced : Refinement := [.filter .and "price >" (.text "9")]

def taxed : Refinement := [
  .aggregate .sum { target := "taxes", foreign := ["item_id"], own := ["id"] } "amount",
  .filterAggregate .and "taxes_sum >" (.text "9")]

theorem nestedCalls_tooDeep_iff_relates :
    (∃ text, (built { maxDepth := 2 } (nestedCalls priced)).sql = .ok text) ∧
    (built { maxDepth := 2 } (nestedCalls taxed)).sql = .error (.tooDeep 2) := by
  have settled (innermost : Refinement) :=
    (tooDeep_iff_relates { maxDepth := 2 } (nestedCalls innermost) fun _ _ => .ok []).2.2
  constructor
  · have exact := settled priced (by decide +kernel) (by decide +kernel) (by decide +kernel)
      (by decide +kernel) (by decide) (by decide +kernel)
    exact exact.2.resolve_left (mt exact.1.1 (by decide +kernel))
  · have exact := settled taxed (by decide +kernel) (by decide +kernel) (by decide +kernel)
      (by decide +kernel) (by decide) (by decide +kernel)
    exact exact.1.2 (by decide +kernel)

end Query

end RelationQuery
