import RelationQuery.Proofs.Assembly
import RelationQuery.Proofs.Prompt
import RelationQuery.Proofs.WellFormed

/-! Where errors come from. Main statements: what goes wrong in a step, in a compilation or in a
subquery was found by a check, was brought in by a refinement, or went wrong one level down, in a
subquery over a link that is held. -/
namespace RelationQuery

/-- What checks find: they look at names, keys and groups, and neither at how deep queries nest nor
at what a database says. -/
def Error.isCheck : Error → Bool
  | .tooDeep _ | .config _ | .mapping _ | .refused .. => false
  | _ => true

namespace Outcome

variable {ε ε' α β : Type} {P : ε → Prop}

def Fails (P : ε → Prop) (result : Except ε α) : Prop := ∀ error, result = .error error → P error

theorem Fails.ok {a : α} : Fails P (.ok a) := nofun

theorem Fails.error {error : ε} (h : P error) : Fails P (.error error : Except ε α) := by
  rintro _ ⟨⟩
  exact h

theorem Fails.imp {Q : ε → Prop} {result : Except ε α} (h : Fails P result)
    (imp : ∀ error, P error → Q error) : Fails Q result := fun error failed =>
  imp error (h error failed)

theorem Fails.bind {first : Except ε α} {next : α → Except ε β} (h : Fails P first)
    (rest : ∀ a, first = .ok a → Fails P (next a)) : Fails P (first >>= next) := by
  cases first with
  | ok a => exact rest a rfl
  | error error => exact .error (h error rfl)

theorem Fails.map {f : α → β} {result : Except ε α} (h : Fails P result) :
    Fails P (f <$> result) := by
  cases result with
  | ok a => exact .ok
  | error error => exact .error (h error rfl)

theorem Fails.mapError {P : ε' → Prop} {f : ε → ε'} {result : Except ε α}
    (h : ∀ error, P (f error)) : Fails P (result.mapError f) := by
  cases result with
  | ok a => exact .ok
  | error error => exact .error (h error)

theorem Fails.mapM {f : α → Except ε β} {xs : List α} (h : ∀ x ∈ xs, Fails P (f x)) :
    Fails P (xs.mapM f) := by
  induction xs with
  | nil => exact .ok
  | cons x rest ih =>
    obtain ⟨here, later⟩ := List.forall_mem_cons.1 h
    rw [List.mapM_cons]
    exact here.bind fun _ _ => (ih later).bind fun _ _ => .ok

theorem Fails.forM {f : α → Except ε PUnit} {xs : List α} (h : ∀ x ∈ xs, Fails P (f x)) :
    Fails P (xs.forM f) := by
  induction xs with
  | nil => exact .ok
  | cons x rest ih =>
    obtain ⟨here, later⟩ := List.forall_mem_cons.1 h
    exact here.bind fun _ _ => ih later

theorem exists_of_mem_mapM {f : α → Except ε β} {xs : List α} {ys : List β}
    (h : xs.mapM f = .ok ys) {x : α} (member : x ∈ xs) : ∃ y, f x = .ok y := by
  obtain ⟨front, back, rfl⟩ := List.append_of_mem member
  rw [List.mapM_append] at h
  obtain ⟨_, _, h⟩ := exists_of_bind h
  obtain ⟨_, h, _⟩ := exists_of_bind h
  rw [List.mapM_cons] at h
  obtain ⟨y, here, _⟩ := exists_of_bind h
  exact ⟨y, here⟩

theorem exists_of_fails {result : Except ε α} (h : Fails (fun _ => False) result) :
    ∃ a, result = .ok a := by
  cases result with
  | ok a => exact ⟨a, rfl⟩
  | error error => exact (h error rfl).elim

end Outcome

open Outcome

/-! ### Checks -/

theorem fails_checkName (kind : Identifier.Kind) (name : String) :
    Fails (·.isCheck) (checkName kind name) := Fails.mapError fun _ => rfl

theorem fails_checkLabelled (kind : Identifier.Kind) (raw : String) :
    Fails (·.isCheck) (checkLabelled kind raw) := by
  unfold checkLabelled
  generalize Name.splitLabel raw = parts
  obtain ⟨name, _ | label⟩ := parts
  · exact (fails_checkName _ _).bind fun _ _ => .ok
  · exact (fails_checkName _ _).bind fun _ _ => (fails_checkName _ _).bind fun _ _ => .ok

theorem Edge.fails_link (edge : Edge Refinement) : Fails (·.isCheck) edge.link := by
  unfold Edge.link
  refine (fails_checkLabelled _ _).bind fun (target, label) _ => ?_
  dsimp only
  split
  · exact .error rfl
  · split
    · exact .error rfl
    · refine Fails.bind (.forM fun _ _ => fails_checkName _ _) fun _ _ => ?_
      exact Fails.bind (.forM fun _ _ => fails_checkName _ _) fun _ _ => .ok

namespace Statement

variable (s : Statement)

theorem fails_requireTable : Fails (·.isCheck) s.requireTable := by
  unfold requireTable
  split
  · exact .ok
  · exact .error rfl

theorem fails_source : Fails (·.isCheck) s.source :=
  s.fails_requireTable.bind fun _ _ => .ok

theorem fails_filter : Fails (·.isCheck) s.filter := by
  unfold filter
  split
  · exact .error rfl
  · split
    · exact .ok
    · exact .error rfl

theorem fails_fill (slot : Nat) (condition : Condition) :
    Fails (·.isCheck) (s.fill slot condition) := by
  unfold fill
  split
  · exact .ok
  · exact .error rfl

theorem fails_closeGroup : Fails (·.isCheck) s.closeGroup := by
  unfold closeGroup
  split
  · exact .error rfl
  · exact .ok

theorem fails_bodySql : Fails (·.isCheck) s.bodySql := by
  unfold bodySql
  refine Fails.bind (s.fails_source.bind fun _ _ => .ok) fun source _ => ?_
  refine Fails.bind (s.fails_filter.bind fun _ _ => .ok) fun conditions _ => ?_
  cases conditions <;> exact .ok

theorem fails_sql : Fails (·.isCheck) s.sql :=
  s.fails_requireTable.bind fun _ _ => s.fails_bodySql.bind fun _ _ => .ok

theorem fails_countSql (column : String) : Fails (·.isCheck) (s.countSql column) :=
  s.fails_bodySql.bind fun _ _ => .ok

end Statement

namespace Query

theorem fails_scope (q : Query) : Fails (·.isCheck) q.scope :=
  Fails.bind q.statement.fails_requireTable.map fun _ _ => .ok

theorem fails_splitKey (key : String) : Fails (·.isCheck) (splitKey key) :=
  Fails.mapError fun _ => rfl

theorem fails_checkOperand (kind : Aggregate.Kind) (column : String) :
    Fails (·.isCheck) (checkOperand kind column) := by
  unfold checkOperand
  dsimp only
  split
  · split
    · exact .ok
    · exact .error rfl
  · split
    · exact .ok
    · exact Fails.mapError fun _ => rfl

end Query

/-! ### Subqueries that are asked for -/

/-- A link to make a subquery over, and what the label of the subquery begins with. -/
abbrev Ask := Link Refinement × String

def RelatedAggregate.ask (aggregate : RelatedAggregate) : Ask := (aggregate.link, aggregate.label)

def RelatedExistence.ask (existence : RelatedExistence) : Ask :=
  (existence.link, existence.link.name)

/-- The subquery that a declaration is compiled with. Relations are loaded along instead, and in a
subquery aggregates have no column. -/
def Declaration.ask? (correlated : Bool) : Declaration → Option Ask
  | .relation _ => none
  | .aggregate held => if correlated then none else some held.ask
  | .count held => some (held.link, held.link.name)
  | .existence held => some held.ask
  | .filter held => some held.aggregate.ask

def Edge.ask? (edge : Edge Refinement) : Option Ask :=
  edge.link.toOption.map fun link => (link, link.name)

theorem Edge.ask?_of_link {edge : Edge Refinement} {link : Link Refinement}
    (checked : edge.link = .ok link) : edge.ask? = some (link, link.name) := by
  unfold ask?
  rw [checked]
  rfl

def Step.ask? (columns : List Ask) : Step → Option Ask
  | .filterCount _ edge _ _ | .filterExists _ _ edge | .filterExistsNow _ edge => edge.ask?
  | .filterAggregate _ key _ =>
    (Query.splitKey key).toOption.bind fun (label, _) => columns.find? (·.2 = label)
  | _ => none

theorem Declaration.link_of_ask? {correlated : Bool} {declaration : Declaration} {ask : Ask}
    (asks : declaration.ask? correlated = some ask) : ask.1 = declaration.link := by
  cases declaration with
  | relation => cases asks
  | count | existence | filter =>
    cases asks
    rfl
  | aggregate =>
    cases correlated <;> cases asks
    rfl

namespace Query

def asks (q : Query) : List Ask := q.declarations.filterMap (Declaration.ask? q.correlated)

variable {subquery : SubqueryCompiler} {q : Query} {scope : Scope} {P : Error → Prop}

theorem mem_asks {declaration : Declaration} {ask : Ask} (member : declaration ∈ q.declarations)
    (asks : declaration.ask? q.correlated = some ask) : ask ∈ q.asks :=
  List.mem_filterMap.2 ⟨declaration, member, asks⟩

theorem compile_count (held : RelatedCount) : held.compile subquery scope =
    subquery scope held.link held.link.name >>= fun rows =>
      .ok (.count rows held.comparison held.bound) := rfl

theorem compile_aggregate (held : RelatedAggregate) : held.compile subquery scope =
    subquery scope held.link held.label >>= fun rows =>
      held.measure.compile >>= fun measure => .ok (.aggregate measure rows held.label) := by
  unfold RelatedAggregate.compile RelatedAggregate.selection
  simp only [bind_assoc]
  rfl

theorem compile_existence (held : RelatedExistence) : held.compile subquery scope =
    subquery scope held.link held.link.name >>= fun rows => .ok (.existence held.negated rows) :=
  rfl

theorem compile_filter (held : AggregateFilter) : held.compile subquery scope =
    subquery scope held.aggregate.link held.aggregate.label >>= fun rows =>
      held.aggregate.measure.compile >>= fun measure =>
        .ok (.aggregate measure rows held.comparison held.value) := by
  unfold AggregateFilter.compile RelatedAggregate.selection
  simp only [bind_assoc]
  rfl

theorem WellFormed.mem_aggregates_of_picked (h : q.WellFormed) {filter : AggregateFilter}
    (member : filter ∈ q.picked Declaration.filter?) : filter.aggregate ∈ q.aggregates := by
  obtain ⟨declaration, declared, same⟩ := List.mem_filterMap.1 member
  cases declaration <;> cases same
  exact h.mem_aggregates_of_filter declared

/-- Of a query that is well formed, the operands are read again without an error. -/
theorem WellFormed.exists_compile (h : q.WellFormed) {held : RelatedAggregate}
    (member : held ∈ q.aggregates) : ∃ measure, held.measure.compile = .ok measure :=
  (h.measures held member).exists_compile

theorem fails_mapM_picked {α β : Type} {pick : Declaration → Option α}
    {link : α → Link Refinement} {base : α → String} {compile : α → Except Error β}
    {finish : α → Subquery Condition → Except Error β}
    (asks : ∀ declaration held, pick declaration = some held →
      declaration.ask? q.correlated = some (link held, base held))
    (compiles : ∀ held, compile held = subquery scope (link held) (base held) >>= finish held)
    (finishes : ∀ held ∈ q.picked pick, ∀ rows, ∃ made, finish held rows = .ok made)
    (fails : ∀ ask ∈ q.asks, Fails P (subquery scope ask.1 ask.2)) :
    Fails P ((q.picked pick).mapM compile) := by
  refine .mapM fun held member => ?_
  obtain ⟨declaration, declared, picks⟩ := List.mem_filterMap.1 member
  rw [compiles]
  refine (fails _ (mem_asks declared (asks declaration held picks))).bind fun rows _ => ?_
  obtain ⟨made, done⟩ := finishes held member rows
  exact done ▸ .ok

/-- What a query has declared can only go wrong in its subqueries. -/
theorem fails_parts (formed : q.WellFormed)
    (fails : ∀ ask ∈ q.asks, Fails P (subquery scope ask.1 ask.2)) :
    Fails P (q.parts subquery scope) := by
  unfold parts
  refine Fails.bind ?_ fun _ _ => Fails.bind ?_ fun _ _ => Fails.bind ?_ fun _ _ =>
    Fails.bind ?_ fun _ _ => .ok
  · refine fails_mapM_picked ?_ compile_count (fun _ _ _ => ⟨_, rfl⟩) fails
    rintro (_ | _ | _ | _ | _) _ ⟨⟩
    rfl
  · split
    · exact .ok
    · next plain =>
      refine fails_mapM_picked ?_ compile_aggregate (fun held member rows => ?_) fails
      · rintro (_ | _ | _ | _ | _) _ ⟨⟩
        exact if_neg plain
      · obtain ⟨measure, compiled⟩ := formed.exists_compile member
        exact ⟨_, by rw [compiled, ok_bind]⟩
  · refine fails_mapM_picked ?_ compile_existence (fun _ _ _ => ⟨_, rfl⟩) fails
    rintro (_ | _ | _ | _ | _) _ ⟨⟩
    rfl
  · refine fails_mapM_picked ?_ compile_filter (fun held member rows => ?_) fails
    · rintro (_ | _ | _ | _ | _) _ ⟨⟩
      rfl
    · obtain ⟨measure, compiled⟩ := formed.exists_compile (formed.mem_aggregates_of_picked member)
      exact ⟨_, by rw [compiled, ok_bind]⟩

theorem exists_parts_of_asks (formed : q.WellFormed)
    (made : ∀ ask ∈ q.asks, ∃ rows, subquery scope ask.1 ask.2 = .ok rows) :
    ∃ parts, q.parts subquery scope = .ok parts := by
  refine exists_of_fails (fails_parts formed fun ask member => ?_)
  obtain ⟨rows, made⟩ := made ask member
  exact made ▸ .ok

theorem exists_of_mapM_picked {α β : Type} {pick : Declaration → Option α}
    {link : α → Link Refinement} {base : α → String} {compile : α → Except Error β}
    {finish : α → Subquery Condition → Except Error β} {results : List β}
    {declaration : Declaration} {held : α}
    (compiles : ∀ held, compile held = subquery scope (link held) (base held) >>= finish held)
    (compiled : (q.picked pick).mapM compile = .ok results)
    (declared : declaration ∈ q.declarations) (picks : pick declaration = some held) :
    ∃ rows, subquery scope (link held) (base held) = .ok rows := by
  have picked : held ∈ q.picked pick := List.mem_filterMap.2 ⟨declaration, declared, picks⟩
  obtain ⟨_, one⟩ := Outcome.exists_of_mem_mapM compiled picked
  rw [compiles] at one
  obtain ⟨rows, asked, _⟩ := Outcome.exists_of_bind one
  exact ⟨rows, asked⟩

theorem exists_of_parts {parts : Parts} (ok : q.parts subquery scope = .ok parts) {ask : Ask}
    (member : ask ∈ q.asks) : ∃ rows, subquery scope ask.1 ask.2 = .ok rows := by
  obtain ⟨declaration, declared, asks⟩ := List.mem_filterMap.1 member
  unfold Query.parts at ok
  obtain ⟨counts, counted, ok⟩ := Outcome.exists_of_bind ok
  obtain ⟨aggregates, aggregated, ok⟩ := Outcome.exists_of_bind ok
  obtain ⟨existences, existing, ok⟩ := Outcome.exists_of_bind ok
  obtain ⟨filters, filtered, ok⟩ := Outcome.exists_of_bind ok
  cases declaration with
  | relation held => cases asks
  | count held =>
    cases asks
    have made := exists_of_mapM_picked compile_count counted declared rfl
    exact made
  | existence held =>
    cases asks
    have made := exists_of_mapM_picked compile_existence existing declared rfl
    exact made
  | filter held =>
    cases asks
    have made := exists_of_mapM_picked compile_filter filtered declared rfl
    exact made
  | aggregate held =>
    simp only [Declaration.ask?] at asks
    split at asks
    · cases asks
    · next plain =>
      cases asks
      rw [if_neg plain] at aggregated
      have made := exists_of_mapM_picked compile_aggregate aggregated declared rfl
      exact made

theorem fails_fragment {step : Step} (call : step.isCall)
    (checks : ∀ error : Error, error.isCheck → P error) (columns : List Ask)
    (own : ∀ scope, q.scope = .ok scope →
      ∀ ask ∈ step.ask? columns, Fails P (subquery scope ask.1 ask.2)) :
    Fails P (q.fragment subquery step) := by
  have checked {α : Type} {result : Except Error α} (h : Fails (·.isCheck) result) :
      Fails P result := h.imp checks
  have compiled {edge : Edge Refinement} {link : Link Refinement} (ok : edge.link = .ok link)
      (own : ∀ scope, q.scope = .ok scope →
        ∀ ask ∈ edge.ask?, Fails P (subquery scope ask.1 ask.2)) (negated : Bool)
      (connective : Connective) : Fails P (q.scope >>= fun scope =>
        RelatedExistence.compile subquery scope { link, negated, connective } >>= fun condition =>
          (.ok (.entry (.item connective condition)) : Except Error Fragment)) := by
    refine (checked q.fails_scope).bind fun scope known => ?_
    rw [compile_existence]
    have made : Fails P (subquery scope link link.name) :=
      own scope known _ (Edge.ask?_of_link ok)
    exact (made.bind fun _ _ => .ok).bind fun _ _ => .ok
  unfold fragment Step.fragment
  cases step with
  | fail | attempt => cases call
  | openGroup | limit | offset | countAll => exact .ok
  | fromTable => exact (checked (fails_checkLabelled _ _)).bind fun _ _ => .ok
  | select => exact (checked (fails_checkLabelled _ _)).bind fun _ _ => .ok
  | join =>
    refine (checked (fails_checkLabelled _ _)).bind fun _ _ => ?_
    refine (checked (fails_checkName _ _)).bind fun _ _ => ?_
    exact (checked (fails_checkName _ _)).bind fun _ _ => .ok
  | filter =>
    refine (checked (fails_splitKey _)).bind fun _ _ => ?_
    exact (checked (fails_checkName _ _)).bind fun _ _ => .ok
  | filterIn => exact (checked (fails_checkName _ _)).bind fun _ _ => .ok
  | closeGroup =>
    dsimp only
    split
    · exact .error (checks _ rfl)
    · exact .ok
  | orderBy => exact (checked (fails_checkName _ _)).bind fun _ _ => .ok
  | load cardinality edge => exact (checked edge.fails_link).bind fun _ _ => .ok
  | aggregate kind edge column =>
    refine (checked edge.fails_link).bind fun link _ => ?_
    refine (checked (fails_checkOperand _ _)).bind fun operand _ => ?_
    dsimp only
    split
    · exact .error (checks _ rfl)
    · exact .ok
  | filterCount connective edge operator count =>
    refine (checked edge.fails_link).bind fun link _ => ?_
    dsimp only
    split
    · split
      · exact .error (checks _ rfl)
      · exact .ok
    · exact .error (checks _ rfl)
  | filterExists connective negated edge =>
    refine (checked edge.fails_link).bind fun link ok => ?_
    dsimp only
    split
    · exact .ok
    · exact compiled ok own negated connective
  | filterExistsNow connective edge =>
    exact (checked edge.fails_link).bind fun link ok => compiled ok own false connective
  | filterAggregate connective key value =>
    refine (checked (fails_splitKey _)).bind fun (label, operator) _ => ?_
    dsimp only
    split
    · split
      · exact .error (checks _ rfl)
      · split
        · exact .ok
        · exact .error (checks _ rfl)
    · exact .error (checks _ rfl)
  | orderByAggregate =>
    dsimp only
    split
    · exact .ok
    · exact .error (checks _ rfl)

theorem fails_settle {ready : List Deferred} {after : Query} {error : Error}
    (checks : ∀ error : Error, error.isCheck → P error)
    (fails : ∀ scope, q.scope = .ok scope → ∀ deferred ∈ ready,
      Fails P (subquery scope deferred.existence.ask.1 deferred.existence.ask.2))
    (went : q.settle subquery ready = (after, some error)) : P error := by
  induction ready generalizing q with
  | nil => cases went
  | cons deferred rest ih =>
    unfold settle at went
    dsimp only at went
    have filled : Fails P (q.scope >>= fun scope =>
        deferred.existence.compile subquery scope >>= q.statement.fill deferred.slot) := by
      refine (q.fails_scope.imp checks).bind fun scope known => ?_
      rw [compile_existence]
      have made := fails scope known deferred List.mem_cons_self
      exact (made.bind fun _ _ => .ok).bind fun _ _ => (q.statement.fails_fill _ _).imp checks
    split at went
    · next statement found =>
      obtain ⟨_, _, found⟩ := Outcome.exists_of_bind found
      obtain ⟨_, _, found⟩ := Outcome.exists_of_bind found
      have scope : ({ q with statement } : Query).scope = q.scope := by
        obtain ⟨_, _, rfl⟩ := Statement.exists_of_fill found
        rfl
      exact ih (fun known same deferred member =>
        fails known (scope ▸ same) deferred (List.mem_cons_of_mem _ member)) went
    · next found =>
      cases went
      exact filled _ found

theorem fails_applyUsing {step : Step} (call : step.isCall)
    (checks : ∀ error : Error, error.isCheck → P error) (columns : List Ask)
    (own : ∀ scope, q.scope = .ok scope →
      ∀ ask ∈ step.ask? columns, Fails P (subquery scope ask.1 ask.2))
    (waiting : ∀ scope, q.scope = .ok scope → ∀ deferred ∈ q.deferrals,
      Fails P (subquery scope deferred.existence.ask.1 deferred.existence.ask.2))
    {after : Query} {error : Error} (went : q.applyUsing subquery step = (after, some error)) :
    P error := by
  have unchanged {outcome : Except Error Query} (fails : Fails P outcome)
      (went : q.orUnchanged outcome = (after, some error)) : P error := by
    cases outcome with
    | ok => cases went
    | error error =>
      cases went
      exact fails _ rfl
  by_cases closes : step = .closeGroup
  · subst closes
    change q.closeGroup subquery = _ at went
    by_cases opened : q.statement.openGroups = 0
    · rw [closeGroup_of_closed opened] at went
      cases went
      exact checks _ rfl
    · rw [closeGroup_eq opened] at went
      split at went
      · next settled =>
        cases went
        refine fails_settle checks (fun scope known deferred member => ?_) settled
        exact waiting scope known deferred (List.mem_filter.1 member).1
      · split at went
        · cases went
        · next settled _ _ found =>
          cases went
          exact checks _ (Statement.fails_closeGroup _ _ found)
  rw [← applyPromptly_false] at went
  rcases applyPromptly_eq false call closes with
    put | ⟨connective, negated, edge, rfl, _, _, defer⟩
  · exact unchanged (fails_fragment call checks columns own).map (put.symm.trans went)
  · exact unchanged (edge.fails_link.imp checks).map (defer.symm.trans went)

theorem fails_checkRelations (q : Query) : Fails (·.isCheck) q.checkRelations := by
  unfold checkRelations
  split
  · split
    · exact .error rfl
    · exact .ok
  · exact .ok

theorem WellFormed.idle (h : q.WellFormed) (closed : q.statement.openGroups = 0) :
    q.deferrals = [] := by
  refine List.eq_nil_iff_forall_not_mem.2 fun deferred member => ?_
  obtain ⟨_, inside, opened⟩ := h.waiting deferred member
  omega

/-- A compilation can go wrong in a check or in a subquery. -/
theorem fails_assemble (formed : q.WellFormed) (checks : ∀ error : Error, error.isCheck → P error)
    (fails : ∀ scope, q.scope = .ok scope →
      ∀ ask ∈ q.asks, Fails P (subquery scope ask.1 ask.2)) : Fails P (q.assemble subquery) := by
  by_cases closed : q.statement.openGroups = 0
  · rw [assemble_eq closed (formed.idle closed)]
    refine (q.fails_scope.imp checks).bind fun scope known => ?_
    refine (fails_parts formed (fails scope known)).bind fun _ _ => ?_
    exact (q.fails_checkRelations.imp checks).bind fun _ _ => .ok
  · unfold assemble
    rw [if_pos (Nat.pos_of_ne_zero closed)]
    exact .error (checks _ rfl)

end Query

end RelationQuery
