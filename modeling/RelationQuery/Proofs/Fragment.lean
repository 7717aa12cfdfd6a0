import RelationQuery.Proofs.Outcome
import RelationQuery.Query.Subquery

/-! What a call adds to a query. Main statement: unless a call waits for a group, or ends the wait,
it adds one fragment, which depends on the query through its scope, its aggregates and the number
of open groups only. -/
namespace RelationQuery

/-- What a call adds to a query, with everything in it checked. -/
inductive Fragment where
  | table (table : Table)
  | output (name : String) (label : Option String)
  | join (join : Join)
  | entry (entry : Entry Condition)
  | ordering (column : String) (direction : Direction)
  | limit (count : Nat)
  | offset (count : Nat)
  | total
  | declared (declaration : Declaration)

namespace Fragment

def output? : Fragment → Option Output
  | .output name label => some (.column name label)
  | _ => none

def join? : Fragment → Option Join
  | .join held => some held
  | _ => none

def entry? : Fragment → Option (Entry Condition)
  | .entry held => some held
  | _ => none

def ordering? : Fragment → Option (String × Direction)
  | .ordering column direction => some (column, direction)
  | _ => none

def limit? : Fragment → Option Nat
  | .limit count => some count
  | _ => none

def offset? : Fragment → Option Nat
  | .offset count => some count
  | _ => none

def declaration? : Fragment → Option Declaration
  | .declared declaration => some declaration
  | _ => none

def aggregate? (fragment : Fragment) : Option RelatedAggregate :=
  fragment.declaration?.bind Declaration.aggregate?

end Fragment

def Step.isCall : Step → Bool
  | .fail _ | .attempt _ => false
  | _ => true

def Step.setsTable : Step → Bool
  | .fromTable _ => true
  | .attempt step => step.setsTable
  | _ => false

def Step.groups (depth : Nat) : Step → Nat
  | .openGroup .. => depth + 1
  | .closeGroup => depth - 1
  | _ => depth

/-- What a call adds when nothing waits: also an existence condition declared inside a group is
compiled on the spot. -/
def Step.fragment (subquery : SubqueryCompiler) (scope : Except Error Scope)
    (aggregates : List RelatedAggregate) (openGroups : Nat) : Step → Except Error Fragment
  | .fromTable table => do
    let (name, label) ← checkLabelled .table table
    return .table { name, label }
  | .select column => do
    let (name, label) ← checkLabelled .column column
    return .output name label
  | .join kind table left right => do
    let (name, label) ← checkLabelled .table table
    checkName .column left
    checkName .column right
    return .join { kind, table := { name, label }, left, right }
  | .filter connective key value => do
    let (column, operator) ← Query.splitKey key
    checkName .column column
    return .entry (.item connective (.comparing column operator value))
  | .filterIn connective negated column values => do
    checkName .column column
    return .entry (.item connective (.member column negated values))
  | .openGroup connective negated => .ok (.entry (.opening connective negated))
  | .closeGroup => if openGroups = 0 then .error (.group .noneOpen) else .ok (.entry .closing)
  | .orderBy column direction => do
    checkName .column column
    return .ordering column direction
  | .limit count => .ok (.limit count)
  | .offset count => .ok (.offset count)
  | .countAll => .ok .total
  | .load cardinality edge => do
    let link ← edge.link
    return .declared (.relation { link, cardinality, label := link.name })
  | .aggregate kind edge column => do
    let link ← edge.link
    let operand ← Query.checkOperand kind column
    let label := link.label.getD (link.target ++ "_" ++ kind.name)
    if (aggregates.find? (·.label = label)).isSome then throw (.repeatedLabel label)
    return .declared (.aggregate { link, measure := { kind, operand }, label })
  | .filterCount connective edge operator count => do
    let link ← edge.link
    let some comparison := Comparison.parse? operator.toList
      | throw (.parameter (.countOperator operator))
    if count < 0 then throw (.parameter (.negativeCount count))
    return .declared (.count { link, comparison, bound := count.toNat, connective })
  | .filterExists connective negated edge => do
    let existence : RelatedExistence := { link := ← edge.link, negated, connective }
    if openGroups = 0 then return .declared (.existence existence)
    return .entry (.item connective (← existence.compile subquery (← scope)))
  | .filterExistsNow connective edge => do
    let existence : RelatedExistence := { link := ← edge.link, negated := false, connective }
    return .entry (.item connective (← existence.compile subquery (← scope)))
  | .filterAggregate connective key value => do
    let (label, operator) ← Query.splitKey key
    let .compare comparison := operator
      | throw (.parameter (.filterOperator operator))
    if value.isNull then throw (.parameter (.nullFilter label))
    let some held := aggregates.find? (·.label = label) | throw (.unknownLabel label)
    return .declared (.filter { aggregate := held, comparison, value, connective })
  | .orderByAggregate label direction =>
    if (aggregates.find? (·.label = label)).isSome then .ok (.ordering label direction)
    else .error (.unknownLabel label)
  | .fail error => .error error
  | .attempt step => step.fragment subquery scope aggregates openGroups

inductive Step.Gives (subquery : SubqueryCompiler) (scope : Except Error Scope)
    (aggregates : List RelatedAggregate) : Step → Fragment → Prop
  | fromTable {raw name : String} {label : Option String}
    (checked : checkLabelled .table raw = .ok (name, label)) :
    Gives subquery scope aggregates (.fromTable raw) (.table { name, label })
  | select (raw name : String) (label : Option String) :
    Gives subquery scope aggregates (.select raw) (.output name label)
  | join {raw name : String} {label : Option String} (kind : Join.Kind) (left right : String)
    (checked : checkLabelled .table raw = .ok (name, label)) :
    Gives subquery scope aggregates (.join kind raw left right)
      (.join { kind, table := { name, label }, left, right })
  | filter (connective : Connective) (key column : String) (operator : Operator) (value : Value) :
    Gives subquery scope aggregates (.filter connective key value)
      (.entry (.item connective (.comparing column operator value)))
  | filterIn (connective : Connective) (negated : Bool) (column : String) (values : List Value) :
    Gives subquery scope aggregates (.filterIn connective negated column values)
      (.entry (.item connective (.member column negated values)))
  | openGroup (connective : Connective) (negated : Bool) :
    Gives subquery scope aggregates (.openGroup connective negated)
      (.entry (.opening connective negated))
  | closeGroup : Gives subquery scope aggregates .closeGroup (.entry .closing)
  | orderBy (column : String) (direction : Direction) :
    Gives subquery scope aggregates (.orderBy column direction) (.ordering column direction)
  | limit (count : Nat) : Gives subquery scope aggregates (.limit count) (.limit count)
  | offset (count : Nat) : Gives subquery scope aggregates (.offset count) (.offset count)
  | countAll : Gives subquery scope aggregates .countAll .total
  | load {edge : Edge Refinement} {link : Link Refinement} (cardinality : Cardinality)
    (checked : edge.link = .ok link) :
    Gives subquery scope aggregates (.load cardinality edge)
      (.declared (.relation { link, cardinality, label := link.name }))
  | aggregate {edge : Edge Refinement} {link : Link Refinement} (kind : Aggregate.Kind)
    (column : String) (operand : Aggregate.Operand String) (checked : edge.link = .ok link) :
    Gives subquery scope aggregates (.aggregate kind edge column)
      (.declared (.aggregate {
        link, measure := { kind, operand },
        label := link.label.getD (link.target ++ "_" ++ kind.name) }))
  | filterCount {edge : Edge Refinement} {link : Link Refinement} (connective : Connective)
    (operator : String) (comparison : Comparison) (count : Int) (checked : edge.link = .ok link) :
    Gives subquery scope aggregates (.filterCount connective edge operator count)
      (.declared (.count { link, comparison, bound := count.toNat, connective }))
  | filterExists {edge : Edge Refinement} {link : Link Refinement} (connective : Connective)
    (negated : Bool) (checked : edge.link = .ok link) :
    Gives subquery scope aggregates (.filterExists connective negated edge)
      (.declared (.existence { link, negated, connective }))
  | filterExistsHere {edge : Edge Refinement} {link : Link Refinement} {held : Scope}
    {condition : Condition} {connective : Connective} {negated : Bool}
    (checked : edge.link = .ok link) (found : scope = .ok held)
    (compiled : RelatedExistence.compile subquery held { link, negated, connective } =
      .ok condition) :
    Gives subquery scope aggregates (.filterExists connective negated edge)
      (.entry (.item connective condition))
  | filterExistsNow {edge : Edge Refinement} {link : Link Refinement} {held : Scope}
    {condition : Condition} {connective : Connective} (checked : edge.link = .ok link)
    (found : scope = .ok held)
    (compiled : RelatedExistence.compile subquery held { link, negated := false, connective } =
      .ok condition) :
    Gives subquery scope aggregates (.filterExistsNow connective edge)
      (.entry (.item connective condition))
  | filterAggregate {held : RelatedAggregate} (connective : Connective) (key : String)
    (value : Value) (comparison : Comparison) (member : held ∈ aggregates) :
    Gives subquery scope aggregates (.filterAggregate connective key value)
      (.declared (.filter { aggregate := held, comparison, value, connective }))
  | orderByAggregate (label : String) (direction : Direction) :
    Gives subquery scope aggregates (.orderByAggregate label direction)
      (.ordering label direction)
  | attempt {step : Step} {fragment : Fragment}
    (gives : Gives subquery scope aggregates step fragment) :
    Gives subquery scope aggregates (.attempt step) fragment

theorem Step.gives_of_fragment {subquery : SubqueryCompiler} {scope : Except Error Scope}
    {aggregates : List RelatedAggregate} {openGroups : Nat} : ∀ {step : Step} {fragment : Fragment},
    step.fragment subquery scope aggregates openGroups = .ok fragment →
      step.Gives subquery scope aggregates fragment
  | .fromTable _, _, h => by
    obtain ⟨⟨name, label⟩, checked, h⟩ := Outcome.exists_of_bind h
    cases h
    exact .fromTable checked
  | .select _, _, h => by
    obtain ⟨⟨name, label⟩, _, h⟩ := Outcome.exists_of_bind h
    cases h
    exact .select ..
  | .join .., _, h => by
    obtain ⟨⟨name, label⟩, checked, h⟩ := Outcome.exists_of_bind h
    obtain ⟨⟨⟩, _, h⟩ := Outcome.exists_of_bind h
    obtain ⟨⟨⟩, _, h⟩ := Outcome.exists_of_bind h
    cases h
    exact .join _ _ _ checked
  | .filter .., _, h => by
    obtain ⟨⟨column, operator⟩, _, h⟩ := Outcome.exists_of_bind h
    obtain ⟨⟨⟩, _, h⟩ := Outcome.exists_of_bind h
    cases h
    exact .filter ..
  | .filterIn .., _, h => by
    obtain ⟨⟨⟩, _, h⟩ := Outcome.exists_of_bind h
    cases h
    exact .filterIn ..
  | .openGroup .., _, h => by
    cases h
    exact .openGroup ..
  | .closeGroup, _, h => by
    unfold Step.fragment at h
    split at h <;> cases h
    exact .closeGroup
  | .orderBy .., _, h => by
    obtain ⟨⟨⟩, _, h⟩ := Outcome.exists_of_bind h
    cases h
    exact .orderBy ..
  | .limit _, _, h => by
    cases h
    exact .limit _
  | .offset _, _, h => by
    cases h
    exact .offset _
  | .countAll, _, h => by
    cases h
    exact .countAll
  | .load .., _, h => by
    obtain ⟨link, checked, h⟩ := Outcome.exists_of_bind h
    cases h
    exact .load _ checked
  | .aggregate .., _, h => by
    obtain ⟨link, checked, h⟩ := Outcome.exists_of_bind h
    obtain ⟨operand, _, h⟩ := Outcome.exists_of_bind h
    obtain ⟨_, h⟩ := Outcome.of_check h
    cases h
    exact .aggregate _ _ _ checked
  | .filterCount .., _, h => by
    obtain ⟨link, checked, h⟩ := Outcome.exists_of_bind h
    dsimp only at h
    split at h
    · obtain ⟨_, h⟩ := Outcome.of_check h
      cases h
      exact .filterCount _ _ _ _ checked
    · cases h
  | .filterExists .., _, h => by
    obtain ⟨link, checked, h⟩ := Outcome.exists_of_bind h
    dsimp only at h
    split at h
    · cases h
      exact .filterExists _ _ checked
    · obtain ⟨held, found, h⟩ := Outcome.exists_of_bind h
      obtain ⟨condition, compiled, h⟩ := Outcome.exists_of_bind h
      cases h
      exact .filterExistsHere checked found compiled
  | .filterExistsNow .., _, h => by
    obtain ⟨link, checked, h⟩ := Outcome.exists_of_bind h
    obtain ⟨held, found, h⟩ := Outcome.exists_of_bind h
    obtain ⟨condition, compiled, h⟩ := Outcome.exists_of_bind h
    cases h
    exact .filterExistsNow checked found compiled
  | .filterAggregate .., _, h => by
    obtain ⟨⟨label, operator⟩, _, h⟩ := Outcome.exists_of_bind h
    dsimp only at h
    split at h
    · obtain ⟨_, h⟩ := Outcome.of_check h
      split at h
      · next held named =>
        cases h
        exact .filterAggregate _ _ _ _ (List.mem_of_find?_eq_some named)
      · cases h
    · cases h
  | .orderByAggregate .., _, h => by
    unfold Step.fragment at h
    split at h <;> cases h
    exact .orderByAggregate ..
  | .fail _, _, h => by cases h
  | .attempt step, _, h => .attempt (gives_of_fragment h)

namespace Step.Gives

variable {subquery : SubqueryCompiler} {scope : Except Error Scope}
  {aggregates : List RelatedAggregate} {step : Step} {fragment : Fragment}

theorem ne_table (gives : step.Gives subquery scope aggregates fragment)
    (keeps : ¬step.setsTable) (table : Table) : fragment ≠ .table table := by
  induction gives with
  | fromTable => exact absurd rfl keeps
  | attempt _ ih => exact ih keeps
  | _ => nofun

theorem ne_closing (gives : step.Gives subquery scope aggregates fragment) (call : step.isCall)
    (closes : step ≠ .closeGroup) : fragment ≠ .entry .closing := by
  cases gives with
  | closeGroup => exact absurd rfl closes
  | attempt => cases call
  | _ => nofun

end Step.Gives

def Statement.put (s : Statement) : Entry Condition → Statement
  | .item connective condition => s.addCondition connective condition
  | .opening connective negated => s.openGroup connective negated
  | .closing => { s with conditions := s.conditions.closeGroup, openGroups := s.openGroups - 1 }

namespace Query

def aggregates (q : Query) : List RelatedAggregate :=
  q.declarations.filterMap Declaration.aggregate?

def put (q : Query) : Fragment → Query
  | .table table => q.onStatement (·.fromTable table)
  | .output name label => q.onStatement (·.select name label)
  | .join join => q.onStatement (·.addJoin join)
  | .entry entry => q.onStatement (·.put entry)
  | .ordering column direction => q.onStatement (·.orderBy column direction)
  | .limit count => q.limit count
  | .offset count => q.offset count
  | .total => q.countAll
  | .declared declaration => q.declare declaration

def fragment (subquery : SubqueryCompiler) (step : Step) (q : Query) : Except Error Fragment :=
  step.fragment subquery q.scope q.aggregates q.statement.openGroups

theorem scope_put {q : Query} {fragment : Fragment} (h : ∀ table, fragment ≠ .table table) :
    (q.put fragment).scope = q.scope := by
  cases fragment with
  | table table => exact absurd rfl (h table)
  | entry entry => cases entry <;> rfl
  | _ => rfl

@[simp] theorem deferrals_put {q : Query} (fragment : Fragment) :
    (q.put fragment).deferrals = q.deferrals := by cases fragment <;> rfl

theorem openGroups_put {subquery : SubqueryCompiler} {scope : Except Error Scope}
    {aggregates : List RelatedAggregate} {step : Step} {fragment : Fragment}
    (gives : step.Gives subquery scope aggregates fragment) (call : step.isCall) (q : Query) :
    (q.put fragment).statement.openGroups = step.groups q.statement.openGroups := by
  cases gives with
  | attempt => cases call
  | _ => rfl

variable (subquery : SubqueryCompiler) (q : Query)

theorem fromTable_eq_put (table : String) :
    q.fromTable table = q.put <$> q.fragment subquery (.fromTable table) := by
  refine Eq.trans ?_ (map_bind _ _ _).symm
  exact bind_congr fun (_, _) => rfl

theorem select_eq_put (column : String) :
    q.select column = q.put <$> q.fragment subquery (.select column) := by
  refine Eq.trans ?_ (map_bind _ _ _).symm
  exact bind_congr fun (_, _) => rfl

theorem join_eq_put (kind : Join.Kind) (table left right : String) :
    q.join kind table left right = q.put <$> q.fragment subquery (.join kind table left right) := by
  refine Eq.trans (bind_congr fun (_, _) => ?_) (map_bind _ _ _).symm
  simp only [map_bind]
  rfl

theorem filter_eq_put (connective : Connective) (key : String) (value : Value) :
    q.filter connective key value =
      q.put <$> q.fragment subquery (.filter connective key value) := by
  refine Eq.trans (bind_congr fun (_, _) => ?_) (map_bind _ _ _).symm
  rw [map_bind]
  rfl

theorem filterIn_eq_put (connective : Connective) (negated : Bool) (column : String)
    (values : List Value) : q.filterIn connective negated column values =
      q.put <$> q.fragment subquery (.filterIn connective negated column values) := by
  refine Eq.trans ?_ (map_bind _ _ _).symm
  rfl

theorem orderBy_eq_put (column : String) (direction : Direction) :
    q.orderBy column direction = q.put <$> q.fragment subquery (.orderBy column direction) := by
  refine Eq.trans ?_ (map_bind _ _ _).symm
  rfl

theorem load_eq_put (cardinality : Cardinality) (edge : Edge Refinement) :
    q.load cardinality edge = q.put <$> q.fragment subquery (.load cardinality edge) := by
  refine Eq.trans ?_ (map_bind _ _ _).symm
  rfl

theorem aggregate_eq_put (kind : Aggregate.Kind) (edge : Edge Refinement) (column : String) :
    q.aggregate kind edge column = q.put <$> q.fragment subquery (.aggregate kind edge column) := by
  refine Eq.trans (bind_congr fun link => ?_) (map_bind _ _ _).symm
  refine Eq.trans (bind_congr fun operand => ?_) (map_bind _ _ _).symm
  change _ = q.put <$> if _ then _ else _
  rw [apply_ite (q.put <$> ·)]
  rfl

theorem filterCount_eq_put (connective : Connective) (edge : Edge Refinement) (operator : String)
    (count : Int) : q.filterCount connective edge operator count =
      q.put <$> q.fragment subquery (.filterCount connective edge operator count) := by
  refine Eq.trans (bind_congr fun link => ?_) (map_bind _ _ _).symm
  cases Comparison.parse? operator.toList with
  | none => rfl
  | some comparison =>
    simp only
    split <;> rfl

theorem filterExistsNow_eq_put (connective : Connective) (edge : Edge Refinement) :
    q.filterExistsNow subquery connective edge =
      q.put <$> q.fragment subquery (.filterExistsNow connective edge) := by
  refine Eq.trans (bind_congr fun link => ?_) (map_bind _ _ _).symm
  simp only [map_bind]
  rfl

theorem filterAggregate_eq_put (connective : Connective) (key : String) (value : Value) :
    q.filterAggregate connective key value =
      q.put <$> q.fragment subquery (.filterAggregate connective key value) := by
  refine Eq.trans (bind_congr fun (label, operator) => ?_) (map_bind _ _ _).symm
  cases operator with
  | like | notLike | is | isNot => rfl
  | compare comparison =>
    simp only
    split
    · rfl
    · change (match q.aggregates.find? _ with | some _ => _ | _ => _) = _
      cases q.aggregates.find? fun aggregate => aggregate.label = label <;> rfl

theorem orderByAggregate_eq_put (label : String) (direction : Direction) :
    q.orderByAggregate label direction =
      q.put <$> q.fragment subquery (.orderByAggregate label direction) := by
  change _ = q.put <$> if _ then _ else _
  rw [apply_ite (q.put <$> ·)]
  rfl

theorem filterExists_eq_put (connective : Connective) (negated : Bool) (edge : Edge Refinement)
    (closed : q.statement.openGroups = 0) : q.filterExists connective negated edge =
      q.put <$> q.fragment subquery (.filterExists connective negated edge) := by
  refine Eq.trans (bind_congr fun link => ?_) (map_bind _ _ _).symm
  simp only [closed, ↓reduceIte]
  rfl

theorem applyUsing_eq_put {step : Step} (call : step.isCall) (closes : step ≠ .closeGroup)
    (waits : ∀ connective negated edge, step = .filterExists connective negated edge →
      q.statement.openGroups = 0) :
    q.applyUsing subquery step = q.orUnchanged (q.put <$> q.fragment subquery step) := by
  cases step with
  | fail | attempt => cases call
  | closeGroup => exact absurd rfl closes
  | openGroup | limit | offset | countAll => rfl
  | fromTable => rw [← fromTable_eq_put]; rfl
  | select => rw [← select_eq_put]; rfl
  | join => rw [← join_eq_put]; rfl
  | filter => rw [← filter_eq_put]; rfl
  | filterIn => rw [← filterIn_eq_put]; rfl
  | orderBy => rw [← orderBy_eq_put]; rfl
  | load => rw [← load_eq_put]; rfl
  | aggregate => rw [← aggregate_eq_put]; rfl
  | filterCount => rw [← filterCount_eq_put]; rfl
  | filterExistsNow => rw [← filterExistsNow_eq_put]; rfl
  | filterAggregate => rw [← filterAggregate_eq_put]; rfl
  | orderByAggregate => rw [← orderByAggregate_eq_put]; rfl
  | filterExists connective negated edge =>
    rw [← filterExists_eq_put subquery q _ _ _ (waits connective negated edge rfl)]
    rfl

end Query

end RelationQuery
