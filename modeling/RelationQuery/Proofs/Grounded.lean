import RelationQuery.Proofs.Assembly
import RelationQuery.Proofs.Writing

/-! What it means for all values in a query to be given ones. Main statements: operations on a
statement, and the compilation of what was declared, bring no others in. -/
namespace RelationQuery

def Step.edge? : Step → Option (Edge Refinement)
  | .load _ edge | .aggregate _ edge _ | .filterCount _ edge _ _ | .filterExists _ _ edge
  | .filterExistsNow _ edge => some edge
  | _ => none

/-- The values that a step is given, those in the refinement of its edge included. -/
inductive Step.Supplies : Step → Value → Prop
  | filter (connective : Connective) (key : String) (value : Value) :
    Supplies (.filter connective key value) value
  | filterIn (connective : Connective) (negated : Bool) (column : String) {values : List Value}
    {value : Value} (member : value ∈ values) :
    Supplies (.filterIn connective negated column values) value
  | filterAggregate (connective : Connective) (key : String) (value : Value) :
    Supplies (.filterAggregate connective key value) value
  | refinement {step inner : Step} {edge : Edge Refinement} {steps : Refinement} {value : Value}
    (about : edge ∈ step.edge?) (narrows : steps ∈ edge.refinement) (member : inner ∈ steps)
    (supplies : Supplies inner value) : Supplies step value
  | attempt {step : Step} {value : Value} (supplies : Supplies step value) :
    Supplies (.attempt step) value

def Step.Within (given : Value → Prop) (step : Step) : Prop :=
  ∀ value, step.Supplies value → given value

def Refinement.Within (given : Value → Prop) (steps : Refinement) : Prop :=
  ∀ step ∈ steps, step.Within given

def Link.Grounded (given : Value → Prop) (link : Link Refinement) : Prop :=
  ∀ steps ∈ link.refinement, Refinement.Within given steps

theorem Link.Grounded.within {given : Value → Prop} {link : Link Refinement}
    (h : link.Grounded given) : Refinement.Within given (link.refinement.getD []) := by
  cases steps : link.refinement with
  | none => exact fun _ => (nomatch ·)
  | some _ => exact h _ steps

def RelatedAggregate.Grounded (given : Value → Prop) (aggregate : RelatedAggregate) : Prop :=
  aggregate.link.Grounded given ∧ '*' ∉ aggregate.label.toList

def Declaration.Grounded (given : Value → Prop) : Declaration → Prop
  | .relation held => held.link.Grounded given
  | .aggregate held => held.Grounded given
  | .count held => held.link.Grounded given
  | .existence held => held.link.Grounded given
  | .filter held => held.aggregate.Grounded given ∧ given held.value

/-- All values in a query are given ones, and it is set up for one dialect throughout. -/
structure Query.Grounded (config : Config) (given : Value → Prop) (q : Query) : Prop where
  configured : q.config = config
  dialect : q.statement.dialect = config.dialect
  statement : q.statement.Grounded given
  declarations : ∀ declaration ∈ q.declarations, declaration.Grounded given
  deferrals : ∀ deferred ∈ q.deferrals, deferred.existence.link.Grounded given

def SubqueryCompiler.Sound (subquery : SubqueryCompiler) (given : Value → Prop) : Prop :=
  ∀ scope link base rows, link.Grounded given → subquery scope link base = .ok rows →
    rows.Grounded given ∧ ∃ depth : Nat, rows.label = base ++ "_s" ++ toString depth

variable {config : Config} {given : Value → Prop}

theorem not_mem_of_checkName {kind : Identifier.Kind} {name : String}
    (h : checkName kind name = .ok ()) : '*' ∉ name.toList := by
  intro member
  rcases Expression.isPart_of_check (Outcome.ok_of_mapError h) _ member with part | dot
  · revert part
    decide
  · revert dot
    decide

theorem not_mem_of_checkLabelled {kind : Identifier.Kind} {raw name : String}
    {label : Option String} (h : checkLabelled kind raw = .ok (name, label)) :
    '*' ∉ name.toList ∧ ∀ held ∈ label, '*' ∉ held.toList := by
  unfold checkLabelled at h
  generalize Name.splitLabel raw = parts at h
  obtain ⟨plain, _ | held⟩ := parts
  · obtain ⟨⟨⟩, checked, h⟩ := Outcome.exists_of_bind h
    cases h
    exact ⟨not_mem_of_checkName checked, nofun⟩
  · obtain ⟨⟨⟩, checked, h⟩ := Outcome.exists_of_bind h
    obtain ⟨⟨⟩, labelled, h⟩ := Outcome.exists_of_bind h
    cases h
    refine ⟨not_mem_of_checkName checked, ?_⟩
    rintro _ ⟨⟩
    exact not_mem_of_checkName labelled

theorem Edge.link_spec {edge : Edge Refinement} {link : Link Refinement}
    (h : edge.link = .ok link) :
    link.refinement = edge.refinement ∧ '*' ∉ link.target.toList ∧
      ∀ label ∈ link.label, '*' ∉ label.toList := by
  unfold Edge.link at h
  obtain ⟨⟨target, label⟩, checked, h⟩ := Outcome.exists_of_bind h
  obtain ⟨_, h⟩ := Outcome.of_check h
  obtain ⟨_, h⟩ := Outcome.of_check h
  obtain ⟨⟨⟩, _, h⟩ := Outcome.exists_of_bind h
  obtain ⟨⟨⟩, _, h⟩ := Outcome.exists_of_bind h
  cases h
  exact ⟨rfl, not_mem_of_checkLabelled checked⟩

theorem Edge.grounded_link {step : Step} {edge : Edge Refinement} {link : Link Refinement}
    (within : step.Within given) (about : edge ∈ step.edge?) (h : edge.link = .ok link) :
    link.Grounded given := by
  intro steps narrows inner member value supplies
  rw [(Edge.link_spec h).1] at narrows
  exact within value (.refinement about narrows member supplies)

theorem Aggregate.parsed_of_compile {declared : Aggregate String}
    {measure : Aggregate Expression} {owner : String} (h : declared.compile = .ok measure)
    (plain : '*' ∉ owner.toList) : measure.Parsed owner := by
  obtain ⟨operand, compiled, h⟩ := Outcome.exists_of_bind h
  cases h
  rintro e ⟨⟩
  refine ⟨plain, ?_⟩
  cases operand : declared.operand with
  | star | column =>
    rw [operand] at compiled
    cases compiled
  | expression source =>
    rw [operand] at compiled
    obtain ⟨_, parsed, same⟩ := Outcome.exists_of_map (Outcome.ok_of_mapError compiled)
    cases same
    exact ⟨_, _, parsed⟩

theorem Link.not_mem_label {edge : Edge Refinement} {link : Link Refinement}
    (h : edge.link = .ok link) (kind : Aggregate.Kind) :
    '*' ∉ (link.label.getD (link.target ++ "_" ++ kind.name)).toList := by
  obtain ⟨_, target, labels⟩ := Edge.link_spec h
  cases label : link.label with
  | some held => exact labels held label
  | none =>
    rw [Option.getD_none, String.toList_append, String.toList_append]
    simp only [List.mem_append, not_or]
    exact ⟨⟨target, by decide⟩, by cases kind <;> decide⟩

namespace Statement

theorem dialect_of_closeGroup {s closed : Statement} (h : s.closeGroup = .ok closed) :
    closed.dialect = s.dialect := by
  unfold closeGroup at h
  split at h <;> cases h
  rfl

theorem dialect_of_fill {s filled : Statement} {slot : Nat} {condition : Condition}
    (h : s.fill slot condition = .ok filled) : filled.dialect = s.dialect := by
  obtain ⟨_, _, rfl⟩ := exists_of_fill h
  rfl

namespace Grounded

variable {s : Statement}

theorem bare (dialect : Dialect) (table : Option Table) :
    Statement.Grounded given { dialect, table } :=
  ⟨fun _ => (nomatch ·), fun _ => (nomatch ·), fun _ _ => (nomatch ·), rfl⟩

theorem append (h : s.Grounded given) {more : Clause Place} {depth : Nat}
    (items : ∀ connective condition, .item connective (.ready condition) ∈ more →
      condition.Grounded given)
    (nested : Clause.nesting s.openGroups more = some depth) :
    Statement.Grounded given
      { s with conditions := s.conditions ++ more, openGroups := depth } where
  outputs := h.outputs
  extras := h.extras
  conditions connective condition member := by
    rcases List.mem_append.1 member with member | member
    · exact h.conditions connective condition member
    · exact items connective condition member
  nesting := by
    rw [Clause.nesting_append, h.nesting]
    exact nested

theorem addCondition (h : s.Grounded given) (connective : Connective) {condition : Condition}
    (ok : condition.Grounded given) : (s.addCondition connective condition).Grounded given := by
  apply h.append _ rfl
  intro other held member
  obtain ⟨rfl, rfl⟩ : other = connective ∧ held = condition := by simpa using member
  exact ok

theorem openGroup (h : s.Grounded given) (connective : Connective) (negated : Bool) :
    (s.openGroup connective negated).Grounded given :=
  h.append (by simp) rfl

theorem reserve (h : s.Grounded given) (connective : Connective) :
    (s.reserve connective).2.Grounded given := by
  have longer : Statement.Grounded given
      { s with conditions := s.conditions ++ [.item connective (.reserved s.slots)] } :=
    h.append (by simp) rfl
  exact ⟨longer.outputs, longer.extras, longer.conditions, longer.nesting⟩

theorem closeGroup {closed : Statement} (h : s.Grounded given)
    (closes : s.closeGroup = .ok closed) : closed.Grounded given := by
  unfold Statement.closeGroup at closes
  split at closes
  · cases closes
  · next opened =>
    cases closes
    refine ⟨h.outputs, h.extras, ?_, ?_⟩
    · intro connective condition member
      apply h.conditions connective condition
      dsimp only at member
      unfold Clause.closeGroup at member
      split at member
      · exact List.dropLast_subset _ member
      · simpa using member
    · apply Clause.nesting_closeGroup
      rw [h.nesting]
      exact congrArg some (Nat.succ_pred_eq_of_ne_zero opened).symm

theorem fill {slot : Nat} {condition : Condition} {filled : Statement} (h : s.Grounded given)
    (ok : condition.Grounded given) (fills : s.fill slot condition = .ok filled) :
    filled.Grounded given := by
  obtain ⟨conditions, found, rfl⟩ := exists_of_fill fills
  refine ⟨h.outputs, h.extras, ?_, ?_⟩
  · intro connective held member
    obtain ⟨front, joins, back, whole, rfl⟩ := Clause.exists_of_fill? found
    by_cases same : held = condition
    · exact same ▸ ok
    · apply h.conditions connective held
      simpa [whole, same] using member
  · rw [← h.nesting]
    exact Clause.nesting_fill? found 0

theorem entries (h : s.Grounded given) (connectives : List Connective)
    {conditions : List Condition} (ok : ∀ condition ∈ conditions, condition.Grounded given) :
    Statement.Grounded given
      { s with conditions := s.conditions ++ Query.entries connectives conditions } := by
  have items : ∀ entry ∈ Query.entries connectives conditions,
      ∃ connective, ∃ condition ∈ conditions, entry = .item connective (.ready condition) := by
    unfold Query.entries
    rw [← List.map_uncurry_zip_eq_zipWith]
    intro entry member
    obtain ⟨⟨connective, condition⟩, paired, rfl⟩ := List.mem_map.1 member
    exact ⟨connective, condition, (List.of_mem_zip paired).2, rfl⟩
  apply h.append
  · intro connective condition member
    obtain ⟨_, _, held, same⟩ := items _ member
    cases same
    exact ok condition held
  · apply Clause.nesting_of_items
    intro entry member
    obtain ⟨connective, condition, _, same⟩ := items entry member
    exact ⟨connective, _, same⟩

theorem outputting (h : s.Grounded given) {outputs : List Output}
    (ok : ∀ output ∈ outputs, output.Grounded given) :
    Statement.Grounded given { s with extras := s.extras ++ outputs } := by
  refine ⟨h.outputs, ?_, h.conditions, h.nesting⟩
  intro output member
  rcases List.mem_append.1 member with old | new
  · exact h.extras output old
  · exact ok output new

theorem follow (h : s.Grounded given) {lead : Clause Place}
    (items : ∀ connective condition, .item connective (.ready condition) ∈ lead →
      condition.Grounded given)
    (nested : Clause.nesting 0 lead = some 0) : (s.follow lead).Grounded given where
  outputs := h.outputs
  extras := h.extras
  conditions connective condition member := by
    unfold Statement.follow Clause.behind at member
    dsimp only at member
    split at member
    · exact items connective condition member
    · rcases List.mem_append.1 member with front | back
      · exact items connective condition front
      · exact h.conditions connective condition (by simpa using back)
  nesting := Clause.nesting_behind nested h.nesting

end Grounded

end Statement

theorem not_mem_append_depth {base : String} (plain : '*' ∉ base.toList) (depth : Nat) :
    '*' ∉ (base ++ "_s" ++ toString depth).toList := by
  have digits : '*' ∉ (toString depth).toList := by
    rw [Nat.toString_eq_ofList_toDigits, String.toList_ofList]
    intro member
    have digit := Nat.isDigit_of_mem_toDigits (by decide) (by decide) member
    revert digit
    decide
  rw [String.toList_append, String.toList_append]
  simp only [List.mem_append, not_or]
  exact ⟨⟨plain, by decide⟩, digits⟩

theorem Condition.grounded_comparing {value : Value} (h : given value) (column : String)
    (operator : Operator) : (Condition.comparing column operator value).Grounded given := by
  unfold Condition.comparing
  split <;> exact h

section Compile

variable {subquery : SubqueryCompiler} (sound : subquery.Sound given) {scope : Scope}
  {condition : Condition}
include sound

theorem RelatedExistence.grounded_compile {existence : RelatedExistence}
    (h : existence.link.Grounded given) (made : existence.compile subquery scope = .ok condition) :
    condition.Grounded given := by
  obtain ⟨rows, compiled, made⟩ := Outcome.exists_of_bind made
  cases made
  exact (sound _ _ _ _ h compiled).1

theorem RelatedCount.grounded_compile {count : RelatedCount} (h : count.link.Grounded given)
    (made : count.compile subquery scope = .ok condition) : condition.Grounded given := by
  obtain ⟨rows, compiled, made⟩ := Outcome.exists_of_bind made
  cases made
  exact (sound _ _ _ _ h compiled).1

theorem RelatedAggregate.grounded_rows {aggregate : RelatedAggregate}
    {measure : Aggregate Expression} {rows : Subquery Condition} (h : aggregate.Grounded given)
    (selected : subquery scope aggregate.link aggregate.label = .ok rows)
    (compiled : aggregate.measure.compile = .ok measure) :
    measure.Parsed rows.label ∧ rows.Grounded given := by
  obtain ⟨grounded, depth, named⟩ := sound _ _ _ _ h.1 selected
  refine ⟨Aggregate.parsed_of_compile compiled ?_, grounded⟩
  exact named ▸ not_mem_append_depth h.2 depth

theorem RelatedAggregate.grounded_compile {aggregate : RelatedAggregate} {output : Output}
    (h : aggregate.Grounded given) (made : aggregate.compile subquery scope = .ok output) :
    output.Grounded given := by
  obtain ⟨measure, rows, selected, compiled, rfl⟩ := exists_of_compile made
  exact grounded_rows sound h selected compiled

theorem AggregateFilter.grounded_compile {filter : AggregateFilter}
    (h : filter.aggregate.Grounded given ∧ given filter.value)
    (made : filter.compile subquery scope = .ok condition) : condition.Grounded given := by
  obtain ⟨measure, rows, selected, compiled, rfl⟩ := exists_of_compile made
  obtain ⟨parsed, grounded⟩ := RelatedAggregate.grounded_rows sound h.1 selected compiled
  exact ⟨parsed, grounded, h.2⟩

end Compile

namespace Query

variable {q after : Query}

namespace Grounded

theorem empty (config : Config) (given : Value → Prop) :
    (Query.empty config).Grounded config given :=
  ⟨rfl, rfl, .bare _ _, fun _ => (nomatch ·), fun _ => (nomatch ·)⟩

theorem below (config : Config) (given : Value → Prop) (table : Table) (depth : Nat)
    (correlated : Bool) : (Query.below config table depth correlated).Grounded config given :=
  ⟨rfl, rfl, .bare _ _, fun _ => (nomatch ·), fun _ => (nomatch ·)⟩

theorem onStatement (h : q.Grounded config given) {f : Statement → Statement}
    (dialect : (f q.statement).dialect = q.statement.dialect)
    (statement : (f q.statement).Grounded given) : (q.onStatement f).Grounded config given :=
  ⟨h.configured, dialect.trans h.dialect, statement, h.declarations, h.deferrals⟩

theorem aside (h : q.Grounded config given) {f : Statement → Statement}
    (same : ∀ s, (f s).dialect = s.dialect ∧ (f s).extras = s.extras ∧
      (f s).conditions = s.conditions ∧ (f s).openGroups = s.openGroups)
    (outputs : ∀ output ∈ (f q.statement).outputs, output ∈ q.statement.outputs ∨
      ∃ name label, output = .column name label) : (q.onStatement f).Grounded config given := by
  obtain ⟨dialect, extras, conditions, openGroups⟩ := same q.statement
  refine h.onStatement dialect ⟨?_, ?_, ?_, ?_⟩
  · intro output member
    rcases outputs output member with old | ⟨name, label, rfl⟩
    · exact h.statement.outputs output old
    · exact True.intro
  · exact extras ▸ h.statement.extras
  · exact conditions ▸ h.statement.conditions
  · rw [conditions, openGroups]
    exact h.statement.nesting

theorem declare (h : q.Grounded config given) {declaration : Declaration}
    (new : declaration.Grounded given) : (q.declare declaration).Grounded config given := by
  refine ⟨h.configured, h.dialect, h.statement, ?_, h.deferrals⟩
  intro held member
  rcases List.mem_append.1 member with old | here
  · exact h.declarations held old
  · exact List.mem_singleton.1 here ▸ new

end Grounded

end Query

end RelationQuery
