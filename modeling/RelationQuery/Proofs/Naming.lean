import RelationQuery.Proofs.Assembly
import RelationQuery.Proofs.Lexical
import RelationQuery.Proofs.WellFormed

/-! Where the tables and the subqueries of a statement come from. Main statement: all tables but
the one a query was begun over have names that calls chose, and each subquery was made for the
query from a relation that a call gave. -/
namespace RelationQuery

/-- The names that a step has tables known by, in the statement or in one for related rows. -/
inductive Step.Names : Step → String → Prop
  | fromTable {raw name : String} {label : Option String}
    (checked : checkLabelled .table raw = .ok (name, label)) :
    Names (.fromTable raw) (label.getD name)
  | join {raw name : String} {label : Option String} (kind : Join.Kind) (left right : String)
    (checked : checkLabelled .table raw = .ok (name, label)) :
    Names (.join kind raw left right) (label.getD name)
  | load {edge : Edge Refinement} {link : Link Refinement} (cardinality : Cardinality)
    (checked : edge.link = .ok link) : Names (.load cardinality edge) link.name
  | refinement {step inner : Step} {edge : Edge Refinement} {steps : Refinement} {name : String}
    (about : edge ∈ step.edge?) (narrows : steps ∈ edge.refinement) (member : inner ∈ steps)
    (names : Names inner name) : Names step name
  | attempt {step : Step} {name : String} (names : Names step name) : Names (.attempt step) name

inductive Step.Narrows : Step → Refinement → Prop
  | here {step : Step} {edge : Edge Refinement} {steps : Refinement} (about : edge ∈ step.edge?)
    (narrows : steps ∈ edge.refinement) : Narrows step steps
  | inside {step inner : Step} {edge : Edge Refinement} {steps nested : Refinement}
    (about : edge ∈ step.edge?) (narrows : steps ∈ edge.refinement) (member : inner ∈ steps)
    (further : Narrows inner nested) : Narrows step nested
  | attempt {step : Step} {steps : Refinement} (narrows : Narrows step steps) :
    Narrows (.attempt step) steps

namespace Refinement

def Names (steps : Refinement) (name : String) : Prop := ∃ step ∈ steps, step.Names name

/-- Here and in every refinement, base tables are set before conditions on related rows are
declared. -/
def Ordered (steps : Refinement) : Prop :=
  TableFirst steps ∧ ∀ step ∈ steps, ∀ nested, step.Narrows nested → TableFirst nested

end Refinement

structure Step.Fits (chosen : String → Prop) (ordered : Prop) (step : Step) : Prop where
  names : ∀ name, step.Names name → chosen name
  narrows : ordered → ∀ nested, step.Narrows nested → TableFirst nested

structure Refinement.Fits (chosen : String → Prop) (ordered : Prop) (steps : Refinement) :
    Prop where
  each : ∀ step ∈ steps, step.Fits chosen ordered
  tableFirst : ordered → TableFirst steps

def Link.Fits (chosen : String → Prop) (ordered : Prop) (link : Link Refinement) : Prop :=
  ∀ steps ∈ link.refinement, Refinement.Fits chosen ordered steps

def Declaration.Fits (chosen : String → Prop) (ordered : Prop) : Declaration → Prop
  | .relation held => held.link.Fits chosen ordered ∧ chosen held.link.name
  | .aggregate held => held.link.Fits chosen ordered
  | .count held => held.link.Fits chosen ordered
  | .existence held => held.link.Fits chosen ordered
  | .filter held => held.aggregate.link.Fits chosen ordered

theorem Declaration.Fits.link {chosen : String → Prop} {ordered : Prop}
    {declaration : Declaration} (fits : declaration.Fits chosen ordered) :
    declaration.link.Fits chosen ordered := by
  cases declaration with
  | relation => exact fits.1
  | aggregate | count | existence | filter => exact fits

def Entry.content? {α : Type} : Entry α → Option α
  | .item _ content => some content
  | _ => none

def Condition.rows? : Condition → Option (Subquery Condition)
  | .existence _ rows | .count rows _ _ | .aggregate _ rows _ _ => some rows
  | _ => none

def Place.rows? : Place → Option (Subquery Condition)
  | .ready condition => condition.rows?
  | .reserved _ => none

def Output.rows? : Output → Option (Subquery Condition)
  | .aggregate _ rows _ => some rows
  | .column .. => none

def Statement.subqueries (s : Statement) : List (Subquery Condition) :=
  s.conditions.filterMap (·.content?.bind Place.rows?) ++
    (s.outputs ++ s.extras).filterMap Output.rows?

def Subquery.MadeAt (subquery : SubqueryCompiler) (chosen : String → Prop) (ordered : Prop)
    (scope : Scope) (rows : Subquery Condition) : Prop :=
  ∃ link base, link.Fits chosen ordered ∧ subquery scope link base = .ok rows

namespace Query

def Made (subquery : SubqueryCompiler) (chosen : String → Prop) (ordered : Prop) (q : Query)
    (rows : Subquery Condition) : Prop :=
  ∃ scope, scope.depth = q.depth ∧ (ordered → q.scope = .ok scope) ∧
    rows.MadeAt subquery chosen ordered scope

/-- Tables have names that were chosen, the first one perhaps the name `own?` that it was given;
subqueries were made for the query from links that fit, and more of them may come. -/
structure Named (subquery : SubqueryCompiler) (chosen : String → Prop) (ordered : Prop)
    (own? : Option String) (q : Query) : Prop where
  table : ∀ table ∈ q.statement.table, table.knownAs ∈ own? ∨ chosen table.knownAs
  joins : ∀ join ∈ q.statement.joins, chosen join.table.knownAs
  subqueries : ∀ rows ∈ q.statement.subqueries, q.Made subquery chosen ordered rows
  declarations : ∀ declaration ∈ q.declarations, declaration.Fits chosen ordered
  deferrals : ∀ deferred ∈ q.deferrals, deferred.existence.link.Fits chosen ordered

structure Bare (q : Query) : Prop where
  subqueries : q.statement.subqueries = []
  deferrals : q.deferrals = []

end Query

variable {chosen : String → Prop} {ordered : Prop} {subquery : SubqueryCompiler}

theorem Edge.fits_link {step : Step} {edge : Edge Refinement} {link : Link Refinement}
    (fits : step.Fits chosen ordered) (about : edge ∈ step.edge?) (checked : edge.link = .ok link) :
    link.Fits chosen ordered := by
  intro steps narrows
  rw [(Edge.link_spec checked).1] at narrows
  refine ⟨fun inner member => ⟨?_, ?_⟩, fun order => fits.narrows order _ (.here about narrows)⟩
  · exact fun name names => fits.names name (.refinement about narrows member names)
  · exact fun order nested further =>
      fits.narrows order nested (.inside about narrows member further)

theorem Step.Fits.of_attempt {step : Step} (fits : (Step.attempt step).Fits chosen ordered) :
    step.Fits chosen ordered :=
  ⟨fun name names => fits.names name (.attempt names),
    fun order nested narrows => fits.narrows order nested (.attempt narrows)⟩

theorem Link.Fits.refinement {link : Link Refinement} (fits : link.Fits chosen ordered) :
    Refinement.Fits chosen ordered (link.refinement.getD []) := by
  cases steps : link.refinement with
  | none => exact ⟨nofun, fun _ => List.Pairwise.nil⟩
  | some _ => exact fits _ steps

theorem RelatedExistence.rows_of_compile {existence : RelatedExistence} {scope : Scope}
    {condition : Condition} {rows : Subquery Condition}
    (compiled : existence.compile subquery scope = .ok condition)
    (brings : rows ∈ condition.rows?) :
    subquery scope existence.link existence.link.name = .ok rows := by
  obtain ⟨made, here, compiled⟩ := Outcome.exists_of_bind compiled
  cases compiled
  cases brings
  exact here

theorem RelatedExistence.madeAt_of_compile {existence : RelatedExistence} {scope : Scope}
    {condition : Condition} {rows : Subquery Condition}
    (compiled : existence.compile subquery scope = .ok condition)
    (fits : existence.link.Fits chosen ordered) (brings : rows ∈ condition.rows?) :
    rows.MadeAt subquery chosen ordered scope :=
  ⟨_, _, fits, rows_of_compile compiled brings⟩

def Fragment.Fits (subquery : SubqueryCompiler) (chosen : String → Prop) (ordered : Prop)
    (scope : Except Error Scope) : Fragment → Prop
  | .table held => chosen held.knownAs
  | .join held => chosen held.table.knownAs
  | .entry held => ∀ rows ∈ held.content?.bind Condition.rows?, ∃ known, scope = .ok known ∧
      rows.MadeAt subquery chosen ordered known
  | .declared held => held.Fits chosen ordered
  | _ => True

theorem Step.Gives.fits {scope : Except Error Scope} {aggregates : List RelatedAggregate}
    {step : Step} {fragment : Fragment} (gives : step.Gives subquery scope aggregates fragment)
    (fits : step.Fits chosen ordered)
    (before : ∀ aggregate ∈ aggregates, aggregate.link.Fits chosen ordered) :
    fragment.Fits subquery chosen ordered scope := by
  induction gives with
  | fromTable checked => exact fits.names _ (.fromTable checked)
  | join kind left right checked => exact fits.names _ (.join kind left right checked)
  | load cardinality checked =>
    exact ⟨Edge.fits_link fits rfl checked, fits.names _ (.load cardinality checked)⟩
  | aggregate kind column operand checked => exact Edge.fits_link fits rfl checked
  | filterCount connective operator comparison count checked =>
    exact Edge.fits_link fits rfl checked
  | filterExists connective negated checked => exact Edge.fits_link fits rfl checked
  | filterExistsHere checked found compiled =>
    exact fun rows brings => ⟨_, found,
      RelatedExistence.madeAt_of_compile compiled (Edge.fits_link fits rfl checked) brings⟩
  | filterExistsNow checked found compiled =>
    exact fun rows brings => ⟨_, found,
      RelatedExistence.madeAt_of_compile compiled (Edge.fits_link fits rfl checked) brings⟩
  | filterAggregate connective key value comparison member => exact before _ member
  | attempt _ ih => exact ih fits.of_attempt
  | filter connective key column operator value =>
    intro rows brings
    simp only [Entry.content?, Option.bind_some] at brings
    unfold Condition.comparing at brings
    split at brings <;> cases brings
  | filterIn | openGroup | closeGroup => exact fun rows brings => nomatch brings
  | _ => trivial

theorem Step.Gives.rows?_eq_none {scope : Except Error Scope} {aggregates : List RelatedAggregate}
    {step : Step} {fragment : Fragment} (gives : step.Gives subquery scope aggregates fragment)
    (declares : ¬step.declaresExistence) :
    ∀ entry, fragment = .entry entry → entry.content?.bind Condition.rows? = none := by
  induction gives with
  | filterExistsHere | filterExistsNow => exact absurd rfl declares
  | attempt _ ih => exact ih declares
  | filter =>
    rintro _ ⟨⟩
    simp only [Entry.content?, Option.bind_some]
    unfold Condition.comparing
    split <;> rfl
  | filterIn | openGroup | closeGroup =>
    rintro _ ⟨⟩
    rfl
  | _ => nofun

theorem Step.Defers.fits {step : Step} {existence : RelatedExistence}
    (defers : step.Defers existence) (fits : step.Fits chosen ordered) :
    existence.link.Fits chosen ordered := by
  induction defers with
  | filterExists connective negated checked => exact Edge.fits_link fits rfl checked
  | attempt _ ih => exact ih fits.of_attempt

theorem Step.Defers.declaresExistence {step : Step} {existence : RelatedExistence}
    (defers : step.Defers existence) : step.declaresExistence := by
  induction defers with
  | filterExists => rfl
  | attempt _ ih => exact ih

theorem Step.not_declaresExistence : ∀ step : Step, step.setsTable → ¬step.declaresExistence
  | .fromTable _, _ => nofun
  | .attempt step, sets => not_declaresExistence step sets

namespace Statement

theorem source_of_fill {s filled : Statement} {slot : Nat} {condition : Condition}
    (fills : s.fill slot condition = .ok filled) :
    filled.table = s.table ∧ filled.joins = s.joins := by
  obtain ⟨_, _, rfl⟩ := exists_of_fill fills
  exact ⟨rfl, rfl⟩

theorem mem_subqueries_fill {s filled : Statement} {slot : Nat} {condition : Condition}
    {rows : Subquery Condition} (fills : s.fill slot condition = .ok filled)
    (member : rows ∈ filled.subqueries) : rows ∈ s.subqueries ∨ rows ∈ condition.rows? := by
  obtain ⟨conditions, found, rfl⟩ := exists_of_fill fills
  obtain ⟨front, joins, back, whole, rfl⟩ := Clause.exists_of_fill? found
  unfold subqueries at member ⊢
  rw [whole]
  simp only [List.filterMap_append, List.filterMap_cons, Entry.content?, Place.rows?,
    Option.bind_some, List.mem_append] at member ⊢
  cases brings : condition.rows? with
  | none =>
    rw [brings] at member
    exact .inl member
  | some own =>
    rw [brings] at member
    simp only [List.mem_cons] at member
    rcases member with (front | rfl | back) | output
    · exact .inl (.inl (.inl front))
    · exact .inr rfl
    · exact .inl (.inl (.inr back))
    · exact .inl (.inr output)

theorem mem_subqueries_put {s : Statement} {entry : Entry Condition} {rows : Subquery Condition}
    (member : rows ∈ (s.put entry).subqueries) :
    rows ∈ s.subqueries ∨ rows ∈ entry.content?.bind Condition.rows? := by
  unfold subqueries at member ⊢
  rcases List.mem_append.1 member with condition | output
  · obtain ⟨held, found, brings⟩ := List.mem_filterMap.1 condition
    have old (found : held ∈ s.conditions) : rows ∈ s.conditions.filterMap
        (·.content?.bind Place.rows?) ++ (s.outputs ++ s.extras).filterMap Output.rows? :=
      List.mem_append_left _ (List.mem_filterMap.2 ⟨held, found, brings⟩)
    cases entry with
    | item connective condition =>
      rcases List.mem_append.1 found with found | new
      · exact .inl (old found)
      · cases List.mem_singleton.1 new
        exact .inr brings
    | opening connective negated =>
      rcases List.mem_append.1 found with found | new
      · exact .inl (old found)
      · cases List.mem_singleton.1 new
        cases brings
    | closing =>
      change held ∈ s.conditions.closeGroup at found
      unfold Clause.closeGroup at found
      split at found
      · exact .inl (old (List.dropLast_subset _ found))
      · rcases List.mem_append.1 found with found | new
        · exact .inl (old found)
        · cases List.mem_singleton.1 new
          cases brings
  · refine .inl (List.mem_append_right _ ?_)
    cases entry <;> exact output

@[simp] theorem subqueries_select (s : Statement) (name : String) (label : Option String) :
    (s.select name label).subqueries = s.subqueries := by
  simp only [subqueries, select, List.append_assoc, List.filterMap_append]
  rfl

@[simp] theorem subqueries_reserve (s : Statement) (connective : Connective) :
    (s.reserve connective).2.subqueries = s.subqueries := by
  simp [subqueries, reserve, Clause.add, Entry.content?, Place.rows?]

theorem subqueries_put {s : Statement} {entry : Entry Condition}
    (plain : entry.content?.bind Condition.rows? = none) (bare : s.subqueries = []) :
    (s.put entry).subqueries = [] := by
  refine List.eq_nil_iff_forall_not_mem.2 fun rows member => ?_
  rcases mem_subqueries_put member with old | new
  · exact List.not_mem_nil (bare ▸ old)
  · cases plain ▸ new

end Statement

namespace Query

variable {q after : Query} {own? : Option String}

theorem Made.congr {rows : Subquery Condition} (made : q.Made subquery chosen ordered rows)
    (depth : after.depth = q.depth) (scope : ordered → after.scope = q.scope) :
    after.Made subquery chosen ordered rows := by
  obtain ⟨held, here, known, made⟩ := made
  exact ⟨held, here.trans depth.symm, fun order => (scope order).trans (known order), made⟩

theorem depth_of_scope {held : Scope} (known : q.scope = .ok held) : held.depth = q.depth := by
  obtain ⟨anchor, _, known⟩ := Outcome.exists_of_bind known
  cases known
  rfl

theorem made_of_madeAt {held : Scope} {rows : Subquery Condition} (known : q.scope = .ok held)
    (made : rows.MadeAt subquery chosen ordered held) : q.Made subquery chosen ordered rows :=
  ⟨held, depth_of_scope known, fun _ => known, made⟩

theorem scope_congr {s : Statement} (table : s.table = q.statement.table) :
    ({ q with statement := s } : Query).scope = q.scope := by
  unfold scope Statement.knownAs Statement.requireTable
  rw [table]

@[simp] theorem depth_put (fragment : Fragment) : (q.put fragment).depth = q.depth := by
  cases fragment <;> rfl

namespace Named

theorem aggregates (h : q.Named subquery chosen ordered own?) :
    ∀ aggregate ∈ q.aggregates, aggregate.link.Fits chosen ordered := by
  intro aggregate member
  obtain ⟨declaration, found, same⟩ := List.mem_filterMap.1 member
  have fits := h.declarations declaration found
  cases declaration <;> cases same
  exact fits

theorem put (h : q.Named subquery chosen ordered own?) {fragment : Fragment}
    (fits : fragment.Fits subquery chosen ordered q.scope)
    (free : ordered → ∀ table, fragment = .table table → q.statement.subqueries = []) :
    (q.put fragment).Named subquery chosen ordered own? := by
  have kept (same : (q.put fragment).scope = q.scope) {rows : Subquery Condition}
      (made : q.Made subquery chosen ordered rows) :
      (q.put fragment).Made subquery chosen ordered rows :=
    made.congr (depth_put fragment) fun _ => same
  cases fragment with
  | table table =>
    refine ⟨?_, h.joins, ?_, h.declarations, h.deferrals⟩
    · rintro _ ⟨⟩
      exact .inr fits
    · intro rows member
      obtain ⟨held, depth, _, made⟩ := h.subqueries rows member
      refine ⟨held, depth, fun order => ?_, made⟩
      have bare : q.statement.subqueries = [] := free order table rfl
      cases bare ▸ member
  | output name label =>
    refine ⟨h.table, h.joins, fun rows member => ?_, h.declarations, h.deferrals⟩
    exact kept rfl (h.subqueries rows (Statement.subqueries_select .. ▸ member))
  | join join =>
    refine ⟨h.table, ?_, fun rows member => kept rfl (h.subqueries rows member), h.declarations,
      h.deferrals⟩
    intro held member
    rcases List.mem_append.1 member with old | new
    · exact h.joins held old
    · exact List.mem_singleton.1 new ▸ fits
  | entry entry =>
    have same : (q.put (.entry entry)).scope = q.scope := by cases entry <;> rfl
    refine ⟨?_, ?_, fun rows member => ?_, h.declarations, h.deferrals⟩
    · cases entry <;> exact h.table
    · cases entry <;> exact h.joins
    · rcases Statement.mem_subqueries_put member with old | new
      · exact kept same (h.subqueries rows old)
      · obtain ⟨held, known, made⟩ := fits rows new
        exact kept same (made_of_madeAt known made)
  | ordering | limit | offset | total =>
    exact ⟨h.table, h.joins, fun rows member => kept rfl (h.subqueries rows member),
      h.declarations, h.deferrals⟩
  | declared declaration =>
    refine ⟨h.table, h.joins, fun rows member => kept rfl (h.subqueries rows member), ?_,
      h.deferrals⟩
    intro held member
    rcases List.mem_append.1 member with old | new
    · exact h.declarations held old
    · exact List.mem_singleton.1 new ▸ fits

theorem fill (h : q.Named subquery chosen ordered own?) {deferred : Deferred} {scope : Scope}
    {condition : Condition} {statement : Statement} (held : deferred ∈ q.deferrals)
    (known : q.scope = .ok scope)
    (compiled : deferred.existence.compile subquery scope = .ok condition)
    (fills : q.statement.fill deferred.slot condition = .ok statement) :
    ({ q with statement } : Query).Named subquery chosen ordered own? := by
  obtain ⟨table, joins⟩ := Statement.source_of_fill fills
  have kept {rows : Subquery Condition} (made : q.Made subquery chosen ordered rows) :
      ({ q with statement } : Query).Made subquery chosen ordered rows :=
    made.congr rfl fun _ => scope_congr table
  refine ⟨table ▸ h.table, joins ▸ h.joins, fun rows member => ?_, h.declarations, h.deferrals⟩
  rcases Statement.mem_subqueries_fill fills member with old | new
  · exact kept (h.subqueries rows old)
  · exact kept (made_of_madeAt known
      (RelatedExistence.madeAt_of_compile compiled (h.deferrals deferred held) new))

theorem moves {step : Step} (h : q.Named subquery chosen ordered own?)
    (fits : step.Fits chosen ordered) (free : ordered → step.setsTable → q.Bare)
    (moves : q.Moves subquery step after) : after.Named subquery chosen ordered own? := by
  cases moves with
  | put gives =>
    refine h.put (gives.fits fits h.aggregates) fun order table same => ?_
    by_cases sets : step.setsTable
    · exact (free order sets).subqueries
    · exact absurd same (gives.ne_table sets table)
  | defer defers =>
    refine ⟨h.table, h.joins, fun rows member => ?_, h.declarations, ?_⟩
    · have old : rows ∈ q.statement.subqueries := Statement.subqueries_reserve .. ▸ member
      exact (h.subqueries rows old).congr rfl fun _ => rfl
    · intro deferred member
      rcases List.mem_append.1 member with old | new
      · exact h.deferrals deferred old
      · exact List.mem_singleton.1 new ▸ defers.fits fits
  | fill held known compiled fills => exact h.fill held known compiled fills
  | drop fewer =>
    exact ⟨h.table, h.joins, fun rows member => (h.subqueries rows member).congr rfl fun _ => rfl,
      h.declarations, fun deferred member => h.deferrals deferred (fewer member)⟩

end Named

theorem Bare.empty (config : Config) : (Query.empty config).Bare := ⟨rfl, rfl⟩

theorem Bare.below (config : Config) (table : Table) (depth : Nat) (correlated : Bool) :
    (Query.below config table depth correlated).Bare := ⟨rfl, rfl⟩

theorem Bare.put (h : q.Bare) {fragment : Fragment}
    (plain : ∀ entry, fragment = .entry entry → entry.content?.bind Condition.rows? = none) :
    (q.put fragment).Bare := by
  refine ⟨?_, (deferrals_put fragment).trans h.deferrals⟩
  cases fragment with
  | entry entry => exact Statement.subqueries_put (plain entry rfl) h.subqueries
  | output name label => exact (Statement.subqueries_select ..).trans h.subqueries
  | _ => exact h.subqueries

theorem Bare.moves {step : Step} (h : q.Bare) (declares : ¬step.declaresExistence)
    (moves : q.Moves subquery step after) : after.Bare := by
  cases moves with
  | put gives => exact h.put (gives.rows?_eq_none declares)
  | defer defers => exact absurd defers.declaresExistence declares
  | fill held => cases h.deferrals ▸ held
  | drop fewer => exact ⟨h.subqueries, List.subset_nil.1 (h.deferrals ▸ fewer)⟩

theorem Bare.applyUsing (h : q.Bare) {step : Step} (declares : ¬step.declaresExistence) :
    (q.applyUsing subquery step).1.Bare :=
  of_moves (fun bare moves => bare.moves declares moves) h

namespace Named

theorem applyUsing {step : Step} (h : q.Named subquery chosen ordered own?)
    (fits : step.Fits chosen ordered) (free : ordered → step.setsTable → q.Bare) :
    (q.applyUsing subquery step).1.Named subquery chosen ordered own? := by
  let kept (q : Query) : Prop :=
    q.Named subquery chosen ordered own? ∧ (ordered → step.setsTable → q.Bare)
  have both : kept (q.applyUsing subquery step).1 := by
    refine of_moves (P := kept) ?_ ⟨h, free⟩
    rintro q after ⟨named, bare⟩ moves
    exact ⟨named.moves fits bare moves, fun order sets =>
      (bare order sets).moves (step.not_declaresExistence sets) moves⟩
  exact both.1

theorem foldl {steps : Refinement} (h : q.Named subquery chosen ordered own?)
    (fits : Refinement.Fits chosen ordered steps)
    (free : ordered → q.Bare ∨ ∀ step ∈ steps, ¬step.setsTable) :
    (steps.foldl (fun q step => (q.applyUsing subquery step).1) q).Named
      subquery chosen ordered own? := by
  induction steps generalizing q with
  | nil => exact h
  | cons step rest ih =>
    apply ih
    · refine h.applyUsing (fits.each step List.mem_cons_self) fun order sets => ?_
      rcases free order with bare | keeps
      · exact bare
      · exact absurd sets (keeps step List.mem_cons_self)
    · exact ⟨fun later member => fits.each later (List.mem_cons_of_mem _ member),
        fun order => (List.pairwise_cons.1 (fits.tableFirst order)).2⟩
    · intro order
      by_cases declares : step.declaresExistence
      · exact .inr fun later member =>
          (List.pairwise_cons.1 (fits.tableFirst order)).1 later member declares
      · rcases free order with bare | keeps
        · exact .inl (bare.applyUsing declares)
        · exact .inr fun later member => keeps later (List.mem_cons_of_mem _ member)

theorem refineUsing {steps : Refinement} (h : q.Named subquery chosen ordered own?)
    (fits : Refinement.Fits chosen ordered steps) (bare : q.Bare)
    (ok : q.refineUsing subquery steps = .ok after) :
    after.Named subquery chosen ordered own? := by
  rw [eq_foldl_of_refineUsing ok]
  exact h.foldl fits fun _ => .inl bare

theorem fillDeferred {scope : Scope} {filled : Statement}
    (h : q.Named subquery chosen ordered own?) (known : q.scope = .ok scope)
    (ok : Query.fillDeferred subquery scope q.deferrals q.statement = .ok filled) :
    filled.table = q.statement.table ∧ filled.joins = q.statement.joins ∧
      ∀ rows ∈ filled.subqueries, q.Made subquery chosen ordered rows := by
  let kept (s : Statement) : Prop :=
    s.table = q.statement.table ∧ s.joins = q.statement.joins ∧
      ∀ rows ∈ s.subqueries, q.Made subquery chosen ordered rows
  refine Outcome.of_foldlM ok (P := kept) ⟨rfl, rfl, h.subqueries⟩ ?_
  rintro deferred held state next ⟨table, joins, made⟩ step
  obtain ⟨condition, compiled, fills⟩ := Outcome.exists_of_bind step
  obtain ⟨table', joins'⟩ := Statement.source_of_fill fills
  refine ⟨table'.trans table, joins'.trans joins, fun rows member => ?_⟩
  rcases Statement.mem_subqueries_fill fills member with old | new
  · exact made rows old
  · exact made_of_madeAt known
      (RelatedExistence.madeAt_of_compile compiled (h.deferrals deferred held) new)

end Named

theorem mem_rows_entries {connectives : List Connective} {conditions : List Condition}
    {rows : Subquery Condition}
    (member : rows ∈ (entries connectives conditions).filterMap (·.content?.bind Place.rows?)) :
    ∃ condition ∈ conditions, rows ∈ condition.rows? := by
  obtain ⟨entry, found, brings⟩ := List.mem_filterMap.1 member
  unfold entries at found
  rw [← List.map_uncurry_zip_eq_zipWith] at found
  obtain ⟨⟨connective, condition⟩, paired, rfl⟩ := List.mem_map.1 found
  exact ⟨condition, (List.of_mem_zip paired).2, brings⟩

theorem rows_keyOutputs (q : Query) (anchor : String) (relations : List Relation) :
    (q.keyOutputs anchor relations).filterMap Output.rows? = [] := by
  unfold keyOutputs
  rw [List.filterMap_map]
  exact List.filterMap_eq_nil_iff.2 fun _ _ => rfl

theorem rows_of_parts {sound : Declaration → Prop} {fine : Subquery Condition → Prop}
    {scope : Scope} {parts : Parts}
    (declarations : ∀ declaration ∈ q.declarations, sound declaration)
    (compiled : q.parts subquery scope = .ok parts)
    (each : ∀ declaration base rows, declaration.relation? = none → sound declaration →
      subquery scope declaration.link base = .ok rows → fine rows) :
    parts.All (fun condition => ∀ rows ∈ condition.rows?, fine rows)
      fun output => ∀ rows ∈ output.rows?, fine rows := by
  refine all_of_parts declarations compiled ?_ ?_ ?_ ?_
  · intro held known condition made rows brings
    obtain ⟨_, selected, made⟩ := Outcome.exists_of_bind made
    cases made
    cases brings
    exact each (.count held) _ _ rfl known selected
  · intro held known output made rows brings
    obtain ⟨_, _, selected, _, rfl⟩ := RelatedAggregate.exists_of_compile made
    cases brings
    exact each (.aggregate held) _ _ rfl known selected
  · intro held known condition made rows brings
    exact each (.existence held) _ _ rfl known (RelatedExistence.rows_of_compile made brings)
  · intro held known condition made rows brings
    obtain ⟨_, _, selected, _, rfl⟩ := AggregateFilter.exists_of_compile made
    cases brings
    exact each (.filter held) _ _ rfl known selected

theorem subqueries_of_assembled {s : Statement} {parts : Parts} {anchor : String}
    {fine : Subquery Condition → Prop} (before : ∀ rows ∈ s.subqueries, fine rows)
    (all : parts.All (fun condition => ∀ rows ∈ condition.rows?, fine rows)
      fun output => ∀ rows ∈ output.rows?, fine rows) :
    ∀ rows ∈ Statement.subqueries { s with
      conditions := s.conditions ++ q.declared parts
      extras := s.extras ++ parts.aggregates ++
        q.keyOutputs anchor (q.picked Declaration.relation?) }, fine rows := by
  intro rows member
  have new {connectives : List Connective} {conditions : List Condition}
      (sound : ∀ condition ∈ conditions, ∀ rows ∈ condition.rows?, fine rows)
      (member : rows ∈
        (entries connectives conditions).filterMap (·.content?.bind Place.rows?)) : fine rows := by
    obtain ⟨condition, found, brings⟩ := mem_rows_entries member
    exact sound condition found rows brings
  have old := before rows
  unfold Statement.subqueries at member old
  simp only [List.filterMap_append, declared, rows_keyOutputs, List.append_nil,
    List.mem_append] at member old
  rcases member with (placed | (counted | existing) | filtered) | chosen | extra | aggregated
  · exact old (.inl placed)
  · exact new all.counts counted
  · exact new all.existences existing
  · exact new all.filters filtered
  · exact old (.inr (.inl chosen))
  · exact old (.inr (.inr extra))
  · obtain ⟨output, found, brings⟩ := List.mem_filterMap.1 aggregated
    exact all.aggregates output found rows brings

namespace Named

theorem assemble {assembly : Assembly} (h : q.Named subquery chosen ordered own?)
    (ok : q.assemble subquery = .ok assembly) :
    assembly.statement.table = q.statement.table ∧
      assembly.statement.joins = q.statement.joins ∧
      (∀ rows ∈ assembly.statement.subqueries, q.Made subquery chosen ordered rows) ∧
      ∀ relation ∈ assembly.relations, relation.link.Fits chosen ordered ∧
        chosen relation.link.name := by
  obtain ⟨scope, parts, statement, known, compiled, filled, rfl⟩ := exists_of_assemble ok
  obtain ⟨table, joins, before⟩ := h.fillDeferred known filled
  refine ⟨table, joins, subqueries_of_assembled before
    (rows_of_parts h.declarations compiled fun declaration base rows _ fits made => ?_),
    sound_relation h.declarations⟩
  exact made_of_madeAt known ⟨declaration.link, base, fits.link, made⟩

theorem of_bare (bare : q.Bare) (joins : q.statement.joins = [])
    (declarations : q.declarations = [])
    (table : ∀ table ∈ q.statement.table, table.knownAs ∈ own? ∨ chosen table.knownAs) :
    q.Named subquery chosen ordered own? where
  table := table
  joins := by simp [joins]
  subqueries := by simp [bare.subqueries]
  declarations := by simp [declarations]
  deferrals := by simp [bare.deferrals]

theorem empty (config : Config) : (Query.empty config).Named subquery chosen ordered own? :=
  of_bare (Bare.empty config) rfl rfl nofun

theorem below (config : Config) (depth : Nat) (correlated : Bool) {table : Table}
    (named : table.knownAs ∈ own? ∨ chosen table.knownAs) :
    (Query.below config table depth correlated).Named subquery chosen ordered own? := by
  refine of_bare (Bare.below ..) rfl rfl ?_
  rintro _ ⟨⟩
  exact named

theorem relations (h : q.Named compileSubquery chosen ordered own?) :
    ∀ relation ∈ q.relations, relation.link.Fits chosen ordered ∧ chosen relation.link.name := by
  unfold Query.relations
  cases compiled : q.compile with
  | error error => exact fun _ => (nomatch ·)
  | ok assembly => exact (h.assemble compiled).2.2.2

theorem exposeKeys (h : q.Named subquery chosen ordered own?) (config : Config)
    (relation : Relation) (columns : List String) :
    (relation.exposeKeys config columns q).Named subquery chosen ordered own? := by
  unfold Relation.exposeKeys
  split
  · refine ⟨h.table, h.joins, fun rows member => ?_, h.declarations, h.deferrals⟩
    have old : rows ∈ q.statement.subqueries := by
      rw [Statement.subqueries, ← List.append_assoc, List.filterMap_append,
        ← List.append_assoc] at member
      refine (List.mem_append.1 member).elim id fun column => ?_
      obtain ⟨output, found, brings⟩ := List.mem_filterMap.1 column
      rw [← List.map_uncurry_zip_eq_zipWith] at found
      obtain ⟨_, _, rfl⟩ := List.mem_map.1 found
      cases brings
    exact (h.subqueries rows old).congr rfl fun _ => rfl
  · exact h

theorem related {config : Config} {depth : Nat} {relation : Relation}
    (fits : relation.link.Fits chosen ordered) (named : chosen relation.link.name)
    (ok : relation.related config depth = .ok q) :
    q.Named compileSubquery chosen ordered none := by
  obtain ⟨child, refined, ok⟩ := Outcome.exists_of_bind ok
  cases ok
  have h : child.Named compileSubquery chosen ordered none :=
    (below _ _ _ (.inr named)).refineUsing fits.refinement (Bare.below ..) refined
  exact h.exposeKeys ..

theorem loadedWithin {levels : Nat} {inner : Query}
    (h : q.Named compileSubquery chosen ordered none) (member : inner ∈ q.loadedWithin levels) :
    inner.Named compileSubquery chosen ordered none := by
  induction levels generalizing q with
  | zero => exact List.mem_singleton.1 member ▸ h
  | succ levels ih =>
    rcases List.mem_cons.1 member with rfl | member
    · exact h
    · obtain ⟨relation, held, member⟩ := List.mem_flatMap.1 member
      obtain ⟨child, made, member⟩ := List.mem_flatMap.1 member
      refine ih ?_ member
      obtain ⟨fits, named⟩ := h.relations relation held
      cases ok : relation.related q.config q.depth with
      | error error => simp [ok, Except.toOption] at made
      | ok other =>
        obtain rfl : child = other := by simpa [ok, Except.toOption] using made
        exact related fits named ok

end Named

/-- The names in a query and in all that is loaded for it are chosen by the calls it is built
with. -/
theorem named_of_loaded {config : Config} {steps : List Step}
    (loaded : q ∈ (built config steps).loaded) :
    q.Named compileSubquery (Refinement.Names steps) (Refinement.Ordered steps) none := by
  refine Named.loadedWithin ?_ loaded
  refine (Named.empty config).foldl ⟨fun step member => ⟨?_, ?_⟩, And.left⟩ fun _ =>
    .inl (Bare.empty config)
  · exact fun name names => ⟨step, member, names⟩
  · exact fun order => order.2 step member

end Query

end RelationQuery
