import RelationQuery.Proofs.Naming

/-! What the names in a statement with subqueries stand for. Main statement: the label of a
subquery is the name of another table in scope only if a call chose that name, and so it is with
the names of the query around it inside the subquery. -/
namespace RelationQuery

def Source.names (source : Source) : List String :=
  source.table.knownAs :: source.joins.map (·.table.knownAs)

/-- The FROM clause that a table's name stands for: the innermost with a table of that name. -/
def Source.resolve? (scopes : List Source) (name : String) : Option Nat :=
  scopes.findIdx? (name ∈ ·.names)

def Subquery.nested (rows : Subquery Condition) : List (Subquery Condition) :=
  rows.refinement.filterMap (·.content?.bind Condition.rows?)

/-- How a subquery stands in a statement: in which others, the innermost first. -/
inductive Statement.Nests (s : Statement) : List (Subquery Condition) → Subquery Condition → Prop
  | outermost {rows : Subquery Condition} (member : rows ∈ s.subqueries) : Nests s [] rows
  | inside {around : List (Subquery Condition)} {rows inner : Subquery Condition}
    (nests : Nests s around rows) (member : inner ∈ rows.nested) : Nests s (rows :: around) inner

namespace Subquery

def parent (source : Source) : List (Subquery Condition) → Source
  | [] => source
  | outer :: _ => outer.source

def scopes (source : Source) : List (Subquery Condition) → List Source
  | [] => [source]
  | outer :: around => outer.source :: scopes source around

variable {source : Source} {around : List (Subquery Condition)} {scope : Source}

theorem parent_mem_scopes : parent source around ∈ scopes source around := by
  cases around <;> exact List.mem_cons_self

theorem mem_scopes (member : scope ∈ scopes source around) :
    scope = source ∨ ∃ outer ∈ around, scope = outer.source := by
  induction around with
  | nil => exact .inl (List.mem_singleton.1 member)
  | cons outer around ih =>
    rcases List.mem_cons.1 member with rfl | member
    · exact .inr ⟨outer, List.mem_cons_self, rfl⟩
    · exact (ih member).imp_right fun ⟨other, found, same⟩ =>
        ⟨other, List.mem_cons_of_mem _ found, same⟩

/-- A name from right around stands for what it stands for there, unless it is hidden. -/
theorem resolve?_eq_some_one_iff {inner : Source} {name : String}
    (member : name ∈ (parent source around).names) :
    Source.resolve? (inner :: scopes source around) name = some 1 ↔ name ∉ inner.names := by
  have around : (scopes source around).findIdx? (name ∈ ·.names) = some 0 := by
    cases around <;> exact List.findIdx?_cons.trans (if_pos (decide_eq_true member))
  unfold Source.resolve?
  rw [List.findIdx?_cons, around]
  by_cases hidden : name ∈ inner.names <;> simp [hidden]

end Subquery

theorem Subquery.takeWhile_isDigit_label (base : String) (depth : Nat) :
    (base ++ "_s" ++ toString depth).toList.reverse.takeWhile Char.isDigit =
      (Nat.toDigits 10 depth).reverse := by
  have digits : ∀ digit ∈ (Nat.toDigits 10 depth).reverse, digit.isDigit := fun digit member =>
    Nat.isDigit_of_mem_toDigits (by decide) (by decide) (List.mem_reverse.1 member)
  rw [Nat.toString_eq_ofList_toDigits]
  simp only [String.toList_append, String.toList_ofList, List.reverse_append]
  rw [List.takeWhile_append_of_pos digits]
  change _ ++ List.takeWhile Char.isDigit ('s' :: '_' :: base.toList.reverse) = _
  simp

theorem Subquery.depth_eq_of_label_eq {base other : String} {depth further : Nat}
    (same : base ++ "_s" ++ toString depth = other ++ "_s" ++ toString further) :
    depth = further := by
  have read := takeWhile_isDigit_label base depth
  rw [same, takeWhile_isDigit_label other further] at read
  have digits : Nat.toDigits 10 depth = Nat.toDigits 10 further := (List.reverse_inj.1 read).symm
  simpa using congrArg (Nat.ofDigitChars 10 · 0) digits

namespace Statement

variable {s : Statement}

theorem exists_of_source {source : Source} (sourced : s.source = .ok source) :
    s.table = some source.table ∧ s.joins = source.joins := by
  obtain ⟨table, required, sourced⟩ := Outcome.exists_of_bind sourced
  cases sourced
  exact ⟨requireTable_ok_iff.1 required, rfl⟩

theorem rows_of_filter {clause : Clause Condition} (filtered : s.filter = .ok clause) :
    clause.filterMap (·.content?.bind Condition.rows?) ⊆ s.subqueries := by
  unfold subqueries
  rw [(ready_of_filter filtered).2, List.filterMap_map]
  intro rows member
  refine List.mem_append_left _ ?_
  obtain ⟨entry, found, brings⟩ := List.mem_filterMap.1 member
  refine List.mem_filterMap.2 ⟨entry, found, ?_⟩
  cases entry <;> exact brings

end Statement

namespace Query

variable {subquery : SubqueryCompiler} {q after : Query}

theorem depth_applyUsing (step : Step) : (q.applyUsing subquery step).1.depth = q.depth := by
  refine of_moves (P := fun other => other.depth = q.depth) (fun same moves => ?_) rfl
  cases moves with
  | put => exact (depth_put _).trans same
  | defer | fill | drop => exact same

theorem depth_of_refineUsing {steps : Refinement} (ok : q.refineUsing subquery steps = .ok after) :
    after.depth = q.depth :=
  of_refineUsing (P := fun other => other.depth = q.depth)
    (fun step _ same => (depth_applyUsing step).trans same) rfl ok

theorem anchor_of_scope {scope : Scope} {table : Table} (known : q.scope = .ok scope)
    (held : q.statement.table = some table) : scope.anchor = table.knownAs := by
  rw [scope_of_table held] at known
  cases known
  rfl

theorem Named.names {chosen : String → Prop} {ordered : Prop} {own? : Option String}
    {source : Source} (h : q.Named subquery chosen ordered own?)
    (table : q.statement.table = some source.table) (joins : q.statement.joins = source.joins) :
    ∀ name ∈ source.names, name ∈ own? ∨ chosen name := by
  intro name member
  rcases List.mem_cons.1 member with rfl | member
  · exact h.table _ table
  · obtain ⟨join, found, rfl⟩ := List.mem_map.1 member
    exact .inr (h.joins join (joins ▸ found))

end Query

namespace Subquery

variable {chosen : String → Prop} {ordered : Prop} {depth : Nat} {anchor : String}
  {rows inner : Subquery Condition}

def Formed (chosen : String → Prop) (ordered : Prop) (depth : Nat) (anchor : String)
    (rows : Subquery Condition) : Prop :=
  ∃ levels scope, scope.depth = depth ∧ (ordered → scope.anchor = anchor) ∧
    rows.MadeAt (compileSubqueryWithin levels) chosen ordered scope

/-- What a subquery is called, and where the names in it and the subqueries right in it come
from. -/
structure Labelled (chosen : String → Prop) (ordered : Prop) (depth : Nat) (anchor : String)
    (rows : Subquery Condition) : Prop where
  label : ∃ base, rows.label = base ++ "_s" ++ toString (depth + 1)
  keys : ordered → ∃ link : Link Refinement, rows.keys = link.keyMatches rows.label anchor
  names : ∀ name ∈ rows.source.names, name = rows.label ∨ chosen name
  nested : ∀ inner ∈ rows.nested, inner.Formed chosen ordered (depth + 1)
    rows.source.table.knownAs

theorem Formed.labelled (formed : rows.Formed chosen ordered depth anchor) :
    rows.Labelled chosen ordered depth anchor := by
  obtain ⟨_ | lower, scope, rfl, anchored, link, base, fits, made⟩ := formed
  · cases made
  obtain ⟨child, assembly, refined, assembled, sourced, filtered, label, keys⟩ :=
    exists_of_compileSubqueryWithin made
  have named : child.Named (compileSubqueryWithin lower) chosen ordered (some rows.label) :=
    (Query.Named.below _ _ _ (.inl rfl)).refineUsing fits.refinement (Query.Bare.below ..) refined
  obtain ⟨table, joins, subqueries, _⟩ := named.assemble assembled
  obtain ⟨held, joined⟩ := Statement.exists_of_source sourced
  refine ⟨⟨base, label⟩, fun order => ⟨link, anchored order ▸ keys⟩, ?_, ?_⟩
  · intro name member
    refine (named.names (table ▸ held) (joins ▸ joined) name member).imp_left fun own => ?_
    exact (Option.some.inj own).symm
  · intro inner member
    obtain ⟨within, depth, known, made⟩ :=
      subqueries inner (Statement.rows_of_filter filtered member)
    exact ⟨lower, within, depth.trans (Query.depth_of_refineUsing refined),
      fun order => Query.anchor_of_scope (known order) (table ▸ held), made⟩

end Subquery

namespace Statement.Nests

open Subquery (parent scopes)

variable {chosen : String → Prop} {ordered : Prop} {s : Statement} {source : Source} {depth : Nat}
  {around : List (Subquery Condition)} {rows : Subquery Condition}

theorem formed (nests : s.Nests around rows) (outermost : ∀ rows ∈ s.subqueries,
      rows.Formed chosen ordered depth source.table.knownAs) :
    rows.Formed chosen ordered (depth + around.length) (parent source around).table.knownAs ∧
      ∀ outer ∈ around, ∃ above < depth + around.length, ∃ anchor,
        outer.Formed chosen ordered above anchor := by
  induction nests with
  | outermost member => exact ⟨outermost _ member, nofun⟩
  | inside _ member ih =>
    obtain ⟨formed, others⟩ := ih
    refine ⟨formed.labelled.nested _ member, fun outer found => ?_⟩
    rcases List.mem_cons.1 found with rfl | further
    · exact ⟨_, Nat.lt_succ_self _, _, formed⟩
    · obtain ⟨above, less, anchor, held⟩ := others outer further
      exact ⟨above, Nat.lt_succ_of_lt less, anchor, held⟩

variable (nests : s.Nests around rows)
  (outermost : ∀ rows ∈ s.subqueries, rows.Formed chosen ordered depth source.table.knownAs)
  (named : ∀ name ∈ source.names, chosen name)
include nests outermost

theorem label_ne : ∀ outer ∈ around, rows.label ≠ outer.label := by
  obtain ⟨formed, others⟩ := nests.formed outermost
  intro outer member same
  obtain ⟨above, less, anchor, held⟩ := others outer member
  obtain ⟨base, label⟩ := formed.labelled.label
  obtain ⟨other, label'⟩ := held.labelled.label
  rw [label, label'] at same
  exact Nat.ne_of_gt less (Nat.succ.inj (Subquery.depth_eq_of_label_eq same))

include named

theorem chosen_of_label_mem {scope : Source} (around : scope ∈ scopes source around)
    (member : rows.label ∈ scope.names) : chosen rows.label := by
  rcases Subquery.mem_scopes around with rfl | ⟨outer, found, rfl⟩
  · exact named _ member
  · obtain ⟨above, _, anchor, held⟩ := (nests.formed outermost).2 outer found
    exact (held.labelled.names _ member).resolve_left (nests.label_ne outermost outer found)

/-- A table in a subquery that has a name from right around it was given it by a call. -/
theorem chosen_of_mem_names {name : String} (above : name ∈ (parent source around).names)
    (member : name ∈ rows.source.names) : chosen name := by
  rcases (nests.formed outermost).1.labelled.names name member with rfl | known
  · exact nests.chosen_of_label_mem outermost named Subquery.parent_mem_scopes above
  · exact known

end Statement.Nests

namespace Query

/-- The label of a subquery is numbered for its depth and differs from those of all subqueries
around it; tables around it have the same name only if a call has chosen that very name. What is
known right around it by some name is known by it inside, too, unless a table of the subquery hides
it, and that one has its name from a call. Where tables come first, the keys are tied to the name
that the table right around is known by. -/
theorem names_of_nests (config : Config) (steps : List Step) {q : Query} {assembly : Assembly}
    {source : Source} {around : List (Subquery Condition)} {rows : Subquery Condition}
    (loaded : q ∈ (built config steps).loaded) (compiled : q.compile = .ok assembly)
    (sourced : assembly.statement.source = .ok source)
    (nests : assembly.statement.Nests around rows) :
    (∃ base, rows.label = base ++ "_s" ++ toString (q.depth + around.length + 1)) ∧
    (∀ outer ∈ around, rows.label ≠ outer.label) ∧
    (¬Refinement.Names steps rows.label →
      (∀ scope ∈ Subquery.scopes source around, rows.label ∉ scope.names) ∧
      ∀ other ∈ (built config steps).loaded, ∀ outer, other.statement.source = .ok outer →
        rows.label ∉ outer.names) ∧
    (∀ name ∈ (Subquery.parent source around).names,
      (Source.resolve? (rows.source :: Subquery.scopes source around) name = some 1 ↔
        name ∉ rows.source.names) ∧
      (name ∈ rows.source.names → Refinement.Names steps name)) ∧
    (Refinement.Ordered steps → ∃ link : Link Refinement, rows.keys =
      link.keyMatches rows.label (Subquery.parent source around).table.knownAs) := by
  have names {other : Query} (loaded : other ∈ (built config steps).loaded) {outer : Source}
      (table : other.statement.table = some outer.table)
      (joins : other.statement.joins = outer.joins) :
      ∀ name ∈ outer.names, Refinement.Names steps name := fun name member =>
    ((named_of_loaded loaded).names table joins name member).resolve_left nofun
  obtain ⟨table, joins, made, _⟩ := (named_of_loaded loaded).assemble compiled
  obtain ⟨held, joined⟩ := Statement.exists_of_source sourced
  have named := names loaded (table ▸ held) (joins ▸ joined)
  have outermost : ∀ rows ∈ assembly.statement.subqueries, rows.Formed (Refinement.Names steps)
      (Refinement.Ordered steps) q.depth source.table.knownAs := by
    intro rows member
    obtain ⟨scope, depth, known, madeAt⟩ := made rows member
    exact ⟨_, scope, depth, fun order => anchor_of_scope (known order) (table ▸ held), madeAt⟩
  have labelled := (nests.formed outermost).1.labelled
  refine ⟨labelled.label, nests.label_ne outermost, fun free => ⟨?_, ?_⟩,
    fun name above => ⟨?_, ?_⟩, labelled.keys⟩
  · exact fun scope member found =>
      free (nests.chosen_of_label_mem outermost named member found)
  · intro other loaded outer sourced found
    obtain ⟨table, joins⟩ := Statement.exists_of_source sourced
    exact free (names loaded table joins _ found)
  · exact Subquery.resolve?_eq_some_one_iff above
  · exact nests.chosen_of_mem_names outermost named above

def branchingCalls : List Step := [
  .fromTable "categories",
  .filterExists .and false {
    target := "categories as children", foreign := ["parent_id"], own := ["id"]
    refinement := some [
      .filterExists .and false {
        target := "categories as grandchildren", foreign := ["parent_id"], own := ["id"] }] }]

def branching : Query := built {} branchingCalls

theorem eq_of_names_branchingCalls {name : String} (names : Refinement.Names branchingCalls name) :
    name = "categories" := by
  obtain ⟨step, member, names⟩ := names
  simp only [branchingCalls, List.mem_cons, List.not_mem_nil, or_false] at member
  rcases member with rfl | rfl
  · cases names with
    | fromTable checked =>
      have read : checkLabelled .table "categories" = .ok ("categories", none) := by decide +kernel
      cases read.symm.trans checked
      rfl
    | refinement about => cases about
  · cases names with
    | refinement about narrows member names =>
      cases about
      cases narrows
      cases List.mem_singleton.1 member
      cases names with
      | refinement about narrows =>
        cases about
        cases narrows

theorem ordered_branchingCalls : Refinement.Ordered branchingCalls := by
  refine ⟨by unfold TableFirst; decide, fun step member nested narrows => ?_⟩
  simp only [branchingCalls, List.mem_cons, List.not_mem_nil, or_false] at member
  rcases member with rfl | rfl
  · cases narrows with
    | here about | inside about => cases about
  · cases narrows with
    | here about narrows =>
      cases about
      cases narrows
      unfold TableFirst
      decide
    | inside about narrows member further =>
      cases about
      cases narrows
      cases List.mem_singleton.1 member
      cases further with
      | here about narrows | inside about narrows =>
        cases about
        cases narrows

theorem branching_names_of_nests :
    ∃ assembly source children grandchildren,
      branching ∈ branching.loaded ∧ branching.compile = .ok assembly ∧
      assembly.statement.source = .ok source ∧
      assembly.statement.Nests [children] grandchildren ∧
      ¬Refinement.Names branchingCalls grandchildren.label ∧
      Refinement.Ordered branchingCalls ∧
      grandchildren.label = "grandchildren_s2" ∧ children.source.names = ["children_s1"] ∧
      grandchildren.label ≠ children.label ∧
      (∀ scope ∈ Subquery.scopes source [children], grandchildren.label ∉ scope.names) ∧
      Source.resolve? (grandchildren.source :: Subquery.scopes source [children]) "children_s1" =
        some 1 ∧
      ∃ link : Link Refinement,
        grandchildren.keys = link.keyMatches "grandchildren_s2" "children_s1" := by
  have view : branching.compile.toOption.map (fun assembly =>
      (assembly.statement.source.toOption, assembly.statement.subqueries.map fun children =>
        (children.source, children.nested.map fun grandchildren =>
          (grandchildren.label, grandchildren.source)))) =
      some (some { table := { name := "categories" } },
        [({ table := { name := "categories", label := some "children_s1" } },
          [("grandchildren_s2",
            { table := { name := "categories", label := some "grandchildren_s2" } })])]) := by
    decide +kernel
  obtain ⟨assembly, compiled, view⟩ := Option.map_eq_some_iff.1 view
  obtain ⟨sourced, inside⟩ := Prod.ext_iff.1 view
  obtain ⟨children, below, named⟩ := List.map_eq_singleton_iff.1 inside
  obtain ⟨between, inner⟩ := Prod.ext_iff.1 named
  obtain ⟨grandchildren, further, named⟩ := List.map_eq_singleton_iff.1 inner
  obtain ⟨label, own⟩ := Prod.ext_iff.1 named
  dsimp only at sourced between label own
  have loaded : branching ∈ branching.loaded := mem_loadedWithin_self _ _
  have nests : assembly.statement.Nests [children] grandchildren :=
    .inside (.outermost (below ▸ List.mem_singleton_self _)) (further ▸ List.mem_singleton_self _)
  have free : ¬Refinement.Names branchingCalls grandchildren.label := by
    rw [label]
    exact fun names => absurd (eq_of_names_branchingCalls names) (by decide)
  obtain ⟨_, others, apart, names, keys⟩ := names_of_nests {} branchingCalls loaded
    (Outcome.ok_of_toOption compiled) (Outcome.ok_of_toOption sourced) nests
  have around : children.source.names = ["children_s1"] := by
    rw [between]
    rfl
  have member : "children_s1" ∈ children.source.names := by simp [around]
  obtain ⟨link, tied⟩ := keys ordered_branchingCalls
  refine ⟨assembly, _, children, grandchildren, loaded, Outcome.ok_of_toOption compiled,
    Outcome.ok_of_toOption sourced, nests, free, ordered_branchingCalls, label, around,
    others children List.mem_cons_self, (apart free).1, (names _ member).1.2 ?_, link, ?_⟩
  · rw [own]
    decide
  · rw [tied, label, Subquery.parent, between]
    rfl

def selfCounting : Query := built {} [
  .fromTable "categories as children_s1",
  .aggregate .count {
    target := "categories as children", foreign := ["parent_id"], own := ["id"] } "*"]

/-- Both sides of the key stand for a column of the children. -/
theorem selfCounting_captured :
    ∃ assembly source rows, selfCounting.compile = .ok assembly ∧
      assembly.statement.source = .ok source ∧ assembly.statement.Nests [] rows ∧
      rows.label = source.table.knownAs ∧
      rows.keys = [{ inner := "children_s1.parent_id", outer := "children_s1.id" }] ∧
      Source.resolve? (rows.source :: Subquery.scopes source []) source.table.knownAs = some 0 ∧
      selfCounting.sql.toOption = some ("SELECT \"children_s1\".*, (SELECT COUNT(*) FROM " ++
        "\"categories\" AS \"children_s1\" WHERE \"children_s1\".\"parent_id\" = " ++
        "\"children_s1\".\"id\") AS \"children\" FROM \"categories\" AS \"children_s1\"") := by
  have view : selfCounting.compile.toOption.map (fun assembly =>
      (assembly.statement.source.toOption, assembly.statement.subqueries.map fun rows =>
        (rows.label, rows.keys, rows.source))) =
      some (some { table := { name := "categories", label := some "children_s1" } },
        [("children_s1", [{ inner := "children_s1.parent_id", outer := "children_s1.id" }],
          { table := { name := "categories", label := some "children_s1" } })]) := by
    decide +kernel
  obtain ⟨assembly, compiled, view⟩ := Option.map_eq_some_iff.1 view
  obtain ⟨sourced, inside⟩ := Prod.ext_iff.1 view
  obtain ⟨rows, only, named⟩ := List.map_eq_singleton_iff.1 inside
  simp only [Prod.mk.injEq] at sourced named
  obtain ⟨label, keys, own⟩ := named
  refine ⟨assembly, _, rows, Outcome.ok_of_toOption compiled, Outcome.ok_of_toOption sourced,
    .outermost (only ▸ List.mem_singleton_self _), label, keys, ?_, by decide +kernel⟩
  rw [own]
  decide

end Query

end RelationQuery
