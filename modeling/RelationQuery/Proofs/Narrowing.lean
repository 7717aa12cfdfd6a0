import RelationQuery.Proofs.Provenance
import RelationQuery.Proofs.Reading
import RelationQuery.Proofs.WellFormed

/-! How a refinement narrows the rows of a subquery. Main statement: whatever a refinement does, the
condition of its subquery is read as the key equalities and, in a group of its own, what the
refinement asks for. -/
namespace RelationQuery

open Token

/-- The condition under which related rows are taken: the equalities of their keys, and what a
refinement came to in parentheses. It is read as the conjunction of these and of nothing else, and
the parentheses reach to its end. -/
structure Narrows (dialect : Dialect) (keys : List KeyMatch) (narrowing : Option String)
    (body : String) : Prop where
  text : body = " AND ".intercalate (keys.map (KeyMatch.sql dialect) ++
    narrowing.toList.map fun held => "(" ++ held ++ ")")
  reading : ∃ inner front, narrowing.toList.mapM (Part.read? dialect) = some inner ∧
    Part.read? dialect body = some (front ++ inner.map .group) ∧
    Part.alternatives (front ++ inner.map .group) =
      [keys.map KeyMatch.lexemes ++ inner.map fun parts => [[.group parts]]]

theorem read?_keys (dialect : Dialect) {keys : List KeyMatch} (keyed : keys ≠ [])
    (more : List (String × List Part))
    (each : ∀ conjunct ∈ more, Part.Made dialect conjunct.1 conjunct.2) :
    Part.read? dialect (" AND ".intercalate
        (keys.map (KeyMatch.sql dialect) ++ more.map Prod.fst)) =
      some (Part.between.intercalate (keys.map KeyMatch.parts ++ more.map Prod.snd)) := by
  let equalities : List (String × List Part) := keys.map fun key => (key.sql dialect, key.parts)
  have made : ∀ conjunct ∈ equalities ++ more, Part.Made dialect conjunct.1 conjunct.2 :=
    List.forall_mem_append.2 ⟨List.forall_mem_map.2 fun key _ => key.made dialect, each⟩
  have whole := (Part.Made.conjoin (by simp [equalities, keyed]) made).read?
  rwa [List.map_append, List.map_append, List.map_map, List.map_map] at whole

theorem alternatives_keys {keys : List KeyMatch} (keyed : keys ≠ []) (more : List (List Part))
    (wordless : ∀ parts ∈ more, ∀ part ∈ parts, part.letter? = none) :
    Part.alternatives (Part.between.intercalate (keys.map KeyMatch.parts ++ more)) =
      [keys.map KeyMatch.lexemes ++ more.map Part.lexemes] := by
  have each : ∀ parts ∈ keys.map KeyMatch.parts ++ more, ∀ part ∈ parts, part.letter? = none :=
    List.forall_mem_append.2 ⟨List.forall_mem_map.2 fun key _ => key.wordless, wordless⟩
  rw [Part.alternatives_conjoin (by simp [keyed]) each, List.map_append, List.map_map]
  exact congrArg (fun lexemes => [lexemes ++ _]) (List.map_congr_left fun key _ =>
    key.lexemes_parts)

theorem narrows_of_reads {dialect : Dialect} {allowed : List Char → Prop} {keys : List KeyMatch}
    {narrowing : Option String} (keyed : keys ≠ [])
    (reads : ∀ held ∈ narrowing, Reads dialect allowed 0 0 held) :
    Narrows dialect keys narrowing (" AND ".intercalate (keys.map (KeyMatch.sql dialect) ++
      narrowing.toList.map fun held => "(" ++ held ++ ")")) := by
  refine ⟨rfl, ?_⟩
  cases narrowing with
  | none =>
    have body := read?_keys dialect keyed [] fun _ => (nomatch ·)
    have parted := alternatives_keys keyed [] fun _ => (nomatch ·)
    rw [List.map_nil, List.append_nil] at parted
    refine ⟨[], Part.between.intercalate (keys.map KeyMatch.parts), rfl, ?_, ?_⟩
    · simpa using body
    · simpa using parted
  | some held =>
    obtain ⟨parts, read, made⟩ := Part.Made.group (reads held rfl)
    have body := read?_keys dialect keyed [("(" ++ held ++ ")", [.group parts])]
      (by simpa using made)
    have parted := alternatives_keys keyed [[.group parts]] (by simp [Part.letter?])
    have equalities : keys.map KeyMatch.parts ≠ [] := by simpa using keyed
    have ends := Part.intercalate_concat equalities [.group parts]
    rw [ends] at parted
    refine ⟨[parts], Part.between.intercalate (keys.map KeyMatch.parts) ++ Part.between,
      by simp [read], body.trans (congrArg some ends), parted⟩

/-- The text that a declaration about related rows comes to in the query around them: a condition,
or a column of the select list. -/
inductive Declaration.Writes (subquery : SubqueryCompiler) (scope : Scope) :
    Declaration → String → Prop
  | count {held : RelatedCount} {condition : Condition}
    (compiled : held.compile subquery scope = .ok condition) :
    Writes subquery scope (.count held) (condition.sql scope.config.dialect)
  | aggregate {held : RelatedAggregate} {output : Output}
    (compiled : held.compile subquery scope = .ok output) :
    Writes subquery scope (.aggregate held) (output.sql scope.config.dialect)
  | existence {held : RelatedExistence} {condition : Condition}
    (compiled : held.compile subquery scope = .ok condition) :
    Writes subquery scope (.existence held) (condition.sql scope.config.dialect)
  | filter {held : AggregateFilter} {condition : Condition}
    (compiled : held.compile subquery scope = .ok condition) :
    Writes subquery scope (.filter held) (condition.sql scope.config.dialect)

def Declaration.base : Declaration → String
  | .relation held => held.label
  | .aggregate held => held.label
  | .count held => held.link.name
  | .existence held => held.link.name
  | .filter held => held.aggregate.label

theorem Declaration.Writes.exists_selecting {subquery : SubqueryCompiler} {scope : Scope}
    {declaration : Declaration} {text : String} (h : declaration.Writes subquery scope text) :
    ∃ rows before what after, subquery scope declaration.link declaration.base = .ok rows ∧
      text = before ++ Subquery.selecting what (rows.sql scope.config.dialect) ++ after := by
  cases h with
  | @count held _ compiled =>
    obtain ⟨rows, made, compiled⟩ := Outcome.exists_of_bind compiled
    cases compiled
    refine ⟨rows, "", "COUNT(*)", " " ++ held.comparison.sql ++ " " ++ toString held.bound,
      made, ?_⟩
    rw [Condition.sql]
    simp only [String.empty_append, String.append_assoc]
  | @aggregate held _ compiled =>
    obtain ⟨measure, rows, made, _, rfl⟩ := RelatedAggregate.exists_of_compile compiled
    refine ⟨rows, "", measure.sql scope.config.dialect rows.label,
      " AS " ++ scope.config.dialect.quote held.label, made, ?_⟩
    rw [Output.sql, Subquery.aggregateSql]
    simp only [String.empty_append, String.append_assoc]
  | @existence held _ compiled =>
    obtain ⟨rows, made, compiled⟩ := Outcome.exists_of_bind compiled
    cases compiled
    refine ⟨rows, if held.negated then "NOT EXISTS " else "EXISTS ", "1", "", made, ?_⟩
    rw [Condition.sql, String.append_empty]
  | @filter held _ compiled =>
    obtain ⟨measure, rows, made, _, rfl⟩ := AggregateFilter.exists_of_compile compiled
    refine ⟨rows, "COALESCE(", measure.sql scope.config.dialect rows.label,
      ", 0) " ++ held.comparison.sql ++ " " ++ held.value.sql scope.config.dialect, made, ?_⟩
    rw [Condition.sql]
    simp only [String.append_assoc]

theorem Subquery.sql_eq (dialect : Dialect) {rows : Subquery Condition} (keyed : rows.keys ≠ []) :
    rows.sql dialect = rows.source.sql dialect ++ " WHERE " ++
      " AND ".intercalate (rows.keys.map (KeyMatch.sql dialect) ++
        (Clause.sql? dialect rows.refinement).toList.map fun held => "(" ++ held ++ ")") := by
  obtain ⟨label, source, keys, refinement⟩ := rows
  have equalities : keys.map (KeyMatch.sql dialect) ≠ [] := by simpa using keyed
  rw [Subquery.sql]
  unfold Clause.sql?
  by_cases bare : refinement.isEmpty
  · simp [bare]
  · rw [if_neg bare, if_neg bare, Option.toList_some, List.map_singleton,
      String.intercalate_append_of_ne_nil equalities (List.cons_ne_nil _ _),
      String.intercalate_singleton]
    have opening : " AND (" = " AND " ++ "(" := rfl
    simp only [opening, String.append_assoc]

def Link.narrowingSql (levels : Nat) (scope : Scope) (label : String) (link : Link Refinement) :
    Except Error (Option String) := do
  let rows ← (Query.below scope.config { name := link.target, label := some label }
    (scope.depth + 1) true).refineUsing (compileSubqueryWithin levels) (link.refinement.getD [])
  let assembly ← rows.assemble (compileSubqueryWithin levels)
  assembly.statement.filterSql

theorem narrowingSql_of_compileSubqueryWithin {levels : Nat} {scope : Scope}
    {link : Link Refinement} {base : String} {rows : Subquery Condition}
    (made : compileSubqueryWithin (levels + 1) scope link base = .ok rows) :
    link.narrowingSql levels scope rows.label =
      .ok (Clause.sql? scope.config.dialect rows.refinement) := by
  obtain ⟨child, assembly, refined, assembled, _, filter, _⟩ :=
    exists_of_compileSubqueryWithin made
  have anything : Refinement.Within (fun _ => True) (link.refinement.getD []) :=
    fun _ _ _ _ => True.intro
  have grounded : child.Grounded scope.config fun _ => True :=
    (Query.Grounded.below ..).refineUsing (compileSubqueryWithin_sound levels) anything refined
  obtain ⟨dialect, _⟩ := grounded.assemble (compileSubqueryWithin_sound levels) assembled
  unfold Link.narrowingSql
  rw [refined, Outcome.ok_bind, assembled, Outcome.ok_bind, Statement.filterSql, filter, dialect]
  rfl

theorem Subquery.Grounded.reads_refinement {dialect : Dialect} {given : Value → Prop}
    {rows : Subquery Condition} (h : rows.Grounded given) :
    ∀ held ∈ Clause.sql? dialect rows.refinement, Reads dialect (LiteralOf given) 0 0 held := by
  obtain ⟨label, source, keys, refinement⟩ := rows
  obtain ⟨nested, grounded⟩ := h
  intro held written
  unfold Clause.sql? at written
  split at written
  · cases written
  · cases written
    exact Condition.reads_clause grounded nested

theorem keyMatches_of_valid {link : Link Refinement} (valid : link.Valid) (label anchor : String) :
    (link.keyMatches label anchor).length = link.own.length ∧
      link.keyMatches label anchor ≠ [] := by
  have length : (link.keyMatches label anchor).length = link.own.length := by
    simp [Link.keyMatches, valid.paired]
  refine ⟨length, fun unkeyed => valid.keyed ?_⟩
  rw [unkeyed, List.length_nil, ← valid.paired] at length
  exact List.length_eq_zero_iff.1 length.symm

/-- A refinement can only narrow: whatever it does, the rows that a declaration looks at are those
that its keys tie to the row around, and of these the ones that the refinement asks for. -/
theorem Declaration.narrows_of_writes {levels : Nat} {scope : Scope} {declaration : Declaration}
    {text : String} (valid : declaration.link.Valid)
    (writes : declaration.Writes (compileSubqueryWithin levels) scope text) :
    ∃ rows narrowing before what body after,
      compileSubqueryWithin levels scope declaration.link declaration.base = .ok rows ∧
      rows.keys = declaration.link.keyMatches rows.label scope.anchor ∧
      rows.keys.length = declaration.link.own.length ∧
      declaration.link.narrowingSql (levels - 1) scope rows.label = .ok narrowing ∧
      text = before ++ Subquery.selecting what
        (rows.source.sql scope.config.dialect ++ " WHERE " ++ body) ++ after ∧
      Narrows scope.config.dialect rows.keys narrowing body := by
  obtain ⟨rows, before, what, after, made, same⟩ := writes.exists_selecting
  cases levels with
  | zero => cases made
  | succ levels =>
  obtain ⟨_, _, _, _, _, _, _, keys⟩ := exists_of_compileSubqueryWithin made
  obtain ⟨length, keyed⟩ := keys ▸ keyMatches_of_valid valid rows.label scope.anchor
  have grounded : rows.Grounded fun _ => True :=
    (compileSubqueryWithin_sound _ _ _ _ _ (fun _ _ _ _ _ _ => True.intro) made).1
  refine ⟨rows, _, before, what, _, after, made, keys, length,
    narrowingSql_of_compileSubqueryWithin made, ?_,
    narrows_of_reads keyed grounded.reads_refinement⟩
  rw [same, Subquery.sql_eq _ keyed]

/-- A refinement whose texts and conditions try to get out of their parentheses. -/
def hostileEdge : Edge Refinement where
  target := "posts"
  foreign := ["user_id", "tenant"]
  own := ["id", "tenant"]
  refinement := some
    [.filter .and "title" (.text "') OR (1 = 1"),
     .openGroup .or true,
     .filter .and "slug" (.text "\\"),
     .closeGroup,
     .filterExists .or false {
       target := "tags"
       foreign := ["post_id"]
       own := ["id"]
       refinement := some [.filter .and "name" (.text ")"), .filter .or "id" .null] }]

def hostileText : String :=
  "`title` = ''') OR (1 = 1' OR NOT (`slug` = '\\\\') OR EXISTS (SELECT 1 FROM `tags` AS " ++
    "`tags_s2` WHERE `tags_s2`.`post_id` = `posts_s1`.`id` AND (`name` = ')' OR `id` IS NULL))"

def hostileScope : Scope where
  config := { dialect := .mysql }
  depth := 0
  anchor := "users"

theorem hostile_narrows : ∃ link text, ∃ rows : Subquery Condition, ∃ before what body after,
    link.Valid ∧
    (Declaration.existence { link, negated := true, connective := .and }).Writes
      (compileSubqueryWithin 2) hostileScope text ∧
    text = before ++ Subquery.selecting what
      (rows.source.sql .mysql ++ " WHERE " ++ body) ++ after ∧
    rows.keys.length = 2 ∧ Narrows .mysql rows.keys (some hostileText) body := by
  have compiles : (do
      let link ← hostileEdge.link
      let rows ← compileSubqueryWithin 2 hostileScope link link.name
      let narrowing ← link.narrowingSql 1 hostileScope rows.label
      return (link.own.length, narrowing)).toOption = some (2, some hostileText) := by
    decide +kernel
  obtain ⟨link, checked, compiles⟩ := Outcome.exists_of_bind (Outcome.ok_of_toOption compiles)
  obtain ⟨rows, made, compiles⟩ := Outcome.exists_of_bind compiles
  obtain ⟨narrowing, asks, same⟩ := Outcome.exists_of_bind compiles
  obtain ⟨two, rfl⟩ := Prod.ext_iff.1 (Except.ok.inj same)
  let declaration : Declaration := .existence { link, negated := true, connective := .and }
  have writes : declaration.Writes (compileSubqueryWithin 2) hostileScope
      (Condition.sql .mysql (.existence true rows)) := .existence (by
    unfold RelatedExistence.compile
    exact (congrArg (· >>= _) made).trans rfl)
  obtain ⟨others, narrows, before, what, body, after, compiled, -, length, asked, written, h⟩ :=
    declaration.narrows_of_writes (Edge.valid_link checked) writes
  obtain rfl : rows = others := Except.ok.inj (made.symm.trans compiled)
  obtain rfl : some hostileText = narrows := Except.ok.inj (asks.symm.trans asked)
  exact ⟨link, _, rows, before, what, body, after, Edge.valid_link checked, writes, written,
    length.trans two, h⟩

end RelationQuery
