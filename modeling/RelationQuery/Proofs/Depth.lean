import RelationQuery.Proofs.Journal
import RelationQuery.Proofs.Levels
import RelationQuery.Proofs.Projection

/-! How far in subqueries and fetches stand. Main statements: with so many levels left, subqueries
nest that deep at most; and so it is with the fetches of a run and the subqueries in what they
send. -/
namespace RelationQuery

def Subquery.Within : Nat → Subquery Condition → Prop
  | 0, _ => False
  | levels + 1, rows => ∀ inner ∈ rows.nested, inner.Within levels

/-- With `level` queries around a statement, its subqueries are at most `limit` levels in. -/
def Statement.NestsWithin (limit level : Nat) (s : Statement) : Prop :=
  ∀ around rows, s.Nests around rows → level + around.length + 1 ≤ limit

/-- The fetches for relations of a query `level` levels in, one after the other: each is of the
query for its related rows, one level further in, and neither it nor a subquery in it is more than
`limit` levels in. Nor is anything fetched for it. -/
inductive Query.Fetches (limit : Nat) : Nat → Query → List Relation → List Dispatch → Prop
  | stop {level : Nat} {q : Query} {relations : List Relation} :
    Fetches limit level q relations []
  | pass {level : Nat} {q : Query} {relation : Relation} {rest : List Relation}
    {dispatches : List Dispatch} (later : Fetches limit level q rest dispatches) :
    Fetches limit level q (relation :: rest) (.nothing :: dispatches)
  | fetch {level : Nat} {q child : Query} {relation : Relation} {rest : List Relation}
    {s : Statement} {sql : String} {below dispatches : List Dispatch}
    (related : relation.related q.config q.depth = .ok child) (sends : child.Sends s)
    (written : s.sql = .ok sql) (room : level + 1 ≤ limit) (nests : s.NestsWithin limit (level + 1))
    (nested : Fetches limit (level + 1) child child.relations below)
    (later : Fetches limit level q rest dispatches) :
    Fetches limit level q (relation :: rest) (.fetch sql below :: dispatches)

/-! ### Subqueries -/

theorem Statement.Nests.within {s : Statement} {around : List (Subquery Condition)}
    {rows : Subquery Condition} {levels : Nat} (nests : s.Nests around rows)
    (outermost : ∀ rows ∈ s.subqueries, rows.Within levels) :
    ∃ left, around.length + left = levels ∧ rows.Within left := by
  induction nests with
  | outermost member => exact ⟨levels, Nat.zero_add _, outermost _ member⟩
  | inside _ member ih =>
    obtain ⟨_ | left, counted, within⟩ := ih
    · exact within.elim
    · refine ⟨left, ?_, within _ member⟩
      rw [List.length_cons]
      omega

theorem Statement.nestsWithin {s : Statement} {limit level levels : Nat}
    (left : limit - level = levels) (within : ∀ rows ∈ s.subqueries, rows.Within levels) :
    s.NestsWithin limit level := by
  intro around rows nests
  obtain ⟨_ | _, counted, within⟩ := nests.within within
  · exact within.elim
  · omega

theorem Step.fits_any (step : Step) : step.Fits (fun _ => True) False :=
  ⟨fun _ _ => trivial, nofun⟩

theorem within_of_compileSubqueryWithin {levels : Nat} {scope : Scope} {link : Link Refinement}
    {base : String} {rows : Subquery Condition}
    (made : compileSubqueryWithin levels scope link base = .ok rows) : rows.Within levels := by
  induction levels generalizing scope link base rows with
  | zero => cases made
  | succ levels ih =>
    obtain ⟨child, assembly, refined, assembled, _, filtered, _⟩ :=
      exists_of_compileSubqueryWithin made
    have begun : (Query.below scope.config ⟨link.target, some rows.label⟩ (scope.depth + 1)
        true).Named (compileSubqueryWithin levels) (fun _ => True) False none :=
      .below _ _ _ (.inr trivial)
    have named := begun.refineUsing ⟨fun step _ => step.fits_any, nofun⟩ (Query.Bare.below ..)
      refined
    obtain ⟨_, _, subqueries, _⟩ := named.assemble assembled
    intro inner member
    obtain ⟨_, _, _, _, _, _, made⟩ := subqueries inner (Statement.rows_of_filter filtered member)
    exact ih made

namespace Query

structure Leaves (config : Config) (depth levels : Nat) (q : Query) : Prop where
  placed : q.Placed config depth false
  left : config.maxDepth - depth = levels
  named : q.Named (compileSubqueryWithin levels) (fun _ => True) False none

namespace Leaves

variable {config : Config} {depth levels : Nat} {q after : Query}

theorem empty (config : Config) : (empty config).Leaves config 0 config.maxDepth :=
  ⟨⟨rfl, rfl, rfl⟩, rfl, .empty config⟩

theorem below (left : config.maxDepth - depth = levels) (table : Table) :
    (below config table depth false).Leaves config depth levels :=
  ⟨⟨rfl, rfl, rfl⟩, left, .below _ _ _ (.inr trivial)⟩

theorem apply (h : q.Leaves config depth levels) (step : Step) :
    (q.apply step).1.Leaves config depth levels where
  placed := h.placed.applyUsing step
  left := h.left
  named := by
    unfold Query.apply
    rw [← applyUsing_congr (agree_within h.left) step h.placed]
    exact h.named.applyUsing step.fits_any nofun

theorem exposeKeys (h : q.Leaves config depth levels) (other : Config) (relation : Relation)
    (columns : List String) :
    (relation.exposeKeys other columns q).Leaves config depth levels := by
  refine ⟨?_, h.left, h.named.exposeKeys ..⟩
  unfold Relation.exposeKeys
  split
  · exact ⟨h.placed.configured, h.placed.depth, h.placed.correlated⟩
  · exact h.placed

theorem related {relation : Relation} (left : config.maxDepth - (depth + 1) = levels)
    (ok : relation.related config depth = .ok q) : q.Leaves config (depth + 1) levels := by
  obtain ⟨child, refined, ok⟩ := Outcome.exists_of_bind ok
  cases ok
  have h : child.Leaves config (depth + 1) levels :=
    of_refineUsing (fun step _ held => held.apply step) (below left _) refined
  exact h.exposeKeys ..

theorem built (config : Config) (calls : List Step) :
    (built config calls).Leaves config 0 config.maxDepth :=
  List.foldlRecOn calls _ (empty config) fun _ h step _ => h.apply step

theorem within (h : q.Leaves config depth levels) {assembly : Assembly}
    (compiled : q.compile = .ok assembly) :
    ∀ rows ∈ assembly.statement.subqueries, rows.Within levels := by
  rw [compile, ← assemble_congr (agree_within h.left) h.placed] at compiled
  obtain ⟨_, _, subqueries, _⟩ := h.named.assemble compiled
  intro rows member
  obtain ⟨_, _, _, _, _, _, made⟩ := subqueries rows member
  exact within_of_compileSubqueryWithin made

end Leaves

end Query

theorem Relation.rows?_keyFilter {columns : List String} {keys : List (List Value)}
    {entry : Entry Place} (member : entry ∈ keyFilter columns keys) :
    entry.content?.bind Place.rows? = none := by
  have compared (column : String) (value : Value) :
      (Condition.comparing column (.compare .equal) value).rows? = none := by
    unfold Condition.comparing
    split <;> rfl
  unfold keyFilter at member
  split at member
  · obtain rfl := List.mem_singleton.1 member
    rfl
  · simp only [List.mem_cons, List.mem_append, List.mem_flatMap, List.not_mem_nil, or_false,
      ← List.map_uncurry_zip_eq_zipWith, List.mem_map] at member
    rcases member with rfl | ⟨key, _, rfl | ⟨⟨column, value⟩, _, rfl⟩ | rfl⟩ | rfl
    · rfl
    · rfl
    · exact compared column value
    · rfl
    · rfl

theorem Statement.subqueries_follow {s : Statement} {lead : Clause Place}
    (plain : ∀ entry ∈ lead, entry.content?.bind Place.rows? = none) :
    (s.follow lead).subqueries = s.subqueries := by
  have bare : lead.filterMap (·.content?.bind Place.rows?) = [] :=
    List.filterMap_eq_nil_iff.2 plain
  unfold subqueries follow Clause.behind
  dsimp only
  split
  · next empty =>
    rw [bare, List.isEmpty_iff.1 empty]
    rfl
  · rw [List.filterMap_append, bare, List.nil_append, List.filterMap_cons, List.filterMap_append]
    simp [Entry.content?]

theorem Query.Leaves.fetch {config : Config} {depth levels : Nat} {q child : Query}
    {relation : Relation} {rest : List Relation} {keys : List (List Value)} {sql : String}
    {below dispatches : List Dispatch} (h : q.Leaves config depth levels)
    (asked : relation.asking levels q.config q.depth keys = .ok (child, sql))
    (nested : ∀ lower, levels = lower + 1 → child.Leaves config (depth + 1) lower →
      child.Fetches config.maxDepth (depth + 1) relation.nested below)
    (later : q.Fetches config.maxDepth depth rest dispatches) :
    q.Fetches config.maxDepth depth (relation :: rest) (.fetch sql below :: dispatches) := by
  obtain ⟨lower, rfl, related, relations⟩ := Relation.exists_of_asking asked
  obtain ⟨_, _, asked⟩ := Outcome.exists_of_bind asked
  obtain ⟨assembly, compiled, asked⟩ := Outcome.exists_of_bind asked
  obtain ⟨_, written, asked⟩ := Outcome.exists_of_bind asked
  cases asked
  have left := h.left
  have less : config.maxDepth - (depth + 1) = lower := by omega
  have here := related
  rw [h.placed.configured, h.placed.depth] at here
  have leaves := Query.Leaves.related less here
  have nests : (assembly.statement.follow (Relation.keyFilter relation.foreignColumns
      keys)).NestsWithin config.maxDepth (depth + 1) := by
    refine Statement.nestsWithin less ?_
    rw [Statement.subqueries_follow fun _ => Relation.rows?_keyFilter]
    exact leaves.within compiled
  exact .fetch related (.fetch compiled _) written (by omega) nests
    (relations ▸ nested lower rfl leaves) later

theorem Loads.fetches {driver : Driver} {see : Tracked → Row} {config : Config} {depth levels : Nat}
    {q : Query} {relations : List Relation} {rows : List Tracked} {sent : List String}
    {dispatches : List Dispatch} {outcome : Except Error (List Tracked)}
    (loads : Loads driver see levels q relations rows sent dispatches outcome)
    (h : q.Leaves config depth levels) :
    q.Fetches config.maxDepth depth relations dispatches := by
  induction loads generalizing depth with
  | done => exact .stop
  | pass _ _ ih => exact .pass (ih h)
  | unready => exact .pass .stop
  | refused _ asked => exact h.fetch asked (fun _ _ _ => .stop) .stop
  | broken _ asked _ _ ih =>
    refine h.fetch asked ?_ .stop
    rintro _ ⟨⟩ leaves
    exact ih leaves
  | fetch _ asked _ _ _ ih later =>
    refine h.fetch asked ?_ (later h)
    rintro _ ⟨⟩ leaves
    exact ih leaves

namespace Query

/-- What has been sent: the count, if asked for, and the statement of the query, and then fetches
that keep to the limit. -/
theorem exists_fetches_of_get (config : Config) (calls : List Step) (driver : Driver) :
    ∃ lead dispatches, ((built config calls).get driver).2 = lead ++ Dispatch.logs dispatches ∧
      (∀ text ∈ lead, ∃ assembly, (built config calls).compile = .ok assembly ∧
        (assembly.statement.sql = .ok text ∨
          ∃ column, assembly.statement.countSql column = .ok text)) ∧
      (built config calls).Fetches config.maxDepth 0 (built config calls).relations
        dispatches := by
  have leaves := Leaves.built config calls
  generalize built config calls = q at leaves
  have log : (q.get driver).2 = ((q.run driver).exec []).2 := by
    unfold get
    rcases (q.run driver).exec [] with ⟨_, _⟩
    rfl
  have levels : q.config.maxDepth - q.depth = config.maxDepth := by
    rw [leaves.placed.configured, leaves.placed.depth, Nat.sub_zero]
  cases written : q.sql with
  | error error =>
    rw [log, exec_run_of_sql_error driver written]
    exact ⟨[], [], rfl, nofun, .stop⟩
  | ok text =>
    obtain ⟨assembly, compiled, written⟩ := Outcome.exists_of_bind written
    obtain ⟨count, counts, _⟩ := Statement.exists_counted written (q.config.hiddenColumn "total")
    have counted : ∀ text ∈ [count], ∃ assembly, q.compile = .ok assembly ∧
        (assembly.statement.sql = .ok text ∨
          ∃ column, assembly.statement.countSql column = .ok text) := by
      rintro _ (_ | ⟨_, ⟨⟩⟩)
      exact ⟨assembly, compiled, .inr ⟨_, counts⟩⟩
    rcases exists_journal_of_run driver compiled written counts with
      ⟨cause, _, _, run⟩ | ⟨outcome, sent, total, journal, run⟩
    · rw [log, run]
      exact ⟨[count], [], rfl, counted, .stop⟩
    · rw [log, run]
      have lead : ∀ other ∈ (if q.wantsTotal then [count] else []) ++ [text],
          ∃ assembly, q.compile = .ok assembly ∧
            (assembly.statement.sql = .ok other ∨
              ∃ column, assembly.statement.countSql column = .ok other) := by
        intro other member
        rcases List.mem_append.1 member with first | last
        · split at first
          · exact counted other first
          · cases first
        · exact ⟨assembly, compiled, .inl (List.mem_singleton.1 last ▸ written)⟩
      cases journal with
      | refused => exact ⟨_, [], (List.append_nil _).symm, lead, .stop⟩
      | answered _ loads =>
        rw [levels] at loads
        exact ⟨_, _, by simp, lead, loads.fetches leaves⟩

end Query

end RelationQuery
