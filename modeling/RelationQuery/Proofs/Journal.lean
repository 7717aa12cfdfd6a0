import RelationQuery.Proofs.Fault
import RelationQuery.Proofs.Lexical
import RelationQuery.Proofs.Moves

/-! Which statements a run sends. Main statement: the count if it is asked for, the statement of
the query, and then for one relation after the other at most one fetch, with what is sent for the
relations below it right behind. -/
namespace RelationQuery

/-- What is sent for a relation: nothing, or its fetch and then what is sent for the relations
below it. -/
inductive Dispatch where
  | nothing
  | fetch (sql : String) (below : List Dispatch)

namespace Dispatch

mutual

def log : Dispatch → List String
  | .nothing => []
  | .fetch sql below => sql :: logs below

def logs : List Dispatch → List String
  | [] => []
  | dispatch :: rest => dispatch.log ++ logs rest

end

end Dispatch

def Step.relation? : Step → Option Relation
  | .load cardinality edge =>
    edge.link.toOption.map fun link => { link, cardinality, label := link.name }
  | .attempt step => step.relation?
  | _ => none

def Step.counts : Step → Bool
  | .countAll => true
  | .attempt step => step.counts
  | _ => false

namespace Query

variable {subquery : SubqueryCompiler}

theorem picked_relation_of_moves {step : Step} (relation : step.relation? = none)
    (counts : step.counts = false) {q after : Query} (h : q.Moves subquery step after) :
    after.picked Declaration.relation? = q.picked Declaration.relation? ∧
      after.wantsTotal = q.wantsTotal := by
  cases h with
  | put gives =>
    induction gives with
    | attempt gives ih => exact ih relation counts
    | load cardinality checked => simp [Step.relation?, checked, Except.toOption] at relation
    | countAll => cases counts
    | aggregate | filterCount | filterExists | filterAggregate =>
      exact ⟨by simp [picked, put, declare, Declaration.relation?], rfl⟩
    | _ => exact ⟨rfl, rfl⟩
  | _ => exact ⟨rfl, rfl⟩

theorem picked_relation_applyUsing (subquery : SubqueryCompiler) (step : Step) (q : Query) :
    (q.applyUsing subquery step).1.picked Declaration.relation? =
        q.picked Declaration.relation? ++ step.relation?.toList ∧
      (q.applyUsing subquery step).1.wantsTotal = (q.wantsTotal || step.counts) := by
  have other {step : Step} (relation : step.relation? = none) (counts : step.counts = false) :
      (q.applyUsing subquery step).1.picked Declaration.relation? =
          q.picked Declaration.relation? ++ step.relation?.toList ∧
        (q.applyUsing subquery step).1.wantsTotal = (q.wantsTotal || step.counts) := by
    rw [relation, counts, Option.toList_none, List.append_nil, Bool.or_false]
    refine of_moves (P := fun after => after.picked Declaration.relation? =
      q.picked Declaration.relation? ∧ after.wantsTotal = q.wantsTotal) ?_ ⟨rfl, rfl⟩
    intro state after same moves
    have next := picked_relation_of_moves relation counts moves
    exact ⟨next.1.trans same.1, next.2.trans same.2⟩
  cases step with
  | attempt step => exact picked_relation_applyUsing subquery step q
  | countAll => exact ⟨(List.append_nil _).symm, (Bool.or_true _).symm⟩
  | load cardinality edge =>
    unfold applyUsing load Step.relation? Step.counts
    cases edge.link with
    | error error => simp [orUnchanged, Except.toOption, bind, Except.bind]
    | ok link => simp [orUnchanged, Except.toOption, bind, Except.bind, pure, Except.pure, picked,
        declare, Declaration.relation?]
  | _ => exact other rfl rfl

theorem picked_relation_foldl (steps : List Step) (q : Query) :
    (steps.foldl (fun q step => (q.applyUsing subquery step).1) q).picked Declaration.relation? =
        q.picked Declaration.relation? ++ steps.filterMap Step.relation? ∧
      (steps.foldl (fun q step => (q.applyUsing subquery step).1) q).wantsTotal =
        (q.wantsTotal || steps.any Step.counts) := by
  induction steps generalizing q with
  | nil => simp
  | cons step rest ih =>
    obtain ⟨relations, total⟩ := picked_relation_applyUsing subquery step q
    obtain ⟨more, counts⟩ := ih (q.applyUsing subquery step).1
    rw [List.foldl_cons, more, counts, relations, total, List.filterMap_cons, List.any_cons,
      List.append_assoc, Bool.or_assoc]
    cases step.relation? <;> exact ⟨rfl, rfl⟩

theorem relations_eq_picked {q : Query} {assembly : Assembly} (h : q.compile = .ok assembly) :
    q.relations = q.picked Declaration.relation? := by
  obtain ⟨scope, parts, statement, _, _, _, rfl⟩ := exists_of_assemble h
  exact relations_of_compile h

theorem relations_built {config : Config} {calls : List Step} {assembly : Assembly}
    (h : (built config calls).compile = .ok assembly) :
    (built config calls).relations = calls.filterMap Step.relation? :=
  (relations_eq_picked h).trans (picked_relation_foldl calls (empty config)).1

theorem wantsTotal_built (config : Config) (calls : List Step) :
    (built config calls).wantsTotal = calls.any Step.counts :=
  ((picked_relation_foldl calls (empty config)).2).trans (Bool.false_or _)

end Query

namespace Relation

def nested (relation : Relation) : List Relation :=
  (relation.link.refinement.getD []).filterMap Step.relation?

theorem relations_of_related {config : Config} {depth : Nat} {relation : Relation} {child : Query}
    {assembly : Assembly} (related : relation.related config depth = .ok child)
    (compiled : child.compile = .ok assembly) : child.relations = relation.nested := by
  rw [Query.relations_eq_picked compiled]
  obtain ⟨refined, narrowed, exposed⟩ := Outcome.exists_of_bind related
  cases exposed
  have exposed : (relation.exposeKeys config relation.foreignColumns refined).declarations =
      refined.declarations := by
    unfold exposeKeys
    split <;> rfl
  rw [Query.picked, exposed, Query.eq_foldl_of_refineUsing narrowed]
  exact (Query.picked_relation_foldl _ _).1

def asking (levels : Nat) (config : Config) (depth : Nat) (keys : List (List Value))
    (relation : Relation) : Except Error (Query × String) :=
  match levels with
  | 0 => .error (.tooDeep config.maxDepth)
  | _ + 1 => do
    let child ← relation.related config depth
    let assembly ← child.compile
    let sql ← (assembly.statement.follow (keyFilter relation.foreignColumns keys)).sql
    return (child, sql)

theorem exists_of_asking {levels : Nat} {config : Config} {depth : Nat} {keys : List (List Value)}
    {relation : Relation} {child : Query} {sql : String}
    (h : relation.asking levels config depth keys = .ok (child, sql)) :
    ∃ lower, levels = lower + 1 ∧ relation.related config depth = .ok child ∧
      child.relations = relation.nested := by
  cases levels with
  | zero => cases h
  | succ lower =>
    obtain ⟨_, related, h⟩ := Outcome.exists_of_bind h
    obtain ⟨assembly, compiled, h⟩ := Outcome.exists_of_bind h
    obtain ⟨_, _, h⟩ := Outcome.exists_of_bind h
    cases h
    exact ⟨lower, rfl, related, relations_of_related related compiled⟩

theorem exec_fetchRelated (driver : Driver) (levels : Nat) (config : Config) (depth : Nat)
    (keys : List (List Value)) (relation : Relation) (sent : List String) :
    (relation.fetchRelated (Query.fetchWithin driver levels) config depth keys).exec sent =
      match relation.asking levels config depth keys with
      | .error error => (.error error, sent)
      | .ok (child, sql) =>
        match driver sent sql with
        | .error cause => (.error (.refused cause sql), sent ++ [sql])
        | .ok answer =>
          (relation.nested.foldlM (attach (Query.fetchWithin driver (levels - 1)) child.config
            child.depth) answer).exec (sent ++ [sql]) := by
  cases levels with
  | zero => rfl
  | succ levels =>
    simp only [fetchRelated, Query.fetchWithin, asking, Nat.add_sub_cancel]
    cases related : relation.related config depth with
    | error error => rfl
    | ok child =>
      rw [Load.ofExcept_ok_bind, Outcome.ok_bind]
      cases compiled : child.compile with
      | error error => rfl
      | ok assembly =>
        rw [Load.ofExcept_ok_bind, Outcome.ok_bind, ← relations_of_related related compiled,
          Query.relations_of_compile compiled]
        unfold Query.loadUsing
        cases (assembly.statement.follow (keyFilter relation.foreignColumns keys)).sql with
        | error error => rfl
        | ok sql =>
          rw [Load.ofExcept_ok_bind, Outcome.ok_bind, Load.exec_bind, Load.exec_ask]
          dsimp only [pure, Except.pure]
          cases driver sent sql <;> rfl

def joinTracked (config : Config) (relation : Relation) (rows : List Tracked)
    (fetched : List Row) : List Tracked :=
  rows.map fun row =>
    let related := fetched.filter (Belongs config relation row.row)
    { row with row := Fields.put relation.label (gather relation.cardinality related) row.row }

/-- A relation of a query and those in the tree below it, down to where no level is left. -/
def tree (levels : Nat) (q : Query) (relation : Relation) : List Relation :=
  relation :: match levels with
    | 0 => []
    | levels + 1 =>
      ((relation.related q.config q.depth).toOption.toList.flatMap
        (Query.loadedWithin levels)).flatMap Query.relations

variable {config : Config} {relation : Relation}

theorem length_flatMap_tree (levels : Nat) (q : Query) :
    (q.relations.flatMap (tree levels q)).length =
      ((Query.loadedWithin levels q).flatMap Query.relations).length := by
  cases levels with
  | zero =>
    rw [Query.loadedWithin, List.flatMap_singleton]
    generalize q.relations = relations
    induction relations with
    | nil => rfl
    | cons relation rest ih =>
      rw [List.flatMap_cons, List.length_append, ih, tree, List.length_singleton, Nat.add_comm,
        List.length_cons]
  | succ levels =>
    rw [Query.loadedWithin, List.flatMap_cons, List.length_append]
    generalize q.relations = relations
    induction relations with
    | nil => rfl
    | cons relation rest ih =>
      rw [List.flatMap_cons, List.length_append, ih, List.flatMap_cons, List.flatMap_append,
        List.length_append, List.length_cons, tree, List.length_cons]
      omega

theorem length_tree_of_related {levels : Nat} {q child : Query} {relation : Relation}
    (related : relation.related q.config q.depth = .ok child) :
    (relation.tree (levels + 1) q).length =
      (child.relations.flatMap (tree levels child)).length + 1 := by
  rw [tree, related, length_flatMap_tree, List.length_cons]
  simp [Except.toOption]

theorem map_row_joinTracked (rows : List Tracked) (fetched : List Row) :
    (relation.joinTracked config rows fetched).map Tracked.row =
      nestedLoop config relation (rows.map Tracked.row) fetched := by
  simp [joinTracked, nestedLoop, Function.comp_def]

theorem map_origin_joinTracked (rows : List Tracked) (fetched : List Row) :
    (relation.joinTracked config rows fetched).map Tracked.origin = rows.map Tracked.origin := by
  simp [joinTracked, Function.comp_def]

theorem outside_joinTracked {labels : List String} {rows : List Tracked}
    (outside : ∀ row ∈ rows, row.Outside labels) (fetched : List Row) :
    ∀ row ∈ relation.joinTracked config rows fetched,
      row.Outside (labels ++ [relation.label]) := by
  intro stored member
  obtain ⟨row, found, rfl⟩ := List.mem_map.1 member
  exact (outside row found).put _ _

end Relation

/-- What is sent while relations are loaded for rows, one relation after the other, and what that
comes to; `see` picks what keys are read from. A relation is passed over when no row has a key.
Else it is fetched, with the relations below it, before the next one: until the first error. -/
inductive Loads (driver : Driver) (see : Tracked → Row) :
    Nat → Query → List Relation → List Tracked → List String → List Dispatch →
      Except Error (List Tracked) → Prop
  | done {levels : Nat} {q : Query} {rows : List Tracked} {sent : List String} :
    Loads driver see levels q [] rows sent [] (.ok rows)
  | pass {levels : Nat} {q : Query} {relation : Relation} {rest : List Relation}
    {rows : List Tracked} {sent : List String} {dispatches : List Dispatch}
    {outcome : Except Error (List Tracked)}
    (keyless : Relation.Keyless q.config relation (rows.map see))
    (later : Loads driver see levels q rest (relation.joinTracked q.config rows []) sent
      dispatches outcome) :
    Loads driver see levels q (relation :: rest) rows sent (.nothing :: dispatches) outcome
  | unready {levels : Nat} {q : Query} {relation : Relation} {rest : List Relation}
    {rows : List Tracked} {sent : List String} {error : Error}
    (keyed : ¬Relation.Keyless q.config relation (rows.map see))
    (asked : relation.asking levels q.config q.depth
      (Relation.distinctKeys (relation.ownNames q.config) (rows.map see)) = .error error) :
    Loads driver see levels q (relation :: rest) rows sent [.nothing] (.error error)
  | refused {levels : Nat} {q child : Query} {relation : Relation} {rest : List Relation}
    {rows : List Tracked} {sent : List String} {sql : String} {cause : DriverError}
    (keyed : ¬Relation.Keyless q.config relation (rows.map see))
    (asked : relation.asking levels q.config q.depth
      (Relation.distinctKeys (relation.ownNames q.config) (rows.map see)) = .ok (child, sql))
    (refuses : driver sent sql = .error cause) :
    Loads driver see levels q (relation :: rest) rows sent [.fetch sql []]
      (.error (.refused cause sql))
  | broken {levels : Nat} {q child : Query} {relation : Relation} {rest : List Relation}
    {rows : List Tracked} {sent : List String} {sql : String} {answer : List Row}
    {below : List Dispatch} {error : Error}
    (keyed : ¬Relation.Keyless q.config relation (rows.map see))
    (asked : relation.asking (levels + 1) q.config q.depth
      (Relation.distinctKeys (relation.ownNames q.config) (rows.map see)) = .ok (child, sql))
    (answers : driver sent sql = .ok answer)
    (breaks : Loads driver see levels child relation.nested (answer.map Tracked.answered)
      (sent ++ [sql]) below (.error error)) :
    Loads driver see (levels + 1) q (relation :: rest) rows sent [.fetch sql below]
      (.error error)
  | fetch {levels : Nat} {q child : Query} {relation : Relation} {rest : List Relation}
    {rows fetched : List Tracked} {sent : List String} {sql : String} {answer : List Row}
    {below dispatches : List Dispatch} {outcome : Except Error (List Tracked)}
    (keyed : ¬Relation.Keyless q.config relation (rows.map see))
    (asked : relation.asking (levels + 1) q.config q.depth
      (Relation.distinctKeys (relation.ownNames q.config) (rows.map see)) = .ok (child, sql))
    (answers : driver sent sql = .ok answer)
    (nested : Loads driver see levels child relation.nested (answer.map Tracked.answered)
      (sent ++ [sql]) below (.ok fetched))
    (later : Loads driver see (levels + 1) q rest
      (relation.joinTracked q.config rows (fetched.map Tracked.row))
      (sent ++ sql :: Dispatch.logs below) dispatches outcome) :
    Loads driver see (levels + 1) q (relation :: rest) rows sent (.fetch sql below :: dispatches)
      outcome

/-- No key of a relation to load is hidden by a label: neither by those the rows have got, nor by
those of the relations before it, nor anywhere in the trees below. -/
structure Legible (labels : List String) (levels : Nat) (q : Query) (relations : List Relation)
    (rows : List Tracked) : Prop where
  outside : ∀ row ∈ rows, row.Outside labels
  spares : ∀ relation ∈ relations, ∀ label ∈ labels,
    KeyName.Spares (relation.ownNames q.config) label
  apart : relations.Pairwise fun earlier later =>
    KeyName.Spares (later.ownNames q.config) earlier.label
  below : ∀ lower, levels = lower + 1 → ∀ relation ∈ relations, ∀ child,
    relation.related q.config q.depth = .ok child →
      ∀ inner ∈ Query.loadedWithin lower child, inner.SiblingsApart

namespace Legible

variable {labels : List String} {levels : Nat} {q : Query} {relation : Relation}
  {rest : List Relation} {rows : List Tracked}

theorem distinctKeys_eq (h : Legible labels levels q (relation :: rest) rows) :
    Relation.distinctKeys (relation.ownNames q.config) (rows.map Tracked.row) =
      Relation.distinctKeys (relation.ownNames q.config) (rows.map Tracked.origin) :=
  Relation.distinctKeys_map_row fun row member =>
    (h.outside row member).readAll_eq (h.spares relation List.mem_cons_self)

theorem keyless_iff (h : Legible labels levels q (relation :: rest) rows) :
    Relation.Keyless q.config relation (rows.map Tracked.row) ↔
      Relation.Keyless q.config relation (rows.map Tracked.origin) := by
  rw [← Relation.isEmpty_distinctKeys_iff, h.distinctKeys_eq, Relation.isEmpty_distinctKeys_iff]

theorem later (h : Legible labels levels q (relation :: rest) rows) (fetched : List Row) :
    Legible (labels ++ [relation.label]) levels q rest
      (relation.joinTracked q.config rows fetched) where
  outside := Relation.outside_joinTracked h.outside fetched
  spares := by
    intro later member label taken
    rcases List.mem_append.1 taken with before | here
    · exact h.spares later (List.mem_cons_of_mem _ member) label before
    · rw [List.mem_singleton.1 here]
      exact (List.pairwise_cons.1 h.apart).1 later member
  apart := (List.pairwise_cons.1 h.apart).2
  below := fun lower same later member => h.below lower same later (List.mem_cons_of_mem _ member)

theorem answered {levels : Nat} {q : Query} (answer : List Row)
    (apart : ∀ inner ∈ Query.loadedWithin levels q, inner.SiblingsApart) :
    Legible [] levels q q.relations (answer.map Tracked.answered) where
  outside := Tracked.outside_answered [] answer
  spares := by simp
  apart := apart q (Query.mem_loadedWithin_self levels q)
  below := by
    rintro lower rfl relation member child related inner found
    exact apart inner (Query.mem_loadedWithin_of_related member related found)

theorem nested {lower : Nat} {child : Query} {keys : List (List Value)} {sql : String}
    (h : Legible labels (lower + 1) q (relation :: rest) rows)
    (asked : relation.asking (lower + 1) q.config q.depth keys = .ok (child, sql))
    (answer : List Row) :
    Legible [] lower child relation.nested (answer.map Tracked.answered) := by
  obtain ⟨_, ⟨⟩, related, nested⟩ := Relation.exists_of_asking asked
  rw [← nested]
  exact answered answer (h.below lower rfl relation List.mem_cons_self child related)

end Legible

namespace Loads

variable {driver : Driver} {see : Tracked → Row} {levels : Nat} {q : Query}
  {relations : List Relation} {rows : List Tracked} {sent : List String}
  {dispatches : List Dispatch} {outcome : Except Error (List Tracked)}

def Recorded (driver : Driver) (levels : Nat) (q : Query) (relations : List Relation)
    (rows : List Tracked) (sent : List String) : Prop :=
  ∃ dispatches outcome, Loads driver Tracked.row levels q relations rows sent dispatches outcome ∧
    (relations.foldlM (Relation.attach (Query.fetchWithin driver levels) q.config q.depth)
        (rows.map Tracked.row)).exec sent =
      (outcome.map (List.map Tracked.row), sent ++ Dispatch.logs dispatches)

theorem recorded_of_keyless {relation : Relation} {rest : List Relation}
    (keyless : Relation.Keyless q.config relation (rows.map Tracked.row))
    (later : ∀ rows, Recorded driver levels q rest rows sent) :
    Recorded driver levels q (relation :: rest) rows sent := by
  obtain ⟨dispatches, outcome, loads, run⟩ := later (relation.joinTracked q.config rows [])
  refine ⟨.nothing :: dispatches, outcome, .pass keyless loads, ?_⟩
  rw [List.foldlM_cons, Load.exec_bind, Relation.attach_of_keyless _ _ keyless, Load.exec_pure]
  rwa [Relation.map_row_joinTracked] at run

theorem recorded_of_key {relation : Relation} {rest : List Relation}
    (keyed : ¬Relation.Keyless q.config relation (rows.map Tracked.row))
    (below : ∀ lower, levels = lower + 1 → ∀ child rows sent,
      Recorded driver lower child relation.nested rows sent)
    (later : ∀ rows sent, Recorded driver levels q rest rows sent) :
    Recorded driver levels q (relation :: rest) rows sent := by
  unfold Recorded
  rw [List.foldlM_cons, Load.exec_bind, Relation.attach_of_key _ _ keyed, Load.exec_map,
    Relation.exec_fetchRelated]
  rcases asked : relation.asking levels q.config q.depth _ with error | ⟨child, sql⟩
  · refine ⟨_, .error error, .unready keyed asked, ?_⟩
    simp [Dispatch.logs, Dispatch.log, Except.map]
  · obtain ⟨lower, rfl, _⟩ := Relation.exists_of_asking asked
    dsimp only
    cases answers : driver sent sql with
    | error cause => exact ⟨_, .error _, .refused keyed asked answers, rfl⟩
    | ok answer =>
      obtain ⟨inner, fetched, nested, run⟩ :=
        below lower rfl child (answer.map Tracked.answered) (sent ++ [sql])
      rw [Tracked.map_row_answered] at run
      dsimp only
      rw [Nat.add_sub_cancel, run]
      cases fetched with
      | error error =>
        refine ⟨_, .error error, .broken keyed asked answers nested, ?_⟩
        simp [Dispatch.logs, Dispatch.log, Except.map]
      | ok fetched =>
        obtain ⟨dispatches, outcome, loads, run⟩ :=
          later (relation.joinTracked q.config rows (fetched.map Tracked.row))
            (sent ++ sql :: Dispatch.logs inner)
        rw [Relation.map_row_joinTracked] at run
        refine ⟨_, outcome, .fetch keyed asked answers nested loads, ?_⟩
        simpa [Dispatch.logs, Dispatch.log, Except.map] using run

/-- Whatever is loaded for whatever rows, it is one of these loads. -/
theorem recorded (driver : Driver) (levels : Nat) (q : Query) (relations : List Relation)
    (rows : List Tracked) (sent : List String) :
    Recorded driver levels q relations rows sent := by
  induction levels using Nat.strongRecOn generalizing q relations rows sent with | ind levels below
  induction relations generalizing rows sent with
  | nil => exact ⟨[], .ok rows, .done, by simp [Dispatch.logs, Except.map]⟩
  | cons relation rest later =>
    by_cases keyless : Relation.Keyless q.config relation (rows.map Tracked.row)
    · exact recorded_of_keyless keyless fun rows => later rows sent
    · refine recorded_of_key keyless ?_ later
      rintro lower rfl child rows sent
      exact below lower (Nat.lt_succ_self lower) child relation.nested rows sent

theorem length_logs_le (h : Loads driver see levels q relations rows sent dispatches outcome) :
    (Dispatch.logs dispatches).length ≤ (relations.flatMap (Relation.tree levels q)).length := by
  induction h with
  | done | unready => exact Nat.zero_le _
  | pass keyless later ih =>
    rw [List.flatMap_cons, List.length_append]
    exact ih.trans (Nat.le_add_left _ _)
  | refused => exact Nat.succ_le_succ (Nat.zero_le _)
  | broken keyed asked answers breaks ih =>
    obtain ⟨_, ⟨⟩, related, nested⟩ := Relation.exists_of_asking asked
    rw [List.flatMap_cons, List.length_append, Relation.length_tree_of_related related, nested]
    simp only [Dispatch.logs, Dispatch.log, List.append_nil, List.length_cons]
    omega
  | fetch keyed asked answers fetches later inner ih =>
    obtain ⟨_, ⟨⟩, related, nested⟩ := Relation.exists_of_asking asked
    rw [List.flatMap_cons, List.length_append, Relation.length_tree_of_related related, nested]
    simp only [Dispatch.logs, Dispatch.log, List.cons_append, List.length_cons, List.length_append]
    omega

/-- Where no label hides a key of a later relation, what is sent is decided by the rows as they
were returned. -/
theorem by_origin (h : Loads driver Tracked.row levels q relations rows sent dispatches outcome)
    {labels : List String} (legible : Legible labels levels q relations rows) :
    Loads driver Tracked.origin levels q relations rows sent dispatches outcome := by
  induction h generalizing labels with
  | done => exact .done
  | pass keyless later ih =>
    exact .pass (legible.keyless_iff.1 keyless) (ih (legible.later []))
  | unready keyed asked =>
    rw [legible.keyless_iff] at keyed
    rw [legible.distinctKeys_eq] at asked
    exact .unready keyed asked
  | refused keyed asked refuses =>
    rw [legible.keyless_iff] at keyed
    rw [legible.distinctKeys_eq] at asked
    exact .refused keyed asked refuses
  | broken keyed asked answers breaks ih =>
    rw [legible.keyless_iff] at keyed
    rw [legible.distinctKeys_eq] at asked
    exact .broken keyed asked answers (ih (legible.nested asked _))
  | fetch keyed asked answers fetches later inner ih =>
    rw [legible.keyless_iff] at keyed
    rw [legible.distinctKeys_eq] at asked
    exact .fetch keyed asked answers (inner (legible.nested asked _)) (ih (legible.later _))

theorem silent_iff (h : Loads driver Tracked.origin levels q relations rows sent dispatches outcome)
    {index : Nat} {relation : Relation} (declared : relations[index]? = some relation) :
    (¬∃ sql below, dispatches[index]? = some (.fetch sql below)) ↔
      Relation.Keyless q.config relation (rows.map Tracked.origin) ∨
        ∃ error, outcome = .error error ∧
          Dispatch.logs dispatches = Dispatch.logs (dispatches.take index) := by
  induction h generalizing index with
  | done => cases declared
  | pass keyless later ih =>
    cases index with
    | zero =>
      cases declared
      simp [keyless]
    | succ index =>
      rw [Relation.map_origin_joinTracked] at ih
      exact ih declared
  | unready keyed asked => cases index <;> simp [Dispatch.logs, Dispatch.log]
  | refused keyed asked refuses =>
    cases index with
    | zero =>
      cases declared
      simp [keyed, Dispatch.logs, Dispatch.log]
    | succ index => simp
  | broken keyed asked answers breaks ih =>
    cases index with
    | zero =>
      cases declared
      simp [keyed, Dispatch.logs, Dispatch.log]
    | succ index => simp
  | fetch keyed asked answers fetches later inner ih =>
    cases index with
    | zero =>
      cases declared
      simp [keyed, Dispatch.logs, Dispatch.log]
    | succ index =>
      rw [Relation.map_origin_joinTracked] at ih
      simpa [Dispatch.logs] using ih declared

end Loads

def Statement.Counted (s : Statement) (column text count : String) : Prop :=
  ∃ table body, s.requireTable = .ok table ∧ s.bodySql = .ok body ∧
    text = "SELECT " ++ s.projectionSql table ++ " FROM " ++ body ++ s.orderSql ++ s.pagingSql ∧
    count = "SELECT COUNT(*) AS " ++ s.dialect.quote column ++ " FROM " ++ body

theorem Statement.exists_counted {s : Statement} {text : String} (h : s.sql = .ok text)
    (column : String) : ∃ count, s.countSql column = .ok count ∧ s.Counted column text count := by
  obtain ⟨table, required, h⟩ := Outcome.exists_of_bind h
  obtain ⟨body, source, h⟩ := Outcome.exists_of_bind h
  cases h
  refine ⟨_, ?_, table, body, required, source, rfl, rfl⟩
  rw [countSql, source]
  rfl

/-- What is sent by a query with its text, `lead` being what was sent before, and what that comes
to. -/
inductive Query.Journal (driver : Driver) (see : Tracked → Row) (q : Query)
    (relations : List Relation) (lead : List String) (text : String) :
    Except Error (List Tracked) → List String → Prop
  | refused {cause : DriverError} (refuses : driver lead text = .error cause) :
    Journal driver see q relations lead text (.error (.refused cause text)) (lead ++ [text])
  | answered {answer : List Row} {dispatches : List Dispatch}
    {outcome : Except Error (List Tracked)} (answers : driver lead text = .ok answer)
    (loads : Loads driver see (q.config.maxDepth - q.depth) q relations
      (answer.map Tracked.answered) (lead ++ [text]) dispatches outcome) :
    Journal driver see q relations lead text outcome (lead ++ text :: Dispatch.logs dispatches)

namespace Query

variable {driver : Driver} {q : Query}

theorem exists_journal (driver : Driver) {assembly : Assembly} {text : String}
    (compiled : q.compile = .ok assembly) (written : assembly.statement.sql = .ok text)
    (lead : List String) : ∃ outcome sent,
      Journal driver Tracked.row q q.relations lead text outcome sent ∧
      (q.loadUsing driver (fetchWithin driver (q.config.maxDepth - q.depth)) assembly).exec lead =
        (outcome.map (List.map Tracked.row), sent) := by
  unfold loadUsing
  rw [written, Load.ofExcept_ok_bind, Load.exec_bind, Load.exec_ask,
    ← relations_of_compile compiled]
  cases answers : driver lead text with
  | error cause => exact ⟨.error _, _, .refused answers, rfl⟩
  | ok answer =>
    obtain ⟨dispatches, outcome, loads, run⟩ := Loads.recorded driver
      (q.config.maxDepth - q.depth) q q.relations (answer.map Tracked.answered) (lead ++ [text])
    rw [Tracked.map_row_answered, List.append_assoc, List.singleton_append] at run
    exact ⟨outcome, _, .answered answers loads, run⟩

theorem Journal.by_origin {lead : List String} {text : String}
    {outcome : Except Error (List Tracked)} {sent : List String}
    (h : Journal driver Tracked.row q q.relations lead text outcome sent)
    (apart : ∀ inner ∈ q.loaded, inner.SiblingsApart) :
    Journal driver Tracked.origin q q.relations lead text outcome sent := by
  cases h with
  | refused refuses => exact .refused refuses
  | answered answers loads => exact .answered answers (loads.by_origin (.answered _ apart))

theorem Journal.length_le {see : Tracked → Row} {lead : List String} {text : String}
    {outcome : Except Error (List Tracked)} {sent : List String}
    (h : Journal driver see q q.relations lead text outcome sent) :
    sent.length ≤ lead.length + 1 + (q.loaded.flatMap relations).length := by
  cases h with
  | refused => simp
  | answered answers loads =>
    have below := loads.length_logs_le
    rw [Relation.length_flatMap_tree] at below
    rw [List.length_append, List.length_cons, loaded]
    omega

theorem exec_countRows (driver : Driver) {assembly : Assembly} {count : String}
    (written : assembly.statement.countSql (q.config.hiddenColumn "total") = .ok count)
    (sent : List String) :
    (∃ cause, driver sent count = .error cause ∧ (q.countRows driver assembly).exec sent =
        (.error (.refused cause count), sent ++ [count])) ∨
      ∃ total, (q.countRows driver assembly).exec sent = (.ok total, sent ++ [count]) := by
  unfold countRows
  dsimp only
  rw [written, Load.ofExcept_ok_bind, Load.exec_bind, Load.exec_ask]
  cases answers : driver sent count with
  | error cause => exact .inl ⟨cause, rfl, rfl⟩
  | ok rows => exact .inr ⟨_, rfl⟩

theorem exists_journal_of_run (driver : Driver) {assembly : Assembly} {text count : String}
    (compiled : q.compile = .ok assembly) (written : assembly.statement.sql = .ok text)
    (counts : assembly.statement.countSql (q.config.hiddenColumn "total") = .ok count) :
    (∃ cause, q.wantsTotal = true ∧ driver [] count = .error cause ∧
        (q.run driver).exec [] = (.error (.refused cause count), [count])) ∨
      ∃ outcome sent total,
        Journal driver Tracked.row q q.relations (if q.wantsTotal then [count] else []) text
          outcome sent ∧
        (q.run driver).exec [] =
          (outcome.map fun rows => (rows.map Tracked.row, total), sent) := by
  unfold run
  rw [compiled, Load.ofExcept_ok_bind]
  have rest (total : Option Nat) (lead : List String) : ∃ outcome sent,
      Journal driver Tracked.row q q.relations lead text outcome sent ∧
        (do
          let rows ← q.loadUsing driver (fetchWithin driver (q.config.maxDepth - q.depth)) assembly
          return (rows, total) : Load (List Row × Option Nat)).exec lead =
        (outcome.map fun rows => (rows.map Tracked.row, total), sent) := by
    obtain ⟨outcome, sent, journal, run⟩ := exists_journal driver compiled written lead
    refine ⟨outcome, sent, journal, ?_⟩
    rw [Load.exec_bind, run]
    cases outcome <;> rfl
  dsimp only
  cases wants : q.wantsTotal with
  | false =>
    obtain ⟨outcome, sent, journal, run⟩ := rest none []
    exact .inr ⟨outcome, sent, none, journal, run⟩
  | true =>
    simp only [↓reduceIte]
    rw [Load.exec_bind, Load.exec_map]
    rcases exec_countRows driver counts [] with ⟨cause, refuses, count⟩ | ⟨total, count⟩
    · rw [count]
      exact .inl ⟨cause, trivial, refuses, rfl⟩
    · rw [count]
      obtain ⟨outcome, sent, journal, run⟩ := rest (some total) [_]
      exact .inr ⟨outcome, sent, some total, journal, run⟩

theorem length_log_le {assembly : Assembly} {text : String} (compiled : q.compile = .ok assembly)
    (written : assembly.statement.sql = .ok text) :
    (q.get driver).2.length ≤ (q.loaded.flatMap relations).length + 2 := by
  have log : (q.get driver).2 = ((q.run driver).exec []).2 := by
    unfold get
    rcases (q.run driver).exec [] with ⟨_, _⟩
    rfl
  obtain ⟨count, counts, _⟩ := Statement.exists_counted written (q.config.hiddenColumn "total")
  rw [log]
  rcases exists_journal_of_run driver compiled written counts with
    ⟨cause, _, _, run⟩ | ⟨outcome, sent, total, journal, run⟩
  · rw [run]
    simp
  · rw [run]
    have lead : (if q.wantsTotal then [count] else []).length ≤ 1 := by
      split <;> simp
    have := journal.length_le
    dsimp only
    omega

/-- Nothing is sent by a query whose text cannot be written. Else the count comes first if it was
asked for, then the text, and then for each relation in turn, while rows are found that have a key
for it, one fetch and behind it what its own relations send. Keys are read from the rows as they are
at the time: as they were returned, where labels hide none of them, and whether a row has a key is
left alone by a label exactly where it hides none. -/
theorem log_of_get (config : Config) (calls : List Step) (driver : Driver) :
    let q := built config calls
    let declared := calls.filterMap Step.relation?
    (∀ error, q.sql = .error error → q.get driver = (.error error, [])) ∧
    (∀ text, q.sql = .ok text → ∃ assembly count, q.compile = .ok assembly ∧
      assembly.statement.Counted (config.hiddenColumn "total") text count ∧
      ((∃ cause, calls.any Step.counts = true ∧ driver [] count = .error cause ∧
          q.get driver = (.error (.refused cause count), [count])) ∨
        ∃ lead outcome sent total, lead = (if calls.any Step.counts then [count] else []) ∧
          q.get driver =
            (outcome.map fun rows => Result.ofRows config (rows.map Tracked.row) total, sent) ∧
          Journal driver Tracked.row q declared lead text outcome sent ∧
          ((∀ inner ∈ q.loaded, inner.SiblingsApart) →
            Journal driver Tracked.origin q declared lead text outcome sent))) ∧
    (∀ levels q relations rows sent dispatches outcome,
      Loads driver Tracked.origin levels q relations rows sent dispatches outcome →
      ∀ index relation, relations[index]? = some relation →
        ((¬∃ sql below, dispatches[index]? = some (.fetch sql below)) ↔
          Relation.Keyless q.config relation (rows.map Tracked.origin) ∨
            ∃ error, outcome = .error error ∧
              Dispatch.logs dispatches = Dispatch.logs (dispatches.take index))) ∧
    (q.get driver).2.length ≤ (q.loaded.flatMap relations).length + 2 ∧
    ∀ (names : List KeyName) (relation : Relation),
      KeyName.Spares names relation.label ↔ ∀ rows fetched,
        (relation.joinRows config rows fetched).map
            (fun row => (Relation.keyText? names row).isSome) =
          rows.map fun row => (Relation.keyText? names row).isSome := by
  intro q declared
  have configured : q.config = config := (grounded_built config calls).configured
  have wants : q.wantsTotal = calls.any Step.counts := wantsTotal_built config calls
  have unwritten (error : Error) (h : q.sql = .error error) :
      q.get driver = (.error error, []) := get_error_iff.2 (exec_run_of_sql_error driver h)
  refine ⟨unwritten, ?_, ?_, ?_, fun names relation => Relation.spares_iff_isSome_keyText⟩
  · intro text written
    obtain ⟨assembly, compiled, written⟩ := Outcome.exists_of_bind written
    have relations : q.relations = declared := relations_built compiled
    obtain ⟨count, counts, counted⟩ :=
      Statement.exists_counted written (q.config.hiddenColumn "total")
    refine ⟨assembly, count, compiled, configured ▸ counted, ?_⟩
    rw [← wants, ← relations, ← configured]
    rcases exists_journal_of_run driver compiled written counts with
      ⟨cause, asked, refuses, run⟩ | ⟨outcome, sent, total, journal, run⟩
    · exact .inl ⟨cause, asked, refuses, get_error_iff.2 run⟩
    · refine .inr ⟨_, outcome, sent, total, rfl, ?_, journal, journal.by_origin⟩
      unfold get
      rw [run]
      cases outcome <;> rfl
  · intro levels q relations rows sent dispatches outcome loads index relation declared
    exact loads.silent_iff declared
  · cases written : q.sql with
    | error error =>
      rw [unwritten error written]
      exact Nat.zero_le _
    | ok text =>
      obtain ⟨assembly, compiled, written⟩ := Outcome.exists_of_bind written
      exact length_log_le compiled written

theorem orderly_log_of_get :
    let text := "SELECT \"users\".* FROM \"users\""
    let declared := orderlyCalls.filterMap Step.relation?
    (built {} []).get oneUser = (.error (.compile .noTable), []) ∧
      orderly.sql = .ok text ∧ (∀ q ∈ orderly.loaded, q.SiblingsApart) ∧
      (∃ (answer : List Row) (dispatches : List Dispatch) (outcome : Except Error (List Tracked)),
        (orderly.get oneUser).2 = text :: Dispatch.logs dispatches ∧
        Loads oneUser Tracked.origin (orderly.config.maxDepth - orderly.depth) orderly declared
          (answer.map Tracked.answered) [text] dispatches outcome ∧
        ∀ index relation, declared[index]? = some relation →
          ((¬∃ sql below, dispatches[index]? = some (.fetch sql below)) ↔
            Relation.Keyless orderly.config relation
                ((answer.map Tracked.answered).map Tracked.origin) ∨
              ∃ error, outcome = .error error ∧
                Dispatch.logs dispatches = Dispatch.logs (dispatches.take index))) ∧
      (orderly.get oneUser).2 = [text,
        "SELECT \"orders\".* FROM \"orders\" WHERE \"orders\".\"user_id\" IN ('u1')",
        "SELECT \"payments\".* FROM \"payments\" WHERE \"payments\".\"user_id\" IN ('u1')"] ∧
      (orderly.get oneUser).2.length ≤ (orderly.loaded.flatMap relations).length + 2 := by
  intro text declared
  have written : orderly.sql = .ok text := by decide +kernel
  have apart : ∀ q ∈ orderly.loaded, q.SiblingsApart := by decide +kernel
  have law := log_of_get {} orderlyCalls oneUser
  refine ⟨(log_of_get {} [] oneUser).1 _ rfl, written, apart, ?_, ?_, law.2.2.2.1⟩
  · obtain ⟨_, _, _, _, ⟨_, asked, _⟩ | ⟨lead, outcome, sent, total, first, run, _, journal⟩⟩ :=
      law.2.1 text written
    · exact absurd asked (by decide)
    · have log : (orderly.get oneUser).2 = sent := congrArg Prod.snd run
      obtain rfl : lead = [] := first
      rw [log]
      cases journal apart with
      | refused refuses => cases refuses
      | answered answers loads => exact ⟨_, _, outcome, rfl, loads, law.2.2.1 _ _ _ _ _ _ _ loads⟩
  · unfold get run loadUsing
    simp only [Relation.attach_eq_ite, Relation.distinctKeys_eq]
    decide +kernel

def nullUser : Driver := fun _ sql => .ok <|
  if sql = "SELECT \"users\".* FROM \"users\"" then [[("id", .null)]] else []

theorem clashing_log_of_nullUser :
    clashing.relations.map Relation.label = ["id", "payments"] ∧
      (∀ relation ∈ clashing.relations,
        Relation.Keyless clashing.config relation [[("id", .null)]]) ∧
      (clashing.get nullUser).2 = ["SELECT \"users\".* FROM \"users\"",
        "SELECT \"payments\".* FROM \"payments\" WHERE \"payments\".\"user_id\" IN ('[]')"] := by
  refine ⟨by decide +kernel, by decide +kernel, ?_⟩
  unfold get run loadUsing
  simp only [Relation.attach_eq_ite, Relation.distinctKeys_eq]
  decide +kernel

end Query

end RelationQuery
