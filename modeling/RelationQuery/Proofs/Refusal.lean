import RelationQuery.Proofs.Failure
import RelationQuery.Proofs.Levels
import RelationQuery.Proofs.Triple

/-! Statements that a database refuses. Main statement: a run is told to have been refused exactly
when a statement was; that statement is the last one sent, and the error tells it along with what
the database said. -/
namespace RelationQuery

open Outcome

def Driver.Refuses (driver : Driver) (sent : List String) (index : Nat) (sql : String)
    (cause : DriverError) : Prop :=
  sent[index]? = some sql ∧ driver (sent.take index) sql = .error cause

/-! ### Refinements and the links that they are held by -/

/-- On whatever query below the given settings a refinement is run, its errors have the property. -/
def Refinement.Errs (P : Error → Prop) (config : Config) (steps : Refinement) : Prop :=
  ∀ table depth correlated, 1 ≤ depth → depth ≤ config.maxDepth →
    Fails P ((Query.below config table depth correlated).refine steps)

def Step.Errs (P : Error → Prop) (config : Config) (step : Step) : Prop :=
  ∀ nested, step.Narrows nested → nested.Errs P config

def Link.Errs (P : Error → Prop) (config : Config) (link : Link Refinement) : Prop :=
  ∀ steps ∈ link.refinement, steps.Errs P config ∧ ∀ step ∈ steps, step.Errs P config

variable {P : Error → Prop} {config : Config}

theorem Link.Errs.refine {link : Link Refinement} (h : link.Errs P config) (table : Table)
    {depth : Nat} (correlated : Bool) (inside : 1 ≤ depth) (room : depth ≤ config.maxDepth) :
    Fails P ((Query.below config table depth correlated).refine (link.refinement.getD [])) := by
  cases narrows : link.refinement with
  | none => exact .ok
  | some steps => exact (h steps narrows).1 table depth correlated inside room

theorem Link.Errs.step {link : Link Refinement} (h : link.Errs P config) :
    ∀ step ∈ link.refinement.getD [], step.Errs P config := by
  cases narrows : link.refinement with
  | none => exact nofun
  | some steps => exact (h steps narrows).2

inductive Step.Holds : Step → Link Refinement → Prop
  | edge {step : Step} {edge : Edge Refinement} {link : Link Refinement} (about : edge ∈ step.edge?)
    (checked : edge.link = .ok link) : Holds step link
  | attempt {step : Step} {link : Link Refinement} (holds : Holds step link) :
    Holds (.attempt step) link

theorem Step.Holds.errs {step : Step} {link : Link Refinement} (holds : step.Holds link)
    (h : step.Errs P config) : link.Errs P config := by
  induction holds with
  | edge about checked =>
    intro steps narrows
    rw [(Edge.link_spec checked).1] at narrows
    exact ⟨h steps (.here about narrows), fun inner member nested further =>
      h nested (.inside about narrows member further)⟩
  | attempt _ ih => exact ih fun nested narrows => h nested (.attempt narrows)

namespace Query

structure Linked (good : Link Refinement → Prop) (q : Query) : Prop where
  declared : ∀ declaration ∈ q.declarations, good declaration.link
  waiting : ∀ deferred ∈ q.deferrals, good deferred.existence.link

variable {good : Link Refinement → Prop} {subquery : SubqueryCompiler} {q after : Query}

theorem Linked.aggregate (h : q.Linked good) {aggregate : RelatedAggregate}
    (member : aggregate ∈ q.aggregates) : good aggregate.link := by
  obtain ⟨declaration, held, same⟩ := List.mem_filterMap.1 member
  cases declaration <;> cases same
  exact h.declared _ held

theorem Linked.of_mem_asks (h : q.Linked good) {ask : Ask} (member : ask ∈ q.asks) :
    good ask.1 := by
  obtain ⟨declaration, declared, asks⟩ := List.mem_filterMap.1 member
  exact Declaration.link_of_ask? asks ▸ h.declared declaration declared

theorem good_of_gives {step : Step} {scope : Except Error Scope}
    {aggregates : List RelatedAggregate} {fragment : Fragment}
    (gives : step.Gives subquery scope aggregates fragment)
    (own : ∀ link, step.Holds link → good link)
    (held : ∀ aggregate ∈ aggregates, good aggregate.link) :
    ∀ declaration, fragment = .declared declaration → good declaration.link := by
  induction gives with
  | load _ checked | aggregate _ _ _ checked | filterCount _ _ _ _ checked
  | filterExists _ _ checked =>
    rintro _ ⟨⟩
    exact own _ (.edge rfl checked)
  | filterAggregate _ _ _ _ member =>
    rintro _ ⟨⟩
    exact held _ member
  | attempt _ ih => exact ih fun link holds => own link (.attempt holds)
  | _ => rintro _ ⟨⟩

theorem holds_of_defers {step : Step} {existence : RelatedExistence}
    (defers : step.Defers existence) : step.Holds existence.link := by
  induction defers with
  | filterExists _ _ checked => exact .edge rfl checked
  | attempt _ ih => exact .attempt ih

theorem Linked.moves {step : Step} (h : q.Linked good) (own : ∀ link, step.Holds link → good link)
    (moves : q.Moves subquery step after) : after.Linked good := by
  cases moves with
  | @put fragment gives =>
    refine ⟨fun declaration member => ?_, by simpa using h.waiting⟩
    have new := good_of_gives gives own fun aggregate => h.aggregate
    cases fragment with
    | declared held =>
      rcases List.mem_append.1 member with old | here
      · exact h.declared declaration old
      · exact List.mem_singleton.1 here ▸ new held rfl
    | entry entry => cases entry <;> exact h.declared declaration member
    | _ => exact h.declared declaration member
  | defer defers =>
    refine ⟨h.declared, fun deferred member => ?_⟩
    rcases List.mem_append.1 member with old | here
    · exact h.waiting deferred old
    · obtain rfl := List.mem_singleton.1 here
      exact own _ (holds_of_defers defers)
  | fill => exact ⟨h.declared, h.waiting⟩
  | drop fewer => exact ⟨h.declared, fun deferred member => h.waiting deferred (fewer member)⟩

theorem Linked.applyUsing {step : Step} (h : q.Linked good)
    (own : ∀ link, step.Holds link → good link) : (q.applyUsing subquery step).1.Linked good :=
  of_moves (fun held moves => held.moves own moves) h

theorem Linked.foldl {steps : List Step} (h : q.Linked good)
    (own : ∀ step ∈ steps, ∀ link, step.Holds link → good link) :
    (steps.foldl (fun q step => (q.applyUsing subquery step).1) q).Linked good :=
  List.foldlRecOn steps _ h fun _ held step member => held.applyUsing (own step member)

/-! ### What can go wrong before anything is sent -/

structure Errs (P : Error → Prop) (config : Config) (depth : Nat) (correlated : Bool)
    (q : Query) : Prop where
  formed : q.WellFormed
  placed : q.Placed config depth correlated
  linked : q.Linked (Link.Errs P config)

theorem errs_of_refine {table : Table} {depth : Nat} {correlated : Bool} {link : Link Refinement}
    (errs : link.Errs P config)
    (ran : (below config table depth correlated).refine (link.refinement.getD []) = .ok after) :
    after.Errs P config depth correlated where
  formed := (WellFormed.below config table depth correlated).refineUsing ran
  placed := Placed.refineUsing ⟨rfl, rfl, rfl⟩ ran
  linked := by
    rw [eq_foldl_of_refineUsing ran]
    have bare : (below config table depth correlated).Linked (Link.Errs P config) :=
      ⟨fun _ => (nomatch ·), fun _ => (nomatch ·)⟩
    exact bare.foldl fun step member link holds => holds.errs (errs.step step member)

theorem Errs.exposeKeys {depth : Nat} {correlated : Bool} (h : q.Errs P config depth correlated)
    (other : Config) (relation : Relation) (columns : List String) :
    (relation.exposeKeys other columns q).Errs P config depth correlated := by
  unfold Relation.exposeKeys
  split
  · exact ⟨h.formed.of_eq rfl rfl rfl rfl rfl, ⟨h.placed.configured, h.placed.depth,
      h.placed.correlated⟩, ⟨h.linked.declared, h.linked.waiting⟩⟩
  · exact h

end Query

section Compilation

variable (checks : ∀ error : Error, error.isCheck → P error) (deep : ∀ limit, P (.tooDeep limit))
include checks

theorem Scope.fails_select (scope : Scope) (link : Link Refinement) (base : String)
    (s : Statement) : Fails P (scope.select link base s) := by
  have sourced := s.fails_source.imp checks
  have filtered := s.fails_filter.imp checks
  unfold Scope.select
  dsimp only
  split
  · exact .error (checks _ rfl)
  · exact sourced.bind fun _ _ => filtered.bind fun _ _ => .ok

include deep

theorem fails_compileSubquery {levels : Nat} {scope : Scope} (placed : scope.config = config)
    (left : config.maxDepth - scope.depth = levels) {link : Link Refinement}
    (errs : link.Errs P config) (base : String) : Fails P (compileSubquery scope link base) := by
  induction levels generalizing scope link base with
  | zero =>
    rw [compileSubquery_of_full (placed ▸ Nat.le_of_sub_eq_zero left)]
    exact .error (deep _)
  | succ levels ih =>
    have room : scope.depth < config.maxDepth := by omega
    rw [compileSubquery_of_room (placed ▸ room)]
    refine Fails.bind ?_ fun rows ran => ?_
    · unfold Scope.below
      rw [placed]
      exact errs.refine _ true (Nat.succ_pos _) room
    · unfold Scope.below at ran
      rw [placed] at ran
      have held := Query.errs_of_refine errs ran
      refine (Query.fails_assemble held.formed checks fun inner known ask member => ?_).bind
        fun assembly _ => scope.fails_select checks link base assembly.statement
      obtain ⟨configured, below⟩ := held.placed.scope known
      exact ih configured (by omega) (held.linked.of_mem_asks member) ask.2

theorem Query.Errs.fails_compile {depth : Nat} {correlated : Bool} {q : Query}
    (h : q.Errs P config depth correlated) : Fails P q.compile := by
  refine fails_assemble h.formed checks fun scope known ask member => ?_
  exact fails_compileSubquery checks deep (h.placed.scope known).1 rfl
    (h.linked.of_mem_asks member) ask.2

end Compilation

/-! ### Runs -/

def Driver.Answered (driver : Driver) (sent : List String) : Prop :=
  ∀ index sql cause, ¬driver.Refuses sent index sql cause

/-- The last statement sent was refused, and no other; the error tells which, and with what. -/
def Driver.RefusedLast (driver : Driver) (error : Error) (sent : List String) : Prop :=
  ∃ before sql cause, sent = before ++ [sql] ∧ driver.Answered before ∧
    driver before sql = .error cause ∧ error = .refused cause sql

namespace Driver

variable {driver : Driver} {before sent : List String} {sql : String}

theorem of_refuses_concat {index : Nat} {other : String} {cause : DriverError}
    (h : driver.Refuses (before ++ [sql]) index other cause) :
    driver.Refuses before index other cause ∨
      index = before.length ∧ other = sql ∧ driver before sql = .error cause := by
  obtain ⟨sent, refused⟩ := h
  rcases Nat.lt_trichotomy index before.length with earlier | rfl | later
  · rw [List.getElem?_append_left earlier] at sent
    rw [List.take_append_of_le_length (Nat.le_of_lt earlier)] at refused
    exact .inl ⟨sent, refused⟩
  · obtain rfl : sql = other := by simpa using sent
    rw [List.take_left] at refused
    exact .inr ⟨rfl, rfl, refused⟩
  · rw [List.getElem?_eq_none (by simpa using Nat.succ_le_of_lt later)] at sent
    cases sent

theorem Answered.concat (h : driver.Answered before) {rows : List Row}
    (answers : driver before sql = .ok rows) : driver.Answered (before ++ [sql]) := by
  intro index other cause refuses
  rcases of_refuses_concat refuses with earlier | ⟨-, -, refused⟩
  · exact h index other cause earlier
  · cases answers.symm.trans refused

end Driver

namespace Load

variable {α β : Type}

/-- While nothing is refused a load goes on: at its end everything has been answered, or the last
statement was refused, or something else went wrong. -/
def Faithful (driver : Driver) (P : Error → Prop) (load : Load α) : Prop :=
  Triple driver.Answered load (fun _ => driver.Answered) fun error sent =>
    P error ∧ driver.Answered sent ∨ driver.RefusedLast error sent

variable {driver : Driver} {load : Load α}

theorem Faithful.bind {next : α → Load β} (h : Faithful driver P load)
    (rest : ∀ a, Faithful driver P (next a)) : Faithful driver P (load >>= next) :=
  Triple.bind h rest

theorem Faithful.map {f : α → β} (h : Faithful driver P load) : Faithful driver P (f <$> load) :=
  Triple.map h

theorem Faithful.pure (a : α) : Faithful driver P (pure a) := Triple.pure fun _ h => h

theorem Faithful.throw {error : Error} (h : P error) :
    Faithful driver P (throw error : Load α) := Triple.throw fun _ answered => .inl ⟨h, answered⟩

theorem Faithful.bind_ofExcept {result : Except Error α} {next : α → Load β}
    (h : Fails P result) (rest : ∀ a, result = .ok a → Faithful driver P (next a)) :
    Faithful driver P (ofExcept result >>= next) := by
  cases result with
  | ok a => exact rest a rfl
  | error error => exact Triple.throw fun _ answered => .inl ⟨h error rfl, answered⟩

theorem Faithful.ask (sql : String) : Faithful driver P (ask driver sql) :=
  Triple.ask (fun _ _ answered answers => answered.concat answers)
    fun before cause answered refuses => .inr ⟨before, sql, cause, rfl, answered, refuses, rfl⟩

theorem Faithful.foldlM {items : List α} {step : β → α → Load β} (start : β)
    (h : ∀ item ∈ items, ∀ state, Faithful driver P (step state item)) :
    Faithful driver P (items.foldlM step start) := by
  induction items generalizing start with
  | nil => exact .pure start
  | cons item rest ih =>
    rw [List.foldlM_cons]
    exact (h item List.mem_cons_self start).bind fun next =>
      ih next fun later member => h later (List.mem_cons_of_mem _ member)

end Load

open Load

section Run

variable {driver : Driver} (checks : ∀ error : Error, error.isCheck → P error)
  (deep : ∀ limit, P (.tooDeep limit))

include deep in
theorem Relation.faithful_attach {depth levels : Nat} (left : config.maxDepth - depth = levels)
    {fetch? : Option (Fetch (List Row))} (fetches : ∀ fetch ∈ fetch?, 1 ≤ levels ∧
      ∀ lead q, q.Errs P config (depth + 1) false → Faithful driver P (fetch lead q))
    {relation : Relation} (errs : relation.link.Errs P config) (rows : List Row) :
    Faithful driver P (relation.attach fetch? config depth rows) := by
  unfold Relation.attach
  dsimp only
  split
  · exact .pure _
  · refine Faithful.bind ?_ fun _ => .pure _
    unfold fetchRelated
    cases fetch? with
    | none => exact .throw (deep _)
    | some fetch =>
      obtain ⟨room, faithful⟩ := fetches fetch rfl
      have refines : Fails P ((Query.below config relation.table (depth + 1) false).refine
          (relation.link.refinement.getD [])) :=
        errs.refine _ false (Nat.succ_pos _) (by omega)
      refine Faithful.bind_ofExcept (refines.bind fun _ _ => .ok) fun child related => ?_
      obtain ⟨rows, ran, related⟩ := Outcome.exists_of_bind related
      cases related
      exact faithful _ _ ((Query.errs_of_refine errs ran).exposeKeys _ _ _)

include checks deep

namespace Query

omit checks deep in
theorem relations_of_assemble {subquery : SubqueryCompiler} {q : Query} {assembly : Assembly}
    (h : q.assemble subquery = .ok assembly) :
    assembly.relations = q.picked Declaration.relation? := by
  obtain ⟨_, _, _, _, _, _, rfl⟩ := exists_of_assemble h
  rfl

theorem Errs.faithful_loadUsing {depth levels : Nat} (left : config.maxDepth - depth = levels)
    {fetch? : Option (Fetch (List Row))} (fetches : ∀ fetch ∈ fetch?, 1 ≤ levels ∧
      ∀ lead q, q.Errs P config (depth + 1) false → Faithful driver P (fetch lead q))
    {q : Query} (h : q.Errs P config depth false) {assembly : Assembly}
    (relations : assembly.relations = q.picked Declaration.relation?) :
    Faithful driver P (q.loadUsing driver fetch? assembly) := by
  unfold loadUsing
  rw [h.placed.configured, h.placed.depth]
  refine Faithful.bind_ofExcept (assembly.statement.fails_sql.imp checks) fun sql _ => ?_
  refine (Faithful.ask sql).bind fun rows => .foldlM rows fun relation member rows => ?_
  rw [relations] at member
  exact Relation.faithful_attach deep left fetches
    (sound_relation h.linked.declared relation member) rows

theorem faithful_fetchWithin {depth levels : Nat} (left : config.maxDepth - depth = levels) :
    ∀ fetch ∈ fetchWithin driver levels, 1 ≤ levels ∧
      ∀ lead q, q.Errs P config (depth + 1) false → Faithful driver P (fetch lead q) := by
  induction levels generalizing depth with
  | zero => exact nofun
  | succ levels ih =>
    rintro _ ⟨⟩
    refine ⟨Nat.succ_pos _, fun lead q h => ?_⟩
    refine Faithful.bind_ofExcept (h.fails_compile checks deep) fun assembly compiled => ?_
    have below : config.maxDepth - (depth + 1) = levels := by omega
    have relations := relations_of_assemble compiled
    exact h.faithful_loadUsing checks deep below (ih below) relations

theorem Errs.faithful_run {depth : Nat} {q : Query} (h : q.Errs P config depth false) :
    Faithful driver P (q.run driver) := by
  unfold run
  refine Faithful.bind_ofExcept (h.fails_compile checks deep) fun assembly compiled => ?_
  have rest (total : Option Nat) : Faithful driver P (do
      let rows ← q.loadUsing driver (fetchWithin driver (q.config.maxDepth - q.depth)) assembly
      return (rows, total)) := by
    rw [h.placed.configured, h.placed.depth]
    refine Faithful.bind ?_ fun rows => .pure _
    exact h.faithful_loadUsing checks deep rfl (faithful_fetchWithin checks deep rfl)
      (relations_of_assemble compiled)
  dsimp only
  split
  · refine Faithful.bind (Faithful.map ?_) rest
    refine Faithful.bind_ofExcept ((assembly.statement.fails_countSql _).imp checks) fun sql _ => ?_
    exact (Faithful.ask sql).bind fun _ => .pure _
  · exact rest none

end Query

end Run

namespace Query

theorem errs_built {calls : List Step} (errs : ∀ call ∈ calls, call.Errs P config) :
    (built config calls).Errs P config 0 false where
  formed := (WellFormed.empty config).foldl compileSubquery calls
  placed := List.foldlRecOn calls _ ⟨rfl, rfl, rfl⟩ fun _ held step _ => held.applyUsing step
  linked := by
    have bare : (empty config).Linked (Link.Errs P config) :=
      ⟨fun _ => (nomatch ·), fun _ => (nomatch ·)⟩
    exact bare.foldl fun step member link holds => holds.errs (errs step member)

/-- A run whose refinements err in certain ways errs so with everything answered, or was refused
its last statement, and no other. -/
theorem faithful_get {calls : List Step} (checks : ∀ error : Error, error.isCheck → P error)
    (deep : ∀ limit, P (.tooDeep limit)) (errs : ∀ call ∈ calls, call.Errs P config)
    (driver : Driver) :
    match (built config calls).get driver with
    | (.ok _, sent) => driver.Answered sent
    | (.error error, sent) => P error ∧ driver.Answered sent ∨ driver.RefusedLast error sent := by
  have bare : driver.Answered [] := fun _ _ _ refuses => nomatch refuses.1
  have ends := (errs_built errs).faithful_run checks deep [] bare
  unfold get
  rcases ran : ((built config calls).run driver).exec [] with ⟨_ | _, sent⟩
  · rwa [ran] at ends
  · rwa [ran] at ends

/-- Unless refinements bring in refusals of their own, a run is told to have been refused exactly
when one of its statements was. No matter which it was, the count, the first one or a fetch at any
depth: it is the last one sent, and the error tells its text and all the database said. -/
theorem refused_iff_refuses (config : Config) (calls : List Step) (driver : Driver)
    (honest : ∀ call ∈ calls, call.Errs (fun error => ∀ cause sql, error ≠ .refused cause sql)
      config) :
    ((∃ cause sql, ((built config calls).get driver).1 = .error (.refused cause sql)) ↔
      ∃ index sql cause, driver.Refuses ((built config calls).get driver).2 index sql cause) ∧
    ∀ index sql cause, driver.Refuses ((built config calls).get driver).2 index sql cause →
      index + 1 = ((built config calls).get driver).2.length ∧
        ((built config calls).get driver).1 = .error (.refused cause sql) := by
  have ends := faithful_get (by rintro _ check _ _ rfl; cases check) (by simp) honest driver
  rcases ran : (built config calls).get driver with ⟨error | result, sent⟩ <;> rw [ran] at ends
  · rcases ends with ⟨other, answered⟩ | ⟨before, last, told, rfl, answered, refused, rfl⟩
    · refine ⟨⟨?_, ?_⟩, ?_⟩
      · rintro ⟨cause, sql, ⟨⟩⟩
        exact absurd rfl (other cause sql)
      · rintro ⟨index, sql, cause, refuses⟩
        exact absurd refuses (answered index sql cause)
      · exact fun index sql cause refuses => absurd refuses (answered index sql cause)
    · refine ⟨⟨fun _ => ⟨before.length, last, told, ?_, ?_⟩, fun _ => ⟨told, last, rfl⟩⟩, ?_⟩
      · simp
      · rwa [List.take_left]
      · intro index sql cause refuses
        rcases Driver.of_refuses_concat refuses with earlier | ⟨rfl, rfl, again⟩
        · exact absurd earlier (answered index sql cause)
        · cases refused.symm.trans again
          exact ⟨by simp, rfl⟩
  · refine ⟨⟨nofun, ?_⟩, fun index sql cause refuses => absurd refuses (ends index sql cause)⟩
    rintro ⟨index, sql, cause, refuses⟩
    exact absurd refuses (ends index sql cause)

def largeOrderCalls : List Step := [
  .fromTable "users",
  .load .many {
    target := "orders", foreign := ["user_id"], own := ["id"]
    refinement := some [.filter .and "total >" (.text "9")] }]

def withoutOrders : Driver := fun sent _ =>
  if sent = [] then .ok [[("id", .text "u1")]]
  else .error { message := "no such table: orders", code := some "1" }

theorem largeOrderCalls_get :
    (built {} largeOrderCalls).get withoutOrders =
      (.error (.refused { message := "no such table: orders", code := some "1" }
          ("SELECT \"orders\".* FROM \"orders\" WHERE \"orders\".\"user_id\" IN ('u1') " ++
            "AND (\"total\" > '9')")),
        ["SELECT \"users\".* FROM \"users\"",
          "SELECT \"orders\".* FROM \"orders\" WHERE \"orders\".\"user_id\" IN ('u1') " ++
            "AND (\"total\" > '9')"]) := by
  unfold get run loadUsing
  simp only [Relation.attach_eq_ite, Relation.distinctKeys_eq]
  rfl

theorem largeOrderCalls_refused_iff_refuses :
    (∀ call ∈ largeOrderCalls,
      call.Errs (fun error => ∀ cause sql, error ≠ .refused cause sql) {}) ∧
    ∃ index sql cause,
      Driver.Refuses withoutOrders ((built {} largeOrderCalls).get withoutOrders).2 index sql
        cause := by
  have honest : ∀ call ∈ largeOrderCalls,
      call.Errs (fun error => ∀ cause sql, error ≠ .refused cause sql) {} := by
    refine List.forall_mem_cons.2 ⟨?_, List.forall_mem_singleton.2 ?_⟩
    · rintro _ (⟨⟨⟩, _⟩ | ⟨⟨⟩, _, _, _⟩)
    · rintro _ (⟨⟨⟩, ⟨⟩⟩ | ⟨⟨⟩, ⟨⟩, member, further⟩)
      · exact fun table depth correlated _ _ => .ok
      · obtain rfl := List.mem_singleton.1 member
        rcases further with ⟨⟨⟩, _⟩ | ⟨⟨⟩, _, _, _⟩
  refine ⟨honest, (refused_iff_refuses {} largeOrderCalls withoutOrders honest).1.1 ?_⟩
  rw [largeOrderCalls_get]
  exact ⟨_, _, rfl⟩

end Query

end RelationQuery
