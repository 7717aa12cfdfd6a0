import RelationQuery.Proofs.Origin
import RelationQuery.Proofs.Statement

/-! Which errors come before any statement is sent. Main statement: a run fails with nothing sent
exactly when the statement of the query cannot be written; what is wrong with the relations below
it comes out later, once rows have been fetched. -/
namespace RelationQuery

def Relation.faultsUsing (below? : Option (Query → List Error)) (config : Config) (depth : Nat)
    (relation : Relation) : List Error :=
  match below?, relation.related config depth with
  | none, _ => [.tooDeep config.maxDepth]
  | some _, .error error => [error]
  | some below, .ok child => below child

namespace Query

def faultsWithin : Nat → Option (Query → List Error)
  | 0 => none
  | levels + 1 => some fun q =>
    match q.sql with
    | .error error => [error]
    | .ok _ => q.relations.flatMap (Relation.faultsUsing (faultsWithin levels) q.config q.depth)

/-- What is wrong with the tree of relations below a query, in the order it is met. -/
def faults (q : Query) : List Error :=
  q.relations.flatMap
    (Relation.faultsUsing (faultsWithin (q.config.maxDepth - q.depth)) q.config q.depth)

theorem sql_of_compile {q : Query} {assembly : Assembly} (h : q.compile = .ok assembly) :
    q.sql = assembly.statement.sql := by
  unfold sql
  rw [h]
  rfl

theorem sql_of_compile_error {q : Query} {error : Error} (h : q.compile = .error error) :
    q.sql = .error error := by
  unfold sql
  rw [h]
  rfl

end Query

theorem Query.sql_follow {q : Query} {assembly : Assembly} {lead : Clause Place}
    (compiled : q.compile = .ok assembly) (settled : lead.Settled) :
    (∃ error, q.sql = .error error ∧ (assembly.statement.follow lead).sql = .error error) ∨
      ∃ text other, q.sql = .ok text ∧ (assembly.statement.follow lead).sql = .ok other := by
  rw [Query.sql_of_compile compiled]
  have ready := Statement.ready_follow settled assembly.statement
  cases plain : assembly.statement.sql with
  | error error =>
    rw [Statement.sql_error_iff, ← ready, ← Statement.sql_error_iff] at plain
    exact .inl ⟨error, rfl, plain⟩
  | ok text =>
    have written := (Statement.exists_sql_iff _).1 ⟨text, plain⟩
    rw [← ready, ← Statement.exists_sql_iff] at written
    obtain ⟨other, written⟩ := written
    exact .inr ⟨text, other, rfl, written⟩

namespace Load

/-- The errors a run may end in once it has sent something: refusals and the listed ones. -/
def FailsAmong (errors : List Error) (error : Error) (sent : List String) : Prop :=
  sent ≠ [] ∧ (error.stage = .run ∨ error ∈ errors)

theorem FailsAmong.mono {errors more : List Error} (h : ∀ error ∈ errors, error ∈ more)
    {error : Error} {sent : List String} (fails : FailsAmong errors error sent) :
    FailsAmong more error sent :=
  ⟨fails.1, fails.2.imp_right (h error)⟩

theorem triple_ask_sent (driver : Driver) (sql : String) (errors : List Error)
    {pre : List String → Prop} :
    Triple pre (ask driver sql) (fun _ sent => sent ≠ []) (FailsAmong errors) :=
  Triple.ask (by simp) fun sent cause _ _ => ⟨by simp, .inl rfl⟩

end Load

namespace Relation

open Load (Triple FailsAmong)

theorem triple_attach {fetch? : Option (Fetch (List Row))} {config : Config} {depth : Nat}
    {relation : Relation} {errors : List Error} (rows : List Row)
    (h : ∀ keys, Triple (· ≠ []) (relation.fetchRelated fetch? config depth keys)
      (fun _ sent => sent ≠ []) (FailsAmong errors)) :
    Triple (· ≠ []) (attach fetch? config depth rows relation) (fun _ sent => sent ≠ [])
      (FailsAmong errors) := by
  unfold attach
  dsimp only
  split
  · exact Triple.pure fun _ h => h
  · exact (h _).bind fun fetched => Triple.pure fun _ h => h

end Relation

namespace Query

open Load (Triple FailsAmong)

variable (driver : Driver)

theorem triple_loadUsing {fetch? : Option (Fetch (List Row))}
    {below? : Option (Query → List Error)} {q : Query} {text : String} (assembly : Assembly)
    (relations : q.relations = assembly.relations) (written : assembly.statement.sql = .ok text)
    (h : ∀ relation keys, Triple (· ≠ [])
      (Relation.fetchRelated fetch? q.config q.depth keys relation) (fun _ sent => sent ≠ [])
      (FailsAmong (relation.faultsUsing below? q.config q.depth))) :
    Triple (fun _ => True) (q.loadUsing driver fetch? assembly) (fun _ sent => sent ≠ [])
      (FailsAmong (q.relations.flatMap (Relation.faultsUsing below? q.config q.depth))) := by
  unfold loadUsing
  rw [written, Load.ofExcept_ok_bind, relations]
  refine (Load.triple_ask_sent driver text _).bind fun rows => ?_
  apply Triple.foldlM (fun _ _ sent => sent ≠ []) fun _ h => h
  intro done relation rest state split
  apply (Relation.triple_attach state (h relation)).weaken (fun _ h => h) fun _ _ h => h
  intro error sent fails
  apply fails.mono
  intro error fault
  exact List.mem_flatMap.2 ⟨relation, by simp [split], fault⟩

theorem triple_loadUsing_follow {fetch? : Option (Fetch (List Row))}
    {below? : Option (Query → List Error)} {q : Query} {assembly : Assembly} {lead : Clause Place}
    (compiled : q.compile = .ok assembly) (settled : lead.Settled)
    (h : ∀ relation keys, Triple (· ≠ [])
      (Relation.fetchRelated fetch? q.config q.depth keys relation) (fun _ sent => sent ≠ [])
      (FailsAmong (relation.faultsUsing below? q.config q.depth))) :
    Triple (· ≠ [])
      (q.loadUsing driver fetch? { assembly with statement := assembly.statement.follow lead })
      (fun _ sent => sent ≠ [])
      (FailsAmong (match q.sql with
        | .error error => [error]
        | .ok _ => q.relations.flatMap (Relation.faultsUsing below? q.config q.depth))) := by
  rcases sql_follow compiled settled with ⟨error, plain, written⟩ | ⟨_, text, plain, written⟩
  · unfold loadUsing
    rw [plain, written]
    exact Triple.throw fun sent h => ⟨h, .inr List.mem_cons_self⟩
  · rw [plain]
    have relations := relations_of_compile compiled
    have below := triple_loadUsing driver
      { assembly with statement := assembly.statement.follow lead } relations written h
    exact below.weaken (fun _ _ => True.intro) (fun _ _ h => h) fun _ _ h => h

/-- Level by level, a fetch fails as the relation it is for is at fault. -/
theorem triple_fetchRelated (levels : Nat) (config : Config) (depth : Nat) (relation : Relation)
    (keys : List (List Value)) :
    Triple (· ≠ []) (relation.fetchRelated (fetchWithin driver levels) config depth keys)
      (fun _ sent => sent ≠ [])
      (FailsAmong (relation.faultsUsing (faultsWithin levels) config depth)) := by
  induction levels generalizing config depth relation keys with
  | zero => exact Triple.throw fun sent h => ⟨h, .inr List.mem_cons_self⟩
  | succ levels ih =>
    unfold Relation.fetchRelated Relation.faultsUsing faultsWithin fetchWithin
    dsimp only
    cases related : relation.related config depth with
    | error error => exact Triple.throw fun sent h => ⟨h, .inr List.mem_cons_self⟩
    | ok child =>
      simp only [Load.ofExcept_ok_bind]
      cases compiled : child.compile with
      | error error =>
        rw [sql_of_compile_error compiled]
        exact Triple.throw fun sent h => ⟨h, .inr List.mem_cons_self⟩
      | ok assembly =>
        exact triple_loadUsing_follow driver compiled (Relation.settled_keyFilter _ keys)
          (ih child.config child.depth)

theorem triple_countRows {q : Query} {assembly : Assembly} {text : String}
    (written : assembly.statement.sql = .ok text) (errors : List Error) :
    Triple (fun _ => True) (q.countRows driver assembly) (fun _ sent => sent ≠ [])
      (FailsAmong errors) := by
  unfold countRows
  dsimp only
  obtain ⟨text, count⟩ := Statement.exists_countSql written (q.config.hiddenColumn "total")
  rw [count, Load.ofExcept_ok_bind]
  exact (Load.triple_ask_sent driver text errors).bind fun rows => Triple.pure fun _ h => h

theorem triple_run {q : Query} {text : String} (h : q.sql = .ok text) :
    Triple (fun _ => True) (q.run driver) (fun _ sent => sent ≠ []) (FailsAmong q.faults) := by
  unfold run
  cases compiled : q.compile with
  | error error =>
    rw [sql_of_compile_error compiled] at h
    cases h
  | ok assembly =>
    rw [sql_of_compile compiled] at h
    rw [Load.ofExcept_ok_bind]
    have rest (total : Option Nat) : Triple (fun _ => True)
        (do
          let rows ← q.loadUsing driver (fetchWithin driver (q.config.maxDepth - q.depth)) assembly
          return (rows, total))
        (fun _ sent => sent ≠ []) (FailsAmong q.faults) :=
      (triple_loadUsing driver assembly (relations_of_compile compiled) h
        (triple_fetchRelated driver _ q.config q.depth)).bind fun rows => Triple.pure fun _ h => h
    dsimp only
    split
    · have count : Triple (fun _ => True) (some <$> q.countRows driver assembly)
          (fun _ _ => True) (FailsAmong q.faults) :=
        ((triple_countRows driver h _).weaken (fun _ h => h) (fun _ _ _ => True.intro)
          fun _ _ h => h).map
      exact count.bind rest
    · exact rest none

theorem exec_run_of_sql_error {q : Query} {error : Error} (h : q.sql = .error error) :
    (q.run driver).exec [] = (.error error, []) := by
  unfold run
  cases compiled : q.compile with
  | error other =>
    rw [sql_of_compile_error compiled] at h
    cases h
    rfl
  | ok assembly =>
    rw [sql_of_compile compiled] at h
    rw [Load.ofExcept_ok_bind]
    cases q.wantsTotal with
    | true =>
      simp only [if_true, countRows, Statement.countSql_error h]
      rfl
    | false =>
      simp only [Bool.false_eq_true, if_false, loadUsing, h]
      rfl

end Query

def Relation.keysUsing (below? : Option (Query → List KeyName)) (config : Config) (depth : Nat)
    (relation : Relation) : List KeyName :=
  relation.ownNames config ++
    match below?, relation.related config depth with
    | some below, .ok child => below child
    | _, _ => []

namespace Query

def keysWithin : Nat → Option (Query → List KeyName)
  | 0 => none
  | levels + 1 => some fun q =>
    q.relations.flatMap (Relation.keysUsing (keysWithin levels) q.config q.depth)

def keys (q : Query) : List KeyName :=
  q.relations.flatMap
    (Relation.keysUsing (keysWithin (q.config.maxDepth - q.depth)) q.config q.depth)

end Query

def Driver.constant (row : Row) : Driver := fun _ _ => .ok [row]

namespace Relation

open Load (Triple)

theorem map_origin_joinOrigins {config : Config} {relation : Relation}
    (rows fetched : List Tracked) :
    (relation.joinOrigins config rows fetched).map Tracked.origin = rows.map Tracked.origin := by
  simp [joinOrigins, Function.comp_def]

theorem triple_attachByOrigin {tracked? : Option (Fetch (List Tracked))} {config : Config}
    {depth : Nat} {relation : Relation} {errors : List Error} {row : Row} {rows : List Tracked}
    (origins : rows.map Tracked.origin = [row])
    (complete : KeyName.Complete (relation.ownNames config) row)
    (h : ∀ keys, Triple (fun _ => True) (relation.fetchRelated tracked? config depth keys)
      (fun _ _ => errors = []) (fun error _ => errors.head? = some error)) :
    Triple (fun _ => True) (attachByOrigin tracked? config depth rows relation)
      (fun stored _ => errors = [] ∧ stored.map Tracked.origin = [row])
      (fun error _ => errors.head? = some error) := by
  unfold attachByOrigin
  have keyed : distinctKeys (relation.ownNames config) (rows.map Tracked.origin) ≠ [] := by
    rw [origins, distinctKeys_eq, List.filterMap_cons, KeyName.readAll_of_complete complete]
    simp [List.eraseDupsBy_cons]
  simp only [List.isEmpty_iff, keyed, if_false]
  refine (h _).bind fun fetched => Triple.pure fun _ sound => ⟨sound, ?_⟩
  rw [map_origin_joinOrigins, origins]

end Relation

namespace Query

open Load (Triple)

variable {row : Row}

theorem triple_ask_constant (row : Row) (sql : String) {fail : Error → List String → Prop} :
    Triple (fun _ => True) (Load.ask (.constant row) sql) (fun rows _ => rows = [row]) fail :=
  Triple.ask (fun _ _ _ answer => (Except.ok.inj answer).symm) nofun

theorem triple_loadByOrigin {tracked? : Option (Fetch (List Tracked))}
    {below? : Option (Query → List Error)} {q : Query} {text : String} (assembly : Assembly)
    (relations : q.relations = assembly.relations) (written : assembly.statement.sql = .ok text)
    (complete : ∀ relation ∈ q.relations, KeyName.Complete (relation.ownNames q.config) row)
    (h : ∀ relation ∈ q.relations, ∀ keys,
      Triple (fun _ => True) (Relation.fetchRelated tracked? q.config q.depth keys relation)
        (fun _ _ => relation.faultsUsing below? q.config q.depth = [])
        (fun error _ => (relation.faultsUsing below? q.config q.depth).head? = some error)) :
    Triple (fun _ => True) (q.loadByOrigin (.constant row) tracked? assembly)
      (fun _ _ => q.relations.flatMap (Relation.faultsUsing below? q.config q.depth) = [])
      (fun error _ => (q.relations.flatMap
        (Relation.faultsUsing below? q.config q.depth)).head? = some error) := by
  unfold loadByOrigin
  rw [written, Load.ofExcept_ok_bind, ← relations]
  refine (triple_ask_constant row text).bind fun rows => ?_
  refine (Triple.foldlM (fun done stored _ =>
    done.flatMap (Relation.faultsUsing below? q.config q.depth) = [] ∧
      stored.map Tracked.origin = [row]) ?_ ?_).weaken (fun _ h => h) (fun _ _ h => h.1)
        fun _ _ h => h
  · rintro _ rfl
    exact ⟨rfl, rfl⟩
  · intro done relation rest stored split
    refine Triple.assume fun held => ?_
    have member : relation ∈ q.relations := by simp [split]
    have one := Relation.triple_attachByOrigin held.2 (complete relation member)
      (h relation member)
    refine one.weaken (fun _ h => h) ?_ ?_
    · intro stored _ found
      simpa [held.1] using found
    · intro error _ found
      rw [split, List.flatMap_append, held.1, List.flatMap_cons, List.nil_append,
        List.head?_append, found]
      rfl

theorem triple_fetchByOrigin (levels : Nat) {config : Config} {depth : Nat} {relation : Relation}
    (complete : KeyName.Complete (relation.keysUsing (keysWithin levels) config depth) row)
    (keys : List (List Value)) :
    Triple (fun _ => True)
      (relation.fetchRelated (fetchByOrigin (.constant row) levels) config depth keys)
      (fun _ _ => relation.faultsUsing (faultsWithin levels) config depth = [])
      (fun error _ =>
        (relation.faultsUsing (faultsWithin levels) config depth).head? = some error) := by
  induction levels generalizing config depth relation keys with
  | zero => exact Triple.throw fun _ _ => rfl
  | succ levels ih =>
    unfold Relation.keysUsing keysWithin at complete
    unfold Relation.fetchRelated Relation.faultsUsing faultsWithin fetchByOrigin
    dsimp only
    cases related : relation.related config depth with
    | error error => exact Triple.throw fun _ _ => rfl
    | ok child =>
      rw [related] at complete
      simp only [Load.ofExcept_ok_bind]
      cases compiled : child.compile with
      | error error =>
        rw [sql_of_compile_error compiled]
        exact Triple.throw fun _ _ => rfl
      | ok assembly =>
        rw [Load.ofExcept_ok_bind]
        rcases sql_follow compiled (Relation.settled_keyFilter relation.foreignColumns keys) with
          ⟨error, plain, written⟩ | ⟨_, text, plain, written⟩
        · unfold loadByOrigin
          rw [plain, written]
          exact Triple.throw fun _ _ => rfl
        · rw [plain]
          have relations := relations_of_compile compiled
          have covered : KeyName.Complete (child.relations.flatMap
              (Relation.keysUsing (keysWithin levels) child.config child.depth)) row :=
            fun name member => complete name (List.mem_append_right _ member)
          have own {inner : Relation} (member : inner ∈ child.relations) :
              KeyName.Complete
                (inner.keysUsing (keysWithin levels) child.config child.depth) row :=
            fun name read => covered name (List.mem_flatMap.2 ⟨inner, member, read⟩)
          exact triple_loadByOrigin
            { assembly with statement := assembly.statement.follow _ } relations written
            (fun inner member name read => own member name (List.mem_append_left _ read))
            fun inner member keys => ih (own member) keys

theorem triple_runByOrigin {q : Query} {text : String} (h : q.sql = .ok text)
    (complete : KeyName.Complete q.keys row) :
    Triple (fun _ => True) (q.runByOrigin (.constant row)) (fun _ _ => q.faults = [])
      (fun error _ => q.faults.head? = some error) := by
  unfold runByOrigin
  cases compiled : q.compile with
  | error error =>
    rw [sql_of_compile_error compiled] at h
    cases h
  | ok assembly =>
    rw [sql_of_compile compiled] at h
    rw [Load.ofExcept_ok_bind]
    have own {relation : Relation} (member : relation ∈ q.relations) : KeyName.Complete
        (relation.keysUsing (keysWithin (q.config.maxDepth - q.depth)) q.config q.depth) row :=
      fun name read => complete name (List.mem_flatMap.2 ⟨relation, member, read⟩)
    have rest (total : Option Nat) : Triple (fun _ => True)
        (do
          let rows ← q.loadByOrigin (.constant row)
            (fetchByOrigin (.constant row) (q.config.maxDepth - q.depth)) assembly
          return (rows.map Tracked.row, total))
        (fun _ _ => q.faults = []) (fun error _ => q.faults.head? = some error) :=
      (triple_loadByOrigin assembly (relations_of_compile compiled) h
        (fun relation member name read => own member name (List.mem_append_left _ read))
        fun relation member keys => triple_fetchByOrigin _ (own member) keys).bind
          fun rows => Triple.pure fun _ h => h
    dsimp only
    split
    · have count : Triple (fun _ => True) (some <$> q.countRows (.constant row) assembly)
          (fun _ _ => True) (fun error _ => q.faults.head? = some error) := by
        obtain ⟨text, written⟩ := Statement.exists_countSql h (q.config.hiddenColumn "total")
        unfold countRows
        dsimp only
        rw [written, Load.ofExcept_ok_bind]
        apply Triple.map
        exact (triple_ask_constant row text).bind fun rows => Triple.pure fun _ _ => True.intro
      exact count.bind rest
    · exact rest none

theorem get_error_iff {q : Query} {driver : Driver} {error : Error} {sent : List String} :
    q.get driver = (.error error, sent) ↔ (q.run driver).exec [] = (.error error, sent) := by
  unfold get
  rcases (q.run driver).exec [] with ⟨_ | _, _⟩ <;> simp [Except.map]

/-- A run fails with nothing sent exactly when the statement of the query cannot be written, which
the error then tells. Any other error that is no refusal lies in the relations below; and where no
label of them hides a key, the first such error does come out, after statements were sent. -/
theorem sent_of_get_error (q : Query) :
    (∀ driver error sent, q.get driver = (.error error, sent) →
      (sent = [] ↔ q.sql = .error error) ∧
        (error.stage = .run ∨ sent = [] ∨ error ∈ q.faults)) ∧
    (q.KeysApart (q.config.maxDepth - q.depth) → ∀ text, q.sql = .ok text →
      ∀ error ∈ q.faults.head?, ∃ driver sent,
        q.get driver = (.error error, sent) ∧ sent ≠ []) := by
  constructor
  · intro driver error sent failed
    rw [get_error_iff] at failed
    cases written : q.sql with
    | error other =>
      rw [exec_run_of_sql_error driver written] at failed
      cases failed
      simp
    | ok text =>
      obtain ⟨nonempty, among⟩ := (triple_run driver written).of_exec_error True.intro failed
      refine ⟨by simp [nonempty], ?_⟩
      exact among.imp_right .inr
  · intro apart text written error first
    let driver := Driver.constant (Key.ones (q.keys.map KeyName.hidden))
    have origins := triple_runByOrigin written (KeyName.complete_ones q.keys)
    rcases run : (q.run driver).exec [] with ⟨other | _, sent⟩
    · have started := (triple_run driver written).of_exec_error True.intro run
      rw [run_eq_runByOrigin driver apart] at run
      have same := origins.of_exec_error True.intro run
      obtain rfl : other = error := Option.some.inj (same.symm.trans first)
      rw [← run_eq_runByOrigin driver apart] at run
      exact ⟨driver, sent, get_error_iff.2 run, started.1⟩
    · rw [run_eq_runByOrigin driver apart] at run
      have sound := origins.of_exec True.intro run
      rw [sound] at first
      cases first

def misnarrowed : Query := built {} [
  .fromTable "users",
  .load .many {
    target := "orders", foreign := ["user_id"], own := ["id"]
    refinement := some [.filter .and "total ~" (.text "9")] }]

theorem misnarrowed_get :
    misnarrowed.get (.constant [("id", .text "u1")]) =
      (.error (.parameter (.unsupportedOperator "~")),
        ["SELECT \"users\".* FROM \"users\""]) ∧
    (Error.parameter (.unsupportedOperator "~")).stage = .declaration := by
  unfold get run loadUsing
  simp only [Relation.attach_eq_ite, Relation.distinctKeys_eq]
  exact ⟨rfl, rfl⟩

theorem misnarrowed_sent_of_get_error :
    misnarrowed.faults = [.parameter (.unsupportedOperator "~")] ∧
      ∃ driver sent,
        misnarrowed.get driver = (.error (.parameter (.unsupportedOperator "~")), sent) ∧
          sent ≠ [] := by
  have faults : misnarrowed.faults = [.parameter (.unsupportedOperator "~")] := by
    decide +kernel
  refine ⟨faults, (sent_of_get_error misnarrowed).2 (by decide +kernel)
    "SELECT \"users\".* FROM \"users\"" rfl _ ?_⟩
  rw [faults]
  rfl

end Query

end RelationQuery
