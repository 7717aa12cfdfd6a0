import RelationQuery.Proofs.KeyValues
import RelationQuery.Proofs.Origin

/-! What is sent, character by character. Main statement: every statement is tokens from end to
end, and its literals are supplied values and keys as they were returned, unless a relation has
been stored where one after it reads its keys. -/
namespace RelationQuery

open Token

def Driver.Returned (driver : Driver) (sent : List String) (row : Row) : Prop :=
  ∃ before sql rows, before ++ [sql] <+: sent ∧ driver before sql = .ok rows ∧ row ∈ rows

theorem Driver.Returned.mono {driver : Driver} {sent later : List String} {row : Row}
    (h : driver.Returned sent row) (more : sent <+: later) : driver.Returned later row := by
  obtain ⟨before, sql, rows, found, answer, member⟩ := h
  exact ⟨before, sql, rows, found.trans more, answer, member⟩

namespace Query

def loadedWithin : Nat → Query → List Query
  | 0, q => [q]
  | levels + 1, q =>
    q :: q.relations.flatMap fun relation =>
      (relation.related q.config q.depth).toOption.toList.flatMap (loadedWithin levels)

def loaded (q : Query) : List Query := loadedWithin (q.config.maxDepth - q.depth) q

def KeyReturned (queries : List Query) (driver : Driver) (sent : List String) (value : Value) :
    Prop :=
  ∃ q ∈ queries, ∃ relation ∈ q.relations, ∃ name ∈ relation.ownNames q.config,
    ∃ row, driver.Returned sent row ∧ name.read row = some value

/-- What is stored for a relation under a label that one after it reads a key under. -/
def KeyStored (queries : List Query) (value : Value) : Prop :=
  ∃ q ∈ queries, ∃ earlier later, [earlier, later].Sublist q.relations ∧
    ¬KeyName.Spares (later.ownNames q.config) earlier.label ∧
      ∃ rows, value = Relation.gather earlier.cardinality rows

end Query

/-- What the statements of a run are held against. -/
structure Setting where
  config : Config
  supplied : Value → Prop
  queries : List Query
  driver : Driver

namespace Setting

variable (w : Setting)

def Allowed (sent : List String) (value : Value) : Prop :=
  w.supplied value ∨ Query.KeyReturned w.queries w.driver sent value ∨
    Query.KeyStored w.queries value

/-- Every statement that was sent is tokens from end to end, and its literals are of values that
were allowed at the time. -/
def Lexical (sent : List String) : Prop :=
  ∀ before sql, before ++ [sql] <+: sent →
    Safe w.config.dialect (LiteralOf (w.Allowed before)) sql

def Extends (start sent : List String) : Prop := start <+: sent ∧ w.Lexical sent

variable {w}

theorem Lexical.append {sent : List String} {sql : String} (h : w.Lexical sent)
    (next : Safe w.config.dialect (LiteralOf (w.Allowed sent)) sql) :
    w.Lexical (sent ++ [sql]) := by
  intro before text found
  rcases List.prefix_concat_iff.1 found with same | earlier
  · obtain ⟨rfl, last⟩ := List.append_inj' same rfl
    cases last
    exact next
  · exact h before text earlier

end Setting

namespace Relation

def Tracks (driver : Driver) (sent : List String) (stored : List Relation) (row : Row) : Prop :=
  ∃ origin, driver.Returned sent origin ∧ ∀ name,
    Fields.get? row name = Fields.get? origin name ∨
      ∃ value, (∃ relation ∈ stored, relation.label = name ∧
        ∃ rows, value = gather relation.cardinality rows) ∧ Fields.get? row name = some value

namespace Tracks

variable {driver : Driver} {sent : List String} {stored : List Relation} {row : Row}

theorem mono {later : List String} (h : Tracks driver sent stored row) (more : sent <+: later) :
    Tracks driver later stored row := by
  obtain ⟨origin, returned, fields⟩ := h
  exact ⟨origin, returned.mono more, fields⟩

theorem put (h : Tracks driver sent stored row) (relation : Relation) (rows : List Row) :
    Tracks driver sent (stored ++ [relation])
      (Fields.put relation.label (gather relation.cardinality rows) row) := by
  obtain ⟨origin, returned, fields⟩ := h
  refine ⟨origin, returned, fun name => ?_⟩
  by_cases here : relation.label = name
  · right
    refine ⟨_, ⟨relation, by simp, here, rows, rfl⟩, ?_⟩
    rw [← here, Fields.get?_put_self]
  · rw [Fields.get?_put_of_ne row _ here]
    rcases fields name with same | ⟨value, ⟨earlier, found, rest⟩, reads⟩
    · exact .inl same
    · exact .inr ⟨value, ⟨earlier, List.mem_append_left _ found, rest⟩, reads⟩

end Tracks

end Relation

namespace Query

open Load (Triple)

variable {w : Setting}

theorem allowed_of_mem_distinctKeys {q : Query} (loaded : q ∈ w.queries) {relation : Relation}
    {done rest : List Relation} (split : q.relations = done ++ relation :: rest)
    {sent : List String} {rows : List Row}
    (tracked : ∀ row ∈ rows, Relation.Tracks w.driver sent done row) {key : List Value}
    (member : key ∈ Relation.distinctKeys (relation.ownNames q.config) rows) :
    ∀ value ∈ key, w.Allowed sent value := by
  intro value part
  obtain ⟨row, found, all⟩ := Relation.exists_readAll_of_mem_distinctKeys member
  obtain ⟨origin, returned, fields⟩ := tracked row found
  rcases KeyName.exists_read_or fields all part with
    ⟨name, own, read⟩ | ⟨_, taken, earlier, before, rfl, rows, rfl⟩
  · exact .inr (.inl ⟨q, loaded, relation, by simp [split], name, own, origin, returned, read⟩)
  · refine .inr (.inr ⟨q, loaded, earlier, relation, ?_, taken, rows, rfl⟩)
    rw [split]
    exact (List.singleton_sublist.2 before).append (List.singleton_sublist.2 List.mem_cons_self)

theorem lexical_ask {sql : String} {start : List String}
    (clean : w.Lexical start)
    (safe : Safe w.config.dialect (LiteralOf (w.Allowed start)) sql) :
    Triple (· = start) (Load.ask w.driver sql)
      (fun rows sent => w.Extends start sent ∧
        ∀ row ∈ rows, w.driver.Returned sent row)
      fun _ => w.Lexical := by
  apply Triple.ask
  · rintro _ rows rfl answer
    refine ⟨⟨List.prefix_append _ _, clean.append safe⟩, fun row member => ?_⟩
    exact ⟨_, sql, rows, List.prefix_rfl, answer, member⟩
  · rintro _ cause rfl _
    exact clean.append safe

def FetchesLexically (w : Setting) (fetch? : Option (Fetch (List Row))) (q : Query) : Prop :=
  ∀ relation ∈ q.relations, ∀ start keys,
    w.Lexical start →
    (∀ key ∈ keys, ∀ value ∈ key, w.Allowed start value) →
    Triple (· = start) (relation.fetchRelated fetch? q.config q.depth keys)
      (fun _ => w.Extends start)
      fun _ => w.Lexical

variable {fetch? : Option (Fetch (List Row))} {q : Query}

theorem lexical_attach (fetches : q.FetchesLexically w fetch?)
    (loaded : q ∈ w.queries) {relation : Relation} {done rest : List Relation}
    (split : q.relations = done ++ relation :: rest) {start : List String}
    (clean : w.Lexical start) {rows : List Row}
    (tracked : ∀ row ∈ rows, Relation.Tracks w.driver start done row) :
    Triple (· = start) (Relation.attach fetch? q.config q.depth rows relation)
      (fun stored sent => w.Extends start sent ∧
        ∀ row ∈ stored, Relation.Tracks w.driver sent (done ++ [relation]) row)
      fun _ => w.Lexical := by
  unfold Relation.attach
  dsimp only
  split
  · apply Triple.pure
    rintro _ rfl
    refine ⟨⟨List.prefix_rfl, clean⟩, fun stored member => ?_⟩
    obtain ⟨row, found, rfl⟩ := List.mem_map.1 member
    exact (tracked row found).put relation []
  · refine (fetches relation (by simp [split]) start _ clean ?_).bind fun fetched => ?_
    · intro key member
      exact allowed_of_mem_distinctKeys loaded split tracked member
    · apply Triple.pure
      rintro sent ⟨more, kept⟩
      refine ⟨⟨more, kept⟩, fun stored member => ?_⟩
      rw [Relation.joinRows_eq_nestedLoop] at member
      obtain ⟨row, found, rfl⟩ := List.mem_map.1 member
      exact ((tracked row found).mono more).put relation _

theorem lexical_loadUsing (fetches : q.FetchesLexically w fetch?)
    (loaded : q ∈ w.queries) {assembly : Assembly} (compiled : q.relations = assembly.relations)
    {start : List String}
    (clean : w.Lexical start)
    (dialect : assembly.statement.dialect = w.config.dialect)
    (grounded : assembly.statement.Grounded (w.Allowed start)) :
    Triple (· = start) (q.loadUsing w.driver fetch? assembly)
      (fun _ => w.Extends start)
      fun _ => w.Lexical := by
  unfold loadUsing
  cases written : assembly.statement.sql with
  | error error =>
    apply Triple.throw
    rintro _ rfl
    exact clean
  | ok text =>
    rw [Load.ofExcept_ok_bind, ← compiled]
    have safe := Statement.safe_of_sql grounded written
    rw [dialect] at safe
    refine (lexical_ask clean safe).bind fun rows => ?_
    -- After each relation the rows hold one label more, and the history may have grown.
    let invariant (done : List Relation) (state : List Row) (sent : List String) : Prop :=
      w.Extends start sent ∧
        ∀ row ∈ state, Relation.Tracks w.driver sent done row
    have all : Triple (fun sent =>
        w.Extends start sent ∧
          ∀ row ∈ rows, w.driver.Returned sent row)
        (q.relations.foldlM (Relation.attach fetch? q.config q.depth) rows)
        (invariant q.relations)
        fun _ => w.Lexical := by
      apply Triple.foldlM invariant
      · rintro sent ⟨extends_, returned⟩
        exact ⟨extends_, fun row member => ⟨row, returned row member, fun _ => .inl rfl⟩⟩
      · intro done relation rest state split
        apply Triple.fix
        rintro middle ⟨⟨more, kept⟩, tracked⟩
        refine (lexical_attach fetches loaded split kept tracked).weaken (fun _ h => h) ?_
          fun _ _ h => h
        rintro stored sent ⟨⟨further, kept⟩, tracked⟩
        exact ⟨⟨more.trans further, kept⟩, tracked⟩
    exact all.weaken (fun _ h => h) (fun _ _ h => h.1) fun _ _ h => h

theorem grounded_relations (h : q.Grounded w.config w.supplied) :
    ∀ relation ∈ q.relations, relation.link.Grounded w.supplied := by
  unfold relations
  cases compiled : q.compile with
  | error error => exact fun _ => (nomatch ·)
  | ok assembly => exact (h.compile compiled).2.2

theorem mem_loadedWithin_self (levels : Nat) (q : Query) : q ∈ loadedWithin levels q := by
  cases levels <;> simp [loadedWithin]

theorem mem_loadedWithin_of_related {levels : Nat} {relation : Relation} {child inner : Query}
    (member : relation ∈ q.relations) (related : relation.related q.config q.depth = .ok child)
    (found : inner ∈ loadedWithin levels child) : inner ∈ loadedWithin (levels + 1) q := by
  refine List.mem_cons_of_mem _ (List.mem_flatMap.2 ⟨relation, member, ?_⟩)
  simpa [related, Except.toOption] using found

theorem lexical_loadUsing_follow (fetches : q.FetchesLexically w fetch?)
    (loaded : q ∈ w.queries) (grounded : q.Grounded w.config w.supplied) {start : List String}
    (clean : w.Lexical start) {keys : List (List Value)}
    (allowed : ∀ key ∈ keys, ∀ value ∈ key, w.Allowed start value) (columns : List String) :
    Triple (· = start)
      (do
        let assembly ← Load.ofExcept q.compile
        q.loadUsing w.driver fetch? { assembly with
          statement := assembly.statement.follow (Relation.keyFilter columns keys) })
      (fun _ => w.Extends start) fun _ => w.Lexical := by
  cases compiled : q.compile with
  | error error =>
    apply Triple.throw
    rintro _ rfl
    exact clean
  | ok assembly =>
    rw [Load.ofExcept_ok_bind]
    obtain ⟨dialect, statement, _⟩ := grounded.compile compiled
    have followed := (statement.mono fun _ => .inl).follow
      (Relation.grounded_keyFilter columns allowed) (Relation.nesting_keyFilter columns keys)
    have relations := relations_of_compile compiled
    refine lexical_loadUsing fetches loaded ?_ clean ?_ followed
    · exact relations
    · exact dialect

theorem fetchesLexically (levels : Nat) (grounded : q.Grounded w.config w.supplied)
    (loaded : ∀ inner ∈ loadedWithin levels q, inner ∈ w.queries) :
    q.FetchesLexically w (fetchWithin w.driver levels) := by
  intro relation member start keys clean allowed
  unfold Relation.fetchRelated
  induction levels generalizing q relation start keys with
  | zero =>
    apply Triple.throw
    rintro _ rfl
    exact clean
  | succ levels ih =>
    unfold fetchWithin
    dsimp only
    cases related : relation.related q.config q.depth with
    | error error =>
      apply Triple.throw
      rintro _ rfl
      exact clean
    | ok child =>
      rw [Load.ofExcept_ok_bind]
      have below : ∀ inner ∈ loadedWithin levels child, inner ∈ w.queries := by
        intro inner found
        exact loaded inner (mem_loadedWithin_of_related member related found)
      rw [grounded.configured] at related
      have inner : child.Grounded w.config w.supplied :=
        Grounded.related (grounded_relations grounded relation member) related
      have fetches : child.FetchesLexically w (fetchWithin w.driver levels) :=
        fun relation member start keys => ih inner below relation member start keys
      exact lexical_loadUsing_follow fetches (below child (mem_loadedWithin_self levels child))
        inner clean allowed relation.foreignColumns

theorem lexical_countRows {assembly : Assembly} {start : List String} (clean : w.Lexical start)
    (dialect : assembly.statement.dialect = w.config.dialect)
    (grounded : assembly.statement.Grounded (w.Allowed start)) :
    Triple (· = start) (q.countRows w.driver assembly) (fun _ => w.Lexical)
      fun _ => w.Lexical := by
  unfold countRows
  dsimp only
  cases written : assembly.statement.countSql (q.config.hiddenColumn "total") with
  | error error =>
    apply Triple.throw
    rintro _ rfl
    exact clean
  | ok text =>
    rw [Load.ofExcept_ok_bind]
    have safe := Statement.safe_of_countSql grounded written
    rw [dialect] at safe
    exact (lexical_ask clean safe).bind fun rows => Triple.pure fun _ h => h.1.2

theorem lexical_run (grounded : q.Grounded w.config w.supplied)
    (loaded : ∀ inner ∈ q.loaded, inner ∈ w.queries) :
    Triple (· = []) (q.run w.driver) (fun _ => w.Lexical) fun _ => w.Lexical := by
  have clean : w.Lexical [] := by
    intro before sql found
    simp at found
  unfold run
  cases compiled : q.compile with
  | error error =>
    apply Triple.throw
    rintro _ rfl
    exact clean
  | ok assembly =>
    rw [Load.ofExcept_ok_bind]
    obtain ⟨dialect, statement, _⟩ := grounded.compile compiled
    have relations := relations_of_compile compiled
    have fetches := fetchesLexically (q.config.maxDepth - q.depth) grounded loaded
    have here : q ∈ w.queries := loaded q (mem_loadedWithin_self _ q)
    have rest (total : Option Nat) : Triple w.Lexical
        (do
          let rows ← q.loadUsing w.driver (fetchWithin w.driver (q.config.maxDepth - q.depth))
            assembly
          return (rows, total))
        (fun _ => w.Lexical) fun _ => w.Lexical := by
      apply Triple.fix
      intro start clean
      exact (lexical_loadUsing fetches here relations clean dialect
        (statement.mono fun _ => .inl)).bind fun rows => Triple.pure fun _ h => h.2
    dsimp only
    split
    · have count : Triple (· = []) (some <$> q.countRows w.driver assembly)
          (fun _ => w.Lexical) fun _ => w.Lexical := by
        apply Triple.map
        exact lexical_countRows clean dialect (statement.mono fun _ => .inl)
      exact count.bind rest
    · refine (rest none).weaken ?_ (fun _ _ h => h) fun _ _ h => h
      rintro _ rfl
      exact clean

theorem lexical_get (grounded : q.Grounded w.config w.supplied)
    (loaded : ∀ inner ∈ q.loaded, inner ∈ w.queries) : w.Lexical (q.get w.driver).2 := by
  have run := lexical_run grounded loaded [] rfl
  unfold get
  rcases result : (q.run w.driver).exec [] with ⟨error | value, sent⟩
  · rw [result] at run
    exact run
  · rw [result] at run
    exact run

/-- A text of `sql` is tokens from end to end, with supplied values for literals. So is every
statement that a run sends, but keys as they were returned may stand there, too, and relations
that were stored under a label that is not spared, which is where they can be read as keys. -/
theorem safe_sent (config : Config) (calls : List Step) (driver : Driver) :
    (∀ text, (built config calls).sql = .ok text →
      Safe config.dialect (LiteralOf fun value => ∃ call ∈ calls, call.Supplies value) text) ∧
    (∀ before sql, before ++ [sql] <+: ((built config calls).get driver).2 →
      Safe config.dialect (LiteralOf fun value => (∃ call ∈ calls, call.Supplies value) ∨
        KeyReturned (built config calls).loaded driver before value ∨
        KeyStored (built config calls).loaded value) sql) ∧
    ((∀ q ∈ (built config calls).loaded, q.SiblingsApart) →
      ∀ before sql, before ++ [sql] <+: ((built config calls).get driver).2 →
        Safe config.dialect (LiteralOf fun value => (∃ call ∈ calls, call.Supplies value) ∨
          KeyReturned (built config calls).loaded driver before value) sql) ∧
    ∀ (names : List KeyName) (relation : Relation),
      KeyName.Spares names relation.label ↔ ∀ row rows key,
        KeyName.readAll names
            (Fields.put relation.label (Relation.gather relation.cardinality rows) row) =
              some key →
          ∀ value ∈ key, ∃ name ∈ names, name.read row = some value := by
  have grounded := grounded_built config calls
  let w : Setting := {
    config, driver
    supplied := fun value => ∃ call ∈ calls, call.Supplies value
    queries := (built config calls).loaded }
  have sent : w.Lexical ((built config calls).get driver).2 :=
    lexical_get (w := w) grounded fun _ member => member
  refine ⟨?_, sent, ?_, fun names relation => KeyName.spares_iff_read⟩
  · intro text written
    obtain ⟨assembly, compiled, written⟩ := Outcome.exists_of_bind written
    obtain ⟨dialect, statement, _⟩ := grounded.compile compiled
    exact dialect ▸ Statement.safe_of_sql statement written
  · intro apart before sql found
    apply (sent before sql found).mono
    rintro text ⟨value, allowed, literal⟩
    refine ⟨value, allowed.imp id fun key => ?_, literal⟩
    rcases key with returned | ⟨q, loaded, earlier, later, beside, taken, _⟩
    · exact returned
    · exact absurd (List.pairwise_iff_forall_sublist.1 (apart q loaded) beside) taken

theorem orderly_safe_sent :
    let before := ["SELECT \"users\".* FROM \"users\"",
      "SELECT \"orders\".* FROM \"orders\" WHERE \"orders\".\"user_id\" IN ('u1')"]
    let sql := "SELECT \"payments\".* FROM \"payments\" WHERE \"payments\".\"user_id\" IN ('u1')"
    (∀ q ∈ orderly.loaded, q.SiblingsApart) ∧ before ++ [sql] <+: (orderly.get oneUser).2 ∧
      Safe .sqlite (LiteralOf fun value => (∃ call ∈ orderlyCalls, call.Supplies value) ∨
        KeyReturned orderly.loaded oneUser before value) sql := by
  intro before sql
  have apart : ∀ q ∈ orderly.loaded, q.SiblingsApart := by decide +kernel
  have sent : before ++ [sql] <+: (orderly.get oneUser).2 := by
    unfold get run loadUsing
    simp only [Relation.attach_eq_ite, Relation.distinctKeys_eq]
    decide +kernel
  exact ⟨apart, sent, (safe_sent {} orderlyCalls oneUser).2.2.1 apart before sql sent⟩

def oneOrder : Driver := fun _ sql => .ok <|
  if sql = "SELECT \"users\".* FROM \"users\"" then [[("id", .text "u1")]]
  else if sql = "SELECT \"id\".* FROM \"orders\" AS \"id\" WHERE \"id\".\"user_id\" IN ('u1')"
    then [[("user_id", .text "u1")]]
  else []

theorem not_supplies_of_mem_clashingCalls {call : Step} {value : Value}
    (member : call ∈ clashingCalls) : ¬call.Supplies value := by
  intro supplies
  simp only [clashingCalls, List.mem_cons, List.not_mem_nil, or_false] at member
  rcases member with rfl | rfl | rfl <;> cases supplies with
  | refinement about narrows =>
    cases about
    all_goals cases narrows

theorem eq_of_returned_oneOrder {sent : List String} {row : Row} {name : String} {value : Value}
    (returned : oneOrder.Returned sent row) (field : (name, value) ∈ row) : value = .text "u1" := by
  obtain ⟨before, sql, rows, _, answer, member⟩ := returned
  obtain rfl := Except.ok.inj answer
  split at member
  · simp_all
  · split at member <;> simp_all

theorem clashing_not_safe_sent :
    let before := ["SELECT \"users\".* FROM \"users\"",
      "SELECT \"id\".* FROM \"orders\" AS \"id\" WHERE \"id\".\"user_id\" IN ('u1')"]
    let sql := "SELECT \"payments\".* FROM \"payments\" WHERE \"payments\".\"user_id\" IN (" ++
      "'[\x7b\"user_id\":\"u1\"\x7d]')"
    before ++ [sql] <+: (clashing.get oneOrder).2 ∧
      ¬Safe .sqlite (LiteralOf fun value => (∃ call ∈ clashingCalls, call.Supplies value) ∨
        ∃ row name, oneOrder.Returned before row ∧ (name, value) ∈ row) sql := by
  intro before sql
  constructor
  · unfold get run loadUsing
    simp only [Relation.attach_eq_ite, Relation.distinctKeys_eq]
    decide +kernel
  · rintro ⟨tokens, lexed, _, literals⟩
    have stored : (lex .sqlite sql.toList).any fun tokens =>
        .literal "[\x7b\"user_id\":\"u1\"\x7d]".toList ∈ tokens := by decide +kernel
    rw [lexed, Option.any_some, decide_eq_true_iff] at stored
    obtain ⟨value, ⟨call, member, supplies⟩ | ⟨row, name, returned, field⟩, literal⟩ :=
      literals _ stored
    · exact not_supplies_of_mem_clashingCalls member supplies
    · rw [eq_of_returned_oneOrder returned field] at literal
      revert literal
      decide

end Query

end RelationQuery
