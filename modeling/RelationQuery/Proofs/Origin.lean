import RelationQuery.Proofs.Spares
import RelationQuery.Proofs.Triple
import RelationQuery.Result

/-! Keys read from rows as the database returned them, whatever relations have been stored in the
rows since. Main statement: a run reads every key so, unless a label stands where a key is read
later on. -/
namespace RelationQuery

/-- A row as the database returned it, and with the relations stored in it since. -/
structure Tracked where
  origin : Row
  row : Row

namespace Tracked

def answered (row : Row) : Tracked := ⟨row, row⟩

def Outside (labels : List String) (row : Tracked) : Prop :=
  ∀ name, name ∉ labels → Fields.get? row.row name = Fields.get? row.origin name

@[simp] theorem map_row_answered (rows : List Row) :
    (rows.map answered).map Tracked.row = rows := by
  simp [Function.comp_def, answered]

theorem outside_answered (labels : List String) (rows : List Row) :
    ∀ row ∈ rows.map answered, row.Outside labels := by
  intro row member
  obtain ⟨row, _, rfl⟩ := List.mem_map.1 member
  exact fun _ _ => rfl

theorem Outside.put {labels : List String} {row : Tracked} (h : row.Outside labels)
    (label : String) (value : Value) :
    Outside (labels ++ [label]) { row with row := Fields.put label value row.row } := by
  intro name absent
  simp only [List.mem_append, List.mem_singleton, not_or] at absent
  exact (Fields.get?_put_of_ne _ _ (Ne.symm absent.2)).trans (h name absent.1)

theorem Outside.readAll_eq {labels : List String} {row : Tracked} (h : row.Outside labels)
    {names : List KeyName} (spares : ∀ label ∈ labels, KeyName.Spares names label) :
    KeyName.readAll names row.row = KeyName.readAll names row.origin :=
  KeyName.readAll_eq_of_spares labels spares h

end Tracked

namespace Relation

def joinOrigins (config : Config) (relation : Relation) (rows fetched : List Tracked) :
    List Tracked :=
  rows.map fun row =>
    let related := fetched.filter fun child => Belongs config relation row.origin child.origin
    { row with
      row := Fields.put relation.label
        (gather relation.cardinality (related.map Tracked.row)) row.row }

def attachByOrigin (fetch? : Option (Fetch (List Tracked))) (config : Config) (depth : Nat)
    (rows : List Tracked) (relation : Relation) : Load (List Tracked) := do
  let keys := distinctKeys (relation.ownNames config) (rows.map Tracked.origin)
  if keys.isEmpty then
    return relation.joinOrigins config rows []
  let fetched ← relation.fetchRelated fetch? config depth keys
  return relation.joinOrigins config rows fetched

end Relation

namespace Query

def loadByOrigin (driver : Driver) (fetch? : Option (Fetch (List Tracked))) (q : Query)
    (assembly : Assembly) : Load (List Tracked) := do
  let rows ← Load.ask driver (← Load.ofExcept assembly.statement.sql)
  assembly.relations.foldlM (Relation.attachByOrigin fetch? q.config q.depth)
    (rows.map Tracked.answered)

def fetchByOrigin (driver : Driver) : Nat → Option (Fetch (List Tracked))
  | 0 => none
  | levels + 1 => some fun lead q => do
    let assembly ← Load.ofExcept q.compile
    q.loadByOrigin driver (fetchByOrigin driver levels)
      { assembly with statement := assembly.statement.follow lead }

/-- A run that reads all keys from the rows as they were returned. -/
def runByOrigin (driver : Driver) (q : Query) : Load (List Row × Option Nat) := do
  let assembly ← Load.ofExcept q.compile
  let total ← if q.wantsTotal then some <$> q.countRows driver assembly else pure none
  let rows ← q.loadByOrigin driver (fetchByOrigin driver (q.config.maxDepth - q.depth)) assembly
  return (rows.map Tracked.row, total)

def getByOrigin (driver : Driver) (q : Query) : Except Error Result × List String :=
  let (outcome, sent) := (q.runByOrigin driver).exec []
  (outcome.map fun (rows, total) => Result.ofRows q.config rows total, sent)

def relations (q : Query) : List Relation := q.compile.toOption.elim [] Assembly.relations

def SiblingsApart (q : Query) : Prop :=
  q.relations.Pairwise fun earlier later =>
    KeyName.Spares (later.ownNames q.config) earlier.label

/-- No relation in the tree is stored where a key is read after it is: neither an own key of a
later one beside it, nor a foreign key of the one it is nested in. -/
def KeysApart : Nat → Query → Prop
  | 0, q => q.SiblingsApart
  | levels + 1, q =>
    q.SiblingsApart ∧
      ∀ relation ∈ q.relations, ∀ child ∈ (relation.related q.config q.depth).toOption,
        (∀ inner ∈ child.relations,
          KeyName.Spares (relation.foreignNames q.config) inner.label) ∧
        KeysApart levels child

instance (q : Query) : Decidable q.SiblingsApart := inferInstanceAs (Decidable (List.Pairwise _ _))

instance decidableKeysApart : (levels : Nat) → (q : Query) → Decidable (q.KeysApart levels)
  | 0, _ => inferInstanceAs (Decidable (List.Pairwise _ _))
  | levels + 1, _ =>
    have (child : Query) : Decidable (child.KeysApart levels) := decidableKeysApart levels child
    inferInstanceAs (Decidable (_ ∧ _))

end Query

namespace Relation

variable {config : Config} {relation : Relation}

theorem distinctKeys_map_row {names : List KeyName} {rows : List Tracked}
    (agree : ∀ row ∈ rows, KeyName.readAll names row.row = KeyName.readAll names row.origin) :
    distinctKeys names (rows.map Tracked.row) = distinctKeys names (rows.map Tracked.origin) := by
  have same : rows.filterMap (KeyName.readAll names ∘ Tracked.row) =
      rows.filterMap (KeyName.readAll names ∘ Tracked.origin) := List.filterMap_congr agree
  unfold distinctKeys
  rw [List.filterMap_map, List.filterMap_map, same]

theorem nestedLoop_map_row {rows fetched : List Tracked}
    (own : ∀ row ∈ rows, KeyName.readAll (relation.ownNames config) row.row =
      KeyName.readAll (relation.ownNames config) row.origin)
    (foreign : ∀ child ∈ fetched, KeyName.readAll (relation.foreignNames config) child.row =
      KeyName.readAll (relation.foreignNames config) child.origin) :
    nestedLoop config relation (rows.map Tracked.row) (fetched.map Tracked.row) =
      (relation.joinOrigins config rows fetched).map Tracked.row := by
  unfold nestedLoop joinOrigins
  rw [List.map_map, List.map_map]
  apply List.map_congr_left
  intro row member
  dsimp only [Function.comp_apply]
  rw [List.filter_map]
  congr 3
  apply List.filter_congr
  intro child found
  apply decide_eq_decide.2
  simp only [Belongs, keyText?, own row member, foreign child found]

theorem attach_map_row {fetch? : Option (Fetch (List Row))}
    {tracked? : Option (Fetch (List Tracked))} {depth : Nat} {rows : List Tracked}
    (own : ∀ row ∈ rows, KeyName.readAll (relation.ownNames config) row.row =
      KeyName.readAll (relation.ownNames config) row.origin)
    (same : ∀ keys, relation.fetchRelated fetch? config depth keys =
      List.map Tracked.row <$> relation.fetchRelated tracked? config depth keys)
    (foreign : ∀ keys, (relation.fetchRelated tracked? config depth keys).Yields fun fetched =>
      ∀ child ∈ fetched, KeyName.readAll (relation.foreignNames config) child.row =
        KeyName.readAll (relation.foreignNames config) child.origin) :
    attach fetch? config depth (rows.map Tracked.row) relation =
      List.map Tracked.row <$> attachByOrigin tracked? config depth rows relation := by
  have keys := distinctKeys_map_row own
  unfold attach attachByOrigin
  simp only [keys, same]
  by_cases keyless : (distinctKeys (relation.ownNames config) (rows.map Tracked.origin)).isEmpty
  · simp [keyless, joinOrigins]
    rfl
  · simp only [keyless, Bool.false_eq_true, if_false, map_bind, bind_map_left, map_pure]
    apply Load.bind_congr_of_yields (foreign _)
    intro fetched agree
    rw [joinRows_eq_nestedLoop, nestedLoop_map_row own agree]

theorem outside_joinOrigins {labels : List String} {rows : List Tracked}
    (outside : ∀ row ∈ rows, row.Outside labels) (fetched : List Tracked) :
    ∀ row ∈ relation.joinOrigins config rows fetched,
      row.Outside (labels ++ [relation.label]) := by
  intro stored member
  obtain ⟨row, found, rfl⟩ := List.mem_map.1 member
  exact (outside row found).put _ _

theorem yields_attachByOrigin {tracked? : Option (Fetch (List Tracked))} {depth : Nat}
    {labels : List String} {rows : List Tracked} (outside : ∀ row ∈ rows, row.Outside labels) :
    (attachByOrigin tracked? config depth rows relation).Yields fun stored =>
      ∀ row ∈ stored, row.Outside (labels ++ [relation.label]) := by
  unfold attachByOrigin
  dsimp only
  split
  · exact Load.Yields.pure (outside_joinOrigins outside [])
  · refine Load.Yields.bind (Load.Yields.trivial _) ?_
    intro fetched _
    exact Load.Yields.pure (outside_joinOrigins outside fetched)

theorem yields_foldlM_attachByOrigin {tracked? : Option (Fetch (List Tracked))} {depth : Nat}
    {relations : List Relation} {rows : List Tracked} (labels : List String)
    (outside : ∀ row ∈ rows, row.Outside labels) :
    (relations.foldlM (attachByOrigin tracked? config depth) rows).Yields fun stored =>
      ∀ row ∈ stored, row.Outside (labels ++ relations.map Relation.label) := by
  induction relations generalizing labels rows with
  | nil => simpa using Load.Yields.pure outside
  | cons relation rest ih =>
    rw [List.foldlM_cons]
    refine Load.Yields.bind (yields_attachByOrigin outside) ?_
    intro stored held
    simpa using ih _ held

def FetchesAlike (fetch? : Option (Fetch (List Row))) (tracked? : Option (Fetch (List Tracked)))
    (config : Config) (depth : Nat) (relation : Relation) : Prop :=
  ∀ keys, relation.fetchRelated fetch? config depth keys =
      List.map Tracked.row <$> relation.fetchRelated tracked? config depth keys ∧
    (relation.fetchRelated tracked? config depth keys).Yields fun fetched =>
      ∀ child ∈ fetched, KeyName.readAll (relation.foreignNames config) child.row =
        KeyName.readAll (relation.foreignNames config) child.origin

theorem foldlM_attach_map_row {fetch? : Option (Fetch (List Row))}
    {tracked? : Option (Fetch (List Tracked))} {depth : Nat} {relations : List Relation}
    {rows : List Tracked} (labels : List String)
    (alike : ∀ relation ∈ relations, relation.FetchesAlike fetch? tracked? config depth)
    (outside : ∀ row ∈ rows, row.Outside labels)
    (spares : ∀ relation ∈ relations, ∀ label ∈ labels,
      KeyName.Spares (relation.ownNames config) label)
    (apart : relations.Pairwise fun earlier later =>
      KeyName.Spares (later.ownNames config) earlier.label) :
    relations.foldlM (attach fetch? config depth) (rows.map Tracked.row) =
      List.map Tracked.row <$> relations.foldlM (attachByOrigin tracked? config depth) rows := by
  induction relations generalizing labels rows with
  | nil => simp
  | cons relation rest ih =>
    obtain ⟨first, apart⟩ := List.pairwise_cons.1 apart
    have here := alike relation List.mem_cons_self
    rw [List.foldlM_cons, List.foldlM_cons, attach_map_row
      (fun row member => (outside row member).readAll_eq (spares relation List.mem_cons_self))
      (fun keys => (here keys).1) (fun keys => (here keys).2), bind_map_left, map_bind]
    apply Load.bind_congr_of_yields (yields_attachByOrigin outside)
    intro stored held
    apply ih _ (fun later member => alike later (List.mem_cons_of_mem _ member)) held _ apart
    intro later member label stored
    rcases List.mem_append.1 stored with before | here
    · exact spares later (List.mem_cons_of_mem _ member) label before
    · rw [List.mem_singleton.1 here]
      exact first later member

end Relation

namespace Query

variable (driver : Driver)

theorem yields_loadByOrigin (tracked? : Option (Fetch (List Tracked))) (q : Query)
    (assembly : Assembly) :
    (q.loadByOrigin driver tracked? assembly).Yields fun rows =>
      ∀ row ∈ rows, row.Outside (assembly.relations.map Relation.label) := by
  unfold loadByOrigin
  refine Load.Yields.bind (Load.Yields.trivial _) ?_
  intro text _
  refine Load.Yields.bind (Load.Yields.trivial _) ?_
  intro rows _
  exact Relation.yields_foldlM_attachByOrigin [] (Tracked.outside_answered [] rows)

theorem relations_of_compile {q : Query} {assembly : Assembly} (h : q.compile = .ok assembly) :
    q.relations = assembly.relations := by
  simp [relations, h, Except.toOption]

theorem loadUsing_of_alike {fetch? : Option (Fetch (List Row))}
    {tracked? : Option (Fetch (List Tracked))} {q : Query} {assembly : Assembly}
    (compiled : q.relations = assembly.relations) (apart : q.SiblingsApart)
    (alike : ∀ relation ∈ q.relations,
      relation.FetchesAlike fetch? tracked? q.config q.depth) :
    q.loadUsing driver fetch? assembly =
      List.map Tracked.row <$> q.loadByOrigin driver tracked? assembly := by
  unfold loadUsing loadByOrigin
  rw [← compiled]
  simp only [map_bind]
  congr 1
  funext text
  congr 1
  funext rows
  have all := Relation.foldlM_attach_map_row [] alike (Tracked.outside_answered [] rows)
    (by simp) apart
  rwa [Tracked.map_row_answered] at all

theorem loadUsing_map_row (levels : Nat) {q : Query} {assembly : Assembly}
    (compiled : q.relations = assembly.relations) (apart : q.KeysApart levels) :
    q.loadUsing driver (fetchWithin driver levels) assembly =
      List.map Tracked.row <$> q.loadByOrigin driver (fetchByOrigin driver levels) assembly := by
  induction levels generalizing q assembly with
  | zero =>
    apply loadUsing_of_alike driver compiled apart
    intro relation _ keys
    exact ⟨rfl, Load.Yields.throw _⟩
  | succ levels ih =>
    apply loadUsing_of_alike driver compiled apart.1
    intro relation member keys
    unfold Relation.fetchRelated fetchWithin fetchByOrigin
    dsimp only
    cases related : relation.related q.config q.depth with
    | error error => exact ⟨rfl, Load.Yields.throw error⟩
    | ok child =>
      have nested := apart.2 relation member child (by simp [related, Except.toOption])
      simp only [Load.ofExcept_ok_bind]
      cases compiled : child.compile with
      | error error => exact ⟨rfl, Load.Yields.throw error⟩
      | ok assembly =>
        have inner := relations_of_compile compiled
        simp only [Load.ofExcept_ok_bind]
        constructor
        · exact ih inner nested.2
        · apply (yields_loadByOrigin driver _ child _).imp
          intro fetched outside row found
          apply (outside row found).readAll_eq
          intro label stored
          obtain ⟨relation, loaded, rfl⟩ := List.mem_map.1 stored
          exact nested.1 relation (inner ▸ loaded)

/-- Where no label stands where a key is read later, a run reads every key from the rows as they
were returned: it sends the same statements and stores the same rows. -/
theorem run_eq_runByOrigin {q : Query}
    (apart : q.KeysApart (q.config.maxDepth - q.depth)) :
    q.run driver = q.runByOrigin driver := by
  unfold run runByOrigin
  cases compiled : q.compile with
  | error error => rfl
  | ok assembly =>
    simp only [Load.ofExcept_ok_bind]
    rw [loadUsing_map_row driver _ (relations_of_compile compiled) apart]
    simp only [bind_map_left]

/-- Storing a relation leaves all key texts of the rows alone exactly when its label is spared.
Where that holds all over the tree, the children of every row, and all that is sent for them, are
those of the keys as the database returned them. -/
theorem get_eq_getByOrigin (q : Query) (driver : Driver) :
    (∀ (relation : Relation) (names : List KeyName),
      KeyName.Spares names relation.label ↔ ∀ rows fetched,
        (relation.joinRows q.config rows fetched).map (Relation.keyText? names) =
          rows.map (Relation.keyText? names)) ∧
    (q.KeysApart (q.config.maxDepth - q.depth) → q.get driver = q.getByOrigin driver) := by
  constructor
  · exact fun relation names => Relation.spares_iff_keyText
  · intro apart
    unfold get getByOrigin
    rw [run_eq_runByOrigin driver apart]

def orderlyCalls : List Step := [
  .fromTable "users",
  .load .many {
    target := "orders", foreign := ["user_id"], own := ["id"]
    refinement := some [
      .load .one { target := "items as first_item", foreign := ["order_id"], own := ["id"] }] },
  .load .many { target := "payments", foreign := ["user_id"], own := ["id"] }]

def orderly : Query := built {} orderlyCalls

theorem orderly_get_eq_getByOrigin :
    orderly.relations.map Relation.label = ["orders", "payments"] ∧
      orderly.KeysApart (orderly.config.maxDepth - orderly.depth) ∧
      ∀ driver, orderly.get driver = orderly.getByOrigin driver := by
  have apart : orderly.KeysApart (orderly.config.maxDepth - orderly.depth) := by decide +kernel
  exact ⟨by decide +kernel, apart, fun driver => (get_eq_getByOrigin orderly driver).2 apart⟩

def clashingCalls : List Step := [
  .fromTable "users",
  .load .many { target := "orders as id", foreign := ["user_id"], own := ["id"] },
  .load .many { target := "payments", foreign := ["user_id"], own := ["id"] }]

def clashing : Query := built {} clashingCalls

def oneUser : Driver := fun _ sql => .ok <|
  if sql = "SELECT \"users\".* FROM \"users\"" then [[("id", .text "u1")]]
  else if sql = "SELECT \"payments\".* FROM \"payments\" WHERE \"payments\".\"user_id\" IN ('u1')"
    then [[("user_id", .text "u1")]]
  else []

def rowTexts (outcome : Except Error Result) : List String :=
  outcome.toOption.elim [] fun result =>
    result.rows.map fun row => String.ofList (Value.object row).json

/-- The payments are asked for by the empty list of orders, and the user's payment is lost. -/
theorem clashing_get_ne_getByOrigin :
    rowTexts (clashing.get oneUser).1 = ["\x7b\"id\":[],\"payments\":[]\x7d"] ∧
    (clashing.get oneUser).2.getLast? = some
      "SELECT \"payments\".* FROM \"payments\" WHERE \"payments\".\"user_id\" IN ('[]')" ∧
    rowTexts (clashing.getByOrigin oneUser).1 =
      ["\x7b\"id\":[],\"payments\":[\x7b\"user_id\":\"u1\"\x7d]\x7d"] ∧
    (clashing.getByOrigin oneUser).2.getLast? = some
      "SELECT \"payments\".* FROM \"payments\" WHERE \"payments\".\"user_id\" IN ('u1')" := by
  unfold get run loadUsing getByOrigin runByOrigin loadByOrigin Relation.attachByOrigin
  simp only [Relation.attach_eq_ite, Relation.distinctKeys_eq]
  decide +kernel

end Query

end RelationQuery
