import RelationQuery.Proofs.Sending

/-! Keys that a statement carries along with its rows. Main statement: of the local keys under one
name the first that is declared is selected, so that every key is read back from a column of its own
exactly when no two of one name stand for different columns. -/
namespace RelationQuery

namespace Name

def joined (name : String) : String :=
  String.ofList (['_', '_'].intercalate (name.toList.splitOn '.'))

def Plain (name : String) : Prop :=
  ∀ part ∈ name.toList.splitOn '.', ¬['_', '_'] <:+: part ++ ['_']

instance (name : String) : Decidable (Plain name) :=
  inferInstanceAs (Decidable (∀ part ∈ name.toList.splitOn '.', _))

theorem append_underscores_inj {front back rest more : List Char}
    (plain : ¬['_', '_'] <:+: front ++ ['_']) (also : ¬['_', '_'] <:+: back ++ ['_'])
    (same : front ++ '_' :: '_' :: rest = back ++ '_' :: '_' :: more) :
    front = back ∧ rest = more := by
  -- Were one front longer, the underscores behind the other would begin in it.
  have longer {front back rest more : List Char} {extra : List Char}
      (also : ¬['_', '_'] <:+: back ++ ['_']) (split : back = front ++ extra)
      (left : '_' :: '_' :: rest = extra ++ '_' :: '_' :: more) : extra = [] := by
    rcases extra with _ | ⟨first, _ | ⟨second, extra⟩⟩
    · rfl
    · cases left
      exact absurd ⟨front, [], by simp [split]⟩ also
    · cases left
      exact absurd ⟨front, extra ++ ['_'], by simp [split]⟩ also
  rcases List.append_eq_append_iff.1 same with ⟨extra, split, left⟩ | ⟨extra, split, left⟩
  · obtain rfl := longer also split left
    simp_all
  · obtain rfl := longer plain split left
    simp_all

theorem intercalate_underscores_inj {parts others : List (List Char)}
    (plain : ∀ part ∈ parts, ¬['_', '_'] <:+: part ++ ['_'])
    (also : ∀ part ∈ others, ¬['_', '_'] <:+: part ++ ['_'])
    (parted : parts ≠ []) (more : others ≠ [])
    (same : ['_', '_'].intercalate parts = ['_', '_'].intercalate others) : parts = others := by
  have single {part front rest : List Char} (plain : ¬['_', '_'] <:+: part ++ ['_']) :
      part ≠ front ++ ['_', '_'] ++ rest := by
    rintro rfl
    exact plain ⟨front, rest ++ ['_'], by simp⟩
  induction parts generalizing others with
  | nil => exact absurd rfl parted
  | cons part parts ih =>
    obtain ⟨other, others, rfl⟩ := List.exists_cons_of_ne_nil more
    obtain ⟨here, later⟩ := List.forall_mem_cons.1 plain
    obtain ⟨there, behind⟩ := List.forall_mem_cons.1 also
    rcases parts with _ | ⟨second, parts⟩ <;> rcases others with _ | ⟨next, others⟩
    · simpa using same
    · rw [List.intercalate_singleton, List.intercalate_cons_cons] at same
      exact absurd same (single here)
    · rw [List.intercalate_singleton, List.intercalate_cons_cons] at same
      exact absurd same.symm (single there)
    · simp only [List.intercalate_cons_cons, List.append_assoc, List.cons_append,
        List.nil_append] at same
      obtain ⟨rfl, rest⟩ := append_underscores_inj here there same
      rw [ih later behind (List.cons_ne_nil _ _) (List.cons_ne_nil _ _) rest]

theorem joined_inj {name other : String} (plain : Plain name) (also : Plain other)
    (same : joined name = joined other) : name = other := by
  have parts := intercalate_underscores_inj plain also (List.splitOn_ne_nil _ _)
    (List.splitOn_ne_nil _ _) (String.ofList_inj.1 same)
  have text := congrArg (['.'].intercalate ·) parts
  rwa [List.intercalate_splitOn, List.intercalate_splitOn, String.toList_inj] at text

theorem not_mem_last (name : String) : '.' ∉ (last name).toList := by
  cases ends : (name.toList.splitOn '.').getLast? with
  | none => simp [last, ends]
  | some part =>
    rw [last, ends, Option.getD_some, String.toList_ofList]
    intro dot
    exact Bool.noConfusion (Text.of_mem_splitOnP (List.mem_of_getLast? ends) dot).2

theorem joined_last (name : String) : joined (last name) = last name := by
  rw [joined, List.splitOn_eq_singleton (not_mem_last name), List.intercalate_singleton,
    String.ofList_toList]

theorem qualify_last (owner name : String) :
    qualify owner (last name) = owner ++ "." ++ last name := by
  have bare : isDotted (last name) = false := by simpa [isDotted] using not_mem_last name
  simp [qualify, bare]

end Name

def Output.shown : Output → String
  | .column name label? => label?.getD (Name.last name)
  | .aggregate _ _ label => label

/-- A row as it may be returned: what an item stands for is found under its name, unless there is
another item of that name. -/
def Output.Answered (items : List Output) (value : Output → Value) (row : Row) : Prop :=
  ∀ item ∈ items, (∀ other ∈ items, other.shown = item.shown → other = item) →
    Fields.get? row item.shown = some (value item)

structure Carried where
  name : String
  column : String
  deriving DecidableEq

namespace Carried

def output (key : Carried) : Output := .column key.column (some key.name)

/-- Keys of one name stand for one column. -/
def OneToOne (keys : List Carried) : Prop :=
  ∀ first ∈ keys, ∀ second ∈ keys, first.name = second.name → first.column = second.column

instance (keys : List Carried) : Decidable (OneToOne keys) :=
  inferInstanceAs (Decidable (∀ first ∈ keys, ∀ second ∈ keys, _))

def named (config : Config) (anchor key : String) : Carried :=
  ⟨config.correlationPrefix ++ Name.joined key, Name.qualify anchor key⟩

theorem oneToOne_of_named {config : Config} {anchor : String} {keys : List Carried}
    (each : ∀ key ∈ keys, ∃ name, Name.Plain name ∧ key = named config anchor name) :
    OneToOne keys := by
  intro first member second among same
  obtain ⟨name, plain, rfl⟩ := each first member
  obtain ⟨other, also, rfl⟩ := each second among
  have joined : Name.joined name = Name.joined other := by simpa [named] using same
  rw [Name.joined_inj plain also joined]

def firsts (keys : List Carried) : List Carried :=
  keys.eraseDupsBy fun first second => first.name == second.name

theorem filter_firsts (keys : List Carried) (name : String) :
    (firsts keys).filter (·.name = name) = (keys.find? (·.name = name)).toList := by
  match keys with
  | [] => rfl
  | first :: rest =>
    let other (key : Carried) : Bool := decide ((key.name == first.name) = false)
    have fewer := List.length_filter_le other rest
    have others := filter_firsts (rest.filter other) name
    unfold firsts at others ⊢
    rw [List.eraseDupsBy_cons, List.filter_cons, List.find?_cons, others, List.find?_filter]
    by_cases same : first.name = name
    · -- No other of the name is left.
      have gone : rest.find? (fun key => other key && decide (key.name = name)) = none := by
        simp [other, same]
      simp [same, gone]
    · have kept : (fun key : Carried => other key && decide (key.name = name)) =
          fun key => decide (key.name = name) := by
        funext key
        by_cases here : key.name = name <;> simp [other, here, Ne.symm same]
      simp [same, kept]
termination_by keys.length
decreasing_by exact Nat.lt_succ_of_le fewer

theorem mem_firsts_iff {keys : List Carried} {key : Carried} :
    key ∈ firsts keys ↔ keys.find? (·.name = key.name) = some key := by
  have same : key ∈ (firsts keys).filter (·.name = key.name) ↔
      key ∈ (keys.find? (·.name = key.name)).toList := by rw [filter_firsts]
  simpa using same

theorem firsts_subset (keys : List Carried) : firsts keys ⊆ keys :=
  fun _ member => List.mem_of_find?_eq_some (mem_firsts_iff.1 member)

theorem exists_mem_firsts {keys : List Carried} {key : Carried} (member : key ∈ keys) :
    ∃ first ∈ firsts keys, first.name = key.name := by
  obtain ⟨first, found⟩ : ∃ first, keys.find? (·.name = key.name) = some first :=
    Option.isSome_iff_exists.1 (List.find?_isSome.2 ⟨key, member, by simp⟩)
  have named : first.name = key.name := by simpa using List.find?_some found
  exact ⟨first, mem_firsts_iff.2 (named ▸ found), named⟩

/-- Each key has an item of its own, and nothing else is shown under its name. -/
def ReadBack (keys : List Carried) (items : List Output) : Prop :=
  ∀ key ∈ keys, key.output ∈ items ∧ ∀ item ∈ items, item.shown = key.name → item = key.output

theorem ReadBack.read {keys : List Carried} {items : List Output} (reads : ReadBack keys items)
    {value : Output → Value} {row : Row} (answered : Output.Answered items value row)
    {name : KeyName} {column : String} (member : ⟨name.hidden, column⟩ ∈ keys) :
    name.read row =
      (some (value (.column column (some name.hidden)))).filter (!·.isNull) := by
  obtain ⟨held, alone⟩ := reads _ member
  have found : Fields.get? row name.hidden = some (value (.column column (some name.hidden))) :=
    answered _ held alone
  simp [KeyName.read, found]

theorem column_eq_of_output_eq {key other : Carried} (same : key.output = other.output) :
    key.column = other.column := by
  simp_all [output]

theorem ReadBack.oneToOne {keys : List Carried} {items : List Output}
    (reads : ReadBack keys items) : OneToOne keys := by
  intro first member second among same
  obtain ⟨held, _⟩ := reads first member
  exact column_eq_of_output_eq ((reads second among).2 first.output held same)

/-- Keys of which some are selected, of each name at least one, are all read back where no name
stands for two columns, nor for anything else. -/
theorem readBack_iff {keys selected : List Carried} {items others : List Output}
    (only : selected ⊆ keys) (each : ∀ key ∈ keys, ∃ first ∈ selected, first.name = key.name)
    (split : ∀ item, item ∈ items ↔ item ∈ others ∨ ∃ key ∈ selected, key.output = item) :
    ReadBack keys items ↔ OneToOne keys ∧
      ∀ item ∈ others, ∀ key ∈ keys, item.shown = key.name → item = key.output := by
  constructor
  · intro reads
    exact ⟨reads.oneToOne, fun item other key member =>
      (reads key member).2 item ((split item).2 (.inl other))⟩
  · rintro ⟨apart, spared⟩ key member
    have whole : ∀ other ∈ selected, other.name = key.name → other.output = key.output := by
      intro other held same
      rw [output, output, same, apart other (only held) key member same]
    obtain ⟨first, held, same⟩ := each key member
    refine ⟨(split _).2 (.inr ⟨first, held, whole first held same⟩), fun item found shown => ?_⟩
    rcases (split item).1 found with other | ⟨other, kept, rfl⟩
    · exact spared item other key member shown
    · exact whole other kept shown

end Carried

namespace Relation

def carriedForeign (config : Config) (relation : Relation) : List Carried :=
  relation.link.foreign.map fun key =>
    ⟨(KeyName.foreign config key).hidden, relation.table.knownAs ++ "." ++ Name.last key⟩

theorem hasSelectList_exposeKeys (config : Config) (relation : Relation) (columns : List String)
    (q : Query) :
    (relation.exposeKeys config columns q).statement.hasSelectList = q.statement.hasSelectList := by
  unfold exposeKeys
  split <;> rfl

theorem extras_exposeKeys (config : Config) (relation : Relation) (q : Query) :
    (relation.exposeKeys config relation.foreignColumns q).statement.extras =
      q.statement.extras ++ (if q.statement.hasSelectList then
        relation.carriedForeign config else []).map Carried.output := by
  unfold exposeKeys
  split
  · rw [foreignColumns, List.zipWith_map_right, List.zipWith_self, carriedForeign, List.map_map]
    rfl
  · simp

theorem carriedForeign_eq (config : Config) {relation : Relation} {anchor : String}
    (known : relation.table.knownAs = anchor) : relation.carriedForeign config =
      relation.link.foreign.map fun key => Carried.named config anchor (Name.last key) := by
  refine List.map_congr_left fun key _ => ?_
  rw [Carried.named, Name.joined_last, Name.qualify_last, known]
  rfl

theorem oneToOne_carriedForeign (config : Config) (relation : Relation) :
    Carried.OneToOne (relation.carriedForeign config) := by
  intro first member second among same
  obtain ⟨key, _, rfl⟩ := List.mem_map.1 member
  obtain ⟨other, _, rfl⟩ := List.mem_map.1 among
  have last : Name.last key = Name.last other := by
    simpa [KeyName.foreign, Config.hiddenColumn] using same
  simp only [last]

end Relation

namespace Query

def carriedOwn (anchor : String) (q : Query) : List Carried :=
  let keys := q.relations.flatMap fun relation => relation.link.own
  (keys.filter fun key => q.statement.hasSelectList || Name.isDotted key).map fun key =>
    ⟨(KeyName.own q.config key).hidden, Name.qualify anchor key⟩

def carriedForeign (parent? : Option Relation) (q : Query) : List Carried :=
  if q.statement.hasSelectList then parent?.elim [] (Relation.carriedForeign q.config) else []

theorem eraseDupsBy_map {α β : Type} (f : α → β) (r : β → β → Bool) (xs : List α) :
    (xs.map f).eraseDupsBy r = (xs.eraseDupsBy fun a b => r (f a) (f b)).map f := by
  match xs with
  | [] => rfl
  | x :: xs =>
    have fewer := List.length_filter_le (fun y => decide (r (f y) (f x) = false)) xs
    have rest := eraseDupsBy_map f r (xs.filter fun y => decide (r (f y) (f x) = false))
    rw [List.map_cons, List.eraseDupsBy_cons, List.eraseDupsBy_cons, List.filter_map, List.map_cons,
      ← rest]
    rfl
termination_by xs.length
decreasing_by exact Nat.lt_succ_of_le fewer

theorem keyOutputs_eq_firsts {q : Query} (anchor : String) :
    q.keyOutputs anchor q.relations =
      (Carried.firsts (q.carriedOwn anchor)).map Carried.output := by
  simp only [keyOutputs, Carried.firsts, carriedOwn, eraseDupsBy_map, List.map_map]
  rfl

variable {subquery : SubqueryCompiler} {q : Query}

theorem extras_applyUsing (step : Step) :
    (q.applyUsing subquery step).1.statement.extras = q.statement.extras := by
  refine of_moves (P := fun after => after.statement.extras = q.statement.extras) ?_ rfl
  intro before after same moves
  cases moves with
  | @put fragment _ =>
    refine Eq.trans ?_ same
    cases fragment with
    | entry entry => cases entry <;> rfl
    | _ => rfl
  | fill _ _ _ fills =>
    obtain ⟨_, _, rfl⟩ := Statement.exists_of_fill fills
    exact same
  | defer | drop => exact same

theorem extras_of_reaches {config : Config} {calls : List Step} {parent? : Option Relation}
    (reaches : (built config calls).Reaches parent? q) :
    q.statement.extras = (q.carriedForeign parent?).map Carried.output := by
  cases reaches with
  | base =>
    have bare : (built config calls).statement.extras = [] :=
      List.foldlRecOn (motive := fun q : Query => q.statement.extras = []) calls _ rfl
        fun _ same step _ => (extras_applyUsing step).trans same
    rw [bare, carriedForeign]
    split <;> rfl
  | @fetch _ parent _ relation above declared related =>
    have anything : relation.link.Grounded fun _ => True := fun _ _ _ _ _ _ => True.intro
    have configured := (Grounded.related anything related).configured
    obtain ⟨child, refined, exposed⟩ := Outcome.exists_of_bind related
    obtain rfl := Except.ok.inj exposed
    have bare : child.statement.extras = [] :=
      of_refineUsing (P := fun q => q.statement.extras = [])
        (fun step q same => (extras_applyUsing step).trans same) rfl refined
    rw [Relation.extras_exposeKeys, bare, List.nil_append, carriedForeign,
      Relation.hasSelectList_exposeKeys, configured]
    rfl

/-- All keys that a statement carries along. -/
def carried (parent? : Option Relation) (anchor : String) (q : Query) : List Carried :=
  q.carriedForeign parent? ++ q.carriedOwn anchor

def selectedKeys (parent? : Option Relation) (anchor : String) (q : Query) : List Carried :=
  q.carriedForeign parent? ++ Carried.firsts (q.carriedOwn anchor)

theorem selectedKeys_subset (parent? : Option Relation) (anchor : String) (q : Query) :
    q.selectedKeys parent? anchor ⊆ q.carried parent? anchor :=
  List.append_subset.2 ⟨List.subset_append_left .., fun _ member =>
    List.mem_append_right _ (Carried.firsts_subset _ member)⟩

theorem exists_mem_selectedKeys {parent? : Option Relation} {anchor : String} {key : Carried}
    (member : key ∈ q.carried parent? anchor) :
    ∃ first ∈ q.selectedKeys parent? anchor, first.name = key.name := by
  rcases List.mem_append.1 member with foreign | own
  · exact ⟨key, List.mem_append_left _ foreign, rfl⟩
  · obtain ⟨first, kept, same⟩ := Carried.exists_mem_firsts own
    exact ⟨first, List.mem_append_right _ kept, same⟩

theorem oneToOne_carriedForeign (parent? : Option Relation) (q : Query) :
    Carried.OneToOne (q.carriedForeign parent?) := by
  unfold carriedForeign
  split
  · cases parent? with
    | none => exact fun _ => (nomatch ·)
    | some relation => exact relation.oneToOne_carriedForeign q.config
  · exact fun _ => (nomatch ·)

/-- Names without two underscores in a row are told apart, in a statement over the table that the
keys of the fetch belong to. -/
theorem oneToOne_of_plain {parent? : Option Relation} {anchor : String}
    (own : ∀ relation ∈ q.relations, ∀ key ∈ relation.link.own, Name.Plain key)
    (foreign : ∀ relation ∈ parent?, relation.table.knownAs = anchor ∧
      ∀ key ∈ relation.link.foreign, Name.Plain (Name.last key)) :
    Carried.OneToOne (q.carried parent? anchor) := by
  refine @Carried.oneToOne_of_named q.config anchor _ fun key member => ?_
  rcases List.mem_append.1 member with fetched | declared
  · unfold carriedForeign at fetched
    split at fetched
    · cases parent? with
      | none => cases fetched
      | some relation =>
        obtain ⟨known, plain⟩ := foreign relation rfl
        rw [Option.elim_some, Relation.carriedForeign_eq q.config known] at fetched
        obtain ⟨name, held, rfl⟩ := List.mem_map.1 fetched
        exact ⟨_, plain name held, rfl⟩
    · cases fetched
  · obtain ⟨name, held, rfl⟩ := List.mem_map.1 declared
    obtain ⟨relation, among, found⟩ := List.mem_flatMap.1 (List.mem_filter.1 held).1
    exact ⟨name, own relation among name found, rfl⟩

theorem mem_carried_of_own {parent? : Option Relation} {anchor key : String} {relation : Relation}
    (declared : relation ∈ q.relations) (held : key ∈ relation.link.own)
    (exposed : q.statement.hasSelectList ∨ Name.isDotted key) :
    ⟨(KeyName.own q.config key).hidden, Name.qualify anchor key⟩ ∈ q.carried parent? anchor := by
  refine List.mem_append_right _ (List.mem_map.2 ⟨key, List.mem_filter.2 ⟨?_, ?_⟩, rfl⟩)
  · exact List.mem_flatMap.2 ⟨relation, declared, held⟩
  · simpa using exposed

theorem mem_carried_of_foreign {parent? : Option Relation} {anchor key : String}
    {relation : Relation} (fetched : parent? = some relation) (held : key ∈ relation.link.foreign)
    (exposed : q.statement.hasSelectList) :
    ⟨(KeyName.foreign q.config key).hidden, relation.table.knownAs ++ "." ++ Name.last key⟩ ∈
      q.carried parent? anchor := by
  refine List.mem_append_left _ ?_
  rw [carriedForeign, if_pos exposed, fetched]
  exact List.mem_map.2 ⟨key, held, rfl⟩

theorem Sends.exists_extras {s : Statement} (sends : q.Sends s) : ∃ anchor aggregates,
    q.statement.knownAs = .ok anchor ∧ s.outputs = q.statement.outputs ∧
    s.extras = q.statement.extras ++ aggregates ++
      (Carried.firsts (q.carriedOwn anchor)).map Carried.output ∧
    ∀ output ∈ aggregates, output.aggregateLabel?.isSome := by
  obtain ⟨assembly, compiled, outputs, extras⟩ : ∃ assembly, q.compile = .ok assembly ∧
      s.outputs = assembly.statement.outputs ∧ s.extras = assembly.statement.extras := by
    cases sends with
    | base compiled => exact ⟨_, compiled, rfl, rfl⟩
    | fetch compiled lead => exact ⟨_, compiled, rfl, rfl⟩
  have declared := relations_of_compile compiled
  obtain ⟨scope, parts, statement, known, made, filled, rfl⟩ := exists_of_assemble compiled
  obtain ⟨anchor, based, known⟩ := Outcome.exists_of_bind known
  cases known
  obtain ⟨selected, behind⟩ := outputs_of_fillDeferred filled
  refine ⟨anchor, parts.aggregates, based, outputs.trans selected, ?_, fun output member => ?_⟩
  · rw [← keyOutputs_eq_firsts, declared, extras, ← behind]
  · obtain ⟨aggregate, _, compiles⟩ :=
      Outcome.exists_of_mapM (mapM_of_parts made).1 output member
    obtain ⟨rows, _, compiles⟩ := Outcome.exists_of_bind compiles
    cases compiles
    rfl

/-- All statements of a run are of queries that it compiles, but for the one that counts the rows.
In each of them, behind the columns called for, stand the foreign keys of the rows if there is a
select list, the aggregates, and of the local keys that are dotted or, with a select list, of all
local keys, the first of each name. So every key is read back from an item of its own if and only if
no two of one name stand for different columns, and no label called for is taken for a key. Foreign
keys never differ in this way, nor do any keys with names in which no part has two underscores in a
row or one at its end, if the rows are fetched from the table that the foreign keys belong to. -/
theorem readBack_of_sent (config : Config) (calls : List Step) (driver : Driver) :
    (∀ sql ∈ ((built config calls).get driver).2, (built config calls).Sent sql) ∧
    ∀ parent? q s, (built config calls).Reaches parent? q → q.Sends s →
      ∃ anchor aggregates, q.statement.knownAs = .ok anchor ∧
        s.extras = (q.carriedForeign parent?).map Carried.output ++ aggregates ++
          (Carried.firsts (q.carriedOwn anchor)).map Carried.output ∧
        (∀ output ∈ aggregates, output.aggregateLabel?.isSome) ∧
        (∀ name, (Carried.firsts (q.carriedOwn anchor)).filter (·.name = name) =
          ((q.carriedOwn anchor).find? (·.name = name)).toList) ∧
        (∀ relation ∈ q.relations, ∀ key ∈ relation.link.own,
          q.statement.hasSelectList ∨ Name.isDotted key →
            ⟨(KeyName.own q.config key).hidden, Name.qualify anchor key⟩ ∈
              q.carried parent? anchor) ∧
        (q.statement.hasSelectList → ∀ relation, parent? = some relation →
          ∀ key ∈ relation.link.foreign,
            ⟨(KeyName.foreign q.config key).hidden,
              relation.table.knownAs ++ "." ++ Name.last key⟩ ∈ q.carried parent? anchor) ∧
        (Carried.ReadBack (q.carried parent? anchor) (s.outputs ++ s.extras) ↔
          Carried.OneToOne (q.carried parent? anchor) ∧
            ∀ item ∈ s.outputs ++ aggregates, ∀ key ∈ q.carried parent? anchor,
              item.shown = key.name → item = key.output) ∧
        (Carried.ReadBack (q.carried parent? anchor) (s.outputs ++ s.extras) →
          ∀ value row, Output.Answered (s.outputs ++ s.extras) value row →
            ∀ (name : KeyName) (column : String),
              ⟨name.hidden, column⟩ ∈ q.carried parent? anchor →
              name.read row =
                (some (value (.column column (some name.hidden)))).filter (!·.isNull)) ∧
        Carried.OneToOne (q.carriedForeign parent?) ∧
        ((∀ relation ∈ q.relations, ∀ key ∈ relation.link.own, Name.Plain key) →
          (∀ relation ∈ parent?, relation.table.knownAs = anchor ∧
            ∀ key ∈ relation.link.foreign, Name.Plain (Name.last key)) →
          Carried.OneToOne (q.carried parent? anchor)) := by
  refine ⟨sent_of_get _ driver, fun parent? q s reaches sends => ?_⟩
  obtain ⟨anchor, aggregates, known, outputs, extras, labelled⟩ := sends.exists_extras
  rw [extras_of_reaches reaches] at extras
  refine ⟨anchor, aggregates, known, extras, labelled, Carried.filter_firsts _, ?_, ?_, ?_,
    fun reads value row answered name column => reads.read answered,
    oneToOne_carriedForeign parent? q, oneToOne_of_plain⟩
  · exact fun relation declared key held => mem_carried_of_own declared held
  · exact fun exposed relation fetched key held => mem_carried_of_foreign fetched held exposed
  · refine Carried.readBack_iff (selectedKeys_subset parent? anchor q)
      (fun key => exists_mem_selectedKeys) fun item => ?_
    simp only [extras, selectedKeys, List.mem_append, List.mem_map]
    grind

def selectiveCalls : List Step := [
  .fromTable "users",
  .select "name",
  .load .many {
    target := "orders", foreign := ["user_id"], own := ["id"]
    refinement := some [
      .select "total",
      .aggregate .count { target := "items", foreign := ["order_id"], own := ["id"] } "*",
      .load .many { target := "items", foreign := ["order_id"], own := ["id"] }] }]

def selective : Query := built {} selectiveCalls

def selectiveText : String :=
  "SELECT \"total\", \"orders\".\"user_id\" AS \"__rq_user_id\", (SELECT COUNT(*) FROM " ++
    "\"items\" AS \"items_count_s2\" WHERE \"items_count_s2\".\"order_id\" = " ++
    "\"orders\".\"id\") AS \"items_count\", \"orders\".\"id\" AS \"__rq_id\" FROM " ++
    "\"orders\" WHERE \"orders\".\"user_id\" IN ('u1')"

theorem selective_readBack : ∃ relation child s,
    selective.Reaches (some relation) child ∧ child.Sends s ∧ s.sql = .ok selectiveText ∧
    Carried.ReadBack [⟨"__rq_user_id", "orders.user_id"⟩, ⟨"__rq_id", "orders.id"⟩]
      (s.outputs ++ s.extras) := by
  have compiles : (do
      let relation ← selective.relations.head?
      let child ← (relation.related selective.config selective.depth).toOption
      let assembly ← child.compile.toOption
      return decide (
        (∀ relation ∈ child.relations, ∀ key ∈ relation.link.own, Name.Plain key) ∧
        relation.table.knownAs = "orders" ∧
        (∀ key ∈ relation.link.foreign, Name.Plain (Name.last key)) ∧
        child.statement.knownAs.toOption = some "orders" ∧
        child.carriedForeign (some relation) = [⟨"__rq_user_id", "orders.user_id"⟩] ∧
        child.carriedOwn "orders" = [⟨"__rq_id", "orders.id"⟩] ∧
        assembly.statement.outputs.map Output.shown = ["total"] ∧
        assembly.statement.extras.map Output.shown =
          ["__rq_user_id", "items_count", "__rq_id"] ∧
        (assembly.statement.follow (Relation.keyFilter relation.foreignColumns
          [[.text "u1"]])).sql.toOption = some selectiveText)) = some true := by
    decide +kernel
  obtain ⟨relation, first, compiles⟩ := Option.bind_eq_some_iff.1 compiles
  obtain ⟨child, related, compiles⟩ := Option.bind_eq_some_iff.1 compiles
  obtain ⟨assembly, compiled, compiles⟩ := Option.bind_eq_some_iff.1 compiles
  simp only [pure, Option.some.injEq, decide_eq_true_eq] at compiles
  obtain ⟨own, known, foreign, based, fetched, held, chosen, behind, written⟩ := compiles
  have reaches : selective.Reaches (some relation) child :=
    .fetch .base (List.mem_of_head? first) (Outcome.ok_of_toOption related)
  have sends := Sends.fetch (Outcome.ok_of_toOption compiled)
    (Relation.keyFilter relation.foreignColumns [[.text "u1"]])
  obtain ⟨anchor, aggregates, same, extras, -, -, -, -, reads, -, -, apart⟩ :=
    (readBack_of_sent {} selectiveCalls oneUser).2 _ _ _ reaches sends
  obtain rfl : anchor = "orders" := by
    simpa [same, Except.toOption] using based
  have plain : ∀ other ∈ some relation, other.table.knownAs = "orders" ∧
      ∀ key ∈ other.link.foreign, Name.Plain (Name.last key) := by
    rintro _ ⟨⟩
    exact ⟨known, foreign⟩
  have labels : aggregates.map Output.shown = ["items_count"] := by
    have one : Carried.firsts [⟨"__rq_id", "orders.id"⟩] = [⟨"__rq_id", "orders.id"⟩] := rfl
    change assembly.statement.extras = _ at extras
    rw [extras, fetched, held, one] at behind
    have cut : aggregates.map Output.shown ++ ["__rq_id"] = ["items_count"] ++ ["__rq_id"] := by
      simpa [Carried.output, Output.shown] using behind
    exact List.append_cancel_right cut
  rw [carried, fetched, held] at reads apart
  refine ⟨relation, child, _, reaches, sends, Outcome.ok_of_toOption written,
    reads.2 ⟨apart own plain, fun item member key among same => ?_⟩⟩
  have shown : item.shown ∈ ["total", "items_count"] := by
    rcases List.mem_append.1 member with output | aggregate
    · have labelled := chosen ▸ List.mem_map_of_mem output
      exact List.mem_append_left _ labelled
    · have labelled := labels ▸ List.mem_map_of_mem aggregate
      exact List.mem_append_right ["total"] labelled
  have reserved : ∀ key ∈ [(⟨"__rq_user_id", "orders.user_id"⟩ : Carried)] ++
      [⟨"__rq_id", "orders.id"⟩], key.name ∉ ["total", "items_count"] := by decide
  exact absurd (same ▸ shown) (reserved key among)

def ownerCalls : List Step := [
  .fromTable "users",
  .join .inner "shop" "users.shop_id" "shop.id",
  .join .inner "shop__owner" "shop.id" "shop__owner.shop_id",
  .load .many { target := "logs", foreign := ["owner_ref"], own := ["shop.owner__id"] },
  .load .many { target := "letters", foreign := ["recipient"], own := ["shop__owner.id"] }]

def owners : Query := built {} ownerCalls

def oneOwner : Driver := fun sent _ => .ok <|
  if sent = [] then [[("id", .text "u1"), ("__rq_shop__owner__id", .text "a")]] else []

/-- The letters are asked for by a column of the other table. -/
theorem owners_not_readBack :
    owners.carried none "users" = [⟨"__rq_shop__owner__id", "shop.owner__id"⟩,
      ⟨"__rq_shop__owner__id", "shop__owner.id"⟩] ∧
    (owners.get oneOwner).2 = [
      "SELECT \"users\".*, \"shop\".\"owner__id\" AS \"__rq_shop__owner__id\" FROM \"users\" " ++
        "INNER JOIN \"shop\" ON \"users\".\"shop_id\" = \"shop\".\"id\" " ++
        "INNER JOIN \"shop__owner\" ON \"shop\".\"id\" = \"shop__owner\".\"shop_id\"",
      "SELECT \"logs\".* FROM \"logs\" WHERE \"logs\".\"owner_ref\" IN ('a')",
      "SELECT \"letters\".* FROM \"letters\" WHERE \"letters\".\"recipient\" IN ('a')"] ∧
    ¬Carried.OneToOne (owners.carried none "users") ∧
    ∀ items, ¬Carried.ReadBack (owners.carried none "users") items := by
  have clash : ¬Carried.OneToOne (owners.carried none "users") := by decide +kernel
  refine ⟨by decide +kernel, ?_, clash, fun items reads => clash reads.oneToOne⟩
  unfold get run loadUsing
  simp only [Relation.attach_eq_ite, Relation.distinctKeys_eq]
  decide +kernel

end Query

end RelationQuery
