import Mathlib.Data.List.Forall2
import RelationQuery.Load

/-! The hash join of fetched rows is the nested-loop join: every row gets the fetched rows whose
key reads like its own, in the order they were fetched. -/
namespace RelationQuery.Relation

def keyText? (names : List KeyName) (row : Row) : Option String :=
  (KeyName.readAll names row).map Key.text

variable (config : Config) (relation : Relation)

/-- Both keys are complete and read alike. -/
def Belongs (row child : Row) : Prop :=
  ∃ key, keyText? (relation.ownNames config) row = some key ∧
    keyText? (relation.foreignNames config) child = some key

instance (row child : Row) : Decidable (Belongs config relation row child) :=
  match h : keyText? (relation.ownNames config) row with
  | none => isFalse (by simp [Belongs, h])
  | some key =>
    decidable_of_iff (keyText? (relation.foreignNames config) child = some key)
      (by simp [Belongs, h])

/-- Stores in every row the fetched rows that belong to it, each row looked at on its own. -/
def nestedLoop (rows fetched : List Row) : List Row :=
  rows.map fun row =>
    Fields.put relation.label
      (gather relation.cardinality (fetched.filter (Belongs config relation row))) row

variable {config relation}

theorem filter_belongs_of_none {row : Row} (fetched : List Row)
    (h : keyText? (relation.ownNames config) row = none) :
    fetched.filter (Belongs config relation row) = [] := by
  simp [Belongs, h]

theorem filter_belongs_of_some {row : Row} {key : String} (fetched : List Row)
    (h : keyText? (relation.ownNames config) row = some key) :
    fetched.filter (Belongs config relation row) =
      fetched.filter fun child => keyText? (relation.foreignNames config) child = some key := by
  simp [Belongs, h]

def Keyless (config : Config) (relation : Relation) (rows : List Row) : Prop :=
  ∀ row ∈ rows, keyText? (relation.ownNames config) row = none

instance (rows : List Row) : Decidable (Keyless config relation rows) :=
  inferInstanceAs (Decidable (∀ row ∈ rows, _))

theorem nestedLoop_of_keyless {rows : List Row} (fetched : List Row)
    (h : Keyless config relation rows) :
    nestedLoop config relation rows fetched =
      rows.map (Fields.put relation.label (gather relation.cardinality [])) := by
  apply List.map_congr_left
  intro row member
  rw [filter_belongs_of_none fetched (h row member)]

private theorem toList_getD_foldl_addToGroup (names : List KeyName) (rows : List Row)
    (groups : Std.HashMap String (Array Row)) (key : String) :
    ((rows.foldl (addToGroup names) groups)[key]?.getD #[]).toList =
      (groups[key]?.getD #[]).toList ++ rows.filter fun row => keyText? names row = some key := by
  induction rows generalizing groups with
  | nil => simp
  | cons row rest ih =>
    rw [List.foldl_cons, ih]
    unfold addToGroup
    cases h : KeyName.readAll names row with
    | none => simp [keyText?, h]
    | some values =>
      simp only [Std.HashMap.getElem?_alter, beq_iff_eq]
      by_cases same : Key.text values = key
      · simp [keyText?, h, same]
      · simp [keyText?, h, same]

theorem toList_getD_groupRows (names : List KeyName) (rows : List Row) (key : String) :
    ((groupRows names rows)[key]?.getD #[]).toList =
      rows.filter fun row => keyText? names row = some key := by
  unfold groupRows
  rw [toList_getD_foldl_addToGroup]
  simp

theorem joinRows_eq_nestedLoop (rows fetched : List Row) :
    relation.joinRows config rows fetched = nestedLoop config relation rows fetched := by
  unfold joinRows nestedLoop
  apply List.map_congr_left
  intro row _
  dsimp only
  congr 2
  cases h : KeyName.readAll (relation.ownNames config) row with
  | none => rw [filter_belongs_of_none fetched (by simp [keyText?, h])]; rfl
  | some values =>
    rw [filter_belongs_of_some fetched (by rw [keyText?, h, Option.map_some])]
    exact toList_getD_groupRows _ fetched (Key.text values)

private theorem toList_foldl_keepKey (keys found : List (List Value))
    (seen : Std.HashSet String)
    (h : ∀ key, seen.contains (Key.text key) = found.any (Key.text key == Key.text ·)) :
    (keys.foldl keepKey (seen, found.reverse.toArray)).2.toList =
      List.eraseDupsBy.loop (Key.text · == Key.text ·) keys found := by
  induction keys generalizing seen found with
  | nil => simp [List.eraseDupsBy.loop]
  | cons key rest ih =>
    have step : keepKey (seen, found.reverse.toArray) key =
        if seen.contains (Key.text key) then (seen, found.reverse.toArray)
        else (seen.insert (Key.text key), (key :: found).reverse.toArray) := by
      simp [keepKey]
    rw [List.foldl_cons, List.eraseDupsBy.loop, ← h, step]
    cases seen.contains (Key.text key) with
    | true => exact ih found seen h
    | false =>
      apply ih (key :: found)
      intro other
      rw [Std.HashSet.contains_insert, h, List.any_cons, Bool.beq_comm (a := Key.text other)]

theorem distinctKeys_eq (names : List KeyName) (rows : List Row) :
    distinctKeys names rows =
      (rows.filterMap (KeyName.readAll names)).eraseDupsBy (Key.text · == Key.text ·) :=
  toList_foldl_keepKey _ [] ∅ (by simp)

theorem isEmpty_distinctKeys_iff {rows : List Row} :
    (distinctKeys (relation.ownNames config) rows).isEmpty ↔ Keyless config relation rows := by
  have keyless : Keyless config relation rows ↔
      rows.filterMap (KeyName.readAll (relation.ownNames config)) = [] := by
    simp [Keyless, keyText?, List.filterMap_eq_nil_iff]
  rw [distinctKeys_eq, keyless]
  cases rows.filterMap (KeyName.readAll (relation.ownNames config)) with
  | nil => simp
  | cons key rest => simp [List.eraseDupsBy_cons]

theorem attach_of_keyless (fetch? : Option (Fetch (List Row))) (depth : Nat)
    {rows : List Row} (h : Keyless config relation rows) :
    attach fetch? config depth rows relation = pure (nestedLoop config relation rows []) := by
  have lacking : (distinctKeys (relation.ownNames config) rows).isEmpty :=
    isEmpty_distinctKeys_iff.2 h
  rw [nestedLoop_of_keyless [] h]
  simp [attach, lacking]

theorem attach_of_key (fetch? : Option (Fetch (List Row))) (depth : Nat)
    {rows : List Row} (h : ¬Keyless config relation rows) :
    attach fetch? config depth rows relation =
      nestedLoop config relation rows <$> relation.fetchRelated fetch? config depth
        (distinctKeys (relation.ownNames config) rows) := by
  have found : (distinctKeys (relation.ownNames config) rows).isEmpty = false := by
    rwa [← Bool.not_eq_true, isEmpty_distinctKeys_iff]
  simp [attach, found, joinRows_eq_nestedLoop]

theorem attach_eq_ite (fetch? : Option (Fetch (List Row))) (config : Config) (depth : Nat) :
    attach fetch? config depth = fun rows relation =>
      if Keyless config relation rows then pure (nestedLoop config relation rows [])
      else nestedLoop config relation rows <$> relation.fetchRelated fetch? config depth
        (distinctKeys (relation.ownNames config) rows) := by
  funext rows relation
  by_cases h : Keyless config relation rows
  · rw [attach_of_keyless _ _ h, if_pos h]
  · rw [attach_of_key _ _ h, if_neg h]

def stored (cardinality : Cardinality) (belongs : Row → Bool) (fetched : List Row) : Value :=
  match cardinality with
  | .many => .array ((fetched.filter belongs).map .object)
  | .one => ((fetched.find? belongs).map .object).getD .null

theorem gather_filter (cardinality : Cardinality) (belongs : Row → Bool) (fetched : List Row) :
    gather cardinality (fetched.filter belongs) = stored cardinality belongs fetched := by
  cases cardinality with
  | many => rfl
  | one => simp [gather, stored, List.head?_filter]

end RelationQuery.Relation
