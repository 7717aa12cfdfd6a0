import RelationQuery.Proofs.Join

/-! Which labels may be stored under so that the keys of a row stay as they were read. Main
statement: storing a relation leaves all key texts alone exactly when its label is spared. -/
namespace RelationQuery

namespace KeyName

def HiddenOnly (name : KeyName) : Prop := name.plain = none ∨ name.plain = some name.hidden

instance (name : KeyName) : Decidable name.HiddenOnly := inferInstanceAs (Decidable (_ ∨ _))

/-- The label is none of the names the key columns are read under. A plain name does not count
where a complete key has the reserved one anyway, which another column is only read under. -/
def Spares (names : List KeyName) (label : String) : Prop :=
  ∀ name ∈ names, label ≠ name.hidden ∧
    (name.plain = some label → ∃ other ∈ names, other.hidden = name.hidden ∧ other.HiddenOnly)

instance (names : List KeyName) (label : String) : Decidable (Spares names label) :=
  inferInstanceAs (Decidable (∀ name ∈ names, _))

theorem read_of_hiddenOnly {name : KeyName} (h : name.HiddenOnly) (row : Row) :
    name.read row = (Fields.get? row name.hidden).filter (!·.isNull) := by
  unfold read
  rcases h with plain | plain <;> cases h : Fields.get? row name.hidden <;> simp [plain, h]

theorem readAll_cons (name : KeyName) (names : List KeyName) (row : Row) :
    readAll (name :: names) row = do
      return (← name.read row) :: (← readAll names row) := by
  simp [readAll, List.mapM_cons]

theorem readAll_eq_none {names : List KeyName} {name : KeyName} {row : Row}
    (member : name ∈ names) (h : name.read row = none) : readAll names row = none := by
  induction names with
  | nil => cases member
  | cons first rest ih =>
    rw [readAll_cons]
    rcases List.mem_cons.1 member with rfl | member
    · simp [h]
    · simp [ih member]

theorem readAll_congr {names : List KeyName} {row other : Row}
    (same : ∀ name ∈ names, name.read row = name.read other) :
    readAll names row = readAll names other := by
  induction names with
  | nil => rfl
  | cons name rest ih =>
    rw [readAll_cons, readAll_cons, same name List.mem_cons_self]
    rw [ih fun name member => same name (List.mem_cons_of_mem _ member)]

theorem readAll_eq_of_spares {names : List KeyName} {row other : Row} (labels : List String)
    (spares : ∀ label ∈ labels, Spares names label)
    (outside : ∀ name, name ∉ labels → Fields.get? row name = Fields.get? other name) :
    readAll names row = readAll names other := by
  have hidden (name : KeyName) (member : name ∈ names) :
      Fields.get? row name.hidden = Fields.get? other name.hidden := by
    apply outside
    intro stored
    exact (spares _ stored name member).1 rfl
  by_cases missing :
      ∃ name ∈ names, name.HiddenOnly ∧ Fields.get? other name.hidden = none
  · obtain ⟨name, member, only, absent⟩ := missing
    rw [readAll_eq_none member (by rw [read_of_hiddenOnly only, hidden name member, absent]; rfl),
      readAll_eq_none member (by rw [read_of_hiddenOnly only, absent]; rfl)]
  · apply readAll_congr
    intro name member
    unfold read
    rw [hidden name member]
    cases held : Fields.get? other name.hidden with
    | some value => rfl
    | none =>
      cases plain : name.plain with
      | none => rfl
      | some column =>
        have free : column ∉ labels := by
          intro stored
          obtain ⟨partner, beside, same, only⟩ := (spares _ stored name member).2 plain
          exact missing ⟨partner, beside, only, by rw [same, held]⟩
        simp [outside column free]

end KeyName

namespace Key

def ones (columns : List String) : Row :=
  columns.foldr (fun column row => Fields.put column (.boolean true) row) []

theorem get?_ones (columns : List String) (name : String) :
    Fields.get? (ones columns) name = if name ∈ columns then some (.boolean true) else none := by
  induction columns with
  | nil => rfl
  | cons column rest ih =>
    change Fields.get? (Fields.put column (.boolean true) (ones rest)) name = _
    by_cases same : column = name
    · simp [same]
    · rw [Fields.get?_put_of_ne _ _ same, ih]
      simp [Ne.symm same]

theorem mem_text_of_mem {values : List Value} {value : Value} {c : Char}
    (member : value ∈ values) (h : c ∈ partText value) : c ∈ (text values).toList := by
  rw [text, String.toList_ofList]
  exact Text.mem_intercalate_of_mem (List.mem_map_of_mem member) h

theorem mem_text {values : List Value} {c : Char} (h : c ∈ (text values).toList) :
    c = '\x1f' ∨ ∃ value ∈ values, c ∈ partText value := by
  rw [text, String.toList_ofList] at h
  rcases Text.mem_of_mem_intercalate h with mark | ⟨part, member, found⟩
  · exact .inl (List.mem_singleton.1 mark)
  · obtain ⟨value, held, rfl⟩ := List.mem_map.1 member
    exact .inr ⟨value, held, found⟩

end Key

namespace KeyName

def Complete (names : List KeyName) (row : Row) : Prop :=
  ∀ name ∈ names, name.read row = some (.boolean true)

theorem read_put_hidden (name : KeyName) (row : Row) (value : Value) :
    name.read (Fields.put name.hidden value row) = (some value).filter (!·.isNull) := by
  unfold read
  simp

theorem complete_ones (names : List KeyName) :
    Complete names (Key.ones (names.map KeyName.hidden)) := by
  intro name member
  have held : name.hidden ∈ names.map KeyName.hidden := List.mem_map_of_mem member
  simp only [read, Key.get?_ones, held, if_true]
  rfl

/-- A label that is not spared hides a column of some complete key. -/
theorem exists_complete_of_not_spares {names : List KeyName} {label : String}
    (h : ¬Spares names label) :
    ∃ row, Complete names row ∧ ∃ name ∈ names, ∀ value,
      name.read (Fields.put label value row) = (some value).filter (!·.isNull) := by
  by_cases hidden : ∃ name ∈ names, label = name.hidden
  · obtain ⟨name, member, rfl⟩ := hidden
    refine ⟨_, complete_ones names, name, member, ?_⟩
    intro value
    exact read_put_hidden name _ value
  · -- The column is read under its plain name, so the row must not have its reserved one.
    unfold Spares at h
    push Not at h hidden
    obtain ⟨name, member, h⟩ := h
    obtain ⟨plain, alone⟩ := h (hidden name member)
    have aside (other : KeyName) (beside : other ∈ names) (same : other.hidden = name.hidden) :
        ∃ column, other.plain = some column ∧ column ≠ name.hidden := by
      have open' := alone other beside same
      unfold HiddenOnly at open'
      push Not at open'
      obtain ⟨column, eq⟩ := Option.ne_none_iff_exists'.1 open'.1
      exact ⟨column, eq, fun clash => open'.2 (by rw [eq, clash, same])⟩
    let columns := label :: names.filterMap fun other =>
      if other.hidden = name.hidden then other.plain else some other.hidden
    have absent : name.hidden ∉ columns := by
      intro found
      rcases List.mem_cons.1 found with clash | found
      · exact hidden name member clash.symm
      · obtain ⟨other, beside, eq⟩ := List.mem_filterMap.1 found
        split at eq
        · next same =>
          obtain ⟨column, plain, ne⟩ := aside other beside same
          exact ne (Option.some.inj (plain.symm.trans eq))
        · next ne => exact ne (Option.some.inj eq)
    refine ⟨Key.ones columns, ?_, name, member, ?_⟩
    · intro other beside
      by_cases same : other.hidden = name.hidden
      · obtain ⟨column, eq, _⟩ := aside other beside same
        have held : column ∈ columns :=
          List.mem_cons_of_mem _ (List.mem_filterMap.2 ⟨other, beside, by simp [same, eq]⟩)
        simp only [read, Key.get?_ones, same, absent, if_false, eq, Option.bind_some, held, if_true]
        rfl
      · have held : other.hidden ∈ columns :=
          List.mem_cons_of_mem _ (List.mem_filterMap.2 ⟨other, beside, by simp [same]⟩)
        simp only [read, Key.get?_ones, held, if_true]
        rfl
    · intro value
      simp only [read, plain, Option.bind_some, Fields.get?_put_self,
        Fields.get?_put_of_ne _ _ (hidden name member), Key.get?_ones, absent, if_false]
      rfl

theorem readAll_of_complete {names : List KeyName} {row : Row} (h : Complete names row) :
    readAll names row = some (List.replicate names.length (.boolean true)) := by
  induction names with
  | nil => rfl
  | cons name rest ih =>
    rw [readAll_cons, h name List.mem_cons_self,
      ih fun other member => h other (List.mem_cons_of_mem _ member)]
    rfl

theorem mem_of_readAll {names : List KeyName} {row : Row} {values : List Value} {name : KeyName}
    {value : Value} (all : readAll names row = some values) (member : name ∈ names)
    (h : name.read row = some value) : value ∈ values := by
  induction names generalizing values with
  | nil => cases member
  | cons first rest ih =>
    rw [readAll_cons] at all
    cases head : first.read row with
    | none => simp [head] at all
    | some front =>
      cases tail : readAll rest row with
      | none => simp [tail] at all
      | some more =>
        obtain rfl : front :: more = values := by simpa [head, tail] using all
        rcases List.mem_cons.1 member with rfl | member
        · exact List.mem_cons.2 (.inl (Option.some.inj (h.symm.trans head)))
        · exact List.mem_cons_of_mem _ (ih tail member)

end KeyName

namespace Relation

variable {config : Config} {relation : Relation} {names : List KeyName}

theorem spares_iff_keyText :
    KeyName.Spares names relation.label ↔ ∀ rows fetched,
      (relation.joinRows config rows fetched).map (keyText? names) =
        rows.map (keyText? names) := by
  simp only [joinRows_eq_nestedLoop]
  constructor
  · intro spares rows fetched
    unfold nestedLoop
    rw [List.map_map]
    apply List.map_congr_left
    intro row _
    simp only [Function.comp_apply, keyText?]
    rw [KeyName.readAll_eq_of_spares [relation.label] (by simpa using spares)]
    intro name other
    exact Fields.get?_put_of_ne row _ (by simpa [eq_comm] using other)
  · intro same
    by_contra taken
    obtain ⟨row, complete, name, member, hides⟩ := KeyName.exists_complete_of_not_spares taken
    have same := same [row] []
    simp only [nestedLoop, List.map_cons, List.map_nil, List.filter_nil, List.cons.injEq, and_true,
      keyText?, KeyName.readAll_of_complete complete, Option.map_some] at same
    obtain ⟨values, all, text⟩ := Option.map_eq_some_iff.1 same
    have read := hides (gather relation.cardinality [])
    cases one : relation.cardinality with
    | one =>
      rw [KeyName.readAll_eq_none member (by rw [read, one]; rfl)] at all
      cases all
    | many =>
      have stored := KeyName.mem_of_readAll all member (by rw [read, one]; rfl)
      have bracket : '[' ∈ (Key.text values).toList := by
        apply Key.mem_text_of_mem stored
        simp [Key.partText, gather, Value.json]
      rw [text] at bracket
      rcases Key.mem_text bracket with mark | ⟨value, held, found⟩
      · simp at mark
      · rw [List.eq_of_mem_replicate held] at found
        simp [Key.partText] at found

end Relation

end RelationQuery
