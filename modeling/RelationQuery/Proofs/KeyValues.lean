import RelationQuery.Proofs.Provenance
import RelationQuery.Proofs.Spares

/-! The values that related rows are asked for by. Main statement: each of them is read from a row
as it was before relations were stored in it, unless it is one stored under a label that is not
spared. -/
namespace RelationQuery

namespace KeyName

variable {names : List KeyName}

theorem exists_read_of_mem {row : Row} {key : List Value} {value : Value}
    (all : readAll names row = some key) (member : value ∈ key) :
    ∃ name ∈ names, name.read row = some value := by
  induction names generalizing key with
  | nil =>
    cases all
    cases member
  | cons first rest ih =>
    rw [readAll_cons] at all
    obtain ⟨front, head, all⟩ := Option.bind_eq_some_iff.1 all
    obtain ⟨more, tail, all⟩ := Option.bind_eq_some_iff.1 all
    cases all
    rcases List.mem_cons.1 member with rfl | member
    · exact ⟨first, List.mem_cons_self, head⟩
    · obtain ⟨name, found, read⟩ := ih tail member
      exact ⟨name, List.mem_cons_of_mem _ found, read⟩

theorem exists_read_or {row origin : Row} {stored : String → Value → Prop}
    (fields : ∀ name, Fields.get? row name = Fields.get? origin name ∨
      ∃ value, stored name value ∧ Fields.get? row name = some value)
    {key : List Value} {value : Value} (all : readAll names row = some key)
    (member : value ∈ key) :
    (∃ name ∈ names, name.read origin = some value) ∨
      ∃ label, ¬Spares names label ∧ stored label value := by
  obtain ⟨name, found, read⟩ := exists_read_of_mem all member
  unfold KeyName.read at read
  cases hidden : Fields.get? row name.hidden with
  | some held =>
    obtain ⟨rfl, present⟩ : held = value ∧ value.isNull = false := by simpa [hidden] using read
    rcases fields name.hidden with same | ⟨other, put, reads⟩
    · exact .inl ⟨name, found, by simp [KeyName.read, ← same, hidden, present]⟩
    · obtain rfl : held = other := Option.some.inj (hidden.symm.trans reads)
      exact .inr ⟨name.hidden, fun spares => (spares name found).1 rfl, put⟩
  | none =>
    have absent : Fields.get? origin name.hidden = none := by
      rcases fields name.hidden with same | ⟨other, _, reads⟩
      · exact same.symm.trans hidden
      · rw [hidden] at reads
        cases reads
    cases plain : name.plain with
    | none => simp [hidden, plain] at read
    | some column =>
      obtain ⟨shown, present⟩ : Fields.get? row column = some value ∧ value.isNull = false := by
        simpa [hidden, plain, Option.filter_eq_some_iff] using read
      rcases fields column with same | ⟨other, put, reads⟩
      · exact .inl ⟨name, found, by simp [KeyName.read, absent, plain, ← same, shown, present]⟩
      · obtain rfl : value = other := Option.some.inj (shown.symm.trans reads)
        refine .inr ⟨column, fun spares => ?_, put⟩
        -- A spared column has a partner under the same reserved name, which is missing here.
        obtain ⟨partner, beside, same, only⟩ := (spares name found).2 plain
        have missing : partner.read row = none := by
          rw [read_of_hiddenOnly only, same, hidden]
          rfl
        rw [readAll_eq_none beside missing] at all
        cases all

theorem isSome_readAll {row : Row} (h : ∀ name ∈ names, (name.read row).isSome) :
    ∃ key, readAll names row = some key := by
  induction names with
  | nil => exact ⟨[], rfl⟩
  | cons name rest ih =>
    obtain ⟨more, tail⟩ := ih fun name member => h name (List.mem_cons_of_mem _ member)
    obtain ⟨value, head⟩ := Option.isSome_iff_exists.1 (h name List.mem_cons_self)
    exact ⟨value :: more, by rw [readAll_cons, head, tail]; rfl⟩

theorem isSome_read_put {name : KeyName} {row : Row} {stored : Value} (label : String)
    (present : stored.isNull = false) (h : (name.read row).isSome) :
    (name.read (Fields.put label stored row)).isSome := by
  unfold KeyName.read at *
  by_cases hides : label = name.hidden
  · simp [← hides, present]
  · rw [Fields.get?_put_of_ne row stored hides]
    cases hidden : Fields.get? row name.hidden with
    | some held => simpa [hidden] using h
    | none =>
      cases plain : name.plain with
      | none => simp [hidden, plain] at h
      | some column =>
        by_cases shows : label = column
        · simp [shows, present]
        · simpa [hidden, plain, Fields.get?_put_of_ne row stored shows] using h

/-- What a relation stores is never read as a key exactly when its label is spared. -/
theorem spares_iff_read {relation : Relation} :
    Spares names relation.label ↔ ∀ row rows key,
      readAll names
          (Fields.put relation.label (Relation.gather relation.cardinality rows) row) = some key →
        ∀ value ∈ key, ∃ name ∈ names, name.read row = some value := by
  constructor
  · intro spares row rows key all value member
    let stored := Relation.gather relation.cardinality rows
    have fields (name : String) :
        Fields.get? (Fields.put relation.label stored row) name = Fields.get? row name ∨
          ∃ value, (name = relation.label ∧ value = stored) ∧
            Fields.get? (Fields.put relation.label stored row) name = some value := by
      by_cases same : name = relation.label
      · exact .inr ⟨stored, ⟨same, rfl⟩, by rw [same, Fields.get?_put_self]⟩
      · exact .inl (Fields.get?_put_of_ne row stored (Ne.symm same))
    rcases exists_read_or fields all member with held | ⟨_, taken, rfl, _⟩
    · exact held
    · exact absurd spares taken
  · intro same
    by_contra taken
    obtain ⟨row, complete, name, member, hides⟩ := exists_complete_of_not_spares taken
    have held : (Relation.gather relation.cardinality [[]]).isNull = false := by
      cases relation.cardinality <;> rfl
    have whole : ∀ other ∈ names, (other.read (Fields.put relation.label
        (Relation.gather relation.cardinality [[]]) row)).isSome := by
      intro other found
      exact isSome_read_put relation.label held (by rw [complete other found]; rfl)
    obtain ⟨key, all⟩ := isSome_readAll whole
    have shown : Relation.gather relation.cardinality [[]] ∈ key :=
      mem_of_readAll all member (by rw [hides, Option.filter_some, held]; rfl)
    obtain ⟨other, found, read⟩ := same row [[]] key all _ shown
    rw [complete other found] at read
    cases one : relation.cardinality <;> rw [one] at read <;> cases read

end KeyName

namespace Relation

variable {config : Config} {relation : Relation} {given : Value → Prop}

theorem spares_iff_isSome_keyText {names : List KeyName} :
    KeyName.Spares names relation.label ↔ ∀ rows fetched,
      (relation.joinRows config rows fetched).map (fun row => (keyText? names row).isSome) =
        rows.map fun row => (keyText? names row).isSome := by
  constructor
  · intro spares rows fetched
    have texts : (relation.joinRows config rows fetched).map (keyText? names) =
        rows.map (keyText? names) := spares_iff_keyText.1 spares rows fetched
    simpa [Function.comp_def] using congrArg (List.map Option.isSome) texts
  · intro same
    by_contra taken
    obtain ⟨row, complete, name, member, hides⟩ := KeyName.exists_complete_of_not_spares taken
    simp only [joinRows_eq_nestedLoop] at same
    cases one : relation.cardinality with
    | one =>
      have lost : KeyName.readAll names
          (Fields.put relation.label (gather relation.cardinality []) row) = none :=
        KeyName.readAll_eq_none member (by rw [hides, one]; rfl)
      have same := same [row] []
      simp [nestedLoop, keyText?, lost, KeyName.readAll_of_complete complete] at same
    | many =>
      let bare := Fields.put relation.label .null row
      have lacks : KeyName.readAll names bare = none :=
        KeyName.readAll_eq_none member (hides .null)
      have fields : Fields.get? (Fields.put relation.label (gather relation.cardinality []) bare) =
          Fields.get? (Fields.put relation.label (gather relation.cardinality []) row) := by
        funext column
        by_cases here : relation.label = column
        · simp [here]
        · simp [bare, Fields.get?_put_of_ne _ _ here]
      have stored : (gather relation.cardinality []).isNull = false := by
        rw [one]
        rfl
      have whole : ∀ other ∈ names, (other.read
          (Fields.put relation.label (gather relation.cardinality []) bare)).isSome := by
        intro other beside
        have held := KeyName.isSome_read_put relation.label stored
          (Option.isSome_of_eq_some (complete other beside))
        unfold KeyName.read at held ⊢
        rwa [fields]
      obtain ⟨key, gains⟩ := KeyName.isSome_readAll whole
      have same := same [bare] []
      simp [nestedLoop, keyText?, lacks, gains] at same

theorem exists_readAll_of_mem_distinctKeys {names : List KeyName} {rows : List Row}
    {key : List Value} (member : key ∈ distinctKeys names rows) :
    ∃ row ∈ rows, KeyName.readAll names row = some key := by
  suffices kept : ∀ (keys : List (List Value)) (start : Std.HashSet String × Array (List Value)),
      key ∈ (keys.foldl keepKey start).2.toList → key ∈ start.2.toList ∨ key ∈ keys by
    rcases kept _ _ member with old | new
    · simp at old
    · exact List.mem_filterMap.1 new
  intro keys
  induction keys with
  | nil => exact fun start => .inl
  | cons first rest ih =>
    intro start held
    rcases ih _ held with old | new
    · unfold keepKey at old
      split at old
      · exact .inl old
      · simp only [Array.toList_push, List.mem_append, List.mem_singleton] at old
        exact old.imp_right fun same => List.mem_cons.2 (.inl same)
    · exact .inr (List.mem_cons_of_mem _ new)

theorem grounded_keyFilter (columns : List String) {keys : List (List Value)}
    (h : ∀ key ∈ keys, ∀ value ∈ key, given value) (connective : Connective)
    (condition : Condition)
    (member : .item connective (.ready condition) ∈ keyFilter columns keys) :
    condition.Grounded given := by
  unfold keyFilter at member
  split at member
  · obtain ⟨rfl, rfl⟩ : connective = .and ∧ condition = _ := by simpa using member
    intro value held
    obtain ⟨key, found, first⟩ := List.mem_filterMap.1 held
    exact h key found value (List.mem_of_head? first)
  · simp only [List.mem_cons, reduceCtorEq, List.mem_append, List.mem_flatMap, List.not_mem_nil,
      or_false, false_or, ← List.map_uncurry_zip_eq_zipWith, List.mem_map] at member
    obtain ⟨key, found, ⟨column, value⟩, paired, same⟩ := member
    cases same
    exact Condition.grounded_comparing (h key found value (List.of_mem_zip paired).2) ..

theorem nesting_keyFilter (columns : List String) (keys : List (List Value)) :
    Clause.nesting 0 (keyFilter columns keys) = some 0 := by
  unfold keyFilter
  split
  · rfl
  · apply Clause.nesting_group
    apply Clause.nesting_flatMap
    intro key _
    apply Clause.nesting_group
    apply Clause.nesting_of_items
    rw [← List.map_uncurry_zip_eq_zipWith]
    intro entry member
    obtain ⟨⟨column, value⟩, _, rfl⟩ := List.mem_map.1 member
    exact ⟨_, _, rfl⟩

end Relation

end RelationQuery
