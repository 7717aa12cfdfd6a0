import Mathlib.Data.List.InsertIdx
import RelationQuery.Proofs.KeyValues
import RelationQuery.Proofs.Origin

/-! Keys of several columns, compared by one text with a separator between the columns. Main
statement: keys agree column by column exactly when their texts are the same and the separator
stands equally often in each column, which it does when no text but that of one column has it. -/
namespace RelationQuery

namespace Key

def separator : Char := '\x1f'

/-- Both keys have as many columns, and each column reads alike. -/
def Agree (key other : List Value) : Prop :=
  List.Forall₂ (fun value against => text [value] = text [against]) key other

instance (key other : List Value) : Decidable (Agree key other) :=
  inferInstanceAs (Decidable (List.Forall₂ _ _ _))

def separators (key : List Value) : List Nat :=
  key.map fun value => (partText value).count separator

def parts : Value → Bool
  | .text value => value.toList.contains separator
  | _ => false

/-- In no column but one there is a text that reads like several columns. -/
def WholeBut (column : Nat) (key : List Value) : Prop :=
  ∀ value ∈ key.eraseIdx column, ¬parts value

instance (column : Nat) (key : List Value) : Decidable (WholeBut column key) :=
  inferInstanceAs (Decidable (∀ value ∈ key.eraseIdx column, _))

theorem text_singleton (value : Value) : text [value] = String.ofList (partText value) := by
  simp [text]

theorem agree_iff_map {key other : List Value} :
    Agree key other ↔ key.map partText = other.map partText := by
  have equal := congrFun₂ (List.forall₂_eq_eq_eq (α := List Char)) (key.map partText)
    (other.map partText)
  rw [← equal, List.forall₂_map_left_iff, List.forall₂_map_right_iff]
  simp only [Agree, text_singleton, String.ofList_inj]

theorem append_separator_inj {front back rest more : List Char}
    (same : front ++ separator :: rest = back ++ separator :: more)
    (counts : front.count separator = back.count separator) : front = back ∧ rest = more := by
  induction front generalizing back with
  | nil =>
    cases back with
    | nil => simpa using same
    | cons c back =>
      obtain ⟨rfl, -⟩ := List.cons.inj same
      simp at counts
  | cons c front ih =>
    cases back with
    | nil =>
      obtain ⟨rfl, -⟩ := List.cons.inj same
      simp at counts
    | cons d back =>
      obtain ⟨rfl, tails⟩ := List.cons.inj same
      rw [List.count_cons, List.count_cons, Nat.add_right_cancel_iff] at counts
      obtain ⟨rfl, rfl⟩ := ih tails counts
      exact ⟨rfl, rfl⟩

theorem intercalate_separator_inj {columns others : List (List Char)}
    (same : [separator].intercalate columns = [separator].intercalate others)
    (counts : columns.map (List.count separator) = others.map (List.count separator)) :
    columns = others := by
  induction columns generalizing others with
  | nil => exact (List.map_eq_nil_iff.1 counts.symm).symm
  | cons column columns ih =>
    cases others with
    | nil => cases counts
    | cons other others =>
      obtain ⟨here, later⟩ := List.cons.inj counts
      cases columns with
      | nil =>
        obtain rfl : others = [] := List.map_eq_nil_iff.1 later.symm
        simpa using same
      | cons second columns =>
        cases others with
        | nil => cases later
        | cons next others =>
          simp only [List.intercalate_cons_cons, List.append_assoc, List.singleton_append] at same
          obtain ⟨rfl, rest⟩ := append_separator_inj same here
          rw [ih rest later]

theorem agree_iff_text_separators {key other : List Value} :
    Agree key other ↔ text key = text other ∧ separators key = separators other := by
  have counts (key : List Value) :
      separators key = (key.map partText).map (List.count separator) := by
    simp [separators]
  rw [agree_iff_map, counts, counts, text, text, String.ofList_inj]
  constructor
  · intro same
    rw [same]
    exact ⟨rfl, rfl⟩
  · rintro ⟨same, counts⟩
    exact intercalate_separator_inj same counts

theorem count_intercalate_separator {columns : List (List Char)}
    (whole : ∀ column ∈ columns, separator ∉ column) :
    ([separator].intercalate columns).count separator = columns.length - 1 := by
  induction columns with
  | nil => rfl
  | cons column rest ih =>
    have here := List.count_eq_zero_of_not_mem (whole column List.mem_cons_self)
    have later := ih fun column member => whole column (List.mem_cons_of_mem _ member)
    cases rest with
    | nil => simpa using here
    | cons second rest =>
      rw [List.intercalate_cons_cons, List.count_append, List.count_append, here, later]
      simp [Nat.add_comm]

/-- Columns without the separator are told apart by it, and one more with any number of them. -/
theorem intercalate_separator_inj_of_whole {columns others : List (List Char)} {column : Nat}
    (paired : columns.length = others.length)
    (whole : ∀ text ∈ columns.eraseIdx column, separator ∉ text)
    (also : ∀ text ∈ others.eraseIdx column, separator ∉ text)
    (same : [separator].intercalate columns = [separator].intercalate others) :
    columns = others := by
  induction columns generalizing others column with
  | nil => exact (List.length_eq_zero_iff.1 paired.symm).symm
  | cons first columns ih =>
    rcases others with _ | ⟨other, others⟩
    · cases paired
    replace paired : columns.length = others.length := Nat.succ.inj paired
    cases column with
    | zero =>
      rw [List.eraseIdx_cons_zero] at whole also
      have count : first.count separator = other.count separator := by
        have counts := congrArg (List.count separator) same
        rcases columns with _ | ⟨second, columns⟩ <;> rcases others with _ | ⟨next, others⟩
        · simpa using counts
        · cases paired
        · cases paired
        · simp only [List.intercalate_cons_cons, List.count_append] at counts
          rw [count_intercalate_separator whole, count_intercalate_separator also, paired] at counts
          omega
      have zero (texts : List (List Char)) (h : ∀ text ∈ texts, separator ∉ text) :
          texts.map (List.count separator) = List.replicate texts.length 0 :=
        List.map_eq_replicate_iff.2 fun text member => List.count_eq_zero_of_not_mem (h text member)
      apply intercalate_separator_inj same
      rw [List.map_cons, List.map_cons, count, zero columns whole, zero others also, paired]
    | succ column =>
      rw [List.eraseIdx_cons_succ, List.forall_mem_cons] at whole also
      rcases columns with _ | ⟨second, columns⟩ <;> rcases others with _ | ⟨next, others⟩
      · simpa using same
      · cases paired
      · cases paired
      · simp only [List.intercalate_cons_cons, List.append_assoc, List.singleton_append] at same
        obtain ⟨rfl, rest⟩ := append_separator_inj same (by
          rw [List.count_eq_zero_of_not_mem whole.1, List.count_eq_zero_of_not_mem also.1])
        rw [ih paired whole.2 also.2 rest]

theorem separator_ne_of_isPlain {c : Char} (h : Token.isPlain c) : separator ≠ c := by
  rintro rfl
  exact absurd h (by decide)

theorem separator_not_mem_of_calm {cs : List Char} (h : Calm cs) : separator ∉ cs :=
  fun member => separator_ne_of_isPlain (h.ordinary _ member).1 rfl

theorem separator_not_mem_of_unsigned {cs : List Char} (h : Unsigned cs) : separator ∉ cs := by
  rcases h with calm | ⟨front, back, rfl, first, second, _⟩
  · exact separator_not_mem_of_calm calm
  · rw [List.mem_append, List.mem_cons]
    rintro (here | mark | here)
    · exact separator_not_mem_of_calm first here
    · exact absurd mark (by decide)
    · exact separator_not_mem_of_calm second here

theorem separator_not_mem_integer (value : Int) : separator ∉ (toString value).toList := by
  cases value with
  | ofNat magnitude =>
    have digits := separator_not_mem_of_calm (Calm.toDigits magnitude)
    simpa [Int.repr] using digits
  | negSucc less =>
    have digits := separator_not_mem_of_calm (Calm.toDigits (less + 1))
    have sign : separator ≠ '-' := by decide
    simpa [Int.repr, sign] using digits

theorem separator_not_mem_float (value : Binary64) : separator ∉ value.text := by
  have sign : separator ∉ (if value.negative then ['-'] else []) := by
    split <;> decide
  unfold Binary64.text
  dsimp only
  split <;> rw [List.mem_append, not_or]
  · exact ⟨sign, by decide⟩
  · exact ⟨sign, separator_not_mem_of_unsigned (Unsigned.decimal _)⟩

theorem separator_not_mem_numberText (value : Number) : separator ∉ numberText value := by
  cases value with
  | integer value _ => exact separator_not_mem_integer value
  | float value =>
    unfold numberText
    dsimp only
    split
    · split
      · exact separator_not_mem_integer _
      · exact separator_not_mem_float value
    · exact separator_not_mem_float value

theorem separator_not_mem_number (value : Number) : separator ∉ value.text := by
  cases value with
  | integer value _ => exact separator_not_mem_integer value
  | float value => exact separator_not_mem_float value

theorem separator_not_mem_escapeChar (c : Char) : separator ∉ Value.escapeChar c := by
  unfold Value.escapeChar
  iterate 7
    split
    · decide
  split
  · next control =>
    have hexadecimal : ∀ digit < 16, separator ≠ Nat.digitChar digit := by decide
    have first := hexadecimal (c.toNat / 16) (by omega)
    have second := hexadecimal (c.toNat % 16) (Nat.mod_lt _ (by decide))
    have fixed : separator ≠ '\\' ∧ separator ≠ 'u' ∧ separator ≠ '0' := by decide
    simp [first, second, fixed]
  · next shown =>
    rw [List.mem_singleton]
    rintro rfl
    exact shown (by decide)

theorem separator_not_mem_jsonText (text : String) : separator ∉ Value.jsonText text := by
  have escaped : separator ∉ text.toList.flatMap Value.escapeChar := by
    simp [separator_not_mem_escapeChar]
  have quote : separator ≠ '"' := by decide
  simp [Value.jsonText, escaped, quote]

theorem separator_not_mem_intercalate {texts : List (List Char)}
    (h : ∀ text ∈ texts, separator ∉ text) : separator ∉ [','].intercalate texts := by
  intro member
  rcases Text.mem_of_mem_intercalate member with comma | ⟨text, held, inside⟩
  · exact absurd comma (by decide)
  · exact h text held inside

mutual

theorem separator_not_mem_json : ∀ value : Value, separator ∉ value.json
  | .null => by decide
  | .boolean value => by cases value <;> decide
  | .number value => separator_not_mem_number value
  | .text value => separator_not_mem_jsonText value
  | .array items => by
    have inside := separator_not_mem_intercalate (separator_not_mem_jsonItems items)
    have marks : separator ≠ '[' ∧ separator ≠ ']' := by decide
    simp [Value.json, inside, marks]
  | .object fields => by
    have inside := separator_not_mem_intercalate (separator_not_mem_jsonFields fields)
    have marks : separator ≠ '\x7b' ∧ separator ≠ '\x7d' := by decide
    simp [Value.json, inside, marks]

theorem separator_not_mem_jsonItems : ∀ items : List Value,
    ∀ text ∈ Value.jsonItems items, separator ∉ text
  | [] => nofun
  | item :: rest =>
    List.forall_mem_cons.2 ⟨separator_not_mem_json item, separator_not_mem_jsonItems rest⟩

theorem separator_not_mem_jsonFields : ∀ fields : List (String × Value),
    ∀ text ∈ Value.jsonFields fields, separator ∉ text
  | [] => nofun
  | (name, value) :: rest => by
    have mark : separator ≠ ':' := by decide
    refine List.forall_mem_cons.2 ⟨?_, separator_not_mem_jsonFields rest⟩
    simp [separator_not_mem_jsonText name, separator_not_mem_json value, mark]

end

theorem separator_mem_partText_iff {value : Value} : separator ∈ partText value ↔ parts value := by
  cases value with
  | text value => simp [partText, parts]
  | boolean value => cases value <;> decide
  | number value => exact iff_of_false (separator_not_mem_numberText value) (by simp [parts])
  | _ => exact iff_of_false (separator_not_mem_json _) (by simp [parts])

theorem agree_iff_text_of_wholeBut {key other : List Value} {column : Nat}
    (paired : key.length = other.length) (whole : WholeBut column key)
    (also : WholeBut column other) : Agree key other ↔ text key = text other := by
  have columns {key : List Value} (whole : WholeBut column key) :
      ∀ text ∈ (key.map partText).eraseIdx column, separator ∉ text := by
    intro text member
    rw [List.eraseIdx_map] at member
    obtain ⟨value, held, rfl⟩ := List.mem_map.1 member
    exact mt separator_mem_partText_iff.1 (whole value held)
  constructor
  · exact fun agree => (agree_iff_text_separators.1 agree).1
  · intro same
    rw [text, text, String.ofList_inj] at same
    exact agree_iff_map.2 (intercalate_separator_inj_of_whole (by simpa using paired)
      (columns whole) (columns also) same)

end Key

theorem KeyName.length_of_readAll {names : List KeyName} {row : Row} {key : List Value}
    (h : readAll names row = some key) : key.length = names.length := by
  induction names generalizing key with
  | nil =>
    cases h
    rfl
  | cons name rest ih =>
    obtain ⟨value, _, h⟩ := Option.bind_eq_some_iff.1 ((List.mapM_cons ..).symm.trans h)
    obtain ⟨more, tail, h⟩ := Option.bind_eq_some_iff.1 h
    cases h
    exact congrArg Nat.succ (ih tail)

namespace Relation

def KeysWholeBut (column : Nat) (names : List KeyName) (rows : List Row) : Prop :=
  ∀ row ∈ rows, ∀ key ∈ KeyName.readAll names row, Key.WholeBut column key

instance (column : Nat) (names : List KeyName) (rows : List Row) :
    Decidable (KeysWholeBut column names rows) :=
  inferInstanceAs (Decidable (∀ row ∈ rows, ∀ key ∈ KeyName.readAll names row, _))

def Matching (config : Config) (relation : Relation) (row child : Row) : Prop :=
  ∃ key ∈ KeyName.readAll (relation.ownNames config) row,
    ∃ other ∈ KeyName.readAll (relation.foreignNames config) child, Key.Agree key other

instance (config : Config) (relation : Relation) (row child : Row) :
    Decidable (Matching config relation row child) :=
  inferInstanceAs (Decidable (∃ key ∈ KeyName.readAll (relation.ownNames config) row, _))

variable {config : Config} {relation : Relation} {column : Nat} {rows fetched : List Row}

theorem belongs_iff_matching {row child : Row}
    (paired : relation.link.own.length = relation.link.foreign.length)
    (whole : KeysWholeBut column (relation.ownNames config) [row])
    (also : KeysWholeBut column (relation.foreignNames config) [child]) :
    Belongs config relation row child ↔ Matching config relation row child := by
  have agree {key other : List Value}
      (own : KeyName.readAll (relation.ownNames config) row = some key)
      (foreign : KeyName.readAll (relation.foreignNames config) child = some other) :
      Key.Agree key other ↔ Key.text key = Key.text other := by
    refine Key.agree_iff_text_of_wholeBut ?_ (whole row List.mem_cons_self key own)
      (also child List.mem_cons_self other foreign)
    rw [KeyName.length_of_readAll own, KeyName.length_of_readAll foreign]
    simpa [ownNames, foreignNames] using paired
  constructor
  · rintro ⟨text, reads, against⟩
    obtain ⟨key, own, rfl⟩ := Option.map_eq_some_iff.1 reads
    obtain ⟨other, foreign, same⟩ := Option.map_eq_some_iff.1 against
    exact ⟨key, own, other, foreign, (agree own foreign).2 same.symm⟩
  · rintro ⟨key, own, other, foreign, same⟩
    refine ⟨Key.text key, Option.map_eq_some_iff.2 ⟨key, own, rfl⟩,
      Option.map_eq_some_iff.2 ⟨other, foreign, ?_⟩⟩
    exact ((agree own foreign).1 same).symm

structure Kept (met : List (List Value)) (kept : Std.HashSet String × Array (List Value)) :
    Prop where
  texts : ∀ text, kept.1.contains text ↔ ∃ key ∈ kept.2.toList, Key.text key = text
  apart : kept.2.toList.Pairwise (Key.text · ≠ Key.text ·)
  each : ∀ key ∈ met, ∃ held ∈ kept.2.toList, Key.text key = Key.text held

theorem Kept.keepKey {met : List (List Value)} {kept : Std.HashSet String × Array (List Value)}
    (h : Kept met kept) (key : List Value) : Kept (met ++ [key]) (Relation.keepKey kept key) := by
  unfold Relation.keepKey
  split
  · next known =>
    refine ⟨h.texts, h.apart, fun other member => ?_⟩
    rcases List.mem_append.1 member with old | new
    · exact h.each other old
    · obtain rfl := List.mem_singleton.1 new
      obtain ⟨held, member, same⟩ := (h.texts _).1 known
      exact ⟨held, member, same.symm⟩
  · next fresh =>
    simp only [h.texts, not_exists, not_and] at fresh
    refine ⟨fun text => ?_, ?_, fun other member => ?_⟩
    · simp only [Std.HashSet.contains_insert, Array.toList_push, List.mem_append,
        List.mem_singleton, Bool.or_eq_true, beq_iff_eq, h.texts]
      aesop
    · rw [Array.toList_push, List.pairwise_append]
      refine ⟨h.apart, List.pairwise_singleton _ _, fun held member other new => ?_⟩
      rw [List.mem_singleton.1 new]
      exact fresh held member
    · rw [Array.toList_push]
      rcases List.mem_append.1 member with old | new
      · obtain ⟨held, member, same⟩ := h.each other old
        exact ⟨held, List.mem_append_left _ member, same⟩
      · exact ⟨key, List.mem_append_right _ (List.mem_singleton_self key),
          congrArg Key.text (List.mem_singleton.1 new)⟩

theorem Kept.foldl {met : List (List Value)} {kept : Std.HashSet String × Array (List Value)}
    (h : Kept met kept) (keys : List (List Value)) :
    Kept (met ++ keys) (keys.foldl Relation.keepKey kept) := by
  induction keys generalizing met kept with
  | nil => simpa using h
  | cons key rest ih =>
    have more := ih (h.keepKey key)
    rwa [List.append_assoc] at more

theorem kept_distinctKeys (names : List KeyName) (rows : List Row) :
    Kept (rows.filterMap (KeyName.readAll names))
      ((rows.filterMap (KeyName.readAll names)).foldl keepKey (∅, #[])) := by
  have nothing : Kept [] (∅, #[]) := ⟨by simp, by simp, by simp⟩
  exact nothing.foldl _

theorem apart_distinctKeys (names : List KeyName) (rows : List Row) :
    (distinctKeys names rows).Pairwise (¬Key.Agree · ·) :=
  (kept_distinctKeys names rows).apart.imp
    (mt fun agree => (Key.agree_iff_text_separators.1 agree).1)

theorem exists_agree_distinctKeys {names : List KeyName} (whole : KeysWholeBut column names rows)
    {row : Row} (member : row ∈ rows) {key : List Value}
    (read : KeyName.readAll names row = some key) :
    ∃ kept ∈ distinctKeys names rows, Key.Agree key kept := by
  obtain ⟨kept, held, same⟩ := (kept_distinctKeys names rows).each key
    (List.mem_filterMap.2 ⟨row, member, read⟩)
  obtain ⟨origin, among, met⟩ := exists_readAll_of_mem_distinctKeys held
  refine ⟨kept, held, (Key.agree_iff_text_of_wholeBut ?_ (whole row member key read)
    (whole origin among kept met)).2 same⟩
  rw [KeyName.length_of_readAll read, KeyName.length_of_readAll met]

theorem joinRows_eq_matching
    (paired : relation.link.own.length = relation.link.foreign.length)
    (whole : KeysWholeBut column (relation.ownNames config) rows)
    (also : KeysWholeBut column (relation.foreignNames config) fetched) :
    relation.joinRows config rows fetched = rows.map fun row =>
      Fields.put relation.label
        (gather relation.cardinality (fetched.filter (Matching config relation row))) row := by
  rw [joinRows_eq_nestedLoop]
  apply List.map_congr_left
  intro row member
  congr 2
  apply List.filter_congr
  intro child found
  have each : Belongs config relation row child ↔ Matching config relation row child :=
    belongs_iff_matching paired (fun _ only => List.mem_singleton.1 only ▸ whole row member)
      fun _ only => List.mem_singleton.1 only ▸ also child found
  simp only [each]

/-- Keys agree column by column exactly when they read alike and the separator stands as often in
each column of both. Only texts hold it; where, but for one column, no text does, keys agree when
they read alike: a row then gets the fetched rows that agree with it in every column and no others,
and each key of the rows is asked for, once. -/
theorem agree_iff_text (key other : List Value) (config : Config) (relation : Relation)
    (rows fetched : List Row) :
    (Key.Agree key other ↔
      Key.text key = Key.text other ∧ Key.separators key = Key.separators other) ∧
    (∀ value, Key.separator ∈ Key.partText value ↔ Key.parts value) ∧
    (∀ column, key.length = other.length → Key.WholeBut column key →
      Key.WholeBut column other → (Key.Agree key other ↔ Key.text key = Key.text other)) ∧
    ∀ column, relation.link.own.length = relation.link.foreign.length →
      KeysWholeBut column (relation.ownNames config) rows →
      KeysWholeBut column (relation.foreignNames config) fetched →
        relation.joinRows config rows fetched = (rows.map fun row =>
          Fields.put relation.label
            (gather relation.cardinality (fetched.filter (Matching config relation row))) row) ∧
        (distinctKeys (relation.ownNames config) rows).Pairwise (¬Key.Agree · ·) ∧
        ∀ row ∈ rows, ∀ key ∈ KeyName.readAll (relation.ownNames config) row,
          ∃ kept ∈ distinctKeys (relation.ownNames config) rows, Key.Agree key kept :=
  ⟨Key.agree_iff_text_separators, fun _ => Key.separator_mem_partText_iff,
    fun _ => Key.agree_iff_text_of_wholeBut, fun _ paired whole also =>
      ⟨joinRows_eq_matching paired whole also, apart_distinctKeys _ rows,
        fun _ member _ => exists_agree_distinctKeys whole member⟩⟩

def twoKeyed : Relation where
  link := {
    target := "orders", label := none, foreign := ["a_id", "b_id"], own := ["a", "b"]
    refinement := none }
  cardinality := .many
  label := "orders"

def partedUsers : List Row :=
  [[("a", .text "x\x1fy"), ("b", .text "z")], [("a", .text "x"), ("b", .text "y")]]

def partedOrders : List Row :=
  [[("a_id", .text "x\x1fy"), ("b_id", .text "z")], [("a_id", .text "x"), ("b_id", .text "y")]]

theorem partedUsers_agree_iff_text :
    (¬Key.Agree [.text "x\x1fy", .text "z"] [.text "x", .text "y"] ∧
      Key.text [.text "x\x1fy", .text "z"] ≠ Key.text [.text "x", .text "y"]) ∧
    twoKeyed.joinRows {} partedUsers partedOrders = (partedUsers.map fun row =>
      Fields.put "orders"
        (gather .many (partedOrders.filter (Matching {} twoKeyed row))) row) ∧
    partedUsers.map (fun row => (partedOrders.filter (Matching {} twoKeyed row)).length) = [1, 1] ∧
    ∃ kept ∈ distinctKeys (twoKeyed.ownNames {}) partedUsers,
      Key.Agree [.text "x\x1fy", .text "z"] kept := by
  have differ : ¬Key.Agree [.text "x\x1fy", .text "z"] [.text "x", .text "y"] := by decide +kernel
  obtain ⟨_, _, reads, attached⟩ := agree_iff_text [.text "x\x1fy", .text "z"]
    [.text "x", .text "y"] {} twoKeyed partedUsers partedOrders
  obtain ⟨join, _, each⟩ := attached 0 rfl (by decide +kernel) (by decide +kernel)
  refine ⟨⟨differ, mt (reads 0 ?_ ?_ ?_).2 differ⟩, join, ?_, each _ List.mem_cons_self _ ?_⟩
  · rfl
  · decide +kernel
  · decide +kernel
  · decide +kernel
  · rfl

end Relation

namespace Query

def twofold : Query := built {} [
  .fromTable "users",
  .load .many { target := "orders", foreign := ["a_id", "b_id"], own := ["a", "b"] }]

def blurred : Driver := fun _ sql => .ok <|
  if sql = "SELECT \"users\".* FROM \"users\"" then
    [[("a", .text "x\x1fy"), ("b", .text "z")], [("a", .text "x"), ("b", .text "y\x1fz")]]
  else [[("a_id", .text "x\x1fy"), ("b_id", .text "z")]]

/-- The second user is not asked for, and gets the order of the first. -/
theorem twofold_get_blurred :
    Key.text [.text "x\x1fy", .text "z"] = Key.text [.text "x", .text "y\x1fz"] ∧
    ¬Key.Agree [.text "x\x1fy", .text "z"] [.text "x", .text "y\x1fz"] ∧
    rowTexts (twofold.get blurred).1 = [
      "\x7b\"a\":\"x\\u001fy\",\"b\":\"z\"," ++
        "\"orders\":[\x7b\"a_id\":\"x\\u001fy\",\"b_id\":\"z\"\x7d]\x7d",
      "\x7b\"a\":\"x\",\"b\":\"y\\u001fz\"," ++
        "\"orders\":[\x7b\"a_id\":\"x\\u001fy\",\"b_id\":\"z\"\x7d]\x7d"] ∧
    (twofold.get blurred).2 = ["SELECT \"users\".* FROM \"users\"",
      "SELECT \"orders\".* FROM \"orders\" WHERE ((\"orders\".\"a_id\" = 'x\x1fy' " ++
        "AND \"orders\".\"b_id\" = 'z'))"] := by
  refine ⟨by decide +kernel, by decide +kernel, ?_⟩
  unfold get run loadUsing
  simp only [Relation.attach_eq_ite, Relation.distinctKeys_eq]
  decide +kernel

end Query

end RelationQuery
