import RelationQuery.Proofs.Composite
import RelationQuery.Proofs.Meaning
import RelationQuery.Proofs.Outline
import RelationQuery.Proofs.WellFormed

/-! Which rows the statement for related rows selects. Main statement: whatever a refinement came
to, the condition of that statement says that a row has one of the keys and meets the refinement. -/
namespace RelationQuery

open Token

/-! ### Comparisons with values -/

namespace Value

open RelationQuery.Part

structure Simple (tokens : List Token) : Prop where
  flat : ∀ token ∈ tokens, token ≠ .plain '(' ∧ token ≠ .plain ')' ∧ isComma (.token token) = false
  clear : Clear (tokens.map .token)

theorem simple_literal (text : List Char) : Simple [.literal text] where
  flat := by
    rintro _ member
    obtain rfl := List.mem_singleton.1 member
    exact ⟨nofun, nofun, rfl⟩
  clear := clear_of_wordless (by simp [letter?])

instance (tokens : List Token) : Decidable (Clear (tokens.map .token)) :=
  inferInstanceAs (Decidable (∀ lexeme ∈ lexemes _, _))

theorem simple_number {cs : List Char} (h : ∀ c ∈ cs, c.isDigit ∨ c ∈ ['.', 'e', '+', '-']) :
    Simple (cs.map plain) := by
  have apart {c : Char} (letter : ¬(c.isDigit ∨ c ∈ ['.', 'e', '+', '-'])) : c ∉ cs :=
    fun member => letter (h c member)
  have lacks {c : Char} (letter : ¬(c.isDigit ∨ c ∈ ['.', 'e', '+', '-'])) :
      ∀ part ∈ (cs.map plain).map Part.token, ∀ d ∈ part.letter?, d.toLower ≠ c := by
    intro part member d found lower
    rw [List.map_map] at member
    obtain ⟨other, among, rfl⟩ := List.mem_map.1 member
    obtain rfl : other = d := by
      simp only [Function.comp_apply, letter?] at found
      split at found
      · exact Option.some.inj found
      · cases found
    have kept : other.toLower = other := by
      rcases h other among with digit | mark
      · exact toLower_of_isDigit digit
      · simp only [List.mem_cons, List.not_mem_nil, or_false] at mark
        rcases mark with rfl | rfl | rfl | rfl <;> rfl
    rw [← lower, kept] at letter
    exact letter (h other among)
  constructor
  · intro token member
    obtain ⟨c, among, rfl⟩ := List.mem_map.1 member
    refine ⟨?_, ?_, ?_⟩
    · rintro ⟨⟩
      exact apart (by decide) among
    · rintro ⟨⟩
      exact apart (by decide) among
    · rw [isComma, beq_eq_false_iff_ne]
      rintro rfl
      exact apart (by decide) among
  · intro lexeme member
    exact ⟨not_isKeyword_of_lacks (c := 'r') (by decide) (lacks (by decide)) member,
      not_isKeyword_of_lacks (c := 'd') (by decide) (lacks (by decide)) member⟩

theorem numeric (value : Number) : ∀ c ∈ value.text, c.isDigit ∨ c ∈ ['.', 'e', '+', '-'] := by
  obtain ⟨sign, cs, held, chars⟩ := value.exists_unsigned
  rw [chars]
  intro c member
  rcases List.mem_append.1 member with front | inside
  · cases sign with
    | true =>
      obtain rfl := List.mem_singleton.1 front
      exact .inr (by decide)
    | false => cases front
  · exact held.numeric c inside

theorem sql_ne_null {value : Value} (present : value.isNull = false) (dialect : Dialect) :
    value.sql dialect ≠ "NULL" := by
  have literal (cs : List Char) : String.ofList (dialect.literalChars cs) ≠ "NULL" := by
    intro same
    have first := congrArg (·.toList.head?) same
    rw [String.toList_ofList] at first
    cases dialect <;> cases first
  cases value with
  | null => cases present
  | boolean value => cases dialect <;> cases value <;> decide
  | number value =>
    intro same
    have chars : value.text = "NULL".toList := by rw [← same, Value.sql, String.toList_ofList]
    have letter : 'N' ∈ value.text := chars ▸ by decide
    exact absurd (numeric value _ letter) (by decide)
  | text value => exact literal _
  | array items => exact literal _
  | object fields => exact literal _

theorem exists_simple (dialect : Dialect) (value : Value) :
    ∃ tokens, Spells dialect Parted (value.sql dialect) tokens ∧ Simple tokens := by
  have text {text : String} (h : Token.solid none text.toList ∧
      (∀ token ∈ text.toList.map plain, token ≠ .plain '(' ∧ token ≠ .plain ')' ∧
        isComma (.token token) = false) ∧ Clear ((text.toList.map plain).map .token)) :
      ∃ tokens, Spells dialect Parted text tokens ∧ Simple tokens :=
    ⟨_, Spells.of_solid h.1, h.2.1, h.2.2⟩
  have literal (cs : List Char) :
      ∃ tokens, Spells dialect Parted (String.ofList (dialect.literalChars cs)) tokens ∧
        Simple tokens := by
    refine ⟨_, fun rest parted => ?_, simple_literal cs⟩
    rw [String.toList_ofList]
    exact lex_quoted (.inl rfl) (unescapes_escapeLiteral dialect) cs
      (head?_ne_of_parted dialect parted (.inl rfl))
  cases value with
  | null =>
    rw [Value.sql]
    exact text (by decide)
  | boolean value => cases dialect <;> cases value <;> exact text (by decide)
  | number value =>
    obtain ⟨sign, cs, held, chars⟩ := value.exists_unsigned
    refine ⟨_, Spells.of_solid ?_, simple_number ?_⟩
    · rw [Value.sql, String.toList_ofList, chars]
      exact held.signed sign
    · rw [Value.sql, String.toList_ofList]
      exact numeric value
  | text value => exact literal _
  | array items => exact literal _
  | object fields => exact literal _

def tokens (dialect : Dialect) (value : Value) : List Token :=
  (lex dialect (value.sql dialect).toList).getD []

theorem spells_tokens (dialect : Dialect) (value : Value) :
    Spells dialect Parted (value.sql dialect) (value.tokens dialect) ∧
      Simple (value.tokens dialect) := by
  obtain ⟨tokens, spells, simple⟩ := exists_simple dialect value
  have same : value.tokens dialect = tokens := by rw [Value.tokens, spells.whole, Option.getD_some]
  rw [same]
  exact ⟨spells, simple⟩

end Value

namespace Condition

open RelationQuery.Part

def subject (column : String) : List Lexeme := (ofName column).map fun token => [.token token]

def words (dialect : Dialect) (condition : Condition) : List Lexeme :=
  ((read? dialect (condition.sql dialect)).map lexemes).getD []

def equals (column : String) (value : Value) : Condition :=
  .compare column (.compare .equal) value

def equalityParts (dialect : Dialect) (column : String) (value : Value) : List Part :=
  (ofName column).map .token ++ ofText " = " ++ (value.tokens dialect).map .token

variable {dialect : Dialect} {column : String} {value : Value} {holds : List Lexeme → Prop}

theorem wordless_name : ∀ part ∈ (ofName column).map Part.token, part.letter? = none :=
  List.forall_mem_map.2 fun _ member => (KeyMatch.plain_of_mem_ofName member).1

theorem lexemes_name : lexemes ((ofName column).map .token) = subject column := by
  have kept : ((ofName column).map Part.token).filter (!·.isBlank) =
      (ofName column).map Part.token :=
    List.filter_eq_self.2 (List.forall_mem_map.2 fun token member => by
      simp [(KeyMatch.plain_of_mem_ofName member).2.1])
  rw [lexemes_of_wordless wordless_name, kept, List.map_map]
  rfl

theorem not_isKeyword_subject {keyword : String} (word : keyword ≠ "") :
    ∀ lexeme ∈ subject column, isKeyword keyword lexeme = false := by
  rw [← lexemes_name]
  exact fun lexeme => not_isKeyword word wordless_name

theorem made_behind {operator text : String} {parts : List Part} (fixed : Fixed operator 0 0)
    (parted : Parted operator.toList ∧ operator.toList ≠ [])
    (flat : ∀ token ∈ operator.toList.map plain, token ≠ .plain '(' ∧ token ≠ .plain ')')
    (h : Made dialect text parts) : Made dialect (dialect.quote column ++ operator ++ text)
      ((ofName column).map .token ++ ofText operator ++ parts) := by
  have front : Spells dialect (fun _ => True) (dialect.quote column ++ operator)
      (ofName column ++ operator.toList.map plain) := by
    refine (Spells.quote column).append (Spells.of_fixed fixed) fun rest _ => ?_
    obtain ⟨c, cs, chars⟩ := List.exists_cons_of_ne_nil parted.2
    have begins := parted.1
    rw [chars] at begins ⊢
    exact begins
  have whole := h.behind front fun token member => by
    rcases List.mem_append.1 member with name | word
    · exact (KeyMatch.plain_of_mem_ofName name).2.2
    · exact flat token word
  rwa [List.map_append] at whole

theorem made_equality : Made dialect ((equals column value).sql dialect)
    (equalityParts dialect column value) := by
  obtain ⟨spells, simple⟩ := value.spells_tokens dialect
  have text : (equals column value).sql dialect =
      dialect.quote column ++ " = " ++ value.sql dialect := by
    rw [equals, Condition.sql]
    simp only [Operator.sql, Comparison.sql, String.append_assoc]
    rfl
  rw [text]
  refine made_behind (by decide) (by decide) (by decide) (.of_flat spells fun token member => ?_)
  exact ⟨(simple.flat token member).1, (simple.flat token member).2.1⟩

theorem lexemes_equality : lexemes (equalityParts dialect column value) =
    equality (subject column) (lexemes ((value.tokens dialect).map .token)) := by
  have blank : letter? (.token (.plain ' ')) = none := rfl
  have equal : lexemes (ofText " = ") = [[.token (.plain '=')]] := rfl
  have front : lexemes ((ofName column).map .token ++ ofText " = ") =
      subject column ++ [[.token (.plain '=')]] := by
    rw [lexemes_append, lexemes_name, equal]
    rintro _ _ _ ⟨⟩
    exact .inr blank
  rw [equalityParts, lexemes_append, front]
  · simp [equality]
  · intro part last _ _
    rw [List.getLast?_append] at last
    cases last
    exact .inl blank

theorem clear_equality : Clear (equalityParts dialect column value) := by
  intro lexeme member
  rw [lexemes_equality] at member
  rcases List.mem_append.1 member with name | rest
  · exact ⟨not_isKeyword_subject (by decide) lexeme name,
      not_isKeyword_subject (by decide) lexeme name⟩
  · rcases List.mem_cons.1 rest with rfl | inside
    · exact ⟨rfl, rfl⟩
    · exact (value.spells_tokens dialect).2.clear lexeme inside

theorem words_equals : words dialect (equals column value) =
    equality (subject column) (lexemes ((value.tokens dialect).map .token)) := by
  rw [words, made_equality.read?, Option.map_some, Option.getD_some, lexemes_equality]

theorem judges_equality : Judges holds (lexemes (equalityParts dialect column value)) ↔
    holds (words dialect (equals column value)) := by
  rw [words_equals, ← lexemes_equality]
  apply judges_of_tokens
  intro part member
  simp only [equalityParts, ofText, List.mem_append, List.mem_map] at member
  rcases member with (⟨token, _, rfl⟩ | ⟨token, _, rfl⟩) | ⟨token, _, rfl⟩ <;> exact ⟨_, rfl⟩

/-! ### Membership -/

def listParts (dialect : Dialect) (values : List Value) : List Part :=
  (ofText ", ").intercalate (values.map fun value => (value.tokens dialect).map .token)

theorem items_blank (parts : List Part) : items (.token (.plain ' ') :: parts) = items parts := by
  have behind (parts : List Part) : lexemes (.token (.plain ' ') :: parts) = lexemes parts := by
    rw [← List.singleton_append, lexemes_append]
    · rfl
    · rintro _ ⟨⟩ _ _
      exact .inl rfl
  have blank : isComma (.token (.plain ' ')) ≠ true := by decide
  rw [items, items, List.splitOnP_cons_eq_if_modifyHead, if_neg blank]
  cases split : parts.splitOnP isComma with
  | nil => exact absurd split (List.splitOnP_ne_nil _ _)
  | cons head tail => simp [behind]

theorem items_list {values : List Value} (held : values ≠ []) :
    items (listParts dialect values) =
      values.map fun value => lexemes ((value.tokens dialect).map .token) := by
  have flat (value : Value) : ∀ part ∈ (value.tokens dialect).map Part.token,
      isComma part = false :=
    List.forall_mem_map.2 fun token member =>
      ((value.spells_tokens dialect).2.flat token member).2.2
  induction values with
  | nil => exact absurd rfl held
  | cons value rest ih =>
    cases rest with
    | nil =>
      rw [listParts, List.map_singleton, List.intercalate_singleton, items,
        List.splitOnP_eq_singleton (flat value)]
      rfl
    | cons other rest =>
      have separated : listParts dialect (value :: other :: rest) =
          (value.tokens dialect).map .token ++ .token (.plain ',') :: .token (.plain ' ') ::
            listParts dialect (other :: rest) := by
        rw [listParts, List.map_cons, List.map_cons, List.intercalate_cons_cons, List.append_assoc]
        rfl
      have comma : isComma (.token (.plain ',')) = true := rfl
      rw [items, separated, List.splitOnP_append_cons_of_forall_mem (flat value) _ comma,
        List.map_cons, List.map_cons]
      exact congrArg (_ :: ·) ((items_blank _).trans (ih (List.cons_ne_nil _ _)))

def memberParts (dialect : Dialect) (column : String) (values : List Value) : List Part :=
  (ofName column).map .token ++ ofText " IN " ++ [.group (listParts dialect values)]

theorem made_list {values : List Value} (held : values ≠ []) :
    Made dialect (", ".intercalate (values.map (Value.sql dialect)))
      (listParts dialect values) := by
  let texts : List (String × List Part) :=
    values.map fun value => (value.sql dialect, (value.tokens dialect).map .token)
  have each : ∀ text ∈ texts, Made dialect text.1 text.2 :=
    List.forall_mem_map.2 fun value _ =>
      Made.of_flat (value.spells_tokens dialect).1 fun token member =>
        have flat := (value.spells_tokens dialect).2.flat token member
        ⟨flat.1, flat.2.1⟩
  have whole : Made dialect (", ".intercalate (texts.map Prod.fst))
      ((ofText ", ").intercalate (texts.map Prod.snd)) :=
    Made.intercalate (by decide) (by decide) (by decide) (by simpa [texts] using held) each
  rwa [List.map_map, List.map_map] at whole

theorem made_member {values : List Value} (held : values ≠ []) :
    Made dialect ((Condition.member column false values).sql dialect)
      (memberParts dialect column values) := by
  have text : (Condition.member column false values).sql dialect = dialect.quote column ++ " IN " ++
      ("(" ++ ", ".intercalate (values.map (Value.sql dialect)) ++ ")") := by
    obtain ⟨value, rest, rfl⟩ := List.exists_cons_of_ne_nil held
    have opening : " IN (" = " IN " ++ "(" := rfl
    rw [Condition.sql, Condition.memberSql]
    · simp only [Bool.false_eq_true, if_false, opening, String.append_assoc]
    · simp
  rw [text]
  exact made_behind (by decide) (by decide) (by decide) (made_list held).enclose

theorem lexemes_member {values : List Value} : lexemes (memberParts dialect column values) =
    subject column ++ [ofText "IN", [.group (listParts dialect values)]] := by
  have front : lexemes ((ofName column).map .token ++ ofText " IN ") =
      subject column ++ [ofText "IN"] := by
    rw [lexemes_append, lexemes_name]
    · rfl
    · rintro _ _ _ ⟨⟩
      exact .inr rfl
  rw [memberParts, lexemes_append, front, lexemes_group, List.append_assoc]
  · rfl
  · rintro _ _ _ ⟨⟩
    exact .inr rfl

theorem clear_member {values : List Value} : Clear (memberParts dialect column values) := by
  intro lexeme member
  rw [lexemes_member] at member
  rcases List.mem_append.1 member with name | rest
  · exact ⟨not_isKeyword_subject (by decide) lexeme name,
      not_isKeyword_subject (by decide) lexeme name⟩
  · simp only [List.mem_cons, List.not_mem_nil, or_false] at rest
    rcases rest with rfl | rfl <;> exact ⟨rfl, rfl⟩

theorem judges_member {values : List Value} (held : values ≠ []) :
    Judges holds (lexemes (memberParts dialect column values)) ↔
      ∃ value ∈ values, holds (words dialect (equals column value)) := by
  have named : subject column ≠ [] := by
    obtain ⟨part, rest, split⟩ := List.exists_cons_of_ne_nil (List.splitOn_ne_nil '.' column.toList)
    rw [subject, ofName, split]
    cases rest <;> simp [List.intercalate_cons_cons]
  rw [lexemes_member, Part.judges_member named rfl (not_isKeyword_subject (by decide)),
    items_list held]
  simp [words_equals]

end Condition

/-! ### The filter on keys -/

namespace Clause

theorem text_false_cons {entry : Entry String} {rest : Clause String} {connective : Connective}
    (h : (∃ content, entry = .item connective content) ∨
      ∃ negated, entry = .opening connective negated) :
    text false (entry :: rest) = " " ++ connective.sql ++ " " ++ text true (entry :: rest) := by
  rcases h with ⟨content, rfl⟩ | ⟨negated, rfl⟩ <;> simp [text, joint, String.append_assoc]

theorem text_closing (clause : Clause String) (leading : Bool) :
    text leading (clause ++ [.closing]) = text leading clause ++ ")" := by
  induction clause generalizing leading with
  | nil => rfl
  | cons entry rest ih => cases entry <;> simp [text, ih, String.append_assoc]

theorem text_conjoin {texts : List String} (held : texts ≠ []) (behind : Clause String) :
    text true (texts.map (.item .and ·) ++ behind) =
      " AND ".intercalate texts ++ text false behind := by
  induction texts with
  | nil => exact absurd rfl held
  | cons first rest ih =>
    cases rest with
    | nil => simp [text, joint]
    | cons other rest =>
      have more := ih (List.cons_ne_nil _ _)
      rw [List.map_cons, List.cons_append] at more
      rw [List.map_cons, List.cons_append, text, List.map_cons, List.cons_append,
        text_false_cons (.inl ⟨other, rfl⟩), more, String.intercalate_cons_cons]
      simp [joint, Connective.sql, String.append_assoc]

theorem text_disjoin {α : Type} {inner : α → Clause String} {inside : α → String} {xs : List α}
    (held : xs ≠ []) (each : ∀ x ∈ xs, ∀ behind,
      text true (inner x ++ .closing :: behind) = inside x ++ ")" ++ text false behind)
    (behind : Clause String) :
    text true (xs.flatMap (fun x => .opening .or false :: (inner x ++ [.closing])) ++ behind) =
      " OR ".intercalate (xs.map fun x => "(" ++ inside x ++ ")") ++ text false behind := by
  have group (x : α) (here : ∀ behind,
      text true (inner x ++ .closing :: behind) = inside x ++ ")" ++ text false behind)
      (behind : Clause String) :
      text true (.opening .or false :: (inner x ++ [.closing]) ++ behind) =
        "(" ++ inside x ++ ")" ++ text false behind := by
    rw [List.cons_append, List.append_assoc, text, List.singleton_append, here]
    simp [joint, String.append_assoc]
  induction xs with
  | nil => exact absurd rfl held
  | cons first rest ih =>
    obtain ⟨here, later⟩ := List.forall_mem_cons.1 each
    rw [List.flatMap_cons, List.append_assoc, group first here]
    cases rest with
    | nil => simp
    | cons other rest =>
      have more := ih (List.cons_ne_nil _ _) later
      rw [List.flatMap_cons, List.cons_append, List.cons_append] at more
      have word : " " ++ Connective.or.sql ++ " " = " OR " := rfl
      rw [List.flatMap_cons, List.cons_append, List.cons_append,
        text_false_cons (.inr ⟨false, rfl⟩), word, more, List.map_cons, List.map_cons,
        List.map_cons, String.intercalate_cons_cons]
      simp only [String.append_assoc]

end Clause

namespace Relation

open RelationQuery.Part Condition

variable {dialect : Dialect} {columns : List String} {keys : List (List Value)}

def keySql (dialect : Dialect) (columns : List String) (keys : List (List Value)) : String :=
  match columns with
  | [column] => (Condition.member column false (keys.filterMap List.head?)).sql dialect
  | columns =>
    "(" ++ " OR ".intercalate (keys.map fun key =>
      "(" ++ " AND ".intercalate (List.zipWith (fun column value =>
        (equals column value).sql dialect) columns key) ++ ")") ++ ")"

def keyParts (dialect : Dialect) (columns : List String) (keys : List (List Value)) : List Part :=
  match columns with
  | [column] => memberParts dialect column (keys.filterMap List.head?)
  | columns =>
    [.group (either.intercalate (keys.map fun key =>
      [.group (between.intercalate (List.zipWith (equalityParts dialect) columns key))]))]

def keyClause (columns : List String) (keys : List (List Value)) : Clause Condition :=
  match columns with
  | [column] => [.item .and (.member column false (keys.filterMap List.head?))]
  | columns =>
    .opening .and false :: (keys.flatMap (fun key =>
      .opening .or false :: (List.zipWith (fun column value => .item .and (equals column value))
        columns key ++ [.closing])) ++ [.closing])

theorem comparing_eq {column : String} {value : Value} (present : value.isNull = false) :
    Condition.comparing column (.compare .equal) value = equals column value := by
  cases value with
  | null => cases present
  | boolean | number | text | array | object => rfl

theorem keyFilter_eq (complete : ∀ key ∈ keys, ∀ value ∈ key, value.isNull = false) :
    keyFilter columns keys = (keyClause columns keys).map (Entry.map .ready) := by
  unfold keyFilter keyClause
  split
  · rfl
  · have alternatives : keys.flatMap (fun key => .opening .or false :: (List.zipWith
          (fun column value => .item .and (.ready (.comparing column (.compare .equal) value)))
            columns key ++ [.closing])) =
        (keys.flatMap fun key => .opening .or false :: (List.zipWith (fun column value =>
          .item .and (equals column value)) columns key ++ [.closing])).map
            (Entry.map Place.ready) := by
      rw [List.map_flatMap]
      refine List.flatMap_congr fun key member => ?_
      rw [List.map_cons, List.map_append, List.map_zipWith]
      congr 2
      rw [← List.map_uncurry_zip_eq_zipWith, ← List.map_uncurry_zip_eq_zipWith]
      refine List.map_congr_left fun ⟨column, value⟩ paired => ?_
      simp [comparing_eq (complete key member value (List.of_mem_zip paired).2)]
    simp only [List.map_cons, List.map_append, Entry.map_opening, List.map_nil, Entry.map_closing]
    rw [← alternatives]

theorem text_keyClause (keyed : keys ≠ []) (complete : ∀ key ∈ keys, key.length = columns.length)
    (columned : columns ≠ []) (behind : Clause String) :
    Clause.text true (Condition.clauseSql dialect (keyClause columns keys) ++ behind) =
      keySql dialect columns keys ++ Clause.text false behind := by
  rw [Condition.clauseSql_eq_map]
  unfold keyClause keySql
  split
  · simp [Clause.text, Clause.joint]
  · let equalities (key : List Value) : List String :=
      List.zipWith (fun column value => (equals column value).sql dialect) columns key
    have inner (key : List Value) : (List.zipWith (fun column value =>
        Entry.item Connective.and (equals column value)) columns key).map
          (Entry.map (Condition.sql dialect)) = (equalities key).map (.item .and ·) := by
      simp [equalities, List.map_zipWith]
    have each : ∀ key ∈ keys, ∀ behind : Clause String,
        Clause.text true ((equalities key).map (.item .and ·) ++ .closing :: behind) =
          " AND ".intercalate (equalities key) ++ ")" ++ Clause.text false behind := by
      intro key member behind
      have held : equalities key ≠ [] := by
        intro bare
        rcases List.zipWith_eq_nil_iff.1 bare with short | rfl
        · exact columned short
        · exact columned (List.length_eq_zero_iff.1 (complete _ member).symm)
      rw [Clause.text_conjoin held, Clause.text, String.append_assoc]
    have whole := Clause.text_disjoin keyed each (.closing :: behind)
    simp only [List.map_cons, List.map_append, List.map_flatMap, Entry.map_opening, List.map_nil,
      Entry.map_closing, inner, List.cons_append, List.append_assoc, List.nil_append] at whole ⊢
    rw [Clause.text, whole]
    simp [Clause.text, Clause.joint, String.append_assoc, equalities]

/-- That a row has one of the keys, when it is known which comparisons do hold. -/
def HasKey (dialect : Dialect) (columns : List String) (keys : List (List Value))
    (holds : List Lexeme → Prop) : Prop :=
  ∃ key ∈ keys, ∀ pair ∈ columns.zip key, holds (words dialect (equals pair.1 pair.2))

theorem ne_nil_of_complete {column : String} (keyed : keys ≠ [])
    (complete : ∀ key ∈ keys, key.length = [column].length) : keys.filterMap List.head? ≠ [] := by
  obtain ⟨key, rest, rfl⟩ := List.exists_cons_of_ne_nil keyed
  obtain ⟨value, rfl⟩ := List.length_eq_one_iff.1 (complete key List.mem_cons_self)
  simp

theorem zip_ne_nil {key : List Value} (paired : key.length = columns.length)
    (columned : columns ≠ []) : columns.zip key ≠ [] := by
  intro bare
  rcases List.zip_eq_nil_iff.1 bare with short | rfl
  · exact columned short
  · exact columned (List.length_eq_zero_iff.1 paired.symm)

theorem made_equalities {key : List Value} (held : columns.zip key ≠ []) :
    Made dialect (" AND ".intercalate (List.zipWith (fun column value =>
        (equals column value).sql dialect) columns key))
      (between.intercalate (List.zipWith (equalityParts dialect) columns key)) := by
  let texts : List (String × List Part) := (columns.zip key).map fun pair =>
    ((equals pair.1 pair.2).sql dialect, equalityParts dialect pair.1 pair.2)
  have each : ∀ text ∈ texts, Made dialect text.1 text.2 :=
    List.forall_mem_map.2 fun _ _ => made_equality
  have whole := Made.conjoin (by simpa [texts] using held) each
  rw [List.map_map, List.map_map] at whole
  rw [← List.map_uncurry_zip_eq_zipWith, ← List.map_uncurry_zip_eq_zipWith]
  exact whole

theorem made_keys (keyed : keys ≠ []) (complete : ∀ key ∈ keys, key.length = columns.length)
    (columned : columns ≠ []) :
    Made dialect (keySql dialect columns keys) (keyParts dialect columns keys) := by
  unfold keySql keyParts
  split
  · exact made_member (ne_nil_of_complete keyed complete)
  · let texts : List (String × List Part) := keys.map fun key =>
      ("(" ++ " AND ".intercalate (List.zipWith (fun column value =>
        (equals column value).sql dialect) columns key) ++ ")",
        [.group (between.intercalate (List.zipWith (equalityParts dialect) columns key))])
    have each : ∀ text ∈ texts, Made dialect text.1 text.2 :=
      List.forall_mem_map.2 fun key member =>
        (made_equalities (zip_ne_nil (complete key member) columned)).enclose
    have whole : Made dialect (" OR ".intercalate (texts.map Prod.fst))
        (either.intercalate (texts.map Prod.snd)) :=
      Made.intercalate (by decide) (by decide) (by decide) (by simpa [texts] using keyed) each
    rw [List.map_map, List.map_map] at whole
    exact whole.enclose

theorem clear_keys : Clear (keyParts dialect columns keys) := by
  unfold keyParts
  split
  · exact clear_member
  · exact clear_group _

/-- The filter on keys says that a row has one of them. -/
theorem judges_keys {holds : List Lexeme → Prop} (keyed : keys ≠ [])
    (complete : ∀ key ∈ keys, key.length = columns.length) (columned : columns ≠ []) :
    Judges holds (lexemes (keyParts dialect columns keys)) ↔ HasKey dialect columns keys holds := by
  unfold keyParts HasKey
  split
  · next column =>
    rw [judges_member (ne_nil_of_complete keyed complete)]
    simp only [List.mem_filterMap]
    constructor
    · rintro ⟨value, ⟨key, member, first⟩, equal⟩
      obtain ⟨only, rfl⟩ := List.length_eq_one_iff.1 (complete key member)
      cases first
      exact ⟨_, member, by simpa using equal⟩
    · rintro ⟨key, member, equal⟩
      obtain ⟨only, rfl⟩ := List.length_eq_one_iff.1 (complete key member)
      exact ⟨only, ⟨_, member, rfl⟩, by simpa using equal⟩
  · rw [judges_group, says_disjoin (by simpa using keyed)
      (List.forall_mem_map.2 fun _ _ => clear_group _)]
    simp only [List.mem_map, exists_exists_and_eq_and, judges_group]
    refine exists_congr fun key => and_congr_right fun member => ?_
    rw [← List.map_uncurry_zip_eq_zipWith, says_conjoin]
    · simp only [List.forall_mem_map]
      exact forall₂_congr fun _ _ => judges_equality
    · simpa using zip_ne_nil (complete key member) columned
    · exact List.forall_mem_map.2 fun _ _ => clear_equality

end Relation

/-- The condition of a fetch: that a row has one of the keys, and what a refinement came to in
parentheses. It says the former and the latter of a row, whichever comparisons hold of it. -/
structure Selects (dialect : Dialect) (columns : List String) (keys : List (List Value))
    (narrowing : Option String) (body : String) : Prop where
  text : body = " AND ".intercalate (Relation.keySql dialect columns keys ::
    narrowing.toList.map fun held => "(" ++ held ++ ")")
  reading : ∃ inner parts, narrowing.toList.mapM (Part.read? dialect) = some inner ∧
    Part.read? dialect body = some parts ∧ ∀ holds, Part.Says holds parts ↔
      Relation.HasKey dialect columns keys holds ∧ ∀ asked ∈ inner, Part.Says holds asked

namespace Relation

open RelationQuery.Part Condition

variable {dialect : Dialect} {columns : List String} {keys : List (List Value)}

theorem exists_read_keys (keyed : keys ≠ []) (complete : ∀ key ∈ keys, key.length = columns.length)
    (columned : columns ≠ []) {texts : List String} {groups : List (List Part)}
    (made : List.Forall₂ (fun text parts => Made dialect text [.group parts]) texts groups) :
    ∃ parts, Part.read? dialect (" AND ".intercalate (keySql dialect columns keys :: texts)) =
        some parts ∧
      ∀ holds, Says holds parts ↔
        HasKey dialect columns keys holds ∧ ∀ asked ∈ groups, Says holds asked := by
  let conjuncts : List (String × List Part) :=
    (keySql dialect columns keys, keyParts dialect columns keys) ::
      texts.zip (groups.map fun parts => [.group parts])
  have each : ∀ conjunct ∈ conjuncts, Made dialect conjunct.1 conjunct.2 := by
    refine List.forall_mem_cons.2 ⟨made_keys keyed complete columned, ?_⟩
    clear conjuncts
    induction made with
    | nil => exact fun _ => (nomatch ·)
    | cons here _ ih => exact List.forall_mem_cons.2 ⟨here, ih⟩
  have whole := (Made.conjoin (List.cons_ne_nil _ _) each).read?
  have length := made.length_eq
  simp only [List.map_cons] at whole
  rw [List.map_fst_zip (by simp [length]), List.map_snd_zip (by simp [length])] at whole
  refine ⟨_, whole, fun holds => ?_⟩
  rw [says_conjoin (List.cons_ne_nil _ _)]
  · rw [List.forall_mem_cons, judges_keys keyed complete columned, List.forall_mem_map]
    rfl
  · exact List.forall_mem_cons.2 ⟨clear_keys, List.forall_mem_map.2 fun _ _ => clear_group _⟩

theorem selects_of_reads {allowed : List Char → Prop} {narrowing : Option String}
    (keyed : keys ≠ []) (complete : ∀ key ∈ keys, key.length = columns.length)
    (columned : columns ≠ []) (reads : ∀ held ∈ narrowing, Reads dialect allowed 0 0 held) :
    Selects dialect columns keys narrowing (" AND ".intercalate (keySql dialect columns keys ::
      narrowing.toList.map fun held => "(" ++ held ++ ")")) := by
  refine ⟨rfl, ?_⟩
  cases narrowing with
  | none =>
    obtain ⟨parts, read, reading⟩ := exists_read_keys keyed complete columned .nil
    exact ⟨[], parts, rfl, read, reading⟩
  | some held =>
    obtain ⟨inner, asks, made⟩ := Part.Made.group (reads held rfl)
    obtain ⟨parts, read, reading⟩ := exists_read_keys keyed complete columned (.cons made .nil)
    exact ⟨[inner], parts, by simp [asks], read, reading⟩

end Relation

theorem Clause.behind_map {α β : Type} (f : α → β) (clause lead : Clause α) :
    Clause.behind (clause.map (Entry.map f)) (lead.map (Entry.map f)) =
      (clause.behind lead).map (Entry.map f) := by
  unfold Clause.behind
  split <;> simp_all [Entry.map]

theorem Clause.sql?_behind {dialect : Dialect} {clause lead : Clause Condition} {text : String}
    (leads : ∀ behind : Clause String,
      Clause.text true (Condition.clauseSql dialect lead ++ behind) =
        text ++ Clause.text false behind) (held : lead ≠ []) :
    (clause.behind lead).sql? dialect = some (" AND ".intercalate (text ::
      (clause.sql? dialect).toList.map fun held => "(" ++ held ++ ")")) := by
  simp only [Condition.clauseSql_eq_map] at leads
  unfold Clause.sql? Clause.behind
  by_cases bare : clause.isEmpty
  · have alone := leads []
    rw [List.append_nil] at alone
    simp [bare, held, Condition.clauseSql_eq_map, alone, Clause.text]
  · have whole := leads (.opening .and false :: (clause.map (Entry.map (Condition.sql dialect)) ++
      [.closing]))
    rw [Clause.text, Clause.text_closing] at whole
    have opening : " AND (" = " AND " ++ "(" := rfl
    simp [bare, held, Condition.clauseSql_eq_map, whole, Clause.joint, Connective.sql,
      String.intercalate_cons_cons, String.append_assoc]
    rw [opening, String.append_assoc]

namespace Statement

variable {s : Statement} {columns : List String} {keys : List (List Value)} {own : Option String}

def headSql (s : Statement) (table : Table) : String :=
  "SELECT " ++ s.projectionSql table ++ " FROM " ++
    ({ table, joins := s.joins } : Source).sql s.dialect

def tailSql (s : Statement) : String := s.orderSql ++ s.pagingSql

theorem sql_eq_of_filterSql (asks : s.filterSql = .ok own) : s.sql = s.requireTable.map fun table =>
    s.headSql table ++ own.elim "" (" WHERE " ++ ·) ++ s.tailSql := by
  obtain ⟨clause, filter, text⟩ := Outcome.exists_of_bind asks
  obtain rfl : clause.sql? s.dialect = own := Except.ok.inj text
  rw [sql_eq, filter]
  cases s.requireTable with
  | error error => rfl
  | ok table =>
    simp only [Outcome.ok_bind, bodyText, Except.map, headSql, tailSql]
    cases clause.sql? s.dialect <;> simp [pure, Except.pure, String.append_assoc]

theorem filterSql_follow {given : Value → Prop} (grounded : s.Grounded given)
    (asks : s.filterSql = .ok own) (keyed : keys ≠ [])
    (complete : ∀ key ∈ keys, key.length = columns.length ∧ ∀ value ∈ key, value.isNull = false)
    (columned : columns ≠ []) :
    ∃ body, (s.follow (Relation.keyFilter columns keys)).filterSql = .ok (some body) ∧
      Selects s.dialect columns keys own body := by
  obtain ⟨clause, filter, asks⟩ := Outcome.exists_of_bind asks
  cases asks
  have paired := fun key member => (complete key member).1
  have reads : ∀ held ∈ clause.sql? s.dialect, Reads s.dialect (LiteralOf given) 0 0 held := by
    obtain ⟨within, nested⟩ := grounded.of_filter filter
    intro held written
    unfold Clause.sql? at written
    split at written
    · cases written
    · cases written
      exact Condition.reads_clause within nested
  obtain ⟨closed, ready⟩ := ready_of_filter filter
  have follows : (s.follow (Relation.keyFilter columns keys)).filter =
      .ok (clause.behind (Relation.keyClause columns keys)) := by
    refine filter_of_ready (s := s.follow _) closed ?_
    rw [Statement.follow, ready, Relation.keyFilter_eq fun key member => (complete key member).2]
    exact Clause.behind_map ..
  have leads : Relation.keyClause columns keys ≠ [] := by
    unfold Relation.keyClause
    split <;> exact List.cons_ne_nil _ _
  refine ⟨_, ?_, Relation.selects_of_reads keyed paired columned reads⟩
  rw [filterSql, follows, Outcome.ok_bind]
  exact congrArg Except.ok
    (Clause.sql?_behind (Relation.text_keyClause keyed paired columned) leads)

end Statement

namespace Relation

variable {config : Config} {relation : Relation} {names : List KeyName} {rows : List Row}
  {key : List Value}

theorem complete_distinctKeys (member : key ∈ distinctKeys names rows) :
    key.length = names.length ∧ ∀ value ∈ key, value.isNull = false := by
  obtain ⟨row, _, read⟩ := exists_readAll_of_mem_distinctKeys member
  refine ⟨KeyName.length_of_readAll read, fun value held => ?_⟩
  obtain ⟨name, _, shown⟩ := KeyName.exists_read_of_mem read held
  simpa using (Option.filter_eq_some_iff.1 shown).2

theorem count_distinctKeys {row : Row} (member : row ∈ rows)
    (read : KeyName.readAll names row = some key) :
    ((distinctKeys names rows).map Key.text).count (Key.text key) = 1 := by
  have kept := kept_distinctKeys names rows
  obtain ⟨held, among, same⟩ := kept.each key (List.mem_filterMap.2 ⟨row, member, read⟩)
  have once : ((distinctKeys names rows).map Key.text).Nodup := List.pairwise_map.2 kept.apart
  exact List.count_eq_one_of_mem once (List.mem_map.2 ⟨held, among, same.symm⟩)

def chosenEdge : Edge Refinement where
  target := "orders"
  foreign := ["a_id", "b_id"]
  own := ["a", "b"]
  refinement := some [.filter .and "paid" (.boolean true), .filter .or "note" (.text "x) OR (y")]

def chosenRows : List Row :=
  [[("a", .text "1"), ("b", .text "2")], [("a", .text "3"), ("b", .null)],
    [("a", .text "1"), ("b", .text "2")], [("a", .text "4"), ("b", .boolean true)]]

end Relation

end RelationQuery
