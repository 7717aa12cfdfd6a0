import Mathlib.Data.List.SplitBy
import RelationQuery.Proofs.Condition

/-! How a condition is read. Parentheses are matched first, quotes apart; outside of groups OR binds
less than AND. Main statements: texts joined by AND are read one after the other, and make one
conjunction if they have no words outside of groups. -/
namespace RelationQuery

open Token

/-- A token outside of parentheses, or all that stands between two that match. -/
inductive Part where
  | token (token : Token)
  | group (parts : List Part)

structure Levels where
  here : List Part
  around : List (List Part)

namespace Levels

def add (levels : Levels) (token : Token) : Option Levels :=
  if token = .plain '(' then some ⟨[], levels.here :: levels.around⟩
  else if token = .plain ')' then
    match levels.around with
    | [] => none
    | outside :: around => some ⟨outside ++ [.group levels.here], around⟩
  else some { levels with here := levels.here ++ [.token token] }

end Levels

namespace Part

def ofTokens? (tokens : List Token) : Option (List Part) :=
  match tokens.foldlM Levels.add ⟨[], []⟩ with
  | some ⟨parts, []⟩ => some parts
  | _ => none

def read? (dialect : Dialect) (text : String) : Option (List Part) :=
  (lex dialect text.toList).bind ofTokens?

def letter? : Part → Option Char
  | .token (.plain c) => if Identifier.isPart c then some c else none
  | _ => none

def isBlank : Part → Bool
  | .token (.plain c) => [' ', '\t', '\n', '\r'].contains c
  | _ => false

end Part

abbrev Lexeme := List Part

namespace Part

def lexemes (parts : List Part) : List Lexeme :=
  (parts.splitBy fun first second => first.letter?.isSome && second.letter?.isSome).filter
    fun lexeme => !lexeme.all isBlank

def isKeyword (keyword : String) (lexeme : Lexeme) : Bool :=
  Text.sameLetters keyword.toList (lexeme.filterMap letter?)

/-- The alternatives of a condition, each with its conjuncts. -/
def alternatives (parts : List Part) : List (List (List Lexeme)) :=
  ((lexemes parts).splitOnP (isKeyword "OR")).map (List.splitOnP (isKeyword "AND"))

end Part

/-! ### Matching parentheses -/

namespace Levels

variable {levels after : Levels} {tokens : List Token}

@[simp] theorem add_opening (levels : Levels) :
    levels.add (.plain '(') = some ⟨[], levels.here :: levels.around⟩ := rfl

@[simp] theorem add_closing (here outside : List Part) (around : List (List Part)) :
    add ⟨here, outside :: around⟩ (.plain ')') = some ⟨outside ++ [.group here], around⟩ := rfl

theorem add_flat {token : Token} (flat : token ≠ .plain '(' ∧ token ≠ .plain ')')
    (levels : Levels) :
    levels.add token = some { levels with here := levels.here ++ [.token token] } := by
  simp [add, flat]

theorem add_within {token : Token} (outside : List (List Part))
    (h : levels.add token = some after) :
    add ⟨levels.here, levels.around ++ outside⟩ token =
      some ⟨after.here, after.around ++ outside⟩ := by
  by_cases opens : token = .plain '('
  · subst opens
    cases h
    rfl
  · by_cases closes : token = .plain ')'
    · subst closes
      obtain ⟨here, _ | ⟨level, around⟩⟩ := levels <;> cases h
      rfl
    · rw [add_flat ⟨opens, closes⟩] at *
      cases h
      rfl

theorem foldlM_within (outside : List (List Part)) (h : tokens.foldlM add levels = some after) :
    tokens.foldlM add ⟨levels.here, levels.around ++ outside⟩ =
      some ⟨after.here, after.around ++ outside⟩ := by
  induction tokens generalizing levels with
  | nil =>
    cases h
    rfl
  | cons token rest ih =>
    rw [List.foldlM_cons] at *
    obtain ⟨next, here, h⟩ := Option.bind_eq_some_iff.1 h
    rw [add_within outside here]
    exact ih h

theorem exists_add {token : Token} {depth : Nat}
    (h : nest levels.around.length token = some depth) :
    ∃ after, levels.add token = some after ∧ after.around.length = depth := by
  by_cases opens : token = .plain '('
  · subst opens
    cases h
    exact ⟨_, add_opening levels, rfl⟩
  · by_cases closes : token = .plain ')'
    · subst closes
      obtain ⟨here, _ | ⟨outside, around⟩⟩ := levels <;> cases h
      exact ⟨_, add_closing here outside around, rfl⟩
    · refine ⟨_, add_flat ⟨opens, closes⟩ levels, ?_⟩
      cases token with
      | literal | name => exact Option.some.inj h
      | plain c =>
        have opens : c ≠ '(' := fun same => opens (congrArg plain same)
        have closes : c ≠ ')' := fun same => closes (congrArg plain same)
        simpa [nest, opens, closes] using h

theorem exists_foldlM {depth : Nat} (h : nesting levels.around.length tokens = some depth) :
    ∃ after, tokens.foldlM add levels = some after ∧ after.around.length = depth := by
  unfold nesting at h
  induction tokens generalizing levels with
  | nil =>
    cases h
    exact ⟨levels, rfl, rfl⟩
  | cons token rest ih =>
    rw [List.foldlM_cons] at h
    obtain ⟨between, here, h⟩ := Option.bind_eq_some_iff.1 h
    obtain ⟨next, added, rfl⟩ := exists_add here
    obtain ⟨after, whole, same⟩ := ih h
    exact ⟨after, by rw [List.foldlM_cons, added]; exact whole, same⟩

theorem foldlM_flat (h : ∀ token ∈ tokens, token ≠ .plain '(' ∧ token ≠ .plain ')')
    (levels : Levels) : tokens.foldlM add levels =
      some { levels with here := levels.here ++ tokens.map .token } := by
  induction tokens generalizing levels with
  | nil => simp
  | cons token rest ih =>
    obtain ⟨flat, later⟩ := List.forall_mem_cons.1 h
    rw [List.foldlM_cons, add_flat flat]
    exact (ih later _).trans (by simp)

end Levels

namespace Part

/-- Before a separator the text comes to these parts, wherever it stands. -/
def Made (dialect : Dialect) (text : String) (parts : List Part) : Prop :=
  ∃ tokens, Spells dialect Parted text tokens ∧ ∀ levels : Levels,
    tokens.foldlM Levels.add levels = some { levels with here := levels.here ++ parts }

variable {dialect : Dialect} {text : String} {parts : List Part}

theorem Made.read? (h : Made dialect text parts) : read? dialect text = some parts := by
  obtain ⟨tokens, spells, adds⟩ := h
  rw [Part.read?, spells.whole, Option.bind_some, ofTokens?, adds]
  rfl

theorem Made.of_flat {tokens : List Token} (spells : Spells dialect Parted text tokens)
    (flat : ∀ token ∈ tokens, token ≠ .plain '(' ∧ token ≠ .plain ')') :
    Made dialect text (tokens.map .token) :=
  ⟨tokens, spells, Levels.foldlM_flat flat⟩

theorem Made.group {allowed : List Char → Prop} (h : Reads dialect allowed 0 0 text) :
    ∃ parts, Part.read? dialect text = some parts ∧
      Made dialect ("(" ++ text ++ ")") [.group parts] := by
  obtain ⟨tokens, cut, nested, _⟩ := h
  have cut : Spells dialect Parted text tokens := cut
  have nested : nesting (Levels.mk [] []).around.length tokens = some 0 := nested
  obtain ⟨⟨parts, around⟩, whole, closed⟩ := Levels.exists_foldlM nested
  obtain rfl := List.length_eq_zero_iff.1 closed
  refine ⟨parts, ?_, .plain '(' :: (tokens ++ [.plain ')']), ?_, fun levels => ?_⟩
  · rw [Part.read?, cut.whole, Option.bind_some, ofTokens?, whole]
  · have opening : Fixed "(" 0 1 := by decide
    have closing : Fixed ")" 1 0 := by decide
    have inside := (Spells.of_fixed opening).append cut fun _ _ => True.intro
    refine (inside.append (Spells.of_fixed closing) fun rest _ => ?_).narrow fun _ _ => True.intro
    simp [Parted]
  · have inside : tokens.foldlM Levels.add ⟨[], levels.here :: levels.around⟩ =
        some ⟨parts, levels.here :: levels.around⟩ := Levels.foldlM_within _ whole
    rw [List.foldlM_cons, Levels.add_opening, Option.bind_eq_bind, Option.bind_some,
      List.foldlM_append, inside]
    rfl

def ofText (text : String) : List Part := (text.toList.map plain).map .token

theorem Made.intercalate {separator : String} (fixed : Fixed separator 0 0)
    (parted : Parted separator.toList ∧ separator.toList ≠ [])
    (flat : ∀ token ∈ separator.toList.map plain, token ≠ .plain '(' ∧ token ≠ .plain ')')
    {texts : List (String × List Part)} (held : texts ≠ [])
    (each : ∀ text ∈ texts, Made dialect text.1 text.2) :
    Made dialect (separator.intercalate (texts.map Prod.fst))
      ((ofText separator).intercalate (texts.map Prod.snd)) := by
  induction texts with
  | nil => exact absurd rfl held
  | cons text rest ih =>
    obtain ⟨here, later⟩ := List.forall_mem_cons.1 each
    cases rest with
    | nil => simpa using here
    | cons other rest =>
      obtain ⟨front, first, adds⟩ := here
      obtain ⟨back, second, continues⟩ := ih (List.cons_ne_nil _ _) later
      refine ⟨front ++ separator.toList.map plain ++ back, ?_, fun levels => ?_⟩
      · rw [List.map_cons, List.map_cons, String.intercalate_cons_cons]
        have joined := first.append (Spells.of_fixed fixed) fun rest _ => by
          obtain ⟨c, cs, chars⟩ := List.exists_cons_of_ne_nil parted.2
          have begins := parted.1
          rw [chars] at begins ⊢
          exact begins
        exact joined.append second fun _ _ => True.intro
      · rw [List.foldlM_append, List.foldlM_append, adds, Option.bind_eq_bind, Option.bind_some,
          Levels.foldlM_flat flat, Option.bind_some, continues]
        simp only [List.map_cons, List.intercalate_cons_cons, List.append_assoc, ofText]

def between : List Part := ofText " AND "

theorem Made.conjoin {conjuncts : List (String × List Part)} (held : conjuncts ≠ [])
    (each : ∀ conjunct ∈ conjuncts, Made dialect conjunct.1 conjunct.2) :
    Made dialect (" AND ".intercalate (conjuncts.map Prod.fst))
      (between.intercalate (conjuncts.map Prod.snd)) :=
  Made.intercalate (by decide) (by decide) (by decide) held each

theorem intercalate_concat {conjuncts : List (List Part)} (held : conjuncts ≠ [])
    (last : List Part) :
    between.intercalate (conjuncts ++ [last]) =
      between.intercalate conjuncts ++ between ++ last := by
  induction conjuncts with
  | nil => exact absurd rfl held
  | cons conjunct rest ih =>
    cases rest with
    | nil => simp [List.intercalate_cons_cons]
    | cons other rest =>
      have more := ih (List.cons_ne_nil _ _)
      rw [List.cons_append] at more
      rw [List.cons_append, List.cons_append, List.intercalate_cons_cons, more,
        List.intercalate_cons_cons]
      simp only [List.append_assoc]

/-! ### Precedence -/

theorem lexemes_append {front back : List Part}
    (apart : ∀ first ∈ front.getLast?, ∀ second ∈ back.head?,
      first.letter? = none ∨ second.letter? = none) :
    lexemes (front ++ back) = lexemes front ++ lexemes back := by
  unfold lexemes
  rw [List.splitBy_append, List.filter_append]
  intro first last second next
  rcases apart first last second next with plain | plain <;> simp [plain]

theorem lexemes_of_wordless {parts : List Part} (wordless : ∀ part ∈ parts, part.letter? = none) :
    lexemes parts = (parts.filter (!·.isBlank)).map ([·]) := by
  induction parts with
  | nil => rfl
  | cons part rest ih =>
    obtain ⟨plain, later⟩ := List.forall_mem_cons.1 wordless
    have split : lexemes ([part] ++ rest) = lexemes [part] ++ lexemes rest :=
      lexemes_append fun first last _ _ => .inl (by simp_all)
    have here : lexemes [part] = if part.isBlank then [] else [[part]] := by
      cases blank : part.isBlank <;> simp [lexemes, List.splitBy, List.splitBy.loop, blank]
    rw [← List.singleton_append, split, here, ih later]
    cases blank : part.isBlank <;> simp [blank]

theorem lexemes_intercalate {separator : List Part} {word : Lexeme}
    (first : separator.head? = some (.token (.plain ' ')))
    (last : separator.getLast? = some (.token (.plain ' '))) (middle : lexemes separator = [word])
    {texts : List (List Part)} (held : texts ≠ []) :
    lexemes (separator.intercalate texts) = [word].intercalate (texts.map lexemes) := by
  have blank : letter? (.token (.plain ' ')) = none := rfl
  have around (front back : List Part) :
      lexemes (front ++ separator ++ back) = lexemes front ++ word :: lexemes back := by
    have behind : lexemes (front ++ separator) = lexemes front ++ lexemes separator :=
      lexemes_append fun _ _ second next => .inr (by rw [first] at next; cases next; exact blank)
    rw [lexemes_append, behind, middle, List.append_assoc]
    · rfl
    · intro part ends _ _
      rw [List.getLast?_append, last] at ends
      cases ends
      exact .inl blank
  induction texts with
  | nil => exact absurd rfl held
  | cons text rest ih =>
    cases rest with
    | nil => simp
    | cons other rest =>
      rw [List.intercalate_cons_cons, around, ih (List.cons_ne_nil _ _), List.map_cons,
        List.map_cons, List.map_cons, List.intercalate_cons_cons]
      simp

def conjunction : Lexeme := ofText "AND"

def disjunction : Lexeme := ofText "OR"

def either : List Part := ofText " OR "

def Clear (parts : List Part) : Prop :=
  ∀ lexeme ∈ lexemes parts, isKeyword "OR" lexeme = false ∧ isKeyword "AND" lexeme = false

theorem not_isKeyword {keyword : String} (word : keyword ≠ "") {parts : List Part}
    (wordless : ∀ part ∈ parts, part.letter? = none) {lexeme : Lexeme}
    (member : lexeme ∈ lexemes parts) : isKeyword keyword lexeme = false := by
  rw [lexemes_of_wordless wordless] at member
  obtain ⟨part, held, rfl⟩ := List.mem_map.1 member
  have plain := wordless part (List.mem_filter.1 held).1
  simp [isKeyword, plain, Text.sameLetters, word]

theorem splitOnP_intercalate {α : Type} {p : α → Bool} {separator : α} {lists : List (List α)}
    (parts : p separator = true) (held : lists ≠ [])
    (apart : ∀ list ∈ lists, ∀ x ∈ list, p x = false) :
    ([separator].intercalate lists).splitOnP p = lists := by
  induction lists with
  | nil => exact absurd rfl held
  | cons list rest ih =>
    obtain ⟨here, later⟩ := List.forall_mem_cons.1 apart
    cases rest with
    | nil => simpa using List.splitOnP_eq_singleton here
    | cons other rest =>
      rw [List.intercalate_cons_cons, List.append_assoc, List.singleton_append,
        List.splitOnP_append_cons_of_forall_mem here _ parts, ih (List.cons_ne_nil _ _) later]

theorem clear_of_wordless {parts : List Part} (wordless : ∀ part ∈ parts, part.letter? = none) :
    Clear parts :=
  fun _ member => ⟨not_isKeyword (by decide) wordless member,
    not_isKeyword (by decide) wordless member⟩

theorem alternatives_of_clear {conjuncts : List (List Part)} (held : conjuncts ≠ [])
    (clear : ∀ conjunct ∈ conjuncts, Clear conjunct) :
    alternatives (between.intercalate conjuncts) = [conjuncts.map lexemes] := by
  -- The only words outside of groups are those between the conjuncts, and none of them is OR.
  have single : ([conjunction].intercalate (conjuncts.map lexemes)).splitOnP (isKeyword "OR") =
      [[conjunction].intercalate (conjuncts.map lexemes)] := by
    refine List.splitOnP_eq_singleton fun lexeme member => ?_
    rcases Text.mem_of_mem_intercalate member with here | ⟨_, found, here⟩
    · obtain rfl := List.mem_singleton.1 here
      rfl
    · obtain ⟨conjunct, among, rfl⟩ := List.mem_map.1 found
      exact (clear conjunct among lexeme here).1
  have parted : ([conjunction].intercalate (conjuncts.map lexemes)).splitOnP (isKeyword "AND") =
      conjuncts.map lexemes := by
    refine splitOnP_intercalate rfl (by simpa using held) fun _ found => ?_
    obtain ⟨conjunct, among, rfl⟩ := List.mem_map.1 found
    exact fun lexeme here => (clear conjunct among lexeme here).2
  have words : lexemes (between.intercalate conjuncts) =
      [conjunction].intercalate (conjuncts.map lexemes) := lexemes_intercalate rfl rfl rfl held
  rw [alternatives, words, single, List.map_singleton, parted]

theorem alternatives_disjoin {disjuncts : List (List Part)} (held : disjuncts ≠ [])
    (clear : ∀ disjunct ∈ disjuncts, Clear disjunct) :
    alternatives (either.intercalate disjuncts) = disjuncts.map fun parts => [lexemes parts] := by
  have parted : ([disjunction].intercalate (disjuncts.map lexemes)).splitOnP (isKeyword "OR") =
      disjuncts.map lexemes := by
    refine splitOnP_intercalate rfl (by simpa using held) fun _ found => ?_
    obtain ⟨disjunct, among, rfl⟩ := List.mem_map.1 found
    exact fun lexeme here => (clear disjunct among lexeme here).1
  have words : lexemes (either.intercalate disjuncts) =
      [disjunction].intercalate (disjuncts.map lexemes) := lexemes_intercalate rfl rfl rfl held
  rw [alternatives, words, parted, List.map_map]
  refine List.map_congr_left fun disjunct among => ?_
  exact List.splitOnP_eq_singleton fun lexeme here => (clear disjunct among lexeme here).2

theorem alternatives_conjoin {conjuncts : List (List Part)} (held : conjuncts ≠ [])
    (wordless : ∀ conjunct ∈ conjuncts, ∀ part ∈ conjunct, part.letter? = none) :
    alternatives (between.intercalate conjuncts) = [conjuncts.map lexemes] :=
  alternatives_of_clear held fun conjunct among => clear_of_wordless (wordless conjunct among)

/-- A group is one conjunct, whatever words and parentheses are in it or in quotes. -/
example : (read? .mysql "'OR' or(a AND(b))AND c").map alternatives =
    some [[[[.token (.literal "OR".toList)]]],
      [[[.group ([.token (.plain 'a')] ++ (" AND".toList.map plain).map .token ++
        [.group [.token (.plain 'b')]])]], [[.token (.plain 'c')]]]] := rfl

end Part

namespace KeyMatch

def lexemes (key : KeyMatch) : List Lexeme :=
  (ofName key.inner ++ plain '=' :: ofName key.outer).map fun token => [.token token]

def tokens (key : KeyMatch) : List Token :=
  ofName key.inner ++ " = ".toList.map plain ++ ofName key.outer

def parts (key : KeyMatch) : List Part := key.tokens.map .token

theorem plain_of_mem_ofName {name : String} {token : Token} (h : token ∈ ofName name) :
    (Part.token token).letter? = none ∧ (Part.token token).isBlank = false ∧
      token ≠ .plain '(' ∧ token ≠ .plain ')' := by
  rcases mem_ofName h with rfl | rfl | ⟨part, rfl⟩
  · decide
  · decide
  · exact ⟨rfl, rfl, nofun, nofun⟩

theorem wordless_of_mem_tokens {key : KeyMatch} {token : Token} (h : token ∈ key.tokens) :
    (Part.token token).letter? = none ∧ token ≠ .plain '(' ∧ token ≠ .plain ')' := by
  have equals : ∀ token ∈ " = ".toList.map plain,
      (Part.token token).letter? = none ∧ token ≠ .plain '(' ∧ token ≠ .plain ')' := by decide
  simp only [tokens, List.mem_append] at h
  rcases h with (inner | middle) | outer
  · exact (plain_of_mem_ofName inner).imp_right And.right
  · exact equals token middle
  · exact (plain_of_mem_ofName outer).imp_right And.right

theorem made (dialect : Dialect) (key : KeyMatch) :
    Part.Made dialect (key.sql dialect) key.parts := by
  refine .of_flat ?_ fun token member => (wordless_of_mem_tokens member).2
  have middle : Fixed " = " 0 0 := by decide
  have front : Spells dialect (fun _ => True) (dialect.quote key.inner ++ " = ")
      (ofName key.inner ++ " = ".toList.map plain) :=
    (Spells.quote key.inner).append (Spells.of_fixed middle) fun rest _ => by simp [Parted]
  exact front.append (Spells.quote key.outer) fun _ _ => True.intro

theorem wordless (key : KeyMatch) : ∀ part ∈ key.parts, part.letter? = none :=
  List.forall_mem_map.2 fun _ member => (wordless_of_mem_tokens member).1

theorem lexemes_parts (key : KeyMatch) : Part.lexemes key.parts = key.lexemes := by
  have kept (name : String) : (ofName name).filter (fun token => !(Part.token token).isBlank) =
      ofName name :=
    List.filter_eq_self.2 fun token member => by simp [(plain_of_mem_ofName member).2.1]
  have equals : (" = ".toList.map plain).filter (fun token => !(Part.token token).isBlank) =
      [plain '='] := rfl
  rw [Part.lexemes_of_wordless key.wordless, parts, List.filter_map, List.map_map, tokens]
  simp only [List.filter_append, Function.comp_def, kept, equals]
  simp [lexemes]

end KeyMatch

end RelationQuery
