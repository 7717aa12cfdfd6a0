import Mathlib.Data.List.Chain
import Mathlib.Data.List.Forall2
import Mathlib.Data.List.TakeWhile
import RelationQuery.Expression
import RelationQuery.Proofs.Outcome
import RelationQuery.Proofs.Quoting

/-! Expressions in a statement. Main statement: an expression that has been let in is cut apart
from what follows it, its parentheses match, and no literal is in it. -/
namespace RelationQuery.Expression

open Token

namespace Lexeme

def Ordinary (c : Char) : Prop := isPlain c ∧ c ∉ ['(', ')']

theorem ordinary_of_isWordPart {c : Char} (h : isWordPart c) : Ordinary c := by
  simp only [isWordPart, Identifier.isPart, Bool.or_eq_true, beq_iff_eq] at h
  rcases h with (letter | rfl) | rfl
  · constructor
    · simp [isPlain, letter]
    · simp only [List.mem_cons, List.not_mem_nil, or_false]
      rintro (rfl | rfl) <;> cases letter
  · exact ⟨by decide, by decide⟩
  · exact ⟨by decide, by decide⟩

theorem isWordPart_of_isStart {c : Char} (h : Identifier.isStart c) : isWordPart c := by
  simp only [Identifier.isStart, Bool.or_eq_true] at h
  rcases h with letter | mark
  · simp [isWordPart, Identifier.isPart, Char.isAlphanum, letter]
  · simp [isWordPart, Identifier.isPart, mark]

theorem ordinary_of_isNumberPart {c : Char} (h : isNumberPart c) : Ordinary c := by
  apply ordinary_of_isWordPart
  simp only [isNumberPart, Bool.or_eq_true] at h
  rcases h with digit | mark
  · simp [isWordPart, Identifier.isPart, Char.isAlphanum, digit]
  · simp [isWordPart, mark]

theorem ordinary_of_isGap {c : Char} (h : isGap c) : Ordinary c := by
  simp only [isGap, Bool.or_eq_true, beq_iff_eq] at h
  rcases h with ((rfl | rfl) | rfl) | rfl <;> exact ⟨by decide, by decide⟩

theorem ordinary_of_isOperator {c : Char} (h : isOperator c) : Ordinary c := by
  simp only [isOperator, Bool.or_eq_true, beq_iff_eq] at h
  rcases h with ((((rfl | rfl) | rfl) | rfl) | rfl) | rfl <;> exact ⟨by decide, by decide⟩

theorem ordinary_of_isComparison {c : Char} (h : isComparison c) : Ordinary c := by
  simp only [isComparison, Bool.or_eq_true, beq_iff_eq] at h
  rcases h with (rfl | rfl) | rfl <;> exact ⟨by decide, by decide⟩

/-- What a lexeme is made of, by its kind. -/
inductive Sound : Lexeme → Prop where
  | opening : Sound ⟨.opening, ['(']⟩
  | closing : Sound ⟨.closing, [')']⟩
  | word {c : Char} {cs : List Char} (h : Identifier.isStart c) (more : ∀ c ∈ cs, isWordPart c) :
    Sound ⟨.word, c :: cs⟩
  | other {kind : Kind} {text : List Char} (h : kind ∈ [.blank, .number, .operator, .comma])
    (held : text ≠ []) (chars : ∀ c ∈ text, Ordinary c) : Sound ⟨kind, text⟩

theorem sound_of_cut {c : Char} {cs rest : List Char} {lexeme : Lexeme}
    (h : cut c cs = .ok (lexeme, rest)) : lexeme.Sound := by
  unfold cut at h
  split at h
  · next gap =>
    cases h
    exact .other (by decide) (by simp) (by simpa using ordinary_of_isGap gap)
  split at h
  · next start =>
    cases h
    exact .word start fun _ member => List.mem_takeWhile_imp member
  split at h
  · next digit =>
    unfold cutNumber at h
    split at h <;> cases h
    refine .other (by decide) (by simp) ?_
    intro other member
    rcases List.mem_cons.1 member with rfl | member
    · exact ordinary_of_isNumberPart (by simp [isNumberPart, digit])
    · exact ordinary_of_isNumberPart (List.mem_takeWhile_imp member)
  split at h
  · next eq =>
    cases h
    rw [eq]
    exact .opening
  split at h
  · next eq =>
    cases h
    rw [eq]
    exact .closing
  split at h
  · next eq =>
    cases h
    exact .other (by decide) (by simp) (by simp [eq, Ordinary, isPlain])
  split at h
  · next comparison =>
    unfold cutComparison at h
    split at h
    · next follows =>
      cases h
      refine .other (by decide) (by simp) ?_
      intro other member
      rcases List.mem_cons.1 member with rfl | member
      · exact ordinary_of_isComparison comparison
      · cases cs with
        | nil => simp at member
        | cons next _ =>
          obtain rfl : other = next := by simpa using member
          rcases follows with eq | ⟨_, eq⟩
          · obtain rfl : other = '=' := by simpa using eq
            exact ⟨by decide, by decide⟩
          · obtain rfl : other = '>' := by simpa using eq
            exact ⟨by decide, by decide⟩
    · split at h <;> cases h
      exact .other (by decide) (by simp) (by simpa using ordinary_of_isComparison comparison)
  split at h
  · next operator =>
    cases h
    exact .other (by decide) (by simp) (by simpa using ordinary_of_isOperator operator)
  · cases h

theorem Sound.isPlain {lexeme : Lexeme} (h : lexeme.Sound) : ∀ c ∈ lexeme.text, isPlain c := by
  intro c member
  cases h with
  | opening | closing =>
    obtain rfl := List.mem_singleton.1 member
    decide
  | word start more =>
    rcases List.mem_cons.1 member with rfl | member
    · exact (ordinary_of_isWordPart (isWordPart_of_isStart start)).1
    · exact (ordinary_of_isWordPart (more c member)).1
  | other kind held chars => exact (chars c member).1

def Parts (first second : Lexeme) : Prop := first.kind = .word → second.kind ≠ .word

theorem isStart_of_cut {c : Char} {cs rest : List Char} {lexeme : Lexeme}
    (h : cut c cs = .ok (lexeme, rest)) (word : lexeme.kind = .word) : Identifier.isStart c := by
  have text := cut_text h
  cases sound_of_cut h with
  | opening | closing => cases word
  | word start more =>
    obtain ⟨rfl, _⟩ := List.cons_eq_cons.1 text
    exact start
  | other kind =>
    obtain rfl : _ = Kind.word := word
    simp at kind

theorem not_isWordPart_of_cut {c : Char} {cs rest : List Char} {lexeme : Lexeme}
    (h : cut c cs = .ok (lexeme, rest)) (word : lexeme.kind = .word) :
    ∀ next ∈ rest.head?, ¬isWordPart next := by
  have start := isStart_of_cut h word
  have gap : ¬isGap c := by
    intro gap
    rw [cut, if_pos gap] at h
    cases h
    cases word
  rw [cut, if_neg gap, if_pos start] at h
  cases h
  intro next head
  have := List.head?_dropWhile_not isWordPart cs
  rw [head] at this
  simpa using this

theorem sound_and_parts_of_scan {cs : List Char} {lexemes : List Lexeme}
    (h : scan cs = .ok lexemes) :
    (∀ lexeme ∈ lexemes, lexeme.Sound) ∧ lexemes.IsChain Parts := by
  fun_induction scan cs generalizing lexemes with
  | case1 =>
    cases h
    exact ⟨List.forall_mem_nil _, .nil⟩
  | case2 => cases h
  | case3 c cs lexeme rest hcut ih =>
    cases hrest : scan rest with
    | error fault => simp [hrest, Except.map] at h
    | ok more =>
      simp only [hrest, Except.map, Except.ok.injEq] at h
      subst h
      obtain ⟨sound, parts⟩ := ih hrest
      refine ⟨List.forall_mem_cons.2 ⟨sound_of_cut hcut, sound⟩, ?_⟩
      rw [List.isChain_cons]
      refine ⟨?_, parts⟩
      intro second head word other
      cases rest with
      | nil =>
        rw [scan] at hrest
        cases hrest
        cases head
      | cons d ds =>
        have apart := not_isWordPart_of_cut hcut word d rfl
        rw [scan] at hrest
        split at hrest
        · cases hrest
        · next found rest' hnext =>
          cases hlater : scan rest' with
          | error fault => simp [hlater, Except.map] at hrest
          | ok later =>
            simp only [hlater, Except.map, Except.ok.injEq] at hrest
            subst hrest
            cases head
            exact apart (isWordPart_of_isStart (isStart_of_cut hnext other))

end Lexeme

def Matches (lexeme : Lexeme) (piece : Piece) : Prop :=
  piece = .copied lexeme.text ∨
    lexeme.kind = .word ∧ piece = .column lexeme.text ∧
      Identifier.check .column lexeme.text = .ok ()

theorem of_classifyWord {mode : Mode} {word : List Char} {called : Bool} {piece : Piece}
    (h : classifyWord mode word called = .ok piece) :
    piece = .copied word ∧ (called = true ∧ Text.isListed mode.functions word ∨
        called = false ∧ Text.isListed mode.keywords word) ∨
      piece = .column word ∧ called = false ∧ Text.isListed mode.keywords word = false ∧
        Identifier.check .column word = .ok () := by
  unfold classifyWord at h
  split at h
  · next call =>
    split at h
    · next listed =>
      cases h
      exact .inl ⟨rfl, .inl ⟨call, listed⟩⟩
    · cases h
  have plain : called = false := Bool.eq_false_iff.2 ‹_›
  split at h
  · next listed =>
    cases h
    exact .inl ⟨rfl, .inr ⟨plain, listed⟩⟩
  · next other =>
    split at h
    · cases h
    split at h
    · cases h
    · next checked =>
      cases h
      exact .inr ⟨rfl, plain, Bool.eq_false_iff.2 other, checked⟩

theorem exists_of_classify {mode : Mode} {lexeme : Lexeme} {rest : List Lexeme}
    {pieces : List Piece} (h : classify mode (lexeme :: rest) = .ok pieces) :
    ∃ piece more, pieces = piece :: more ∧ classify mode rest = .ok more ∧
      if lexeme.kind = .word then classifyWord mode lexeme.text (isCalled rest) = .ok piece
      else piece = .copied lexeme.text := by
  unfold classify at h
  split at h
  · next word =>
    obtain ⟨piece, first, h⟩ := Outcome.exists_of_bind h
    obtain ⟨others, more, h⟩ := Outcome.exists_of_bind h
    cases h
    exact ⟨piece, others, rfl, more, by rwa [if_pos word]⟩
  · next other =>
    obtain ⟨_, ⟨⟩, h⟩ := Outcome.exists_of_bind h
    obtain ⟨others, more, h⟩ := Outcome.exists_of_bind h
    cases h
    exact ⟨_, others, rfl, more, by rw [if_neg other]⟩

theorem matches_of_classify {mode : Mode} {lexemes : List Lexeme} {pieces : List Piece}
    (h : classify mode lexemes = .ok pieces) : List.Forall₂ Matches lexemes pieces := by
  induction lexemes generalizing pieces with
  | nil =>
    cases h
    exact .nil
  | cons lexeme rest ih =>
    obtain ⟨piece, others, rfl, more, made⟩ := exists_of_classify h
    refine .cons ?_ (ih more)
    split at made
    · next word =>
      rcases of_classifyWord made with ⟨rfl, _⟩ | ⟨rfl, _, _, checked⟩
      · exact .inl rfl
      · exact .inr ⟨word, rfl, checked⟩
    · exact .inl made

theorem isShaped_of_check {kind : Identifier.Kind} {name : List Char}
    (h : Identifier.check kind name = .ok ()) : Identifier.isShaped kind name := by
  unfold Identifier.check at h
  by_contra other
  rw [Bool.not_eq_true] at other
  cases empty : name.isEmpty <;> cases forbidden : Forbidden.first? name <;>
    simp only [other, empty, forbidden] at h <;> cases h

theorem isWord_of_check {kind : Identifier.Kind} {name : List Char}
    (h : Identifier.check kind name = .ok ()) :
    ∀ part ∈ Identifier.parts name, Identifier.isWord part := by
  have shaped := isShaped_of_check h
  unfold Identifier.isShaped at shaped
  split at shaped
  · next one => simpa [one] using shaped
  · next two => simpa [two] using shaped
  · cases shaped

theorem isPart_of_isWord {word : List Char} (h : Identifier.isWord word) :
    ∀ c ∈ word, Identifier.isPart c := by
  intro c inside
  cases word with
  | nil => cases inside
  | cons first rest =>
    simp only [Identifier.isWord, Bool.and_eq_true, List.all_eq_true] at h
    rcases List.mem_cons.1 inside with rfl | inside
    · have letter := h.1
      simp only [Identifier.isStart, Bool.or_eq_true] at letter
      rcases letter with letter | mark
      · simp [Identifier.isPart, Char.isAlphanum, letter]
      · simp [Identifier.isPart, mark]
    · exact h.2 c inside

theorem isPart_of_check {kind : Identifier.Kind} {name : List Char}
    (h : Identifier.check kind name = .ok ()) : ∀ c ∈ name, Identifier.isPart c ∨ c = '.' := by
  intro c member
  have whole : ['.'].intercalate (name.splitOn '.') = name := List.intercalate_splitOn '.'
  rw [← whole] at member
  rcases Text.mem_of_mem_intercalate member with mark | ⟨part, found, inside⟩
  · exact .inr (List.mem_singleton.1 mark)
  · exact .inl (isPart_of_isWord (isWord_of_check h part found) c inside)

theorem occurs_tail {part cs : List Char} {c : Char} (h : Text.occurs part (c :: cs) = false) :
    Text.occurs part cs = false := by
  rw [Text.occurs, Bool.or_eq_false_iff] at h
  exact h.2

theorem solid_of_not_occurs {cs : List Char} (plain : ∀ c ∈ cs, isPlain c)
    (h : ∀ part ∈ ["--", "/*", "*/"], Text.occurs part.toList cs = false) : solid none cs := by
  suffices all : ∀ previous : Option Char,
      (∀ part ∈ ["--", "/*", "*/"], Text.occurs part.toList (previous.toList ++ cs) = false) →
      solid previous cs from all none h
  clear h
  induction cs with
  | nil => exact fun _ _ => rfl
  | cons c cs ih =>
    intro previous h
    have apart : previous.any (commentPair · c) = false := by
      cases previous with
      | none => rfl
      | some before =>
        simp only [List.forall_mem_cons, Option.toList_some, List.singleton_append,
          Text.occurs] at h
        simp [List.isPrefixOf] at h
        simp [commentPair]
        grind
    have rest : solid (some c) cs := by
      apply ih (fun other member => plain other (List.mem_cons_of_mem _ member))
      intro part member
      have whole := h part member
      cases previous with
      | none => exact whole
      | some before => exact occurs_tail whole
    simp [solid, plain c List.mem_cons_self, apart, rest]

theorem not_occurs_of_first? {cs : List Char} (h : Forbidden.first? cs = none) :
    ∀ part ∈ ["--", "/*", "*/"], Text.occurs part.toList cs = false := by
  unfold Forbidden.first? at h
  rw [List.findSome?_eq_none_iff] at h
  intro part member
  have listed : (part, Forbidden.comment) ∈ Forbidden.sequences := by
    simp only [List.mem_cons, List.not_mem_nil, or_false] at member
    rcases member with rfl | rfl | rfl <;> decide
  simpa using h _ listed

theorem of_parse {mode : Mode} {source : String} {e : Expression}
    (h : parse mode source = .ok e) : ∃ lexemes, Lexeme.scan source.toList = .ok lexemes ∧
      Forbidden.first? source.toList = none ∧ balanced 0 lexemes ∧
      classify mode lexemes = .ok e.pieces := by
  unfold parse at h
  obtain ⟨_, h⟩ := Outcome.of_check h
  obtain ⟨_, h⟩ := Outcome.of_check h
  dsimp only at h
  split at h
  · cases h
  · next forbidden =>
    obtain ⟨lexemes, scanned, h⟩ := Outcome.exists_of_bind h
    obtain ⟨nested, h⟩ := Outcome.of_check h
    obtain ⟨pieces, classified, h⟩ := Outcome.exists_of_bind h
    cases h
    exact ⟨lexemes, Outcome.ok_of_mapError scanned, Option.eq_none_iff_forall_ne_some.2 forbidden,
      by simpa using nested, classified⟩

variable {dialect : Dialect} {owner : String}

def piecesText (dialect : Dialect) (owner : String) (pieces : List Piece) : List Char :=
  (String.join (pieces.map (Piece.sql dialect owner))).toList

theorem piecesText_cons (piece : Piece) (pieces : List Piece) :
    piecesText dialect owner (piece :: pieces) =
      (piece.sql dialect owner).toList ++ piecesText dialect owner pieces := by
  rw [piecesText, List.map_cons, String.join_cons, String.toList_append]
  rfl

theorem not_mem_qualify {name : List Char} (plain : '*' ∉ owner.toList)
    (checked : Identifier.check .column name = .ok ()) :
    '*' ∉ (Name.qualify owner (String.ofList name)).toList := by
  have bare : '*' ∉ name := by
    intro member
    have := isPart_of_check checked _ member
    revert this
    decide
  unfold Name.qualify
  split
  · rwa [String.toList_ofList]
  · simp [plain, bare]

theorem head?_piecesText_ne {lexemes : List Lexeme} {pieces : List Piece} {rest : List Char}
    (made : List.Forall₂ Matches lexemes pieces) (sound : ∀ lexeme ∈ lexemes, lexeme.Sound)
    (apart : ∀ lexeme ∈ lexemes.head?, lexeme.kind ≠ .word) (parted : Parted rest) :
    (piecesText dialect owner pieces ++ rest).head? ≠ some dialect.quoteMark := by
  cases made with
  | nil => exact head?_ne_of_parted dialect parted (.inr rfl)
  | @cons lexeme piece lexemes pieces first more =>
    have other : lexeme.kind ≠ .word := apart lexeme rfl
    rcases first with rfl | ⟨word, _⟩
    · have plain : ∃ c cs, lexeme.text = c :: cs ∧ isPlain c := by
        cases sound lexeme List.mem_cons_self with
        | opening => exact ⟨_, _, rfl, rfl⟩
        | closing => exact ⟨_, _, rfl, rfl⟩
        | word => exact absurd rfl other
        | @other kind text _ some chars =>
          cases text with
          | nil => exact absurd rfl some
          | cons c cs => exact ⟨c, cs, rfl, (chars c List.mem_cons_self).1⟩
      obtain ⟨c, cs, text, plain⟩ := plain
      rw [piecesText_cons, Piece.sql, text]
      intro mark
      have : c = dialect.quoteMark := by simpa using mark
      rw [not_isPlain_mark dialect (.inr this)] at plain
      cases plain
    · exact absurd word other

theorem nesting_lexeme {lexeme : Lexeme} (sound : lexeme.Sound) {depth : Nat}
    {rest : List Lexeme} (nested : balanced depth (lexeme :: rest)) :
    ∃ middle, nesting depth (lexeme.text.map plain) = some middle ∧ balanced middle rest := by
  cases sound with
  | opening => exact ⟨depth + 1, rfl, nested⟩
  | closing =>
    cases depth with
    | zero => cases nested
    | succ depth => exact ⟨depth, rfl, nested⟩
  | word start more =>
    refine ⟨depth, nesting_flat ?_ depth, nested⟩
    intro c member
    rcases List.mem_cons.1 member with rfl | member
    · exact (Lexeme.ordinary_of_isWordPart (Lexeme.isWordPart_of_isStart start)).2
    · exact (Lexeme.ordinary_of_isWordPart (more c member)).2
  | other kind held chars =>
    refine ⟨depth, nesting_flat (fun c member => (chars c member).2) depth, ?_⟩
    simp only [List.mem_cons, List.not_mem_nil, or_false] at kind
    rcases kind with rfl | rfl | rfl | rfl <;> exact nested

def Piece.tokens (owner : String) : Piece → List Token
  | .copied text => text.map plain
  | .column word => ofName (Name.qualify owner (String.ofList word))

/-- Piece after piece the text is cut as its lexemes are, and columns as names. -/
theorem lexFrom_pieces (plainOwner : '*' ∉ owner.toList) {lexemes : List Lexeme}
    {pieces : List Piece} (made : List.Forall₂ Matches lexemes pieces)
    (sound : ∀ lexeme ∈ lexemes, lexeme.Sound) (parts : lexemes.IsChain Lexeme.Parts)
    {previous : Option Char} (smooth : solid previous (lexemes.map Lexeme.text).flatten)
    {rest : List Char} (parted : Parted rest) :
    lexFrom dialect (.outside previous) (piecesText dialect owner pieces ++ rest) =
      (lex dialect rest).map (pieces.flatMap (Piece.tokens owner) ++ ·) := by
  induction made generalizing previous with
  | nil => simp [piecesText, lexFrom_outside parted]
  | @cons lexeme piece lexemes pieces first more ih =>
    obtain ⟨here, later⟩ := List.forall_mem_cons.1 sound
    obtain ⟨apart, chain⟩ := List.isChain_cons.1 parts
    rw [List.map_cons, List.flatten_cons, solid_append, Bool.and_eq_true] at smooth
    rw [piecesText_cons, List.append_assoc, List.flatMap_cons]
    rcases first with rfl | ⟨word, rfl, checked⟩
    · rw [Piece.sql, String.toList_ofList, lexFrom_solid smooth.1, ih later chain smooth.2,
        Option.map_map]
      simp [Function.comp_def, Piece.tokens]
    · -- A column stands between marks, so that the character before is forgotten behind it.
      have column := not_mem_qualify plainOwner checked
      have behind : ∀ next ∈ lexemes.head?, next.kind ≠ .word :=
        fun next head => apart next head word
      have inner := ih later chain (solid_none smooth.2)
      rw [Piece.sql, lexFrom_outside_of_apart, Spells.quote_of_not_mem column _
        (head?_piecesText_ne more later behind parted), lex, inner, Option.map_map]
      · simp [Function.comp_def, Piece.tokens]
      · intro c head
        rw [List.head?_append, Cut.head?_quote column] at head
        obtain rfl : dialect.quoteMark = c := by simpa using head
        cases dialect <;> cases previous <;> simp [commentPair, Dialect.quoteMark]

theorem nesting_pieces {lexemes : List Lexeme} {pieces : List Piece}
    (made : List.Forall₂ Matches lexemes pieces) (sound : ∀ lexeme ∈ lexemes, lexeme.Sound)
    {depth : Nat} (nested : balanced depth lexemes) :
    nesting depth (pieces.flatMap (Piece.tokens owner)) = some 0 := by
  induction made generalizing depth with
  | nil =>
    obtain rfl : depth = 0 := by simpa [balanced] using nested
    rfl
  | @cons lexeme piece lexemes pieces first more ih =>
    obtain ⟨here, later⟩ := List.forall_mem_cons.1 sound
    rw [List.flatMap_cons]
    rcases first with rfl | ⟨word, rfl, _⟩
    · obtain ⟨middle, opened, inner⟩ := nesting_lexeme here nested
      exact nesting_append opened (ih later inner)
    · have inner : balanced depth lexemes := by simpa [balanced, word] using nested
      exact nesting_append (nesting_ofName _ depth) (ih later inner)

theorem Piece.literal_not_mem_tokens {piece : Piece} {text : List Char} :
    .literal text ∉ piece.tokens owner := by
  cases piece with
  | copied => exact Cut.not_mem_map_plain
  | column => exact literal_not_mem_ofName

theorem solid_of_scan {cs : List Char} {lexemes : List Lexeme}
    (scanned : Lexeme.scan cs = .ok lexemes)
    (permitted : Forbidden.first? cs = none) : solid none cs := by
  obtain ⟨sound, _⟩ := Lexeme.sound_and_parts_of_scan scanned
  refine solid_of_not_occurs ?_ (not_occurs_of_first? permitted)
  intro c member
  rw [← Lexeme.flatten_scan scanned] at member
  obtain ⟨_, found, inside⟩ := List.mem_flatten.1 member
  obtain ⟨lexeme, held, rfl⟩ := List.mem_map.1 found
  exact (sound lexeme held).isPlain c inside

theorem spells_sql {mode : Mode} {source : String} {e : Expression}
    (h : parse mode source = .ok e) (plainOwner : '*' ∉ owner.toList) :
    Spells dialect Parted (e.sql dialect owner) (e.pieces.flatMap (Piece.tokens owner)) := by
  obtain ⟨lexemes, scanned, permitted, _, classified⟩ := of_parse h
  obtain ⟨sound, parts⟩ := Lexeme.sound_and_parts_of_scan scanned
  have smooth : solid none (lexemes.map Lexeme.text).flatten := by
    rw [Lexeme.flatten_scan scanned]
    exact solid_of_scan scanned permitted
  exact fun _ parted =>
    lexFrom_pieces plainOwner (matches_of_classify classified) sound parts smooth parted

theorem nesting_of_parse {mode : Mode} {source : String} {e : Expression}
    (h : parse mode source = .ok e) :
    nesting 0 (e.pieces.flatMap (Piece.tokens owner)) = some 0 := by
  obtain ⟨lexemes, scanned, _, nested, classified⟩ := of_parse h
  obtain ⟨sound, _⟩ := Lexeme.sound_and_parts_of_scan scanned
  exact nesting_pieces (matches_of_classify classified) sound nested

theorem reads_sql {allowed : List Char → Prop} {mode : Mode} {source : String} {e : Expression}
    (h : parse mode source = .ok e) (plainOwner : '*' ∉ owner.toList) :
    Reads dialect allowed 0 0 (e.sql dialect owner) := by
  refine ⟨_, spells_sql h plainOwner, nesting_of_parse h, fun text member => ?_⟩
  obtain ⟨piece, _, inside⟩ := List.mem_flatMap.1 member
  exact absurd inside Piece.literal_not_mem_tokens

end RelationQuery.Expression
