import RelationQuery.Proofs.Expression

/-! Which texts are let in as expressions, compared with others. Main statements: what columns may
be computed by may also be calculated, and is written the same; and an operand in parentheses is
refused just where the lexeme in front of it is a word and no approved function. -/
namespace RelationQuery

namespace Expression

variable {mode : Mode}

/-! ### The checks, one beside the other -/

structure Passes (mode : Mode) (source : String) (lexemes : List Lexeme) : Prop where
  held : Text.trim source.toList ≠ []
  fits : source.utf8ByteSize ≤ mode.maxLength
  permitted : Forbidden.first? source.toList = none
  scanned : Lexeme.scan source.toList = .ok lexemes
  nested : balanced 0 lexemes

theorem Passes.parse_eq {source : String} {lexemes : List Lexeme}
    (passes : Passes mode source lexemes) :
    parse mode source = (classify mode lexemes).map Expression.mk := by
  have held : ¬(Text.trim source.toList).isEmpty = true := by simpa using passes.held
  have nested : ¬(!balanced 0 lexemes) = true := by simpa using passes.nested
  unfold parse
  dsimp only
  rw [if_neg held, if_neg (Nat.not_lt.2 passes.fits), passes.permitted, passes.scanned]
  change (if (!balanced 0 lexemes) = true then _ else classify mode lexemes >>= _) = _
  rw [if_neg nested]
  cases classify mode lexemes <;> rfl

theorem passes_of_parse {source : String} {e : Expression} (h : parse mode source = .ok e) :
    ∃ lexemes, Passes mode source lexemes ∧ classify mode lexemes = .ok e.pieces := by
  obtain ⟨lexemes, scanned, permitted, nested, classified⟩ := of_parse h
  unfold parse at h
  obtain ⟨held, h⟩ := Outcome.of_check h
  obtain ⟨fits, _⟩ := Outcome.of_check h
  refine ⟨lexemes, ⟨?_, Nat.not_lt.1 fits, permitted, scanned, nested⟩, classified⟩
  intro blank
  exact held (by rw [blank]; rfl)

theorem validate_eq_ok_iff {source : String} :
    validate mode source = .ok () ↔ ∃ e, parse mode source = .ok e := by
  unfold validate
  cases parse mode source with
  | error fault => simp [Except.map]
  | ok e => simp [Except.map]

/-! ### One mode and the other -/

/-- Both modes agree on the word: it is not one that only calculations may call, and it is no
keyword of theirs alone. -/
def Shared (word : List Char) (called : Bool) : Prop :=
  if called then Text.isListed Mode.columnFunctions word = true
  else Text.isListed Mode.columnKeywords word = true ∨
    Text.isListed Mode.calculationKeywords word = false

def Modest (lexemes : List Lexeme) : Prop :=
  ∀ word rest, word :: rest <:+ lexemes → word.kind = .word → Shared word.text (isCalled rest)

theorem isListed_append (front back : List String) (word : List Char) :
    Text.isListed (front ++ back) word = (Text.isListed front word || Text.isListed back word) :=
  List.any_append

theorem classifyWord_column_iff {word : List Char} {called : Bool} {piece : Piece} :
    classifyWord .column word called = .ok piece ↔
      classifyWord .calculation word called = .ok piece ∧ Shared word called := by
  unfold classifyWord Shared
  simp only [Mode.functions, Mode.keywords, isListed_append]
  cases called with
  | true => by_cases function : Text.isListed Mode.columnFunctions word <;> simp [function]
  | false =>
    by_cases keyword : Text.isListed Mode.columnKeywords word
    · simp [keyword]
    · by_cases calculation : Text.isListed Mode.calculationKeywords word <;>
        simp [keyword, calculation]

theorem modest_cons_iff {lexeme : Lexeme} {rest : List Lexeme} :
    Modest (lexeme :: rest) ↔
      (lexeme.kind = .word → Shared lexeme.text (isCalled rest)) ∧ Modest rest := by
  constructor
  · intro modest
    refine ⟨modest lexeme rest List.suffix_rfl, ?_⟩
    exact fun word behind suffix => modest word behind (suffix.trans (List.suffix_cons _ _))
  · rintro ⟨here, later⟩ word behind suffix
    rcases List.suffix_cons_iff.1 suffix with whole | inner
    · obtain ⟨rfl, rfl⟩ := List.cons_eq_cons.1 whole
      exact here
    · exact later word behind inner

theorem classify_cons_eq_ok_iff {lexeme : Lexeme} {rest : List Lexeme} {pieces : List Piece} :
    classify mode (lexeme :: rest) = .ok pieces ↔
      ∃ piece more, pieces = piece :: more ∧ classify mode rest = .ok more ∧
        if lexeme.kind = .word then classifyWord mode lexeme.text (isCalled rest) = .ok piece
        else piece = .copied lexeme.text := by
  refine ⟨exists_of_classify, ?_⟩
  rintro ⟨piece, more, rfl, later, here⟩
  unfold classify
  by_cases word : lexeme.kind = .word
  · rw [if_pos word] at here
    rw [if_pos word, here, later]
    rfl
  · rw [if_neg word] at here
    rw [if_neg word, later, here]
    rfl

theorem classify_column_iff {lexemes : List Lexeme} {pieces : List Piece} :
    classify .column lexemes = .ok pieces ↔
      classify .calculation lexemes = .ok pieces ∧ Modest lexemes := by
  induction lexemes generalizing pieces with
  | nil =>
    have modest : Modest [] := fun _ _ suffix => by cases List.eq_nil_of_suffix_nil suffix
    simp [classify, modest]
  | cons lexeme rest ih =>
    simp only [classify_cons_eq_ok_iff, ih, modest_cons_iff]
    by_cases word : lexeme.kind = .word
    · simp only [word, if_true, classifyWord_column_iff]
      grind
    · simp only [word, if_false]
      grind

/-- A text that columns may be computed by may also be calculated, and for every dialect and owner
it is written the same. Conversely all such calculations of at most 200 bytes may stand for
columns, if the modes agree on their words. -/
theorem validate_column_iff (source : String) :
    validate .column source = .ok () ↔
      (validate .calculation source = .ok () ∧ ∀ dialect owner,
        qualify .calculation dialect owner source = qualify .column dialect owner source) ∧
      source.utf8ByteSize ≤ 200 ∧
      ∃ lexemes, Lexeme.scan source.toList = .ok lexemes ∧ Modest lexemes := by
  constructor
  · intro h
    obtain ⟨e, parsed⟩ := validate_eq_ok_iff.1 h
    obtain ⟨lexemes, passes, classified⟩ := passes_of_parse parsed
    obtain ⟨calculated, modest⟩ := classify_column_iff.1 classified
    have wider : Passes .calculation source lexemes :=
      { passes with fits := Nat.le_trans passes.fits (by decide) }
    have same : parse .calculation source = parse .column source := by
      rw [wider.parse_eq, passes.parse_eq, calculated, classified]
    refine ⟨⟨validate_eq_ok_iff.2 ⟨e, same.trans parsed⟩, ?_⟩, passes.fits, lexemes,
      passes.scanned, modest⟩
    intro dialect owner
    rw [qualify, qualify, same]
  · rintro ⟨⟨h, _⟩, fits, lexemes, scanned, modest⟩
    obtain ⟨e, parsed⟩ := validate_eq_ok_iff.1 h
    obtain ⟨others, passes, classified⟩ := passes_of_parse parsed
    obtain rfl : others = lexemes := Except.ok.inj (passes.scanned.symm.trans scanned)
    have narrower : Passes .column source others := { passes with fits }
    refine validate_eq_ok_iff.2 ⟨e, ?_⟩
    rw [narrower.parse_eq, classify_column_iff.2 ⟨classified, modest⟩]
    rfl

/-! ### Cutting behind a separator -/

namespace Lexeme

def Separates (c : Char) : Prop := isWordPart c = false ∧ c ≠ '=' ∧ c ≠ '>'

instance (c : Char) : Decidable (Separates c) := inferInstanceAs (Decidable (_ ∧ _))

variable {d : Char} {b : List Char}

theorem takeWhile_append_separator {p : Char → Bool} (stops : p d = false) (cs : List Char) :
    (cs ++ d :: b).takeWhile p = cs.takeWhile p ∧
      (cs ++ d :: b).dropWhile p = cs.dropWhile p ++ d :: b := by
  induction cs with
  | nil => simp [stops]
  | cons c cs ih => cases belongs : p c <;> simp [belongs, ih]

theorem Separates.number (h : Separates d) : isNumberPart d = false := by
  obtain ⟨other, _⟩ := h
  simp only [isWordPart, isNumberPart, Identifier.isPart, Char.isAlphanum, Bool.or_eq_false_iff]
    at other ⊢
  exact ⟨other.1.1.2, other.2⟩

theorem Separates.start (h : Separates d) : Identifier.isStart d = false := by
  cases start : Identifier.isStart d with
  | false => rfl
  | true => exact absurd (isWordPart_of_isStart start) (by rw [h.1]; decide)

theorem isNumber_append (h : Separates d) (literal rest : List Char) :
    isNumber literal (rest ++ d :: b) = isNumber literal rest := by
  cases rest with
  | nil => simp [isNumber, h.start]
  | cons => rfl

theorem cutNumber_append (h : Separates d) (c : Char) (cs : List Char) :
    cutNumber c (cs ++ d :: b) =
      (cutNumber c cs).map fun found => (found.1, found.2 ++ d :: b) := by
  obtain ⟨text, rest⟩ := takeWhile_append_separator (b := b) h.number cs
  unfold cutNumber
  rw [text, rest, isNumber_append h]
  split <;> rfl

theorem cutComparison_append (h : Separates d) (c : Char) (cs : List Char) :
    cutComparison c (cs ++ d :: b) =
      (cutComparison c cs).map fun found => (found.1, found.2 ++ d :: b) := by
  unfold cutComparison
  cases cs with
  | nil =>
    simp only [List.nil_append, List.head?_cons, Option.some.injEq, h.2.1, h.2.2, List.head?_nil,
      reduceCtorEq, and_false, or_false, if_false]
    split <;> rfl
  | cons next cs =>
    simp only [List.cons_append, List.head?_cons, Option.some.injEq]
    split
    · rfl
    · split <;> rfl

theorem cut_append (h : Separates d) (c : Char) (cs : List Char) :
    cut c (cs ++ d :: b) = (cut c cs).map fun found => (found.1, found.2 ++ d :: b) := by
  obtain ⟨text, rest⟩ := takeWhile_append_separator (b := b) h.1 cs
  unfold cut
  rw [text, rest, cutNumber_append h, cutComparison_append h]
  repeat' split
  all_goals rfl

theorem scan_cons (c : Char) (cs : List Char) :
    scan (c :: cs) = cut c cs >>= fun (lexeme, rest) => (scan rest).map (lexeme :: ·) := by
  rw [scan]
  split
  · next stopped => rw [stopped]; rfl
  · next found => rw [found]; rfl

/-- At a separator the scan of a text begins anew. -/
theorem scan_append (h : Separates d) (cs : List Char) :
    scan (cs ++ d :: b) = scan cs >>= fun front => (scan (d :: b)).map (front ++ ·) := by
  fun_induction scan cs with
  | case1 =>
    rw [List.nil_append]
    cases scan (d :: b) <;> rfl
  | case2 c cs fault stopped =>
    rw [List.cons_append, scan_cons, cut_append h, stopped]
    rfl
  | case3 c cs lexeme rest found ih =>
    rw [List.cons_append, scan_cons, cut_append h, found]
    change (scan (rest ++ d :: b)).map (lexeme :: ·) = _
    rw [ih]
    cases scan rest with
    | error => rfl
    | ok front => cases scan (d :: b) <;> rfl

end Lexeme

/-! ### What parentheses change -/

theorem prefix_append_separator_iff {part : List Char} {d : Char} (outside : d ∉ part)
    (a b : List Char) : part <+: a ++ d :: b ↔ part <+: a := by
  constructor
  · intro whole
    rcases List.prefix_or_prefix_of_prefix whole (List.prefix_append a (d :: b)) with inner | longer
    · exact inner
    · obtain ⟨more, rfl⟩ := longer
      rw [List.prefix_append_right_inj] at whole
      cases more with
      | nil => simp
      | cons c more =>
        obtain ⟨rfl, _⟩ := List.cons_prefix_cons.1 whole
        simp at outside
  · exact fun inner => inner.trans (List.prefix_append _ _)

theorem occurs_append {part : List Char} {d : Char} (outside : d ∉ part) (held : part ≠ [])
    (a b : List Char) :
    Text.occurs part (a ++ d :: b) = (Text.occurs part a || Text.occurs part b) := by
  have apart (cs : List Char) : part.isPrefixOf (cs ++ d :: b) = part.isPrefixOf cs := by
    rw [Bool.eq_iff_iff, List.isPrefixOf_iff_prefix, List.isPrefixOf_iff_prefix]
    exact prefix_append_separator_iff outside cs b
  have absent : Text.occurs part [] = false := by
    rw [Text.occurs, List.isEmpty_eq_false_iff]
    exact held
  induction a with
  | nil =>
    have here := apart []
    rw [List.nil_append] at here
    rw [absent, List.nil_append, Text.occurs, here, Bool.false_or]
    cases part with
    | nil => exact absurd rfl held
    | cons => rfl
  | cons c a ih =>
    have here := apart (c :: a)
    rw [List.cons_append] at here
    rw [List.cons_append, Text.occurs, here, ih, Text.occurs, Bool.or_assoc]

theorem first?_eq_none_iff {cs : List Char} : Forbidden.first? cs = none ↔
    ∀ entry ∈ Forbidden.sequences, Text.occurs entry.1.toList cs = false := by
  unfold Forbidden.first?
  simp only [List.findSome?_eq_none_iff, ite_eq_right_iff, reduceCtorEq, imp_false,
    Bool.not_eq_true]

theorem first?_append {d : Char} (mark : d ∈ [' ', '(', ')']) (a b : List Char) :
    Forbidden.first? (a ++ d :: b) = none ↔
      Forbidden.first? a = none ∧ Forbidden.first? b = none := by
  have sequence : ∀ entry ∈ Forbidden.sequences, d ∉ entry.1.toList ∧ entry.1.toList ≠ [] := by
    intro entry member
    have clear : ∀ entry ∈ Forbidden.sequences, entry.1.toList ≠ [] ∧
        [' ', '(', ')'].all (fun d => !entry.1.toList.contains d) = true := by
      decide +kernel
    obtain ⟨held, outside⟩ := clear entry member
    exact ⟨by simpa using List.all_eq_true.1 outside d mark, held⟩
  have parts : ∀ entry ∈ Forbidden.sequences,
      (Text.occurs entry.1.toList (a ++ d :: b) = false ↔
        Text.occurs entry.1.toList a = false ∧ Text.occurs entry.1.toList b = false) := by
    intro entry member
    obtain ⟨outside, held⟩ := sequence entry member
    rw [occurs_append outside held, Bool.or_eq_false_iff]
  rw [first?_eq_none_iff, first?_eq_none_iff, first?_eq_none_iff, forall₂_congr parts]
  exact forall₂_and

theorem balanced_append {front : List Lexeme} {inner : Nat} (h : balanced inner front)
    (depth : Nat) (back : List Lexeme) :
    balanced (depth + inner) (front ++ back) = balanced depth back := by
  induction front generalizing inner with
  | nil =>
    obtain rfl : inner = 0 := by simpa [balanced] using h
    rfl
  | cons lexeme front ih =>
    obtain ⟨kind, text⟩ := lexeme
    cases kind with
    | opening =>
      have inside : balanced (inner + 1) front := h
      exact ih inside
    | closing =>
      cases inner with
      | zero => cases h
      | succ inner =>
        have inside : balanced inner front := h
        exact ih inside
    | blank | word | number | operator | comma =>
      have inside : balanced inner front := h
      exact ih inside

theorem balanced_congr {back other : List Lexeme}
    (h : ∀ depth, balanced depth back = balanced depth other) (front : List Lexeme) (depth : Nat) :
    balanced depth (front ++ back) = balanced depth (front ++ other) := by
  induction front generalizing depth with
  | nil => exact h depth
  | cons lexeme front ih =>
    obtain ⟨kind, text⟩ := lexeme
    cases kind with
    | opening => exact ih (depth + 1)
    | closing =>
      cases depth with
      | zero => rfl
      | succ depth => exact ih depth
    | blank | word | number | operator | comma => exact ih depth

theorem isCalled_congr {back other : List Lexeme} (h : isCalled back = isCalled other)
    (front : List Lexeme) : isCalled (front ++ back) = isCalled (front ++ other) := by
  unfold isCalled at h ⊢
  rw [List.find?_append, List.find?_append]
  cases front.find? (·.kind != .blank) with
  | none => exact h
  | some => rfl

theorem exists_of_classify_append {front back : List Lexeme} {pieces : List Piece}
    (h : classify mode (front ++ back) = .ok pieces) :
    ∃ before, ∀ other, isCalled other = isCalled back →
      classify mode (front ++ other) = (classify mode other).map (before ++ ·) := by
  induction front generalizing pieces with
  | nil =>
    refine ⟨[], fun other _ => ?_⟩
    rw [List.nil_append]
    cases classify mode other <;> rfl
  | cons lexeme front ih =>
    rw [List.cons_append] at h
    obtain ⟨piece, more, rfl, later, here⟩ := exists_of_classify h
    obtain ⟨before, behind⟩ := ih later
    refine ⟨piece :: before, fun other same => ?_⟩
    rw [List.cons_append, classify, behind other same, isCalled_congr same front]
    by_cases word : lexeme.kind = .word
    · rw [if_pos word] at here
      rw [if_pos word, here]
      cases classify mode other <;> rfl
    · rw [if_neg word] at here
      rw [if_neg word, here]
      cases classify mode other <;> rfl

namespace Lexeme

theorem scan_gap (a b : List Char) : scan (a ++ ' ' :: b) =
    scan a >>= fun front => (scan b).map fun back => front ++ ⟨.blank, [' ']⟩ :: back := by
  have gap : scan (' ' :: b) = (scan b).map (⟨.blank, [' ']⟩ :: ·) := scan_cons ' ' b
  rw [scan_append (by decide), gap]
  cases scan b <;> rfl

theorem scan_enclosed {cs : List Char} {lexemes : List Lexeme} (h : scan cs = .ok lexemes) :
    scan ('(' :: (cs ++ [')'])) = .ok (⟨.opening, ['(']⟩ :: (lexemes ++ [⟨.closing, [')']⟩])) := by
  have last : scan [')'] = .ok [⟨.closing, [')']⟩] := by
    rw [scan_cons]
    change (scan []).map _ = _
    rw [scan]
    rfl
  have opening : scan ('(' :: (cs ++ [')'])) = (scan (cs ++ [')'])).map (⟨.opening, ['(']⟩ :: ·) :=
    scan_cons '(' (cs ++ [')'])
  rw [opening, scan_append (by decide), h, last]
  rfl

end Lexeme

theorem trim_ne_nil {cs : List Char} {c : Char} (member : c ∈ cs) (solid : Text.isBlank c = false) :
    Text.trim cs ≠ [] := by
  intro nothing
  rw [Text.trim, Text.trimEnd, List.reverse_eq_nil_iff, List.dropWhile_eq_nil_iff] at nothing
  rw [← List.takeWhile_append_dropWhile (p := Text.isBlank) (l := cs)] at member
  rcases List.mem_append.1 member with leading | inside
  · exact absurd (List.mem_takeWhile_imp leading) (by rw [solid]; decide)
  · exact absurd (nothing c (List.mem_reverse.2 inside)) (by rw [solid]; decide)

section Operand

variable {kind : Lexeme.Kind} {l w r : String} {front back : List Lexeme}

def framed (kind : Lexeme.Kind) (w : String) (operand : List Lexeme) : List Lexeme :=
  ⟨.blank, [' ']⟩ :: ⟨kind, w.toList⟩ :: ⟨.blank, [' ']⟩ :: operand

def enclosed (operand : List Lexeme) : List Lexeme :=
  ⟨.opening, ['(']⟩ :: (operand ++ [⟨.closing, [')']⟩])

theorem toList_operands (l w r : String) :
    (l ++ " " ++ w ++ " " ++ r).toList = l.toList ++ ' ' :: (w.toList ++ ' ' :: r.toList) := by
  simp [String.toList_append]

theorem toList_enclosed (l w r : String) : (l ++ " " ++ w ++ " (" ++ r ++ ")").toList =
    l.toList ++ ' ' :: (w.toList ++ ' ' :: '(' :: (r.toList ++ [')'])) := by
  simp [String.toList_append]

theorem exists_front_of_scan (between : Lexeme.scan w.toList = .ok [⟨kind, w.toList⟩])
    (operand : Lexeme.scan r.toList = .ok back) {lexemes : List Lexeme}
    (h : Lexeme.scan (l ++ " " ++ w ++ " " ++ r).toList = .ok lexemes) :
    ∃ front, Lexeme.scan l.toList = .ok front ∧ lexemes = front ++ framed kind w back := by
  rw [toList_operands, Lexeme.scan_gap] at h
  obtain ⟨front, scanned, h⟩ := Outcome.exists_of_bind h
  rw [Lexeme.scan_gap, between, operand] at h
  refine ⟨front, scanned, ?_⟩
  cases h
  rfl

theorem balanced_enclosed (nested : balanced 0 back) (front : List Lexeme) (depth : Nat) :
    balanced depth (front ++ framed kind w (enclosed back)) =
      balanced depth (front ++ framed kind w back) := by
  have operand (depth : Nat) : balanced depth (enclosed back) = balanced depth back := by
    have bare := balanced_append nested depth []
    have within := balanced_append nested (depth + 1) [⟨.closing, [')']⟩]
    rw [List.append_nil] at bare
    rw [Nat.add_zero] at bare within
    rw [enclosed, bare]
    exact within
  have around : front ++ framed kind w (enclosed back) =
      (front ++ framed kind w []) ++ enclosed back := by simp [framed]
  have plain : front ++ framed kind w back = (front ++ framed kind w []) ++ back := by
    simp [framed]
  rw [around, plain]
  exact balanced_congr operand _ depth

theorem passes_enclosed (between : Lexeme.scan w.toList = .ok [⟨kind, w.toList⟩])
    (inner : Passes mode r back) (scanned : Lexeme.scan l.toList = .ok front)
    (outer : Passes mode (l ++ " " ++ w ++ " " ++ r) (front ++ framed kind w back))
    (fits : (l ++ " " ++ w ++ " (" ++ r ++ ")").utf8ByteSize ≤ mode.maxLength) :
    Passes mode (l ++ " " ++ w ++ " (" ++ r ++ ")") (front ++ framed kind w (enclosed back)) where
  held := by
    have member : '(' ∈ (l ++ " " ++ w ++ " (" ++ r ++ ")").toList := by
      rw [toList_enclosed]
      simp
    exact trim_ne_nil member (by decide)
  fits := fits
  permitted := by
    have parts := outer.permitted
    rw [toList_operands, first?_append (by decide), first?_append (by decide)] at parts
    have closing : Forbidden.first? [] = none := by decide
    rw [toList_enclosed, first?_append (by decide)]
    refine ⟨parts.1, ?_⟩
    rw [first?_append (by decide)]
    refine ⟨parts.2.1, ?_⟩
    rw [← List.nil_append ('(' :: _), first?_append (by decide)]
    refine ⟨closing, ?_⟩
    rw [first?_append (by decide)]
    exact ⟨parts.2.2, closing⟩
  scanned := by
    rw [toList_enclosed, Lexeme.scan_gap, scanned, Outcome.ok_bind, Lexeme.scan_gap, between,
      Outcome.ok_bind, Lexeme.scan_enclosed inner.scanned]
    rfl
  nested := by
    rw [balanced_enclosed inner.nested]
    exact outer.nested

theorem classify_enclosed {pieces : List Piece} (h : classify mode back = .ok pieces) :
    ∃ others, classify mode (enclosed back) = .ok others := by
  rw [← List.append_nil back] at h
  obtain ⟨before, behind⟩ := exists_of_classify_append h
  have closed : classify mode (back ++ [⟨.closing, [')']⟩]) =
      .ok (before ++ [.copied [')']]) := behind [⟨.closing, [')']⟩] rfl
  refine ⟨.copied ['('] :: (before ++ [.copied [')']]), ?_⟩
  rw [enclosed, classify, closed]
  rfl

theorem classify_framed {operand : List Lexeme} {pieces : List Piece}
    (h : classify mode operand = .ok pieces) :
    classify mode (framed kind w operand) =
      (if kind = .word then classifyWord mode w.toList (isCalled operand)
        else .ok (.copied w.toList)).map fun piece =>
          .copied [' '] :: piece :: .copied [' '] :: pieces := by
  have called : isCalled (⟨.blank, [' ']⟩ :: operand) = isCalled operand := rfl
  unfold framed
  simp only [classify, h, called]
  by_cases word : kind = .word
  · simp only [word, if_true]
    cases classifyWord mode w.toList (isCalled operand) <;> rfl
  · simp only [word, if_false]
    rfl

theorem isCalled_framed (solid : kind ≠ .blank) (operand : List Lexeme) :
    isCalled (framed kind w operand) = (kind == .opening) := by
  have first : (framed kind w operand).find? (·.kind != .blank) = some ⟨kind, w.toList⟩ := by
    simp [framed, solid]
  rw [isCalled, first]
  rfl

theorem validate_eq (passes : Passes mode l front) :
    validate mode l = (classify mode front).map fun _ => () := by
  rw [validate, passes.parse_eq]
  cases classify mode front <;> rfl

/-- With the operand in parentheses all depends on the lexeme in front of them: a word is called
there, and any other lexeme stays what it is. -/
theorem validate_enclosed (solid : kind ≠ .blank)
    (between : Lexeme.scan w.toList = .ok [⟨kind, w.toList⟩])
    (operand : validate mode r = .ok ())
    (whole : validate mode (l ++ " " ++ w ++ " " ++ r) = .ok ())
    (fits : (l ++ " " ++ w ++ " (" ++ r ++ ")").utf8ByteSize ≤ mode.maxLength) :
    validate mode (l ++ " " ++ w ++ " (" ++ r ++ ")") =
      if kind = .word then (classifyWord mode w.toList true).map fun _ => () else .ok () := by
  obtain ⟨_, parsed⟩ := validate_eq_ok_iff.1 operand
  obtain ⟨back, inner, operandPieces⟩ := passes_of_parse parsed
  obtain ⟨_, parsed⟩ := validate_eq_ok_iff.1 whole
  obtain ⟨lexemes, outer, wholePieces⟩ := passes_of_parse parsed
  obtain ⟨front, scanned, rfl⟩ := exists_front_of_scan between inner.scanned outer.scanned
  obtain ⟨before, behind⟩ := exists_of_classify_append wholePieces
  obtain ⟨others, within⟩ := classify_enclosed operandPieces
  have called : isCalled (enclosed back) = true := rfl
  have alike : isCalled (framed kind w (enclosed back)) = isCalled (framed kind w back) := by
    rw [isCalled_framed solid, isCalled_framed solid]
  rw [validate_eq (passes_enclosed between inner scanned outer fits), behind _ alike,
    classify_framed within, called]
  by_cases word : kind = .word
  · rw [if_pos word, if_pos word]
    cases classifyWord mode w.toList true <;> rfl
  · rw [if_neg word, if_neg word]
    rfl

/-! ### Keywords -/

theorem isAlpha_of_toLower {c : Char} (h : c.toLower.isAlpha) : c.isAlpha := by
  by_cases upper : 'A'.val ≤ c.val ∧ c.val ≤ 'Z'.val
  · have capital : c.isUpper := decide_eq_true upper
    exact Bool.or_eq_true_iff.2 (.inl capital)
  · have same : c.toLower = c := dif_neg upper
    rwa [same] at h

theorem scan_of_letters {cs : List Char} (held : cs ≠ []) (letters : ∀ c ∈ cs, c.isAlpha) :
    Lexeme.scan cs = .ok [⟨.word, cs⟩] := by
  cases cs with
  | nil => exact absurd rfl held
  | cons c cs =>
    obtain ⟨first, more⟩ := List.forall_mem_cons.1 letters
    have start : Identifier.isStart c := by simp [Identifier.isStart, first]
    have gap : ¬Lexeme.isGap c := by
      simp only [Lexeme.isGap, Bool.or_eq_true, beq_iff_eq]
      rintro (((rfl | rfl) | rfl) | rfl) <;> cases first
    have part : ∀ d ∈ cs, Lexeme.isWordPart d := by
      intro d member
      simp [Lexeme.isWordPart, Identifier.isPart, Char.isAlphanum, more d member]
    rw [Lexeme.scan_cons, Lexeme.cut, if_neg gap, if_pos start, List.takeWhile_eq_self_iff.2 part,
      List.dropWhile_eq_nil_iff.2 part]
    change (Lexeme.scan []).map _ = _
    rw [Lexeme.scan]
    rfl

theorem of_isListed_keywords {word : List Char} (h : Text.isListed mode.keywords word) :
    Lexeme.scan word = .ok [⟨.word, word⟩] ∧ Text.isListed mode.functions word = false := by
  obtain ⟨keyword, listed, same⟩ := List.any_eq_true.1 h
  rw [Text.sameLetters_iff] at same
  have letters : ∀ keyword ∈ mode.keywords, keyword.toList ≠ [] ∧
      (keyword.toList.map Char.toLower).all Char.isAlpha = true := by
    cases mode <;> decide +kernel
  have apart : ∀ keyword ∈ mode.keywords, ∀ function ∈ mode.functions,
      function.toList.map Char.toLower ≠ keyword.toList.map Char.toLower := by
    cases mode <;> decide +kernel
  obtain ⟨held, alphabetic⟩ := letters keyword listed
  constructor
  · apply scan_of_letters
    · rintro rfl
      exact held (List.map_eq_nil_iff.1 same)
    · intro c member
      apply isAlpha_of_toLower
      apply List.all_eq_true.1 alphabetic
      rw [same]
      exact List.mem_map_of_mem member
  · rw [Bool.eq_false_iff]
    intro approved
    obtain ⟨function, found, alike⟩ := List.any_eq_true.1 approved
    rw [Text.sameLetters_iff, ← same] at alike
    exact apart keyword listed function found alike

/-- Let an operand be let in, and behind a lexeme, too. In parentheses behind that lexeme it is
let in if the lexeme is no word or an approved function, and refused behind every other word: so
behind every keyword, which is taken for the name of a function. -/
theorem validate_parenthesized
    (operand : validate mode r = .ok ())
    (whole : validate mode (l ++ " " ++ w ++ " " ++ r) = .ok ())
    (fits : (l ++ " " ++ w ++ " (" ++ r ++ ")").utf8ByteSize ≤ mode.maxLength) :
    (Text.isListed mode.keywords w.toList →
      validate mode (l ++ " " ++ w ++ " (" ++ r ++ ")") = .error (.function w.toList)) ∧
    ∀ kind, kind ≠ .blank → Lexeme.scan w.toList = .ok [⟨kind, w.toList⟩] →
      (validate mode (l ++ " " ++ w ++ " (" ++ r ++ ")") = .ok () ↔
        (kind = .word → Text.isListed mode.functions w.toList)) := by
  constructor
  · intro keyword
    obtain ⟨between, other⟩ := of_isListed_keywords keyword
    rw [validate_enclosed (by decide) between operand whole fits, if_pos rfl, classifyWord,
      if_pos rfl, if_neg (by rw [other]; decide)]
    rfl
  · intro kind solid between
    rw [validate_enclosed solid between operand whole fits, classifyWord, if_pos rfl]
    by_cases word : kind = .word
    · by_cases approved : Text.isListed mode.functions w.toList
      · simp [word, approved, Except.map]
      · simp [word, approved, Except.map]
    · simp [word]

end Operand

/-- `b OR c` may stand alone and behind `AND`, but not in parentheses behind it. -/
theorem conjunction_not_validate_parenthesized :
    Text.isListed Mode.column.keywords "AND".toList ∧
      validate .column "b OR c" = .ok () ∧
      validate .column ("a" ++ " " ++ "AND" ++ " " ++ "b OR c") = .ok () ∧
      ("a" ++ " " ++ "AND" ++ " (" ++ "b OR c" ++ ")").utf8ByteSize ≤ Mode.column.maxLength ∧
      validate .column ("a" ++ " " ++ "AND" ++ " (" ++ "b OR c" ++ ")") ≠ .ok () := by
  decide +kernel

theorem operands_validate_parenthesized :
    validate .column "b OR c" = .ok () ∧
      validate .column ("a" ++ " " ++ "and" ++ " " ++ "b OR c") = .ok () ∧
      ("a" ++ " " ++ "and" ++ " (" ++ "b OR c" ++ ")").utf8ByteSize ≤ Mode.column.maxLength ∧
      validate .column ("a" ++ " " ++ "and" ++ " (" ++ "b OR c" ++ ")") =
        .error (.function "and".toList) ∧
      validate .column ("a" ++ " " ++ ">=" ++ " " ++ "b OR c") = .ok () ∧
      ("a" ++ " " ++ ">=" ++ " (" ++ "b OR c" ++ ")").utf8ByteSize ≤ Mode.column.maxLength ∧
      validate .column ("a" ++ " " ++ ">=" ++ " (" ++ "b OR c" ++ ")") = .ok () := by
  have operand : validate .column "b OR c" = .ok () := by decide +kernel
  have conjunction : validate .column ("a" ++ " " ++ "and" ++ " " ++ "b OR c") = .ok () := by
    decide +kernel
  have comparison : validate .column ("a" ++ " " ++ ">=" ++ " " ++ "b OR c") = .ok () := by
    decide +kernel
  have short : ("a" ++ " " ++ "and" ++ " (" ++ "b OR c" ++ ")").utf8ByteSize ≤
      Mode.column.maxLength := by decide +kernel
  have shorter : ("a" ++ " " ++ ">=" ++ " (" ++ "b OR c" ++ ")").utf8ByteSize ≤
      Mode.column.maxLength := by decide +kernel
  have refused := (validate_parenthesized operand conjunction short).1 (by decide)
  have admitted := ((validate_parenthesized operand comparison shorter).2 .operator (by decide)
    (by decide +kernel)).2 nofun
  exact ⟨operand, conjunction, short, refused, comparison, shorter, admitted⟩

end Expression

end RelationQuery
