import Mathlib.Data.List.Forall2
import Mathlib.Data.List.TakeWhile
import RelationQuery.Operator

/-! Keys of conditions, and how their operators are spelt. Main statement: a key is parted into its
column and its operator as it was written, whichever spelling and blanks were chosen, and no other
key is parted at all. -/
namespace RelationQuery

namespace Text

def Blank (cs : List Char) : Prop := ∀ c ∈ cs, isBlank c

instance (cs : List Char) : Decidable (Blank cs) := List.decidableBAll _ cs

structure Solid (cs : List Char) : Prop where
  first : ∀ c ∈ cs.head?, isBlank c = false
  last : ∀ c ∈ cs.getLast?, isBlank c = false

def Cased (word : String) (cs : List Char) : Prop :=
  List.Forall₂ (fun letter c => c = letter ∨ c = letter.toLower) word.toList cs

instance (word : String) (cs : List Char) : Decidable (Cased word cs) :=
  inferInstanceAs (Decidable (List.Forall₂ _ _ _))

/-! ### Letters of either case -/

theorem val_toLower {c : Char} (capital : 'A'.val ≤ c.val ∧ c.val ≤ 'Z'.val) :
    c.toLower.val = c.val + 32 :=
  congrArg Char.val (dif_pos capital)

theorem toLower_toLower (c : Char) : c.toLower.toLower = c.toLower := by
  by_cases capital : 'A'.val ≤ c.val ∧ c.val ≤ 'Z'.val
  · refine dif_neg fun again => ?_
    rw [val_toLower capital] at again
    simp only [UInt32.le_iff_toNat_le, UInt32.toNat_add] at capital again
    have bounds : 'A'.val.toNat = 65 ∧ 'Z'.val.toNat = 90 ∧ (32 : UInt32).toNat = 32 := by decide
    omega
  · have same : c.toLower = c := dif_neg capital
    rw [same, same]

theorem toLower_eq_toLower_iff {letter : Char} (capital : letter.isUpper) {c : Char} :
    c.toLower = letter.toLower ↔ c = letter ∨ c = letter.toLower := by
  constructor
  · intro same
    by_cases upper : 'A'.val ≤ c.val ∧ c.val ≤ 'Z'.val
    · have letters : 'A'.val ≤ letter.val ∧ letter.val ≤ 'Z'.val := of_decide_eq_true capital
      have values : c.val + 32 = letter.val + 32 := by
        rw [← val_toLower upper, ← val_toLower letters, same]
      exact .inl (Char.ext ((UInt32.add_left_inj 32).1 values))
    · have other : c.toLower = c := dif_neg upper
      exact .inr (other.symm.trans same)
  · rintro (rfl | rfl)
    · rfl
    · exact toLower_toLower letter

theorem sameLetters_iff_cased {word : String} (capitals : ∀ c ∈ word.toList, c.isUpper)
    {cs : List Char} : sameLetters cs word.toList ↔ Cased word cs := by
  rw [sameLetters_iff, Cased]
  generalize word.toList = letters at capitals
  induction letters generalizing cs with
  | nil => simp
  | cons letter letters ih =>
    obtain ⟨capital, more⟩ := List.forall_mem_cons.1 capitals
    cases cs with
    | nil => simp
    | cons c cs => simp [toLower_eq_toLower_iff capital, ih more]

theorem Cased.forall_mem {word : String} {text : List Char} (cased : Cased word text)
    {p : Char → Prop} (h : ∀ letter ∈ word.toList, p letter ∧ p letter.toLower) :
    ∀ c ∈ text, p c := by
  unfold Cased at cased
  generalize word.toList = letters at cased h
  induction cased with
  | nil => exact fun _ => nofun
  | @cons letter c letters text same _ ih =>
    obtain ⟨⟨capital, small⟩, more⟩ := List.forall_mem_cons.1 h
    refine List.forall_mem_cons.2 ⟨?_, ih more⟩
    rcases same with rfl | rfl
    · exact capital
    · exact small

/-! ### Blanks around a text -/

theorem not_of_head?_dropWhile {p : Char → Bool} {cs : List Char} {c : Char}
    (h : (cs.dropWhile p).head? = some c) : p c = false := by
  have stops := List.head?_dropWhile_not p cs
  rwa [h] at stops

variable {cs : List Char}

theorem trim_between {lead trail : List Char} (before : Blank lead) (solid : Solid cs)
    (behind : Blank trail) : trim (lead ++ cs ++ trail) = cs := by
  have leading : trimStart (lead ++ cs ++ trail) = trimStart (cs ++ trail) := by
    rw [List.append_assoc]
    exact List.dropWhile_append_of_pos before
  rw [trim, leading]
  cases cs with
  | nil =>
    have nothing : trimStart ([] ++ trail) = [] := List.dropWhile_eq_nil_iff.2 behind
    rw [nothing]
    rfl
  | cons c cs =>
    have begins : trimStart (c :: cs ++ trail) = c :: cs ++ trail :=
      List.dropWhile_cons_of_neg (by simp [solid.first c rfl])
    have trailing : ∀ c ∈ trail.reverse, isBlank c := fun c member =>
      behind c (List.mem_reverse.1 member)
    have ends : (c :: cs).reverse.dropWhile isBlank = (c :: cs).reverse := by
      obtain ⟨last, others, reversed⟩ := List.exists_cons_of_ne_nil
        (List.reverse_ne_nil_iff.2 (List.cons_ne_nil c cs))
      have final : (c :: cs).getLast? = some last := by
        rw [List.getLast?_eq_head?_reverse, reversed]
        rfl
      rw [reversed]
      exact List.dropWhile_cons_of_neg (by simp [solid.last last final])
    rw [begins, trimEnd, List.reverse_append, List.dropWhile_append_of_pos trailing, ends,
      List.reverse_reverse]

theorem trim_of_solid (solid : Solid cs) : trim cs = cs := by
  simpa using @trim_between cs [] [] nofun solid nofun

theorem trimEnd_prefix (cs : List Char) : trimEnd cs <+: cs := by
  rw [← List.reverse_suffix, trimEnd, List.reverse_reverse]
  exact List.dropWhile_suffix _

theorem solid_trim (cs : List Char) : Solid (trim cs) where
  first := by
    intro c first
    obtain ⟨more, whole⟩ := trimEnd_prefix (trimStart cs)
    have begins : (cs.dropWhile isBlank).head? = (trimStart cs).head? := rfl
    apply not_of_head?_dropWhile
    rw [begins, ← whole, List.head?_append, show (trimEnd (trimStart cs)).head? = some c from first]
    rfl
  last := by
    intro c last
    rw [trim, trimEnd, List.getLast?_reverse] at last
    exact not_of_head?_dropWhile last

theorem Solid.eq_nil {front back : List Char} (solid : Solid (front ++ back))
    (blank : Blank back) : back = [] := by
  rcases List.eq_nil_or_concat back with rfl | ⟨others, c, rfl⟩
  · rfl
  · have final := solid.last c (by simp)
    rw [blank c (by simp)] at final
    cases final

theorem Solid.exists_gap {front back : List Char} (solid : Solid (front ++ back)) :
    ∃ gap rest, back = gap ++ rest ∧ Blank gap ∧ Solid rest := by
  refine ⟨back.takeWhile isBlank, back.dropWhile isBlank,
    List.takeWhile_append_dropWhile.symm, fun _ member => List.mem_takeWhile_imp member, ?_, ?_⟩
  · exact fun c first => not_of_head?_dropWhile first
  · intro c last
    obtain ⟨before, whole⟩ := List.dropWhile_suffix (l := back) isBlank
    apply solid.last c
    rw [← whole, List.getLast?_append, List.getLast?_append, last]
    rfl

/-! ### Words and the blanks between them -/

theorem words_append_blank {c : Char} (blank : isBlank c) (front back : List Char) :
    words (front ++ c :: back) = words front ++ words back := by
  unfold words
  rw [List.splitOnP_append_cons front back blank, List.filter_append]

theorem words_blank_append {gap : List Char} (blank : Blank gap) (cs : List Char) :
    words (gap ++ cs) = words cs := by
  induction gap with
  | nil => rfl
  | cons c gap ih =>
    obtain ⟨here, more⟩ := List.forall_mem_cons.1 blank
    rw [List.cons_append, ← ih more]
    exact words_append_blank here [] (gap ++ cs)

theorem words_singleton {word : List Char} (held : word ≠ [])
    (within : ∀ c ∈ word, isBlank c = false) : words word = [word] := by
  rw [words, List.splitOnP_eq_singleton within]
  exact List.filter_cons_of_pos (by simpa using held)

theorem words_append {word gap : List Char} (held : word ≠ [])
    (within : ∀ c ∈ word, isBlank c = false) (apart : gap ≠ []) (blank : Blank gap)
    (cs : List Char) : words (word ++ gap ++ cs) = word :: words cs := by
  obtain ⟨c, gap, rfl⟩ := List.exists_cons_of_ne_nil apart
  obtain ⟨here, more⟩ := List.forall_mem_cons.1 blank
  rw [List.append_assoc, List.cons_append, words_append_blank here, words_singleton held within,
    words_blank_append more]
  rfl

theorem Solid.exists_front (solid : Solid cs) (filled : cs ≠ []) :
    ∃ front, front ≠ [] ∧ (∀ c ∈ front, isBlank c = false) ∧
      (cs = front ∨ ∃ gap rest, cs = front ++ gap ++ rest ∧ gap ≠ [] ∧ Blank gap ∧ Solid rest ∧
        rest ≠ []) := by
  let front := cs.takeWhile (!isBlank ·)
  have within : ∀ c ∈ front, isBlank c = false := fun c member => by
    simpa using List.mem_takeWhile_imp member
  have held : front ≠ [] := by
    obtain ⟨c, others, rfl⟩ := List.exists_cons_of_ne_nil filled
    simp [front, solid.first c rfl]
  have whole : front ++ cs.dropWhile (!isBlank ·) = cs := List.takeWhile_append_dropWhile
  refine ⟨front, held, within, ?_⟩
  cases back : cs.dropWhile (!isBlank ·) with
  | nil =>
    rw [back, List.append_nil] at whole
    exact .inl whole.symm
  | cons c more =>
    right
    have first : (cs.dropWhile (!isBlank ·)).head? = Option.some c := by rw [back]; rfl
    have stops : (!isBlank c) = false := not_of_head?_dropWhile first
    rw [← whole] at solid
    obtain ⟨gap, rest, parted, blank, inner⟩ := solid.exists_gap
    rw [parted, ← List.append_assoc] at whole
    refine ⟨gap, rest, whole.symm, ?_, blank, inner, ?_⟩
    · rintro rfl
      rw [back, List.nil_append] at parted
      subst parted
      simp [inner.first c rfl] at stops
    · rintro rfl
      rw [parted, List.append_nil] at solid
      obtain rfl := solid.eq_nil blank
      rw [back] at parted
      cases parted

theorem Solid.words_ne_nil (solid : Solid cs) (filled : cs ≠ []) : words cs ≠ [] := by
  obtain ⟨front, held, within, rfl | ⟨gap, rest, rfl, apart, blank, _⟩⟩ := solid.exists_front filled
  · rw [words_singleton held within]
    exact List.cons_ne_nil _ _
  · rw [words_append held within apart blank]
    exact List.cons_ne_nil _ _

theorem eq_of_words_singleton {word : List Char} (solid : Solid cs) (h : words cs = [word]) :
    cs = word := by
  have filled : cs ≠ [] := by
    rintro rfl
    cases h
  obtain ⟨front, held, within, rfl | ⟨gap, rest, rfl, apart, blank, inner, more⟩⟩ :=
    solid.exists_front filled
  · rw [words_singleton held within] at h
    exact List.head_eq_of_cons_eq h
  · rw [words_append held within apart blank] at h
    exact absurd (List.tail_eq_of_cons_eq h) (inner.words_ne_nil more)

theorem exists_of_words_pair {first second : List Char} (solid : Solid cs)
    (h : words cs = [first, second]) :
    ∃ gap, cs = first ++ gap ++ second ∧ gap ≠ [] ∧ Blank gap := by
  have filled : cs ≠ [] := by
    rintro rfl
    cases h
  obtain ⟨front, held, within, rfl | ⟨gap, rest, rfl, apart, blank, inner, _⟩⟩ :=
    solid.exists_front filled
  · rw [words_singleton held within] at h
    cases h
  · rw [words_append held within apart blank] at h
    obtain ⟨rfl, later⟩ := List.cons_eq_cons.1 h
    obtain rfl := eq_of_words_singleton inner later
    exact ⟨gap, rfl, apart, blank⟩

end Text

namespace Comparison

def symbols : Comparison → List String
  | .equal => ["="]
  | .notEqual => ["!=", "<>"]
  | .less => ["<"]
  | .lessOrEqual => ["<="]
  | .greater => [">"]
  | .greaterOrEqual => [">="]

theorem ofSymbol?_eq_some_iff {cs : List Char} {comparison : Comparison} :
    ofSymbol? cs = some comparison ↔ ∃ symbol ∈ comparison.symbols, symbol.toList = cs := by
  constructor
  · intro h
    unfold ofSymbol? at h
    split at h <;> cases h <;> simp [symbols]
  · rintro ⟨symbol, member, rfl⟩
    cases comparison <;> simp only [symbols, List.mem_cons, List.not_mem_nil, or_false] at member
    case notEqual => rcases member with rfl | rfl <;> rfl
    all_goals
      subst member
      rfl

end Comparison

namespace Operator

open Text

def wording : Operator → List String
  | .compare _ => []
  | .like => ["LIKE"]
  | .notLike => ["NOT", "LIKE"]
  | .is => ["IS"]
  | .isNot => ["IS", "NOT"]

/-- The texts that stand for an operator. -/
inductive Spelled : Operator → List Char → Prop
  | symbol {comparison : Comparison} {symbol : String} (h : symbol ∈ comparison.symbols) :
    Spelled (.compare comparison) symbol.toList
  | word {operator : Operator} {word : String} {text : List Char} (h : operator.wording = [word])
    (cased : Cased word text) : Spelled operator text
  | words {operator : Operator} {first second : String} {front gap back : List Char}
    (h : operator.wording = [first, second]) (cased : Cased first front) (apart : gap ≠ [])
    (blank : Blank gap) (next : Cased second back) : Spelled operator (front ++ gap ++ back)

/-- A column may stand by itself, which means equality, or an operator follows it; one in words
stands behind blanks. -/
inductive Keyed (column : List Char) : Operator → List Char → Prop
  | alone : Keyed column (.compare .equal) column
  | behind {operator : Operator} {gap text : List Char} (blank : Blank gap)
    (apart : operator.wording ≠ [] → gap ≠ []) (spelled : Spelled operator text) :
    Keyed column operator (column ++ gap ++ text)

/-! ### Spellings are read -/

theorem letters_of_mem_wording {operator : Operator} {word : String}
    (h : word ∈ operator.wording) :
    word.toList ≠ [] ∧ (∀ letter ∈ word.toList, letter.isUpper) ∧
      ∀ letter ∈ word.toList, endsColumn letter = false ∧ endsColumn letter.toLower = false := by
  have all : operator.wording.all fun word => !word.toList.isEmpty && word.toList.all fun letter =>
      letter.isUpper && !endsColumn letter && !endsColumn letter.toLower := by
    cases operator with
    | compare => rfl
    | like | notLike | is | isNot => decide
  have here := List.all_eq_true.1 all word h
  simp only [Bool.and_eq_true, Bool.not_eq_true', List.all_eq_true] at here
  exact ⟨by simpa using here.1, fun letter member => (here.2 letter member).1.1,
    fun letter member => ⟨(here.2 letter member).1.2, (here.2 letter member).2⟩⟩

theorem plain_of_cased {operator : Operator} {word : String} (h : word ∈ operator.wording)
    {text : List Char} (cased : Cased word text) :
    text ≠ [] ∧ ∀ c ∈ text, endsColumn c = false := by
  obtain ⟨held, _, plain⟩ := letters_of_mem_wording h
  refine ⟨?_, cased.forall_mem plain⟩
  rintro rfl
  exact held (List.forall₂_nil_right_iff.1 cased)

theorem marks_of_mem_symbols {comparison : Comparison} {symbol : String}
    (h : symbol ∈ comparison.symbols) :
    symbol.toList ≠ [] ∧ ∀ c ∈ symbol.toList, endsColumn c ∧ isBlank c = false := by
  have all : comparison.symbols.all fun symbol => !symbol.toList.isEmpty &&
      symbol.toList.all fun c => endsColumn c && !isBlank c := by
    cases comparison <;> decide
  have here := List.all_eq_true.1 all symbol h
  simp only [Bool.and_eq_true, Bool.not_eq_true', List.all_eq_true] at here
  exact ⟨by simpa using here.1, here.2⟩

theorem isBlank_of_not_endsColumn {c : Char} (h : endsColumn c = false) : isBlank c = false := by
  simp only [endsColumn, Bool.or_eq_false_iff] at h
  exact h.1.1.1.1

theorem solid_of_unblank {cs : List Char} (h : ∀ c ∈ cs, isBlank c = false) : Solid cs :=
  ⟨fun c first => h c (List.mem_of_head? first), fun c last => h c (List.mem_of_getLast? last)⟩

theorem Spelled.begins {operator : Operator} {text : List Char} (h : Spelled operator text) :
    ∃ c, text.head? = some c ∧ (endsColumn c ↔ operator.wording = []) := by
  have begins {cs : List Char} (held : cs ≠ []) : ∃ c, cs.head? = some c ∧ c ∈ cs := by
    obtain ⟨c, rest, rfl⟩ := List.exists_cons_of_ne_nil held
    exact ⟨c, rfl, List.mem_cons_self⟩
  cases h with
  | symbol member =>
    obtain ⟨held, marks⟩ := marks_of_mem_symbols member
    obtain ⟨c, here, found⟩ := begins held
    exact ⟨c, here, by simp [marks c found, wording]⟩
  | @word _ word _ single cased =>
    have member : word ∈ operator.wording := by simp [single]
    obtain ⟨held, plain⟩ := plain_of_cased member cased
    obtain ⟨c, here, found⟩ := begins held
    exact ⟨c, here, by simp [plain c found, single]⟩
  | @words _ first _ _ _ _ pair cased =>
    have member : first ∈ operator.wording := by simp [pair]
    obtain ⟨held, plain⟩ := plain_of_cased member cased
    obtain ⟨c, here, found⟩ := begins held
    refine ⟨c, ?_, by simp [plain c found, pair]⟩
    rw [List.append_assoc, List.head?_append, here]
    rfl

theorem Spelled.solid {operator : Operator} {text : List Char} (h : Spelled operator text) :
    Solid text := by
  cases h with
  | symbol member =>
    exact solid_of_unblank fun c found => ((marks_of_mem_symbols member).2 c found).2
  | @word _ word _ single cased =>
    have member : word ∈ operator.wording := by simp [single]
    have plain := (plain_of_cased member cased).2
    exact solid_of_unblank fun c found => isBlank_of_not_endsColumn (plain c found)
  | @words _ first second front gap back pair cased apart blank next =>
    have members : first ∈ operator.wording ∧ second ∈ operator.wording := by simp [pair]
    obtain ⟨held, plain⟩ := plain_of_cased members.1 cased
    obtain ⟨more, later⟩ := plain_of_cased members.2 next
    obtain ⟨c, rest, rfl⟩ := List.exists_cons_of_ne_nil held
    refine ⟨?_, fun d last => ?_⟩
    · rintro _ ⟨⟩
      exact isBlank_of_not_endsColumn (plain c List.mem_cons_self)
    · rw [List.getLast?_append_of_ne_nil _ more] at last
      exact isBlank_of_not_endsColumn (later d (List.mem_of_getLast? last))

theorem ofWords?_eq_some_iff {texts : List (List Char)} {operator : Operator} :
    ofWords? texts = some operator ↔
      operator.wording ≠ [] ∧ List.Forall₂ Cased operator.wording texts := by
  have same (operator : Operator) {word : String} (h : word ∈ operator.wording)
      (text : List Char) : sameLetters text word.toList ↔ Cased word text :=
    sameLetters_iff_cased (letters_of_mem_wording h).2.1
  have like := same .like List.mem_cons_self
  have is := same .is List.mem_cons_self
  have not := same .notLike List.mem_cons_self
  have apart {first second : String} (lengths : first.toList.length ≠ second.toList.length)
      {text : List Char} (one : Cased first text) : ¬Cased second text :=
    fun other => lengths (one.length_eq.trans other.length_eq.symm)
  match texts with
  | [] => cases operator <;> simp [ofWords?, wording]
  | [text] =>
    have other (one : Cased "IS" text) : ¬Cased "LIKE" text := apart (by decide) one
    simp only [ofWords?, like, is]
    cases operator <;> simp [wording] <;> grind
  | [front, back] =>
    have other (one : Cased "IS" front) : ¬Cased "NOT" front := apart (by decide) one
    simp only [ofWords?, like, is, not]
    cases operator <;> simp [wording] <;> grind
  | _ :: _ :: _ :: _ => cases operator <;> simp [ofWords?, wording]

theorem parse?_eq_some_iff {cs : List Char} (solid : Solid cs) {operator : Operator} :
    parse? cs = some operator ↔ Spelled operator cs := by
  rw [parse?, Comparison.parse?, trim_of_solid solid]
  cases marks : Comparison.ofSymbol? cs with
  | some comparison =>
    obtain ⟨symbol, member, same⟩ := Comparison.ofSymbol?_eq_some_iff.1 marks
    have spelled : Spelled (.compare comparison) cs := same ▸ .symbol member
    constructor
    · rintro ⟨⟩
      exact spelled
    · intro other
      obtain ⟨c, first, ends⟩ := spelled.begins
      obtain ⟨d, head, alike⟩ := other.begins
      obtain rfl := Option.some.inj (first.symm.trans head)
      have wordless : operator.wording = [] := alike.1 (ends.2 rfl)
      cases other with
      | symbol found =>
        have read := Comparison.ofSymbol?_eq_some_iff.2 ⟨_, found, rfl⟩
        rw [← marks, read]
        rfl
      | word single => simp [single] at wordless
      | words pair => simp [pair] at wordless
  | none =>
    change ofWords? (words cs) = some operator ↔ _
    rw [ofWords?_eq_some_iff]
    constructor
    · rintro ⟨held, cased⟩
      have one {word : String} (single : operator.wording = [word]) : Spelled operator cs := by
        rw [single, List.forall₂_cons_left_iff] at cased
        obtain ⟨text, _, here, nothing, texts⟩ := cased
        rw [List.forall₂_nil_left_iff.1 nothing] at texts
        rw [eq_of_words_singleton solid texts]
        exact .word single here
      have two {first second : String} (pair : operator.wording = [first, second]) :
          Spelled operator cs := by
        rw [pair, List.forall₂_cons_left_iff] at cased
        obtain ⟨front, _, here, later, texts⟩ := cased
        rw [List.forall₂_cons_left_iff] at later
        obtain ⟨back, _, next, nothing, rfl⟩ := later
        rw [List.forall₂_nil_left_iff.1 nothing] at texts
        obtain ⟨gap, rfl, apart, blank⟩ := exists_of_words_pair solid texts
        exact .words pair here apart blank next
      cases operator with
      | compare => exact absurd rfl held
      | like | is => exact one rfl
      | notLike | isNot => exact two rfl
    · intro spelled
      cases spelled with
      | symbol member =>
        rw [Comparison.ofSymbol?_eq_some_iff.2 ⟨_, member, rfl⟩] at marks
        cases marks
      | @word _ word _ single cased =>
        have member : word ∈ operator.wording := by simp [single]
        obtain ⟨held, plain⟩ := plain_of_cased member cased
        rw [words_singleton held fun c found => isBlank_of_not_endsColumn (plain c found), single]
        exact ⟨List.cons_ne_nil _ _, .cons cased .nil⟩
      | @words _ first second front gap back pair cased apart blank next =>
        have members : first ∈ operator.wording ∧ second ∈ operator.wording := by simp [pair]
        obtain ⟨held, plain⟩ := plain_of_cased members.1 cased
        obtain ⟨more, later⟩ := plain_of_cased members.2 next
        rw [words_append held (fun c found => isBlank_of_not_endsColumn (plain c found)) apart
          blank, words_singleton more fun c found => isBlank_of_not_endsColumn (later c found),
          pair]
        exact ⟨List.cons_ne_nil _ _, .cons cased (.cons next .nil)⟩

/-! ### Keys are parted -/

def IsColumn (cs : List Char) : Prop :=
  ∀ c ∈ cs, isBlank c = false ∧ c ∉ ['<', '>', '=', '!']

instance (cs : List Char) : Decidable (IsColumn cs) := List.decidableBAll _ cs

theorem isColumn_iff {cs : List Char} : IsColumn cs ↔ ∀ c ∈ cs, endsColumn c = false := by
  refine forall₂_congr fun c _ => ?_
  simp [endsColumn, and_assoc]

theorem splitKey_of_keyed {key : String} {column : List Char} {operator : Operator}
    (clean : IsColumn column) (keyed : Keyed column operator (trim key.toList)) :
    splitKey key = .ok (String.ofList column, operator) := by
  have inside : ∀ c ∈ column, (!endsColumn c) = true := fun c member => by
    simp [isColumn_iff.1 clean c member]
  unfold splitKey
  dsimp only
  generalize trim key.toList = text at keyed
  cases keyed with
  | alone =>
    rw [List.takeWhile_eq_self_iff.2 inside, List.dropWhile_eq_nil_iff.2 inside]
    rfl
  | @behind _ gap text blank apart spelled =>
    obtain ⟨c, first, ends⟩ := spelled.begins
    obtain ⟨d, rest, whole, stops⟩ :
        ∃ d rest, gap ++ text = d :: rest ∧ (!endsColumn d) = false := by
      cases gap with
      | nil =>
        obtain ⟨rest, rfl⟩ := List.head?_eq_some_iff.1 first
        have wordless : operator.wording = [] := Decidable.byContradiction fun held =>
          apart held rfl
        exact ⟨c, rest, rfl, by simp [ends.2 wordless]⟩
      | cons d gap =>
        have here : isBlank d := blank d List.mem_cons_self
        exact ⟨d, gap ++ text, rfl, by simp [endsColumn, here]⟩
    have rest : trim (gap ++ text) = text := by
      simpa using @trim_between text gap [] blank spelled.solid nofun
    have held : text.isEmpty = false := by
      rw [List.isEmpty_eq_false_iff]
      rintro rfl
      cases first
    have front : (column ++ gap ++ text).takeWhile (!endsColumn ·) = column := by
      rw [List.append_assoc, List.takeWhile_append_of_pos inside, whole]
      simp [stops]
    have back : (column ++ gap ++ text).dropWhile (!endsColumn ·) = gap ++ text := by
      rw [List.append_assoc, List.dropWhile_append_of_pos inside, whole]
      simp [stops]
    rw [front, back, rest, held, (parse?_eq_some_iff spelled.solid).2 spelled]
    rfl

theorem keyed_of_splitKey {key column : String} {operator : Operator}
    (h : splitKey key = .ok (column, operator)) :
    IsColumn column.toList ∧ Keyed column.toList operator (trim key.toList) := by
  have solid := solid_trim key.toList
  unfold splitKey at h
  dsimp only at h
  generalize trim key.toList = text at solid h
  have whole : text.takeWhile (!endsColumn ·) ++ text.dropWhile (!endsColumn ·) = text :=
    List.takeWhile_append_dropWhile
  have clean : IsColumn (text.takeWhile (!endsColumn ·)) :=
    isColumn_iff.2 fun c member => by simpa using List.mem_takeWhile_imp member
  rw [← whole] at solid
  obtain ⟨gap, rest, parted, blank, inner⟩ := solid.exists_gap
  have trimmed : trim (text.dropWhile (!endsColumn ·)) = rest := by
    rw [parted]
    simpa using @trim_between rest gap [] blank inner nofun
  rw [trimmed] at h
  split at h
  · next nothing =>
    cases h
    obtain rfl := List.isEmpty_iff.1 nothing
    rw [List.append_nil] at parted
    have column : text.takeWhile (!endsColumn ·) = text := by
      rw [parted] at solid whole
      rwa [solid.eq_nil blank, List.append_nil] at whole
    rw [String.toList_ofList, column]
    rw [column] at clean
    exact ⟨clean, .alone⟩
  · split at h
    · next found =>
      cases h
      have spelled := (parse?_eq_some_iff inner).1 found
      rw [String.toList_ofList]
      refine ⟨clean, ?_⟩
      have keyed : Keyed (text.takeWhile (!endsColumn ·)) operator
          (text.takeWhile (!endsColumn ·) ++ gap ++ rest) := by
        refine .behind blank ?_ spelled
        rintro held rfl
        obtain ⟨c, first, ends⟩ := spelled.begins
        rw [List.nil_append] at parted
        rw [← parted] at first
        have stops : (!endsColumn c) = false := not_of_head?_dropWhile first
        exact held (ends.1 (by simpa using stops))
      rwa [List.append_assoc, ← parted, whole] at keyed
    · cases h

theorem Keyed.solid {column text : List Char} {operator : Operator} (clean : IsColumn column)
    (held : column ≠ []) (keyed : Keyed column operator text) : Solid text := by
  have column := solid_of_unblank fun c member => (clean c member).1
  cases keyed with
  | alone => exact column
  | @behind _ gap text blank apart spelled =>
    obtain ⟨c, first, _⟩ := spelled.begins
    have filled : text ≠ [] := by
      rintro rfl
      cases first
    obtain ⟨d, rest, rfl⟩ := List.exists_cons_of_ne_nil held
    refine ⟨?_, fun e last => ?_⟩
    · rintro _ ⟨⟩
      exact column.first d rfl
    · rw [List.getLast?_append_of_ne_nil _ filled] at last
      exact spelled.solid.last e last

/-- A column by itself, or with an operator behind it in any of its spellings and with any blanks,
is parted into just that column and operator, whatever blanks are around the key. Conversely a key
that is parted is written so, and the column has no character that begins an operator. -/
theorem splitKey_keyed :
    (∀ (column : String) (operator : Operator) (lead text trail : List Char), column ≠ "" →
      IsColumn column.toList → Keyed column.toList operator text → Blank lead → Blank trail →
        splitKey (String.ofList (lead ++ text ++ trail)) = .ok (column, operator)) ∧
    ∀ (key column : String) (operator : Operator), splitKey key = .ok (column, operator) →
      IsColumn column.toList ∧ Keyed column.toList operator (trim key.toList) := by
  constructor
  · intro column operator lead text trail held clean keyed before behind
    have filled : column.toList ≠ [] := by simpa using held
    have trimmed := trim_between before (keyed.solid clean filled) behind
    rw [← String.toList_ofList (l := lead ++ text ++ trail)] at trimmed
    rw [splitKey_of_keyed clean (trimmed.symm ▸ keyed), String.ofList_toList]
  · exact fun key column operator => keyed_of_splitKey

theorem deletedAt_splitKey_keyed :
    splitKey "\u00a0users.deleted_at \tiS\u2003noT\n" = .ok ("users.deleted_at", .isNot) ∧
      splitKey "age<>" = .ok ("age", .compare .notEqual) ∧
      Keyed "age".toList (.compare .notEqual) (trim "age<>".toList) := by
  obtain ⟨parts, reads⟩ := splitKey_keyed
  have words : Spelled .isNot ("iS".toList ++ ['\u2003'] ++ "noT".toList) :=
    .words rfl (by decide) (by decide) (by decide) (by decide)
  have key : Keyed "users.deleted_at".toList .isNot ("users.deleted_at".toList ++ [' ', '\t'] ++
      ("iS".toList ++ ['\u2003'] ++ "noT".toList)) :=
    .behind (by decide) (by decide) words
  have first := parts "users.deleted_at" .isNot ['\u00a0'] _ ['\n'] (by decide) (by decide) key
    (by decide) (by decide)
  have whole : String.ofList (['\u00a0'] ++ ("users.deleted_at".toList ++ [' ', '\t'] ++
      ("iS".toList ++ ['\u2003'] ++ "noT".toList)) ++ ['\n']) =
      "\u00a0users.deleted_at \tiS\u2003noT\n" := by decide +kernel
  have symbol : splitKey "age<>" = .ok ("age", .compare .notEqual) := by decide +kernel
  exact ⟨whole ▸ first, symbol, (reads _ _ _ symbol).2⟩

end Operator

end RelationQuery
