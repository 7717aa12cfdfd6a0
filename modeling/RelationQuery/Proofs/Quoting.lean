import RelationQuery.Proofs.Token
import RelationQuery.Sql.Literal
import RelationQuery.Text.Blank

/-! Names, literals and numbers as they stand in a statement. Main statement: a value is written
so that it is read as one token whose text is the value's, whatever is in it. -/
namespace RelationQuery

open Token

namespace Token

variable {dialect : Dialect}

/-- An escape rule that a quoted text is read back under, one character after the other. -/
def Unescapes (dialect : Dialect) (mark : Char) (escape : Char → List Char) : Prop :=
  ∀ (c : Char) (text rest : List Char),
    lexFrom dialect (.inside ⟨mark, text⟩) (escape c ++ rest) =
      lexFrom dialect (.inside ⟨mark, text ++ [c]⟩) rest

theorem lexFrom_flatMap {mark : Char} {escape : Char → List Char}
    (unescapes : Unescapes dialect mark escape) (cs text rest : List Char) :
    lexFrom dialect (.inside ⟨mark, text⟩) (cs.flatMap escape ++ rest) =
      lexFrom dialect (.inside ⟨mark, text ++ cs⟩) rest := by
  induction cs generalizing text with
  | nil => simp
  | cons c cs ih =>
    rw [List.flatMap_cons, List.append_assoc, unescapes, ih, List.append_assoc]
    rfl

/-- A quoted text is one token, unless one more mark follows. -/
theorem lex_quoted {mark : Char} {escape : Char → List Char}
    (opens : mark = '\'' ∨ mark = dialect.quoteMark) (unescapes : Unescapes dialect mark escape)
    (cs : List Char) {rest : List Char} (h : rest.head? ≠ some mark) :
    lex dialect (mark :: (cs.flatMap escape ++ [mark]) ++ rest) =
      (lex dialect rest).map (Quoted.token ⟨mark, cs⟩ :: ·) := by
  rw [lex, List.cons_append, lexFrom_cons_of_step (step_begin opens), List.append_assoc,
    lexFrom_flatMap unescapes, List.nil_append, List.singleton_append,
    lexFrom_cons_of_step (step_mark mark cs)]
  exact lexFrom_marked h

theorem quoteMark_ne (dialect : Dialect) : dialect.quoteMark ≠ '\'' := by
  cases dialect <;> decide

theorem unescapes_quoteMark (dialect : Dialect) : Unescapes dialect dialect.quoteMark
    fun c => if c = dialect.quoteMark then [dialect.quoteMark, dialect.quoteMark] else [c] := by
  intro c text rest
  by_cases mark : c = dialect.quoteMark
  · subst mark
    simp [lexFrom, step, Quoted.add, Function.comp_def]
  · simp [lexFrom, step, mark, quoteMark_ne, Quoted.add]

theorem unescapes_escapeLiteral (dialect : Dialect) :
    Unescapes dialect '\'' dialect.escapeLiteral := by
  intro c text rest
  by_cases mark : c = '\''
  · subst mark
    simp [Dialect.escapeLiteral, lexFrom, step, Quoted.add, Function.comp_def]
  · by_cases backslash : c = '\\' ∧ dialect = .mysql
    · obtain ⟨rfl, rfl⟩ := backslash
      simp [Dialect.escapeLiteral, lexFrom, step, Quoted.add, unescape, Function.comp_def]
    · simp [Dialect.escapeLiteral, lexFrom, step, Quoted.add, mark, backslash]

theorem head?_ne_of_parted (dialect : Dialect) {mark : Char} {rest : List Char}
    (parted : Parted rest) (opens : mark = '\'' ∨ mark = dialect.quoteMark) :
    rest.head? ≠ some mark := by
  intro first
  have separator := parted mark first
  have plain := not_isPlain_mark dialect opens
  simp only [List.mem_cons, List.not_mem_nil, or_false] at separator
  rcases separator with rfl | rfl | rfl | rfl <;> cases plain

end Token

theorem Dialect.quote_eq_intercalate (dialect : Dialect) (name : String) :
    dialect.quote name = ".".intercalate
      ((name.toList.splitOn '.').map fun part => String.ofList (dialect.quotePart part)) := by
  rw [← String.toList_inj, Dialect.quote, String.toList_ofList, String.toList_intercalate]
  simp [Dialect.quoteChars, Function.comp_def]

def Token.ofPart (part : List Char) : Token := if part = ['*'] then .plain '*' else .name part

def Token.ofName (name : String) : List Token :=
  [plain '.'].intercalate ((name.toList.splitOn '.').map fun part => [ofPart part])

theorem Token.mem_ofName {name : String} {token : Token} (h : token ∈ ofName name) :
    token = .plain '.' ∨ token = .plain '*' ∨ ∃ part, token = .name part := by
  rcases Text.mem_of_mem_intercalate h with dot | ⟨tokens, member, held⟩
  · exact .inl (List.mem_singleton.1 dot)
  · obtain ⟨part, _, rfl⟩ := List.mem_map.1 member
    obtain rfl := List.mem_singleton.1 held
    unfold ofPart
    split
    · exact .inr (.inl rfl)
    · exact .inr (.inr ⟨part, rfl⟩)

theorem Token.nesting_ofName (name : String) (n : Nat) : nesting n (ofName name) = some n := by
  suffices flat : ∀ tokens : List Token, (∀ token ∈ tokens, token ∈ ofName name) →
      nesting n tokens = some n from flat _ fun _ => id
  intro tokens sub
  induction tokens with
  | nil => rfl
  | cons token rest ih =>
    obtain ⟨here, later⟩ := List.forall_mem_cons.1 sub
    have one : nest n token = some n := by
      rcases mem_ofName here with rfl | rfl | ⟨part, rfl⟩ <;> rfl
    rw [nesting, List.foldlM_cons, one]
    exact ih later

theorem Token.literal_not_mem_ofName {name : String} {text : List Char} :
    .literal text ∉ ofName name := by
  intro member
  rcases mem_ofName member with other | other | ⟨part, other⟩ <;> cases other

namespace Spells

variable {dialect : Dialect}

theorem intercalate {α : Type} {rests : List Char → Prop} {separator : String}
    {between : List Token} {xs : List α} {text : α → String} {tokens : α → List Token}
    (middle : Spells dialect (fun _ => True) separator between)
    (meet : ∀ rest, rests (separator.toList ++ rest))
    (h : ∀ x ∈ xs, Spells dialect rests (text x) (tokens x)) :
    Spells dialect rests (separator.intercalate (xs.map text))
      (between.intercalate (xs.map tokens)) := by
  induction xs with
  | nil =>
    rw [List.map_nil, String.intercalate_nil]
    exact fun rest _ => by simp
  | cons x more ih =>
    obtain ⟨here, later⟩ := List.forall_mem_cons.1 h
    cases more with
    | nil => simpa using here
    | cons other more =>
      rw [List.map_cons, List.map_cons, String.intercalate_cons_cons, List.map_cons, List.map_cons,
        List.intercalate_cons_cons]
      have first := here.append middle fun rest _ => meet rest
      exact first.append (ih later) fun _ _ => True.intro

theorem enclose (part : List Char) : Spells dialect (·.head? ≠ some dialect.quoteMark)
    (String.ofList (Dialect.enclose dialect.quoteMark part)) [.name part] := by
  intro rest other
  rw [String.toList_ofList]
  have read := lex_quoted (.inr rfl) (unescapes_quoteMark dialect) part other
  rwa [Quoted.token, if_neg (quoteMark_ne dialect)] at read

theorem quotePart (part : List Char) :
    Spells dialect Parted (String.ofList (dialect.quotePart part)) [ofPart part] := by
  unfold Dialect.quotePart ofPart
  split
  · next star =>
    rw [star]
    exact of_solid (by decide)
  · exact (enclose part).narrow fun _ parted => head?_ne_of_parted dialect parted (.inr rfl)

theorem quote (name : String) : Spells dialect Parted (dialect.quote name) (ofName name) := by
  rw [Dialect.quote_eq_intercalate]
  have dot : Fixed "." 0 0 := by decide
  exact intercalate (of_fixed dot) (fun rest => by simp [Parted]) fun part _ => quotePart part

theorem ne_star_of_not_mem {name : String} (h : '*' ∉ name.toList) {part : List Char}
    (found : part ∈ name.toList.splitOn '.') : part ≠ ['*'] := by
  rintro rfl
  have whole : ['.'].intercalate (name.toList.splitOn '.') = name.toList :=
    List.intercalate_splitOn '.'
  apply h
  rw [← whole]
  exact Text.mem_intercalate_of_mem found List.mem_cons_self

theorem quote_of_not_mem {name : String} (h : '*' ∉ name.toList) :
    Spells dialect (·.head? ≠ some dialect.quoteMark) (dialect.quote name) (ofName name) := by
  rw [Dialect.quote_eq_intercalate]
  have dot : Fixed "." 0 0 := by decide
  apply intercalate (of_fixed dot)
  · intro rest
    cases dialect <;> simp [Dialect.quoteMark]
  · intro part found
    have bare := ne_star_of_not_mem h found
    rw [Dialect.quotePart, if_neg bare, ofPart, if_neg bare]
    exact enclose part

end Spells

namespace Cut

variable {dialect : Dialect} {allowed : List Char → Prop} {n : Nat}

theorem of_token {rests : List Char → Prop} {text : String} (token : Token)
    (h : ∀ rest, rests rest →
      lex dialect (text.toList ++ rest) = (lex dialect rest).map (token :: ·))
    (flat : nest n token = some n) (ok : ∀ literal, token = .literal literal → allowed literal) :
    Cut dialect allowed rests n n text := by
  refine ⟨[token], h, by simp [nesting, flat], ?_⟩
  intro literal member
  exact ok literal (List.mem_singleton.1 member).symm

theorem literalChars {cs : List Char} (ok : allowed cs) :
    Reads dialect allowed n n (String.ofList (dialect.literalChars cs)) := by
  apply of_token (.literal cs)
  · intro rest parted
    rw [String.toList_ofList]
    exact lex_quoted (.inl rfl) (unescapes_escapeLiteral dialect) cs
      (head?_ne_of_parted dialect parted (.inl rfl))
  · rfl
  · rintro _ ⟨⟩
    exact ok

theorem intercalate {rests : List Char → Prop} {separator : String} {texts : List String}
    (between : Leads dialect allowed n n separator)
    (meet : ∀ rest, rests (separator.toList ++ rest))
    (h : ∀ text ∈ texts, Cut dialect allowed rests n n text) :
    Cut dialect allowed rests n n (separator.intercalate texts) := by
  induction texts with
  | nil =>
    rw [String.intercalate_nil]
    exact empty
  | cons text rest ih =>
    cases rest with
    | nil =>
      rw [String.intercalate_singleton]
      exact h text List.mem_cons_self
    | cons other rest =>
      rw [String.intercalate_cons_cons]
      have first := (h text List.mem_cons_self).append between fun rest _ => meet rest
      exact first.next (ih fun text member => h text (List.mem_cons_of_mem _ member))

theorem join {texts : List String} (h : ∀ text ∈ texts, Reads dialect allowed n n text)
    (parted : ∀ text ∈ texts, Parted text.toList) :
    Reads dialect allowed n n (String.join texts) ∧ Parted (String.join texts).toList := by
  induction texts with
  | nil => exact ⟨empty, by simp [Parted]⟩
  | cons text rest ih =>
    obtain ⟨reads, separated⟩ := ih (fun text member => h text (List.mem_cons_of_mem _ member))
      fun text member => parted text (List.mem_cons_of_mem _ member)
    rw [String.join_cons]
    constructor
    · exact (h text List.mem_cons_self).followed reads separated
    · rw [String.toList_append]
      exact (parted text List.mem_cons_self).append separated

theorem quote (name : String) : Reads dialect allowed n n (dialect.quote name) :=
  ⟨ofName name, Spells.quote name, nesting_ofName name n,
    fun _ member => absurd member literal_not_mem_ofName⟩

theorem head?_quote {name : String} (h : '*' ∉ name.toList) :
    (dialect.quote name).toList.head? = some dialect.quoteMark := by
  rw [Dialect.quote, String.toList_ofList, Dialect.quoteChars]
  cases parts : name.toList.splitOn '.' with
  | nil => exact absurd parts (List.splitOn_ne_nil '.' _)
  | cons part rest =>
    have bare := Spells.ne_star_of_not_mem h (parts ▸ List.mem_cons_self)
    rw [List.map_cons, Dialect.quotePart, if_neg bare, Dialect.enclose]
    cases rest <;> simp [List.intercalate_cons_cons]

end Cut

def Calm (cs : List Char) : Prop := ∀ c ∈ cs, c.isDigit ∨ c ∈ ['.', 'e', '+']

namespace Calm

theorem ordinary {cs : List Char} (h : Calm cs) :
    ∀ c ∈ cs, isPlain c ∧ c ∉ ['-', '/', '*', '(', ')'] := by
  intro c member
  rcases h c member with digit | other
  · constructor
    · simp [isPlain, Char.isAlphanum, digit]
    · intro special
      simp only [List.mem_cons, List.not_mem_nil, or_false] at special
      rcases special with rfl | rfl | rfl | rfl | rfl <;> cases digit
  · simp only [List.mem_cons, List.not_mem_nil, or_false] at other
    rcases other with rfl | rfl | rfl <;> exact ⟨by decide, by decide⟩

theorem append {front back : List Char} (first : Calm front) (second : Calm back) :
    Calm (front ++ back) := by
  intro c member
  rcases List.mem_append.1 member with member | member
  · exact first c member
  · exact second c member

theorem of_digits {cs : List Char} (h : ∀ c ∈ cs, c.isDigit) : Calm cs :=
  fun c member => .inl (h c member)

theorem toDigits (value : Nat) : Calm (Nat.toDigits 10 value) :=
  of_digits fun _ member => Nat.isDigit_of_mem_toDigits (by decide) (by decide) member

theorem not_commentPair {c : Char} (plain : c ∉ ['-', '/', '*', '(', ')'])
    (previous : Option Char) :
    previous.any (commentPair · c) = false := by
  cases previous with
  | none => rfl
  | some before =>
    simp [commentPair] at plain ⊢
    grind

theorem solid {cs : List Char} (h : Calm cs) (previous : Option Char) :
    Token.solid previous cs := by
  induction cs generalizing previous with
  | nil => rfl
  | cons c cs ih =>
    obtain ⟨plain, apart⟩ := h.ordinary c List.mem_cons_self
    rw [Token.solid, plain, not_commentPair apart,
      ih fun c member => h c (List.mem_cons_of_mem _ member)]
    rfl

theorem singleton {c : Char} (h : c.isDigit ∨ c ∈ ['.', 'e', '+']) : Calm [c] := by
  intro other member
  rw [List.mem_singleton.1 member]
  exact h

theorem cons {c : Char} {cs : List Char} (h : c.isDigit ∨ c ∈ ['.', 'e', '+'])
    (rest : Calm cs) : Calm (c :: cs) :=
  (singleton h).append rest

theorem nesting {cs : List Char} (h : Calm cs) (n : Nat) :
    Token.nesting n (cs.map plain) = some n := by
  apply nesting_flat
  intro c member
  have := (h.ordinary c member).2
  simp_all

end Calm

def Unsigned (cs : List Char) : Prop :=
  Calm cs ∨ ∃ front back, cs = front ++ '-' :: back ∧ Calm front ∧ Calm back ∧ front ≠ []

namespace Unsigned

theorem solid {cs : List Char} (h : Unsigned cs) (previous : Option Char) :
    Token.solid previous cs := by
  rcases h with calm | ⟨front, back, rfl, first, second, marked⟩
  · exact calm.solid previous
  · have plain : isPlain '-' := by decide
    rw [solid_append, first.solid, Token.solid, second.solid, plain]
    cases last : front.getLast? with
    | none => exact absurd (List.getLast?_eq_none_iff.1 last) marked
    | some c =>
      have apart := (first.ordinary c (List.mem_of_getLast? last)).2
      simp only [List.mem_cons, List.not_mem_nil, or_false, not_or] at apart
      simp [commentPair, apart]

theorem numeric {cs : List Char} (h : Unsigned cs) :
    ∀ c ∈ cs, c.isDigit ∨ c ∈ ['.', 'e', '+', '-'] := by
  have calm {cs : List Char} (h : Calm cs) : ∀ c ∈ cs, c.isDigit ∨ c ∈ ['.', 'e', '+', '-'] :=
    fun c member => (h c member).imp_right (List.mem_append_left ['-'])
  rcases h with whole | ⟨front, back, rfl, first, second, _⟩
  · exact calm whole
  · intro c member
    rcases List.mem_append.1 member with inside | inside
    · exact calm first c inside
    rcases List.mem_cons.1 inside with rfl | inside
    · exact .inr (by decide)
    · exact calm second c inside

theorem nesting {cs : List Char} (h : Unsigned cs) (n : Nat) :
    Token.nesting n (cs.map plain) = some n := by
  rcases h with calm | ⟨front, back, rfl, first, second, _⟩
  · exact calm.nesting n
  · rw [List.map_append]
    exact nesting_append (first.nesting n) (second.nesting n)

end Unsigned

theorem Unsigned.signed {cs : List Char} (h : Unsigned cs) (sign : Bool) :
    Token.solid none ((if sign then ['-'] else []) ++ cs) := by
  have plain : isPlain '-' := by decide
  cases sign with
  | true =>
    change Token.solid none ('-' :: cs)
    rw [Token.solid, h.solid, plain]
    rfl
  | false => exact h.solid none

theorem Cut.unsigned {dialect : Dialect} {allowed : List Char → Prop} {n : Nat} {cs : List Char}
    (h : Unsigned cs) (sign : Bool) :
    Reads dialect allowed n n (String.ofList ((if sign then ['-'] else []) ++ cs)) := by
  apply of_solid
  · rw [String.toList_ofList]
    exact h.signed sign
  · rw [String.toList_ofList]
    cases sign with
    | true => exact h.nesting n
    | false => exact h.nesting n

namespace Calm

theorem significant (d : Decimal) : Calm d.significant := by
  apply of_digits
  intro c member
  unfold Decimal.significant at member
  rw [List.mem_reverse] at member
  have digit := (List.dropWhile_sublist _).subset member
  exact Nat.isDigit_of_mem_toDigits (by decide) (by decide) (List.mem_reverse.1 digit)

theorem zeros (n : Nat) : Calm (Decimal.zeros n) := by
  apply of_digits
  intro c member
  rw [List.eq_of_mem_replicate member]
  decide

theorem positional {digits : List Char} (h : Calm digits) (leading : Int) :
    Calm (Decimal.positional digits leading) := by
  unfold Decimal.positional
  split
  · exact cons (by decide) (cons (by decide) ((zeros _).append h))
  · have whole (count : Nat) : Calm (digits.take count) :=
      fun c member => h c (List.mem_of_mem_take member)
    have fraction (count : Nat) : Calm (digits.drop count) :=
      fun c member => h c (List.mem_of_mem_drop member)
    refine ((whole _).append (zeros _)).append (cons (by decide) ?_)
    split
    · exact singleton (by decide)
    · exact fraction _

end Calm

theorem Unsigned.scientific {digits : List Char} (h : Calm digits) (leading : Int) :
    Unsigned (Decimal.scientific digits leading) := by
  have exponent := Calm.toDigits leading.natAbs
  have mark (front : List Char) (calm : Calm front) : Unsigned
      (front ++ 'e' :: (if leading < 0 then '-' else '+') :: Nat.toDigits 10 leading.natAbs) := by
    by_cases negative : leading < 0
    · refine .inr ⟨front ++ ['e'], _, ?_, calm.append (Calm.singleton (by decide)), exponent, ?_⟩
      · simp [negative]
      · simp
    · left
      rw [if_neg negative]
      exact calm.append (Calm.cons (by decide) (Calm.cons (by decide) exponent))
  rcases digits with _ | ⟨digit, _ | ⟨second, more⟩⟩
  · exact mark [] nofun
  · exact mark [digit] h
  · exact mark (digit :: '.' :: second :: more) (Calm.cons (h digit List.mem_cons_self)
      (Calm.cons (by decide) fun c member => h c (List.mem_cons_of_mem _ member)))

theorem Unsigned.decimal (d : Decimal) : Unsigned d.text := by
  unfold Decimal.text
  dsimp only
  split
  · exact .inl ((Calm.significant d).positional _)
  · exact Unsigned.scientific (Calm.significant d) _

theorem Number.toList_toString (value : Int) : (toString value).toList =
    (if decide (value < 0) then ['-'] else []) ++ Nat.toDigits 10 value.natAbs := by
  cases value with
  | ofNat magnitude =>
    have sign : ¬(magnitude : Int) < 0 := by omega
    simp [sign, Int.repr]
  | negSucc less =>
    have sign : Int.negSucc less < 0 := by omega
    simp [sign, Int.repr]

theorem Number.exists_unsigned (value : Number) :
    ∃ (sign : Bool) (cs : List Char),
      Unsigned cs ∧ value.text = (if sign then ['-'] else []) ++ cs := by
  cases value with
  | integer value fits =>
    exact ⟨decide (value < 0), _, .inl (Calm.toDigits value.natAbs), toList_toString value⟩
  | float value =>
    unfold Number.text Binary64.text
    dsimp only
    split
    · refine ⟨value.negative, "0.0".toList, .inl ?_, rfl⟩
      exact Calm.cons (by decide) (Calm.cons (by decide) (Calm.singleton (by decide)))
    · exact ⟨value.negative, _, Unsigned.decimal _, rfl⟩

namespace Cut

variable {dialect : Dialect} {allowed : List Char → Prop} {n : Nat}

theorem digits (value : Nat) : Reads dialect allowed n n (toString value) := by
  have text : toString value = String.ofList (Nat.toDigits 10 value) := by
    rw [Nat.toString_eq_ofList_toDigits]
  rw [text]
  exact unsigned (.inl (Calm.toDigits value)) false

theorem number (value : Number) : Reads dialect allowed n n (String.ofList value.text) := by
  obtain ⟨sign, cs, held, text⟩ := value.exists_unsigned
  rw [text]
  exact unsigned held sign

end Cut

def Value.literal? : Value → Option (List Char)
  | .text value => some value.toList
  | .array items => some (Value.array items).json
  | .object fields => some (Value.object fields).json
  | _ => none

def LiteralOf (given : Value → Prop) (text : List Char) : Prop :=
  ∃ value, given value ∧ value.literal? = some text

theorem Cut.value {dialect : Dialect} {given : Value → Prop} {n : Nat} {value : Value}
    (h : given value) : Reads dialect (LiteralOf given) n n (value.sql dialect) := by
  cases value with
  | null =>
    rw [Value.sql]
    exact (of_flat (by decide)).reads
  | boolean value =>
    rw [Value.sql]
    cases dialect <;> cases value <;>
      exact (of_flat (by decide)).reads
  | number value => exact number value
  | text value => exact literalChars ⟨_, h, rfl⟩
  | array items => exact literalChars ⟨_, h, rfl⟩
  | object fields => exact literalChars ⟨_, h, rfl⟩

end RelationQuery
