import RelationQuery.Dialect

/-! How a database cuts a statement into tokens. Main statements: texts that stand between
separators are cut each on its own, and what is quoted reads back as it was. -/
namespace RelationQuery

/-- What was quoted, decoded, or one character outside quotes. -/
inductive Token where
  | literal (text : List Char)
  | name (text : List Char)
  | plain (c : Char)
  deriving DecidableEq

namespace Token

def isPlain (c : Char) : Bool :=
  c.isAlphanum || ['_', '.', ' ', '\t', '\n', '\r', ',', '=', '+', '-', '*', '/', '%', '<', '>',
    '!', '(', ')'].contains c

def commentPair (a b : Char) : Bool :=
  [('-', '-'), ('/', '*'), ('*', '/')].contains (a, b)

structure Quoted where
  mark : Char
  text : List Char

namespace Quoted

def token (quoted : Quoted) : Token :=
  if quoted.mark = '\'' then .literal quoted.text else .name quoted.text

def add (quoted : Quoted) (cs : List Char) : Quoted := { quoted with text := quoted.text ++ cs }

end Quoted

/-- Where a lexer stands: outside quotes after a character, inside them, behind a backslash there,
or behind a mark that ends them unless another follows. -/
inductive Mode where
  | outside (previous : Option Char)
  | inside (quoted : Quoted)
  | escaped (quoted : Quoted)
  | marked (quoted : Quoted)

def unescape : Char → List Char
  | '0' => ['\x00']
  | 'b' => ['\x08']
  | 'n' => ['\n']
  | 'r' => ['\r']
  | 't' => ['\t']
  | 'Z' => ['\x1a']
  | '%' => ['\\', '%']
  | '_' => ['\\', '_']
  | c => [c]

variable (dialect : Dialect)

def start (previous : Option Char) (c : Char) : Option (List Token × Mode) :=
  if c = '\'' ∨ c = dialect.quoteMark then some ([], .inside ⟨c, []⟩)
  else if isPlain c ∧ ¬previous.any (commentPair · c) then some ([.plain c], .outside (some c))
  else none

def step : Mode → Char → Option (List Token × Mode)
  | .outside previous, c => start dialect previous c
  | .inside quoted, c =>
    if c = quoted.mark then some ([], .marked quoted)
    else if c = '\\' ∧ quoted.mark = '\'' ∧ dialect = .mysql then some ([], .escaped quoted)
    else some ([], .inside (quoted.add [c]))
  | .escaped quoted, c => some ([], .inside (quoted.add (unescape c)))
  | .marked quoted, c =>
    if c = quoted.mark then some ([], .inside (quoted.add [c]))
    else (start dialect none c).map fun (tokens, mode) => (quoted.token :: tokens, mode)

def finish : Mode → Option (List Token)
  | .outside _ => some []
  | .marked quoted => some [quoted.token]
  | _ => none

def lexFrom : Mode → List Char → Option (List Token)
  | mode, [] => finish mode
  | mode, c :: cs =>
    (step dialect mode c).bind fun (tokens, mode) => (lexFrom mode cs).map (tokens ++ ·)

def lex (cs : List Char) : Option (List Token) := lexFrom dialect (.outside none) cs

def nest (depth : Nat) : Token → Option Nat
  | .plain c =>
    if c = '(' then some (depth + 1)
    else if c = ')' then if depth = 0 then none else some (depth - 1)
    else some depth
  | _ => some depth

def nesting (depth : Nat) (tokens : List Token) : Option Nat := tokens.foldlM nest depth

example : lex .mysql "f('a''\\'', \x60b\x60)".toList =
    some [.plain 'f', .plain '(', .literal ['a', '\'', '\''], .plain ',', .plain ' ', .name ['b'],
      .plain ')'] := by decide

theorem nest_add {depth after : Nat} {token : Token} (h : nest depth token = some after)
    (n : Nat) : nest (depth + n) token = some (after + n) := by
  cases token with
  | literal text | name text =>
    cases h
    rfl
  | plain c =>
    simp only [nest] at *
    by_cases opens : c = '('
    · rw [if_pos opens] at *
      cases h
      rw [Nat.add_right_comm]
    · rw [if_neg opens] at *
      by_cases closes : c = ')'
      · rw [if_pos closes] at *
        by_cases ground : depth = 0
        · rw [if_pos ground] at h
          cases h
        · rw [if_neg ground] at h
          rw [if_neg (by omega)]
          cases h
          congr 1
          omega
      · rw [if_neg closes] at *
        cases h
        rfl

theorem foldlM_add {α : Type} {nest : Nat → α → Option Nat} {xs : List α} {depth after n : Nat}
    (one : ∀ x depth after, nest depth x = some after → nest (depth + n) x = some (after + n))
    (h : xs.foldlM nest depth = some after) :
    xs.foldlM nest (depth + n) = some (after + n) := by
  induction xs generalizing depth with
  | nil =>
    cases h
    rfl
  | cons x rest ih =>
    rw [List.foldlM_cons] at *
    obtain ⟨middle, first, h⟩ := Option.bind_eq_some_iff.1 h
    rw [one x depth middle first]
    exact ih h

theorem nesting_add {depth after : Nat} {tokens : List Token}
    (h : nesting depth tokens = some after) (n : Nat) :
    nesting (depth + n) tokens = some (after + n) :=
  foldlM_add (fun _ _ _ one => nest_add one n) h

theorem nesting_append {depth middle after : Nat} {front back : List Token}
    (first : nesting depth front = some middle) (second : nesting middle back = some after) :
    nesting depth (front ++ back) = some after := by
  unfold nesting at *
  rw [List.foldlM_append, first]
  exact second

variable {dialect}

theorem not_isPlain_mark (dialect : Dialect) {c : Char} (h : c = '\'' ∨ c = dialect.quoteMark) :
    isPlain c = false := by
  rcases h with rfl | rfl
  · decide
  · cases dialect <;> decide

def solid : Option Char → List Char → Bool
  | _, [] => true
  | previous, c :: cs => isPlain c && !previous.any (commentPair · c) && solid (some c) cs

theorem getLast?_cons_or {c : Char} (cs : List Char) (previous : Option Char) :
    (c :: cs).getLast?.or previous = cs.getLast?.or (some c) := by
  cases cs <;> simp [List.getLast?_eq_some_getLast]

theorem solid_append (previous : Option Char) (front back : List Char) :
    solid previous (front ++ back) =
      (solid previous front && solid (front.getLast?.or previous) back) := by
  induction front generalizing previous with
  | nil => rfl
  | cons c cs ih =>
    rw [List.cons_append, solid, solid, ih, getLast?_cons_or]
    simp only [Bool.and_assoc]

theorem solid_none {previous : Option Char} {cs : List Char} (h : solid previous cs) :
    solid none cs := by
  cases cs with
  | nil => rfl
  | cons c cs =>
    simp only [solid, Bool.and_eq_true] at h
    simp [solid, h.1.1, h.2]

theorem nesting_flat {cs : List Char} (h : ∀ c ∈ cs, c ∉ ['(', ')']) (n : Nat) :
    nesting n (cs.map plain) = some n := by
  induction cs with
  | nil => rfl
  | cons c cs ih =>
    have flat := h c List.mem_cons_self
    have one : nest n (plain c) = some n := by
      simp only [List.mem_cons, List.not_mem_nil, or_false, not_or] at flat
      simp [nest, flat]
    have tail := ih fun c member => h c (List.mem_cons_of_mem _ member)
    unfold nesting at *
    rw [List.map_cons, List.foldlM_cons, one]
    exact tail

theorem start_plain {previous : Option Char} {c : Char} (plain : isPlain c)
    (apart : ¬previous.any (commentPair · c)) :
    start dialect previous c = some ([.plain c], .outside (some c)) := by
  have unquoted : ¬(c = '\'' ∨ c = dialect.quoteMark) := by
    intro mark
    rw [not_isPlain_mark dialect mark] at plain
    cases plain
  simp [start, unquoted, plain, apart]

theorem lexFrom_cons_of_step {mode next : Mode} {c : Char}
    (silent : step dialect mode c = some ([], next)) (cs : List Char) :
    lexFrom dialect mode (c :: cs) = lexFrom dialect next cs := by
  rw [lexFrom, silent]
  simp only [Option.bind_some, List.nil_append, Option.map_id_fun', id]

theorem step_begin {mark : Char} (opens : mark = '\'' ∨ mark = dialect.quoteMark) :
    step dialect (.outside none) mark = some ([], .inside ⟨mark, []⟩) := by
  simp [step, start, opens]

theorem step_mark (mark : Char) (text : List Char) :
    step dialect (.inside ⟨mark, text⟩) mark = some ([], .marked ⟨mark, text⟩) :=
  if_pos rfl

theorem lexFrom_solid {previous : Option Char} {cs : List Char} (h : solid previous cs)
    (rest : List Char) :
    lexFrom dialect (.outside previous) (cs ++ rest) =
      (lexFrom dialect (.outside (cs.getLast?.or previous)) rest).map (cs.map plain ++ ·) := by
  induction cs generalizing previous with
  | nil => simp
  | cons c cs ih =>
    simp only [solid, Bool.and_eq_true, Bool.not_eq_true'] at h
    rw [List.cons_append, lexFrom, step, start_plain h.1.1 (by simp [h.1.2])]
    simp only [Option.bind_some, ih h.2]
    rw [getLast?_cons_or, Option.map_map]
    rfl

def Parted (cs : List Char) : Prop := ∀ c ∈ cs.head?, c ∈ [' ', ',', ')', '.']

instance (cs : List Char) : Decidable (Parted cs) := Option.decidableForallMem cs.head?

theorem Parted.append {front back : List Char} (first : Parted front) (second : Parted back) :
    Parted (front ++ back) := by
  cases front with
  | nil => exact second
  | cons c cs => simpa [Parted] using first

/-- The character before matters only where the two make a comment. -/
theorem lexFrom_outside_of_apart {previous : Option Char} {rest : List Char}
    (h : ∀ c ∈ rest.head?, ¬previous.any (commentPair · c)) :
    lexFrom dialect (.outside previous) rest = lex dialect rest := by
  cases rest with
  | nil => rfl
  | cons c cs =>
    have same : start dialect previous c = start dialect none c := by
      simp [start, h c rfl]
    rw [lex, lexFrom, lexFrom, step, step, same]

theorem lexFrom_outside {previous : Option Char} {rest : List Char} (h : Parted rest) :
    lexFrom dialect (.outside previous) rest = lex dialect rest := by
  apply lexFrom_outside_of_apart
  intro c first
  have separator := h c first
  simp only [List.mem_cons, List.not_mem_nil, or_false] at separator
  rcases separator with rfl | rfl | rfl | rfl <;> cases previous <;> simp [commentPair]

theorem lexFrom_marked {quoted : Quoted} {rest : List Char} (h : rest.head? ≠ some quoted.mark) :
    lexFrom dialect (.marked quoted) rest = (lex dialect rest).map (quoted.token :: ·) := by
  cases rest with
  | nil => rfl
  | cons c cs =>
    have other : c ≠ quoted.mark := by simpa using h
    rw [lex, lexFrom, lexFrom, step, step, if_neg other]
    cases start dialect none c <;> simp [Function.comp_def]

end Token

open Token

def Spells (dialect : Dialect) (rests : List Char → Prop) (text : String) (tokens : List Token) :
    Prop :=
  ∀ rest, rests rest → lex dialect (text.toList ++ rest) = (lex dialect rest).map (tokens ++ ·)

/-- Before every rest of the given kind, the text is cut apart from it into tokens whose literals
are allowed and which take the nesting of parentheses from one depth to the other. -/
def Cut (dialect : Dialect) (allowed : List Char → Prop) (rests : List Char → Prop)
    (before after : Nat) (text : String) : Prop :=
  ∃ tokens,
    (∀ rest, rests rest → lex dialect (text.toList ++ rest) =
      (lex dialect rest).map (tokens ++ ·)) ∧
    nesting before tokens = some after ∧ ∀ literal, .literal literal ∈ tokens → allowed literal

abbrev Reads (dialect : Dialect) (allowed : List Char → Prop) (before after : Nat)
    (text : String) : Prop :=
  Cut dialect allowed Parted before after text

abbrev Leads (dialect : Dialect) (allowed : List Char → Prop) (before after : Nat)
    (text : String) : Prop :=
  Cut dialect allowed (fun _ => True) before after text

/-- The text is tokens from end to end, its parentheses match, and its literals are allowed. -/
def Safe (dialect : Dialect) (allowed : List Char → Prop) (sql : String) : Prop :=
  ∃ tokens, lex dialect sql.toList = some tokens ∧ nesting 0 tokens = some 0 ∧
    ∀ literal, .literal literal ∈ tokens → allowed literal

theorem Safe.mono {dialect : Dialect} {allowed wider : List Char → Prop} {sql : String}
    (h : Safe dialect allowed sql) (sub : ∀ text, allowed text → wider text) :
    Safe dialect wider sql := by
  obtain ⟨tokens, whole, nested, literals⟩ := h
  exact ⟨tokens, whole, nested, fun literal member => sub literal (literals literal member)⟩

def Fixed (text : String) (before after : Nat) : Prop :=
  solid none text.toList ∧ (text.toList.getLast?.all fun c => !(['-', '/', '*'].contains c)) ∧
    nesting before (text.toList.map plain) = some after

instance (text : String) (before after : Nat) : Decidable (Fixed text before after) :=
  inferInstanceAs (Decidable (_ ∧ _ ∧ _))

namespace Spells

variable {dialect : Dialect} {rests others : List Char → Prop} {first second text : String}
  {front back tokens : List Token}

theorem whole (h : Spells dialect Parted text tokens) : lex dialect text.toList = some tokens := by
  have whole := h [] (by simp [Parted])
  rw [List.append_nil] at whole
  simpa [lex, lexFrom, finish] using whole

theorem narrow (h : Spells dialect rests text tokens) (sub : ∀ rest, others rest → rests rest) :
    Spells dialect others text tokens :=
  fun rest ok => h rest (sub rest ok)

theorem append (left : Spells dialect rests first front) (right : Spells dialect others second back)
    (meet : ∀ rest, others rest → rests (second.toList ++ rest)) :
    Spells dialect others (first ++ second) (front ++ back) := by
  intro rest ok
  rw [String.toList_append, List.append_assoc, left _ (meet rest ok), right rest ok,
    Option.map_map]
  simp [Function.comp_def]

theorem of_solid (h : solid none text.toList) :
    Spells dialect Parted text (text.toList.map plain) := by
  intro rest parted
  rw [lex, lexFrom_solid h, lexFrom_outside parted]

theorem of_fixed {before after : Nat} (h : Fixed text before after) :
    Spells dialect (fun _ => True) text (text.toList.map plain) := by
  obtain ⟨smooth, last, _⟩ := h
  intro rest _
  rw [lex, lexFrom_solid smooth, lexFrom_outside_of_apart]
  intro c _
  cases ends : text.toList.getLast? with
  | none => simp
  | some before =>
    rw [ends] at last
    simp [commentPair] at last ⊢
    grind

end Spells

namespace Cut

variable {dialect : Dialect} {allowed rests others : List Char → Prop} {a b c : Nat}
  {first second : String}

theorem safe {text : String} (h : Reads dialect allowed 0 0 text) :
    Safe dialect allowed text := by
  obtain ⟨tokens, cut, nested, literals⟩ := h
  exact ⟨tokens, Spells.whole cut, nested, literals⟩

theorem narrow (h : Cut dialect allowed rests a b first)
    (sub : ∀ rest, others rest → rests rest) : Cut dialect allowed others a b first := by
  obtain ⟨tokens, cut, nested, literals⟩ := h
  exact ⟨tokens, Spells.narrow cut sub, nested, literals⟩

theorem lift (h : Cut dialect allowed rests a b first) (n : Nat) :
    Cut dialect allowed rests (a + n) (b + n) first := by
  obtain ⟨tokens, cut, nested, literals⟩ := h
  exact ⟨tokens, cut, nesting_add nested n, literals⟩

theorem append (left : Cut dialect allowed rests a b first)
    (right : Cut dialect allowed others b c second)
    (meet : ∀ rest, others rest → rests (second.toList ++ rest)) :
    Cut dialect allowed others a c (first ++ second) := by
  obtain ⟨front, cutFront, nestedFront, literalsFront⟩ := left
  obtain ⟨back, cutBack, nestedBack, literalsBack⟩ := right
  refine ⟨front ++ back, Spells.append cutFront cutBack meet,
    nesting_append nestedFront nestedBack, ?_⟩
  intro literal member
  rcases List.mem_append.1 member with member | member
  · exact literalsFront literal member
  · exact literalsBack literal member

theorem next (left : Leads dialect allowed a b first)
    (right : Cut dialect allowed others b c second) :
    Cut dialect allowed others a c (first ++ second) :=
  left.append right fun _ _ => True.intro

theorem sep (left : Reads dialect allowed a b first)
    (right : Cut dialect allowed others b c second) (parted : Parted second.toList)
    (held : second.toList ≠ []) : Cut dialect allowed others a c (first ++ second) := by
  apply left.append right
  intro rest _
  cases chars : second.toList with
  | nil => exact absurd chars held
  | cons c cs => simpa [Parted, chars] using parted

theorem followed (left : Reads dialect allowed a b first)
    (right : Reads dialect allowed b c second) (parted : Parted second.toList) :
    Reads dialect allowed a c (first ++ second) :=
  left.append right fun _ ok => parted.append ok

theorem empty : Cut dialect allowed rests a a "" :=
  ⟨[], by simp, rfl, by simp⟩

theorem reads (h : Leads dialect allowed a b first) : Reads dialect allowed a b first :=
  h.narrow fun _ _ => True.intro

theorem not_mem_map_plain {literal cs : List Char} : .literal literal ∉ cs.map plain := by
  simp

theorem of_solid (text : String) (h : solid none text.toList)
    (nested : nesting a (text.toList.map plain) = some b) : Reads dialect allowed a b text :=
  ⟨text.toList.map plain, Spells.of_solid h, nested,
    fun _ member => absurd member not_mem_map_plain⟩

theorem of_fixed {text : String} (h : Fixed text a b) : Leads dialect allowed a b text :=
  ⟨text.toList.map plain, Spells.of_fixed h, h.2.2,
    fun _ member => absurd member not_mem_map_plain⟩

theorem of_flat {text : String} (h : Fixed text 0 0) : Leads dialect allowed a a text := by
  have lifted : Leads dialect allowed (0 + a) (0 + a) text := (of_fixed h).lift a
  rwa [Nat.zero_add] at lifted

theorem mark (left : Reads dialect allowed a b first) (text : String) (h : Fixed text b c)
    (separates : Parted text.toList ∧ text.toList ≠ []) :
    Leads dialect allowed a c (first ++ text) :=
  left.sep (of_fixed h) separates.1 separates.2

end Cut

end RelationQuery
