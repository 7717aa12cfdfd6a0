import RelationQuery.Identifier

/-! Expressions are cut into lexemes that together are the whole text, blanks included. -/
namespace RelationQuery.Expression

inductive Lexeme.Kind where
  | blank
  | word
  | number
  | operator
  | opening
  | closing
  | comma
  deriving DecidableEq

structure Lexeme where
  kind : Lexeme.Kind
  text : List Char
  deriving DecidableEq

namespace Lexeme

inductive Fault where
  | malformedNumber (literal : List Char)
  | unexpected (c : Char)
  deriving DecidableEq

def Fault.message : Fault → String
  | .malformedNumber literal => "malformed number near \x60" ++ String.ofList literal ++ "\x60"
  | .unexpected c => "unexpected character \x60" ++ c.toString ++ "\x60"

/-- An expression is narrower about blanks than names are. -/
def isGap (c : Char) : Bool := c == ' ' || c == '\t' || c == '\n' || c == '\r'

def isWordPart (c : Char) : Bool := Identifier.isPart c || c == '.'

def isNumberPart (c : Char) : Bool := c.isDigit || c == '.'

def isOperator (c : Char) : Bool :=
  c == '=' || c == '+' || c == '-' || c == '*' || c == '/' || c == '%'

def isComparison (c : Char) : Bool := c == '<' || c == '>' || c == '!'

/-- Digits with at most one dot, digits on both its sides, and no letter next to them. -/
def isNumber (literal rest : List Char) : Bool :=
  literal.count '.' ≤ 1 && literal.getLast? != some '.' && !rest.head?.any Identifier.isStart

def cutNumber (c : Char) (cs : List Char) : Except Fault (Lexeme × List Char) :=
  if isNumber (c :: cs.takeWhile isNumberPart) (cs.dropWhile isNumberPart) then
    .ok (⟨.number, c :: cs.takeWhile isNumberPart⟩, cs.dropWhile isNumberPart)
  else
    .error (.malformedNumber (c :: cs.takeWhile isNumberPart))

/-- A comparison takes a following `=` in, and `<` also a `>`; `!` does not stand alone. -/
def cutComparison (c : Char) (cs : List Char) : Except Fault (Lexeme × List Char) :=
  if cs.head? = some '=' ∨ (c = '<' ∧ cs.head? = some '>') then
    .ok (⟨.operator, c :: cs.take 1⟩, cs.drop 1)
  else if c = '!' then
    .error (.unexpected c)
  else
    .ok (⟨.operator, [c]⟩, cs)

def cut (c : Char) (cs : List Char) : Except Fault (Lexeme × List Char) :=
  if isGap c then .ok (⟨.blank, [c]⟩, cs)
  else if Identifier.isStart c then
    .ok (⟨.word, c :: cs.takeWhile isWordPart⟩, cs.dropWhile isWordPart)
  else if c.isDigit then cutNumber c cs
  else if c = '(' then .ok (⟨.opening, [c]⟩, cs)
  else if c = ')' then .ok (⟨.closing, [c]⟩, cs)
  else if c = ',' then .ok (⟨.comma, [c]⟩, cs)
  else if isComparison c then cutComparison c cs
  else if isOperator c then .ok (⟨.operator, [c]⟩, cs)
  else .error (.unexpected c)

theorem cut_text {c : Char} {cs rest : List Char} {lexeme : Lexeme}
    (h : cut c cs = .ok (lexeme, rest)) : lexeme.text ++ rest = c :: cs := by
  unfold cut cutNumber cutComparison at h
  repeat' split at h
  all_goals
    simp only [Except.ok.injEq, Prod.mk.injEq, reduceCtorEq] at h <;>
      obtain ⟨rfl, rfl⟩ := h <;> simp [-List.drop_one]

theorem cut_text_ne_nil {c : Char} {cs rest : List Char} {lexeme : Lexeme}
    (h : cut c cs = .ok (lexeme, rest)) : lexeme.text ≠ [] := by
  unfold cut cutNumber cutComparison at h
  repeat' split at h
  all_goals
    simp only [Except.ok.injEq, Prod.mk.injEq, reduceCtorEq] at h <;>
      obtain ⟨rfl, rfl⟩ := h <;> simp

theorem length_of_cut {c : Char} {cs rest : List Char} {lexeme : Lexeme}
    (h : cut c cs = .ok (lexeme, rest)) : rest.length ≤ cs.length := by
  have length := congrArg List.length (cut_text h)
  have := List.length_pos_iff.2 (cut_text_ne_nil h)
  simp only [List.length_append, List.length_cons] at length
  omega

def scan : List Char → Except Fault (List Lexeme)
  | [] => .ok []
  | c :: cs =>
    match _h : cut c cs with
    | .error fault => .error fault
    | .ok (lexeme, rest) => (scan rest).map (lexeme :: ·)
termination_by cs => cs.length
decreasing_by
  have := length_of_cut _h
  simp only [List.length_cons]
  omega

/-- The lexemes of a text are that text. -/
theorem flatten_scan {cs : List Char} {lexemes : List Lexeme} (h : scan cs = .ok lexemes) :
    (lexemes.map Lexeme.text).flatten = cs := by
  fun_induction scan cs generalizing lexemes with
  | case1 => cases h; rfl
  | case2 => cases h
  | case3 c cs lexeme rest hcut ih =>
    cases hrest : scan rest with
    | error fault => simp [hrest, Except.map] at h
    | ok more =>
      simp only [hrest, Except.map, Except.ok.injEq] at h
      subst h
      simp [ih hrest, cut_text hcut]

end Lexeme

end RelationQuery.Expression
