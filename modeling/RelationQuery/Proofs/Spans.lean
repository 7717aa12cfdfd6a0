import RelationQuery.Proofs.Admission
import RelationQuery.Proofs.Offsets

/-! Lexemes by the bytes they take. Main statement: read byte by byte, a text has the lexemes that
it has character by character, or the same fault, and no round of reading begins or ends inside a
character. -/
namespace RelationQuery.Expression.Lexeme

open Text

/-! ### Classes of characters -/

theorem isAscii_isWordPart : IsAscii isWordPart := by
  intro c inside
  simp only [isWordPart, Identifier.isPart, Char.isAlphanum, Bool.or_eq_true, beq_iff_eq] at inside
  rcases inside with (((letter | digit) | rfl) | rfl)
  · rcases Bool.or_eq_true_iff.1 letter with upper | lower
    · exact Nat.lt_of_le_of_lt (UInt32.le_iff_toNat_le.1 (of_decide_eq_true upper).2) (by decide)
    · have most : c.val ≤ 'z'.val := of_decide_eq_true (Bool.and_eq_true_iff.1 lower).2
      exact Nat.lt_of_le_of_lt (UInt32.le_iff_toNat_le.1 most) (by decide)
  · exact Nat.lt_of_le_of_lt (Char.isDigit_iff_toNat.1 digit).2 (by decide)
  · decide
  · decide

theorem isAscii_isStart : IsAscii Identifier.isStart :=
  fun c start => isAscii_isWordPart c (isWordPart_of_isStart start)

theorem isWordPart_eq (c : Char) : isWordPart c = (Identifier.isStart c || isNumberPart c) := by
  simp only [isWordPart, isNumberPart, Identifier.isPart, Identifier.isStart, Char.isAlphanum]
  grind

theorem isWordPart_of_isNumberPart {c : Char} (h : isNumberPart c) : isWordPart c := by
  rw [isWordPart_eq, h, Bool.or_true]

theorem isNumberPart_of_isDigit {c : Char} (digit : c.isDigit) : isNumberPart c := by
  simp [isNumberPart, digit]

theorem isAscii_isNumberPart : IsAscii isNumberPart :=
  fun c inside => isAscii_isWordPart c (isWordPart_of_isNumberPart inside)

theorem isAscii_isDigit : IsAscii Char.isDigit :=
  fun c digit => isAscii_isNumberPart c (isNumberPart_of_isDigit digit)

theorem isAscii_isGap : IsAscii isGap := by
  intro c inside
  simp only [isGap, Bool.or_eq_true, beq_iff_eq] at inside
  rcases inside with ((rfl | rfl) | rfl) | rfl <;> decide

theorem isAscii_isComparison : IsAscii isComparison := by
  intro c inside
  simp only [isComparison, Bool.or_eq_true, beq_iff_eq] at inside
  rcases inside with (rfl | rfl) | rfl <;> decide

theorem isAscii_isOperator : IsAscii isOperator := by
  intro c inside
  simp only [isOperator, Bool.or_eq_true, beq_iff_eq] at inside
  rcases inside with ((((rfl | rfl) | rfl) | rfl) | rfl) | rfl <;> decide

/-! ### Rounds -/

def readNumber? (s : String) (start : Nat) : Option (Except Fault (Kind × Nat)) :=
  let stop := skip isNumberPart s start
  (between? s start stop).map fun literal =>
    if 1 < literal.toList.count '.' || literal.toList.getLast? == some '.' ||
        (byte? s stop).any Identifier.isStart then
      .error (.malformedNumber literal.toList)
    else .ok (.number, stop)

def readComparison (s : String) (c : Char) (start : Nat) : Except Fault (Kind × Nat) :=
  if byte? s (start + 1) = some '=' ∨ (c = '<' ∧ byte? s (start + 1) = some '>') then
    .ok (.operator, start + 2)
  else if c = '!' then .error (.unexpected '!')
  else .ok (.operator, start + 1)

/-- One round: the kind of what begins at an offset and where it ends, or what is wrong there. There
is no outcome if no byte is there, or if a text is taken that ends inside a character. -/
def round? (s : String) (start : Nat) : Option (Except Fault (Kind × Nat)) :=
  (byte? s start).bind fun c =>
    if isGap c then some (.ok (.blank, start + 1))
    else if Identifier.isStart c then some (.ok (.word, skip isWordPart s start))
    else if c.isDigit then readNumber? s start
    else if c = '(' then some (.ok (.opening, start + 1))
    else if c = ')' then some (.ok (.closing, start + 1))
    else if c = ',' then some (.ok (.comma, start + 1))
    else if isComparison c then some (readComparison s c start)
    else if isOperator c then some (.ok (.operator, start + 1))
    else (between? s start s.utf8ByteSize).map fun rest =>
      .error (.unexpected (rest.toList.head?.getD '?'))

theorem lt_of_readNumber? {s : String} {start stop : Nat} {kind : Kind}
    (first : (byte? s start).any isNumberPart)
    (h : readNumber? s start = some (.ok (kind, stop))) : start < stop := by
  obtain ⟨literal, _, outcome⟩ := Option.map_eq_some_iff.1 h
  split at outcome
  · cases outcome
  · cases outcome
    exact lt_skip first

theorem lt_of_readComparison {s : String} {c : Char} {start stop : Nat} {kind : Kind}
    (h : readComparison s c start = .ok (kind, stop)) : start < stop := by
  unfold readComparison at h
  split at h
  · cases h
    omega
  · split at h <;> cases h
    omega

theorem lt_of_round? {s : String} {start stop : Nat} {kind : Kind}
    (h : round? s start = some (.ok (kind, stop))) : start < stop := by
  obtain ⟨c, here, h⟩ := Option.bind_eq_some_iff.1 h
  split at h
  · cases h
    exact Nat.lt_succ_self _
  split at h
  · next letter =>
    cases h
    exact lt_skip (by rw [here]; exact isWordPart_of_isStart letter)
  split at h
  · next digit =>
    exact lt_of_readNumber? (by rw [here]; exact isNumberPart_of_isDigit digit) h
  iterate 3
    split at h
    · cases h
      exact Nat.lt_succ_self _
  split at h
  · exact lt_of_readComparison (Option.some.inj h)
  split at h
  · cases h
    exact Nat.lt_succ_self _
  · obtain ⟨_, _, outcome⟩ := Option.map_eq_some_iff.1 h
    cases outcome

structure Span where
  kind : Kind
  start : Nat
  stop : Nat
  deriving DecidableEq

def spansFrom? (s : String) (start : Nat) : Option (Except Fault (List Span)) :=
  if start < s.utf8ByteSize then
    match _h : round? s start with
    | none => none
    | some (.error fault) => some (.error fault)
    | some (.ok (kind, stop)) =>
      (spansFrom? s stop).map fun rest =>
        if kind = .blank then rest else rest.map (⟨kind, start, stop⟩ :: ·)
  else some (.ok [])
termination_by s.utf8ByteSize - start
decreasing_by
  have := lt_of_round? _h
  omega

def tokenize? (s : String) : Option (Except Fault (List Span)) := spansFrom? s 0

/-! ### Rounds are cuts -/

theorem leading_eq_iff {c d : Char} (small : d.toNat < 128) : leading c = d ↔ c = d := by
  have ascii : IsAscii (· == d) := by
    intro c same
    obtain rfl : c = d := by simpa using same
    exact small
  simpa using ascii.apply_leading c

theorem width_append_singleton {c : Char} (small : c.toNat < 128) (before : List Char) :
    width (before ++ [c]) = width before + 1 := by
  simp [utf8Size_of_lt small]

theorem byte?_append_next {c : Char} (small : c.toNat < 128) (before cs : List Char) :
    byte? (String.ofList (before ++ c :: cs)) (width before + 1) = cs.head?.map leading := by
  have next := byte?_append (before ++ [c]) cs
  rwa [List.append_assoc, width_append_singleton small] at next

theorem readNumber?_append {c : Char} (digit : c.isDigit) (before cs : List Char) :
    readNumber? (String.ofList (before ++ c :: cs)) (width before) =
      some ((cutNumber c cs).map fun found => (found.1.kind, width (before ++ found.1.text))) := by
  have literal : (c :: cs).takeWhile isNumberPart = c :: cs.takeWhile isNumberPart :=
    List.takeWhile_cons_of_pos (isNumberPart_of_isDigit digit)
  have whole : before ++ c :: cs =
      before ++ c :: cs.takeWhile isNumberPart ++ cs.dropWhile isNumberPart := by simp
  rw [readNumber?, isAscii_isNumberPart.skip_append, literal, cutNumber]
  generalize c :: cs.takeWhile isNumberPart = literal at whole ⊢
  generalize cs.dropWhile isNumberPart = rest at whole ⊢
  have opposite : (decide (1 < literal.count '.') || literal.getLast? == some '.' ||
      rest.head?.any Identifier.isStart) = !isNumber literal rest := by
    rw [isNumber, Bool.not_and, Bool.not_and, bne, Bool.not_not, Bool.not_not, ← decide_not]
    simp only [Nat.not_le]
  simp only [whole, between?_append, isAscii_isStart.any_byte?, Option.map_some,
    String.toList_ofList, opposite]
  cases isNumber literal rest <;> rfl

theorem readComparison_append {c : Char} (comparison : isComparison c) (before cs : List Char) :
    readComparison (String.ofList (before ++ c :: cs)) c (width before) =
      (cutComparison c cs).map fun found => (found.1.kind, width (before ++ found.1.text)) := by
  have small : c.toNat < 128 := isAscii_isComparison c comparison
  have next {d : Char} (small' : d.toNat < 128) :
      byte? (String.ofList (before ++ c :: cs)) (width before + 1) = some d ↔
        cs.head? = some d := by
    rw [byte?_append_next small]
    cases cs with
    | nil => simp
    | cons e _ => simp [leading_eq_iff small']
  rw [readComparison, cutComparison]
  simp only [next (by decide : '='.toNat < 128), next (by decide : '>'.toNat < 128)]
  by_cases follows : cs.head? = some '=' ∨ (c = '<' ∧ cs.head? = some '>')
  · obtain ⟨d, rest, rfl, small'⟩ : ∃ d rest, cs = d :: rest ∧ d.toNat < 128 := by
      cases cs with
      | nil => simp at follows
      | cons d rest =>
        simp only [List.head?_cons, Option.some.injEq] at follows
        refine ⟨d, rest, rfl, ?_⟩
        rcases follows with rfl | ⟨_, rfl⟩ <;> decide
    have two : width (before ++ [c, d]) = width before + 2 := by
      simp [utf8Size_of_lt small, utf8Size_of_lt small']
    rw [if_pos follows, if_pos follows, ← two]
    rfl
  · rw [if_neg follows, if_neg follows]
    by_cases mark : c = '!'
    · rw [if_pos mark, if_pos mark, mark]
      rfl
    · rw [if_neg mark, if_neg mark, ← width_append_singleton small]
      rfl

theorem round?_append (before : List Char) (c : Char) (cs : List Char) :
    round? (String.ofList (before ++ c :: cs)) (width before) =
      some ((cut c cs).map fun found => (found.1.kind, width (before ++ found.1.text))) := by
  rw [round?, byte?_append, List.head?_cons, Option.map_some, Option.bind_some, cut]
  -- No class is left by taking the first byte for the character, so both sides test alike.
  simp only [isAscii_isGap.apply_leading, isAscii_isStart.apply_leading,
    isAscii_isDigit.apply_leading, isAscii_isComparison.apply_leading,
    isAscii_isOperator.apply_leading, leading_eq_iff (by decide : '('.toNat < 128),
    leading_eq_iff (by decide : ')'.toNat < 128), leading_eq_iff (by decide : ','.toNat < 128)]
  have one {kind : Kind} (small : c.toNat < 128) : some (.ok (kind, width before + 1)) =
      some (Except.map (fun found : Lexeme × List Char =>
        (found.1.kind, width (before ++ found.1.text))) (.ok (⟨kind, [c]⟩, cs)) :
          Except Fault (Kind × Nat)) := by
    rw [← width_append_singleton small]
    rfl
  by_cases gap : isGap c
  · rw [if_pos gap, if_pos gap]
    exact one (isAscii_isGap c gap)
  rw [if_neg gap, if_neg gap]
  by_cases start : Identifier.isStart c
  · have literal : (c :: cs).takeWhile isWordPart = c :: cs.takeWhile isWordPart :=
      List.takeWhile_cons_of_pos (isWordPart_of_isStart start)
    rw [if_pos start, if_pos start, isAscii_isWordPart.skip_append, literal]
    rfl
  rw [if_neg start, if_neg start]
  by_cases digit : c.isDigit
  · rw [if_pos digit, if_pos digit, readNumber?_append digit]
  rw [if_neg digit, if_neg digit]
  by_cases opening : c = '('
  · rw [if_pos opening, if_pos opening]
    exact one (by rw [opening]; decide)
  rw [if_neg opening, if_neg opening]
  by_cases closing : c = ')'
  · rw [if_pos closing, if_pos closing]
    exact one (by rw [closing]; decide)
  rw [if_neg closing, if_neg closing]
  by_cases comma : c = ','
  · rw [if_pos comma, if_pos comma]
    exact one (by rw [comma]; decide)
  rw [if_neg comma, if_neg comma]
  by_cases comparison : isComparison c
  · rw [if_pos comparison, if_pos comparison, leading_of_lt (isAscii_isComparison c comparison),
      readComparison_append comparison]
  rw [if_neg comparison, if_neg comparison]
  by_cases operator : isOperator c
  · rw [if_pos operator, if_pos operator]
    exact one (isAscii_isOperator c operator)
  rw [if_neg operator, if_neg operator, utf8ByteSize_ofList, between?_end]
  simp [Except.map]

def spans (start : Nat) : List Lexeme → List Span
  | [] => []
  | lexeme :: rest =>
    let stop := start + width lexeme.text
    if lexeme.kind = .blank then spans stop rest
    else ⟨lexeme.kind, start, stop⟩ :: spans stop rest

theorem spansFrom?_eq {s : String} {start : Nat} (inside : start < s.utf8ByteSize) :
    spansFrom? s start = match round? s start with
      | none => none
      | some (.error fault) => some (.error fault)
      | some (.ok (kind, stop)) => (spansFrom? s stop).map fun rest =>
        if kind = .blank then rest else rest.map (⟨kind, start, stop⟩ :: ·) := by
  rw [spansFrom?, if_pos inside]
  split
  · next torn => rw [torn]
  · next stopped => rw [stopped]
  · next goes => rw [goes]

/-- By induction on the scan: the next round begins behind what was cut off. -/
theorem spansFrom?_append (before cs : List Char) :
    spansFrom? (String.ofList (before ++ cs)) (width before) =
      some ((scan cs).map (spans (width before))) := by
  have inside (before : List Char) (c : Char) (cs : List Char) :
      width before < (String.ofList (before ++ c :: cs)).utf8ByteSize := by
    rw [utf8ByteSize_ofList, width_append]
    exact Nat.lt_add_of_pos_right (width_pos (by simp))
  fun_induction scan cs generalizing before with
  | case1 =>
    rw [spansFrom?, if_neg (by simp)]
    rfl
  | case2 c cs fault stopped =>
    rw [spansFrom?_eq (inside before c cs), round?_append, stopped]
    rfl
  | case3 c cs lexeme rest found ih =>
    have further := ih (before ++ lexeme.text)
    rw [List.append_assoc, cut_text found] at further
    rw [spansFrom?_eq (inside before c cs), round?_append, found]
    simp only [Except.map, further]
    cases scan rest with
    | error => simp
    | ok more => by_cases blank : lexeme.kind = .blank <;> simp [spans, blank]

theorem tokenize?_eq (s : String) :
    tokenize? s = some ((scan s.toList).map (spans 0)) := by
  have whole := spansFrom?_append [] s.toList
  rwa [List.nil_append, String.ofList_toList, width_nil] at whole

end RelationQuery.Expression.Lexeme
