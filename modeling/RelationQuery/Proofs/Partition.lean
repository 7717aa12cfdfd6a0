import RelationQuery.Proofs.Spans

/-! What a text is parted into by its spans. Main statement: each round of reading goes on to where
a character begins or ends all, and spans come one behind the other, leave out nothing but blanks
and, if they are words or numbers, end only where these have to. -/
namespace RelationQuery.Expression.Lexeme

open Text

/-! ### What is cut off -/

def IsDecimal (cs : List Char) : Prop :=
  ∃ whole, whole ≠ [] ∧ (∀ c ∈ whole, c.isDigit) ∧
    (cs = whole ∨
      ∃ fraction, fraction ≠ [] ∧ (∀ c ∈ fraction, c.isDigit) ∧ cs = whole ++ '.' :: fraction)

def Shaped : Kind → List Char → Prop
  | .blank, text => ∀ c ∈ text, c ∈ [' ', '\t', '\n', '\r']
  | .word, text => (∃ c ∈ text.head?, Identifier.isStart c) ∧ ∀ c ∈ text, isWordPart c
  | .number, text => IsDecimal text
  | _, text => ∀ c ∈ text, isWordPart c = false

/-- No word or number goes on from the one text in the other. -/
def Breaks (front back : List Char) : Prop :=
  ¬(front.getLast?.any isWordPart ∧ back.head?.any isWordPart)

theorem Breaks.append_left {front text back : List Char} (held : text ≠ [])
    (h : Breaks text back) : Breaks (front ++ text) back := by
  rwa [Breaks, List.getLast?_append_of_ne_nil _ held]

theorem Breaks.of_append_right {front text back : List Char} (held : text ≠ [])
    (h : Breaks front (text ++ back)) : Breaks front text := by
  rwa [Breaks, List.head?_append_of_ne_nil _ held] at h

theorem not_isWordPart_of_isComparison {c : Char} (h : isComparison c) : isWordPart c = false := by
  simp only [isComparison, Bool.or_eq_true, beq_iff_eq] at h
  rcases h with (rfl | rfl) | rfl <;> decide

theorem not_isWordPart_of_isOperator {c : Char} (h : isOperator c) : isWordPart c = false := by
  simp only [isOperator, Bool.or_eq_true, beq_iff_eq] at h
  rcases h with ((((rfl | rfl) | rfl) | rfl) | rfl) | rfl <;> decide

theorem not_isWordPart_of_isGap {c : Char} (h : isGap c) : isWordPart c = false := by
  simp only [isGap, Bool.or_eq_true, beq_iff_eq] at h
  rcases h with ((rfl | rfl) | rfl) | rfl <;> decide

theorem cut_cases {c : Char} {cs rest : List Char} {lexeme : Lexeme}
    (h : cut c cs = .ok (lexeme, rest)) :
    (isGap c ∧ lexeme = ⟨.blank, [c]⟩ ∧ rest = cs) ∨
    (Identifier.isStart c ∧ lexeme = ⟨.word, c :: cs.takeWhile isWordPart⟩ ∧
      rest = cs.dropWhile isWordPart) ∨
    (c.isDigit ∧ lexeme = ⟨.number, c :: cs.takeWhile isNumberPart⟩ ∧
      rest = cs.dropWhile isNumberPart ∧ isNumber lexeme.text rest) ∨
    (lexeme.kind ∈ [.opening, .closing, .comma, .operator] ∧
      ∀ d ∈ lexeme.text, isWordPart d = false) := by
  unfold cut at h
  split at h
  · next gap =>
    cases h
    exact .inl ⟨gap, rfl, rfl⟩
  split at h
  · next start =>
    cases h
    exact .inr (.inl ⟨start, rfl, rfl⟩)
  split at h
  · next digit =>
    unfold cutNumber at h
    split at h <;> cases h
    next number => exact .inr (.inr (.inl ⟨digit, rfl, rfl, number⟩))
  refine .inr (.inr (.inr ?_))
  iterate 3
    split at h
    · next mark =>
      cases h
      refine ⟨by simp, fun d member => ?_⟩
      rw [List.mem_singleton.1 member, mark]
      decide
  split at h
  · next comparison =>
    have outside : isWordPart c = false := not_isWordPart_of_isComparison comparison
    unfold cutComparison at h
    split at h
    · next follows =>
      cases h
      refine ⟨by simp, fun d member => ?_⟩
      rcases List.mem_cons.1 member with rfl | member
      · exact outside
      · have next : cs.head? = some d := by
          cases cs with
          | nil => cases member
          | cons e _ => rw [List.mem_singleton.1 member]; rfl
        rcases follows with equals | ⟨_, greater⟩
        · obtain rfl : d = '=' := by simpa [next] using equals
          decide
        · obtain rfl : d = '>' := by simpa [next] using greater
          decide
    · split at h <;> cases h
      exact ⟨by simp, by simpa using outside⟩
  split at h
  · next operator =>
    cases h
    exact ⟨by simp, by simpa using not_isWordPart_of_isOperator operator⟩
  · cases h

theorem isDecimal_of_isNumber {c : Char} {more rest : List Char} (digit : c.isDigit)
    (parts : ∀ d ∈ more, isNumberPart d) (h : isNumber (c :: more) rest) :
    IsDecimal (c :: more) := by
  simp only [isNumber, Bool.and_eq_true, decide_eq_true_eq, bne_iff_ne, ne_eq] at h
  obtain ⟨⟨dots, last⟩, _⟩ := h
  have digits {cs : List Char} (inside : cs ⊆ c :: more) (plain : '.' ∉ cs) :
      ∀ d ∈ cs, d.isDigit := by
    intro d member
    have part : isNumberPart d := by
      rcases List.mem_cons.1 (inside member) with rfl | member
      · exact isNumberPart_of_isDigit digit
      · exact parts d member
    simp only [isNumberPart, Bool.or_eq_true, beq_iff_eq] at part
    rcases part with digit | rfl
    · exact digit
    · exact absurd member plain
  by_cases dot : '.' ∈ c :: more
  · obtain ⟨whole, fraction, parted, plain⟩ := List.eq_append_cons_of_mem dot
    have bare : '.' ∉ fraction := by
      rw [parted, List.count_append, List.count_cons_self, List.count_eq_zero.2 plain] at dots
      exact List.count_eq_zero.1 (by omega)
    refine ⟨whole, ?_, digits (by simp [parted]) plain, .inr ⟨fraction, ?_, ?_, parted⟩⟩
    · rintro rfl
      obtain ⟨rfl, _⟩ := List.cons_eq_cons.1 parted
      cases digit
    · rintro rfl
      simp [parted] at last
    · exact digits (by simp [parted]) bare
  · exact ⟨c :: more, by simp, digits (List.Subset.refl _) dot, .inl rfl⟩

theorem shaped_of_cut {c : Char} {cs rest : List Char} {lexeme : Lexeme}
    (h : cut c cs = .ok (lexeme, rest)) : Shaped lexeme.kind lexeme.text := by
  rcases cut_cases h with ⟨gap, rfl, rfl⟩ | ⟨start, rfl, rfl⟩ | ⟨digit, rfl, rfl, number⟩ |
    ⟨kind, outside⟩
  · simp only [isGap, Bool.or_eq_true, beq_iff_eq, or_assoc] at gap
    simpa [Shaped] using gap
  · refine ⟨⟨c, rfl, start⟩, ?_⟩
    intro d member
    rcases List.mem_cons.1 member with rfl | member
    · exact isWordPart_of_isStart start
    · exact List.mem_takeWhile_imp member
  · exact isDecimal_of_isNumber digit (fun d member => List.mem_takeWhile_imp member) number
  · obtain ⟨kind', text⟩ := lexeme
    simp only [List.mem_cons, List.not_mem_nil, or_false] at kind
    rcases kind with rfl | rfl | rfl | rfl <;> exact outside

theorem breaks_of_cut {c : Char} {cs rest : List Char} {lexeme : Lexeme}
    (h : cut c cs = .ok (lexeme, rest)) : Breaks lexeme.text rest := by
  rintro ⟨last, first⟩
  obtain ⟨d, here, within⟩ := (Option.any_eq_true _ _).1 last
  obtain ⟨e, next, inside⟩ := (Option.any_eq_true _ _).1 first
  have apart {p : Char → Bool} {cs : List Char} (tail : rest = cs.dropWhile p) : p e = false := by
    have head := List.head?_dropWhile_not p cs
    rw [← tail, next] at head
    simpa using head
  rcases cut_cases h with ⟨gap, rfl, rfl⟩ | ⟨start, rfl, tail⟩ | ⟨digit, rfl, tail, number⟩ |
    ⟨kind, outside⟩
  · obtain rfl : c = d := by simpa using here
    rw [not_isWordPart_of_isGap gap] at within
    cases within
  · rw [apart tail] at inside
    cases inside
  · have letter : Identifier.isStart e = false := by
      simp only [isNumber, Bool.and_eq_true, next] at number
      simpa using number.2
    rw [isWordPart_eq, letter, apart tail] at inside
    cases inside
  · rw [outside d (List.mem_of_getLast? here)] at within
    cases within

inductive Scanned : List Char → List Lexeme → Prop where
  | nil : Scanned [] []
  | cons {c : Char} {cs rest : List Char} {lexeme : Lexeme} {more : List Lexeme}
    (found : cut c cs = .ok (lexeme, rest)) (later : Scanned rest more) :
    Scanned (c :: cs) (lexeme :: more)

theorem scanned_of_scan {cs : List Char} {lexemes : List Lexeme} (h : scan cs = .ok lexemes) :
    Scanned cs lexemes := by
  fun_induction scan cs generalizing lexemes with
  | case1 =>
    cases h
    exact .nil
  | case2 => cases h
  | case3 c cs lexeme rest found ih =>
    cases scanned : scan rest with
    | error => simp [scanned, Except.map] at h
    | ok more =>
      simp only [scanned, Except.map, Except.ok.injEq] at h
      subst h
      exact .cons found (ih scanned)

/-! ### Where the spans are -/

structure Span.Takes (span : Span) (cs front text back : List Char) : Prop where
  parted : cs = front ++ text ++ back
  filled : text ≠ []
  start : span.start = width front
  stop : span.stop = width (front ++ text)
  shaped : Shaped span.kind text
  opens : Breaks front text
  closes : Breaks text back

theorem exists_of_mem_spans {cs : List Char} {lexemes : List Lexeme} (h : Scanned cs lexemes)
    {before : List Char} (apart : Breaks before cs) {span : Span}
    (member : span ∈ spans (width before) lexemes) :
    ∃ front text back, span.Takes (before ++ cs) front text back := by
  induction h generalizing before with
  | nil => cases member
  | @cons c cs rest lexeme more found _ ih =>
    have held : lexeme.text ≠ [] := cut_text_ne_nil found
    have parted : before ++ c :: cs = before ++ lexeme.text ++ rest := by
      rw [List.append_assoc, cut_text found]
    have later (member : span ∈ spans (width (before ++ lexeme.text)) more) :=
      ih ((breaks_of_cut found).append_left held) member
    rw [← parted] at later
    rw [spans, ← width_append] at member
    split at member
    · exact later member
    · rcases List.mem_cons.1 member with rfl | member
      · rw [← cut_text found] at apart
        exact ⟨before, lexeme.text, rest, parted, held, rfl, rfl, shaped_of_cut found,
          apart.of_append_right held, breaks_of_cut found⟩
      · exact later member

theorem le_start_of_mem_spans {start : Nat} {lexemes : List Lexeme} {span : Span}
    (member : span ∈ spans start lexemes) : start ≤ span.start := by
  induction lexemes generalizing start with
  | nil => cases member
  | cons lexeme rest ih =>
    rw [spans] at member
    split at member
    · exact Nat.le_trans (Nat.le_add_right _ _) (ih member)
    · rcases List.mem_cons.1 member with rfl | member
      · exact Nat.le_refl _
      · exact Nat.le_trans (Nat.le_add_right _ _) (ih member)

theorem pairwise_spans (start : Nat) (lexemes : List Lexeme) :
    (spans start lexemes).Pairwise fun span later => span.stop ≤ later.start := by
  induction lexemes generalizing start with
  | nil => exact .nil
  | cons lexeme rest ih =>
    rw [spans]
    split
    · exact ih _
    · exact .cons (fun span member => le_start_of_mem_spans member) (ih _)

def gaps (cursor size : Nat) : List Span → List (Nat × Nat)
  | [] => [(cursor, size)]
  | span :: rest => (cursor, span.start) :: gaps span.stop size rest

theorem blank_of_mem_gaps {cs : List Char} {lexemes : List Lexeme} (h : Scanned cs lexemes)
    {front blank : List Char} (blanks : Shaped .blank blank) {gap : Nat × Nat}
    (member : gap ∈ gaps (width front) (width (front ++ blank ++ cs))
      (spans (width (front ++ blank)) lexemes)) :
    ∃ text, Shaped .blank text ∧
      between? (String.ofList (front ++ blank ++ cs)) gap.1 gap.2 = some (String.ofList text) := by
  induction h generalizing front blank with
  | nil =>
    obtain rfl := List.mem_singleton.1 member
    rw [List.append_nil]
    exact ⟨blank, blanks, between?_end front blank⟩
  | @cons c cs rest lexeme more found _ ih =>
    have parted : front ++ blank ++ c :: cs = front ++ blank ++ lexeme.text ++ rest := by
      rw [List.append_assoc _ lexeme.text, cut_text found]
    rw [parted] at member ⊢
    rw [spans, ← width_append] at member
    split at member
    · next passed =>
      have shaped := shaped_of_cut found
      rw [passed] at shaped
      rw [List.append_assoc front] at member ⊢
      refine ih (fun c inside => ?_) member
      exact (List.mem_append.1 inside).elim (blanks c) (shaped c)
    · rcases List.mem_cons.1 member with rfl | member
      · refine ⟨blank, blanks, ?_⟩
        rw [List.append_assoc _ lexeme.text]
        exact between?_append front blank (lexeme.text ++ rest)
      · -- Behind a span nothing has been passed over yet.
        have later := @ih (front ++ blank ++ lexeme.text) [] (List.forall_mem_nil _)
        rw [List.append_nil] at later
        exact later member

/-! ### Written span by span -/

/-- A text written anew from an offset on; what is between spans is copied. There is no outcome if a
text is taken that ends inside a character. -/
def rewriteFrom? (s : String) (write : Span → List Span → String → String) (cursor : Nat) :
    List Span → Option String
  | [] => between? s cursor s.utf8ByteSize
  | span :: rest => do
    let gap ← between? s cursor span.start
    let text ← between? s span.start span.stop
    let more ← rewriteFrom? s write span.stop rest
    return gap ++ write span rest text ++ more

def Span.sql (mode : Mode) (dialect : Dialect) (owner : String) (span : Span) (rest : List Span)
    (text : String) : String :=
  if span.kind = .word then
    if rest.head?.any (·.kind == .opening) || Text.isListed mode.keywords text.toList then text
    else dialect.quote (Name.qualify owner text)
  else text

theorem any_head?_spans (start : Nat) (lexemes : List Lexeme) :
    (spans start lexemes).head?.any (·.kind == .opening) = isCalled lexemes := by
  induction lexemes generalizing start with
  | nil => rfl
  | cons lexeme rest ih =>
    rw [spans]
    by_cases blank : lexeme.kind = .blank
    · simpa [blank, isCalled] using ih _
    · simp [blank, isCalled]

theorem Span.sql_eq {mode : Mode} {lexeme : Lexeme} {rest : List Lexeme} {piece : Piece}
    (classified : if lexeme.kind = .word then
      classifyWord mode lexeme.text (isCalled rest) = .ok piece else piece = .copied lexeme.text)
    (dialect : Dialect) (owner : String) (start stop : Nat) :
    Span.sql mode dialect owner ⟨lexeme.kind, start, stop⟩ (spans stop rest)
      (String.ofList lexeme.text) = piece.sql dialect owner := by
  simp only [Span.sql, any_head?_spans, String.toList_ofList]
  by_cases word : lexeme.kind = .word
  · rw [if_pos word] at classified ⊢
    rcases of_classifyWord classified with ⟨rfl, copied⟩ | ⟨rfl, plain, unlisted, _⟩
    · rw [if_pos]
      · rfl
      · rcases copied with ⟨called, _⟩ | ⟨_, listed⟩
        · rw [called, Bool.true_or]
        · rw [listed, Bool.or_true]
    · rw [plain, unlisted]
      rfl
  · rw [if_neg word] at classified ⊢
    rw [classified]
    rfl

/-- By induction on the lexemes: `blank` is what was passed over since the last span, and it is
copied with the next one. -/
theorem rewriteFrom?_spans {mode : Mode} (dialect : Dialect) (owner : String) {cs : List Char}
    {lexemes : List Lexeme} (h : Scanned cs lexemes) {pieces : List Piece}
    (classified : classify mode lexemes = .ok pieces) (front blank : List Char) :
    rewriteFrom? (String.ofList (front ++ blank ++ cs)) (Span.sql mode dialect owner) (width front)
      (spans (width (front ++ blank)) lexemes) =
        some (String.ofList blank ++ String.join (pieces.map (Piece.sql dialect owner))) := by
  induction h generalizing front blank pieces with
  | nil =>
    cases classified
    rw [List.append_nil, spans, rewriteFrom?, utf8ByteSize_ofList, between?_end]
    simp [String.join]
  | @cons c cs rest lexeme more found _ ih =>
    obtain ⟨piece, others, rfl, later, this⟩ := exists_of_classify classified
    have parted : front ++ blank ++ c :: cs = front ++ blank ++ lexeme.text ++ rest := by
      rw [List.append_assoc _ lexeme.text, cut_text found]
    rw [parted, spans, ← width_append]
    split
    · next passed =>
      obtain rfl : piece = .copied lexeme.text := by simpa [passed] using this
      rw [List.append_assoc front, ih later, List.map_cons, String.join_cons, String.ofList_append,
        String.append_assoc]
      rfl
    · have first := between?_append front blank (lexeme.text ++ rest)
      rw [← List.append_assoc] at first
      have further := ih later (front ++ blank ++ lexeme.text) []
      rw [List.append_nil] at further
      rw [rewriteFrom?, first, between?_append, further, List.map_cons, String.join_cons]
      simp [Span.sql_eq this, String.append_assoc]

/-! ### Parted texts -/

/-- How spans part a text: where they are, what they leave out, what is in them, and that words and
numbers do not go on at their ends. -/
structure Partition (s : String) (spans : List Span) : Prop where
  filled : ∀ span ∈ spans, span.start < span.stop
  ordered : spans.Pairwise fun span later => span.stop ≤ later.start
  within : ∀ span ∈ spans, span.stop ≤ s.utf8ByteSize
  boundaries : ∀ span ∈ spans, IsBoundary s span.start ∧ IsBoundary s span.stop
  blank : ∀ gap ∈ gaps 0 s.utf8ByteSize spans, ∃ text, between? s gap.1 gap.2 = some text ∧
    ∀ c ∈ text.toList, c ∈ [' ', '\t', '\n', '\r']
  shaped : ∀ span ∈ spans, ∃ text, between? s span.start span.stop = some text ∧
    Shaped span.kind text.toList
  maximal : ∀ span ∈ spans, span.kind = .word ∨ span.kind = .number →
    ∃ front back, between? s 0 span.start = some front ∧
      between? s span.stop s.utf8ByteSize = some back ∧
      ¬front.toList.getLast?.any isWordPart ∧ ¬back.toList.head?.any isWordPart

theorem Shaped.isWordPart {kind : Kind} {text : List Char} (h : Shaped kind text)
    (going : kind = .word ∨ kind = .number) : ∀ c ∈ text, isWordPart c := by
  rcases going with rfl | rfl
  · exact h.2
  · have digit {c : Char} (h : c.isDigit) : Lexeme.isWordPart c :=
      isWordPart_of_isNumberPart (isNumberPart_of_isDigit h)
    obtain ⟨whole, _, digits, rfl | ⟨fraction, _, more, rfl⟩⟩ := h
    · exact fun c member => digit (digits c member)
    · intro c member
      rcases List.mem_append.1 member with front | back
      · exact digit (digits c front)
      · rcases List.mem_cons.1 back with rfl | back
        · decide
        · exact digit (more c back)

theorem Span.Takes.of_mem_spans {cs : List Char} {lexemes : List Lexeme} (h : Scanned cs lexemes)
    {span : Span} (member : span ∈ spans 0 lexemes) :
    ∃ front text back, span.Takes cs front text back :=
  @exists_of_mem_spans cs lexemes h [] (by simp [Breaks]) span member

theorem Span.Takes.maximal {span : Span} {cs front text back : List Char}
    (h : span.Takes cs front text back) (going : span.kind = .word ∨ span.kind = .number) :
    ¬front.getLast?.any isWordPart ∧ ¬back.head?.any isWordPart := by
  have inside := h.shaped.isWordPart going
  have first : text.head?.any isWordPart := by
    rw [List.head?_eq_some_head h.filled]
    exact inside _ (List.head_mem h.filled)
  have last : text.getLast?.any isWordPart := by
    rw [List.getLast?_eq_some_getLast h.filled]
    exact inside _ (List.getLast_mem h.filled)
  exact ⟨fun further => h.opens ⟨further, first⟩, fun further => h.closes ⟨last, further⟩⟩

theorem partition_spans {cs : List Char} {lexemes : List Lexeme} (h : Scanned cs lexemes) :
    Partition (String.ofList cs) (spans 0 lexemes) where
  filled span member := by
    obtain ⟨front, text, back, takes⟩ := Span.Takes.of_mem_spans h member
    rw [takes.start, takes.stop, width_append]
    exact Nat.lt_add_of_pos_right (width_pos takes.filled)
  ordered := pairwise_spans 0 lexemes
  within span member := by
    obtain ⟨front, text, back, takes⟩ := Span.Takes.of_mem_spans h member
    rw [takes.stop, utf8ByteSize_ofList, takes.parted, width_append (front ++ text)]
    exact Nat.le_add_right _ _
  boundaries span member := by
    obtain ⟨front, text, back, takes⟩ := Span.Takes.of_mem_spans h member
    rw [takes.start, takes.stop, takes.parted]
    refine ⟨?_, isBoundary_append (front ++ text) back⟩
    rw [List.append_assoc]
    exact isBoundary_append front (text ++ back)
  blank gap member := by
    rw [utf8ByteSize_ofList] at member
    obtain ⟨text, blanks, slice⟩ :=
      @blank_of_mem_gaps cs lexemes h [] [] (List.forall_mem_nil _) gap member
    exact ⟨String.ofList text, slice, by rwa [String.toList_ofList]⟩
  shaped span member := by
    obtain ⟨front, text, back, takes⟩ := Span.Takes.of_mem_spans h member
    rw [takes.start, takes.stop, takes.parted]
    exact ⟨String.ofList text, between?_append front text back, by
      rw [String.toList_ofList]; exact takes.shaped⟩
  maximal span member going := by
    obtain ⟨front, text, back, takes⟩ := Span.Takes.of_mem_spans h member
    have first := between?_append [] front (text ++ back)
    rw [List.nil_append, ← List.append_assoc] at first
    rw [takes.start, takes.stop, takes.parted, utf8ByteSize_ofList]
    refine ⟨String.ofList front, String.ofList back, first, between?_end (front ++ text) back, ?_⟩
    rw [String.toList_ofList, String.toList_ofList]
    exact takes.maximal going

theorem exists_round? {s : String} {start : Nat} (boundary : IsBoundary s start)
    (inside : start < s.utf8ByteSize) :
    ∃ outcome, round? s start = some outcome ∧ ∀ kind stop, outcome = .ok (kind, stop) →
      start < stop ∧ stop ≤ s.utf8ByteSize ∧ IsBoundary s stop := by
  rw [← @String.ofList_toList s] at boundary inside ⊢
  obtain ⟨before, after, parted, rfl⟩ := boundary.exists_append
  rw [parted] at inside ⊢
  cases after with
  | nil => simp at inside
  | cons c cs =>
    refine ⟨_, round?_append before c cs, fun kind stop goes => ?_⟩
    have round := round?_append before c cs
    rw [goes] at round
    cases found : cut c cs with
    | error => simp [found, Except.map] at goes
    | ok pair =>
      obtain ⟨lexeme, rest⟩ := pair
      simp only [found, Except.map, Except.ok.injEq, Prod.mk.injEq] at goes
      obtain ⟨_, rfl⟩ := goes
      rw [← cut_text found, ← List.append_assoc, utf8ByteSize_ofList, width_append _ rest]
      rw [← cut_text found, ← List.append_assoc] at round
      exact ⟨lt_of_round? round, Nat.le_add_right _ _,
        isBoundary_append (before ++ lexeme.text) rest⟩

/-- For every text: each round that begins at a boundary takes no text that ends inside a character,
and goes on to a boundary further on or ends all. The spans are those of the lexemes, and if there
are any they part the text, and it is written from them as it is from the lexemes. -/
theorem exists_partition (s : String) :
    (∀ start, IsBoundary s start → start < s.utf8ByteSize →
      ∃ outcome, round? s start = some outcome ∧ ∀ kind stop, outcome = .ok (kind, stop) →
        start < stop ∧ stop ≤ s.utf8ByteSize ∧ IsBoundary s stop) ∧
    ∃ outcome, tokenize? s = some outcome ∧ outcome = (scan s.toList).map (spans 0) ∧
      ∀ parts, outcome = .ok parts → Partition s parts ∧
        ∀ mode dialect owner text, qualify mode dialect owner s = .ok text →
          rewriteFrom? s (Span.sql mode dialect owner) 0 parts = some text := by
  refine ⟨fun start boundary inside => exists_round? boundary inside, _, tokenize?_eq s, rfl, ?_⟩
  intro parts found
  cases scanned : scan s.toList with
  | error => simp [scanned, Except.map] at found
  | ok lexemes =>
    simp only [scanned, Except.map, Except.ok.injEq] at found
    subst found
    have whole := partition_spans (scanned_of_scan scanned)
    rw [String.ofList_toList] at whole
    refine ⟨whole, fun mode dialect owner text qualified => ?_⟩
    obtain ⟨e, parsed, rfl⟩ := Outcome.exists_of_map qualified
    obtain ⟨others, rescanned, _, _, classified⟩ := of_parse parsed
    obtain rfl : lexemes = others := Except.ok.inj (scanned.symm.trans rescanned)
    have written := rewriteFrom?_spans dialect owner (scanned_of_scan scanned) classified [] []
    simpa [sql] using written

theorem comparison_exists_partition :
    let s := "MAX(total) >= 1.5"
    let parts : List Span := [⟨.word, 0, 3⟩, ⟨.opening, 3, 4⟩, ⟨.word, 4, 9⟩, ⟨.closing, 9, 10⟩,
      ⟨.operator, 11, 13⟩, ⟨.number, 14, 17⟩]
    tokenize? s = some (.ok parts) ∧ Partition s parts ∧
      rewriteFrom? s (Span.sql .column .postgresql "o") 0 parts =
        some "MAX(\"o\".\"total\") >= 1.5" := by
  intro s parts
  have read : tokenize? s = some (.ok parts) := by
    rw [tokenize?_eq]
    decide +kernel
  have qualified : qualify .column .postgresql "o" s = .ok "MAX(\"o\".\"total\") >= 1.5" := by
    decide +kernel
  obtain ⟨_, outcome, same, _, parted⟩ := exists_partition s
  obtain rfl : .ok parts = outcome := Option.some.inj (read.symm.trans same)
  obtain ⟨whole, written⟩ := parted parts rfl
  exact ⟨read, whole, written .column .postgresql "o" _ qualified⟩

end RelationQuery.Expression.Lexeme
