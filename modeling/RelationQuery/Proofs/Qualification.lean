import RelationQuery.Proofs.Expression

/-! Expressions put in terms of a table. Main statement: symbol by symbol a qualified expression
is the one it was made of with every column quoted, and all that stays a word is a keyword or an
approved call; without what was put in front and without quotes it is that expression. -/
namespace RelationQuery.Expression

open Token

/-- What a database reads an expression as. -/
inductive Symbol where
  | blank
  | number (text : List Char)
  | operator (text : List Char)
  | comma
  | opening
  | closing
  | word (text : List Char)
  | name (parts : List (List Char))
  /-- A name with a dot behind it, which another has to follow. -/
  | qualifier (parts : List (List Char))
  deriving DecidableEq

namespace Symbol

def start? : Token → Option Symbol
  | .literal _ => none
  | .name text => some (.name [text])
  | .plain c =>
    if c.isAlpha || c == '_' then some (.word [c])
    else if c.isDigit then some (.number [c])
    else if c == '(' then some .opening
    else if c == ')' then some .closing
    else if c == ',' then some .comma
    else if [' ', '\t', '\n', '\r'].contains c then some .blank
    else if ['=', '+', '-', '*', '/', '%', '<', '>', '!'].contains c then some (.operator [c])
    else none

/-- The symbol with one more token, if that belongs to it. -/
def grow? : Symbol → Token → Option Symbol
  | .word text, .plain c =>
    if c.isAlphanum || c == '_' || c == '.' then some (.word (text ++ [c])) else none
  | .number text, .plain c => if c.isDigit || c == '.' then some (.number (text ++ [c])) else none
  | .operator [a], .plain b =>
    if [['<', '='], ['>', '='], ['!', '='], ['<', '>']].contains [a, b] then
      some (.operator [a, b])
    else none
  | .name parts, .plain c => if c == '.' then some (.qualifier parts) else none
  | .qualifier parts, .name part => some (.name (parts ++ [part]))
  | _, _ => none

def isWhole : Symbol → Bool
  | .number text => text.count '.' ≤ 1 && text.getLast? != some '.'
  | .operator text => text != ['!']
  | .qualifier _ => false
  | _ => true

def readFrom : Symbol → List Token → Option (List Symbol)
  | symbol, [] => if symbol.isWhole then some [symbol] else none
  | symbol, token :: rest =>
    match symbol.grow? token with
    | some longer => longer.readFrom rest
    | none =>
      if symbol.isWhole then
        (start? token).bind fun next => (next.readFrom rest).map (symbol :: ·)
      else none

def solids (symbols : List Symbol) : List Symbol := symbols.filter (· != .blank)

def read? (tokens : List Token) : Option (List Symbol) := (blank.readFrom tokens).map solids

def isColumn (mode : Mode) (text : List Char) (rest : List Symbol) : Bool :=
  rest.head? != some .opening && !Text.isListed mode.keywords text

def column (owner text : List Char) : Symbol :=
  .name (if '.' ∈ text then text.splitOn '.' else [owner, text])

/-- Symbols with a quoted column in place of every word that stands for one. -/
def qualified (mode : Mode) (owner : List Char) : List Symbol → List Symbol
  | [] => []
  | .word text :: rest =>
    (if isColumn mode text rest then column owner text else .word text) ::
      qualified mode owner rest
  | symbol :: rest => symbol :: qualified mode owner rest

/-- Words are keywords of the mode, or approved functions with a parenthesis opened behind. -/
def Admitted (mode : Mode) (symbols : List Symbol) : Prop :=
  ∀ text rest, .word text :: rest <:+ symbols →
    Text.isListed mode.keywords text ∨
      Text.isListed mode.functions text ∧ rest.head? = some .opening

example : read? ("f (a.b)<>1.5".toList.map plain) = some [.word ['f'], .opening,
    .word ['a', '.', 'b'], .closing, .operator ['<', '>'], .number ['1', '.', '5']] := by decide

/-! ### One symbol after the other -/

def Stops (symbol : Symbol) (tokens : List Token) : Prop :=
  ∀ token ∈ tokens.head?, symbol.grow? token = none

def Makes (tokens : List Token) (symbol : Symbol) : Prop :=
  ∃ token more first, tokens = token :: more ∧ start? token = some first ∧
    ∀ rest, first.readFrom (more ++ rest) = symbol.readFrom rest

theorem Makes.readFrom {previous symbol : Symbol} {tokens : List Token}
    (makes : Makes tokens symbol) (whole : previous.isWhole) (stops : previous.Stops tokens)
    (rest : List Token) :
    previous.readFrom (tokens ++ rest) = (symbol.readFrom rest).map (previous :: ·) := by
  obtain ⟨token, more, first, rfl, begins, reads⟩ := makes
  have apart : previous.grow? token = none := stops token rfl
  rw [List.cons_append, Symbol.readFrom, apart]
  simp only [whole, if_true, begins, Option.bind_some, reads]

theorem Makes.single {token : Token} {symbol : Symbol} (h : start? token = some symbol) :
    Makes [token] symbol :=
  ⟨token, [], symbol, rfl, h, fun _ => rfl⟩

theorem readFrom_growing {make : List Char → Symbol} {belongs : Char → Bool}
    (grows : ∀ text c, belongs c → (make text).grow? (.plain c) = some (make (text ++ [c])))
    {cs : List Char} (h : ∀ c ∈ cs, belongs c) (text : List Char) (rest : List Token) :
    (make text).readFrom (cs.map plain ++ rest) = (make (text ++ cs)).readFrom rest := by
  induction cs generalizing text with
  | nil => simp
  | cons c cs ih =>
    obtain ⟨here, later⟩ := List.forall_mem_cons.1 h
    rw [List.map_cons, List.cons_append, Symbol.readFrom, grows text c here]
    simpa using ih later (text ++ [c])

theorem grow?_word (text : List Char) (c : Char) :
    (word text).grow? (.plain c) =
      if Lexeme.isWordPart c then some (.word (text ++ [c])) else none := rfl

theorem grow?_number (text : List Char) (c : Char) :
    (number text).grow? (.plain c) =
      if Lexeme.isNumberPart c then some (.number (text ++ [c])) else none := rfl

theorem makes_word {c : Char} {cs : List Char} (start : Identifier.isStart c)
    (more : ∀ c ∈ cs, Lexeme.isWordPart c) : Makes ((c :: cs).map plain) (.word (c :: cs)) := by
  refine ⟨.plain c, cs.map plain, .word [c], rfl, ?_, ?_⟩
  · have letter : (c.isAlpha || c == '_') = true := start
    rw [start?, if_pos letter]
  · exact readFrom_growing (fun text c belongs => by rw [grow?_word, if_pos belongs]) more [c]

theorem makes_number {c : Char} {cs : List Char} (other : Identifier.isStart c = false)
    (digit : c.isDigit) (more : ∀ c ∈ cs, Lexeme.isNumberPart c) :
    Makes ((c :: cs).map plain) (.number (c :: cs)) := by
  refine ⟨.plain c, cs.map plain, .number [c], rfl, ?_, ?_⟩
  · have letter : (c.isAlpha || c == '_') = false := other
    rw [start?, letter, if_neg (by simp), if_pos digit]
  · exact readFrom_growing (fun text c belongs => by rw [grow?_number, if_pos belongs]) more [c]

theorem makes_name (first second : List Char) :
    Makes [.name first, .plain '.', .name second] (.name [first, second]) :=
  ⟨.name first, [.plain '.', .name second], .name [first], rfl, rfl, fun _ => rfl⟩

theorem stops_name {symbol : Symbol} (whole : symbol.isWhole) (part : List Char)
    (rest : List Token) : symbol.Stops (.name part :: rest) := by
  rintro _ ⟨⟩
  cases symbol with
  | qualifier => cases whole
  | operator text => rcases text with _ | ⟨_, _ | _⟩ <;> rfl
  | blank | number | comma | opening | closing | word | name => rfl

end Symbol

namespace Lexeme

def symbol (lexeme : Lexeme) : Symbol :=
  match lexeme.kind with
  | .blank => .blank
  | .word => .word lexeme.text
  | .number => .number lexeme.text
  | .operator => .operator lexeme.text
  | .opening => .opening
  | .closing => .closing
  | .comma => .comma

structure Reads (lexeme : Lexeme) (rest : List Char) : Prop where
  makes : Symbol.Makes (lexeme.text.map plain) lexeme.symbol
  whole : lexeme.symbol.isWhole
  stops : lexeme.symbol.Stops (rest.map plain)

theorem Reads.single {lexeme : Lexeme} {c : Char} (text : lexeme.text = [c])
    (begins : Symbol.start? (.plain c) = some lexeme.symbol) (whole : lexeme.symbol.isWhole)
    (alone : ∀ d, lexeme.symbol.grow? (.plain d) = none) (rest : List Char) :
    lexeme.Reads rest where
  makes := by
    rw [text]
    exact Symbol.Makes.single begins
  whole := whole
  stops := by
    intro token head
    cases rest with
    | nil => cases head
    | cons d ds =>
      cases head
      exact alone d

theorem stops_dropWhile {symbol : Symbol} {belongs : Char → Bool} (cs : List Char)
    (ends : ∀ c, belongs c = false → symbol.grow? (.plain c) = none) :
    symbol.Stops ((cs.dropWhile belongs).map plain) := by
  intro token head
  rw [List.head?_map] at head
  obtain ⟨c, first, rfl⟩ := Option.map_eq_some_iff.1 head
  have apart := List.head?_dropWhile_not belongs cs
  rw [first] at apart
  exact ends c (by simpa using apart)

theorem reads_of_cutNumber {c : Char} {cs rest : List Char} {lexeme : Lexeme}
    (other : Identifier.isStart c = false) (digit : c.isDigit)
    (h : cutNumber c cs = .ok (lexeme, rest)) : lexeme.Reads rest := by
  unfold cutNumber at h
  split at h
  · next number =>
    cases h
    simp only [isNumber, Bool.and_eq_true] at number
    refine ⟨?_, ?_, ?_⟩
    · exact Symbol.makes_number other digit fun _ member => List.mem_takeWhile_imp member
    · simpa [symbol, Symbol.isWhole] using number.1
    · exact stops_dropWhile cs fun d ends => by rw [symbol, Symbol.grow?_number, ends]; rfl
  · cases h

theorem reads_of_cutComparison {c : Char} {cs rest : List Char} {lexeme : Lexeme}
    (comparison : isComparison c) (h : cutComparison c cs = .ok (lexeme, rest)) :
    lexeme.Reads rest := by
  simp only [isComparison, Bool.or_eq_true, beq_iff_eq] at comparison
  have begins : Symbol.start? (.plain c) = some (.operator [c]) := by
    rcases comparison with (rfl | rfl) | rfl <;> decide
  unfold cutComparison at h
  split at h
  · next follows =>
    cases h
    cases cs with
    | nil => simp at follows
    | cons next rest =>
      have pair : [['<', '='], ['>', '='], ['!', '='], ['<', '>']].contains [c, next] := by
        rcases follows with eq | ⟨rfl, eq⟩
        · obtain rfl : next = '=' := by simpa using eq
          rcases comparison with (rfl | rfl) | rfl <;> decide
        · obtain rfl : next = '>' := by simpa using eq
          decide
      refine ⟨⟨.plain c, [.plain next], .operator [c], rfl, begins, fun tokens => ?_⟩, ?_, ?_⟩
      · rw [List.singleton_append, Symbol.readFrom, Symbol.grow?, if_pos pair]
        rfl
      · simp [symbol, Symbol.isWhole]
      · intro token _
        rfl
  · next alone =>
    split at h
    · cases h
    · next other =>
      cases h
      refine ⟨Symbol.Makes.single begins, ?_, ?_⟩
      · simpa [symbol, Symbol.isWhole] using other
      · intro token head
        cases cs with
        | nil => cases head
        | cons next _ =>
          cases head
          simp only [List.head?_cons, Option.some.injEq] at alone
          simp only [symbol, Symbol.grow?]
          rw [if_neg]
          simp
          grind

theorem reads_of_cut {c : Char} {cs rest : List Char} {lexeme : Lexeme}
    (h : cut c cs = .ok (lexeme, rest)) : lexeme.Reads rest := by
  unfold cut at h
  split at h
  · next gap =>
    cases h
    simp only [isGap, Bool.or_eq_true, beq_iff_eq] at gap
    refine .single rfl ?_ rfl (fun _ => rfl) _
    rcases gap with ((rfl | rfl) | rfl) | rfl <;> decide
  split at h
  · next start =>
    cases h
    refine ⟨Symbol.makes_word start fun _ member => List.mem_takeWhile_imp member, rfl, ?_⟩
    exact stops_dropWhile cs fun d ends => by rw [symbol, Symbol.grow?_word, ends]; rfl
  have other := Bool.eq_false_iff.2 ‹¬Identifier.isStart c›
  split at h
  · next digit => exact reads_of_cutNumber other digit h
  split at h
  · next eq =>
    cases h
    subst eq
    exact .single rfl (by decide) rfl (fun _ => rfl) _
  split at h
  · next eq =>
    cases h
    subst eq
    exact .single rfl (by decide) rfl (fun _ => rfl) _
  split at h
  · next eq =>
    cases h
    subst eq
    exact .single rfl (by decide) rfl (fun _ => rfl) _
  split at h
  · next comparison => exact reads_of_cutComparison comparison h
  split at h
  · next operator =>
    cases h
    simp only [isOperator, Bool.or_eq_true, beq_iff_eq] at operator
    have alone (d : Char) : (Symbol.operator [c]).grow? (.plain d) = none := by
      rcases operator with ((((rfl | rfl) | rfl) | rfl) | rfl) | rfl <;> simp [Symbol.grow?]
    apply Reads.single rfl
    · rcases operator with ((((rfl | rfl) | rfl) | rfl) | rfl) | rfl <;> decide
    · rcases operator with ((((rfl | rfl) | rfl) | rfl) | rfl) | rfl <;> rfl
    · exact alone
  · cases h

end Lexeme

/-! ### Columns as names -/

theorem isWord_of_table {name : List Char} (h : Identifier.check .table name = .ok ()) :
    Identifier.isWord name := by
  have shaped := isShaped_of_check h
  have whole : ['.'].intercalate (name.splitOn '.') = name := List.intercalate_splitOn '.'
  unfold Identifier.isShaped Identifier.parts at shaped
  split at shaped
  · next _ one =>
    rw [one, List.intercalate_singleton] at whole
    rwa [← whole]
  · contradiction
  · cases shaped

theorem not_mem_of_isWord {word : List Char} (h : Identifier.isWord word) : '.' ∉ word := by
  intro member
  have part := isPart_of_isWord h _ member
  revert part
  decide

theorem ofPart_of_isWord {word : List Char} (h : Identifier.isWord word) :
    ofPart word = .name word := by
  refine if_neg ?_
  rintro rfl
  revert h
  decide

theorem exists_column {owner : String} {name : List Char}
    (word : Identifier.isWord owner.toList) (checked : Identifier.check .column name = .ok ()) :
    ∃ first second, (Name.qualify owner (String.ofList name)).toList.splitOn '.' = [first, second] ∧
      Identifier.isWord first ∧ Identifier.isWord second ∧
      Symbol.column owner.toList name = .name [first, second] := by
  have words := isWord_of_check checked
  have whole : ['.'].intercalate (name.splitOn '.') = name := List.intercalate_splitOn '.'
  by_cases dotted : '.' ∈ name
  · have shaped := isShaped_of_check checked
    unfold Identifier.isShaped at shaped
    unfold Identifier.parts at shaped words
    rw [Name.qualify, if_pos (by simpa [Name.isDotted] using dotted), String.toList_ofList,
      Symbol.column, if_pos dotted]
    split at shaped
    · next part one =>
      rw [one, List.intercalate_singleton] at whole
      subst whole
      exact absurd dotted (not_mem_of_isWord shaped)
    · next first second _ two =>
      rw [two] at words ⊢
      exact ⟨first, second, rfl, words first (by simp), words second (by simp), rfl⟩
    · cases shaped
  · have single : name.splitOn '.' = [name] := List.splitOn_eq_singleton dotted
    unfold Identifier.parts at words
    rw [single] at words
    have bare := words name (List.mem_singleton.2 rfl)
    refine ⟨owner.toList, name, ?_, word, bare, by rw [Symbol.column, if_neg dotted]⟩
    have parts : ∀ part ∈ [owner.toList, name], '.' ∉ part := by
      simpa using ⟨not_mem_of_isWord word, dotted⟩
    have joined := List.splitOn_intercalate '.' parts (List.cons_ne_nil _ _)
    rw [Name.qualify, if_neg (by simpa [Name.isDotted] using dotted)]
    simpa [List.intercalate_cons_cons] using joined

/-! ### Reading what is written -/

variable {owner : String} {dialect : Dialect} {mode : Mode}

def Piece.symbol (owner : String) (lexeme : Lexeme) : Piece → Symbol
  | .copied _ => lexeme.symbol
  | .column text => Symbol.column owner.toList text

/-- Where each lexeme is copied or written as a column, there is one symbol for each: the rest of
a lexeme begins with what does not belong to it, or with a quote. -/
theorem readFrom_pieces (word : Identifier.isWord owner.toList) {cs : List Char}
    {lexemes : List Lexeme} {pieces : List Piece} (scanned : Lexeme.scan cs = .ok lexemes)
    (made : List.Forall₂ Matches lexemes pieces) {previous : Symbol} (whole : previous.isWhole)
    (stops : previous.Stops (cs.map plain)) :
    previous.readFrom (pieces.flatMap (Piece.tokens owner)) =
      some (previous :: List.zipWith (Piece.symbol owner) lexemes pieces) := by
  fun_induction Lexeme.scan cs generalizing lexemes pieces previous with
  | case1 =>
    cases scanned
    cases made
    simp [Symbol.readFrom, whole]
  | case2 => cases scanned
  | case3 c cs lexeme rest hcut ih =>
    cases hrest : Lexeme.scan rest with
    | error fault => simp [hrest, Except.map] at scanned
    | ok more =>
      simp only [hrest, Except.map, Except.ok.injEq] at scanned
      subst scanned
      have reads := Lexeme.reads_of_cut hcut
      cases made with
      | @cons _ piece _ pieces first later =>
      rw [List.flatMap_cons, List.zipWith_cons_cons]
      rcases first with rfl | ⟨kind, rfl, checked⟩
      · have begins : previous.Stops (lexeme.text.map plain) := by
          have text := Lexeme.cut_text hcut
          cases chars : lexeme.text with
          | nil => exact absurd chars (Lexeme.cut_text_ne_nil hcut)
          | cons d ds =>
            rw [chars] at text
            cases (List.cons_eq_cons.1 text).1
            exact stops
        rw [Piece.tokens, reads.makes.readFrom whole begins, ih hrest later reads.whole reads.stops]
        rfl
      · obtain ⟨first, second, parts, firstWord, secondWord, column⟩ := exists_column word checked
        have tokens : Piece.tokens owner (.column lexeme.text) =
            [.name first, .plain '.', .name second] := by
          rw [Piece.tokens, ofName, parts]
          simp [ofPart_of_isWord, firstWord, secondWord, List.intercalate_cons_cons]
        have ends : (Symbol.name [first, second]).Stops (rest.map plain) := by
          intro token head
          rw [List.head?_map] at head
          obtain ⟨c, next, rfl⟩ := Option.map_eq_some_iff.1 head
          have apart := Lexeme.not_isWordPart_of_cut hcut kind c next
          have dot : c ≠ '.' := by
            rintro rfl
            exact apart rfl
          simp [Symbol.grow?, dot]
        rw [tokens, (Symbol.makes_name first second).readFrom whole (Symbol.stops_name whole _ _),
          ih hrest later rfl ends, Piece.symbol, column]
        rfl

/-! ### What stays a word -/

namespace Symbol

theorem solids_cons (symbol : Symbol) (rest : List Symbol) :
    solids (symbol :: rest) = if symbol = .blank then solids rest else symbol :: solids rest := by
  by_cases blank : symbol = .blank <;> simp [solids, blank]

theorem qualified_cons_of_ne {symbol : Symbol} (other : ∀ text, symbol ≠ .word text)
    (owner : List Char) (rest : List Symbol) :
    qualified mode owner (symbol :: rest) = symbol :: qualified mode owner rest := by
  cases symbol with
  | word text => exact absurd rfl (other text)
  | blank | number | operator | comma | opening | closing | name | qualifier => rfl

theorem head?_qualified {owner : List Char} {symbols : List Symbol}
    (h : symbols.head? = some .opening) : (qualified mode owner symbols).head? = some .opening := by
  obtain ⟨rest, rfl⟩ := List.head?_eq_some_iff.1 h
  rfl

theorem Admitted.cons {symbol : Symbol} {rest : List Symbol} (h : Admitted mode rest)
    (here : ∀ text, symbol = .word text → Text.isListed mode.keywords text ∨
      Text.isListed mode.functions text ∧ rest.head? = some .opening) :
    Admitted mode (symbol :: rest) := by
  intro text behind suffix
  rcases List.suffix_cons_iff.1 suffix with whole | inner
  · obtain ⟨rfl, rfl⟩ := List.cons_eq_cons.1 whole
    exact here text rfl
  · exact h text behind inner

end Symbol

theorem isCalled_eq (rest : List Lexeme) :
    isCalled rest = ((Symbol.solids (rest.map Lexeme.symbol)).head? == some .opening) := by
  induction rest with
  | nil => rfl
  | cons lexeme rest ih =>
    rw [List.map_cons, Symbol.solids_cons]
    by_cases blank : lexeme.kind = .blank
    · have symbol : lexeme.symbol = .blank := by rw [Lexeme.symbol, blank]
      rw [symbol, if_pos rfl, ← ih, isCalled, isCalled, List.find?_cons_of_neg (by simp [blank])]
    · have symbol : lexeme.symbol ≠ .blank := by
        unfold Lexeme.symbol
        split <;> simp_all
      have opens : (lexeme.kind == .opening) = (lexeme.symbol == .opening) := by
        unfold Lexeme.symbol
        cases lexeme.kind <;> rfl
      rw [if_neg symbol, isCalled, List.find?_cons_of_pos (by simpa using blank)]
      simpa using opens

theorem solids_of_classify {lexemes : List Lexeme} {pieces : List Piece}
    (h : classify mode lexemes = .ok pieces) :
    Symbol.solids (List.zipWith (Piece.symbol owner) lexemes pieces) =
        Symbol.qualified mode owner.toList (Symbol.solids (lexemes.map Lexeme.symbol)) ∧
      Symbol.Admitted mode (Symbol.solids (List.zipWith (Piece.symbol owner) lexemes pieces)) := by
  induction lexemes generalizing pieces with
  | nil =>
    cases h
    exact ⟨rfl, fun _ _ suffix => by cases List.eq_nil_of_suffix_nil suffix⟩
  | cons lexeme rest ih =>
    obtain ⟨piece, others, rfl, more, made⟩ := exists_of_classify h
    obtain ⟨symbols, admitted⟩ := ih more
    rw [List.zipWith_cons_cons, List.map_cons, Symbol.solids_cons, Symbol.solids_cons]
    by_cases word : lexeme.kind = .word
    · have symbol : lexeme.symbol = .word lexeme.text := by rw [Lexeme.symbol, word]
      have called := isCalled_eq rest
      rw [if_pos word] at made
      rw [symbol, if_neg (by simp : Symbol.word lexeme.text ≠ .blank), Symbol.qualified]
      rcases of_classifyWord made with ⟨rfl, listed⟩ | ⟨rfl, plain, other, _⟩
      · have stays : Symbol.isColumn mode lexeme.text
            (Symbol.solids (rest.map Lexeme.symbol)) = false := by
          rcases listed with ⟨call, _⟩ | ⟨_, keyword⟩
          · simp_all [Symbol.isColumn]
          · simp [Symbol.isColumn, keyword]
        rw [stays, Piece.symbol, symbol, if_neg (by simp : Symbol.word lexeme.text ≠ .blank),
          symbols]
        refine ⟨rfl, (symbols ▸ admitted).cons ?_⟩
        rintro _ ⟨⟩
        rcases listed with ⟨call, function⟩ | ⟨_, keyword⟩
        · exact .inr ⟨function, Symbol.head?_qualified (by simpa [call] using called)⟩
        · exact .inl keyword
      · have column : Symbol.isColumn mode lexeme.text
            (Symbol.solids (rest.map Lexeme.symbol)) = true := by
          simp_all [Symbol.isColumn]
        rw [column, Piece.symbol, if_neg (by simp [Symbol.column] :
          Symbol.column owner.toList lexeme.text ≠ .blank), symbols]
        exact ⟨rfl, (symbols ▸ admitted).cons nofun⟩
    · rw [if_neg word] at made
      subst made
      rw [Piece.symbol]
      by_cases blank : lexeme.symbol = .blank
      · rw [if_pos blank, if_pos blank]
        exact ⟨symbols, admitted⟩
      · have other : ∀ text, lexeme.symbol ≠ .word text := by
          intro text
          unfold Lexeme.symbol
          split <;> simp_all
        rw [if_neg blank, if_neg blank, Symbol.qualified_cons_of_ne other, symbols]
        exact ⟨rfl, (symbols ▸ admitted).cons fun text same => absurd same (other text)⟩

/-! ### What is put in -/

def Piece.inserted (dialect : Dialect) (owner : String) : Piece → List Char
  | .copied _ => []
  | .column text => if '.' ∈ text then [] else (dialect.quote owner).toList ++ ['.']

def Piece.kept (dialect : Dialect) : Piece → List Char
  | .copied text => text
  | .column text => dialect.quoteChars text

theorem filter_quotePart {part : List Char} (h : dialect.quoteMark ∉ part) :
    (dialect.quotePart part).filter (· != dialect.quoteMark) = part := by
  have clean : part.filter (· != dialect.quoteMark) = part := by
    refine List.filter_eq_self.2 fun c member => ?_
    rw [bne_iff_ne]
    rintro rfl
    exact h member
  have doubled : part.flatMap (fun c => if c = dialect.quoteMark then
      [dialect.quoteMark, dialect.quoteMark] else [c]) = part := by
    refine (List.flatMap_congr fun c member => ?_).trans (List.flatMap_singleton' part)
    rw [if_neg]
    rintro rfl
    exact h member
  unfold Dialect.quotePart
  split
  · exact clean
  · rw [Dialect.enclose, doubled]
    simp [clean]

theorem filter_quoteChars {name : List Char} (h : dialect.quoteMark ∉ name) :
    (dialect.quoteChars name).filter (· != dialect.quoteMark) = name := by
  have whole : ['.'].intercalate (name.splitOn '.') = name := List.intercalate_splitOn '.'
  have dot : '.' ≠ dialect.quoteMark := by cases dialect <;> decide
  rw [← whole] at h
  rw [Dialect.quoteChars]
  conv_rhs => rw [← whole]
  generalize name.splitOn '.' = parts at h
  induction parts with
  | nil => rfl
  | cons part rest ih =>
    have apart : dialect.quoteMark ∉ part :=
      fun member => h (Text.mem_intercalate_of_mem List.mem_cons_self member)
    cases rest with
    | nil => simpa using filter_quotePart apart
    | cons other rest =>
      rw [List.intercalate_cons_cons] at h
      have later := ih fun member => h (List.mem_append_right _ member)
      rw [List.map_cons] at later ⊢
      rw [List.map_cons, List.intercalate_cons_cons, List.intercalate_cons_cons, List.filter_append,
        List.filter_append, later, filter_quotePart apart]
      simp [dot]

theorem quote_qualify {text : List Char} (word : Identifier.isWord owner.toList) :
    (dialect.quote (Name.qualify owner (String.ofList text))).toList =
      Piece.inserted dialect owner (.column text) ++ Piece.kept dialect (.column text) := by
  rw [Piece.inserted, Piece.kept]
  by_cases dotted : '.' ∈ text
  · rw [Name.qualify, if_pos (by simpa [Name.isDotted] using dotted), if_pos dotted]
    simp [Dialect.quote]
  · have bare := not_mem_of_isWord word
    have parts : ∀ part ∈ [owner.toList, text], '.' ∉ part := by simpa using ⟨bare, dotted⟩
    have joined := List.splitOn_intercalate '.' parts (List.cons_ne_nil _ _)
    have two : (owner.toList ++ '.' :: text).splitOn '.' = [owner.toList, text] := by
      simpa [List.intercalate_cons_cons] using joined
    rw [Name.qualify, if_neg (by simpa [Name.isDotted] using dotted), if_neg dotted]
    simp [Dialect.quote, Dialect.quoteChars, List.splitOn_eq_singleton dotted,
      List.splitOn_eq_singleton bare, two, List.intercalate_cons_cons]

theorem toList_sql (word : Identifier.isWord owner.toList) (e : Expression) :
    (e.sql dialect owner).toList =
      e.pieces.flatMap fun piece => piece.inserted dialect owner ++ piece.kept dialect := by
  change piecesText dialect owner e.pieces = _
  induction e.pieces with
  | nil => rfl
  | cons piece pieces ih =>
    rw [piecesText_cons, ih, List.flatMap_cons]
    cases piece with
    | copied text => simp [Piece.sql, Piece.inserted, Piece.kept]
    | column text => rw [Piece.sql, quote_qualify word]

theorem filter_kept {lexemes : List Lexeme} {pieces : List Piece}
    (made : List.Forall₂ Matches lexemes pieces) (sound : ∀ lexeme ∈ lexemes, lexeme.Sound) :
    (pieces.flatMap (Piece.kept dialect)).filter (· != dialect.quoteMark) =
      (lexemes.map Lexeme.text).flatten := by
  induction made with
  | nil => rfl
  | @cons lexeme piece lexemes pieces first more ih =>
    obtain ⟨here, later⟩ := List.forall_mem_cons.1 sound
    have unmarked : dialect.quoteMark ∉ lexeme.text := by
      intro member
      have plain := here.isPlain _ member
      rw [not_isPlain_mark dialect (.inr rfl)] at plain
      cases plain
    rw [List.flatMap_cons, List.filter_append, ih later, List.map_cons, List.flatten_cons]
    congr 1
    rcases first with rfl | ⟨_, rfl, _⟩
    · refine List.filter_eq_self.2 fun c member => ?_
      rw [bne_iff_ne]
      rintro rfl
      exact unmarked member
    · exact filter_quoteChars unmarked

/-! ### The whole expression -/

theorem read?_pieces (word : Identifier.isWord owner.toList) {cs : List Char}
    {lexemes : List Lexeme} {pieces : List Piece} (scanned : Lexeme.scan cs = .ok lexemes)
    (made : List.Forall₂ Matches lexemes pieces) :
    Symbol.read? (pieces.flatMap (Piece.tokens owner)) =
      some (Symbol.solids (List.zipWith (Piece.symbol owner) lexemes pieces)) := by
  have reads : Symbol.blank.readFrom (pieces.flatMap (Piece.tokens owner)) = _ :=
    readFrom_pieces word scanned made rfl fun _ _ => rfl
  rw [Symbol.read?, reads, Option.map_some, Symbol.solids_cons, if_pos rfl]

theorem read?_source (word : Identifier.isWord owner.toList) {cs : List Char}
    {lexemes : List Lexeme} (scanned : Lexeme.scan cs = .ok lexemes) :
    Symbol.read? (cs.map plain) = some (Symbol.solids (lexemes.map Lexeme.symbol)) := by
  let copy (lexeme : Lexeme) : Piece := .copied lexeme.text
  have made : List.Forall₂ Matches lexemes (lexemes.map copy) :=
    List.forall₂_map_right_iff.2 (List.forall₂_same.2 fun _ _ => .inl rfl)
  have tokens : (lexemes.map copy).flatMap (Piece.tokens owner) = cs.map plain := by
    rw [← Lexeme.flatten_scan scanned, List.map_flatten, List.flatMap_map, List.map_map]
    rfl
  have symbols : List.zipWith (Piece.symbol owner) lexemes (lexemes.map copy) =
      lexemes.map Lexeme.symbol := by
    rw [List.zipWith_map_right, List.zipWith_self]
    rfl
  rw [← tokens, read?_pieces word scanned made, symbols]

/-- For every owner that is a table: an expression is written if and only if it is let in. Read as
a database reads it, its parentheses match and symbol by symbol it is the given expression, but
for a quoted column in place of every word that is neither called nor a keyword; all other words
are keywords or approved functions that are called. Without the owner put in front of bare
columns, and without quotes, it is the given expression character by character. -/
theorem read_qualify (h : Identifier.check .table owner.toList = .ok ()) (mode : Mode)
    (dialect : Dialect) (source : String) :
    (qualify mode dialect owner source).map (fun _ => ()) = validate mode source ∧
      ∀ text, qualify mode dialect owner source = .ok text → ∃ symbols tokens e,
        Symbol.read? (source.toList.map plain) = some symbols ∧
        lex dialect text.toList = some tokens ∧ nesting 0 tokens = some 0 ∧
        Symbol.read? tokens = some (Symbol.qualified mode owner.toList symbols) ∧
        Symbol.Admitted mode (Symbol.qualified mode owner.toList symbols) ∧
        parse mode source = .ok e ∧
        text.toList = e.pieces.flatMap (fun piece =>
          piece.inserted dialect owner ++ piece.kept dialect) ∧
        (e.pieces.flatMap (Piece.kept dialect)).filter (· != dialect.quoteMark) =
          source.toList := by
  have word := isWord_of_table h
  have plainOwner : '*' ∉ owner.toList := by
    intro member
    have part := isPart_of_isWord word _ member
    revert part
    decide
  constructor
  · unfold qualify validate
    cases parse mode source <;> rfl
  · intro text written
    obtain ⟨e, parsed, rfl⟩ := Outcome.exists_of_map written
    obtain ⟨lexemes, scanned, _, _, classified⟩ := of_parse parsed
    obtain ⟨sound, _⟩ := Lexeme.sound_and_parts_of_scan scanned
    have made := matches_of_classify classified
    obtain ⟨symbols, admitted⟩ := solids_of_classify classified
    refine ⟨_, _, e, read?_source word scanned, (spells_sql parsed plainOwner).whole,
      nesting_of_parse parsed, ?_, symbols ▸ admitted, parsed, toList_sql word e, ?_⟩
    · rw [read?_pieces word scanned made, symbols]
    · rw [filter_kept made sound, Lexeme.flatten_scan scanned]

theorem read_qualify_items :
    Identifier.check .table "o".toList = .ok () ∧
      validate .column "COALESCE(amount, 0) + items.qty" = .ok () ∧
      ∃ tokens, lex .mysql
          "COALESCE(\x60o\x60.\x60amount\x60, 0) + \x60items\x60.\x60qty\x60".toList = some tokens ∧
        Symbol.read? tokens = some [.word "COALESCE".toList, .opening,
          .name ["o".toList, "amount".toList], .comma, .number ['0'], .closing, .operator ['+'],
          .name ["items".toList, "qty".toList]] := by
  have table : Identifier.check .table "o".toList = .ok () := by decide
  have written : qualify .column .mysql "o" "COALESCE(amount, 0) + items.qty" =
      .ok "COALESCE(\x60o\x60.\x60amount\x60, 0) + \x60items\x60.\x60qty\x60" := by decide +kernel
  have given : Symbol.read? ("COALESCE(amount, 0) + items.qty".toList.map plain) =
      some [.word "COALESCE".toList, .opening, .word "amount".toList, .comma, .number ['0'],
        .closing, .operator ['+'], .word "items.qty".toList] := by decide +kernel
  obtain ⟨accepts, reads⟩ :=
    read_qualify table .column .mysql "COALESCE(amount, 0) + items.qty"
  obtain ⟨symbols, tokens, _, source, lexed, _, read, _⟩ := reads _ written
  rw [written] at accepts
  obtain rfl := Option.some.inj (given.symm.trans source)
  exact ⟨table, accepts.symm, tokens, lexed, read⟩

end RelationQuery.Expression
