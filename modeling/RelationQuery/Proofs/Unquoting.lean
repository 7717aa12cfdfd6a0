import RelationQuery.Proofs.Quoting

/-! What is quoted, read back from the begin of a longer text. Main statement: literals and dotted
names are read back whole, and what follows them is left as it was; so no two of them are written
alike. -/
namespace RelationQuery.Dialect

open Token

def prepend (front : List Char) (read : Option (List Char × List Char)) :
    Option (List Char × List Char) :=
  read.map fun (text, left) => (front ++ text, left)

/-- Reads up to the mark that ends what is quoted, and leaves what stands behind that mark. A
doubled mark does not end it, nor in a literal of MySQL does a mark behind a backslash. -/
def readQuoted (dialect : Dialect) (mark : Char) : List Char → Option (List Char × List Char)
  | [] => none
  | [c] => if c = mark then some ([], []) else none
  | c :: d :: rest =>
    if c = mark then
      if d = mark then prepend [mark] (readQuoted dialect mark rest) else some ([], d :: rest)
    else if c = '\\' ∧ mark = '\'' ∧ dialect = .mysql then
      prepend (unescape d) (readQuoted dialect mark rest)
    else prepend [c] (readQuoted dialect mark (d :: rest))

def readLiteral (dialect : Dialect) : List Char → Option (List Char × List Char)
  | [] => none
  | c :: rest => if c = '\'' then dialect.readQuoted '\'' rest else none

def readPart (dialect : Dialect) : List Char → Option (List Char × List Char)
  | [] => none
  | c :: rest =>
    if c = '*' then some (['*'], rest)
    else if c = dialect.quoteMark then dialect.readQuoted dialect.quoteMark rest
    else none

variable {dialect : Dialect} {mark : Char}

theorem exists_of_prepend {front text left : List Char} {read : Option (List Char × List Char)}
    (h : prepend front read = some (text, left)) :
    ∃ inner, read = some (inner, left) ∧ text = front ++ inner := by
  obtain ⟨⟨inner, _⟩, found, same⟩ := Option.map_eq_some_iff.1 h
  cases same
  exact ⟨inner, found, rfl⟩

theorem length_of_readQuoted {cs text left : List Char}
    (h : dialect.readQuoted mark cs = some (text, left)) : left.length < cs.length := by
  fun_induction readQuoted dialect mark cs generalizing text with
  | case1 | case3 => cases h
  | case2 | case5 => cases h; simp
  | case4 rest ih | case6 _ _ rest _ _ ih | case7 _ _ rest _ _ ih =>
    obtain ⟨inner, found, _⟩ := exists_of_prepend h
    have shorter := ih found
    simp only [List.length_cons] at *
    omega

theorem length_of_readPart {cs text left : List Char}
    (h : dialect.readPart cs = some (text, left)) : left.length < cs.length := by
  cases cs with
  | nil => cases h
  | cons c rest =>
    rw [readPart] at h
    split at h
    · cases h
      simp
    · split at h
      · have := length_of_readQuoted h
        simp only [List.length_cons]
        omega
      · cases h

def readName (dialect : Dialect) (cs : List Char) : Option (List (List Char) × List Char) :=
  match _h : dialect.readPart cs with
  | none => none
  | some (part, rest) =>
    if rest.head? = some '.' then
      (dialect.readName rest.tail).map fun (parts, left) => (part :: parts, left)
    else some ([part], rest)
termination_by cs.length
decreasing_by
  have := length_of_readPart _h
  simp only [List.length_tail]
  omega

theorem readName_of_readPart {cs part rest : List Char}
    (h : dialect.readPart cs = some (part, rest)) :
    dialect.readName cs = if rest.head? = some '.' then
        (dialect.readName rest.tail).map fun (parts, left) => (part :: parts, left)
      else some ([part], rest) := by
  rw [readName]
  split
  · next missing => rw [missing] at h; cases h
  · next found => rw [found] at h; cases h; rfl

/-! ### The reader and the lexer -/

theorem bind_prepend {α : Type} (front : List Char) (read : Option (List Char × List Char))
    (next : List Char × List Char → Option α) :
    (prepend front read).bind next =
      read.bind fun (text, left) => next (front ++ text, left) := by
  cases read <;> rfl

theorem lexFrom_inside (cs text : List Char) :
    lexFrom dialect (.inside ⟨mark, text⟩) cs =
      (dialect.readQuoted mark cs).bind fun (more, rest) =>
        (lex dialect rest).map (Quoted.token ⟨mark, text ++ more⟩ :: ·) := by
  fun_induction readQuoted dialect mark cs generalizing text with
  | case1 => rfl
  | case2 => simp [lexFrom, step, finish, lex]
  | case3 c other =>
    by_cases backslash : c = '\\' ∧ mark = '\'' ∧ dialect = .mysql
    · simp [lexFrom, step, backslash, finish]
    · simp [lexFrom, step, other, backslash, finish]
  | case4 rest ih =>
    have doubled : step dialect (.marked ⟨mark, text⟩) mark =
        some ([], .inside ⟨mark, text ++ [mark]⟩) := if_pos rfl
    rw [bind_prepend, lexFrom_cons_of_step (step_mark mark text), lexFrom_cons_of_step doubled, ih]
    simp only [List.append_assoc]
  | case5 d rest other =>
    have ends : (d :: rest).head? ≠ some mark := by simpa using other
    rw [lexFrom_cons_of_step (step_mark mark text), lexFrom_marked ends]
    simp only [Option.bind_some, List.append_nil]
  | case6 c d rest other backslash ih =>
    have escapes : step dialect (.inside ⟨mark, text⟩) c = some ([], .escaped ⟨mark, text⟩) := by
      rw [step, if_neg other, if_pos backslash]
    have escaped : step dialect (.escaped ⟨mark, text⟩) d =
        some ([], .inside ⟨mark, text ++ unescape d⟩) := rfl
    rw [bind_prepend, lexFrom_cons_of_step escapes, lexFrom_cons_of_step escaped, ih]
    simp only [List.append_assoc]
  | case7 c d rest other plain ih =>
    have stands : step dialect (.inside ⟨mark, text⟩) c =
        some ([], .inside ⟨mark, text ++ [c]⟩) := by
      rw [step, if_neg other, if_neg plain]
      rfl
    rw [bind_prepend, lexFrom_cons_of_step stands, ih]
    simp only [List.append_assoc]

theorem lex_cons_mark (opens : mark = '\'' ∨ mark = dialect.quoteMark) (cs : List Char) :
    lex dialect (mark :: cs) = (dialect.readQuoted mark cs).bind fun (text, rest) =>
      (lex dialect rest).map (Quoted.token ⟨mark, text⟩ :: ·) := by
  rw [lex, lexFrom_cons_of_step (step_begin opens)]
  exact lexFrom_inside cs []

/-! ### What was written -/

def Decodes (dialect : Dialect) (mark : Char) (escape : Char → List Char) : Prop :=
  ∀ (c : Char) (rest : List Char),
    dialect.readQuoted mark (escape c ++ rest) = prepend [c] (dialect.readQuoted mark rest)

theorem readQuoted_cons {c : Char} (other : c ≠ mark)
    (plain : ¬(c = '\\' ∧ mark = '\'' ∧ dialect = .mysql)) (rest : List Char) :
    dialect.readQuoted mark (c :: rest) = prepend [c] (dialect.readQuoted mark rest) := by
  cases rest with
  | nil => simp [readQuoted, other, prepend]
  | cons d rest => rw [readQuoted, if_neg other, if_neg plain]

theorem decodes_quoteMark (dialect : Dialect) : Decodes dialect dialect.quoteMark
    fun c => if c = dialect.quoteMark then [dialect.quoteMark, dialect.quoteMark] else [c] := by
  intro c rest
  dsimp only
  by_cases mark : c = dialect.quoteMark
  · subst mark
    rw [if_pos rfl, List.cons_append, List.cons_append, List.nil_append, readQuoted, if_pos rfl,
      if_pos rfl]
  · rw [if_neg mark, List.singleton_append]
    exact readQuoted_cons mark (fun special => quoteMark_ne dialect special.2.1) rest

theorem decodes_escapeLiteral (dialect : Dialect) : Decodes dialect '\'' dialect.escapeLiteral := by
  intro c rest
  unfold escapeLiteral
  by_cases mark : c = '\''
  · rw [if_pos mark, List.cons_append, List.cons_append, List.nil_append, readQuoted, if_pos rfl,
      if_pos rfl, mark]
  · rw [if_neg mark]
    by_cases backslash : c = '\\' ∧ dialect = .mysql
    · obtain ⟨rfl, rfl⟩ := backslash
      rfl
    · rw [if_neg backslash, List.singleton_append]
      exact readQuoted_cons mark (fun special => backslash ⟨special.1, special.2.2⟩) rest

/-- Behind one mark more the text goes on, behind any other character it has ended. -/
theorem readQuoted_flatMap {escape : Char → List Char} (decodes : Decodes dialect mark escape)
    (cs : List Char) {rest : List Char} (h : rest.head? ≠ some mark) :
    dialect.readQuoted mark (cs.flatMap escape ++ mark :: rest) = some (cs, rest) := by
  induction cs with
  | nil =>
    cases rest with
    | nil => rw [List.flatMap_nil, List.nil_append, readQuoted, if_pos rfl]
    | cons d rest =>
      have other : d ≠ mark := by simpa using h
      rw [List.flatMap_nil, List.nil_append, readQuoted, if_pos rfl, if_neg other]
  | cons c cs ih =>
    rw [List.flatMap_cons, List.append_assoc, decodes, ih]
    rfl

theorem readLiteral_literalChars (text : List Char) {rest : List Char}
    (h : rest.head? ≠ some '\'') :
    dialect.readLiteral (dialect.literalChars text ++ rest) = some (text, rest) := by
  rw [literalChars, List.cons_append, List.append_assoc, readLiteral, if_pos rfl]
  exact readQuoted_flatMap (decodes_escapeLiteral dialect) text h

theorem readPart_quotePart (part : List Char) {rest : List Char}
    (h : rest.head? ≠ some dialect.quoteMark) :
    dialect.readPart (dialect.quotePart part ++ rest) = some (part, rest) := by
  have bare : dialect.quoteMark ≠ '*' := by cases dialect <;> decide
  unfold quotePart
  split
  · next star =>
    subst star
    rfl
  · rw [enclose, List.cons_append, List.append_assoc, readPart, if_neg bare, if_pos rfl]
    exact readQuoted_flatMap (decodes_quoteMark dialect) part h

theorem readName_intercalate {parts : List (List Char)} (held : parts ≠ []) {rest : List Char}
    (apart : rest.head? ≠ some dialect.quoteMark) (last : rest.head? ≠ some '.') :
    dialect.readName (['.'].intercalate (parts.map dialect.quotePart) ++ rest) =
      some (parts, rest) := by
  have dot : '.' ≠ dialect.quoteMark := by cases dialect <;> decide
  induction parts with
  | nil => exact absurd rfl held
  | cons part more ih =>
    cases more with
    | nil =>
      rw [List.map_singleton, List.intercalate_singleton,
        readName_of_readPart (readPart_quotePart part apart), if_neg last]
    | cons next more =>
      rw [List.map_cons, List.map_cons, List.intercalate_cons_cons, List.append_assoc,
        List.append_assoc, List.singleton_append,
        readName_of_readPart (readPart_quotePart part (by simpa using dot)),
        if_pos List.head?_cons, List.tail_cons, ← List.map_cons, ih (List.cons_ne_nil _ _)]
      rfl

/-- Before a text that does not begin with the mark of a literal, a literal is read back and the
text is left; so is a name, part by part, before one that begins with neither a mark of names nor a
dot. Neither two literals nor two names are written alike. The reader of what is quoted is no other
than the one by which a whole statement is cut into tokens. -/
theorem read_written (dialect : Dialect) :
    (∀ (text : String) (rest : List Char), rest.head? ≠ some '\'' →
      dialect.readLiteral ((dialect.literal text).toList ++ rest) = some (text.toList, rest)) ∧
    (∀ (name : String) (rest : List Char), rest.head? ≠ some dialect.quoteMark →
      rest.head? ≠ some '.' →
      dialect.readName ((dialect.quote name).toList ++ rest) =
        some (name.toList.splitOn '.', rest)) ∧
    Function.Injective dialect.literal ∧ Function.Injective dialect.quote ∧
    ∀ (mark : Char) (cs : List Char), mark = '\'' ∨ mark = dialect.quoteMark →
      lex dialect (mark :: cs) = (dialect.readQuoted mark cs).bind fun (text, rest) =>
        (lex dialect rest).map (Quoted.token ⟨mark, text⟩ :: ·) := by
  have literals (text : String) (rest : List Char) (h : rest.head? ≠ some '\'') :
      dialect.readLiteral ((dialect.literal text).toList ++ rest) = some (text.toList, rest) := by
    rw [literal, String.toList_ofList]
    exact readLiteral_literalChars text.toList h
  have names (name : String) (rest : List Char) (apart : rest.head? ≠ some dialect.quoteMark)
      (last : rest.head? ≠ some '.') :
      dialect.readName ((dialect.quote name).toList ++ rest) =
        some (name.toList.splitOn '.', rest) := by
    rw [quote, String.toList_ofList]
    exact readName_intercalate (List.splitOn_ne_nil '.' _) apart last
  have ended (c : Char) : ([] : List Char).head? ≠ some c := by simp
  refine ⟨literals, names, fun text other same => ?_, fun name other same => ?_,
    fun mark cs opens => lex_cons_mark opens cs⟩
  · have first := literals text [] (ended _)
    rw [same, literals other [] (ended _)] at first
    exact (String.toList_inj.1 (congrArg Prod.fst (Option.some.inj first))).symm
  · have first := names name [] (ended _) (ended _)
    rw [same, names other [] (ended _) (ended _)] at first
    have parts : other.toList.splitOn '.' = name.toList.splitOn '.' :=
      congrArg Prod.fst (Option.some.inj first)
    have joined := congrArg (['.'].intercalate ·) parts
    simp only [List.intercalate_splitOn] at joined
    exact (String.toList_inj.1 joined).symm

theorem mysql_read_written :
    Dialect.mysql.readLiteral "'a\\\\''', 'b'".toList = some ("a\\'".toList, ", 'b'".toList) ∧
      Dialect.mysql.readName "\x60a\x60\x60\x60.* FROM".toList =
        some ([['a', '\x60'], ['*']], " FROM".toList) := by
  obtain ⟨literals, names, _⟩ := read_written .mysql
  have text : (Dialect.mysql.literal "a\\'").toList ++ ", 'b'".toList =
      "'a\\\\''', 'b'".toList := by decide +kernel
  have name : (Dialect.mysql.quote "a\x60.*").toList ++ " FROM".toList =
      "\x60a\x60\x60\x60.* FROM".toList := by decide +kernel
  have parts : "a\x60.*".toList.splitOn '.' = [['a', '\x60'], ['*']] := by decide +kernel
  rw [← text, ← name, ← parts]
  exact ⟨literals _ _ (by decide), names _ _ (by decide) (by decide)⟩

end RelationQuery.Dialect
