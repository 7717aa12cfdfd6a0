import RelationQuery.Proofs.Reading

/-! What conditions say. Main statement: conditions joined by AND say what each of them says, and
those joined by OR what one of them does. -/
namespace RelationQuery.Part

open Token

/-- What a conjunct is: a condition in parentheses, one that is denied, a column that has one of
some values, or a comparison of its own. -/
inductive Form where
  | group (parts : List Part)
  | denial (parts : List Part)
  | member (subject : List Lexeme) (values : List Part)
  | comparison

def form (conjunct : List Lexeme) : Form :=
  match conjunct with
  | [[.group parts]] => .group parts
  | [word, [.group parts]] => if isKeyword "NOT" word then .denial parts else .comparison
  | conjunct =>
    match conjunct.reverse with
    | [.group values] :: word :: subject =>
      if isKeyword "IN" word && !subject.head?.any (isKeyword "NOT") then
        .member subject.reverse values
      else .comparison
    | _ => .comparison

def isComma : Part → Bool
  | .token (.plain c) => c == ','
  | _ => false

def items (values : List Part) : List (List Lexeme) := (values.splitOnP isComma).map lexemes

def equality (subject value : List Lexeme) : List Lexeme :=
  subject ++ [.token (.plain '=')] :: value

theorem mem_of_mem_lexemes {parts : List Part} {lexeme : Lexeme} {part : Part}
    (inside : lexeme ∈ lexemes parts) (member : part ∈ lexeme) : part ∈ parts := by
  rw [← List.flatten_splitBy (fun first second =>
    first.letter?.isSome && second.letter?.isSome) parts]
  exact List.mem_flatten.2 ⟨lexeme, (List.mem_filter.1 inside).1, member⟩

theorem mem_of_mem_alternatives {parts : List Part} {alternative : List (List Lexeme)}
    {conjunct : List Lexeme} {lexeme : Lexeme} {part : Part}
    (held : alternative ∈ alternatives parts) (among : conjunct ∈ alternative)
    (inside : lexeme ∈ conjunct) (member : part ∈ lexeme) : part ∈ parts := by
  obtain ⟨lexemes, parted, rfl⟩ := List.mem_map.1 held
  have inside := (Text.of_mem_splitOnP parted (Text.of_mem_splitOnP among inside).1).1
  exact mem_of_mem_lexemes inside member

theorem mem_of_form {conjunct : List Lexeme} {parts : List Part}
    (h : form conjunct = .group parts ∨ form conjunct = .denial parts) :
    ∃ lexeme ∈ conjunct, .group parts ∈ lexeme := by
  unfold form at h
  split at h
  · simp_all
  · split at h <;> simp_all
  · split at h
    · split at h <;> simp at h
    · simp at h

theorem sizeOf_lt_of_form {parts inner : List Part} {alternative : List (List Lexeme)}
    {conjunct : List Lexeme} (held : alternative ∈ alternatives parts)
    (among : conjunct ∈ alternative)
    (h : form conjunct = .group inner ∨ form conjunct = .denial inner) :
    sizeOf inner < sizeOf parts := by
  obtain ⟨lexeme, inside, member⟩ := mem_of_form h
  have less := List.sizeOf_lt_of_mem (mem_of_mem_alternatives held among inside member)
  rw [Part.group.sizeOf_spec] at less
  omega

/-- Whether a condition holds, when it is known which comparisons do: OR binds less than AND, and
AND less than NOT. -/
def Says (holds : List Lexeme → Prop) (parts : List Part) : Prop :=
  ∃ alternative, ∃ _ : alternative ∈ alternatives parts,
    ∀ conjunct, (_ : conjunct ∈ alternative) →
      match _ : form conjunct with
      | .group inner => Says holds inner
      | .denial inner => ¬Says holds inner
      | .member subject values => ∃ value ∈ items values, holds (equality subject value)
      | .comparison => holds conjunct
termination_by sizeOf parts
decreasing_by
  · exact sizeOf_lt_of_form ‹_› ‹_› (.inl ‹_›)
  · exact sizeOf_lt_of_form ‹_› ‹_› (.inr ‹_›)

variable {holds : List Lexeme → Prop}

def Judges (holds : List Lexeme → Prop) (conjunct : List Lexeme) : Prop :=
  match form conjunct with
  | .group inner => Says holds inner
  | .denial inner => ¬Says holds inner
  | .member subject values => ∃ value ∈ items values, holds (equality subject value)
  | .comparison => holds conjunct

theorem says_iff {parts : List Part} : Says holds parts ↔
    ∃ alternative ∈ alternatives parts, ∀ conjunct ∈ alternative, Judges holds conjunct := by
  rw [Says]
  constructor
  · rintro ⟨alternative, held, all⟩
    refine ⟨alternative, held, fun conjunct among => ?_⟩
    have each := all conjunct among
    unfold Judges
    split at each <;> simp_all
  · rintro ⟨alternative, held, all⟩
    refine ⟨alternative, held, fun conjunct among => ?_⟩
    have each := all conjunct among
    unfold Judges at each
    split <;> simp_all

theorem says_conjoin {conjuncts : List (List Part)} (held : conjuncts ≠ [])
    (clear : ∀ conjunct ∈ conjuncts, Clear conjunct) :
    Says holds (between.intercalate conjuncts) ↔
      ∀ conjunct ∈ conjuncts, Judges holds (lexemes conjunct) := by
  rw [says_iff, alternatives_of_clear held clear]
  simp

theorem says_disjoin {disjuncts : List (List Part)} (held : disjuncts ≠ [])
    (clear : ∀ disjunct ∈ disjuncts, Clear disjunct) :
    Says holds (either.intercalate disjuncts) ↔
      ∃ disjunct ∈ disjuncts, Judges holds (lexemes disjunct) := by
  rw [says_iff, alternatives_disjoin held clear]
  simp

theorem lexemes_group (parts : List Part) : lexemes [.group parts] = [[.group parts]] := rfl

theorem clear_group (parts : List Part) : Clear [.group parts] :=
  clear_of_wordless (by simp [letter?])

theorem judges_group {parts : List Part} :
    Judges holds (lexemes [.group parts]) ↔ Says holds parts := Iff.rfl

theorem judges_of_tokens {parts : List Part} (h : ∀ part ∈ parts, ∃ token, part = .token token) :
    Judges holds (lexemes parts) ↔ holds (lexemes parts) := by
  have bare (inner : List Part) : [.group inner] ∉ lexemes parts := by
    intro member
    obtain ⟨token, same⟩ := h _ (mem_of_mem_lexemes member List.mem_cons_self)
    cases same
  have comparison : form (lexemes parts) = .comparison := by
    unfold form
    split
    · next inner whole => exact absurd (whole ▸ List.mem_cons_self) (bare inner)
    · next word inner whole => exact absurd (whole ▸ by simp) (bare inner)
    · split
      · next inner word subject reversed =>
        refine absurd ?_ (bare inner)
        rw [← List.mem_reverse, reversed]
        exact List.mem_cons_self
      · rfl
  rw [Judges, comparison]

theorem judges_member {subject : List Lexeme} {word : Lexeme} {values : List Part}
    (held : subject ≠ []) (isIn : isKeyword "IN" word = true)
    (plain : ∀ lexeme ∈ subject, isKeyword "NOT" lexeme = false) :
    Judges holds (subject ++ [word, [.group values]]) ↔
      ∃ value ∈ items values, holds (equality subject value) := by
  have member : form (subject ++ [word, [.group values]]) = .member subject values := by
    have reversed : (subject ++ [word, [.group values]]).reverse =
        [.group values] :: word :: subject.reverse := by simp
    have denied : subject.reverse.head?.any (isKeyword "NOT") = false := by
      rw [List.head?_reverse, Option.any_eq_false]
      exact fun lexeme last => by simp [plain lexeme (List.mem_of_getLast? last)]
    obtain ⟨first, rest, rfl⟩ := List.exists_cons_of_ne_nil held
    unfold form
    split
    · next whole =>
      have length := congrArg List.length whole
      simp at length
    · next whole =>
      have length := congrArg List.length whole
      simp at length
    · simp only [reversed, isIn, denied, Bool.not_false, Bool.and_true, if_true,
        List.reverse_reverse]
  rw [Judges, member]

theorem toLower_of_isDigit {c : Char} (h : c.isDigit) : c.toLower = c := by
  have upper : ¬('A'.val ≤ c.val ∧ c.val ≤ 'Z'.val) := by
    rintro ⟨low, _⟩
    simp only [Char.isDigit, Bool.and_eq_true, decide_eq_true_eq] at h
    have nine := UInt32.le_iff_toNat_le.1 h.2
    have less := UInt32.le_iff_toNat_le.1 low
    have first : 'A'.val.toNat = 65 := rfl
    have last : '9'.val.toNat = 57 := rfl
    omega
  exact dif_neg upper

theorem not_isKeyword_of_lacks {keyword : String} {parts : List Part} {c : Char}
    (needs : c ∈ keyword.toList.map Char.toLower)
    (lacks : ∀ part ∈ parts, ∀ d ∈ part.letter?, d.toLower ≠ c) {lexeme : Lexeme}
    (member : lexeme ∈ lexemes parts) : isKeyword keyword lexeme = false := by
  rw [Bool.eq_false_iff]
  intro same
  have letters : keyword.toList.map Char.toLower =
      (lexeme.filterMap letter?).map Char.toLower := Text.sameLetters_iff.1 same
  rw [letters] at needs
  obtain ⟨d, among, lower⟩ := List.mem_map.1 needs
  obtain ⟨part, inside, letter⟩ := List.mem_filterMap.1 among
  exact lacks part (mem_of_mem_lexemes member inside) d letter lower

theorem Made.behind {dialect : Dialect} {front text : String} {tokens : List Token}
    {parts : List Part} (spells : Spells dialect (fun _ => True) front tokens)
    (flat : ∀ token ∈ tokens, token ≠ .plain '(' ∧ token ≠ .plain ')')
    (h : Made dialect text parts) : Made dialect (front ++ text) (tokens.map .token ++ parts) := by
  obtain ⟨back, follows, adds⟩ := h
  refine ⟨tokens ++ back, spells.append follows fun _ _ => True.intro, fun levels => ?_⟩
  rw [List.foldlM_append, Levels.foldlM_flat flat, Option.bind_eq_bind, Option.bind_some, adds,
    List.append_assoc]

theorem Made.enclose {dialect : Dialect} {text : String} {parts : List Part}
    (h : Made dialect text parts) : Made dialect ("(" ++ text ++ ")") [.group parts] := by
  obtain ⟨tokens, spells, adds⟩ := h
  refine ⟨.plain '(' :: (tokens ++ [.plain ')']), ?_, fun levels => ?_⟩
  · have opening : Fixed "(" 0 1 := by decide
    have closing : Fixed ")" 1 0 := by decide
    have inside := (Spells.of_fixed opening).append spells fun _ _ => True.intro
    refine (inside.append (Spells.of_fixed closing) fun rest _ => ?_).narrow fun _ _ => True.intro
    simp [Parted]
  · rw [List.foldlM_cons, Levels.add_opening, Option.bind_eq_bind, Option.bind_some,
      List.foldlM_append, adds]
    rfl

end RelationQuery.Part
