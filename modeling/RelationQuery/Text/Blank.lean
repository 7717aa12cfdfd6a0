/-! Blank characters, and the cuts a text is divided by. -/
namespace RelationQuery.Text

/-- Unicode White_Space, whole: no control separator and no zero-width character is in it. -/
def isBlank (c : Char) : Bool :=
  ('\t' ≤ c && c ≤ '\r') || c == ' ' || c == '\u0085' || c == '\u00a0' || c == '\u1680' ||
    ('\u2000' ≤ c && c ≤ '\u200a') || c == '\u2028' || c == '\u2029' || c == '\u202f' ||
    c == '\u205f' || c == '\u3000'

def trimStart (cs : List Char) : List Char := cs.dropWhile isBlank

def trimEnd (cs : List Char) : List Char := (cs.reverse.dropWhile isBlank).reverse

def trim (cs : List Char) : List Char := trimEnd (trimStart cs)

def trimmed (s : String) : String := String.ofList (trim s.toList)

def words (cs : List Char) : List (List Char) :=
  (cs.splitOnP isBlank).filter (!·.isEmpty)

def occurs (part : List Char) : List Char → Bool
  | [] => part.isEmpty
  | c :: cs => part.isPrefixOf (c :: cs) || occurs part cs

theorem mem_intercalate_of_mem {α : Type} {separator part : List α} {parts : List (List α)} {c : α}
    (member : part ∈ parts) (h : c ∈ part) : c ∈ separator.intercalate parts := by
  induction parts with
  | nil => cases member
  | cons first rest ih =>
    cases rest with
    | nil =>
      obtain rfl : part = first := by simpa using member
      simpa using h
    | cons second rest =>
      rw [List.intercalate_cons_cons]
      rcases List.mem_cons.1 member with rfl | member
      · simp [h]
      · simp [ih member]

theorem mem_of_mem_intercalate {α : Type} {separator : List α} {parts : List (List α)} {c : α}
    (h : c ∈ separator.intercalate parts) : c ∈ separator ∨ ∃ part ∈ parts, c ∈ part := by
  induction parts with
  | nil => simp at h
  | cons first rest ih =>
    cases rest with
    | nil => exact .inr ⟨first, List.mem_cons_self, by simpa using h⟩
    | cons second rest =>
      rw [List.intercalate_cons_cons] at h
      simp only [List.mem_append] at h
      rcases h with (here | mark) | later
      · exact .inr ⟨first, List.mem_cons_self, here⟩
      · exact .inl mark
      · rcases ih later with mark | ⟨part, member, found⟩
        · exact .inl mark
        · exact .inr ⟨part, List.mem_cons_of_mem _ member, found⟩

theorem of_mem_splitOnP {α : Type} {p : α → Bool} {xs part : List α} {x : α}
    (found : part ∈ xs.splitOnP p) (member : x ∈ part) : x ∈ xs ∧ p x = false := by
  induction xs generalizing part with
  | nil =>
    obtain rfl : part = [] := by simpa using found
    cases member
  | cons first rest ih =>
    have later {part : List α} (found : part ∈ rest.splitOnP p) (member : x ∈ part) :
        x ∈ first :: rest ∧ p x = false :=
      (ih found member).imp (List.mem_cons_of_mem _) id
    rw [List.splitOnP_cons_eq_if_modifyHead] at found
    split at found
    · rcases List.mem_cons.1 found with rfl | found
      · cases member
      · exact later found member
    · next solid =>
      obtain ⟨head, tail, split⟩ := List.exists_cons_of_ne_nil (List.splitOnP_ne_nil p rest)
      rw [split] at found later
      rcases List.mem_cons.1 found with rfl | found
      · rcases List.mem_cons.1 member with rfl | member
        · exact ⟨List.mem_cons_self, Bool.eq_false_iff.2 solid⟩
        · exact later List.mem_cons_self member
      · exact later (List.mem_cons_of_mem _ found) member

end RelationQuery.Text
