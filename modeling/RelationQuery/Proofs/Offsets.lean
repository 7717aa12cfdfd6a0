import RelationQuery.Text.Blank

/-! Texts by their bytes. Main statements: a byte that begins a character is in the same classes of
ASCII characters as the character, so that reading goes as far byte by byte as it does character by
character, and what is between two boundaries is the characters that are. -/
namespace RelationQuery.Text

/-! ### Widths -/

def width : List Char → Nat
  | [] => 0
  | c :: cs => c.utf8Size + width cs

@[simp] theorem width_nil : width [] = 0 := rfl

@[simp] theorem width_cons (c : Char) (cs : List Char) : width (c :: cs) = c.utf8Size + width cs :=
  rfl

@[simp] theorem width_append (cs more : List Char) :
    width (cs ++ more) = width cs + width more := by
  induction cs with
  | nil => simp
  | cons c cs ih => rw [List.cons_append, width_cons, width_cons, ih, Nat.add_assoc]

theorem width_pos {cs : List Char} (held : cs ≠ []) : 0 < width cs := by
  obtain ⟨c, more, rfl⟩ := List.exists_cons_of_ne_nil held
  exact Nat.add_pos_left c.utf8Size_pos _

@[simp] theorem size_utf8Encode (cs : List Char) : cs.utf8Encode.size = width cs := by
  induction cs with
  | nil => simp
  | cons c cs ih =>
    rw [List.utf8Encode_cons, ByteArray.size_append, List.utf8Encode_singleton,
      List.size_toByteArray, String.length_utf8EncodeChar, ih, width_cons]

@[simp] theorem utf8ByteSize_ofList (cs : List Char) :
    (String.ofList cs).utf8ByteSize = width cs := by
  rw [← String.size_toByteArray, String.toByteArray_ofList, size_utf8Encode]

/-! ### Bytes -/

def byte? (s : String) (offset : Nat) : Option Char := s.toByteArray[offset]?.map Char.ofUInt8

def leading (c : Char) : Char :=
  Char.ofUInt8 ((String.utf8EncodeChar c).head String.utf8EncodeChar_ne_nil)

theorem byte?_append (before cs : List Char) :
    byte? (String.ofList (before ++ cs)) (width before) = cs.head?.map leading := by
  rw [byte?, String.toByteArray_ofList, List.utf8Encode_append]
  cases cs with
  | nil =>
    rw [getElem?_neg]
    · rfl
    · simp
  | cons c cs =>
    have inRange : width before < (before.utf8Encode ++ (c :: cs).utf8Encode).size := by
      rw [ByteArray.size_append, size_utf8Encode, size_utf8Encode]
      exact Nat.lt_add_of_pos_right (width_pos (by simp))
    have first : 0 < (String.utf8EncodeChar c).toByteArray.size := by
      simpa using c.utf8Size_pos
    rw [getElem?_pos (before.utf8Encode ++ (c :: cs).utf8Encode) (width before) inRange,
      ByteArray.getElem_append_right (by simp), List.head?_cons, Option.map_some, Option.map_some,
      leading]
    congr 2
    simp only [size_utf8Encode, Nat.sub_self, @List.utf8Encode_cons c cs, List.utf8Encode_singleton,
      ByteArray.getElem_append_left first, List.getElem_toByteArray, List.head_eq_getElem]

theorem byte?_eq_none {s : String} {offset : Nat} (beyond : s.utf8ByteSize ≤ offset) :
    byte? s offset = none := by
  rw [byte?, getElem?_neg s.toByteArray offset (by simpa using beyond), Option.map_none]

theorem utf8Size_of_lt {c : Char} (small : c.toNat < 128) : c.utf8Size = 1 := by
  rw [Char.utf8Size_eq_one_iff, UInt32.le_iff_toNat_le]
  exact Nat.le_of_lt_succ small

theorem leading_of_lt {c : Char} (small : c.toNat < 128) : leading c = c := by
  simp only [leading, String.utf8EncodeChar_eq_singleton (utf8Size_of_lt small), List.head_cons]
  refine Char.ext (UInt32.toNat_inj.1 ?_)
  change c.val.toNat % 2 ^ 8 = c.val.toNat
  exact Nat.mod_eq_of_lt (Nat.lt_trans small (by decide))

theorem le_leading_of_le {c : Char} (large : 128 ≤ c.toNat) : 128 ≤ (leading c).toNat := by
  change 128 ≤ ((String.utf8EncodeChar c).head String.utf8EncodeChar_ne_nil).toNat
  -- One case for each width; the first byte of more than one has its high bits set.
  simp only [String.utf8EncodeChar]
  split
  next small =>
    have : c.toNat ≤ 127 := small
    omega
  split
  next =>
    simp only [List.head_cons, UInt8.toNat_ofNat']
    omega
  split
  next =>
    simp only [List.head_cons, UInt8.toNat_ofNat']
    omega
  next =>
    simp only [List.head_cons, UInt8.toNat_ofNat']
    omega

/-! ### Classes of ASCII characters -/

def IsAscii (p : Char → Bool) : Prop := ∀ c, p c → c.toNat < 128

variable {p : Char → Bool}

theorem IsAscii.apply_leading (ascii : IsAscii p) (c : Char) : p (leading c) = p c := by
  rcases Nat.lt_or_ge c.toNat 128 with small | large
  · rw [leading_of_lt small]
  · have outside : p c = false := Bool.eq_false_iff.2 fun inside =>
      Nat.not_lt.2 large (ascii c inside)
    have behind : p (leading c) = false := Bool.eq_false_iff.2 fun inside =>
      Nat.not_lt.2 (le_leading_of_le large) (ascii _ inside)
    rw [outside, behind]

theorem IsAscii.any_byte? (ascii : IsAscii p) (before cs : List Char) :
    (byte? (String.ofList (before ++ cs)) (width before)).any p = cs.head?.any p := by
  rw [byte?_append, Option.any_map]
  exact congrArg (Option.any · cs.head?) (funext ascii.apply_leading)

theorem lt_of_any_byte? {s : String} {offset : Nat} (found : (byte? s offset).any p) :
    offset < s.utf8ByteSize := by
  refine Nat.lt_of_not_le fun beyond => ?_
  rw [byte?_eq_none beyond] at found
  cases found

/-- The first offset from `offset` on at which there is no byte of the class. -/
def skip (p : Char → Bool) (s : String) (offset : Nat) : Nat :=
  if (byte? s offset).any p then skip p s (offset + 1) else offset
termination_by s.utf8ByteSize - offset
decreasing_by
  rename_i found
  have := lt_of_any_byte? found
  omega

theorem le_skip (s : String) (offset : Nat) : offset ≤ skip p s offset := by
  fun_induction skip p s offset with
  | case1 offset found ih => omega
  | case2 => exact Nat.le_refl _

theorem lt_skip {s : String} {offset : Nat} (found : (byte? s offset).any p) :
    offset < skip p s offset := by
  rw [skip, if_pos found]
  exact le_skip s (offset + 1)

/-- By induction on the characters: each of the class is one byte. -/
theorem IsAscii.skip_append (ascii : IsAscii p) (before cs : List Char) :
    skip p (String.ofList (before ++ cs)) (width before) =
      width (before ++ cs.takeWhile p) := by
  induction cs generalizing before with
  | nil =>
    rw [skip, ascii.any_byte?]
    simp
  | cons c cs ih =>
    rw [skip, ascii.any_byte?, List.head?_cons, Option.any_some, List.takeWhile_cons]
    cases inside : p c with
    | false => simp
    | true =>
      have small : c.utf8Size = 1 := utf8Size_of_lt (ascii c inside)
      have further := ih (before ++ [c])
      simp only [List.append_assoc, List.singleton_append, width_append, width_cons, width_nil,
        small] at further
      simp only [if_true, further, width_append, width_cons, small]

/-! ### Boundaries -/

abbrev IsBoundary (s : String) (offset : Nat) : Prop := String.Pos.Raw.IsValid s ⟨offset⟩

theorem isBoundary_append (before after : List Char) :
    IsBoundary (String.ofList (before ++ after)) (width before) :=
  String.Pos.Raw.isValid_ofList.2 ⟨before.length, by simp⟩

theorem IsBoundary.exists_append {cs : List Char} {offset : Nat}
    (h : IsBoundary (String.ofList cs) offset) :
    ∃ before after, cs = before ++ after ∧ offset = width before := by
  obtain ⟨count, length⟩ := String.Pos.Raw.isValid_ofList.1 h
  exact ⟨cs.take count, cs.drop count, (List.take_append_drop count cs).symm, by simpa using length⟩

/-- The text between two offsets. There is none if they are in the wrong order or one of them is
inside a character or beyond the end. -/
def between? (s : String) (start stop : Nat) : Option String :=
  if h : start ≤ stop ∧ IsBoundary s start ∧ IsBoundary s stop then
    some (s.extract (s.pos ⟨start⟩ h.2.1) (s.pos ⟨stop⟩ h.2.2))
  else none

theorem between?_append (before inner after : List Char) :
    between? (String.ofList (before ++ inner ++ after)) (width before)
      (width (before ++ inner)) = some (String.ofList inner) := by
  have first : IsBoundary (String.ofList (before ++ inner ++ after)) (width before) := by
    rw [List.append_assoc]
    exact isBoundary_append before (inner ++ after)
  rw [between?, dif_pos ⟨by simp, first, isBoundary_append (before ++ inner) after⟩,
    Option.some_inj, ← String.toByteArray_inj, String.toByteArray_extract, String.offset_pos,
    String.offset_pos, String.toByteArray_ofList, String.toByteArray_ofList,
    List.append_assoc, List.utf8Encode_append, List.utf8Encode_append, width_append]
  have behind := @ByteArray.extract_append_size_add before.utf8Encode
    (inner.utf8Encode ++ after.utf8Encode) 0 (width inner)
  rw [size_utf8Encode, Nat.add_zero] at behind
  rw [behind, ByteArray.extract_append_eq_left (size_utf8Encode inner).symm]

theorem between?_end (before inner : List Char) :
    between? (String.ofList (before ++ inner)) (width before) (width (before ++ inner)) =
      some (String.ofList inner) := by
  have slice := between?_append before inner []
  rwa [List.append_nil] at slice

end RelationQuery.Text
