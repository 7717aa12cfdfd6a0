/-! Comparison of words without regard to ASCII case. -/
namespace RelationQuery.Text

def sameLetters (a b : List Char) : Bool := a.map Char.toLower == b.map Char.toLower

def isListed (list : List String) (word : List Char) : Bool :=
  list.any fun entry => sameLetters entry.toList word

@[simp] theorem sameLetters_iff {a b : List Char} :
    sameLetters a b ↔ a.map Char.toLower = b.map Char.toLower := by
  unfold sameLetters
  exact beq_iff_eq

end RelationQuery.Text
