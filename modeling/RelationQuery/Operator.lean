import RelationQuery.Text.Blank
import RelationQuery.Text.Caseless

/-! Operators of conditions, and the keys that name a column together with one. -/
namespace RelationQuery

inductive Comparison where
  | equal
  | notEqual
  | less
  | lessOrEqual
  | greater
  | greaterOrEqual
  deriving DecidableEq

namespace Comparison

def sql : Comparison → String
  | .equal => "="
  | .notEqual => "!="
  | .less => "<"
  | .lessOrEqual => "<="
  | .greater => ">"
  | .greaterOrEqual => ">="

def ofSymbol? : List Char → Option Comparison
  | ['='] => some .equal
  | ['!', '='] => some .notEqual
  | ['<', '>'] => some .notEqual
  | ['<'] => some .less
  | ['<', '='] => some .lessOrEqual
  | ['>'] => some .greater
  | ['>', '='] => some .greaterOrEqual
  | _ => none

def parse? (cs : List Char) : Option Comparison := ofSymbol? (Text.trim cs)

@[simp] theorem ofSymbol?_sql (op : Comparison) : ofSymbol? op.sql.toList = some op := by
  cases op <;> rfl

end Comparison

inductive Operator where
  | compare (comparison : Comparison)
  | like
  | notLike
  | is
  | isNot
  deriving DecidableEq

namespace Operator

def sql : Operator → String
  | .compare comparison => comparison.sql
  | .like => "LIKE"
  | .notLike => "NOT LIKE"
  | .is => "IS"
  | .isNot => "IS NOT"

def ofWords? : List (List Char) → Option Operator
  | [word] =>
    if Text.sameLetters word "LIKE".toList then some .like
    else if Text.sameLetters word "IS".toList then some .is
    else none
  | [first, second] =>
    if Text.sameLetters first "NOT".toList ∧ Text.sameLetters second "LIKE".toList then
      some .notLike
    else if Text.sameLetters first "IS".toList ∧ Text.sameLetters second "NOT".toList then
      some .isNot
    else none
  | _ => none

def parse? (cs : List Char) : Option Operator :=
  (Comparison.parse? cs).map .compare <|> ofWords? (Text.words cs)

def endsColumn (c : Char) : Bool :=
  Text.isBlank c || c == '<' || c == '>' || c == '=' || c == '!'

/-- Parts a key such as `age >=` into its column and its operator; a key without an operator
means equality. The error is the text that stands for no operator. -/
def splitKey (key : String) : Except String (String × Operator) :=
  let key := Text.trim key.toList
  let column := String.ofList (key.takeWhile (!endsColumn ·))
  let rest := Text.trim (key.dropWhile (!endsColumn ·))
  if rest.isEmpty then .ok (column, .compare .equal)
  else
    match parse? rest with
    | some operator => .ok (column, operator)
    | none => .error (String.ofList rest)

end Operator

end RelationQuery
