import RelationQuery.Fields

/-! Tables of TOML documents, and the rules by which keys and headers add to them. Main statement:
whatever is added, no name stands twice. -/
namespace RelationQuery.Toml

/-- How a table came up, which settles what may still be added to it: `inline` between braces,
`header` under a header of its own, `path` and `dotted` on the way of a longer header or key. -/
inductive Origin where
  | inline
  | header
  | path
  | dotted
  deriving DecidableEq

inductive Node where
  | text (value : String)
  | integer (value : Int)
  | emptyArray
  | table (origin : Origin) (fields : List (String × Node))

def Node.isEmpty : Node → Bool
  | .emptyArray => true
  | .table _ fields => fields.isEmpty
  | _ => false

/-- The fields of a table that a dotted key passes through. It must itself stem from one. -/
def dotted? : Option Node → Option (Fields Node)
  | none => some []
  | some (.table .dotted fields) => some fields
  | some _ => none

def passed? : Option Node → Option (Origin × Fields Node)
  | none => some (.path, [])
  | some (.table .inline _) => none
  | some (.table origin fields) => some (origin, fields)
  | some _ => none

/-- The fields of a table that a header opens: only longer headers passed through it so far. -/
def opened? : Option Node → Option (Fields Node)
  | none => some []
  | some (.table .path fields) => some fields
  | some _ => none

def addKey : List String → Node → Fields Node → Option (Fields Node)
  | [], _, _ => none
  | [key], node, fields => if (fields.get? key).isSome then none else some (fields.put key node)
  | key :: path, node, fields => do
    let inner ← dotted? (fields.get? key)
    let inner ← addKey path node inner
    some (fields.put key (.table .dotted inner))

def openHeader : List String → Fields Node → Option (Fields Node)
  | [], _ => none
  | [key], fields => do
    let inner ← opened? (fields.get? key)
    some (fields.put key (.table .header inner))
  | key :: path, fields => do
    let (origin, inner) ← passed? (fields.get? key)
    let inner ← openHeader path inner
    some (fields.put key (.table origin inner))

def addUnder : List String → List String → Node → Fields Node → Option (Fields Node)
  | [], path, node, fields => addKey path node fields
  | key :: header, path, node, fields =>
    match fields.get? key with
    | some (.table origin inner) => do
      let inner ← addUnder header path node inner
      some (fields.put key (.table origin inner))
    | _ => none

theorem ordered_addKey {path : List String} {node : Node} {fields added : Fields Node}
    (hordered : fields.Ordered) (h : addKey path node fields = some added) : added.Ordered := by
  unfold addKey at h
  split at h
  · cases h
  · split at h
    · cases h
    · cases h
      exact Fields.ordered_put _ _ hordered
  · obtain ⟨_, _, h⟩ := Option.bind_eq_some_iff.1 h
    obtain ⟨_, _, h⟩ := Option.bind_eq_some_iff.1 h
    cases h
    exact Fields.ordered_put _ _ hordered

theorem ordered_openHeader {path : List String} {fields added : Fields Node}
    (hordered : fields.Ordered) (h : openHeader path fields = some added) : added.Ordered := by
  unfold openHeader at h
  split at h
  · cases h
  · obtain ⟨_, _, h⟩ := Option.bind_eq_some_iff.1 h
    cases h
    exact Fields.ordered_put _ _ hordered
  · obtain ⟨_, _, h⟩ := Option.bind_eq_some_iff.1 h
    obtain ⟨_, _, h⟩ := Option.bind_eq_some_iff.1 h
    cases h
    exact Fields.ordered_put _ _ hordered

theorem ordered_addUnder {header path : List String} {node : Node} {fields added : Fields Node}
    (hordered : fields.Ordered) (h : addUnder header path node fields = some added) :
    added.Ordered := by
  unfold addUnder at h
  split at h
  · exact ordered_addKey hordered h
  · split at h
    · obtain ⟨_, _, h⟩ := Option.bind_eq_some_iff.1 h
      cases h
      exact Fields.ordered_put _ _ hordered
    · cases h

end RelationQuery.Toml
