import RelationQuery.Error
import RelationQuery.Text.Quoted

/-! Edges from one table to another, as a caller gives them and as they are checked. -/
namespace RelationQuery

def checkName (kind : Identifier.Kind) (name : String) : Except Error Unit :=
  (Identifier.check kind name.toList).mapError (.identifier name)

def checkLabelled (kind : Identifier.Kind) (raw : String) :
    Except Error (String × Option String) := do
  let (name, label) := Name.splitLabel raw
  checkName kind name
  if let some label := label then checkName .table label
  return (name, label)

/-- Key columns given together or apart: commas part them, and empty ones do not count. -/
def keyColumns (parts : List String) : List String :=
  let texts := parts.flatMap fun part => part.toList.splitOn ','
  (texts.map fun text => String.ofList (Text.trim text)).filter (!·.isEmpty)

/-- An edge to the table `target`. Its `foreign` columns and the current table's `own` columns
pair up by position; `ρ` is what narrows the related rows. -/
structure Edge (ρ : Type) where
  target : String
  foreign : List String
  own : List String
  refinement : Option ρ := none

/-- An edge whose names have been checked and whose target is parted from its label. -/
structure Link (ρ : Type) where
  target : String
  label : Option String
  foreign : List String
  own : List String
  refinement : Option ρ

namespace Link

variable {ρ : Type}

def name (link : Link ρ) : String := link.label.getD link.target

def describe (link : Link ρ) : String :=
  let label := match link.label with
    | some label => "Some(" ++ Text.quoted label ++ ")"
    | none => "None"
  "Link \x7b target: " ++ Text.quoted link.target ++ ", alias: " ++ label ++ ", foreign: " ++
    Text.quotedList link.foreign ++ ", local: " ++ Text.quotedList link.own ++ ", refine: " ++
    toString link.refinement.isSome ++ " \x7d"

end Link

namespace Edge

variable {ρ : Type}

def describe (edge : Edge ρ) : String :=
  "Rel \x7b target: " ++ Text.quoted edge.target ++ ", foreign: Keys(" ++
    Text.quotedList edge.foreign ++ "), local: Keys(" ++ Text.quotedList edge.own ++
    "), refine: " ++ toString edge.refinement.isSome ++ " \x7d"

def link (edge : Edge ρ) : Except Error (Link ρ) := do
  let (target, label) ← checkLabelled .table edge.target
  if edge.foreign.isEmpty ∨ edge.own.isEmpty then
    throw (.parameter (.missingKeys target))
  if edge.foreign.length ≠ edge.own.length then
    throw (.unpairedKeys target edge.foreign.length edge.own.length)
  edge.foreign.forM (checkName .column)
  edge.own.forM (checkName .column)
  return { target, label, foreign := edge.foreign, own := edge.own, refinement := edge.refinement }

end Edge

inductive Cardinality where
  | one
  | many
  deriving DecidableEq

end RelationQuery
