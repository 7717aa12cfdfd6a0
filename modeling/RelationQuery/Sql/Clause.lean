/-! WHERE clauses as flat lists of conditions and group marks. -/
namespace RelationQuery

inductive Connective where
  | and
  | or
  deriving DecidableEq

def Connective.sql : Connective → String
  | .and => "AND"
  | .or => "OR"

inductive Entry (α : Type) where
  | item (connective : Connective) (content : α)
  | opening (connective : Connective) (negated : Bool)
  | closing
  deriving DecidableEq

namespace Entry

variable {α β : Type}

def map (f : α → β) : Entry α → Entry β
  | .item connective content => .item connective (f content)
  | .opening connective negated => .opening connective negated
  | .closing => .closing

def isOpening : Entry α → Bool
  | .opening .. => true
  | _ => false

end Entry

abbrev Clause (α : Type) := List (Entry α)

namespace Clause

variable {α : Type}

def add (clause : Clause α) (connective : Connective) (content : α) : Clause α :=
  clause ++ [.item connective content]

def openGroup (clause : Clause α) (connective : Connective) (negated : Bool) : Clause α :=
  clause ++ [.opening connective negated]

/-- Ends the innermost group; one that is still empty is taken back. -/
def closeGroup (clause : Clause α) : Clause α :=
  if clause.getLast?.any Entry.isOpening then clause.dropLast else clause ++ [.closing]

def behind (clause lead : Clause α) : Clause α :=
  if clause.isEmpty then lead else lead ++ .opening .and false :: (clause ++ [.closing])

def joint (leading : Bool) (connective : Connective) : String :=
  if leading then "" else " " ++ connective.sql ++ " "

/-- Writes a clause out. What comes first, of the whole or of a group, shows no connective. -/
def text (leading : Bool) : Clause String → String
  | [] => ""
  | .item connective content :: rest => joint leading connective ++ content ++ text false rest
  | .opening connective negated :: rest =>
    joint leading connective ++ (if negated then "NOT (" else "(") ++ text true rest
  | .closing :: rest => ")" ++ text false rest

end Clause

end RelationQuery
