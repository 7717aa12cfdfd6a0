import RelationQuery.Toml.Lexeme
import RelationQuery.Toml.Table

/-! TOML documents of texts, integers, empty arrays and tables. A document with anything else in
it is refused whole. Main statement: no name stands twice in a document that is read. -/
namespace RelationQuery.Toml

def isNumberPart (c : Char) : Bool := c.isAlphanum || c == '_' || c == '+' || c == '-'

def ofText (text : List Char × List Char) : Node × List Char :=
  (.text (String.ofList text.1), text.2)

def scalar? : List Char → Option (Node × List Char)
  | '"' :: '"' :: '"' :: rest => (basicLines? false (dropNewline rest)).map ofText
  | '\'' :: '\'' :: '\'' :: rest => (literalLines? (dropNewline rest)).map ofText
  | '"' :: rest => (basic? rest).map ofText
  | '\'' :: rest => (literal? rest).map ofText
  | cs => do
    let value ← integer? (cs.takeWhile isNumberPart)
    some (.integer value, cs.dropWhile isNumberPart)

mutual

def node? : Nat → List Char → Option (Node × List Char)
  | 0, _ => none
  | depth + 1, '\x7b' :: rest => do
    let (fields, rest) ← members? depth [] (skipLines false rest)
    some (.table .inline fields, rest)
  | _, '[' :: rest =>
    match skipLines false rest with
    | ']' :: rest => some (.emptyArray, rest)
    | _ => none
  | _, cs => scalar? cs

def members? : Nat → Fields Node → List Char → Option (Fields Node × List Char)
  | _, fields, '\x7d' :: rest => some (fields, rest)
  | 0, _, _ => none
  | members + 1, fields, cs => do
    let (path, cs) ← path? cs
    let '=' :: cs := skipLines false cs | none
    let (node, cs) ← node? members (skipLines false cs)
    let fields ← addKey path node fields
    match skipLines false cs with
    | ',' :: cs => members? members fields (skipLines false cs)
    | '\x7d' :: rest => some (fields, rest)
    | _ => none

end

/-- Every level and every member takes a character, so that their count bounds the reading. -/
def value? (cs : List Char) : Option (Node × List Char) := node? (cs.length + 1) cs

def header? (cs : List Char) : Option (List String × List Char) := do
  let (path, cs) ← path? (cs.dropWhile isGap)
  let ']' :: cs := cs | none
  some (path, ← endLine? cs)

def entry? (cs : List Char) : Option ((List String × Node) × List Char) := do
  let (path, cs) ← path? cs
  let '=' :: cs := cs | none
  let (node, cs) ← value? (cs.dropWhile isGap)
  some ((path, node), ← endLine? cs)

def fields? : Nat → List String → Fields Node → List Char → Option (Fields Node)
  | _, _, fields, [] => some fields
  | 0, _, _, _ => none
  | lines + 1, header, fields, cs => do
    match endLine? cs with
    | some rest => fields? lines header fields rest
    | none =>
      match cs.dropWhile isGap with
      | '[' :: cs =>
        let (header, rest) ← header? cs
        fields? lines header (← openHeader header fields) rest
      | cs =>
        let ((path, node), rest) ← entry? cs
        fields? lines header (← addUnder header path node fields) rest

def read? (source : String) : Option (Fields Node) :=
  let cs := source.toList
  let cs := if cs.head? = some '\ufeff' then cs.drop 1 else cs
  fields? (cs.length + 1) [] [] cs

theorem ordered_fields {lines : Nat} {header : List String} {fields added : Fields Node}
    {cs : List Char} (hordered : fields.Ordered)
    (h : fields? lines header fields cs = some added) : added.Ordered := by
  fun_induction fields? lines header fields cs with
  | case1 => cases h; exact hordered
  | case2 => cases h
  | case3 lines header fields cs _ rest _ ih => exact ih hordered h
  | case4 lines header fields cs _ _ cs' _ ih =>
    obtain ⟨⟨path, rest⟩, _, h⟩ := Option.bind_eq_some_iff.1 h
    obtain ⟨opened, hopened, h⟩ := Option.bind_eq_some_iff.1 h
    exact ih _ _ _ (ordered_openHeader hordered hopened) h
  | case5 lines header fields cs _ _ _ ih =>
    obtain ⟨⟨⟨path, node⟩, rest⟩, _, h⟩ := Option.bind_eq_some_iff.1 h
    obtain ⟨filled, hfilled, h⟩ := Option.bind_eq_some_iff.1 h
    exact ih _ _ (ordered_addUnder hordered hfilled) h

theorem ordered_read {source : String} {fields : Fields Node} (h : read? source = some fields) :
    fields.Ordered :=
  ordered_fields (show Fields.Ordered [] from List.Pairwise.nil) h

end RelationQuery.Toml
