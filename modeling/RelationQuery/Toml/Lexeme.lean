/-! The lexemes of TOML: strings, integers, keys, and what stands between them. Every reader
returns what follows. -/
namespace RelationQuery.Toml

def isGap (c : Char) : Bool := c == ' ' || c == '\t'

/-- Control characters other than the tab stand neither in comments nor in strings. -/
def isPlain (c : Char) : Bool := c == '\t' || (0x20 ≤ c.toNat && c.toNat != 0x7f)

def isBareKey (c : Char) : Bool := c.isAlphanum || c == '_' || c == '-'

def hexValue (digits : List Char) : Nat :=
  digits.foldl (fun value c => 16 * value + digit c) 0
where
  digit (c : Char) : Nat :=
    if c.isDigit then c.toNat - '0'.toNat else c.toLower.toNat - 'a'.toNat + 10

def isHex (c : Char) : Bool := c.isDigit || ('a' ≤ c.toLower && c.toLower ≤ 'f')

def coded? (digits : List Char) : Option Char :=
  let code := hexValue digits
  if digits.all isHex ∧ code.isValidChar then some (Char.ofNat code) else none

def escaped? : Char → Option Char
  | '"' => some '"'
  | '\\' => some '\\'
  | 'b' => some '\x08'
  | 'e' => some '\x1b'
  | 'f' => some '\x0c'
  | 'n' => some '\n'
  | 'r' => some '\r'
  | 't' => some '\t'
  | _ => none

def push (c? : Option Char) (more? : Option (List Char × List Char)) :
    Option (List Char × List Char) := do
  let c ← c?
  let (text, rest) ← more?
  some (c :: text, rest)

def basic? : List Char → Option (List Char × List Char)
  | '"' :: rest => some ([], rest)
  | '\\' :: 'x' :: a :: b :: rest => push (coded? [a, b]) (basic? rest)
  | '\\' :: 'u' :: a :: b :: c :: d :: rest => push (coded? [a, b, c, d]) (basic? rest)
  | '\\' :: 'U' :: a :: b :: c :: d :: e :: f :: g :: h :: rest =>
    push (coded? [a, b, c, d, e, f, g, h]) (basic? rest)
  | '\\' :: c :: rest => push (escaped? c) (basic? rest)
  | c :: rest => push (if isPlain c then some c else none) (basic? rest)
  | [] => none

def literal? : List Char → Option (List Char × List Char)
  | '\'' :: rest => some ([], rest)
  | c :: rest => push (if isPlain c then some c else none) (literal? rest)
  | [] => none

def endsLine (cs : List Char) : Bool :=
  match cs.dropWhile isGap with
  | '\n' :: _ => true
  | '\r' :: '\n' :: _ => true
  | _ => false

/-- A string of several lines, whose line ends stay as they are; `skipping` after a backslash at
the end of a line. -/
def basicLines? (skipping : Bool) : List Char → Option (List Char × List Char)
  | '"' :: '"' :: '"' :: '"' :: '"' :: rest => some (['"', '"'], rest)
  | '"' :: '"' :: '"' :: '"' :: rest => some (['"'], rest)
  | '"' :: '"' :: '"' :: rest => some ([], rest)
  | '\r' :: '\n' :: rest =>
    if skipping then basicLines? true rest
    else push (some '\r') (push (some '\n') (basicLines? false rest))
  | '\\' :: 'x' :: a :: b :: rest => push (coded? [a, b]) (basicLines? false rest)
  | '\\' :: 'u' :: a :: b :: c :: d :: rest =>
    push (coded? [a, b, c, d]) (basicLines? false rest)
  | '\\' :: 'U' :: a :: b :: c :: d :: e :: f :: g :: h :: rest =>
    push (coded? [a, b, c, d, e, f, g, h]) (basicLines? false rest)
  | '\\' :: c :: rest =>
    if endsLine (c :: rest) then basicLines? true (c :: rest)
    else push (escaped? c) (basicLines? false rest)
  | c :: rest =>
    if skipping ∧ (isGap c ∨ c = '\n') then basicLines? true rest
    else push (if isPlain c ∨ c = '\n' then some c else none) (basicLines? false rest)
  | [] => none

def literalLines? : List Char → Option (List Char × List Char)
  | '\'' :: '\'' :: '\'' :: '\'' :: '\'' :: rest => some (['\'', '\''], rest)
  | '\'' :: '\'' :: '\'' :: '\'' :: rest => some (['\''], rest)
  | '\'' :: '\'' :: '\'' :: rest => some ([], rest)
  | '\r' :: '\n' :: rest => push (some '\r') (push (some '\n') (literalLines? rest))
  | c :: rest => push (if isPlain c ∨ c = '\n' then some c else none) (literalLines? rest)
  | [] => none

def dropNewline : List Char → List Char
  | '\n' :: rest => rest
  | '\r' :: '\n' :: rest => rest
  | cs => cs

def digits? (isDigit : Char → Bool) (cs : List Char) : Option (List Char) :=
  let groups := cs.splitOn '_'
  if groups.all fun group => !group.isEmpty && group.all isDigit then some groups.flatten else none

def value (radix : Nat) (digits : List Char) : Int :=
  (digits.foldl (fun value c => radix * value + hexValue [c]) 0 : Nat)

def decimal? (cs : List Char) : Option Int := do
  let digits ← digits? Char.isDigit cs
  if digits.head? = some '0' ∧ 1 < digits.length then none else some (value 10 digits)

/-- Only decimal integers carry a sign. -/
def integer? : List Char → Option Int
  | '0' :: 'x' :: cs => (digits? isHex cs).map (value 16)
  | '0' :: 'o' :: cs => (digits? (fun c => '0' ≤ c && c ≤ '7') cs).map (value 8)
  | '0' :: 'b' :: cs => (digits? (fun c => c == '0' || c == '1') cs).map (value 2)
  | '+' :: cs => decimal? cs
  | '-' :: cs => (decimal? cs).map Int.neg
  | cs => decimal? cs

def key? : List Char → Option (String × List Char)
  | '"' :: rest => (basic? rest).map fun (text, rest) => (String.ofList text, rest)
  | '\'' :: rest => (literal? rest).map fun (text, rest) => (String.ofList text, rest)
  | cs =>
    if (cs.takeWhile isBareKey).isEmpty then none
    else some (String.ofList (cs.takeWhile isBareKey), cs.dropWhile isBareKey)

def keys? : Nat → List Char → Option (List String × List Char)
  | 0, _ => none
  | keys + 1, cs => do
    let (key, cs) ← key? cs
    match cs.dropWhile isGap with
    | '.' :: cs =>
      let (path, cs) ← keys? keys (cs.dropWhile isGap)
      some (key :: path, cs)
    | cs => some ([key], cs)

def path? (cs : List Char) : Option (List String × List Char) := keys? (cs.length + 1) cs

def endLine? (cs : List Char) : Option (List Char) :=
  let cs := cs.dropWhile isGap
  let cs := if cs.head? = some '#' then cs.dropWhile isPlain else cs
  match cs with
  | [] => some []
  | '\n' :: rest => some rest
  | '\r' :: '\n' :: rest => some rest
  | _ => none

def skipLines (inComment : Bool) : List Char → List Char
  | '\n' :: rest => skipLines false rest
  | '\r' :: '\n' :: rest => skipLines false rest
  | '#' :: rest => skipLines true rest
  | c :: rest =>
    if isGap c || (inComment && isPlain c) then skipLines inComment rest else c :: rest
  | [] => []

end RelationQuery.Toml
