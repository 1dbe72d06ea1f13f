/-!
# SQL tokens

The words, literals and signs of a script, each with its place. Blanks and comments are skipped.
A stretch that is no token, such as a string without its end, becomes an `illegal` token, which
every reader stumbles over.
-/

namespace PooledStore.Sql

/-- What a token is. -/
inductive Token.Kind where
  | word
  /-- A name in double quotes, back quotes or brackets. -/
  | quotedName
  | string
  | integer
  | real
  | blob
  /-- A place for a value that is given apart from the text. -/
  | parameter
  | sign
  | illegal
  /-- After the last token. -/
  | finish
  deriving DecidableEq, Repr

/-- A token as it is written; `pos` counts the characters before it. -/
structure Token where
  kind : Token.Kind
  text : List Char
  pos : Nat
  deriving DecidableEq, Repr

namespace Token

/-- The code point of the back quote. -/
def backQuote : Char := Char.ofNat 0x60

def isNameStart (c : Char) : Bool := c.isAlpha || c = '_' || 0x80 ≤ c.toNat

def isNameChar (c : Char) : Bool := isNameStart c || c.isDigit || c = '$'

def isBlank (c : Char) : Bool :=
  c = ' ' || c = '\t' || c = '\n' || c = '\r' || c = '\x0c' || c = '\ufeff'

/-- A quoted stretch from its opening quote on: its length, if it is closed. A doubled quote
belongs to it. -/
def quotedLength (quote : Char) : List Char → Option Nat
  | [] => none
  | [c] => if c = quote then some 1 else none
  | c :: d :: rest =>
    if c = quote then
      if d = quote then (quotedLength quote rest).map (· + 2) else some 1
    else (quotedLength quote (d :: rest)).map (· + 1)

/-- The length of a comment between slashes and stars; one without an end goes on to the end. -/
def blockLength : List Char → Nat
  | '*' :: '/' :: _ => 2
  | _ :: rest => blockLength rest + 1
  | [] => 0

/-- Signs of two characters. -/
def longSigns : List (List Char) :=
  [['<', '='], ['>', '='], ['<', '>'], ['!', '='], ['=', '='], ['|', '|'], ['<', '<'], ['>', '>']]

/-- Signs of one character. -/
def shortSigns : List Char :=
  ['(', ')', ';', ',', '.', '+', '-', '*', '/', '%', '=', '<', '>', '&', '|', '~']

def isHex (c : Char) : Bool := c.isDigit || ('a' ≤ c && c ≤ 'f') || ('A' ≤ c && c ≤ 'F')

/-- A number at the front: its kind and length. Letters that follow a number directly spoil it. -/
def number (cs : List Char) : Kind × Nat :=
  let spoil (kind : Kind) (n : Nat) : Kind × Nat :=
    let tail := ((cs.drop n).takeWhile isNameChar).length
    if tail = 0 then (kind, n) else (.illegal, n + tail)
  match cs with
  | '0' :: x :: d :: _ =>
    if (x = 'x' || x = 'X') && isHex d then
      spoil .integer (2 + ((cs.drop 2).takeWhile isHex).length)
    else plain spoil
  | _ => plain spoil
where
  plain (spoil : Kind → Nat → Kind × Nat) : Kind × Nat :=
    let whole := (cs.takeWhile Char.isDigit).length
    let fraction :=
      match cs.drop whole with
      | '.' :: more => 1 + (more.takeWhile Char.isDigit).length
      | _ => 0
    let n := whole + fraction
    let exponent :=
      match cs.drop n with
      | e :: more =>
        if e = 'e' || e = 'E' then
          match more with
          | s :: d :: _ =>
            if s.isDigit then 1 + (more.takeWhile Char.isDigit).length
            else if (s = '+' || s = '-') && d.isDigit then
              2 + ((more.drop 1).takeWhile Char.isDigit).length
            else 0
          | [s] => if s.isDigit then 2 else 0
          | [] => 0
        else 0
      | [] => 0
    spoil (if fraction = 0 && exponent = 0 then .integer else .real) (n + exponent)

/-- The token at the front of characters that do not begin with blanks or a comment. -/
def atFront (cs : List Char) : Kind × Nat :=
  match cs with
  | [] => (.finish, 0)
  | c :: rest =>
    if c = '\'' then
      match quotedLength c rest with
      | some n => (.string, n + 1)
      | none => (.illegal, cs.length)
    else if c = '"' || c = backQuote then
      match quotedLength c rest with
      | some n => (.quotedName, n + 1)
      | none => (.illegal, cs.length)
    else if c = '[' then
      let n := (rest.takeWhile (· != ']')).length
      if n < rest.length then (.quotedName, n + 2) else (.illegal, cs.length)
    else if (c = 'x' || c = 'X') && rest.head? = some '\'' then
      let digits := (rest.drop 1).takeWhile isHex
      let n := digits.length
      if n % 2 = 0 && (rest.drop (n + 1)).head? = some '\'' then (.blob, n + 3)
      else
        let upTo := ((rest.drop 1).takeWhile (· != '\'')).length
        (.illegal, min cs.length (upTo + 3))
    else if c = '?' then (.parameter, 1 + (rest.takeWhile Char.isDigit).length)
    else if c = '@' || c = '#' || c = ':' || c = '$' then
      let n := (rest.takeWhile isNameChar).length
      (if n = 0 then .illegal else .parameter, n + 1)
    else if isNameStart c then (.word, (cs.takeWhile isNameChar).length)
    else if c.isDigit || (c = '.' && (rest.head?.map Char.isDigit).getD false) then number cs
    else if longSigns.contains (cs.take 2) then (.sign, 2)
    else if shortSigns.contains c then (.sign, 1)
    else (.illegal, 1)

/-- The number of blank characters and comments' characters at the front. -/
def skipped (cs : List Char) : Nat :=
  match cs with
  | '-' :: '-' :: rest => 2 + (rest.takeWhile (· != '\n')).length
  | '/' :: '*' :: rest => 2 + blockLength rest
  | c :: _ => if isBlank c then 1 else 0
  | [] => 0

/-- The tokens from a place on. -/
def scan : Nat → Nat → List Char → List Token
  | 0, _, _ => []
  | fuel + 1, pos, cs =>
    match skipped cs with
    | n + 1 => scan fuel (pos + (n + 1)) (cs.drop (n + 1))
    | 0 =>
      match atFront cs with
      | (.finish, _) => []
      | (kind, n) =>
        ⟨kind, cs.take n, pos⟩ :: scan fuel (pos + max n 1) (cs.drop (max n 1))

/-- All tokens of a text. -/
def all (cs : List Char) : List Token := scan (cs.length + 1) 0 cs

/-- The text of a name or a string without its quotes. -/
def unquoted (t : Token) : String :=
  match t.kind, t.text with
  | .quotedName, '[' :: rest => String.ofList rest.dropLast
  | .quotedName, q :: rest => String.ofList (single q rest.dropLast)
  | .string, q :: rest => String.ofList (single q rest.dropLast)
  | _, cs => String.ofList cs
where
  single (q : Char) : List Char → List Char
    | [] => []
    | [c] => [c]
    | c :: d :: rest => if c = q && d = q then c :: single q rest else c :: single q (d :: rest)

def upper (t : Token) : String := String.ofList (t.text.map Char.toUpper)

/-- The token is this key word, given in capitals. -/
def isWord (t : Token) (w : String) : Bool := t.kind = .word && t.upper = w

/-- The token is this sign. -/
def isSign (t : Token) (s : String) : Bool := t.kind = .sign && String.ofList t.text = s

/-- Words that cannot be names unless quoted. -/
def reserved : List String :=
  ["ADD", "ALL", "ALTER", "AND", "AS", "AUTOINCREMENT", "BETWEEN", "CASE", "CHECK", "COLLATE",
    "COMMIT", "CONSTRAINT", "CREATE", "DEFAULT", "DEFERRABLE", "DELETE", "DISTINCT", "DROP",
    "ELSE", "ESCAPE", "EXCEPT", "EXISTS", "FOREIGN", "FROM", "GROUP", "HAVING", "IN", "INDEX",
    "INSERT", "INTERSECT", "INTO", "IS", "ISNULL", "JOIN", "LIMIT", "NOT", "NOTHING", "NOTNULL",
    "NULL", "ON", "OR", "ORDER", "PRIMARY", "REFERENCES", "RETURNING", "SELECT", "SET", "TABLE",
    "THEN", "TO", "TRANSACTION", "UNION", "UNIQUE", "UPDATE", "USING", "VALUES", "WHEN", "WHERE"]

/-- The name that a token can stand for. -/
def name? (t : Token) : Option String :=
  match t.kind with
  | .word => if reserved.contains t.upper then none else some (String.ofList t.text)
  | .quotedName => some t.unquoted
  | .string => some t.unquoted
  | _ => none

end Token

end PooledStore.Sql
