import PooledStore.Toml.Scalar

/-!
# TOML documents

`Document.parse` reads a whole text: lines with keys and values, under headings. It gives the
entries of the document's top table, or `none` for a text that is not TOML.
-/

namespace PooledStore.Toml

/-- How many arrays and inline tables may lie inside each other. -/
def maxDepth : Nat := 79

/-- How many parts a dotted key may have. -/
def maxParts : Nat := 79

/-! ## Keys -/

def isBareKeyChar (c : Char) : Bool := c.isAlphanum || c = '_' || c = '-'

/-- One part of a key: a quoted string on one line, or a bare word. -/
def keyPart : Reader String := fun cs =>
  match cs with
  | '"' :: _ => quoted cs
  | '\'' :: _ => quoted cs
  | _ =>
    let word := cs.takeWhile isBareKeyChar
    if word.isEmpty then none else some (String.ofList word, cs.dropWhile isBareKeyChar)

/-- The parts of a key, blanks around them and dots between them. -/
def keyParts : Nat → Reader (List String)
  | 0 => fun _ => none
  | fuel + 1 => fun cs =>
    match keyPart (skipSpace cs) with
    | none => none
    | some (k, cs) =>
      match skipSpace cs with
      | '.' :: rest => (keyParts fuel rest).map fun r => (k :: r.1, r.2)
      | cs => some ([k], cs)

/-- A dotted key: the path and the last part. -/
def key : Reader (List String × String) := fun cs =>
  match keyParts (cs.length + 1) cs with
  | none => none
  | some (parts, rest) =>
    match parts.getLast? with
    | some last => if parts.length ≤ maxParts then some ((parts.dropLast, last), rest) else none
    | none => none

/-! ## Values -/

/-- The characters after blanks, line ends and comments. -/
def skipFiller : Nat → List Char → List Char
  | 0, cs => cs
  | fuel + 1, cs =>
    let cs := skipComment (skipSpace cs)
    match skipNewline cs with
    | some rest => skipFiller fuel rest
    | none => cs

def skipFill (cs : List Char) : List Char := skipFiller (cs.length + 1) cs

/-- The elements of an array up to its closing bracket, one comma after the last one allowed. -/
def elements (value : Reader Value) : Nat → Reader (List Value)
  | 0 => fun _ => none
  | fuel + 1 => fun cs =>
    match skipFill cs with
    | ']' :: rest => some ([], rest)
    | cs =>
      match value cs with
      | none => none
      | some (v, cs) =>
        match skipFill cs with
        | ',' :: rest => (elements value fuel rest).map fun r => (v :: r.1, r.2)
        | ']' :: rest => some ([v], rest)
        | _ => none

/-- A key, an equals sign and a value. -/
def pair (value : Reader Value) : Reader ((List String × String) × Value) := fun cs =>
  match key cs with
  | some (k, '=' :: rest) => (value (skipSpace rest)).map fun r => ((k, r.1), r.2)
  | _ => none

/-- The lines of an inline table up to its closing brace, from where one must follow. -/
def inlinePairs (value : Reader Value) : Nat → Entries → Reader Entries
  | 0, _ => fun _ => none
  | fuel + 1, es => fun cs =>
    match pair value cs with
    | none => none
    | some (((path, k), v), cs) =>
      match es.putLine .inline path k v with
      | none => none
      | some es =>
        match skipSpace cs with
        | ',' :: rest => inlinePairs value fuel es rest
        | '}' :: rest => some (es, rest)
        | _ => none

/-- A value inside which arrays and inline tables may lie at most `depth` deep. -/
def value : Nat → Reader Value
  | 0 => fun cs =>
    match cs with
    | '[' :: _ => none
    | '{' :: _ => none
    | _ => scalar cs
  | depth + 1 => fun cs =>
    match cs with
    | '[' :: rest =>
      (elements (value depth) (rest.length + 1) rest).map fun r => (.array false r.1, r.2)
    | '{' :: rest =>
      match skipSpace rest with
      | '}' :: rest => some (.table .inline [], rest)
      | rest =>
        (inlinePairs (value depth) (rest.length + 1) [] rest).map fun r =>
          (.table .inline r.1, r.2)
    | _ => scalar cs

/-! ## Lines -/

/-- The characters after the end of a line, perhaps with a comment; the end of the text ends a
line too. -/
def skipLineEnd (cs : List Char) : Option (List Char) :=
  match skipComment (skipSpace cs) with
  | [] => some []
  | cs => skipNewline cs

/-- A heading, from its first bracket on. -/
def heading : Reader Heading
  | '[' :: '[' :: rest =>
    match key rest with
    | some ((parents, k), ']' :: ']' :: rest) => some (.element parents k, rest)
    | _ => none
  | '[' :: rest =>
    match key rest with
    | some ((parents, k), ']' :: rest) => some (.table parents k, rest)
    | _ => none
  | _ => none

/-- Reads the lines from here on, with the document so far, and the heading and the entries of the
table that they go into. -/
def lines : Nat → Entries → Heading → Entries → List Char → Option Entries
  | 0, _, _, _, _ => none
  | fuel + 1, doc, h, es, cs =>
    match skipSpace cs with
    | [] => doc.finish es h
    | '#' :: rest => (skipLineEnd ('#' :: rest)).bind (lines fuel doc h es)
    | '\n' :: rest => lines fuel doc h es rest
    | '\r' :: '\n' :: rest => lines fuel doc h es rest
    | '[' :: rest =>
      match heading ('[' :: rest), doc.finish es h with
      | some (h', rest), some doc =>
        match doc.begin? h', skipLineEnd rest with
        | some es, some rest => lines fuel doc h' es rest
        | _, _ => none
      | _, _ => none
    | cs =>
      match pair (value maxDepth) cs with
      | none => none
      | some (((path, k), v), rest) =>
        match es.putLine .heading path k v, skipLineEnd rest with
        | some es, some rest => lines fuel doc h es rest
        | _, _ => none

/-- The text without a byte order mark in front. -/
def withoutMark : List Char → List Char
  | '\ufeff' :: rest => rest
  | cs => cs

/-- The entries of the document that a text writes, if it is TOML. -/
def parse (s : String) : Option Entries :=
  let cs := withoutMark s.toList
  lines (cs.length + 1) [] .top [] cs

instance : Parser := ⟨parse, rfl⟩

end PooledStore.Toml
