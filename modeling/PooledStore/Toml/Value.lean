/-!
# TOML values

Configuration files are TOML documents. A table remembers how it came about, because that decides
what a later line may still add to it.

* `Entries.put`: a line `a.b.c = value` in a table.
* `Entries.begin?`, `Entries.finish`: a table under a heading `[a.b.c]` or `[[a.b.c]]`.
* `Entries.get?`: what a finished table holds under a key.
* `Parser`: reads whole documents.
-/

namespace PooledStore.Toml

/-- How a table came about. -/
inductive Origin where
  /-- By a heading of its own; the top of the document counts as such. -/
  | heading
  /-- By a longer heading that passes through it. -/
  | implied
  /-- By a dotted key that passes through it. -/
  | dotted
  /-- In braces. -/
  | inline
  deriving DecidableEq, Repr

/-- A value of a document. Settings use neither floats nor points in time, so these carry nothing.
An array remembers whether double-bracket headings made it. -/
inductive Value where
  | text (s : String)
  | integer (n : Int)
  | float
  | boolean (b : Bool)
  | moment
  | array (byHeadings : Bool) (elements : List Value)
  | table (origin : Origin) (entries : List (String × Value))

/-- The keys of a table with their values, in the order of appearance. -/
abbrev Entries := List (String × Value)

/-- The heading under which a run of lines stands: the top of the document, a table, or a new
element of an array of tables. The key is the last part of the heading's name. -/
inductive Heading where
  | top
  | table (parents : List String) (key : String)
  | element (parents : List String) (key : String)
  deriving DecidableEq, Repr

namespace Entries

/-- The value of a key. -/
def get? (es : Entries) (key : String) : Option Value := List.lookup key es

/-- The entries with a new value for a key that is there. -/
def replace (es : Entries) (key : String) (v : Value) : Entries :=
  es.map fun e => if e.1 = key then (key, v) else e

/-- The entries with a value for a key, which takes its old place if it is there. -/
def store (es : Entries) (key : String) (v : Value) : Entries :=
  if (es.get? key).isSome then es.replace key v else es ++ [(key, v)]

/-- Adds a value under a key, in the table that the dotted `path` leads to from here. A table on
the way must not be finished: it was made by dotted keys or by a longer heading. The value itself
goes only into a table made by dotted keys if there is a path, and only into another one if there
is none. No key is given twice. -/
def put (key : String) (v : Value) (viaDots : Bool) :
    List String → Origin → Entries → Option Entries
  | [], origin, es =>
    if (origin == .dotted) == viaDots && (es.get? key).isNone then some (es ++ [(key, v)])
    else none
  | k :: path, _, es =>
    match es.get? k with
    | none => (put key v viaDots path .dotted []).map fun sub => es ++ [(k, .table .dotted sub)]
    | some (.table o sub) =>
      if o = .heading ∨ o = .inline then none
      else (put key v viaDots path o sub).map fun sub => es.replace k (.table o sub)
    | some (.array true elements) =>
      match elements.getLast? with
      | some (.table o sub) =>
        (put key v viaDots path o sub).map fun sub =>
          es.replace k (.array true (elements.dropLast ++ [.table o sub]))
      | _ => none
    | some _ => none

/-- Adds the line `path.key = v` to a table. -/
def putLine (origin : Origin) (es : Entries) (path : List String) (key : String) (v : Value) :
    Option Entries :=
  put key v (!path.isEmpty) path origin es

/-- Changes the table that a heading's parents lead to, making implied tables on the way. Inside
an array of tables the way leads to its last element. -/
def under (change : Entries → Option Entries) : List String → Entries → Option Entries
  | [], es => change es
  | k :: path, es =>
    match es.get? k with
    | none => (under change path []).map fun sub => es ++ [(k, .table .implied sub)]
    | some (.table .inline _) => none
    | some (.table o sub) => (under change path sub).map fun sub => es.replace k (.table o sub)
    | some (.array true elements) =>
      match elements.getLast? with
      | some (.table o sub) =>
        (under change path sub).map fun sub =>
          es.replace k (.array true (elements.dropLast ++ [.table o sub]))
      | _ => none
    | some _ => none

/-- The entries of the table that a heading's parents lead to; one not yet made has none. -/
def findUnder : List String → Entries → Option Entries
  | [], es => some es
  | k :: path, es =>
    match es.get? k with
    | none => some []
    | some (.table .inline _) => none
    | some (.table _ sub) => findUnder path sub
    | some (.array true elements) =>
      match elements.getLast? with
      | some (.table _ sub) => findUnder path sub
      | _ => none
    | some _ => none

/-- What a table holds already when its heading appears, or `none` if the heading is not allowed:
a table has at most one heading, and tables made by dotted keys have none. -/
def begin? (doc : Entries) : Heading → Option Entries
  | .top => some []
  | .table parents key =>
    (findUnder parents doc).bind fun es =>
      match es.get? key with
      | none => some []
      | some (.table .implied sub) => some sub
      | some _ => none
  | .element parents key =>
    (findUnder parents doc).bind fun es =>
      match es.get? key with
      | none => some []
      | some (.array true _) => some []
      | some _ => none

/-- The document with the finished table under its heading. -/
def finish (doc : Entries) (es : Entries) : Heading → Option Entries
  | .top => some es
  | .table parents key =>
    under (fun parent => some (parent.store key (.table .heading es))) parents doc
  | .element parents key =>
    under (fun parent =>
      match parent.get? key with
      | none => some (parent.store key (.array true [.table .heading es]))
      | some (.array true elements) =>
        some (parent.store key (.array true (elements ++ [.table .heading es])))
      | some _ => none) parents doc

end Entries

/-- Reads documents: gives the entries of the top table of a text, or rejects the text. A text
without anything in it is a document without entries. -/
class Parser where
  parse : String → Option Entries
  parse_empty : parse "" = some []

/-- What is said about a text that is not a document, or not one of the expected settings. -/
def diagnostic : String := "TOML parse error"

end PooledStore.Toml
