import PooledStore.Log

/-!
# Log filters

Which events are written. A filter is a list of directives with commas between them. A directive
is a level, for everything, or the beginning of a component's name with a level, for that
component; a name alone stands for every level. The most specific directive that applies to an
event decides.
-/

namespace PooledStore.Server

open Log

/-- A directive: the beginning of the names it is for, and the rank up to which levels pass. -/
structure Directive where
  /-- The empty text is the beginning of every name. -/
  target : String
  maxRank : Nat
  /-- The directive is about events inside named spans, of which there are none. -/
  inSpan : Bool
  deriving DecidableEq, Repr

/-- A filter, as its directives. -/
structure Filter where
  directives : List Directive
  deriving DecidableEq, Repr

namespace Filter

/-- The rank up to which levels pass, by the level's name or number. -/
def rankOf? (s : List Char) : Option Nat :=
  [("off", 0), ("error", 1), ("warn", 2), ("info", 3), ("debug", 4), ("trace", 5), ("0", 0),
    ("1", 1), ("2", 2), ("3", 3), ("4", 4), ("5", 5)].lookup (String.ofList (s.map Char.toLower))

/-- A character of a component's name. -/
def isTargetChar (c : Char) : Bool :=
  c.isAlphanum || c = '_' || c = ':' || c = '-' || 0x80 ≤ c.toNat

/-- A span in brackets, of which only the end matters. -/
def skipSpan : List Char → Option (List Char)
  | '[' :: rest =>
    match rest.dropWhile (· != ']') with
    | _ :: rest => some rest
    | [] => none
  | _ => none

/-- The names in front of a directive's level: one or two, each a target or a span. -/
def names : Nat → List Char → Option (Option (List Char) × Bool × List Char)
  | 0, cs => some (none, false, cs)
  | n + 1, cs =>
    match skipSpan cs with
    | some rest => (names n rest).map fun r => (r.1, true, r.2.2)
    | none =>
      let word := cs.takeWhile isTargetChar
      if word.isEmpty then (if n = 0 then some (none, false, cs) else none)
      else (names n (cs.dropWhile isTargetChar)).map fun r => (some (r.1.getD word), r.2.1, r.2.2)

/-- A directive, if the text is one. -/
def directive? (cs : List Char) : Option Directive :=
  match rankOf? cs with
  | some r => some ⟨"", r, false⟩
  | none =>
    match names 2 cs with
    | none => none
    | some (target, inSpan, rest) =>
      let target := String.ofList (target.getD [])
      match rest with
      | [] => some ⟨target, Level.trace.rank, inSpan⟩
      | ['='] => some ⟨target, Level.trace.rank, inSpan⟩
      | '=' :: level => (rankOf? level).map fun r => ⟨target, r, inSpan⟩
      | _ => none

/-- The pieces of a text between commas. -/
def pieces (cs : List Char) : List (List Char) :=
  cs.foldr (fun c ps =>
    if c = ',' then [] :: ps
    else match ps with
      | p :: rest => (c :: p) :: rest
      | [] => [[c]]) [[]]

/-- The filter that a text describes, if it is one. Without any directive, errors pass. -/
def parse? (s : String) : Option Filter :=
  (((pieces s.toList).filter (!·.isEmpty)).mapM directive?).map fun ds =>
    ⟨if ds.isEmpty then [⟨"", Level.error.rank, false⟩] else ds⟩

/-- The filter that a text describes; a text that describes none lets pass what is of interest to
everybody. -/
def ofText (s : String) : Filter := (parse? s).getD ⟨[⟨"", Level.info.rank, false⟩]⟩

/-- The directive that decides about a component: the one with the longest beginning of its name,
and of equal ones the last. -/
def deciding? (f : Filter) (target : String) : Option Directive :=
  (f.directives.filter fun d => !d.inSpan && d.target.toList.isPrefixOf target.toList).foldl
    (fun best d =>
      match best with
      | none => some d
      | some b => if b.target.length ≤ d.target.length then some d else some b)
    none

/-- Whether an event is written. -/
def passes (f : Filter) (e : Event) : Bool :=
  match f.deciding? e.record.component.target with
  | some d => e.record.level.rank ≤ d.maxRank
  | none => false

end Filter

end PooledStore.Server
