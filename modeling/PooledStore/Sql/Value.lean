import PooledStore.Text.Utf8

/-!
# SQL values

What a cell of a table holds, how a column's declared type changes what is put into it, and the
order of values of different kinds.
-/

namespace PooledStore.Sql

open Text

/-- The content of a cell. -/
inductive Value where
  | null
  | integer (n : Int)
  /-- The number `digits / 10 ^ places`, with no zero at the end of its fraction. -/
  | real (digits : Int) (places : Nat)
  | text (s : String)
  | blob (bs : Bytes)
  deriving DecidableEq, Repr

/-- What a column prefers to hold. -/
inductive Affinity where
  | text
  | numeric
  | integer
  | real
  | blob
  deriving DecidableEq, Repr

namespace Value

/-- The kind of a value, by its name in messages. -/
def typeName : Value → String
  | .null => "Null"
  | .integer _ => "Integer"
  | .real .. => "Real"
  | .text _ => "Text"
  | .blob _ => "Blob"

/-- A number in its normal form: a whole one stays a real number. -/
def ofDecimal (digits : Int) : Nat → Value
  | 0 => .real digits 0
  | places + 1 =>
    if digits % 10 = 0 then ofDecimal (digits / 10) places else .real digits (places + 1)

/-- Values of different kinds are ordered by kind. -/
def kindRank : Value → Nat
  | .null => 0
  | .integer _ => 1
  | .real .. => 1
  | .text _ => 2
  | .blob _ => 3

/-- A number as digits and places. -/
def decimal? : Value → Option (Int × Nat)
  | .integer n => some (n, 0)
  | .real d p => some (d, p)
  | _ => none

/-- The order of bytes. -/
def bytesBefore : Bytes → Bytes → Bool
  | _, [] => false
  | [], _ :: _ => true
  | a :: as, b :: bs => a < b || (a == b && bytesBefore as bs)

/-- Whether a value comes before another in the order of values. -/
def before (a b : Value) : Bool :=
  if a.kindRank != b.kindRank then a.kindRank < b.kindRank
  else
    match a, b with
    | .text s, .text t => bytesBefore (encode s) (encode t)
    | .blob s, .blob t => bytesBefore s t
    | _, _ =>
      match a.decimal?, b.decimal? with
      | some (d, p), some (e, q) => d * Nat.pow 10 q < e * Nat.pow 10 p
      | _, _ => false

/-- Equal in the order of values. -/
def same (a b : Value) : Bool := !before a b && !before b a

/-- Whether a number fits in 64 bits with a sign. -/
def fits (n : Int) : Bool := -0x8000000000000000 ≤ n && n ≤ 0x7FFFFFFFFFFFFFFF

/-- The number that decimal digits write. -/
def natOf (ds : List Char) : Nat := ds.foldl (fun n d => n * 10 + (d.toNat - 48)) 0

def isExponentMark (c : Char) : Bool := c = 'e' || c = 'E'

/-- How many places a number is moved at most by an exponent; what is moved further is out of
reach of a double anyway. -/
def maxShift : Nat := 400

/-- The number that digits with a point and an exponent, each of which may be absent, write. It is
an integer if it has neither and fits. -/
def ofNumeral (cs : List Char) : Value :=
  let mantissa := cs.takeWhile (!isExponentMark ·)
  let whole := mantissa.takeWhile (· != '.')
  let fraction := (mantissa.dropWhile (· != '.')).drop 1
  let n := natOf (whole ++ fraction)
  let exponent : Int :=
    match (cs.dropWhile (!isExponentMark ·)).drop 1 with
    | '-' :: ds => -(natOf ds : Int)
    | '+' :: ds => natOf ds
    | ds => natOf ds
  if cs.all Char.isDigit && fits n then .integer n
  else
    let places : Int := fraction.length - exponent
    if 0 ≤ places then .ofDecimal n (min places.toNat maxShift)
    else .ofDecimal (n * Nat.pow 10 (min places.natAbs maxShift)) 0

/-- Whether characters are digits with a point and an exponent, each of which may be absent. -/
def isNumeral (cs : List Char) : Bool :=
  let mantissa := cs.takeWhile (!isExponentMark ·)
  let digits := mantissa.filter (· != '.')
  let exponent :=
    match cs.dropWhile (!isExponentMark ·) with
    | _ :: '-' :: ds => some ds
    | _ :: '+' :: ds => some ds
    | _ :: ds => some ds
    | [] => none
  !digits.isEmpty && digits.all Char.isDigit && digits.length + 1 ≥ mantissa.length &&
    (exponent.map fun ds => !ds.isEmpty && ds.all Char.isDigit).getD true

/-- The number that a text writes, blanks around it and a sign allowed. -/
def numberOfText? (s : String) : Option Value :=
  let cs := (s.toList.dropWhile (·.isWhitespace)).reverse.dropWhile (·.isWhitespace) |>.reverse
  let (negative, ds) :=
    match cs with
    | '-' :: ds => (true, ds)
    | '+' :: ds => (false, ds)
    | ds => (false, ds)
  if !isNumeral ds then none
  else
    match ofNumeral ds with
    | .integer n => some (.integer (if negative then -n else n))
    | .real d p => some (.real (if negative then -d else d) p)
    | v => some v

/-- The number as an integer where it is one and fits. -/
def narrowed : Value → Value
  | .real d 0 => if fits d then .integer d else .real d 0
  | v => v

/-- The number as a real number. -/
def widened : Value → Value
  | .integer n => .real n 0
  | v => v

/-- A decimal number written out. -/
def decimalText (digits : Int) (places : Nat) : String :=
  let whole := digits.natAbs / Nat.pow 10 places
  let fraction := toString (digits.natAbs % Nat.pow 10 places)
  let fraction := "".pushn '0' (places - fraction.length) ++ fraction
  (if digits < 0 then "-" else "") ++ toString whole ++ "." ++
    (if places = 0 then "0" else fraction)

/-- The value as text, where one is asked for. -/
def asText : Value → Option String
  | .null => none
  | .integer n => some (toString n)
  | .real d p => some (decimalText d p)
  | .text s => some s
  | .blob bs => some (decodeLossy bs)

/-- What a column makes of a value put into it. -/
def coerce (a : Affinity) (v : Value) : Value :=
  match a, v with
  | .text, .integer n => .text (toString n)
  | .text, .real d p => .text (decimalText d p)
  | .numeric, .text s => ((numberOfText? s).map narrowed).getD v
  | .integer, .text s => ((numberOfText? s).map narrowed).getD v
  | .numeric, v => v.narrowed
  | .integer, v => v.narrowed
  | .real, .text s => ((numberOfText? s).map widened).getD v
  | .real, v => v.widened
  | _, v => v

end Value

/-- Whether a text contains another. -/
def containsText (whole part : List Char) : Bool :=
  match whole with
  | [] => part.isEmpty
  | c :: rest => part.isPrefixOf (c :: rest) || containsText rest part

/-- What a column with a declared type prefers to hold. -/
def Affinity.ofType (declared : String) : Affinity :=
  let has (part : String) : Bool := containsText (declared.toList.map Char.toUpper) part.toList
  if has "INT" then .integer
  else if has "CHAR" || has "CLOB" || has "TEXT" then .text
  else if has "BLOB" || declared.isEmpty then .blob
  else if has "REAL" || has "FLOA" || has "DOUB" then .real
  else .numeric

end PooledStore.Sql
