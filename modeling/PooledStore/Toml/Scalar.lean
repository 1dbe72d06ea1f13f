import PooledStore.Toml.Value

/-!
# TOML scalars

Readers for strings, numbers, booleans and points in time. A reader takes the characters of a
document from some place on, and gives what it read with the characters after it, or `none`.
-/

namespace PooledStore.Toml

/-- Reads something at the front of the characters. -/
abbrev Reader (α : Type) := List Char → Option (α × List Char)

/-! ## Blanks -/

def isSpace (c : Char) : Bool := c = ' ' || c = '\t'

/-- The characters after the blanks in front. -/
def skipSpace (cs : List Char) : List Char := cs.dropWhile isSpace

/-- Any character that may stand in a comment or, quotes apart, in a string: no control characters
but the tab. -/
def isPlain (c : Char) : Bool := c = '\t' || (0x20 ≤ c.toNat && c.toNat != 0x7F)

/-- The characters after the end of a line, which is a line feed, perhaps after a carriage
return. -/
def skipNewline : List Char → Option (List Char)
  | '\n' :: rest => some rest
  | '\r' :: '\n' :: rest => some rest
  | _ => none

/-- The characters after a comment, if one is in front. -/
def skipComment : List Char → List Char
  | '#' :: rest => rest.dropWhile isPlain
  | cs => cs

/-! ## Strings -/

def isHexDigit (c : Char) : Bool :=
  c.isDigit || ('a' ≤ c && c ≤ 'f') || ('A' ≤ c && c ≤ 'F')

def hexValue (c : Char) : Nat :=
  if c.isDigit then c.toNat - 48
  else if 'a' ≤ c && c ≤ 'f' then c.toNat - 87
  else c.toNat - 55

/-- The number written by digits in a base. -/
def ofDigits (base : Nat) (ds : List Char) : Nat :=
  ds.foldl (fun n d => n * base + hexValue d) 0

/-- The character with a code point of exactly `n` hexadecimal digits. -/
def codePoint (n : Nat) : Reader Char := fun cs =>
  let ds := cs.take n
  if ds.length = n && ds.all isHexDigit then
    let v := ofDigits 16 ds
    if v < 0xD800 || (0xDFFF < v && v < 0x110000) then some (Char.ofNat v, cs.drop n) else none
  else none

/-- The character that an escape stands for, without its backslash. -/
def escape : Reader Char
  | 'b' :: rest => some ('\x08', rest)
  | 't' :: rest => some ('\t', rest)
  | 'n' :: rest => some ('\n', rest)
  | 'f' :: rest => some ('\x0c', rest)
  | 'r' :: rest => some ('\r', rest)
  | '"' :: rest => some ('"', rest)
  | '\\' :: rest => some ('\\', rest)
  | 'u' :: rest => codePoint 4 rest
  | 'U' :: rest => codePoint 8 rest
  | _ => none

/-- The rest of a string on one line, up to its closing quote. Only the double quote knows
escapes. -/
def lineString (quote : Char) : Nat → List Char → Reader (List Char)
  | 0, _ => fun _ => none
  | fuel + 1, acc => fun cs =>
    match cs with
    | [] => none
    | c :: rest =>
      if c = quote then some (acc.reverse, rest)
      else if c = '\\' && quote = '"' then
        match escape rest with
        | some (e, rest) => lineString quote fuel (e :: acc) rest
        | none => none
      else if isPlain c then lineString quote fuel (c :: acc) rest
      else none

/-- The characters after blanks and line ends. -/
def skipLines : Nat → List Char → List Char
  | 0, cs => cs
  | fuel + 1, cs =>
    let cs := skipSpace cs
    match skipNewline cs with
    | some rest => skipLines fuel rest
    | none => cs

/-- The rest of a string over several lines. One or two quotes belong to it; three close it, after
up to two that still belong to it. A backslash at the end of a line swallows the blanks and line
ends that follow. -/
def blockString (quote : Char) : Nat → List Char → Reader (List Char)
  | 0, _ => fun _ => none
  | fuel + 1, acc => fun cs =>
    match cs with
    | [] => none
    | c :: rest =>
      if c = quote then
        let n := (cs.takeWhile (· = quote)).length
        let after := cs.dropWhile (· = quote)
        if n < 3 then blockString quote fuel (List.replicate n quote ++ acc) after
        else if n < 6 then some ((List.replicate (n - 3) quote ++ acc).reverse, after)
        else none
      else if c = '\\' && quote = '"' then
        match skipNewline (skipSpace rest) with
        | some more => blockString quote fuel acc (skipLines more.length more)
        | none =>
          match escape rest with
          | some (e, rest) => blockString quote fuel (e :: acc) rest
          | none => none
      else
        match skipNewline cs with
        | some more => blockString quote fuel ('\n' :: acc) more
        | none => if isPlain c then blockString quote fuel (c :: acc) rest else none

/-- A string on one line, from its opening quote on. -/
def quoted : Reader String
  | c :: rest =>
    if c = '"' || c = '\'' then
      (lineString c (rest.length + 1) [] rest).map fun r => (String.ofList r.1, r.2)
    else none
  | [] => none

/-- A string of any kind. A line end right after three opening quotes does not belong to it. -/
def string : Reader String := fun cs =>
  match cs with
  | a :: b :: c :: rest =>
    if (a = '"' || a = '\'') && b = a && c = a then
      let rest := (skipNewline rest).getD rest
      (blockString a (rest.length + 1) [] rest).map fun r => (String.ofList r.1, r.2)
    else quoted cs
  | _ => quoted cs

/-! ## Numbers -/

/-- Digits, with single underscores between them allowed, without these. -/
def digits (isDigit : Char → Bool) : List Char → Option (List Char)
  | [] => none
  | [d] => if isDigit d then some [d] else none
  | d :: '_' :: more => if isDigit d then (digits isDigit more).map (d :: ·) else none
  | d :: more => if isDigit d then (digits isDigit more).map (d :: ·) else none

/-- Whether a number fits in 64 bits with a sign. -/
def fits (n : Int) : Bool := -0x8000000000000000 ≤ n && n ≤ 0x7FFFFFFFFFFFFFFF

/-- A decimal number has no needless zeros in front. -/
def decimal (ds : List Char) : Option (List Char) :=
  if ds.head? = some '0' && 1 < ds.length then none else digits Char.isDigit ds

/-- A leading sign, and the rest. -/
def sign : List Char → Bool × List Char
  | '-' :: rest => (true, rest)
  | '+' :: rest => (false, rest)
  | cs => (false, cs)

def isOctal (c : Char) : Bool := '0' ≤ c && c ≤ '7'

def isBinary (c : Char) : Bool := c = '0' || c = '1'

/-- The integer that a word spells. -/
def integer? (word : List Char) : Option Int :=
  let based (base : Nat) (isDigit : Char → Bool) (ds : List Char) : Option Int :=
    (digits isDigit ds).bind fun ds =>
      let n : Int := ofDigits base ds
      if fits n then some n else none
  match word with
  | '0' :: 'x' :: ds => based 16 isHexDigit ds
  | '0' :: 'o' :: ds => based 8 isOctal ds
  | '0' :: 'b' :: ds => based 2 isBinary ds
  | _ =>
    let (negative, ds) := sign word
    (decimal ds).bind fun ds =>
      let n : Int := ofDigits 10 ds
      let n := if negative then -n else n
      if fits n then some n else none

/-- The least magnitude that rounds to infinity: half a unit above the largest double. -/
def overflow : Nat := (1 <<< 1024) - (1 <<< 970)

/-- Whether digits, scaled by a power of ten, stay below `overflow`. -/
def isFinite (ds : List Char) (exponent : Int) : Bool :=
  let ds := ds.dropWhile (· = '0')
  let size : Int := ds.length + exponent
  if ds.isEmpty || size < 300 then true
  else if size > 310 then false
  else if exponent < 0 then ofDigits 10 ds < overflow * Nat.pow 10 exponent.natAbs
  else ofDigits 10 ds * Nat.pow 10 exponent.natAbs < overflow

/-- Whether a word spells a float: a decimal number with a fraction, an exponent or both, or one
of the special values. A positive one too large for a double is refused. -/
def isFloat (word : List Char) : Bool :=
  let (negative, body) := sign word
  if body = ['i', 'n', 'f'] || body = ['n', 'a', 'n'] then true
  else
    let isMark (c : Char) : Bool := c = 'e' || c = 'E'
    let mantissa := body.takeWhile (!isMark ·)
    let exponent : Option Int :=
      match body.dropWhile (!isMark ·) with
      | [] => some 0
      | _ :: e =>
        let (below, ds) := sign e
        (digits Char.isDigit ds).map fun ds =>
          let n : Int := ofDigits 10 ds
          if below then -n else n
    let whole := mantissa.takeWhile (· != '.')
    let fraction : Option (List Char) :=
      match mantissa.dropWhile (· != '.') with
      | [] => if mantissa.length < body.length then some [] else none
      | _ :: f => digits Char.isDigit f
    match decimal whole, fraction, exponent with
    | some w, some f, some e => negative || isFinite (w ++ f) (e - f.length)
    | _, _, _ => false

/-! ## Points in time -/

/-- The number that exactly `n` digits at the front write. -/
def fixed (n : Nat) : Reader Nat := fun cs =>
  let ds := cs.take n
  if ds.length = n && ds.all Char.isDigit then some (ofDigits 10 ds, cs.drop n) else none

def isLeapYear (y : Nat) : Bool := y % 4 = 0 && (y % 100 != 0 || y % 400 = 0)

def daysIn (year month : Nat) : Nat :=
  if month = 2 then (if isLeapYear year then 29 else 28)
  else if month = 4 || month = 6 || month = 9 || month = 11 then 30
  else 31

/-- The characters after a calendar date. -/
def skipDate (cs : List Char) : Option (List Char) := do
  let (year, cs) ← fixed 4 cs
  let '-' :: cs := cs | none
  let (month, cs) ← fixed 2 cs
  let '-' :: cs := cs | none
  let (day, cs) ← fixed 2 cs
  if 1 ≤ month && month ≤ 12 && 1 ≤ day && day ≤ daysIn year month then some cs else none

/-- The characters after a time of day, with seconds and perhaps a fraction of one. -/
def skipTime (cs : List Char) : Option (List Char) := do
  let (hour, cs) ← fixed 2 cs
  let ':' :: cs := cs | none
  let (minute, cs) ← fixed 2 cs
  let ':' :: cs := cs | none
  let (second, cs) ← fixed 2 cs
  if hour ≤ 23 && minute ≤ 59 && second ≤ 60 then
    match cs with
    | '.' :: fraction =>
      if (fraction.takeWhile Char.isDigit).isEmpty then none
      else some (fraction.dropWhile Char.isDigit)
    | _ => some cs
  else none

/-- The characters after a distance from universal time. -/
def skipOffset (cs : List Char) : Option (List Char) :=
  let hoursAndMinutes (cs : List Char) : Option (List Char) := do
    let (hours, cs) ← fixed 2 cs
    let ':' :: cs := cs | none
    let (minutes, cs) ← fixed 2 cs
    if hours ≤ 23 && minutes ≤ 59 then some cs else none
  match cs with
  | 'Z' :: rest => some rest
  | 'z' :: rest => some rest
  | '+' :: rest => hoursAndMinutes rest
  | '-' :: rest => hoursAndMinutes rest
  | _ => none

/-- The characters after a point in time: a date, a time of day, or both and then perhaps an
offset. -/
def skipMoment (cs : List Char) : Option (List Char) :=
  match skipDate cs with
  | none => skipTime cs
  | some afterDate =>
    let timed : Option (List Char) :=
      match afterDate with
      | 'T' :: rest => skipTime rest
      | 't' :: rest => skipTime rest
      | ' ' :: rest => skipTime rest
      | _ => none
    match timed with
    | none => some afterDate
    | some afterTime => some ((skipOffset afterTime).getD afterTime)

/-! ## Scalars -/

/-- A character that numbers and words are made of. -/
def isWordChar (c : Char) : Bool :=
  c.isAlphanum || c = '_' || c = '+' || c = '-' || c = '.' || c = ':'

/-- A value written as one word. -/
def ofWord? (word : List Char) : Option Value :=
  if word = ['t', 'r', 'u', 'e'] then some (.boolean true)
  else if word = ['f', 'a', 'l', 's', 'e'] then some (.boolean false)
  else
    match integer? word with
    | some n => some (.integer n)
    | none => if isFloat word then some .float else none

/-- A string, a number, a boolean or a point in time. -/
def scalar : Reader Value := fun cs =>
  match cs with
  | [] => none
  | c :: _ =>
    if c = '"' || c = '\'' then (string cs).map fun r => (.text r.1, r.2)
    else
      match skipMoment cs with
      | some rest =>
        if (rest.head?.map isWordChar).getD false then none else some (.moment, rest)
      | none => (ofWord? (cs.takeWhile isWordChar)).map fun v => (v, cs.dropWhile isWordChar)

end PooledStore.Toml
