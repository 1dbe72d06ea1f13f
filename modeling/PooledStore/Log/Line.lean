import PooledStore.Log

/-!
# Log lines

The two written forms of a log record, one line each: an object of named values for machines, and
plain text for people. A line never holds a line break, whatever the record carries.

* `Record.jsonLine`: time, level, the values under `fields` with the message first, and target.
* `Record.textLine`: time, level and target, the message, then the values.
-/

namespace PooledStore.Log

/-- A character between the quotes of a line. Quotes, backslashes and control characters are
escaped. -/
def escaped (c : Char) : List Char :=
  if c = '"' then ['\\', '"']
  else if c = '\\' then ['\\', '\\']
  else if c = '\n' then ['\\', 'n']
  else if c = '\r' then ['\\', 'r']
  else if c = '\t' then ['\\', 't']
  else if c.toNat < 0x20 then
    ['\\', 'u', '0', '0', Nat.digitChar (c.toNat / 16), Nat.digitChar (c.toNat % 16)]
  else [c]

/-- A text between quotes. -/
def quoted (s : String) : String := String.ofList ('"' :: s.toList.flatMap escaped ++ ['"'])

/-- A value in a line: only texts are quoted. -/
def Value.written : Value → String
  | .text s => quoted s
  | .number n => toString n
  | .flag b => if b then "true" else "false"

/-- The record as an object on one line. -/
def Record.jsonLine (time : String) (r : Record) : String :=
  let entry (name value : String) : String := quoted name ++ ":" ++ value
  let block (entries : List String) : String :=
    "\x7b" ++ String.intercalate "," entries ++ "\x7d"
  block
    [entry "timestamp" (quoted time), entry "level" (quoted r.level.label),
      entry "fields"
        (block (entry "message" (quoted r.message) :: r.fields.map fun f => entry f.1 f.2.written)),
      entry "target" (quoted r.component.target)]

/-- The record as text on one line. -/
def Record.textLine (time : String) (r : Record) : String :=
  String.intercalate " "
    ([time, r.level.label, r.component.target ++ ":", r.message] ++
      r.fields.map fun f => f.1 ++ "=" ++ f.2.written)

/-- No escape holds a line break, so that a record stays on its line. -/
theorem newline_not_mem_escaped (c : Char) : '\n' ∉ escaped c := by
  have digit : ∀ n < 16, '\n' ≠ Nat.digitChar n := by decide
  grind [escaped]

end PooledStore.Log
