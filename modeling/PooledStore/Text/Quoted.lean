import PooledStore.Text.Hidden
import PooledStore.Text.Utf8

/-!
# Quoted text

The form in which a text or a file name is shown when a value is printed for debugging: in double
quotes, with escapes for quotes, backslashes and every character that does not show as itself.
-/

namespace PooledStore.Text

/-- How a character is shown between quotes, except that it says nothing about quotes. -/
def showPlain (c : Char) : List Char :=
  if c = '\\' then ['\\', '\\']
  else if c = '\n' then ['\\', 'n']
  else if c = '\r' then ['\\', 'r']
  else if c = '\t' then ['\\', 't']
  else if c = Char.ofNat 0 then ['\\', '0']
  else if isHidden c then
    ['\\', 'u', '\x7b'] ++ Nat.toDigits 16 c.toNat ++ ['\x7d']
  else [c]

/-- How a character is shown, with a backslash before each of the given quotes. -/
def showChar (quotes : List Char) (c : Char) : List Char :=
  if quotes.contains c then ['\\', c] else showPlain c

/-- A number below 256 as two capital hexadecimal digits. -/
def hexByte (b : UInt8) : List Char :=
  [b.toNat / 16, b.toNat % 16].flatMap fun d => (Nat.toDigits 16 d).map Char.toUpper

/-- How a piece of bytes is shown: an ill-formed one as its bytes. -/
def showPiece (quotes : List Char) : Except Bytes Char → List Char
  | .ok c => showChar quotes c
  | .error bs => bs.flatMap fun b => '\\' :: 'x' :: hexByte b

/-- The text in quotes. -/
def quote (s : String) : String :=
  String.ofList ('"' :: s.toList.flatMap (showChar ['"']) ++ ['"'])

/-- The file name in quotes. A single quote is escaped here too. -/
def quoteBytes (bs : Bytes) : String :=
  String.ofList ('"' :: (pieces bs).flatMap (showPiece ['"', '\'']) ++ ['"'])

end PooledStore.Text
