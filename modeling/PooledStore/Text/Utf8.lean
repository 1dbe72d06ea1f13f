/-!
# UTF-8

File names and file contents are bytes. `decode?` reads them as text where they are valid UTF-8;
`decodeLossy` reads any bytes, one replacement character for each maximal ill-formed piece.
-/

namespace PooledStore.Text

/-- Raw bytes: a file name, or what a file holds. -/
abbrev Bytes := List UInt8

/-- The UTF-8 form of a text. -/
def encode (s : String) : Bytes := s.toList.flatMap String.utf8EncodeChar

/-- A character of which some bytes are still owed: the bytes seen, the bits so far, how many
bytes follow, and the range of the next one. -/
structure Partial where
  seen : Bytes
  bits : Nat
  owed : Nat
  low : UInt8
  high : UInt8

/-- What a byte can mean where a character may begin. -/
inductive Lead where
  | whole (c : Char)
  | opens (p : Partial)
  | stray

/-- The meaning of a byte between characters. The ranges of the second byte exclude overlong
forms, surrogates and what lies above the last code point. -/
def lead (b : UInt8) : Lead :=
  let n := b.toNat
  if n < 0x80 then .whole (Char.ofNat n)
  else if n < 0xC2 then .stray
  else if n < 0xE0 then .opens ⟨[b], n - 0xC0, 1, 0x80, 0xBF⟩
  else if n < 0xF0 then
    .opens ⟨[b], n - 0xE0, 2, if n = 0xE0 then 0xA0 else 0x80, if n = 0xED then 0x9F else 0xBF⟩
  else if n < 0xF5 then
    .opens ⟨[b], n - 0xF0, 3, if n = 0xF0 then 0x90 else 0x80, if n = 0xF4 then 0x8F else 0xBF⟩
  else .stray

/-- The bytes as characters and maximal ill-formed pieces, after what is seen of a character. -/
def piecesFrom : Option Partial → Bytes → List (Except Bytes Char)
  | none, [] => []
  | some p, [] => [.error p.seen]
  | none, b :: rest =>
    match lead b with
    | .whole c => .ok c :: piecesFrom none rest
    | .opens p => piecesFrom (some p) rest
    | .stray => .error [b] :: piecesFrom none rest
  | some p, b :: rest =>
    if p.low ≤ b ∧ b ≤ p.high then
      let bits := p.bits * 64 + (b.toNat - 0x80)
      if p.owed ≤ 1 then .ok (Char.ofNat bits) :: piecesFrom none rest
      else piecesFrom (some ⟨p.seen ++ [b], bits, p.owed - 1, 0x80, 0xBF⟩) rest
    else
      match lead b with
      | .whole c => .error p.seen :: .ok c :: piecesFrom none rest
      | .opens q => .error p.seen :: piecesFrom (some q) rest
      | .stray => .error p.seen :: .error [b] :: piecesFrom none rest

/-- The bytes as characters and maximal ill-formed pieces. -/
def pieces (bs : Bytes) : List (Except Bytes Char) := piecesFrom none bs

/-- The text that the bytes spell, if they are valid UTF-8. -/
def decode? (bs : Bytes) : Option String :=
  ((pieces bs).mapM Except.toOption).map String.ofList

/-- The text that the bytes spell, with U+FFFD for each ill-formed piece. -/
def decodeLossy (bs : Bytes) : String :=
  String.ofList ((pieces bs).map fun p => p.toOption.getD '\ufffd')

end PooledStore.Text
