/-!
# Blank text and letter case

Which characters count as white space when a configured value is tested for being blank, and the
ASCII case folding under which provider names are compared.
-/

namespace PooledStore.Text

/-- The code points with the Unicode property White_Space, as closed ranges. -/
def blankRanges : List (Nat × Nat) :=
  [(0x09, 0x0D), (0x20, 0x20), (0x85, 0x85), (0xA0, 0xA0), (0x1680, 0x1680), (0x2000, 0x200A),
    (0x2028, 0x2029), (0x202F, 0x202F), (0x205F, 0x205F), (0x3000, 0x3000)]

/-- A character is blank when it has the property White_Space. -/
def isBlankChar (c : Char) : Bool :=
  blankRanges.any fun r => r.1 ≤ c.toNat && c.toNat ≤ r.2

/-- A text is blank when nothing but white space is in it; the empty text is blank. -/
def isBlank (s : String) : Bool := s.toList.all isBlankChar

/-- The characters of a text without the blank ones at both ends. -/
def trimmed (s : List Char) : List Char :=
  ((s.dropWhile isBlankChar).reverse.dropWhile isBlankChar).reverse

/-- The text without white space at both ends. -/
def trim (s : String) : String := String.ofList (trimmed s.toList)

/-- The lower-case form of an ASCII capital; every other character is kept. -/
def lowerChar (c : Char) : Char :=
  if 'A' ≤ c ∧ c ≤ 'Z' then Char.ofNat (c.toNat + 32) else c

/-- The text with its ASCII capitals made small. -/
def asciiLower (s : String) : String := String.ofList (s.toList.map lowerChar)

/-- `none` for a blank text: what is blank counts as not given. -/
def nonBlank? (s : String) : Option String := if isBlank s then none else some s

end PooledStore.Text
