import PooledStore.Text.Utf8

/-!
# Paths

A path is a sequence of bytes in which `/` separates names. Joining never normalises; the parent
and the file name are taken from the components, which leave out repeated separators and `.`.

* `Path.join`, `Path.parent?`, `Path.fileName?`, `Path.extensionOf`: the usual views.
* `Path.absolute`: the path from the root, without `.` and empty components, `..` kept.
-/

namespace PooledStore

open Text

/-- A path, as the bytes it is written with. -/
structure Path where
  bytes : Bytes
  deriving DecidableEq, Repr

namespace Path

/-- The byte between names. -/
def slash : UInt8 := 0x2F

/-- The byte that precedes an extension. -/
def dot : UInt8 := 0x2E

/-- The path written by a text. -/
def ofText (s : String) : Path := ⟨encode s⟩

/-- The path as it is shown in messages. -/
def display (p : Path) : String := decodeLossy p.bytes

def isAbsolute (p : Path) : Bool := p.bytes.head? == some slash

/-- `q` itself when it is absolute, otherwise `q` below `p`, with one separator added where `p`
does not end in one. -/
def join (p q : Path) : Path :=
  if q.isAbsolute then q
  else if p.bytes.isEmpty || p.bytes.getLast? == some slash then ⟨p.bytes ++ q.bytes⟩
  else ⟨p.bytes ++ slash :: q.bytes⟩

/-- The stretches between separators, empty ones included; never an empty list. -/
def segmentsOf : Bytes → List Bytes
  | [] => [[]]
  | b :: rest =>
    if b = slash then [] :: segmentsOf rest
    else match segmentsOf rest with
      | [] => [[b]]
      | s :: more => (b :: s) :: more

def segments (p : Path) : List Bytes := segmentsOf p.bytes

/-- The bytes of segments with a separator between each two. -/
def bytesOf : List Bytes → Bytes
  | [] => []
  | [s] => s
  | s :: more => s ++ slash :: bytesOf more

/-- A segment that names nothing: an empty one, or `.`. -/
def isVoid (s : Bytes) : Bool := s.isEmpty || s == [dot]

/-- The segment `..`. -/
def up : Bytes := [dot, dot]

/-- The segments after the first, written backwards, from the last one that names something. -/
def trimBack (s : List Bytes) : List Bytes := s.dropWhile isVoid

/-- The text of an absolute or a relative path from its first segment and the backward rest. An
absolute path with nothing else is the root. -/
def assemble (first : Bytes) (backward : List Bytes) : Path :=
  match first, backward with
  | [], [] => ⟨[slash]⟩
  | _, _ => ⟨bytesOf (first :: backward.reverse)⟩

/-- The path without its last component, or `none` for the root and the empty path. The parent of
a single name is the empty path. -/
def parent? (p : Path) : Option Path :=
  match p.segments with
  | [] => none
  | first :: rest =>
    match trimBack rest.reverse with
    | _ :: before => some (assemble first (trimBack before))
    | [] => if first.isEmpty then none else some ⟨[]⟩

/-- The last component, unless it is `..`, the root, or a lone `.`. -/
def fileName? (p : Path) : Option Bytes :=
  match p.segments with
  | [] => none
  | first :: rest =>
    match trimBack rest.reverse with
    | last :: _ => if last = up then none else some last
    | [] => if isVoid first || first = up then none else some first

/-- What follows the last dot of a name, unless the name starts with its only dot. -/
def extensionOf (name : Bytes) : Option Bytes :=
  if name = up then none
  else
    let after := name.reverse.takeWhile (· != dot)
    if name.length ≤ after.length + 1 then none else some after.reverse

/-- The components below the root or the starting directory: every segment that names something. -/
def names (p : Path) : List Bytes := p.segments.filter (!isVoid ·)

/-- Two slashes at the front, and not three, are kept by `absolute`. -/
def hasDoubleRoot (p : Path) : Bool :=
  p.bytes.take 2 == [slash, slash] && p.bytes.take 3 != [slash, slash, slash]

/-- The path from the root: relative to `cwd` when it does not start there. `.` and empty
components are dropped, `..` is kept, and a separator at the end stays. -/
def absolute (p cwd : Path) : Path :=
  let start : Path :=
    if p.isAbsolute then (if p.hasDoubleRoot then ⟨[slash, slash]⟩ else ⟨[slash]⟩) else cwd
  let whole := p.names.foldl (fun q n => q.join ⟨n⟩) start
  if p.bytes.getLast? == some slash then whole.join ⟨[]⟩ else whole

/-- A path inside another keeps every byte of both. -/
theorem join_of_relative {p q : Path} (hq : q.isAbsolute = false) :
    ∃ sep : Bytes, (p.join q).bytes = p.bytes ++ sep ++ q.bytes ∧ (sep = [] ∨ sep = [slash]) := by
  unfold join
  rw [hq]
  simp only [Bool.false_eq_true, if_false]
  split
  · exact ⟨[], by simp, Or.inl rfl⟩
  · exact ⟨[slash], by simp, Or.inr rfl⟩

theorem segmentsOf_ne_nil (bs : Bytes) : segmentsOf bs ≠ [] := by
  cases bs with
  | nil => simp [segmentsOf]
  | cons b rest =>
    unfold segmentsOf
    split
    · simp
    · split <;> simp

/-- Splitting loses nothing: the segments written with separators are the path. -/
theorem bytesOf_segmentsOf (bs : Bytes) : bytesOf (segmentsOf bs) = bs := by
  induction bs with
  | nil => rfl
  | cons b rest ih =>
    unfold segmentsOf
    obtain ⟨s, more, hs⟩ := List.exists_cons_of_ne_nil (segmentsOf_ne_nil rest)
    rw [hs] at ih ⊢
    split
    · next h => subst h; rw [bytesOf, List.nil_append, ih]; simp
    · cases more with
      | nil => simp only [bytesOf] at ih ⊢; rw [ih]
      | cons m ms => simp only [bytesOf, List.cons_append] at ih ⊢; rw [ih]

end Path

end PooledStore
