import PooledStore.Path

/-!
# File trees

A finite tree of files, directories and symbolic links, as one process sees it. What the process may
do at a place is part of the tree; where nothing else is said it owns everything, so that the
owner's permission bits decide.

* `FileTree.resolve`: where a path leads, following links.
* `FileTree.readText`, `FileTree.list`, `FileTree.mode`: what can be read, and why not.
* `FileTree.put`, `FileTree.remove`: changes.
-/

namespace PooledStore

open Text

/-- Why a file operation failed. -/
inductive FileError where
  | notFound
  | permissionDenied
  | notADirectory
  | isADirectory
  | nameTooLong
  | tooManyLinks
  /-- A name holds the byte that ends names. -/
  | nulInName
  /-- The contents were to be text and are not valid UTF-8. -/
  | notText
  /-- No directory lies two levels above an executable. -/
  | noInstallationRoot (exe : Path)
  deriving DecidableEq, Repr

/-- The error as it is displayed. -/
def FileError.message : FileError → String
  | .notFound => "No such file or directory (os error 2)"
  | .permissionDenied => "Permission denied (os error 13)"
  | .notADirectory => "Not a directory (os error 20)"
  | .isADirectory => "Is a directory (os error 21)"
  | .nameTooLong => "File name too long (os error 36)"
  | .tooManyLinks => "Too many levels of symbolic links (os error 40)"
  | .nulInName => "file name contained an unexpected NUL byte"
  | .notText => "stream did not contain valid UTF-8"
  | .noInstallationRoot exe => "executable " ++ exe.display ++ " has no installation root"

/-- The names that lead from the root to a place. -/
abbrev Location := List Bytes

/-- What a file holds: bytes, or a database known by its number. -/
inductive Contents where
  | bytes (bs : Bytes)
  | database (id : Nat)
  deriving DecidableEq, Repr

/-- What is at a place. The mode holds the nine permission bits. -/
inductive Node where
  | file (mode : Nat) (contents : Contents)
  | directory (mode : Nat)
  | link (target : Path)
  deriving DecidableEq, Repr

/-- What a process may want to do with a file or a directory. -/
inductive Permission where
  | read
  /-- To write, or to put names into a directory. -/
  | write
  /-- To look up names in a directory. -/
  | search
  deriving DecidableEq, Repr

/-- What the bits of a mode permit the owner. -/
def Permission.ofOwner (p : Permission) (mode : Nat) : Bool :=
  match p with
  | .read => mode &&& 0o400 != 0
  | .write => mode &&& 0o200 != 0
  | .search => mode &&& 0o100 != 0

/-- A file tree and the directory in which relative paths begin. The root is always there. -/
structure FileTree where
  cwd : Location
  nodes : List (Location × Node)
  /-- What the process is permitted to do with a node of a mode at a place. -/
  permits : Permission → Location → Nat → Bool := fun p _ mode => p.ofOwner mode

namespace FileTree

/-- The longest name that a directory can hold, in bytes. -/
def maxName : Nat := 255

/-- The length from which on a path is refused as a whole. -/
def maxPath : Nat := 4096

/-- How many links may be followed on the way to a place. -/
def maxLinks : Nat := 40

/-- The mode of directories that are made on the way to a file. -/
def plainDirectory : Node := .directory 0o755

/-- The root, which cannot be written to. -/
def rootDirectory : Node := .directory 0o555

/-- What is at a location. -/
def node? (t : FileTree) (l : Location) : Option Node :=
  if l.isEmpty then some rootDirectory else (t.nodes.find? (·.1 = l)).map (·.2)

/-- The names of a path that lookup follows, one by one. A separator at the end asks for a
directory, as `.` does. -/
def steps (p : Path) : List Bytes :=
  let named := p.segments.filter (!·.isEmpty)
  if p.bytes.getLast? == some Path.slash then named ++ [[Path.dot]] else named

/-- Follows names from a directory. `follow` continues after a link, from the place and with the
names given; the last name is not followed when `followLast` is false. A last name that is not
there leads to its place in the directory. -/
def walk (t : FileTree) (followLast : Bool)
    (follow : Location → List Bytes → Except FileError Location) :
    Location → List Bytes → Except FileError Location
  | here, [] => .ok here
  | here, name :: rest =>
    match t.node? here with
    | some (.directory mode) =>
      if !t.permits .search here mode then .error .permissionDenied
      else if name = [Path.dot] then walk t followLast follow here rest
      else if name = Path.up then walk t followLast follow here.dropLast rest
      else if name.length > maxName then .error .nameTooLong
      else
        let there := here ++ [name]
        match t.node? there with
        | none => if rest.isEmpty then .ok there else .error .notFound
        | some (.link target) =>
          if rest.isEmpty && !followLast then .ok there
          else if target.bytes.isEmpty then .error .notFound
          else follow (if target.isAbsolute then [] else here) (steps target ++ rest)
        | some _ => walk t followLast follow there rest
    | some _ => .error .notADirectory
    | none => .error .notFound

/-- Follows names while at most `links` links lie on the way. -/
def walkLinks (t : FileTree) (followLast : Bool) :
    Nat → Location → List Bytes → Except FileError Location
  | 0 => walk t followLast fun _ _ => .error .tooManyLinks
  | links + 1 => walk t followLast (walkLinks t followLast links)

/-- The place that a path leads to. The place itself may be empty, the directory above it not. -/
def resolve (t : FileTree) (followLast : Bool) (p : Path) : Except FileError Location :=
  if p.bytes.contains 0 then .error .nulInName
  else if p.bytes.isEmpty then .error .notFound
  else if p.bytes.length ≥ maxPath then .error .nameTooLong
  else walkLinks t followLast maxLinks (if p.isAbsolute then [] else t.cwd) (steps p)

/-- What a path leads to, never a link. -/
def lookup (t : FileTree) (p : Path) : Except FileError Node := do
  let l ← t.resolve true p
  match t.node? l with
  | some n => .ok n
  | none => .error .notFound

/-- Something is there. -/
def holds (t : FileTree) (p : Path) : Bool :=
  match t.lookup p with
  | .ok _ => true
  | .error _ => false

/-- A regular file is there, perhaps behind links. -/
def isFile (t : FileTree) (p : Path) : Bool :=
  match t.lookup p with
  | .ok (.file ..) => true
  | _ => false

/-- The permission bits of what a path leads to. -/
def mode (t : FileTree) (p : Path) : Except FileError Nat := do
  match ← t.lookup p with
  | .file m _ => .ok m
  | .directory m => .ok m
  | .link _ => .error .notFound

/-- What the file holds. -/
def read (t : FileTree) (p : Path) : Except FileError Contents := do
  let l ← t.resolve true p
  match t.node? l with
  | some (.file m c) => if t.permits .read l m then .ok c else .error .permissionDenied
  | some (.directory m) =>
    .error (if t.permits .read l m then .isADirectory else .permissionDenied)
  | some (.link _) => .error .notFound
  | none => .error .notFound

/-- The text in the file. -/
def readText (t : FileTree) (p : Path) : Except FileError String := do
  match ← t.read p with
  | .bytes bs =>
    match decode? bs with
    | some s => .ok s
    | none => .error .notText
  | .database _ => .error .notText

/-- The names in a directory, each once. -/
def childNames (t : FileTree) (l : Location) : List Bytes :=
  t.nodes.filterMap fun (place, _) =>
    match place.getLast? with
    | some name => if place = l ++ [name] then some name else none
    | none => none

/-- The names in the directory that a path leads to, in no particular order. -/
def list (t : FileTree) (p : Path) : Except FileError (List Bytes) := do
  let l ← t.resolve true p
  match t.node? l with
  | some (.directory m) =>
    if t.permits .read l m then .ok (t.childNames l) else .error .permissionDenied
  | some _ => .error .notADirectory
  | none => .error .notFound

/-- A new name may be put into the directory above a location. -/
def admits (t : FileTree) (l : Location) : Bool :=
  match t.node? l.dropLast with
  | some (.directory m) => t.permits .write l.dropLast m && t.permits .search l.dropLast m
  | _ => false

/-- Puts a node at a location, in place of what is there. -/
def set (t : FileTree) (l : Location) (n : Node) : FileTree :=
  if t.nodes.any (·.1 = l) then
    { t with nodes := t.nodes.map fun e => if e.1 = l then (l, n) else e }
  else { t with nodes := t.nodes ++ [(l, n)] }

/-- Makes a directory where a path leads to nothing. -/
def makeDirectory (t : FileTree) (p : Path) : FileTree :=
  match t.resolve true p with
  | .ok l => if (t.node? l).isNone then t.set l plainDirectory else t
  | .error _ => t

/-- The directories above a path, the outermost first. -/
def ancestors (p : Path) : List Path :=
  let rec above : Nat → Path → List Path
    | 0, _ => []
    | n + 1, q =>
      match q.parent? with
      | some r => if r.bytes.isEmpty then [] else above n r ++ [r]
      | none => []
  above p.bytes.length p

/-- Puts a node where a path leads, with the directories above it made as needed. A link that is
there is followed, except for putting a link. -/
def put (t : FileTree) (p : Path) (n : Node) : FileTree :=
  let t := (ancestors p).foldl makeDirectory t
  let followLast := match n with
    | .link _ => false
    | _ => true
  match t.resolve followLast p with
  | .ok l => t.set l n
  | .error _ => t

/-- The tree without what a path names, and all below it; `none` if there is nothing. A link is
removed itself. -/
def remove (t : FileTree) (p : Path) : Option FileTree :=
  match t.resolve false p with
  | .ok l =>
    if l.isEmpty || (t.node? l).isNone then none
    else some { t with nodes := t.nodes.filter fun e => !l.isPrefixOf e.1 }
  | .error _ => none

/-- The location of a directory, as an absolute path. -/
def pathOf (l : Location) : Path := l.foldl (fun p n => p.join ⟨n⟩) ⟨[Path.slash]⟩

/-- An empty tree in which relative paths begin in the directory at `cwd`. -/
def empty (cwd : Location) : FileTree :=
  { cwd := cwd
    nodes := (List.range cwd.length).map fun i => (cwd.take (i + 1), plainDirectory) }

end FileTree

/-- Named values given to the process from outside, as bytes. -/
structure Environment where
  values : List (String × Bytes)

/-- The value of a name; one that is not text counts as not given. -/
def Environment.get? (e : Environment) (key : String) : Option String :=
  (e.values.find? (·.1 = key)).bind fun v => decode? v.2

end PooledStore
