import PooledStore.FileTree
import PooledStore.Log
import PooledStore.Provider

/-!
# Finding migration scripts

A directory holds migration scripts and perhaps other things. A script is a file whose extension
is the provider's or the portable one and whose name begins with its version. `discover` gives the
scripts in the order of their versions; the order in which the directory is listed plays no part.
-/

namespace PooledStore.Migration

open Log Text

/-- A migration script. -/
structure Script where
  version : Int
  /-- The file's name, for messages. -/
  name : String
  path : Path
  deriving DecidableEq, Repr

/-- Why the scripts of a directory cannot be told. -/
inductive DiscoveryError where
  | unreadable (dir : Path) (cause : FileError)
  /-- Two scripts claim the same version. -/
  | duplicateVersion (version : Int) (first second : String)
  deriving DecidableEq, Repr

/-- The error as it is displayed. -/
def DiscoveryError.message : DiscoveryError → String
  | .unreadable dir cause =>
    "failed to read migrations directory " ++ dir.display ++ ": " ++ cause.message
  | .duplicateVersion version first second =>
    "migrations '" ++ first ++ "' and '" ++ second ++ "' share version " ++ toString version

/-- The extension of scripts for every provider. -/
def portableExtension : String := "sql"

/-- The largest version that can be recorded. -/
def maxVersion : Nat := 0x7FFFFFFFFFFFFFFF

/-- The number that decimal digits write. -/
def numberOf (ds : List Char) : Nat := ds.foldl (fun n d => n * 10 + (d.toNat - 48)) 0

/-- The version with which a name begins: its leading digits, if there are any and the number is
not too large to be recorded. -/
def versionOf? (name : String) : Option Int :=
  let ds := name.toList.takeWhile Char.isDigit
  if ds.isEmpty then none
  else
    let n := numberOf ds
    if n ≤ maxVersion then some n else none

/-- What an entry of the directory is taken for. -/
inductive Finding where
  | script (s : Script)
  /-- Left out, with a report. -/
  | skipped (e : Event)
  /-- Not a file, left out without a report. -/
  | notAFile
  deriving DecidableEq, Repr

/-- What an entry is, from its name and whether it is a regular file. -/
def classify (dir : Path) (provider : Provider) (name : Bytes) (isFile : Bool) : Finding :=
  let path := dir.join ⟨name⟩
  if !isFile then .notAFile
  else
    let extension := (Path.extensionOf name).bind decode?
    if extension != some provider.extension && extension != some portableExtension then
      .skipped (.fileIgnored path.display provider.name)
    else
      match decode? name with
      | none => .skipped (.fileNameUndecodable path.display)
      | some text =>
        match versionOf? text with
        | none => .skipped (.scriptUnversioned text)
        | some version => .script ⟨version, text, path⟩

def Finding.script? : Finding → Option Script
  | .script s => some s
  | _ => none

def Finding.event? : Finding → Option Event
  | .skipped e => some e
  | _ => none

/-- Scripts are ordered by version, and those of one version by name. -/
def Script.le (a b : Script) : Bool :=
  a.version < b.version || (a.version = b.version && decide (a.name ≤ b.name))

/-- The first two neighbours with one version. -/
def neighbours? : List Script → Option (Script × Script)
  | a :: b :: rest => if a.version = b.version then some (a, b) else neighbours? (b :: rest)
  | _ => none

/-- The scripts in order, unless two of them claim one version. -/
def arrange (scripts : List Script) : Except DiscoveryError (List Script) :=
  let sorted := scripts.mergeSort Script.le
  match neighbours? sorted with
  | some (a, b) => .error (.duplicateVersion a.version a.name b.name)
  | none => .ok sorted

/-- The scripts among the entries of a directory. Each entry is a name and whether it is a regular
file. -/
def ofEntries (dir : Path) (provider : Provider) (entries : List (Bytes × Bool)) :
    Except DiscoveryError (List Script) × List Event :=
  let findings := entries.map fun e => classify dir provider e.1 e.2
  (arrange (findings.filterMap Finding.script?), findings.filterMap Finding.event?)

/-- The migration scripts in a directory for a provider. -/
def discover (files : FileTree) (dir : Path) (provider : Provider) :
    Except DiscoveryError (List Script) × List Event :=
  match files.list dir with
  | .error e => (.error (.unreadable dir e), [])
  | .ok names => ofEntries dir provider (names.map fun n => (n, files.isFile (dir.join ⟨n⟩)))

end PooledStore.Migration
