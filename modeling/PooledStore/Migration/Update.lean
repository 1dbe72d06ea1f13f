import PooledStore.Connection
import PooledStore.Migration.Discovery

/-!
# Bringing a schema up to date

Which migrations a store has is recorded in a table of its own, one row for each version. A
migration is pending when its version is greater than every recorded one. `update` applies the
pending ones in order, each with its record in one transaction, and stops at the first failure.

* `currentVersion`, `pending`, `update`: the three questions asked of a connection.
* `apply`: one script and its record in one transaction.
-/

namespace PooledStore.Migration

open Log

/-- Why the schema could not be brought up to date. -/
inductive Error where
  | discovery (cause : DiscoveryError)
  | readScript (version : Int) (name : String) (cause : FileError)
  /-- The table of records could not be made or read. -/
  | bookkeeping (cause : ConnectionError)
  /-- A script or its record failed. -/
  | failed (version : Int) (name : String) (cause : ConnectionError)
  deriving DecidableEq, Repr

/-- The error as it is displayed. -/
def Error.message : Error → String
  | .discovery cause => cause.message
  | .readScript _ name cause => "failed to read migration '" ++ name ++ "': " ++ cause.message
  | .bookkeeping cause => "failed to check migration state: " ++ cause.message
  | .failed version name cause =>
    "migration " ++ toString version ++ " ('" ++ name ++ "') failed: " ++ cause.message

/-- The script that makes the table of records where it is not there. -/
def makeRecords : String :=
  "CREATE TABLE IF NOT EXISTS schema_version (\n" ++
    "    version BIGINT PRIMARY KEY NOT NULL,\n" ++
    "    applied_at TEXT NOT NULL\n" ++
    ");"

variable {σ : Type} [Stores σ]

/-- The largest recorded version. -/
def highestVersion (c : Connection) (st : σ) : σ × Except ConnectionError (Option Int) :=
  c.answer (Stores.largest c st)

/-- The largest recorded version, after the table of records was made if it was not there. -/
def currentVersion (c : Connection) (st : σ) : σ × Except Error (Option Int) :=
  match c.executeBatch makeRecords st with
  | (st, .error e) => (st, .error (.bookkeeping e))
  | (st, .ok ()) =>
    match highestVersion c st with
    | (st, .error e) => (st, .error (.bookkeeping e))
    | (st, .ok current) => (st, .ok current)

/-- The scripts whose versions are greater than every recorded one. -/
def newer (current : Option Int) (scripts : List Script) : List Script :=
  match current with
  | none => scripts
  | some applied => scripts.filter fun s => applied < s.version

/-- The migrations that `update` would apply. The directory is read first, so that nothing is made
in the store where that fails. -/
def pending (files : FileTree) (dir : Path) (c : Connection) (st : σ) :
    σ × Except Error (List Script) × List Event :=
  match discover files dir c.provider with
  | (.error e, log) => (st, .error (.discovery e), log)
  | (.ok scripts, log) =>
    match currentVersion c st with
    | (st, .error e) => (st, .error e, log)
    | (st, .ok current) => (st, .ok (newer current scripts), log)

/-- Runs a script and records its version in one transaction, which is given up if anything in it
fails. -/
def apply (c : Connection) (version : Int) (script time : String) (st : σ) :
    σ × Except ConnectionError Unit :=
  match c.answer (Stores.begin c st) with
  | (st, .error e) => (st, .error e)
  | (st, .ok ()) =>
    match c.answer (Stores.batch c script st) with
    | (st, .error e) => (Stores.abandon c st, .error e)
    | (st, .ok ()) =>
      match c.answer (Stores.record c version time st) with
      | (st, .error e) => (Stores.abandon c st, .error e)
      | (st, .ok ()) =>
        match c.answer (Stores.commit c st) with
        | (st, .error e) => (Stores.abandon c st, .error e)
        | (st, .ok ()) => (st, .ok ())

/-- Applies scripts in order up to the first failure. The clock is read for each of them. -/
def applyAll (files : FileTree) (c : Connection) :
    (clock : Nat → String) → List Script → σ → σ × Except Error Unit × List Event
  | _, [], st => (st, .ok (), [])
  | clock, s :: rest, st =>
    let begun := Event.migrationApplying s.version s.name
    match files.readText s.path with
    | .error e => (st, .error (.readScript s.version s.name e), [begun])
    | .ok text =>
      match apply c s.version text (clock 0) st with
      | (st, .error e) => (st, .error (.failed s.version s.name e), [begun])
      | (st, .ok ()) =>
        let (st, result, log) := applyAll files c (fun i => clock (i + 1)) rest st
        (st, result, begun :: log)

/-- Applies every pending migration and gives their number. -/
def update (files : FileTree) (clock : Nat → String) (dir : Path) (c : Connection) (st : σ) :
    σ × Except Error Nat × List Event :=
  match pending files dir c st with
  | (st, .error e, log) => (st, .error e, log)
  | (st, .ok scripts, log) =>
    match scripts.getLast? with
    | none => (st, .ok 0, log ++ [.schemaCurrent dir.display])
    | some last =>
      match applyAll files c clock scripts st with
      | (st, .error e, more) => (st, .error e, log ++ more)
      | (st, .ok (), more) =>
        (st, .ok scripts.length,
          log ++ more ++ [.schemaUpdated scripts.length last.version])

end PooledStore.Migration
