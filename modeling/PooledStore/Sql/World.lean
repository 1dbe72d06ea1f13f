import PooledStore.Connection
import PooledStore.Sql.Store

/-!
# Stores that run here

An instance of `Stores` in which every database is an embedded one: those in files, those in memory,
and the one behind a server, which can be reached over a network or not. A path leads to a database
by the number that the file tree has there.

* `World`: the state of all of them.
* `World.openFile`, `World.dial`: how sessions come about.
* `recordStatement`, `Site.largest`: what is asked about the table of records.
-/

namespace PooledStore.Sql

open Config

/-- How an attempt to reach an address on the network ends. -/
inductive Reach where
  | through
  | failing (cause : String)
  /-- There is never an answer. -/
  | silent
  deriving DecidableEq, Repr

/-- Every database and session, and what is on the network. -/
structure World where
  store : Store
  /-- The database of the server, if there is a server. -/
  server : Option DatabaseId
  reach : NetworkOptions → Reach

/-! ## The table of records -/

/-- The table of records. -/
def recordTable : String := "schema_version"

/-- The column of recorded versions. -/
def versionColumn : String := "version"

/-- The column of the times at which they were recorded. -/
def timeColumn : String := "applied_at"

/-- The statement that records a version with a time. -/
def recordStatement (version : Int) (time : String) : Statement :=
  .insert recordTable (some [versionColumn, timeColumn])
    [[.literal (.integer version), .literal (.text time)]]

/-- The text of that statement, with places for its values. -/
def recordText : String := "INSERT INTO schema_version (version, applied_at) VALUES (?1, ?2)"

namespace Site

/-- The largest recorded version. -/
def largest (x : Site) : Except Failure (Option Int) :=
  match x.maximum versionColumn recordTable with
  | .error e => .error e
  | .ok .null => .ok none
  | .ok (.integer n) => .ok (some n)
  | .ok v => .error (Error.wrongType v.typeName 0 ("MAX(" ++ versionColumn ++ ")")).nowhere

/-- The site after the session's transaction, if it is still in one, was undone. -/
def abandon (x : Site) (id : SessionId) : Site := if x.inside then (x.rollback id).1 else x

/-- The site after the session was told how long to wait. -/
def setBusyTimeout (x : Site) (busyTimeout : Nat) : Site :=
  { x with session := { x.session with busyTimeout := busyTimeout } }

end Site

namespace World

/-- No databases, and an address on the network leads nowhere. -/
def isolated : World where
  store := .empty
  server := none
  reach _ :=
    .failing "error communicating with database: Network is unreachable (os error 101)"

/-- The mode of a database file that is newly made. -/
def newFileMode : Nat := 0o644

/-- The name of a database that is in memory only. -/
def memoryName : Path := Path.ofText ":memory:"

/-- How long a session waits for the right to write, in milliseconds, before it is told. -/
def firstBusyTimeout : Nat := 5000

/-- The longest that a session can be told to wait. -/
def maxBusyTimeout : Nat := 0x7FFFFFFF

/-- How long a session waits that is told to wait for a time; one told to wait longer than it can
does not wait at all. -/
def effectiveTimeout (busyTimeout : Nat) : Nat :=
  if busyTimeout ≤ maxBusyTimeout then busyTimeout else 0

/-! ## Opening -/

/-- A session on a new database, with the journal that it keeps. -/
def openNew (w : World) (journal : String) : World × SessionId :=
  ({ w with store := w.store.addDatabase journal firstBusyTimeout }, w.store.nextSession)

/-- A session on a database in memory. -/
def openMemory (w : World) : World × SessionId := w.openNew "memory"

/-- A session on the database in a file that is empty or new, which becomes a database. -/
def openFresh (w : World) (files : FileTree) (place : Location) (mode : Nat) :
    FileTree × World × SessionId :=
  let (w', id) := w.openNew "wal"
  (files.set place (.file mode (.database w.store.nextDatabase)), w', id)

/-- A session on a database that is there, in a file or on the server. -/
def openExisting (w : World) (db : DatabaseId) : Option (World × SessionId) :=
  (w.store.addSession db "wal" firstBusyTimeout).map fun store =>
    ({ w with store := store }, w.store.nextSession)

/-- Opens a session on the database in a file. A file that is not there is made, in a directory
that is. A path of no bytes asks for a temporary database, which cannot keep the journal that is
asked of every other database; one in memory keeps none. -/
def openFile (file : Path) (files : FileTree) (w : World) :
    FileTree × World × Except Error SessionId :=
  if file.bytes.contains 0 then (files, w, .error (.nulInName (file.bytes.idxOf 0)))
  else if file.bytes.isEmpty then
    let (w, id) := w.openNew "delete"
    (files, w, .ok id)
  else if file = memoryName then
    let (w, id) := w.openMemory
    (files, w, .ok id)
  else
    match files.resolve true file with
    | .error _ => (files, w, .error (.cannotOpen file))
    | .ok place =>
      match files.node? place with
      | none =>
        if !files.admits place then (files, w, .error (.cannotOpen file))
        else
          let (files, w, id) := w.openFresh files place newFileMode
          (files, w, .ok id)
      | some (.file mode contents) =>
        if !files.permits .read place mode then (files, w, .error (.cannotOpen file))
        else
          match contents with
          | .bytes [] =>
            let (files, w, id) := w.openFresh files place mode
            (files, w, .ok id)
          | .bytes _ => (files, w, .error .notADatabase)
          | .database db =>
            match w.openExisting db with
            | some (w, id) => (files, w, .ok id)
            | none => (files, w, .error .notADatabase)
      | some _ => (files, w, .error (.cannotOpen file))

/-- A session on the server's database. -/
def dial (network : NetworkOptions) (w : World) : World × Dialled :=
  match w.reach network with
  | .through =>
    match w.server.bind w.openExisting with
    | some (w, id) => (w, .answered id)
    | none => (w, .failed "error communicating with database: Connection refused (os error 111)")
  | .failing cause => (w, .failed cause)
  | .silent => (w, .late)

/-! ## Using sessions -/

/-- What a session does, its failure as it is displayed. -/
def act {α : Type} (w : World) (id : SessionId) (f : Site → Site × Except Failure α) (answer : α) :
    World × Except String α :=
  let (store, result) := w.store.act id f (.ok answer)
  ({ w with store := store }, result.mapError Failure.message)

instance : Stores World where
  openFile file files w :=
    let (files, w, result) := openFile file files w
    (files, w, result.mapError Error.message)
  setJournal c w :=
    (w, w.store.ask c.session (fun x => .ok x.session.journal) (.error Error.noRows.message))
  configure c busyTimeout w :=
    w.act c.session (fun x => (x.setBusyTimeout (effectiveTimeout busyTimeout), .ok ())) ()
  dial := dial
  close c w := { w with store := w.store.close c.session }
  ping _ w := (w, .ok ())
  batch c text w := w.act c.session (·.script c.session text) ()
  begin c w :=
    w.act c.session (fun x =>
      let (y, result) := x.begin c.session .deferred
      (y, result.mapError Error.nowhere)) ()
  record c version time w :=
    w.act c.session (fun x =>
      let (y, result) := x.execute c.session (recordStatement version time)
      (y, result.mapError fun f => f.inText recordText.toList)) ()
  largest c w := w.act c.session (fun x => (x, x.largest)) none
  commit c w :=
    w.act c.session (fun x =>
      let (y, result) := x.commit c.session
      (y, result.mapError Error.nowhere)) ()
  abandon c w := (w.act c.session (fun x => (x.abandon c.session, .ok ())) ()).1

end World

end PooledStore.Sql
