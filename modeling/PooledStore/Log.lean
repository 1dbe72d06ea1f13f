/-!
# Log events

Everything the library and the server report, as data. `Event.record` gives the written form of
an event: its level, the component that emits it, its message and its named values.
-/

namespace PooledStore.Log

/-- How much an event matters; earlier ones matter more. -/
inductive Level where
  | error
  | warn
  | info
  | debug
  | trace
  deriving DecidableEq, Repr

/-- The place of a level in the order of importance, 1 for errors. -/
def Level.rank : Level → Nat
  | .error => 1
  | .warn => 2
  | .info => 3
  | .debug => 4
  | .trace => 5

/-- The level's name in a written record. -/
def Level.label : Level → String
  | .error => "ERROR"
  | .warn => "WARN"
  | .info => "INFO"
  | .debug => "DEBUG"
  | .trace => "TRACE"

/-- The parts of the program that emit events. -/
inductive Component where
  | options
  | pool
  | migrations
  | service
  | server
  deriving DecidableEq, Repr

/-- The name under which a component's events are written and filtered. -/
def Component.target : Component → String
  | .options => "quire_db::options"
  | .pool => "quire_db::pool"
  | .migrations => "quire_db::migrations"
  | .service => "quire_db::service"
  | .server => "quire_server"

/-- A value attached to an event. -/
inductive Value where
  | text (s : String)
  | number (n : Int)
  | flag (b : Bool)
  deriving DecidableEq, Repr

/-- The value as plain text. -/
def Value.display : Value → String
  | .text s => s
  | .number n => toString n
  | .flag b => if b then "true" else "false"

/-- What can be reported. Paths, providers and causes are carried as they are displayed. -/
inductive Event where
  | configMissing (path : String)
  | permissionsLax (path mode : String)
  | permissionsUnknown (path cause : String)
  | configUnreadable (cause : String)
  | poolReady (capacity idle : Nat)
  | slotUnopened (cause : String)
  | slotReopened
  | reopenFailed (cause : String)
  | connectionDiscarded
  | poolClosing (inUse : Nat)
  | fileIgnored (file provider : String)
  | fileNameUndecodable (file : String)
  | scriptUnversioned (name : String)
  | migrationApplying (version : Int) (name : String)
  | schemaCurrent (dir : String)
  | schemaUpdated (applied : Nat) (version : Int)
  | storeUnreachable (provider cause : String)
  | migrationsUnlocated (cause : String)
  | schemaUpdateFailed (dir cause : String)
  | serviceShutDown
  | configPathResolved (source path : String)
  | databaseStarting (source : String) (updateSchema : Bool)
  | databaseReady
  | databaseRefused (cause : String)
  | signalReceived (name : String)
  | serverShutDown
  deriving DecidableEq, Repr

/-- An event in written form. -/
structure Record where
  level : Level
  component : Component
  message : String
  fields : List (String × Value)
  deriving DecidableEq, Repr

/-- The written form of each event. -/
def Event.record : Event → Record
  | .configMissing path =>
    ⟨.info, .options, "database configuration file not found, using defaults",
      [("path", .text path)]⟩
  | .permissionsLax path mode =>
    ⟨.warn, .options,
      "database configuration file has unrestrictive permissions; restrict it to user " ++
        "read/write (600) if it contains sensitive information",
      [("path", .text path), ("mode", .text mode)]⟩
  | .permissionsUnknown path cause =>
    ⟨.error, .options,
      "could not determine file permissions for database configuration file; ensure it has " ++
        "only user read/write permissions (600) if it contains sensitive information",
      [("path", .text path), ("error", .text cause)]⟩
  | .configUnreadable cause =>
    ⟨.error, .service, "could not read database configuration", [("error", .text cause)]⟩
  | .poolReady capacity idle =>
    ⟨.info, .pool, "database connection pool ready",
      [("capacity", .number capacity), ("idle", .number idle)]⟩
  | .slotUnopened cause =>
    ⟨.error, .pool, "failed to open pooled connection, slot will be reopened on demand",
      [("error", .text cause)]⟩
  | .slotReopened => ⟨.debug, .pool, "reopened vacant pool slot", []⟩
  | .reopenFailed cause =>
    ⟨.error, .pool, "failed to reopen pooled connection, pool is running under capacity",
      [("error", .text cause)]⟩
  | .connectionDiscarded =>
    ⟨.warn, .pool, "discarded broken database connection, it will be replaced on demand", []⟩
  | .poolClosing inUse =>
    ⟨.info, .pool, "closing database connection pool", [("in_use", .number inUse)]⟩
  | .fileIgnored file provider =>
    ⟨.debug, .migrations, "ignoring file in migrations directory",
      [("file", .text file), ("provider", .text provider)]⟩
  | .fileNameUndecodable file =>
    ⟨.warn, .migrations, "migration file name is not valid UTF-8, skipping",
      [("file", .text file)]⟩
  | .scriptUnversioned name =>
    ⟨.warn, .migrations, "migration script has no version prefix, skipping",
      [("file", .text name)]⟩
  | .migrationApplying version name =>
    ⟨.info, .migrations, "applying migration",
      [("version", .number version), ("migration", .text name)]⟩
  | .schemaCurrent dir =>
    ⟨.debug, .migrations, "database schema is up to date", [("dir", .text dir)]⟩
  | .schemaUpdated applied version =>
    ⟨.info, .migrations, "database schema updated",
      [("applied", .number applied), ("version", .number version)]⟩
  | .storeUnreachable provider cause =>
    ⟨.error, .service, "could not connect to database",
      [("provider", .text provider), ("error", .text cause)]⟩
  | .migrationsUnlocated cause =>
    ⟨.error, .service, "could not determine path to database migration files",
      [("error", .text cause)]⟩
  | .schemaUpdateFailed dir cause =>
    ⟨.error, .service, "could not update database to latest schema",
      [("dir", .text dir), ("error", .text cause)]⟩
  | .serviceShutDown => ⟨.info, .service, "database service shut down", []⟩
  | .configPathResolved source path =>
    ⟨.info, .server, "resolved startup configuration path",
      [("source", .text source), ("path", .text path)]⟩
  | .databaseStarting source updateSchema =>
    ⟨.info, .server, "initializing database",
      [("source", .text source), ("update_schema", .flag updateSchema)]⟩
  | .databaseReady => ⟨.info, .server, "database ready", []⟩
  | .databaseRefused cause =>
    ⟨.error, .server, "database initialization failed, refusing to start",
      [("error", .text cause)]⟩
  | .signalReceived name =>
    ⟨.info, .server, "received " ++ name ++ ", shutting down", []⟩
  | .serverShutDown => ⟨.info, .server, "quire server shut down", []⟩

/-- The events that report a directory entry which is not a migration script. -/
def Event.skipsFile : Event → Bool
  | .fileIgnored .. => true
  | .fileNameUndecodable _ => true
  | .scriptUnversioned _ => true
  | _ => false

end PooledStore.Log
