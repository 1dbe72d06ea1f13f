import PooledStore.Migration.Update
import PooledStore.Pool.Schedule

/-!
# Service errors

Why a database service cannot be started or used.
-/

namespace PooledStore.Service

/-- The causes of failure. -/
inductive Error where
  | config (cause : Config.Error)
  | pool (cause : Pool.Error ConnectionError)
  | migration (cause : Migration.Error)
  /-- The directory of the migration scripts cannot be told. -/
  | migrationsDirectory (cause : FileError)
  /-- There is no process-wide service. -/
  | notInitialized
  /-- There is a process-wide service already. -/
  | alreadyInitialized

/-- The error of a pool, as it is displayed. -/
def poolMessage (e : Pool.Error ConnectionError) : String := e.message ConnectionError.message

/-- The error as it is displayed. -/
def Error.message : Error → String
  | .config cause => cause.message
  | .pool cause => poolMessage cause
  | .migration cause => cause.message
  | .migrationsDirectory cause =>
    "could not determine path to database migration files: " ++ cause.message
  | .notInitialized => "database service has not been initialized"
  | .alreadyInitialized => "database service is already initialized"

/-! ## The directory of the migration scripts -/

/-- The variable that names the directory of the migration scripts. -/
def migrationsVariable : String := "QUIRE_DB_MIGRATIONS_PATH"

/-- The directory of the migration scripts: the one that the environment names unless that is
blank, else `db` beside the directory of the executable. -/
def migrationsDirectory (env : Environment) (executable : Path) : Except FileError Path :=
  match (env.get? migrationsVariable).bind Text.nonBlank? with
  | some dir => .ok (Path.ofText dir)
  | none =>
    match executable.parent?.bind Path.parent? with
    | some root => .ok (root.join (Path.ofText "db"))
    | none => .error (.noInstallationRoot executable)

end PooledStore.Service
