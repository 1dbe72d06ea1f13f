import PooledStore.Config.Source

/-!
# Server configuration

The server's own configuration file and the environment variables that override it. Two sections,
one for the database and one for the log, may be absent, tables, or arrays of their fields in
order. Each of three settings is decided by its variable, else by the file, else by its default.
-/

namespace PooledStore.Server

open Config Toml

/-- The configuration of the server. -/
structure ServerConfig where
  updateSchema : Bool
  /-- The directory of the database settings. -/
  configDir : Option Path
  level : String
  json : Bool
  deriving DecidableEq, Repr

/-- Why the configuration could not be had. -/
inductive ConfigError where
  | fileRead (cause : FileError)
  | parse
  deriving DecidableEq, Repr

/-- The error as it is displayed. -/
def ConfigError.message : ConfigError → String
  | .fileRead cause => "failed to read config file: " ++ cause.message
  | .parse => "failed to parse config file: " ++ Toml.diagnostic

namespace ServerConfig

/-- What holds where nothing is set. -/
def defaults : ServerConfig := ⟨true, none, "info", false⟩

/-- The fields of a section. An array gives them in the order of `names`; a point in time reads as
a table without known fields. -/
def sectionFields (names : List String) : Option Value → Option Entries
  | none => some []
  | some (.table _ es) => some es
  | some (.array _ vs) => some (names.zip vs)
  | some .moment => some []
  | some _ => none

/-- The configuration that a document gives. -/
def ofEntries? (es : Entries) : Option ServerConfig := do
  let database ← sectionFields ["update_schema", "config_dir"] (es.get? "database")
  let updateSchema ← flagOr database "update_schema" defaults.updateSchema
  let configDir ← optionalText database "config_dir"
  let logging ← sectionFields ["level", "json"] (es.get? "logging")
  let level ← textOr logging "level" defaults.level
  let json ← flagOr logging "json" defaults.json
  return ⟨updateSchema, configDir.map Path.ofText, level, json⟩

/-- The variable for the log's level. -/
def levelVariable : String := "QUIRE_LOG_LEVEL"

/-- The variable for the log's form. -/
def jsonVariable : String := "QUIRE_LOG_JSON"

/-- The variable that says whether migrations are applied. -/
def updateVariable : String := "QUIRE_UPDATE_SCHEMA"

/-- The configuration with the settings that variables decide. -/
def override (c : ServerConfig) (env : Environment) : ServerConfig :=
  { c with
    level := (env.get? levelVariable).getD c.level
    json := ((env.get? jsonVariable).map fun v => v == "true" || v == "1").getD c.json
    updateSchema :=
      ((env.get? updateVariable).map fun v => !(v == "false" || v == "0")).getD c.updateSchema }

/-- The configuration in a file. A file that is not there counts as an empty one. -/
def ofFile [Parser] (files : FileTree) (path : Path) : Except ConfigError ServerConfig :=
  match files.readText path with
  | .ok contents =>
    match (Parser.parse contents).bind ofEntries? with
    | some c => .ok c
    | none => .error .parse
  | .error .notFound => .ok defaults
  | .error e => .error (.fileRead e)

/-- The configuration from a file, if there is to be one, and the environment. -/
def load [Parser] (files : FileTree) (env : Environment) (path : Option Path) :
    Except ConfigError ServerConfig :=
  match path with
  | none => .ok (defaults.override env)
  | some p => (ofFile files p).map (·.override env)

/-- Where the database settings come from. -/
def source (c : ServerConfig) (env : Environment) : Source :=
  match c.configDir with
  | some dir => .inDirectory dir
  | none => .system env

/-- A document without entries gives the defaults. -/
theorem ofEntries?_nil : ofEntries? [] = some defaults := rfl

end ServerConfig

end PooledStore.Server
