import PooledStore.Config.Source
import PooledStore.Text.Quoted

/-!
# Connection options

How to reach the configured store, resolved from settings and environment. `Source.resolve` is the
whole way from a source to options; nothing is connected to on it.
-/

namespace PooledStore.Config

open Log

/-- How to reach a networked store. -/
structure NetworkOptions where
  host : String
  port : Nat
  database : String
  user : String
  password : String
  timeoutSeconds : Nat
  deriving DecidableEq, Repr

/-- How to reach a store. -/
inductive Options where
  /-- The path of the database file. -/
  | sqlite (file : Path)
  | postgres (network : NetworkOptions)
  deriving DecidableEq, Repr

/-- The kind of store that options are for. -/
def Options.provider : Options → Provider
  | .sqlite _ => .sqlite
  | .postgres _ => .postgres

/-! ## Resolution -/

/-- The name of the embedded store's file. -/
def databaseFileName : String := "rstudio.sqlite"

/-- The variable that names the embedded store's directory. -/
def dataVariable : String := "QUIRE_SERVER_DATA_DIR"

/-- The embedded store's directory where nothing names one. -/
def defaultDataDirectory : String := "/var/run/quire-server"

/-- The first that is not blank of: the setting, the variable, the default. It is used as it is
written. -/
def dataDirectory (setting : Option String) (env : Environment) : String :=
  match setting.bind Text.nonBlank? with
  | some dir => dir
  | none =>
    match (env.get? dataVariable).bind Text.nonBlank? with
    | some dir => dir
    | none => defaultDataDirectory

/-- The embedded store's file: in its directory, and with a path from the root. -/
def databaseFile (cwd : Path) (env : Environment) (setting : Option String) : Path :=
  ((Path.ofText (dataDirectory setting env)).join (Path.ofText databaseFileName)).absolute cwd

/-- The options that settings ask for, for a source with the given name. -/
def Settings.resolve (settings : Settings) (source : String) (cwd : Path) (env : Environment) :
    Except Error Options :=
  match Provider.ofName? settings.provider with
  | none => .error (.invalidProvider settings.provider source)
  | some .sqlite => .ok (.sqlite (databaseFile cwd env settings.directory))
  | some .postgres =>
    .ok (.postgres ⟨settings.host, settings.port, settings.database, settings.user,
      settings.password, settings.timeoutSeconds⟩)

/-- The options that a source asks for. -/
def Source.resolve [Toml.Parser] (files : FileTree) (env : Environment) (s : Source) :
    Except Error Options × List Event :=
  match s.load files with
  | (.error e, log) => (.error e, log)
  | (.ok settings, log) => (settings.resolve s.display (FileTree.pathOf files.cwd) env, log)

/-! ## Printing for debugging -/

/-- A value printed with its name and its fields. -/
structure Printed where
  name : String
  fields : List (String × String)

/-- On one line. -/
def Printed.line (p : Printed) : String :=
  let fields := p.fields.map fun f => f.1 ++ ": " ++ f.2
  p.name ++ " \x7b " ++ String.intercalate ", " fields ++ " \x7d"

/-- Over several lines, inside something else. -/
def Printed.block (indent : String) (p : Printed) : String :=
  p.name ++ " \x7b\n" ++
    String.join (p.fields.map fun f => indent ++ "    " ++ f.1 ++ ": " ++ f.2 ++ ",\n") ++
    indent ++ "\x7d"

namespace Options

/-- The options without their provider. The password is never shown. -/
def printed : Options → Printed
  | .sqlite file => ⟨"SqliteOptions", [("file", Text.quoteBytes file.bytes)]⟩
  | .postgres n =>
    ⟨"PostgresOptions",
      [("host", Text.quote n.host), ("port", toString n.port),
        ("database", Text.quote n.database), ("user", Text.quote n.user),
        ("password", Text.quote "<redacted>"),
        ("connection_timeout_seconds", toString n.timeoutSeconds)]⟩

def debug (o : Options) : String := o.provider.debug ++ "(" ++ o.printed.line ++ ")"

def debugBlock (o : Options) : String :=
  o.provider.debug ++ "(\n    " ++ o.printed.block "    " ++ ",\n)"

end Options

end PooledStore.Config
