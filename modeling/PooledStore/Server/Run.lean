import PooledStore.Server.Config
import PooledStore.Server.Filter
import PooledStore.Service.Lifecycle

/-!
# The server

The server reads its configuration, starts the process-wide database service, waits for a signal,
and shuts the service down. It refuses to run on a store that cannot be reached or brought up to
date.

* `boot`: from the command line to the wait for a signal.
* `shutDown`: from the signal to the end.
-/

namespace PooledStore.Server

open Config Log Service

/-- The signals that end the server. -/
inductive Signal where
  | interrupt
  | terminate
  deriving DecidableEq, Repr

def Signal.name : Signal → String
  | .interrupt => "SIGINT"
  | .terminate => "SIGTERM"

/-- The variable that names the server's configuration file. -/
def pathVariable : String := "QUIRE_CONFIG_PATH"

/-- The server's configuration file where nothing names one. -/
def defaultPath : String := "config.toml"

/-- The server's configuration file, and what named it: the first argument, or the variable, each
unless it is blank. -/
def resolvePath (args : List String) (env : Environment) : String × String :=
  match args.head?.bind Text.nonBlank? with
  | some path => (path, "cli-arg")
  | none =>
    match (env.get? pathVariable).bind Text.nonBlank? with
    | some path => (path, "env-var")
    | none => (defaultPath, "default")

/-- A server that waits for a signal. -/
structure Running (σ : Type) where
  config : ServerConfig
  lifecycle : Lifecycle σ

/-- Why a server ended before it waited for a signal. -/
inductive Refusal (σ : Type) where
  | config (cause : ConfigError)
  /-- The process is left as it is given. -/
  | database (config : ServerConfig) (cause : Service.Error) (left : Lifecycle σ)

/-- How starting a server ends: what it has reported is in the process's log. -/
abbrev Boot (σ : Type) := Except (Refusal σ) (Running σ)

variable {σ : Type}

/-- The process with one more event reported. -/
def reported (l : Lifecycle σ) (e : Event) : Lifecycle σ :=
  { l with process := { l.process with log := l.process.log ++ [e] } }

/-- A process that is about to start the database service. -/
def begun (host : Host σ) (config : ServerConfig) (namedBy path : String) : Lifecycle σ :=
  let found := reported (.initial host) (.configPathResolved namedBy path)
  reported found (.databaseStarting (config.source host.env).display config.updateSchema)

variable [Stores σ] [Toml.Parser]

/-- Starts a server. -/
def boot (host : Host σ) (args : List String) : Boot σ :=
  let (path, namedBy) := resolvePath args host.env
  match ServerConfig.load host.files host.env (some (Path.ofText path)) with
  | .error e => .error (.config e)
  | .ok config =>
    let source := config.source host.env
    match (begun host config namedBy path).complete (.start source config.updateSchema) with
    | (l, some .done) => .ok ⟨config, reported l .databaseReady⟩
    | (l, some (.failed e)) => .error (.database config e (reported l (.databaseRefused e.message)))
    | (l, _) =>
      let e := Service.Error.notInitialized
      .error (.database config e (reported l (.databaseRefused e.message)))

/-- Ends a server after a signal. -/
def shutDown (s : Running σ) (signal : Signal) : Lifecycle σ :=
  let (l, _) := (reported s.lifecycle (.signalReceived signal.name)).complete .shutdown
  reported l .serverShutDown

/-- What a server leaves behind: its exit code, its complaints, and the events that it wrote, in
the form that its configuration asks for. -/
structure Outcome where
  exitCode : Nat
  complaint : String
  json : Bool
  written : List Event

/-- The message on a configuration that could not be had. -/
def complaintOn (e : ConfigError) : String :=
  "failed to load configuration, the server cannot start: " ++ e.message ++ "\n"

/-- What passes the filter that a configuration asks for. -/
def written (config : ServerConfig) (log : List Event) : List Event :=
  log.filter (Filter.ofText config.level).passes

/-- Runs a server from its command line to its end; the signal comes when it waits for one. -/
def run (host : Host σ) (args : List String) (signal : Signal) : Outcome :=
  match boot host args with
  | .error (.config e) => ⟨1, complaintOn e, false, []⟩
  | .error (.database config _ left) => ⟨1, "", config.json, written config left.process.log⟩
  | .ok s => ⟨0, "", s.config.json, written s.config (shutDown s signal).process.log⟩

end PooledStore.Server
