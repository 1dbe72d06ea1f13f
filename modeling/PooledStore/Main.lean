import PooledStore.Log.Line
import PooledStore.Server.Run
import PooledStore.Sql.World
import PooledStore.Toml.Document
import Std.Async.Signal

/-!
# The server's command line

Runs the server in the present directory until it is told to end. What the server looks at is read
before it starts: its environment, its configuration file, the settings of the database, the
directory of the database's file, and the migration scripts. The database itself is held in memory
while the server runs, and no networked store can be reached.
-/

namespace PooledStore.Server.Shell

open Config Log

/-- The names of the variables that the server looks at. -/
def variableNames : List String :=
  [pathVariable, ServerConfig.levelVariable, ServerConfig.jsonVariable,
    ServerConfig.updateVariable, directoryVariable, dataVariable, Service.migrationsVariable]

/-- The values of these variables. -/
def environment : IO Environment := do
  let values ← variableNames.filterMapM fun name => do
    return (← IO.getEnv name).map fun value => (name, Text.encode value)
  return ⟨values⟩

/-- The present time in universal time, as it is recorded and logged. -/
def now : IO String := do
  let stamp ← Std.Time.Timestamp.now
  let time := Std.Time.DateTime.ofTimestamp stamp Std.Time.TimeZone.ZoneRules.UTC
  return time.format "uuuu-MM-dd'T'HH:mm:ss.SSSSSSSSSxxx"

/-- The mode of a file that can be read, and of one that cannot. -/
def readMode (isReadable : Bool) : Nat := if isReadable then 0o600 else 0

/-- Adds what is at a path, unless there is nothing. Of a directory the entries are added when
`deep` holds. Permission bits are not told: what can be read is taken for the owner's alone. -/
def add (deep : Bool) (tree : FileTree) (path : Path) : IO FileTree := do
  let place := (← IO.currentDir) / path.display
  if ← place.isDir then
    let entries ← if deep then place.readDir else pure #[]
    entries.foldlM (fun tree entry => addFile tree (path.join (Path.ofText entry.fileName)))
      (tree.put path FileTree.plainDirectory)
  else addFile tree path
where
  /-- Adds the file at a path; a directory is added without its entries. -/
  addFile (tree : FileTree) (path : Path) : IO FileTree := do
    let place := (← IO.currentDir) / path.display
    if ← place.isDir then return tree.put path FileTree.plainDirectory
    if !(← place.pathExists) then return tree
    match ← (IO.FS.readBinFile place).toBaseIO with
    | .ok contents => return tree.put path (.file (readMode true) (.bytes contents.toList))
    | .error _ => return tree.put path (.file (readMode false) (.bytes []))

/-- Adds to a host's files those that a server with these arguments looks at. -/
def survey (host : Host Sql.World) (args : List String) : IO (Host Sql.World) := do
  let path := Path.ofText (resolvePath args host.env).1
  let host := { host with files := ← add false host.files path }
  let .ok config := ServerConfig.load host.files host.env (some path) | return host
  let .file settings := config.source host.env | return host
  let host := { host with files := ← add false host.files settings }
  let (.ok options, _) := (Source.file settings).resolve host.files host.env | return host
  let host ← match options with
    | .sqlite file =>
      match file.parent? with
      | some dir => pure { host with files := ← add false host.files dir }
      | none => pure host
    | .postgres _ => pure host
  let .ok scripts := Service.migrationsDirectory host.env host.executable | return host
  return { host with files := ← add true host.files scripts }

/-- The host on which the server is started. -/
def host (args : List String) : IO (Host Sql.World) := do
  let cwd := Path.ofText (← IO.currentDir).toString
  let time ← now
  survey
    { files := .empty cwd.names
      env := ← environment
      store := .isolated
      clock := fun _ => time
      executable := Path.ofText (← IO.appPath).toString
      parallelism := none
      runtimeFault := none }
    args

/-- Writes events in the form that a configuration asks for. -/
def write (config : ServerConfig) (log : List Event) : IO Unit := do
  let time ← now
  let output ← IO.getStdout
  for event in Server.written config log do
    output.putStrLn
      (if config.json then event.record.jsonLine time else event.record.textLine time)
  output.flush

/-- Waits for one of the signals that end the server. -/
def awaitSignal : IO Signal := do
  let interrupt ← (← Std.Async.Signal.Waiter.mk .sigint false).wait
  let terminate ← (← Std.Async.Signal.Waiter.mk .sigterm false).wait
  IO.waitAny
    [Task.map (fun _ => Signal.interrupt) interrupt, Task.map (fun _ => Signal.terminate) terminate]

/-- Runs the server from its command line to its end; gives the exit code. -/
def run (args : List String) : IO UInt32 := do
  match boot (← host args) args with
  | .error (.config e) =>
    IO.eprint (complaintOn e)
    return 1
  | .error (.database config _ left) =>
    write config left.process.log
    return 1
  | .ok running =>
    write running.config running.lifecycle.process.log
    let signal ← awaitSignal
    let l := running.lifecycle
    let running := { running with lifecycle := { l with process := { l.process with log := [] } } }
    write running.config (shutDown running signal).process.log
    return 0

end PooledStore.Server.Shell

def main (args : List String) : IO UInt32 := PooledStore.Server.Shell.run args
