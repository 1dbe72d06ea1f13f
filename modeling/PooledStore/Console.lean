import PooledStore.Service.Lifecycle
import PooledStore.Sql.World
import PooledStore.Toml.Document

/-!
# The console

A process driven by a list of instructions, on its host's files and environment, on connections of
its own, on services, and on the process-wide service. The stores are those that run here.
Connections and services have names. After each instruction the console gives a reply and the events
that the instruction has caused.
-/

namespace PooledStore

open Config Log Pool Sql Service

namespace Console

/-- What a file instruction makes at a path. -/
structure NewFile where
  path : Path
  node : Node

/-- The instructions. -/
inductive Op where
  | makeFiles (files : List NewFile)
  | remove (path : Path)
  | isThere (path : Path)
  | setEnvironment (env : Environment)
  | openWith (name : String) (options : Options) (busyTimeout : Nat)
  | openMemory (name : String)
  | release (conn : String)
  | exec (conn sql : String)
  | ping (conn : String)
  | provider (conn : String)
  | debug (conn : String)
  | isValid (conn : String)
  | hasBroken (conn : String)
  | markBroken (conn : String)
  | setting (conn name : String)
  | tables (conn : String)
  | rows (conn table : String)
  | applied (conn : String)
  | pending (conn : String) (dir : Path)
  | update (conn : String) (dir : Path)
  | currentVersion (conn : String)
  | start (name : String) (options : Options) (settings : StartSettings)
  /-- Without a source the settings of the system are meant. -/
  | startFrom (name : String) (source : Option Source) (updateSchema : Bool)
  | get (service name : String) (timeout : Option Time)
  | updateSchema (service : String) (dir : Path)
  | state (service : String)
  | debugService (service : String)
  | serviceProvider (service : String)
  | serviceOptions (service : String)
  | isClosed (service : String)
  | rewrap (service name : String)
  | shutdown (service : String)
  | globalStart (source : Option Source) (updateSchema : Bool)
  | globalGet (name : String) (timeout : Option Time)
  | globalShutdown
  /-- Sets up the server of the networked store, perhaps with versions recorded in it. -/
  | serve (versions : Option (List Int))
  /-- Asks what is recorded on the server. -/
  | served

/-- The replies. -/
inductive Reply where
  | done
  | missing
  | noConnection
  | noService
  | noManager
  | notPooled
  | noServer
  | timedOut
  | absent
  | flag (b : Bool)
  | number (n : Int)
  | text (s : String)
  | texts (s : List String)
  | value (v : Sql.Value)
  | rows (r : List (List Sql.Value))
  | applied (versions : List Int) (utc : Bool)
  | scripts (s : List Migration.Script)
  | snapshot (s : Machine.Snapshot)
  | options (o : Options)
  | served (versions : List Int)
  | connectionFailed (e : ConnectionError)
  | queryFailed (e : Failure)
  | migrationFailed (e : Migration.Error)
  | serviceFailed (e : Service.Error)

/-- Where a named connection comes from. -/
inductive Origin where
  /-- Opened in memory, by nobody. -/
  | plain
  /-- Opened by a manager for given options. -/
  | managed
  /-- Borrowed from a pool. -/
  | pooled (pool : PoolId) (c : ConnId)

/-- A named connection. -/
structure Conn where
  connection : Connection
  origin : Origin

/-- The state of a console. -/
structure State where
  lifecycle : Lifecycle World
  conns : List (String × Conn)
  services : List (String × PoolId)

namespace State

def process (s : State) : Process World := s.lifecycle.process

def host (s : State) : Host World := s.process.host

def withProcess (s : State) (p : Process World) : State :=
  { s with lifecycle := { s.lifecycle with process := p } }

def withHost (s : State) (h : Host World) : State := s.withProcess { s.process with host := h }

def withWorld (s : State) (w : World) : State := s.withHost { s.host with store := w }

/-- The source itself, or the settings of the system. -/
def sourceOr (s : State) (source : Option Source) : Source :=
  source.getD (Source.system s.host.env)

def conn? (s : State) (name : String) : Option Conn := s.conns.lookup name

def service? (s : State) (name : String) : Option PoolId := s.services.lookup name

/-- Runs an action of the process. -/
def act {α : Type} (s : State) (a : Process.Action World α) : State × Except Service.Error α :=
  let (result, p) := a.run.run s.process
  (s.withProcess p, result)

/-- Gives a connection up: a borrowed one goes back to its pool, any other is closed. -/
def letGo (s : State) (c : Conn) : State :=
  match c.origin with
  | .pooled pool id => (s.act (Process.giveBack pool id)).1
  | _ => s.withHost (s.host.disconnect c.connection)

/-- Gives a connection a name. One that had the name before is given up. -/
def name (s : State) (name : String) (c : Conn) : State :=
  let old := s.conn? name
  let s := { s with conns := (name, c) :: s.conns.filter (·.1 != name) }
  match old with
  | some c => s.letGo c
  | none => s

/-- Gives a service a name. -/
def nameService (s : State) (name : String) (pool : PoolId) : State :=
  { s with services := (name, pool) :: s.services.filter (·.1 != name) }

/-- A connection borrowed from a pool. -/
def borrowed? (s : State) (pool : PoolId) (c : ConnId) : Option Conn :=
  (s.process.connection? pool c).map fun conn => ⟨conn, .pooled pool c⟩

/-- The borrower's guard of a connection. -/
def guard? (s : State) (pool : PoolId) (c : ConnId) : Option Guard :=
  (s.process.machine? pool).bind (·.guard? c)

end State

/-- The reply to something done with a connection, unless no connection has the name. -/
def onConn (s : State) (name : String) (f : Conn → State × Reply) : State × Reply :=
  match s.conn? name with
  | some c => f c
  | none => (s, .noConnection)

/-- The reply to something done with a service, unless no service has the name. -/
def onService (s : State) (name : String) (f : PoolId → State × Reply) : State × Reply :=
  match s.service? name with
  | some i => f i
  | none => (s, .noService)

/-- The reply to a migration operation. -/
def migrate {α : Type} (s : State)
    (r : World × Except Migration.Error α × List Event) (reply : α → Reply) : State × Reply :=
  let (w, result, log) := r
  let p := s.process
  let host := { p.host with store := w }.later log.length
  let s := s.withProcess { p with host := host, log := p.log ++ log }
  match result with
  | .ok a => (s, reply a)
  | .error e => (s, .migrationFailed e)

/-- Borrows a connection under a name. -/
def borrow (s : State) (name : String) (pool : PoolId) (timeout : Option Time) : State × Reply :=
  match s.act (Process.acquire pool timeout) with
  | (s, .error e) => (s, .serviceFailed e)
  | (s, .ok none) => (s, .absent)
  | (s, .ok (some .timedOut)) => (s, .timedOut)
  | (s, .ok (some .closed)) => (s, .serviceFailed (.pool .closed))
  | (s, .ok (some (.connection c))) =>
    match s.borrowed? pool c with
    | some conn => (s.name name conn, .done)
    | none => (s, .noConnection)

/-- Reads a record of an applied migration: its version, and whether its time is given in the form
of universal time. -/
def record? (index : Nat) (r : Sql.Value × Sql.Value) : Except Failure (Int × Bool) :=
  match r.1, r.2 with
  | .integer v, .text t => .ok (v, isUniversal t.toList)
  | .integer _, t =>
    .error (Sql.Error.wrongType t.typeName (index + 1) timeColumn).nowhere
  | v, _ => .error (Sql.Error.wrongType v.typeName index versionColumn).nowhere
where
  /-- A date, `T`, a time of day and a zero offset. -/
  isUniversal (cs : List Char) : Bool :=
    match Toml.skipDate cs with
    | some ('T' :: rest) => Toml.skipTime rest = some ['+', '0', '0', ':', '0', '0']
    | _ => false

/-- What is recorded of applied migrations. -/
def appliedRecords (x : Site) : Except Failure (List (Int × Bool)) :=
  match x.columnsOf versionColumn timeColumn recordTable with
  | .error e => .error e
  | .ok rows => rows.mapM (record? 0)

/-- The first value that a question about a session's own settings has. -/
def setting (x : Site) (name : String) : Except Failure Sql.Value :=
  match Text.asciiLower name with
  | "journal_mode" => .ok (.text x.session.journal)
  | "foreign_keys" => .ok (.integer 1)
  | "busy_timeout" => .ok (.integer x.session.busyTimeout)
  | _ => .error Sql.Error.noRows.nowhere

/-- Asks the store something on a connection. -/
def query (s : State) (name : String) (ask : Site → Except Failure Reply) : State × Reply :=
  onConn s name fun c =>
    let w := s.host.store
    let id := c.connection.session
    match w.store.ask id ask (.error Sql.Error.noRows.nowhere) with
    | .ok reply => (s.withWorld { w with store := w.store.queried id }, reply)
    | .error e => (s.withWorld { w with store := w.store.learn id }, .queryFailed e)

/-! ## The server of the networked store -/

/-- The world with a server whose database has versions recorded in it, in this order. -/
def serve (w : World) (versions : List Int) : World :=
  let db := w.store.nextDatabase
  let (w, id) := w.openNew "wal"
  let c : Connection := ⟨.postgres, id⟩
  let w := (Stores.batch c Migration.makeRecords w).1
  let w := versions.foldl (fun w v => (Stores.record c v "" w).1) w
  { Stores.close c w with server := some db }

/-- The versions recorded on the server, if there is one. -/
def served? (w : World) : Option (List Int) := do
  let db ← w.server
  let d ← w.store.database? db
  let t ← d.committed.table? recordTable
  let i ← t.columnIndex? versionColumn
  return t.rows.filterMap fun r =>
    match r.cells[i]? with
    | some (Sql.Value.integer n) => some n
    | _ => none

/-! ## Instructions -/

/-- Starts a service and gives it a name. -/
def startService (s : State) (name : String) (next : Startup) : State × Reply :=
  match next.run Startup.stepBound s.process with
  | (some (.ok i), p) => ((s.withProcess p).nameService name i, .done)
  | (some (.error e), p) => (s.withProcess p, .serviceFailed e)
  | (none, p) => (s.withProcess p, .absent)

/-- Does what an instruction says. -/
def perform (s : State) : Op → State × Reply
  | .makeFiles files =>
    let tree := files.foldl (fun t f => t.put f.path f.node) s.host.files
    (s.withHost { s.host with files := tree }, .done)
  | .remove path =>
    match s.host.files.remove path with
    | some tree => (s.withHost { s.host with files := tree }, .done)
    | none => (s, .missing)
  | .isThere path => (s, .flag (s.host.files.holds path))
  | .setEnvironment env => (s.withHost { s.host with env := env }, .done)
  | .openWith name options busyTimeout =>
    match s.host.prepare options with
    | .error e => (s, .connectionFailed e)
    | .ok () =>
      match s.host.connect options busyTimeout with
      | (h, .ok c) => ((s.withHost h).name name ⟨c, .managed⟩, .done)
      | (h, .error e) => (s.withHost h, .connectionFailed e)
  | .openMemory name =>
    let (w, id) := s.host.store.openMemory
    ((s.withWorld w).name name ⟨⟨.sqlite, id⟩, .plain⟩, .done)
  | .release name =>
    onConn s name fun c =>
      ({ s with conns := s.conns.filter (·.1 != name) }.letGo c, .done)
  | .exec name sql =>
    onConn s name fun c =>
      attempt s (s.host.onStore (c.connection.executeBatch sql))
  | .ping name => onConn s name fun c => attempt s (s.host.onStore c.connection.ping)
  | .provider name => onConn s name fun c => (s, .text c.connection.provider.name)
  | .debug name =>
    onConn s name fun c =>
      (s,
        match c.origin with
        | .pooled pool id =>
          .texts [((s.guard? pool id).map Guard.debug).getD "", c.connection.debug]
        | _ => .text c.connection.debug)
  | .isValid name =>
    onConn s name fun c =>
      match c.origin with
      | .managed => attempt s (s.host.onStore c.connection.ping)
      | _ => (s, .noManager)
  | .hasBroken name =>
    onConn s name fun c =>
      (s,
        match c.origin with
        | .managed => .flag false
        | _ => .noManager)
  | .markBroken name =>
    onConn s name fun c =>
      match c.origin with
      | .pooled pool id =>
        let s := s.withProcess (s.process.move pool (.markBroken id))
        (s, .flag (((s.guard? pool id).map (·.broken)).getD false))
      | _ => (s, .notPooled)
  | .setting name key =>
    onConn s name fun c =>
      (s,
        match s.host.store.store.ask c.connection.session (setting · key)
            (.error Sql.Error.noRows.nowhere) with
        | .ok v => .value v
        | .error e => .queryFailed e)
  | .tables name =>
    query s name fun x => .ok (.texts (x.names.filter fun n => !Catalog.isReserved n))
  | .rows name table => query s name fun x => (x.rows table).map .rows
  | .applied name =>
    query s name fun x =>
      (appliedRecords x).map fun records =>
        .applied (records.map (·.1)) (records.all (·.2))
  | .pending name dir =>
    onConn s name fun c =>
      migrate s (Migration.pending s.host.files dir c.connection s.host.store) .scripts
  | .update name dir =>
    onConn s name fun c =>
      migrate s (Migration.update s.host.files s.host.clock dir c.connection s.host.store)
        fun n => .number n
  | .currentVersion name =>
    onConn s name fun c =>
      let (w, result) := Migration.currentVersion c.connection s.host.store
      migrate s (w, result, []) fun
        | some v => .number v
        | none => .absent
  | .start name options settings => startService s name (.connect options settings)
  | .startFrom name source updateSchema =>
    startService s name (.resolve (s.sourceOr source) updateSchema)
  | .get service name timeout => onService s service fun i => borrow s name i timeout
  | .updateSchema service dir =>
    onService s service fun i =>
      match Updating.run i dir Updating.stepBound s.process .arriving with
      | (p, .returned (.ok n)) => (s.withProcess p, .number n)
      | (p, .returned (.error e)) => (s.withProcess p, .serviceFailed e)
      | (p, _) => (s.withProcess p, .absent)
  | .state service =>
    onService s service fun i =>
      (s, ((s.process.machine? i).map fun m => Reply.snapshot m.snapshot).getD .noService)
  | .debugService service =>
    onService s service fun i =>
      (s, ((s.process.machine? i).map fun m => Reply.text (Service.debug m)).getD .noService)
  | .serviceProvider service =>
    onService s service fun i =>
      (s, ((s.process.pools[i]?).map fun p => Reply.text p.options.provider.name).getD .noService)
  | .serviceOptions service =>
    onService s service fun i =>
      (s, ((s.process.pools[i]?).map fun p => Reply.options p.options).getD .noService)
  | .isClosed service =>
    onService s service fun i =>
      (s, ((s.process.machine? i).map fun m => Reply.flag m.ledger.closed).getD .noService)
  | .rewrap service name => onService s service fun i => (s.nameService name i, .done)
  | .shutdown service =>
    onService s service fun i => ((s.act (Process.close i)).1, .done)
  | .globalStart source updateSchema =>
    globally s (.start (s.sourceOr source) updateSchema) ""
  | .globalGet name timeout => globally s (.acquire timeout) name
  | .globalShutdown => globally s .shutdown ""
  | .serve versions =>
    let w := s.host.store
    (s.withWorld (serve w (versions.getD ((served? w).getD []))), .done)
  | .served => (s, ((served? s.host.store).map Reply.served).getD .noServer)
where
  /-- The reply to something done with a connection that gives nothing but its success. -/
  attempt (s : State) (r : Host World × Except ConnectionError Unit) : State × Reply :=
    match r with
    | (h, .ok ()) => (s.withHost h, .done)
    | (h, .error e) => (s.withHost h, .connectionFailed e)
  /-- Makes a call on the process-wide service; a connection that it yields gets a name. -/
  globally (s : State) (r : Request) (name : String) : State × Reply :=
    let (l, response) := s.lifecycle.complete r
    let s := { s with lifecycle := l }
    match response with
    | some .done => (s, .done)
    | some .timedOut => (s, .timedOut)
    | some (.failed e) => (s, .serviceFailed e)
    | some (.connection pool c) =>
      match s.borrowed? pool c with
      | some conn => (s.name name conn, .done)
      | none => (s, .noConnection)
    | none => (s, .absent)

/-- Takes the events that were reported and not yet taken. -/
def takeLog (s : State) : State × List Event :=
  (s.withProcess { s.process with log := [] }, s.process.log)

/-- One instruction: its reply and the events that it caused. -/
def step (s : State) (op : Op) : State × Reply × List Event :=
  let (s, reply) := perform s op
  let (s, log) := takeLog s
  (s, reply, log)

/-- A console on a host, before its first instruction. -/
def initial (host : Host World) : State := ⟨Lifecycle.initial host, [], []⟩

end Console

end PooledStore
