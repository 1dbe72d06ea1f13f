import PooledStore.Host
import PooledStore.Service.Error

/-!
# Services in a process

A service is a pool of connections to the configured store. A process may run several; each is
known by the number of its pool, and what they do to the host and to the log is kept in one
`Process`.

* `Process.openPool`, `Process.connect`: build the pool of a service.
* `Process.acquire`, `Process.giveBack`, `Process.close`: the pool's calls, run to their ends.
* `Updating.advance`: one step of a call that runs the pending migrations on a borrowed connection.
* `Startup.advance`: one step of a start.
-/

namespace PooledStore.Service

open Config Log Pool

/-- A pool, by its number. -/
abbrev PoolId := Nat

/-- The pool of a service: its options, its state, and what is behind each connection. -/
structure ServicePool where
  options : Options
  machine : Machine
  connections : List (ConnId × Connection)

/-- What the manager of a service's pool works on. -/
structure Backing (σ : Type) where
  host : Host σ
  connections : List (ConnId × Connection)

/-- A process: its host, the pools of its services, and what was reported so far. -/
structure Process (σ : Type) where
  host : Host σ
  pools : List ServicePool
  log : List Event

/-- How a service is started. -/
structure StartSettings where
  updateSchema : Bool
  /-- The number of connections; by default the hardware's threads. -/
  poolSize : Option Nat
  migrationsDir : Option Path

/-- The number of connections where nothing is known about the hardware. -/
def fallbackPoolSize : Nat := 4

variable {σ : Type} [Stores σ]

/-- Opens connections for the options and closes them. None is ever found to be broken. -/
def manager (options : Options) : Manager (Backing σ) ConnectionError where
  connect c b :=
    match b.host.connect options Host.defaultBusyTimeout with
    | (h, .ok conn) => (⟨h, b.connections ++ [(c, conn)]⟩, .ok ())
    | (h, .error e) => ({ b with host := h }, .error e)
  faulty _ _ := false
  destroy c b :=
    match b.connections.lookup c with
    | some conn => ⟨b.host.disconnect conn, b.connections.filter (·.1 != c)⟩
    | none => b
  describe := ConnectionError.message

namespace Process

/-- An action that reports and may fail. What was done before a failure stays done. -/
abbrev Action (σ : Type) := ExceptT Error (StateM (Process σ))

/-- How an action ends, and the process after it. -/
def outcome {σ α : Type} (action : Action σ α) (p : Process σ) : Except Error α × Process σ :=
  action.run.run p

def report {σ : Type} (e : Event) : Action σ Unit :=
  modify fun p => { p with log := p.log ++ [e] }

/-! ## Pools -/

def machine? {σ : Type} (p : Process σ) (i : PoolId) : Option Machine :=
  (p.pools[i]?).map (·.machine)

/-- What is behind a connection of a pool. -/
def connection? {σ : Type} (p : Process σ) (i : PoolId) (c : ConnId) : Option Connection :=
  (p.pools[i]?).bind fun pool => pool.connections.lookup c

/-- The answer of an acquire call of a pool, once it has one. -/
def answer? {σ : Type} (p : Process σ) (i : PoolId) (call : Nat) : Option Answer :=
  (p.machine? i).bind (·.answer? call)

/-- Whether the return `call` of a connection to its pool is over. -/
def hasReleased {σ : Type} (p : Process σ) (i : PoolId) (call : Nat) : Bool :=
  match (p.machine? i).bind (·.calls[call]?) with
  | some (.release r) => r.phase == .returned
  | _ => false

/-- Whether the close call of a pool has returned. -/
def hasClosed {σ : Type} (p : Process σ) (i : PoolId) (call : Nat) : Bool :=
  match (p.machine? i).bind (·.calls[call]?) with
  | some (.close .returned) => true
  | _ => false

/-- Runs a pool, given a way to do it. -/
def drive (p : Process σ) (i : PoolId)
    (f : Manager (Backing σ) ConnectionError → Run (Backing σ) → Run (Backing σ)) : Process σ :=
  match p.pools[i]? with
  | none => p
  | some pool =>
    let r := f (manager pool.options) ⟨pool.machine, ⟨p.host, pool.connections⟩, []⟩
    { host := r.world.host
      pools := p.pools.set i
        { pool with machine := r.machine, connections := r.world.connections }
      log := p.log ++ r.log }

/-- Begins a call in a pool, which gets the number of the pool's calls before it. -/
def beginCall (p : Process σ) (i : PoolId) (v : Move) : Process σ × Nat :=
  (p.drive i fun mgr r => r.perform mgr v "", ((p.machine? i).map (·.calls.length)).getD 0)

/-- Lets all calls of a pool advance as far as they get. -/
def settle (p : Process σ) (i : PoolId) : Process σ :=
  p.drive i fun mgr r => r.settle mgr false

/-- Makes a move in a pool, and lets all of its calls advance as far as they get. -/
def move (p : Process σ) (i : PoolId) (v : Move) : Process σ :=
  p.drive i fun mgr r => (r.perform mgr v "").settle mgr false

/-- Lets time pass until a pool's acquire call has returned. -/
def awaitCall (p : Process σ) (i : PoolId) (call : Nat) : Process σ :=
  p.drive i fun mgr r => r.awaitCall mgr false call Run.patience

/-- Acquires a connection from a pool, with a bound on the wait or without one. A call that does not
end while nobody else does anything has no answer. -/
def acquire (i : PoolId) (timeout : Option Time) : Action σ (Option Answer) := do
  let (p, call) := (← get).beginCall i (.beginAcquire timeout)
  let p := (p.settle i).awaitCall i call
  set p
  return p.answer? i call

/-- Returns a connection to its pool. -/
def giveBack (i : PoolId) (c : ConnId) : Action σ Unit :=
  modify fun p => p.move i (.beginRelease c false)

/-- Closes a pool. -/
def close (i : PoolId) : Action σ Unit := modify fun p => p.move i .beginClose

/-- The process with every connection of a pool closed. -/
def closeConnections (p : Process σ) (i : PoolId) : Process σ :=
  match p.pools[i]? with
  | none => p
  | some pool =>
    { p with
      host := pool.connections.foldl (fun h e => h.disconnect e.2) p.host
      pools := p.pools.set i { pool with connections := [] } }

/-- Closes every connection of a pool that nobody refers to any more. -/
def abandon (i : PoolId) : Action σ Unit := modify fun p => p.closeConnections i

/-- Builds a pool. -/
def openPool (options : Options) (capacity : Nat) : Action σ PoolId := do
  let p ← get
  let (b, result) := Run.start (manager options) capacity ⟨p.host, []⟩
  match result with
  | .error e =>
    set { p with host := b.host }
    throw (.pool e)
  | .ok r =>
    set ({ host := b.host
           pools := p.pools ++ [⟨options, r.machine, r.world.connections⟩]
           log := p.log ++ r.log } : Process σ)
    return p.pools.length

/-- Connects to the store: builds the pool of a service. -/
def connect (options : Options) (poolSize : Option Nat) : Action σ PoolId := do
  let p ← get
  match p.host.prepare options with
  | .error e => throw (.pool (.connect e))
  | .ok () =>
    try openPool options (poolSize.getD (p.host.parallelism.getD fallbackPoolSize))
    catch e =>
      report (.storeUnreachable options.provider.name e.message)
      throw e

/-- The directory of the migration scripts of a service that is started. -/
def locateMigrations {σ : Type} (dir : Option Path) : Action σ Path := do
  match dir with
  | some dir => return dir
  | none =>
    let p ← get
    match migrationsDirectory p.host.env p.host.executable with
    | .ok dir => return dir
    | .error e =>
      report (.migrationsUnlocated e.message)
      throw (.migrationsDirectory e)

/-- Does something with a newly built pool; if that fails nothing of the pool stays open. -/
def orAbandon {α : Type} (i : PoolId) (action : Action σ α) : Action σ α := do
  try action
  catch e =>
    abandon i
    throw e

/-- The options that a source asks for. -/
def resolveFrom {σ : Type} [Toml.Parser] (source : Source) : Action σ Options := do
  let p ← get
  let (result, log) := source.resolve p.host.files p.host.env
  set { p with log := p.log ++ log }
  match result with
  | .error e =>
    report (.configUnreadable e.message)
    throw (.config e)
  | .ok options => return options

end Process

/-! ## Bringing the schema of a service up to date -/

/-- Where a call stands that runs the pending migrations of a directory on a borrowed connection. -/
inductive Updating where
  | arriving
  /-- The acquire call `call` of the pool is to get the connection. -/
  | borrowing (call : Nat)
  | lent (c : ConnId)
  /-- The migrations were run, with this result. -/
  | updated (c : ConnId) (result : Except Migration.Error Nat)
  /-- The connection goes back by the return `call` of the pool. -/
  | returning (c : ConnId) (call : Nat) (result : Except Migration.Error Nat)
  | returned (result : Except Error Nat)

namespace Updating

/-- The end of the call: what went wrong with the migrations is reported. -/
def finish {σ : Type} (dir : Path) (p : Process σ) :
    Except Migration.Error Nat → Process σ × Except Error Nat
  | .ok n => (p, .ok n)
  | .error e =>
    ({ p with log := p.log ++ [.schemaUpdateFailed dir.display e.message] }, .error (.migration e))

/-- The next step of the call, or `none` while it has to wait and after it has returned. -/
def advance (i : PoolId) (dir : Path) (p : Process σ) : Updating → Option (Process σ × Updating)
  | .arriving =>
    let (p, call) := p.beginCall i (.beginAcquire none)
    some (p, .borrowing call)
  | .borrowing call =>
    (p.answer? i call).map fun
      | .connection c => (p, .lent c)
      | .timedOut => (p, .returned (.error (.pool .closed)))
      | .closed => (p, .returned (.error (.pool .closed)))
  | .lent c =>
    (p.connection? i c).map fun conn =>
      let (st, result, log) :=
        Migration.update p.host.files p.host.clock dir conn p.host.store
      ({ p with
        host := { p.host with store := st }.later log.length
        log := p.log ++ log }, .updated c result)
  | .updated c result =>
    let (p, call) := p.beginCall i (.beginRelease c false)
    some (p, .returning c call result)
  | .returning _ call result =>
    if p.hasReleased i call then
      let (p, result) := finish dir p result
      some (p, .returned result)
    else none
  | .returned _ => none

/-- More steps than the call makes. -/
def stepBound : Nat := 6

/-- Lets the call advance, and its pool after every step, until it waits for others or has returned,
at most `fuel` steps. -/
def run (i : PoolId) (dir : Path) : Nat → Process σ → Updating → Process σ × Updating
  | 0, p, u => (p, u)
  | fuel + 1, p, u =>
    match u.advance i dir p with
    | some (p, u) => run i dir fuel (p.settle i) u
    | none => (p, u)

end Updating

/-! ## Starting a service -/

/-- What a start of a service is about to do. -/
inductive Startup where
  | resolve (source : Source) (updateSchema : Bool)
  | connect (options : Options) (settings : StartSettings)
  | locate (pool : PoolId) (dir : Option Path)
  | migrate (pool : PoolId) (dir : Path) (update : Updating)

namespace Startup

/-- Does it. Either something is left to do, or the service is ready. Nobody else knows the pool of
a service that is not ready, so that its calls advance as far as they get. There is no next step
while the start has to wait. -/
def advance [Toml.Parser] (p : Process σ) :
    Startup → Option (Except Error (Startup ⊕ PoolId) × Process σ)
  | .resolve source updateSchema =>
    some <| Process.outcome (do
      let options ← Process.resolveFrom source
      return .inl (.connect options ⟨updateSchema, none, none⟩)) p
  | .connect options settings =>
    some <| Process.outcome (do
      let i ← Process.connect options settings.poolSize
      return if settings.updateSchema then .inl (.locate i settings.migrationsDir) else .inr i) p
  | .locate i dir =>
    some <| Process.outcome (do
      let dir ← Process.orAbandon i (Process.locateMigrations dir)
      return .inl (.migrate i dir .arriving)) p
  | .migrate i dir u =>
    (u.advance i dir p).map fun
      | (p, .returned (.ok _)) => (.ok (.inr i), p)
      | (p, .returned (.error e)) => (.error e, p.closeConnections i)
      | (p, u) => (.ok (.inl (.migrate i dir u)), p.settle i)

/-- More steps than a start makes. -/
def stepBound : Nat := 10

/-- Makes at most `fuel` steps of a start, until it is over or has to wait. -/
def run [Toml.Parser] : Nat → Process σ → Startup → Option (Except Error PoolId) × Process σ
  | 0, p, _ => (none, p)
  | fuel + 1, p, s =>
    match s.advance p with
    | none => (none, p)
    | some (.ok (.inl s), p) => run fuel p s
    | some (.ok (.inr i), p) => (some (.ok i), p)
    | some (.error e, p) => (some (.error e), p)

end Startup

/-- A service as it is printed for debugging. -/
def debug (m : Machine) : String := "DatabaseService \x7b pool: " ++ m.debug ++ " \x7d"

end PooledStore.Service
