import PooledStore.Connection

/-!
# The host

What the process runs on: files, environment, stores, a clock, and the place of the program itself.
Connecting to a store is an action on the host.

* `Host.prepare`, `Host.connect`: what a manager of connections with given options does.
-/

namespace PooledStore

open Config

/-- What the process runs on. -/
structure Host (σ : Type) where
  files : FileTree
  env : Environment
  store : σ
  /-- What the clock shows from now on, reading after reading, in the form in which it is
  recorded. -/
  clock : Nat → String
  /-- The path of the running program. -/
  executable : Path
  /-- How many threads the hardware runs at a time, if that is known. -/
  parallelism : Option Nat
  /-- Why what drives networked connections cannot be started, where it cannot. -/
  runtimeFault : Option String

namespace Host

/-- How long a session waits for the right to write, in milliseconds, where nothing else is
said. -/
def defaultBusyTimeout : Nat := 5000

variable {σ : Type}

/-- The host after a time in which the clock was read at most so many times. -/
def later (h : Host σ) (readings : Nat) : Host σ :=
  { h with clock := fun i => h.clock (readings + i) }

/-- Changes the stores by an operation with a result. -/
def onStore {α : Type} (h : Host σ) (f : σ → σ × α) : Host σ × α :=
  let (st, a) := f h.store
  ({ h with store := st }, a)

/-- Whether connections with the options can be managed. Nothing is opened yet. -/
def prepare (h : Host σ) : Options → Except ConnectionError Unit
  | .sqlite _ => .ok ()
  | .postgres _ =>
    match h.runtimeFault with
    | some cause => .error (.runtime cause)
    | none => .ok ()

variable [Stores σ]

/-- Makes a new session on a database file ready. A database in memory keeps no journal in a
file, which is accepted. -/
def initialise (c : Connection) (busyTimeout : Nat) (st : σ) : σ × Except String Unit :=
  match Stores.setJournal c st with
  | (st, .error e) => (st, .error e)
  | (st, .ok mode) =>
    if mode != "wal" && mode != "memory" then
      (st, .error ("failed to set WAL journal mode, got: " ++ mode))
    else Stores.configure c busyTimeout st

/-- Opens a session on the database in a file and makes it ready; where that fails the session is
closed again. -/
def openFile (h : Host σ) (file : Path) (busyTimeout : Nat) :
    Host σ × Except ConnectionError Connection :=
  match Stores.openFile file h.files h.store with
  | (files, st, .error e) => ({ h with files := files, store := st }, .error (.sqlite e))
  | (files, st, .ok id) =>
    let c : Connection := ⟨.sqlite, id⟩
    match initialise c busyTimeout st with
    | (st, .ok ()) => ({ h with files := files, store := st }, .ok c)
    | (st, .error e) =>
      ({ h with files := files, store := Stores.close c st }, .error (.sqlite e))

/-- Opens a connection. -/
def connect (h : Host σ) (options : Options) (busyTimeout : Nat) :
    Host σ × Except ConnectionError Connection :=
  match options with
  | .sqlite file => h.openFile file busyTimeout
  | .postgres network =>
    match Stores.dial network h.store with
    | (st, .answered id) => ({ h with store := st }, .ok ⟨.postgres, id⟩)
    | (st, .failed cause) => ({ h with store := st }, .error (.network cause))
    | (st, .late) => ({ h with store := st }, .error (.timeout network.timeoutSeconds))

/-- Closes a connection. -/
def disconnect (h : Host σ) (c : Connection) : Host σ :=
  { h with store := Stores.close c h.store }

end Host

end PooledStore
