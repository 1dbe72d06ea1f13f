import PooledStore.Migration.Update

/-!
# Several connections that update

Connections may bring the schema of one database up to date at the same time. Each of them goes
through `update` in steps of its own: it makes sure that there is a table of records, asks for the
largest version, and then runs the scripts that were pending at that moment, each in one
transaction. Others take their steps in between, so what was pending may not be pending any more.

* `Updaters.advance`: the next step of a connection.
* `Updaters.move`: what may happen.
-/

namespace PooledStore.Migration

/-- How far a connection has come with an update. -/
inductive Phase where
  | arriving
  /-- The directory was read, and there is a table of records. -/
  | asking (scripts : List Script)
  /-- Of the scripts that were pending, whose number is kept, some are left. -/
  | applying (pending : Nat) (rest : List Script)
  | returned (result : Except Error Nat)

/-- The store, and how far each connection has come. -/
structure Updaters (σ : Type) where
  store : σ
  phase : Connection → Phase

/-- What may happen: a connection takes its next step, which may need the time, or the store
refuses it, or a connection whose update has returned begins another one. -/
inductive Move where
  | advance (c : Connection) (time : String)
  | refuse (c : Connection) (cause : ConnectionError)
  | again (c : Connection)

/-- The connection that a move is about. -/
def Move.connection : Move → Connection
  | .advance c _ => c
  | .refuse c _ => c
  | .again c => c

namespace Updaters

variable {σ : Type}

/-- No connection has begun. -/
def start (st : σ) : Updaters σ := ⟨st, fun _ => .arriving⟩

/-- A connection has come to another phase, and the store has changed. -/
def enter (u : Updaters σ) (c : Connection) (st : σ) (p : Phase) : Updaters σ :=
  ⟨st, fun d => if d = c then p else u.phase d⟩

/-- The store refuses the next step of a connection, which ends its update. -/
def refuse (u : Updaters σ) (c : Connection) (cause : ConnectionError) : Updaters σ :=
  match u.phase c with
  | .arriving => u.enter c u.store (.returned (.error (.bookkeeping cause)))
  | .asking _ => u.enter c u.store (.returned (.error (.bookkeeping cause)))
  | .applying _ (s :: _) =>
    u.enter c u.store (.returned (.error (.failed s.version s.name cause)))
  | .applying _ [] => u
  | .returned _ => u

variable [Stores σ]

/-- The next step of a connection's update. -/
def advance (files : FileTree) (dir : Path) (time : String) (u : Updaters σ) (c : Connection) :
    Updaters σ :=
  match u.phase c with
  | .arriving =>
    match (discover files dir c.provider).1 with
    | .error e => u.enter c u.store (.returned (.error (.discovery e)))
    | .ok scripts =>
      match c.executeBatch makeRecords u.store with
      | (st, .error e) => u.enter c st (.returned (.error (.bookkeeping e)))
      | (st, .ok ()) => u.enter c st (.asking scripts)
  | .asking scripts =>
    match highestVersion c u.store with
    | (st, .error e) => u.enter c st (.returned (.error (.bookkeeping e)))
    | (st, .ok current) =>
      u.enter c st (.applying (newer current scripts).length (newer current scripts))
  | .applying n [] => u.enter c u.store (.returned (.ok n))
  | .applying n (s :: rest) =>
    match files.readText s.path with
    | .error e => u.enter c u.store (.returned (.error (.readScript s.version s.name e)))
    | .ok text =>
      match apply c s.version text time u.store with
      | (st, .error e) => u.enter c st (.returned (.error (.failed s.version s.name e)))
      | (st, .ok ()) => u.enter c st (.applying n rest)
  | .returned _ => u

/-- What a move makes of the updaters. -/
def move (files : FileTree) (dir : Path) (u : Updaters σ) : Move → Updaters σ
  | .advance c time => u.advance files dir time c
  | .refuse c cause => u.refuse c cause
  | .again c =>
    match u.phase c with
    | .returned _ => u.enter c u.store .arriving
    | _ => u

end Updaters

end PooledStore.Migration
