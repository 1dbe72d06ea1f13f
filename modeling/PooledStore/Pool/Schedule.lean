import PooledStore.Log
import PooledStore.Pool.Machine

/-!
# Running the pool

`Machine` says what may happen; a `Run` makes it happen, over a `Manager` that opens, judges and
destroys connections in a world of its own. Calls advance in the order in which they began. Time
stands still while a call can advance, and then passes to the moment at which the next sleeper
wakes by itself.
-/

namespace PooledStore.Pool

/-- Opens, judges and destroys the connections of a pool. The world is whatever connecting
depends on and changes; failures to connect are causes of type `ε`. -/
structure Manager (σ ε : Type) where
  /-- Opens the connection with the given identity. -/
  connect : ConnId → σ → σ × Except ε Unit
  /-- Whether a connection that comes back is to be discarded although nobody marked it. -/
  faulty : ConnId → σ → Bool
  destroy : ConnId → σ → σ
  /-- The cause of a failure, as it is displayed. -/
  describe : ε → String

/-- A pool, the world of its manager, and what was reported so far. -/
structure Run (σ : Type) where
  machine : Machine
  world : σ
  log : List Log.Event

/-- Why a pool could not be built or used. -/
inductive Error (ε : Type) where
  | invalidCapacity
  /-- The first connection could not be opened. -/
  | connect (cause : ε)
  | closed

/-- The error as it is displayed, given how its cause is. -/
def Error.message {ε : Type} (describe : ε → String) : Error ε → String
  | .invalidCapacity => "connection pool capacity must be at least 1"
  | .connect cause => "failed to connect to database: " ++ describe cause
  | .closed => "connection pool is closed"

namespace Run

variable {σ ε : Type}

/-- The effect of a notice on the log and the manager's world. -/
def heed (mgr : Manager σ ε) (cause : String) (r : Run σ) : Notice → Run σ
  | .reopened => { r with log := r.log ++ [.slotReopened] }
  | .refused => { r with log := r.log ++ [.reopenFailed cause] }
  | .discarded => { r with log := r.log ++ [.connectionDiscarded] }
  | .closing n => { r with log := r.log ++ [.poolClosing n] }
  | .destroyed c => { r with world := mgr.destroy c r.world }

/-- Makes a move, if it is possible. -/
def perform (mgr : Manager σ ε) (r : Run σ) (v : Move) (cause : String) : Run σ :=
  match r.machine.apply v with
  | none => r
  | some (m, notices) => notices.foldl (heed mgr cause) { r with machine := m }

/-- Whether a call can advance now. An attempt to connect may be held back. -/
def canAdvance (connectsHeld : Bool) : Call → Bool
  | .acquire a =>
    match a.phase with
    | .asleep .. => false
    | .returned _ => false
    | .connecting _ => !connectsHeld
    | _ => true
  | .release r => r.phase != .returned
  | .close c => c != .asleep && c != .returned

/-- Lets the call `i` advance by one step. -/
def advanceCall (mgr : Manager σ ε) (r : Run σ) (i : Nat) : Run σ :=
  match r.machine.calls[i]? with
  | some (.acquire ⟨_, _, .connecting _⟩) =>
    match mgr.connect r.machine.opened r.world with
    | (w, .ok ()) => perform mgr { r with world := w } (.connected i true) ""
    | (w, .error e) => perform mgr { r with world := w } (.connected i false) (mgr.describe e)
  | _ => perform mgr r (.step i) ""

/-- Advances the first call that can advance, again and again, at most `fuel` times. -/
def settleFor (mgr : Manager σ ε) (connectsHeld : Bool) : Nat → Run σ → Run σ
  | 0, r => r
  | fuel + 1, r =>
    match r.machine.calls.findIdx? (canAdvance connectsHeld) with
    | none => r
    | some i => settleFor mgr connectsHeld fuel (advanceCall mgr r i)

/-- More steps than the calls of a pool can make before all of them have returned or sleep: each
call wakes the others at most three times, and every drained connection takes a step. -/
def stepBound (m : Machine) : Nat :=
  16 * ((m.calls.length + 2) * (m.calls.length + 2)) + 4 * m.capacity + 64

/-- Advances every call as far as it gets without time passing. -/
def settle (mgr : Manager σ ε) (r : Run σ) (connectsHeld : Bool) : Run σ :=
  settleFor mgr connectsHeld (stepBound r.machine) r

/-- The time at which a call wakes by itself, if it sleeps with a bound. -/
def wakeTime? : Call → Option Time
  | .acquire ⟨_, _, .asleep _ at_⟩ => at_
  | _ => none

/-- Wakes those whose sleep ends at a time that has been reached, and settles. -/
def wakeDue (mgr : Manager σ ε) (r : Run σ) (connectsHeld : Bool) : Run σ :=
  let due := (List.range r.machine.calls.length).filter fun i =>
    match r.machine.calls[i]? with
    | some c => Ledger.reached r.machine.clock (wakeTime? c)
    | none => false
  settle mgr (due.foldl (fun r i => perform mgr r (.wake i) "") r) connectsHeld

/-- Wakes those whose time has come, again and again, until that changes nothing; at most `fuel`
times. A call behind another sleeps for no time at all once its retry time has been reached. -/
def wakeDueFor (mgr : Manager σ ε) (connectsHeld : Bool) : Nat → Run σ → Run σ
  | 0, r => r
  | fuel + 1, r =>
    let r' := wakeDue mgr r connectsHeld
    if r'.machine = r.machine then r' else wakeDueFor mgr connectsHeld fuel r'

/-- Advances every call as far as it gets without time passing, those that sleep for no time at all
among them. -/
def calm (mgr : Manager σ ε) (r : Run σ) (connectsHeld : Bool) : Run σ :=
  let r := settle mgr r connectsHeld
  wakeDueFor mgr connectsHeld (stepBound r.machine) r

/-- The next time still to come at which some call wakes by itself. -/
def nextWake? (m : Machine) : Option Time :=
  m.calls.foldl (fun t c => Ledger.earlier t
    (if Ledger.reached m.clock (wakeTime? c) then none else wakeTime? c)) none

/-- Lets time pass until the next sleeper wakes, if there is one, and then advances every call as
far as it gets. -/
def elapse (mgr : Manager σ ε) (r : Run σ) (connectsHeld : Bool) : Option (Run σ) :=
  (nextWake? r.machine).map fun t =>
    calm mgr (perform mgr r (.advance (t - r.machine.clock)) "") connectsHeld

/-- Lets time pass, wake by wake, until the acquire call `i` has returned or nobody is left who
wakes by himself; at most `fuel` times. -/
def awaitCall (mgr : Manager σ ε) (connectsHeld : Bool) (i : Nat) : Nat → Run σ → Run σ
  | 0, r => r
  | fuel + 1, r =>
    match r.machine.answer? i with
    | some _ => r
    | none =>
      match elapse mgr r connectsHeld with
      | none => r
      | some r => awaitCall mgr connectsHeld i fuel r

/-- How many wake-ups `awaitCall` waits for before it gives up. -/
def patience : Nat := 4096

/-- Opens the connections with the identities from `next` on, `slots` attempts in all, and
gives how many opened. -/
def openEach (mgr : Manager σ ε) : Nat → ConnId → σ → List Log.Event → ConnId × σ × List Log.Event
  | 0, next, w, log => (next, w, log)
  | slots + 1, next, w, log =>
    match mgr.connect next w with
    | (w, .ok ()) => openEach mgr slots (next + 1) w log
    | (w, .error e) => openEach mgr slots next w (log ++ [.slotUnopened (mgr.describe e)])

/-- Builds a pool and opens its connections. The first one must open; a slot whose connection
does not open stays vacant. -/
def start (mgr : Manager σ ε) (capacity : Nat) (w : σ) : σ × Except (Error ε) (Run σ) :=
  match capacity with
  | 0 => (w, .error .invalidCapacity)
  | others + 1 =>
    match mgr.connect 0 w with
    | (w, .error e) => (w, .error (.connect e))
    | (w, .ok ()) =>
      let (n, w, log) := openEach mgr others 1 w []
      (w, .ok ⟨Machine.initial capacity n, w, log ++ [.poolReady capacity n]⟩)

end Run

end PooledStore.Pool
