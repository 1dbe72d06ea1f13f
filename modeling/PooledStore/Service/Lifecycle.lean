import PooledStore.Service.Process

/-!
# The process-wide service

The rest of a process reaches the database through one service, kept in a slot behind a lock. Any
number of calls may be in progress: starting the service, getting a connection from it, shutting
it down. A call that starts the service holds the lock from its look at the slot to its end, stage
after stage; the other calls hold it for one look. Between two steps the host may change.

* `Lifecycle.apply`: one step of one call, or something that happens in a pool.
* `Lifecycle.complete`: one call alone, from its beginning to its end.
-/

namespace PooledStore.Service

open Config Log Pool

/-- What is asked of the process-wide service. -/
inductive Request where
  | start (source : Source) (updateSchema : Bool)
  /-- A connection, with a bound on the wait or without one. -/
  | acquire (timeout : Option Time)
  | shutdown

/-- How a call on the process-wide service ends. -/
inductive Response where
  | done
  | connection (pool : PoolId) (c : ConnId)
  | timedOut
  | failed (e : Error)

/-- Where a call on the process-wide service stands. -/
inductive Stage where
  | arriving
  /-- The slot was empty, and the call holds the lock. -/
  | starting (next : Startup)
  /-- The call is the acquire call `call` of a pool. -/
  | acquiring (pool : PoolId) (call : Nat)
  /-- The slot is emptied, and the call is the close call `call` of the service's pool. -/
  | closing (pool : PoolId) (call : Nat)
  | returned (r : Response)

/-- A call on the process-wide service. -/
structure GlobalCall where
  request : Request
  stage : Stage

/-- A process with its process-wide service. -/
structure Lifecycle (σ : Type) where
  process : Process σ
  /-- The pool of the process-wide service, if there is one. -/
  slot : Option PoolId
  /-- The pools of all services that were ever in the slot. -/
  installed : List PoolId
  /-- The call that holds the slot's lock beyond one step. -/
  lockedBy : Option Nat
  /-- Every call made so far, in the order of beginning. -/
  calls : List GlobalCall

namespace Lifecycle

/-- What can happen next. -/
inductive Move (σ : Type) where
  | call (r : Request)
  /-- Call `i` makes its next step. -/
  | step (i : Nat)
  /-- A call in a pool makes its next step. -/
  | poolStep (pool : PoolId) (i : Nat)
  /-- Something else happens in a pool: a borrower returns a connection, a sleeper wakes. -/
  | poolMove (pool : PoolId) (v : Pool.Move)
  /-- The host changes from outside, or by what borrowers do with their connections: files, the
  environment, the contents of databases and sessions. -/
  | outside (host : Host σ)

variable {σ : Type}

/-- A process at its beginning. -/
def initial (host : Host σ) : Lifecycle σ := ⟨⟨host, [], []⟩, none, [], none, []⟩

def setStage (l : Lifecycle σ) (i : Nat) (c : GlobalCall) (s : Stage) : Lifecycle σ :=
  { l with calls := l.calls.set i { c with stage := s } }

/-- Where the call `i` stands. -/
def stage? (l : Lifecycle σ) (i : Nat) : Option Stage := (l.calls[i]?).map GlobalCall.stage

variable [Stores σ]

/-- Begins a call in a pool, which gets the number of the pool's calls before it. -/
def beginInPool (l : Lifecycle σ) (pool : PoolId) (v : Pool.Move) : Lifecycle σ × Nat :=
  let (p, call) := l.process.beginCall pool v
  ({ l with process := p }, call)

/-- The first step of a call, at a moment at which nobody holds the lock. -/
def arrive (l : Lifecycle σ) (i : Nat) (c : GlobalCall) : Lifecycle σ :=
  match c.request, l.slot with
  | .start .., some _ => l.setStage i c (.returned (.failed .alreadyInitialized))
  | .start source updateSchema, none =>
    { l with lockedBy := some i }.setStage i c (.starting (.resolve source updateSchema))
  | .acquire _, none => l.setStage i c (.returned (.failed .notInitialized))
  | .acquire timeout, some pool =>
    let (l, call) := l.beginInPool pool (.beginAcquire timeout)
    l.setStage i c (.acquiring pool call)
  | .shutdown, none => l.setStage i c (.returned .done)
  | .shutdown, some pool =>
    let (l, call) := { l with slot := none }.beginInPool pool .beginClose
    l.setStage i c (.closing pool call)

/-- The process-wide service after the end of a step of its start, on behalf of the call that holds
the lock. The last step puts the service into the slot; a failure leaves the slot empty. Both let go
of the lock. -/
def advanceStart (l : Lifecycle σ) (i : Nat) (c : GlobalCall) :
    Except Error (Startup ⊕ PoolId) × Process σ → Lifecycle σ
  | (.ok (.inl next), process) => { l with process := process }.setStage i c (.starting next)
  | (.ok (.inr pool), process) =>
    { l with
      process := process
      slot := some pool
      installed := l.installed ++ [pool]
      lockedBy := none }.setStage i c (.returned .done)
  | (.error e, process) =>
    { l with process := process, lockedBy := none }.setStage i c (.returned (.failed e))

variable [Toml.Parser]

/-- The next step of a call, or `none` while it has to wait and after it has returned. -/
def stepCall (l : Lifecycle σ) (i : Nat) (c : GlobalCall) : Option (Lifecycle σ) :=
  match c.stage with
  | .arriving => if l.lockedBy.isSome then none else some (l.arrive i c)
  | .starting next => (next.advance l.process).map (l.advanceStart i c)
  | .acquiring pool call =>
    (l.process.answer? pool call).map fun ans =>
      l.setStage i c <| .returned <|
        match ans with
        | .connection conn => .connection pool conn
        | .timedOut => .timedOut
        | .closed => .failed (.pool .closed)
  | .closing pool call =>
    if l.process.hasClosed pool call then
      let p := l.process
      some ({ l with process := { p with log := p.log ++ [Event.serviceShutDown] } }.setStage i c
        (.returned .done))
    else none
  | .returned _ => none

/-- The state after a move, or `none` where it is impossible. Only the pool of a service that was
in the slot is known to others than the call that builds it. -/
def apply (l : Lifecycle σ) : Move σ → Option (Lifecycle σ)
  | .call r => some { l with calls := l.calls ++ [⟨r, .arriving⟩] }
  | .step i => (l.calls[i]?).bind (l.stepCall i)
  | .poolStep pool i =>
    if pool ∈ l.installed then
      some { l with process := l.process.drive pool fun mgr r => r.advanceCall mgr i }
    else none
  | .poolMove pool v =>
    if pool ∈ l.installed then
      some { l with process := l.process.drive pool fun mgr r => r.perform mgr v "" }
    else none
  | .outside host => some { l with process := { l.process with host := host } }

/-! ## One call alone -/

/-- Lets the pool that a call waits for advance as far as it gets. -/
def advancePool (l : Lifecycle σ) (i : Nat) : Lifecycle σ :=
  match l.stage? i with
  | some (.acquiring pool call) =>
    { l with process := (l.process.settle pool).awaitCall pool call }
  | some (.closing pool _) => { l with process := l.process.settle pool }
  | _ => l

/-- Lets a call advance until it waits for others or has returned, at most `fuel` steps. -/
def advance (i : Nat) : Nat → Lifecycle σ → Lifecycle σ
  | 0, l => l
  | fuel + 1, l =>
    match l.apply (.step i) with
    | some l' => advance i fuel (l'.advancePool i)
    | none => l

/-- More steps than any call makes. -/
def callSteps : Nat := 3 + Startup.stepBound

/-- The end of a call, once it has returned. -/
def response? (l : Lifecycle σ) (i : Nat) : Option Response :=
  match l.stage? i with
  | some (.returned r) => some r
  | _ => none

/-- Makes a call and lets it advance to its end, while no other call does anything. A call that
does not end by itself has no response. -/
def complete (l : Lifecycle σ) (r : Request) : Lifecycle σ × Option Response :=
  let i := l.calls.length
  let l := advance i callSteps { l with calls := l.calls ++ [⟨r, .arriving⟩] }
  (l, l.response? i)

end Lifecycle

end PooledStore.Service
