import PooledStore.Pool.Schedule

/-!
# Pool trials

A pool over a simulated store, driven by a list of instructions. The store refuses connections as
it is told, may keep attempts to connect waiting, and judges connections by numbers that their
borrowers can change. After each instruction the trial reports what has happened.
-/

namespace PooledStore.Pool

/-- The simulated store. -/
structure TrialStore where
  /-- Whether the next attempts to connect succeed; after these `refusing` decides. -/
  outcomes : List Bool
  refusing : Bool
  refusal : String
  /-- The numbers that borrowers have given to connections, last ones first. -/
  renamed : List (ConnId × Int)
  /-- The numbers of connections that the store holds to be broken. -/
  poisoned : List Int
  /-- The numbers of the connections destroyed during the current instruction. -/
  dropped : List Int

/-- The current number of a connection: the last one written to it, else its identity. -/
def TrialStore.number (s : TrialStore) (c : ConnId) : Int :=
  match s.renamed.find? (·.1 = c) with
  | some r => r.2
  | none => c

/-- The simulated store as the manager of a pool. -/
def TrialStore.manager : Manager TrialStore String where
  connect _ s :=
    match s.outcomes with
    | ok :: rest => ({ s with outcomes := rest }, if ok then .ok () else .error s.refusal)
    | [] => (s, if s.refusing then .error s.refusal else .ok ())
  faulty c s := s.poisoned.contains (s.number c)
  destroy c s := { s with dropped := s.dropped ++ [s.number c] }
  describe e := e

namespace Trial

/-- The instructions of a trial. Acquire calls, and the connections they yield, have names. -/
inductive Op where
  /-- Acquires; with a bound on the wait the trial waits for the end unless `background`. -/
  | acquire (name : String) (timeout : Option Time) (background : Bool)
  | await (name : String)
  | giveBack (name : String)
  | markBroken (name : String)
  | isBroken (name : String)
  | debugConnection (name : String)
  | renumber (name : String) (number : Int)
  | poison (number : Int)
  | refuse (on : Bool)
  | holdConnects
  | resumeConnects
  | close
  | state
  | capacity
  | debug

/-- The result of an instruction itself. -/
inductive Result where
  | nothing
  | notHeld
  | flag (b : Bool)
  | number (n : Nat)
  | text (s : String)

/-- How an acquire call ended, with the connection's number. -/
inductive Outcome where
  | connection (number : Int)
  | timedOut
  | closed

/-- What is reported after an instruction. -/
structure Report where
  result : Result
  state : Machine.Snapshot
  closed : Bool
  closes : Nat
  finished : List (String × Outcome)
  dropped : List Int
  attempts : Nat
  opened : Nat
  log : List Log.Event

/-- A trial in progress. -/
structure State where
  run : Run TrialStore
  /-- The acquire calls not yet reported as finished. -/
  pending : List (String × Nat)
  /-- The connections in borrowers' hands, by the names of their acquire calls. -/
  named : List (String × ConnId)
  connectsHeld : Bool
  /-- The calls whose attempt to connect is kept waiting, first come first. -/
  blocked : List Nat

def manager : Manager TrialStore String := TrialStore.manager

/-- Whether the call `i` is in an attempt to connect. -/
def isConnecting (m : Machine) (i : Nat) : Bool :=
  match m.calls[i]? with
  | some (.acquire ⟨_, _, .connecting _⟩) => true
  | _ => false

/-- Notes attempts to connect that have come to be kept waiting. -/
def noteBlocked (s : State) : State :=
  let here := (List.range s.run.machine.calls.length).filter fun i =>
    isConnecting s.run.machine i && !s.blocked.contains i
  { s with blocked := s.blocked ++ here }

def settle (s : State) : State :=
  noteBlocked { s with run := s.run.calm manager s.connectsHeld }

/-- Makes a move and settles. -/
def act (s : State) (v : Move) : State :=
  settle { s with run := s.run.perform manager v "" }

def awaitIndex (s : State) (i : Nat) : State :=
  noteBlocked { s with run := s.run.awaitCall manager s.connectsHeld i Run.patience }

/-- Lets the attempts that were kept waiting continue one by one. -/
def resume (s : State) : State :=
  let s' := { s with connectsHeld := false, blocked := [] }
  s.blocked.foldl (fun s i => settle { s with run := s.run.advanceCall manager i }) s'

def conn? (s : State) (name : String) : Option ConnId :=
  (s.named.find? (·.1 = name)).map (·.2)

/-- Returns the named connection to the pool. -/
def giveBack (s : State) (name : String) : State × Result :=
  match conn? s name with
  | none => (s, .notHeld)
  | some c =>
    let s := { s with named := s.named.filter (·.1 != name) }
    (act s (.beginRelease c (manager.faulty c s.run.world)), .nothing)

/-- Does what an instruction says. -/
def perform (s : State) : Op → State × Result
  | .acquire name timeout background =>
    let i := s.run.machine.calls.length
    let s := { s with pending := s.pending ++ [(name, i)] }
    let s := act s (.beginAcquire timeout)
    (if timeout.isSome && !background then awaitIndex s i else s, .nothing)
  | .await name =>
    match s.pending.find? (·.1 = name) with
    | some (_, i) => (awaitIndex s i, .nothing)
    | none => (s, .nothing)
  | .giveBack name => giveBack s name
  | .markBroken name =>
    match conn? s name with
    | some c => (act s (.markBroken c), .nothing)
    | none => (s, .notHeld)
  | .isBroken name =>
    match (conn? s name).bind s.run.machine.guard? with
    | some g => (s, .flag g.broken)
    | none => (s, .notHeld)
  | .debugConnection name =>
    match (conn? s name).bind s.run.machine.guard? with
    | some g => (s, .text g.debug)
    | none => (s, .notHeld)
  | .renumber name number =>
    match conn? s name with
    | some c =>
      let w := s.run.world
      ({ s with run := { s.run with world := { w with renamed := (c, number) :: w.renamed } } },
        .nothing)
    | none => (s, .notHeld)
  | .poison number =>
    let w := s.run.world
    ({ s with run := { s.run with world := { w with poisoned := number :: w.poisoned } } },
      .nothing)
  | .refuse on =>
    ({ s with run := { s.run with world := { s.run.world with refusing := on } } }, .nothing)
  | .holdConnects => ({ s with connectsHeld := true }, .nothing)
  | .resumeConnects => (resume s, .nothing)
  | .close => (act s .beginClose, .nothing)
  | .state => (s, .nothing)
  | .capacity => (s, .number s.run.machine.capacity)
  | .debug => (s, .text s.run.machine.debug)

/-- The acquire calls that have returned and were not reported yet. -/
def finished (s : State) : List (String × Nat × Answer) :=
  s.pending.filterMap fun (name, i) =>
    (s.run.machine.answer? i).map fun a => (name, i, a)

/-- The report on what has happened, and the trial with nothing left to report. -/
def report (s : State) (result : Result) : State × Report :=
  let done := finished s
  let named := done.filterMap fun (name, _, a) =>
    match a with
    | .connection c => some (name, c)
    | _ => none
  let m := s.run.machine
  let w := s.run.world
  let outcome (a : Answer) : Outcome :=
    match a with
    | .connection c => .connection (w.number c)
    | .timedOut => .timedOut
    | .closed => .closed
  ({ s with
      pending := s.pending.filter fun p => (m.answer? p.2).isNone
      named := s.named ++ named
      run := { s.run with log := [], world := { w with dropped := [] } } },
    { result := result
      state := m.snapshot
      closed := m.ledger.closed
      closes := m.closesReturned
      finished := done.map fun (name, _, a) => (name, outcome a)
      dropped := w.dropped
      attempts := m.attempts
      opened := m.opened
      log := s.run.log })

/-- Carries out instructions one after the other, with a report after each. -/
def follow : State → List Op → List Report
  | _, [] => []
  | s, op :: ops =>
    let (s, result) := perform s op
    let (s, r) := report s result
    r :: follow s ops

/-- Why a trial ended before its first instruction, after how many attempts to connect. -/
structure Failure where
  cause : Error String
  attempts : Nat

/-- Builds a pool over the simulated store and carries out the instructions. The first report is
on the building. -/
def run (capacity : Nat) (store : TrialStore) (ops : List Op) : Except Failure (List Report) :=
  match Run.start manager capacity store with
  | (_, .error .invalidCapacity) => .error ⟨.invalidCapacity, 0⟩
  | (_, .error e) => .error ⟨e, 1⟩
  | (_, .ok r) =>
    let (s, first) := report ⟨r, [], [], false, []⟩ .nothing
    .ok (first :: follow s ops)

end Trial

end PooledStore.Pool
