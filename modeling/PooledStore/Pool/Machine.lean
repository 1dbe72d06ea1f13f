import PooledStore.Pool.Ledger

/-!
# The pool as a step machine

Any number of calls run at the same time: acquiring, giving back, closing. Each call advances in
steps, and a step is either one stretch under the lock, or one thing done without it: opening a
connection, waking all sleepers, destroying a connection. `Machine.apply` makes one step, and
`Reachable` collects the states that any interleaving of steps leads to.

* `Move`: what can happen next. Calls begin, borrowers mark connections as broken, the clock
  advances, a call makes its next step, an attempt to connect ends, a sleeper wakes by itself.
* `Machine.apply`: the state after a move, or `none` where the move is impossible.
-/

namespace PooledStore.Pool

/-- Where an acquire call stands. -/
inductive Acquire.Phase where
  /-- Called, and not yet in the queue. -/
  | arriving
  /-- Queued and about to look at the ledger. -/
  | awake (t : Ticket)
  /-- Queued and asleep, at most until `wakeAt`. -/
  | asleep (t : Ticket) (wakeAt : Option Time)
  /-- Opening a connection for a claimed slot, without the lock. -/
  | connecting (t : Ticket)
  /-- The attempt to connect failed, which the ledger does not show yet. -/
  | refused (t : Ticket)
  /-- Decided, and about to wake all sleepers. -/
  | notifying (a : Answer)
  | returned (a : Answer)
  deriving DecidableEq, Repr

/-- An acquire call. -/
structure Acquire where
  deadline : Option Time
  /-- The time before which it does not try to reopen a slot again. -/
  retryAt : Option Time
  phase : Acquire.Phase
  deriving DecidableEq, Repr

/-- Where the return of a connection stands. -/
inductive Release.Phase where
  | arriving
  | notifying
  | destroying
  | returned
  deriving DecidableEq, Repr

/-- The return of a connection; `broken` says that it is to be discarded. -/
structure Release where
  conn : ConnId
  broken : Bool
  phase : Release.Phase
  deriving DecidableEq, Repr

/-- Where a close call stands. -/
inductive Close where
  | arriving
  | awake
  | asleep
  /-- The idle queue is drained and these connections are still to be destroyed. -/
  | draining (rest : List ConnId)
  | returned
  deriving DecidableEq, Repr

/-- A call in progress, or one that has returned. -/
inductive Call where
  | acquire (a : Acquire)
  | release (r : Release)
  | close (c : Close)
  deriving DecidableEq, Repr

/-- A connection in a borrower's hands. -/
structure Guard where
  conn : ConnId
  broken : Bool
  deriving DecidableEq, Repr

/-- The pool, its calls, its borrowers and the clock. -/
structure Machine where
  capacity : Nat
  ledger : Ledger
  /-- Every call made so far, in the order of beginning. -/
  calls : List Call
  held : List Guard
  clock : Time
  /-- How many connections were opened; also the identity of the next one. -/
  opened : Nat
  /-- How many times opening a connection was begun. -/
  attempts : Nat
  destroyed : List ConnId
  deriving DecidableEq, Repr

/-- What a step makes known. -/
inductive Notice where
  | reopened
  | refused
  | discarded
  | closing (inUse : Nat)
  | destroyed (c : ConnId)
  deriving DecidableEq, Repr

/-- What can happen next. -/
inductive Move where
  /-- An acquire call begins, with a bound on its wait or without one. -/
  | beginAcquire (timeout : Option Time)
  /-- A borrower gives a connection back; `faulty` is the manager's own judgement of it. -/
  | beginRelease (c : ConnId) (faulty : Bool)
  | beginClose
  /-- A borrower declares its connection unusable. -/
  | markBroken (c : ConnId)
  | advance (d : Time)
  /-- Call `i` makes its next step. -/
  | step (i : Nat)
  /-- The attempt to connect that call `i` is in ends. -/
  | connected (i : Nat) (ok : Bool)
  /-- The sleeping call `i` wakes without having been notified. -/
  | wake (i : Nat)
  deriving DecidableEq, Repr

/-- A call that sleeps is awake after all sleepers were woken. -/
def Call.roused : Call → Call
  | .acquire a =>
    match a.phase with
    | .asleep t _ => .acquire { a with phase := .awake t }
    | _ => .acquire a
  | .close .asleep => .close .awake
  | c => c

namespace Machine

/-- All `n` connections that could be opened at the start are idle, and the other slots vacant. -/
def initial (capacity n : Nat) : Machine where
  capacity := capacity
  ledger := ⟨List.range n, 0, capacity - n, false, [], 0⟩
  calls := []
  held := []
  clock := 0
  opened := n
  attempts := capacity
  destroyed := []

/-- Wakes every sleeper. -/
def notifyAll (m : Machine) : Machine := { m with calls := m.calls.map Call.roused }

def setCall (m : Machine) (i : Nat) (c : Call) : Machine := { m with calls := m.calls.set i c }

/-- The acquire call `i` returns. A connection is from now on in its caller's hands. -/
def answer (m : Machine) (i : Nat) (a : Acquire) (ans : Answer) : Machine :=
  let m := m.setCall i (.acquire { a with phase := .returned ans })
  match ans with
  | .connection c => { m with held := m.held ++ [⟨c, false⟩] }
  | _ => m

/-- The acquire call `i`, holding the lock, looks at the ledger. -/
def attend (m : Machine) (i : Nat) (a : Acquire) (t : Ticket) : Machine :=
  let (l, v) := m.ledger.attend m.clock t a.deadline a.retryAt
  let m := { m with ledger := l }
  match v with
  | .answer ans true => m.setCall i (.acquire { a with phase := .notifying ans })
  | .answer ans false => m.answer i a ans
  | .reopen =>
    { m.setCall i (.acquire { a with phase := .connecting t }) with attempts := m.attempts + 1 }
  | .sleep wakeAt => m.setCall i (.acquire { a with phase := .asleep t wakeAt })

/-- The next step of the acquire call `i`, if it has one of its own. -/
def stepAcquire (m : Machine) (i : Nat) (a : Acquire) : Option (Machine × List Notice) :=
  match a.phase with
  | .arriving =>
    let t := m.ledger.nextTicket
    some ({ m with ledger := m.ledger.enqueue }.attend i a t, [])
  | .awake t => some (m.attend i a t, [])
  | .refused t =>
    let a := { a with retryAt := some (m.clock + reopenInterval) }
    some ({ m with ledger := m.ledger.rejoin t }.notifyAll.attend i a t, [])
  | .notifying ans => some (m.notifyAll.answer i a ans, [])
  | .asleep .. => none
  | .connecting _ => none
  | .returned _ => none

/-- The next step of the return of a connection. The sleepers are woken before a broken
connection is destroyed. -/
def stepRelease (m : Machine) (i : Nat) (r : Release) : Option (Machine × List Notice) :=
  match r.phase with
  | .arriving =>
    some ({ m with ledger := m.ledger.takeBack r.conn r.broken }.setCall i
      (.release { r with phase := .notifying }), [])
  | .notifying =>
    some (m.notifyAll.setCall i
      (.release { r with phase := if r.broken then .destroying else .returned }), [])
  | .destroying =>
    some ({ m with destroyed := m.destroyed ++ [r.conn] }.setCall i
      (.release { r with phase := .returned }), [.discarded, .destroyed r.conn])
  | .returned => none

/-- The close call `i`, holding the lock, waits while connections are out; then it drains the
idle queue. -/
def awaitReturns (m : Machine) (i : Nat) : Machine :=
  if m.ledger.inUse > 0 then m.setCall i (.close .asleep)
  else { m with ledger := { m.ledger with idle := [] } }.setCall i
    (.close (.draining m.ledger.idle))

/-- The next step of the close call `i`, if it has one of its own. -/
def stepClose (m : Machine) (i : Nat) : Close → Option (Machine × List Notice)
  | .arriving =>
    let notices := if m.ledger.closed then [] else [Notice.closing m.ledger.inUse]
    some ({ m with ledger := { m.ledger with closed := true } }.notifyAll.awaitReturns i, notices)
  | .awake => some (m.awaitReturns i, [])
  | .asleep => none
  | .draining [] => some (m.setCall i (.close .returned), [])
  | .draining (c :: rest) =>
    some ({ m with destroyed := m.destroyed ++ [c] }.setCall i (.close (.draining rest)),
      [.destroyed c])
  | .returned => none

/-- The state after a move and what the move makes known, or `none` where it is impossible. -/
def apply (m : Machine) : Move → Option (Machine × List Notice)
  | .beginAcquire timeout =>
    some ({ m with
      calls := m.calls ++ [.acquire ⟨timeout.map (m.clock + ·), none, .arriving⟩] }, [])
  | .beginRelease c faulty =>
    match m.held.find? (·.conn = c) with
    | some g =>
      some ({ m with
        held := m.held.erase g
        calls := m.calls ++ [.release ⟨c, g.broken || faulty, .arriving⟩] }, [])
    | none => none
  | .beginClose => some ({ m with calls := m.calls ++ [.close .arriving] }, [])
  | .markBroken c =>
    if m.held.any (·.conn = c) then
      some ({ m with
        held := m.held.map fun g => if g.conn = c then { g with broken := true } else g }, [])
    else none
  | .advance d => some ({ m with clock := m.clock + d }, [])
  | .step i =>
    match m.calls[i]? with
    | some (.acquire a) => m.stepAcquire i a
    | some (.release r) => m.stepRelease i r
    | some (.close c) => m.stepClose i c
    | none => none
  | .connected i ok =>
    match m.calls[i]? with
    | some (.acquire a) =>
      match a.phase with
      | .connecting t =>
        if ok then
          some ({ m with opened := m.opened + 1 }.answer i a (.connection m.opened), [.reopened])
        else some (m.setCall i (.acquire { a with phase := .refused t }), [.refused])
      | _ => none
    | _ => none
  | .wake i =>
    match m.calls[i]? with
    | some (.acquire a) =>
      match a.phase with
      | .asleep t _ => some (m.setCall i (.acquire { a with phase := .awake t }), [])
      | _ => none
    | some (.close .asleep) => some (m.setCall i (.close .awake), [])
    | _ => none

/-- The states that the pool can get into, from any successful start, by any interleaving. -/
inductive Reachable : Machine → Prop where
  | start {capacity n : Nat} : 0 < n → n ≤ capacity → Reachable (initial capacity n)
  | move {m m' : Machine} {v : Move} {ns : List Notice} :
      Reachable m → m.apply v = some (m', ns) → Reachable m'

/-- A view of the bookkeeping at one moment. -/
structure Snapshot where
  capacity : Nat
  idle : Nat
  inUse : Nat
  waiting : Nat
  deriving DecidableEq, Repr

def snapshot (m : Machine) : Snapshot :=
  ⟨m.capacity, m.ledger.idle.length, m.ledger.inUse, m.ledger.waiters.length⟩

/-- The answer of the acquire call `i`, once it has returned. -/
def answer? (m : Machine) (i : Nat) : Option Answer :=
  match m.calls[i]? with
  | some (.acquire a) =>
    match a.phase with
    | .returned ans => some ans
    | _ => none
  | _ => none

/-- The guard of a connection, while a borrower has it. -/
def guard? (m : Machine) (c : ConnId) : Option Guard := m.held.find? (·.conn = c)

/-- How many close calls have returned. -/
def closesReturned (m : Machine) : Nat := m.calls.countP (· = .close .returned)

end Machine

/-- The snapshot as the pool shows it when it is printed for debugging. -/
def Machine.Snapshot.debug (s : Machine.Snapshot) : String :=
  "PoolState \x7b capacity: " ++ toString s.capacity ++ ", idle: " ++ toString s.idle ++
    ", in_use: " ++ toString s.inUse ++ ", waiting: " ++ toString s.waiting ++ " \x7d"

def Machine.debug (m : Machine) : String :=
  "ConnectionPool \x7b state: " ++ m.snapshot.debug ++ " \x7d"

def Guard.debug (g : Guard) : String :=
  "PooledConnection \x7b broken: " ++ (if g.broken then "true" else "false") ++ ", .. \x7d"

end PooledStore.Pool
