/-!
# The pool's ledger

The bookkeeping of a bounded connection pool: the idle connections, the number checked out, the
vacant slots, and the queue of tickets of those who wait. Everything in it changes only while the
pool's lock is held; each definition here is the change made in one such stretch.

* `Ledger.attend`: one look of a waiting caller at the ledger, which ends in a `Verdict`.
* `Ledger.rejoin`: a failed reopen hands its slot back and takes its old place in the queue.
* `Ledger.takeBack`: a connection comes back, to the idle queue or as a vacant slot.
-/

namespace PooledStore.Pool

/-- The identity of a physical connection: its number in the order of opening. -/
abbrev ConnId := Nat

/-- A place in the queue, numbered by arrival. -/
abbrev Ticket := Nat

/-- Milliseconds since the pool was built. -/
abbrev Time := Nat

/-- How long a caller waits after a failed reopen before it tries again. -/
def reopenInterval : Time := 500

/-- What the pool's lock protects. -/
structure Ledger where
  idle : List ConnId
  inUse : Nat
  /-- Slots whose connection was discarded, or never opened, and is not reopened yet. -/
  vacant : Nat
  closed : Bool
  /-- The tickets of those who wait, first come first. -/
  waiters : List Ticket
  nextTicket : Ticket
  deriving DecidableEq, Repr

/-- How an acquire call ends. -/
inductive Answer where
  | connection (c : ConnId)
  | timedOut
  | closed
  deriving DecidableEq, Repr

/-- What one look at the ledger leads to. -/
inductive Verdict where
  /-- The call is over; `notify` says whether all sleepers are woken first. -/
  | answer (a : Answer) (notify : Bool)
  /-- A vacant slot was claimed and a connection is to be opened for it, without the lock. -/
  | reopen
  /-- Wait until woken, or until the given time. -/
  | sleep (wakeAt : Option Time)
  deriving DecidableEq, Repr

namespace Ledger

/-- A new arrival takes the next ticket and the last place. -/
def enqueue (l : Ledger) : Ledger :=
  { l with waiters := l.waiters ++ [l.nextTicket], nextTicket := l.nextTicket + 1 }

/-- The queue without a ticket. -/
def leave (l : Ledger) (t : Ticket) : Ledger :=
  { l with waiters := l.waiters.filter (· != t) }

/-- Whether a time is given and has been reached. -/
def reached (now : Time) : Option Time → Bool
  | none => false
  | some at_ => at_ ≤ now

/-- The earlier of two times, where an absent one is never. -/
def earlier : Option Time → Option Time → Option Time
  | none, b => b
  | a, none => a
  | some a, some b => some (min a b)

/-- The end of a look that found nothing: the deadline has passed, or the caller sleeps. It is
woken at its deadline, and at its retry time if a slot is vacant. -/
def wait (l : Ledger) (now : Time) (t : Ticket) (deadline retryAt : Option Time) :
    Ledger × Verdict :=
  if reached now deadline then (l.leave t, .answer .timedOut true)
  else (l, .sleep (if l.vacant > 0 then earlier deadline retryAt else deadline))

/-- One look of the caller with ticket `t` at the ledger. A closed pool ends the call. Only the
front of the queue is served: with the longest idle connection, or with a vacant slot unless its
own retry time is still to come. -/
def attend (l : Ledger) (now : Time) (t : Ticket) (deadline retryAt : Option Time) :
    Ledger × Verdict :=
  if l.closed then (l.leave t, .answer .closed true)
  else if l.waiters.head? = some t then
    match l.idle with
    | c :: rest =>
      ({ l with idle := rest, waiters := l.waiters.tail, inUse := l.inUse + 1 },
        .answer (.connection c) (!rest.isEmpty || l.vacant > 0))
    | [] =>
      if l.vacant > 0 ∧ (retryAt = none ∨ reached now retryAt) then
        ({ l with vacant := l.vacant - 1, inUse := l.inUse + 1, waiters := l.waiters.tail },
          .reopen)
      else l.wait now t deadline retryAt
  else l.wait now t deadline retryAt

/-- A failed reopen: the slot is vacant again and the caller returns to the front of the queue. -/
def rejoin (l : Ledger) (t : Ticket) : Ledger :=
  { l with inUse := l.inUse - 1, vacant := l.vacant + 1, waiters := t :: l.waiters }

/-- A borrowed connection comes back: a broken one leaves a vacant slot, any other is idle again. -/
def takeBack (l : Ledger) (c : ConnId) (broken : Bool) : Ledger :=
  if broken then { l with inUse := l.inUse - 1, vacant := l.vacant + 1 }
  else { l with inUse := l.inUse - 1, idle := l.idle ++ [c] }

end Ledger

end PooledStore.Pool
