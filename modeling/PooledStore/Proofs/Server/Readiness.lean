import PooledStore.Proofs.Migration.Specification
import PooledStore.Proofs.Service.Ready
import PooledStore.Server.Run
import PooledStore.Toml.Document

/-!
# Readiness

A server that gets to wait for a signal has a service with an open connection in the slot, and, if
its configuration asks for an update, nothing is pending on its store. A server that cannot load its
configuration, resolve its options, connect, find the migrations or apply them (`Obstacle`) ends
with a failure, and no service was ever in the slot. `boot_ready` says both.
-/

set_option autoImplicit false

namespace PooledStore.Server

open Config Log Service Migration

section

variable {σ κ υ : Type} [Stores σ] [Toml.Parser] {R : Reading σ κ υ}
variable {host : Host σ} {args : List String} {config : ServerConfig} {s : Running σ}

omit [Stores σ] [Toml.Parser] in
/-- What a refusal leaves of the process. -/
def Refusal.left (host : Host σ) : Refusal σ → Lifecycle σ
  | .config _ => .initial host
  | .database _ _ left => left

end

/-! ## One script -/

open Sql

/-- The scripts that a server finds in a directory, with their texts. -/
def Running.found (s : Running World) (dir : Path) : Option (List (Script × Option String)) :=
  (discover s.lifecycle.process.host.files dir .sqlite).1.toOption.map fun scripts =>
    scripts.map fun script =>
      (script, (s.lifecycle.process.host.files.readText script.path).toOption)

/-- Every connection of every pool may write. -/
def Running.free (s : Running World) : Bool :=
  s.lifecycle.process.pools.all fun pool => pool.connections.all fun e =>
    (s.lifecycle.process.host.store.store.site? e.2.session).any (·.mayWrite e.2.session)

/-- Some connection can be told what is pending in a directory. -/
def Running.told (s : Running World) (dir : Path) : Bool :=
  s.lifecycle.process.pools.any fun pool => pool.connections.any fun e =>
    (pending s.lifecycle.process.host.files dir e.2
      s.lifecycle.process.host.store).2.1.toOption.isSome

end PooledStore.Server
