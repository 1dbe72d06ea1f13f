import PooledStore.Provider
import PooledStore.Toml.Value

/-!
# Database settings

The settings of the database as a configuration file gives them, before the provider's name is
looked at. Every key may be absent and then has its default; unknown keys are ignored; a known key
whose value has the wrong type or is out of range spoils the whole document, whether the provider
uses it or not.
-/

namespace PooledStore.Config

open Toml

/-! ## Reading single keys -/

/-- A text, or the default where the key is absent; `none` for any other value. -/
def textOr (es : Entries) (key : String) (d : String) : Option String :=
  match es.get? key with
  | none => some d
  | some (.text s) => some s
  | some _ => none

/-- A text that may be absent. -/
def optionalText (es : Entries) (key : String) : Option (Option String) :=
  match es.get? key with
  | none => some none
  | some (.text s) => some (some s)
  | some _ => none

/-- A whole number from zero to `most`. -/
def naturalOr (es : Entries) (key : String) (most d : Nat) : Option Nat :=
  match es.get? key with
  | none => some d
  | some (.integer n) => if 0 ≤ n ∧ n ≤ most then some n.toNat else none
  | some _ => none

/-- A truth value. -/
def flagOr (es : Entries) (key : String) (d : Bool) : Option Bool :=
  match es.get? key with
  | none => some d
  | some (.boolean b) => some b
  | some _ => none

/-! ## The settings -/

/-- The settings of the database. The directory is for the embedded store, what follows it for
the networked one. -/
structure Settings where
  provider : String
  directory : Option String
  host : String
  port : Nat
  database : String
  user : String
  password : String
  timeoutSeconds : Nat
  deriving DecidableEq, Repr

namespace Settings

/-- What holds where nothing is set. -/
def defaults : Settings where
  provider := Provider.sqlite.name
  directory := none
  host := "localhost"
  port := 5432
  database := "quire"
  user := "postgres"
  password := ""
  timeoutSeconds := 10

/-- The largest port number. -/
def maxPort : Nat := 65535

/-- The largest number of seconds. -/
def maxSeconds : Nat := 0xFFFFFFFFFFFFFFFF

/-- The settings that the keys of a document give. -/
def ofEntries? (es : Entries) : Option Settings := do
  let provider ← textOr es "provider" defaults.provider
  let directory ← optionalText es "directory"
  let host ← textOr es "host" defaults.host
  let port ← naturalOr es "port" maxPort defaults.port
  let database ← textOr es "database" defaults.database
  let user ← textOr es "user" defaults.user
  let password ← textOr es "password" defaults.password
  let timeoutSeconds ← naturalOr es "connection-timeout-seconds" maxSeconds defaults.timeoutSeconds
  return ⟨provider, directory, host, port, database, user, password, timeoutSeconds⟩

/-- The settings that a text gives, if it is a document of settings. -/
def ofText? [Parser] (s : String) : Option Settings := (Parser.parse s).bind ofEntries?

end Settings

end PooledStore.Config
