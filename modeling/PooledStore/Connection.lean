import PooledStore.Config.Options

/-!
# Connections

What the process does with the stores behind its connections. The stores themselves are elsewhere:
`Stores` is what can be asked of them, over a state that stands for all of them. A store gives its
reasons as texts; `ConnectionError` says in addition what kind of store it was.

* `Connection`: a session with a store of some provider.
* `Stores`: opening, using and closing sessions.
* `Connection.executeBatch`, `Connection.ping`: what anyone may do with a connection.
-/

namespace PooledStore

open Config

/-- A session, by its number. -/
abbrev SessionId := Nat

/-- One live session with a store. -/
structure Connection where
  provider : Provider
  session : SessionId
  deriving DecidableEq, Repr

/-- How an attempt to reach a networked store ends. -/
inductive Dialled where
  | answered (session : SessionId)
  | failed (cause : String)
  /-- There was no answer within the time allowed. -/
  | late

/-- What can be asked of stores, over a state `σ` that they and their sessions are in. Failures are
given as they are displayed. -/
class Stores (σ : Type) where
  /-- Opens a session on the database in a file, which is made where it is not there. -/
  openFile : Path → FileTree → σ → FileTree × σ × Except String SessionId
  /-- Asks for a write-ahead journal; the answer is the name of the journal that is kept. -/
  setJournal : Connection → σ → σ × Except String String
  /-- Has foreign keys checked, and says how many milliseconds to wait for the right to write. -/
  configure : Connection → Nat → σ → σ × Except String Unit
  /-- Asks a networked store for a session. -/
  dial : NetworkOptions → σ → σ × Dialled
  close : Connection → σ → σ
  /-- Asks for a round trip to the store. -/
  ping : Connection → σ → σ × Except String Unit
  /-- Runs a text of any number of statements, up to the first that fails. -/
  batch : Connection → String → σ → σ × Except String Unit
  /-- Begins a transaction. -/
  begin : Connection → σ → σ × Except String Unit
  /-- Inserts a row into the table of records: a version, and the time at which it is applied. -/
  record : Connection → Int → String → σ → σ × Except String Unit
  /-- The largest version in the table of records, if it has rows. -/
  largest : Connection → σ → σ × Except String (Option Int)
  commit : Connection → σ → σ × Except String Unit
  /-- Gives up a transaction that was begun and not committed. -/
  abandon : Connection → σ → σ

/-- Why a connection cannot be opened or used. -/
inductive ConnectionError where
  | sqlite (cause : String)
  | network (cause : String)
  /-- There was no answer within so many seconds. -/
  | timeout (seconds : Nat)
  /-- What drives networked connections could not be started. -/
  | runtime (cause : String)
  deriving DecidableEq, Repr

namespace ConnectionError

/-- The error as it is displayed. -/
def message : ConnectionError → String
  | .sqlite cause => "sqlite error: " ++ cause
  | .network cause => "postgresql error: " ++ cause
  | .timeout seconds =>
    "timed out after " ++ toString seconds ++ "s connecting to the database server"
  | .runtime cause => "failed to start database runtime: " ++ cause

/-- The error for a cause that a store of this kind has given. -/
def ofStore : Provider → String → ConnectionError
  | .sqlite => .sqlite
  | .postgres => .network

end ConnectionError

namespace Connection

variable {σ : Type} [Stores σ]

/-- The result of an operation, its failure as one of this connection. -/
def answer {α : Type} (c : Connection) (r : σ × Except String α) :
    σ × Except ConnectionError α :=
  (r.1, r.2.mapError (.ofStore c.provider))

/-- Runs statements that return no rows. -/
def executeBatch (c : Connection) (text : String) (st : σ) : σ × Except ConnectionError Unit :=
  c.answer (Stores.batch c text st)

/-- Asks the store for a sign that the session can still be used. -/
def ping (c : Connection) (st : σ) : σ × Except ConnectionError Unit :=
  c.answer (Stores.ping c st)

/-- The connection as it is printed for debugging. -/
def debug (c : Connection) : String := "Connection(" ++ c.provider.debug ++ ")"

end Connection

end PooledStore
