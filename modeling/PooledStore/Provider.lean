import PooledStore.Text.Blank

/-!
# Providers

The two kinds of backing store, and the names under which a configuration may ask for them.
-/

namespace PooledStore

/-- A kind of backing store. -/
inductive Provider where
  /-- A store in one file, used by this process. -/
  | sqlite
  /-- A store behind a network connection. -/
  | postgres
  deriving DecidableEq, Repr

namespace Provider

/-- The name in configurations and messages. -/
def name : Provider → String
  | .sqlite => "sqlite"
  | .postgres => "postgresql"

/-- The extension of migration scripts written for this provider alone. -/
def extension : Provider → String
  | .sqlite => "sqlite"
  | .postgres => "postgresql"

/-- The name when a value is printed for debugging. -/
def debug : Provider → String
  | .sqlite => "Sqlite"
  | .postgres => "Postgres"

/-- The providers by the names that ask for them. -/
def table : List (String × Provider) :=
  [("sqlite", .sqlite), ("embedded-file", .sqlite), ("postgresql", .postgres),
    ("postgres", .postgres), ("networked", .postgres)]

/-- The provider that a text names, with white space around it and ASCII case ignored. -/
def ofName? (s : String) : Option Provider := table.lookup (Text.asciiLower (Text.trim s))

/-- The message about a text that names no provider. It shows the text as it was given. -/
def unknownMessage (s : String) : String := "unknown database provider: " ++ s

end Provider

end PooledStore
