import PooledStore.Path

/-!
# SQL errors

Why a script, a statement or a query fails in an embedded store. An error found while a statement
is read may be tied to a place in its text.
-/

namespace PooledStore.Sql

/-- The causes of failure. -/
inductive Error where
  | syntaxNear (token : String)
  | unrecognized (token : String)
  | incompleteInput
  | tableExists (name : String)
  | indexExists (name : String)
  | tableNamed (name : String)
  | indexNamed (name : String)
  | reservedName (name : String)
  | noSuchTable (name : String)
  | noSuchIndex (name : String)
  | noSuchColumn (name : String)
  | noSuchFunction (name : String)
  | unknownColumn (table column : String)
  | duplicateColumn (name : String)
  | manyPrimaryKeys (table : String)
  | misplacedAutoincrement
  | unknownTableOption (name : String)
  | unknownKeyColumn (name : String)
  | unevenKey
  | noTables
  | valuesForColumns (values columns : Nat)
  | columnsButValues (table : String) (columns values : Nat)
  | unevenValues
  | uniqueFailed (table : String) (columns : List String)
  | notNullFailed (table column : String)
  | foreignKeyFailed
  | foreignKeyMismatch (child parent : String)
  | datatypeMismatch
  /-- No number is left for a new row. -/
  | full
  | nestedTransaction
  | nothingToCommit
  | nothingToRollBack
  | locked
  | notADatabase
  | cannotOpen (file : Path)
  /-- A file's name holds the byte that ends names, at this place. -/
  | nulInName (pos : Nat)
  /-- A query's answer is not of the kind that is asked for. -/
  | wrongType (type : String) (index : Nat) (column : String)
  | noRows
  deriving DecidableEq, Repr

/-- The error as it is displayed. -/
def Error.message : Error → String
  | .syntaxNear token => "near \"" ++ token ++ "\": syntax error"
  | .unrecognized token => "unrecognized token: \"" ++ token ++ "\""
  | .incompleteInput => "incomplete input"
  | .tableExists name => "table " ++ name ++ " already exists"
  | .indexExists name => "index " ++ name ++ " already exists"
  | .tableNamed name => "there is already a table named " ++ name
  | .indexNamed name => "there is already an index named " ++ name
  | .reservedName name => "object name reserved for internal use: " ++ name
  | .noSuchTable name => "no such table: " ++ name
  | .noSuchIndex name => "no such index: " ++ name
  | .noSuchColumn name => "no such column: " ++ name
  | .noSuchFunction name => "no such function: " ++ name
  | .unknownColumn table column => "table " ++ table ++ " has no column named " ++ column
  | .duplicateColumn name => "duplicate column name: " ++ name
  | .manyPrimaryKeys table => "table \"" ++ table ++ "\" has more than one primary key"
  | .misplacedAutoincrement => "AUTOINCREMENT is only allowed on an INTEGER PRIMARY KEY"
  | .unknownTableOption name => "unknown table option: " ++ name
  | .unknownKeyColumn name => "unknown column \"" ++ name ++ "\" in foreign key definition"
  | .unevenKey =>
    "number of columns in foreign key does not match the number of columns in the referenced table"
  | .noTables => "no tables specified"
  | .valuesForColumns values columns =>
    toString values ++ " values for " ++ toString columns ++ " columns"
  | .columnsButValues table columns values =>
    "table " ++ table ++ " has " ++ toString columns ++ " columns but " ++ toString values ++
      " values were supplied"
  | .unevenValues => "all VALUES must have the same number of terms"
  | .uniqueFailed table columns =>
    "UNIQUE constraint failed: " ++
      String.intercalate ", " (columns.map fun c => table ++ "." ++ c)
  | .notNullFailed table column => "NOT NULL constraint failed: " ++ table ++ "." ++ column
  | .foreignKeyFailed => "FOREIGN KEY constraint failed"
  | .foreignKeyMismatch child parent =>
    "foreign key mismatch - \"" ++ child ++ "\" referencing \"" ++ parent ++ "\""
  | .datatypeMismatch => "datatype mismatch"
  | .full => "database or disk is full"
  | .nestedTransaction => "cannot start a transaction within a transaction"
  | .nothingToCommit => "cannot commit - no transaction is active"
  | .nothingToRollBack => "cannot rollback - no transaction is active"
  | .locked => "database is locked"
  | .notADatabase => "file is not a database"
  | .cannotOpen file => "unable to open database file: " ++ file.display
  | .nulInName pos => "nul byte found in provided data at position: " ++ toString pos
  | .wrongType type index column =>
    "Invalid column type " ++ type ++ " at index: " ++ toString index ++ ", name: " ++ column
  | .noRows => "Query returned no rows"

/-- An error and, where one is known, its place: the text from the failing statement on, and the
number of bytes in it before the place. -/
structure Failure where
  error : Error
  place : Option (String × Nat)
  deriving DecidableEq, Repr

/-- The failure as it is displayed. -/
def Failure.message (f : Failure) : String :=
  match f.place with
  | none => f.error.message
  | some (sql, offset) => f.error.message ++ " in " ++ sql ++ " at offset " ++ toString offset

/-- An error on which no place is known. -/
def Error.nowhere (e : Error) : Failure := ⟨e, none⟩

/-- An error found while a statement is read, with its place as a number of characters. -/
structure Fault where
  error : Error
  pos : Option Nat
  deriving DecidableEq, Repr

/-- The fault as a failure of the text that was read. -/
def Fault.inText (f : Fault) (sql : List Char) : Failure :=
  ⟨f.error, f.pos.map fun n =>
    (String.ofList sql, (Text.encode (String.ofList (sql.take n))).length)⟩

end PooledStore.Sql
