import PooledStore.Sql.Value

/-!
# SQL statements

The statements that scripts are made of, as they are read. Names that may turn out to be unknown
carry their place in the text.
-/

namespace PooledStore.Sql

/-- Operators between two operands. -/
inductive Operator where
  | or
  | and
  | equal
  | unequal
  | less
  | lessOrEqual
  | greater
  | greaterOrEqual
  | identical
  | distinct
  | add
  | subtract
  | multiply
  | divide
  | remainder
  | concat
  deriving DecidableEq, Repr

/-- Expressions. A name in double quotes that names no column is a string. A column may be named
after its table. -/
inductive Expr where
  | literal (v : Value)
  | column (table : Option String) (name : String) (quoted : Bool) (pos : Nat)
  | negate (e : Expr)
  | not (e : Expr)
  | isNull (e : Expr) (negated : Bool)
  | binary (op : Operator) (a b : Expr)
  | call (function : String) (args : List Expr) (pos : Nat)
  deriving Repr

/-- What a foreign key refers to; without columns it refers to the primary key. -/
structure Reference where
  table : String
  columns : List String
  /-- Checked at the end of the transaction and not of the statement. -/
  deferred : Bool
  deriving DecidableEq, Repr

/-- What is declared of a column after its type. -/
inductive ColumnRule where
  | primaryKey (autoincrement : Bool)
  | notNull
  | unique
  | default (e : Expr)
  | references (r : Reference)
  /-- Changes the reference before it. -/
  | deferrable (deferred : Bool)
  | other
  deriving Repr

/-- A column as it is declared. -/
structure ColumnDecl where
  name : String
  type : String
  rules : List ColumnRule
  deriving Repr

/-- A column that a rule or an index names, with its place. -/
structure IndexedColumn where
  name : String
  pos : Nat
  deriving DecidableEq, Repr

/-- What is declared after the columns. -/
inductive TableRule where
  | primaryKey (columns : List IndexedColumn)
  | unique (columns : List IndexedColumn)
  | foreignKey (columns : List String) (r : Reference)
  | other
  deriving Repr

/-- A column of a query's answer, perhaps with a name of its own. -/
inductive Projection where
  | all
  | expr (e : Expr) (label : Option String)
  deriving Repr

/-- How a transaction begins. -/
inductive BeginMode where
  /-- Locks are taken when they are needed. -/
  | deferred
  /-- The right to write is taken at once. -/
  | immediate
  deriving DecidableEq, Repr

/-- The statements. A table that is created carries its name also as it is written. -/
inductive Statement where
  | createTable (temporary ifNotExists : Bool) (name written : String) (pos : Nat)
      (columns : List ColumnDecl) (rules : List TableRule)
  | createIndex (unique ifNotExists : Bool) (name table : String) (columns : List IndexedColumn)
  | dropTable (ifExists : Bool) (name : String)
  | dropIndex (ifExists : Bool) (name : String)
  | insert (table : String) (columns : Option (List String)) (rows : List (List Expr))
  | insertDefaults (table : String)
  | delete (table : String) (condition : Option Expr)
  | update (table : String) (changes : List (String × Expr)) (condition : Option Expr)
  | select (columns : List Projection) (table : Option (String × Option String))
      (conditions : List Expr)
  | values (rows : List (List Expr))
  | begin (mode : BeginMode)
  | commit
  | rollback
  deriving Repr

end PooledStore.Sql
