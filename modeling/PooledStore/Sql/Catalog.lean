import PooledStore.Sql.Error
import PooledStore.Sql.Statement
import PooledStore.Text.Blank

/-!
# Catalogs

The tables of a database with their rows, and its indexes, as one value. A statement is first
checked against the catalog, which finds unknown names and says whether it writes; then
`Catalog.run` carries it out, which finds violated constraints. A statement that fails changes
nothing.

* `Catalog.check`, `Catalog.run`: the two halves of a statement.
* `Catalog.dangling`: the rows whose foreign keys lead nowhere.
-/

namespace PooledStore.Sql

/-- Names are compared without regard to ASCII case. -/
def sameName (a b : String) : Bool := Text.asciiLower a == Text.asciiLower b

/-- A column of a table. -/
structure Column where
  name : String
  affinity : Affinity
  notNull : Bool
  default : Option Expr
  deriving Repr

/-- A foreign key: columns by number, and what they refer to. -/
structure ForeignKey where
  columns : List Nat
  parent : String
  parentColumns : List String
  deferred : Bool
  deriving DecidableEq, Repr

/-- A row: its number and its cells. -/
structure Row where
  id : Int
  cells : List Value
  deriving DecidableEq, Repr

/-- A table. Its rows are in the order of their numbers. -/
structure Table where
  name : String
  columns : List Column
  /-- The column that holds the row's number, if one does. -/
  idColumn : Option Nat
  /-- Numbers of removed rows are never given again. -/
  autoincrement : Bool
  lastId : Int
  /-- Groups of columns whose values are unique, the one last declared first. -/
  uniques : List (List Nat)
  primaryKey : List Nat
  foreignKeys : List ForeignKey
  rows : List Row
  deriving Repr

/-- An index. -/
structure Index where
  name : String
  table : String
  unique : Bool
  columns : List Nat
  deriving DecidableEq, Repr

/-- The tables and indexes of a database. -/
structure Catalog where
  tables : List Table
  indexes : List Index
  deriving Repr

/-- A database with nothing in it. -/
def Catalog.empty : Catalog := ⟨[], []⟩

/-! ## Looking up names -/

namespace Table

def columnIndex? (t : Table) (name : String) : Option Nat :=
  t.columns.findIdx? (sameName ·.name name)

/-- Names that every table's row number answers to. -/
def isRowIdName (name : String) : Bool :=
  ["rowid", "oid", "_rowid_"].contains (Text.asciiLower name)

def knowsColumn (t : Table) (name : String) : Bool :=
  (t.columnIndex? name).isSome || isRowIdName name

/-- The table answers to the name that a column is given after. -/
def answersTo (t : Table) (qualifier : Option String) : Bool :=
  (qualifier.map (sameName t.name)).getD true

def columnName (t : Table) (i : Nat) : String := ((t.columns[i]?).map (·.name)).getD ""

end Table

namespace Catalog

def table? (c : Catalog) (name : String) : Option Table := c.tables.find? (sameName ·.name name)

/-- The names of all tables. -/
def tableNames (c : Catalog) : List String := c.tables.map (·.name)

/-- The rows of all tables, and the indexes. -/
def contents (c : Catalog) : List (String × List Row) × List Index :=
  (c.tables.map fun t => (t.name, t.rows), c.indexes)

def index? (c : Catalog) (name : String) : Option Index := c.indexes.find? (sameName ·.name name)

/-- The catalog with a table in place of the one of its name. -/
def setTable (c : Catalog) (t : Table) : Catalog :=
  { c with tables := c.tables.map fun u => if sameName u.name t.name then t else u }

/-- The groups of columns of a table whose values are unique, by declaration or by an index. -/
def uniquesOf (c : Catalog) (t : Table) : List (List Nat) :=
  ((c.indexes.filter fun i => i.unique && sameName i.table t.name).reverse.map (·.columns)) ++
    t.uniques

end Catalog

/-! ## Expressions -/

/-- What the columns of an expression stand for. -/
structure Scope where
  table : Table
  row : Row

namespace Expr

/-- Functions of one row, and functions of all rows. -/
def functions : List String :=
  ["abs", "coalesce", "ifnull", "length", "lower", "typeof", "upper", "avg", "count", "max", "min",
    "sum", "total"]

mutual

/-- The first name in an expression that is unknown where the columns of `t` can be used. -/
def unknown? (t : Option Table) : Expr → Option Fault
  | .literal _ => none
  | .column qualifier name quoted pos =>
    if quoted || (t.map fun t => t.answersTo qualifier && t.knowsColumn name).getD false then none
    else
      match qualifier with
      | some q => some ⟨.noSuchColumn (q ++ "." ++ name), some pos⟩
      | none =>
        if ["true", "false"].contains (Text.asciiLower name) then none
        else some ⟨.noSuchColumn name, some pos⟩
  | .negate e => unknown? t e
  | .not e => unknown? t e
  | .isNull e _ => unknown? t e
  | .binary _ a b => (unknown? t a).or (unknown? t b)
  | .call f args pos =>
    if functions.contains (Text.asciiLower f) then unknownAmong? t args
    else some ⟨.noSuchFunction f, some pos⟩

def unknownAmong? (t : Option Table) : List Expr → Option Fault
  | [] => none
  | e :: es => (unknown? t e).or (unknownAmong? t es)

end

mutual

/-- No column is named in the expression. -/
def isConstant : Expr → Bool
  | .literal _ => true
  | .column q name quoted _ =>
    q.isNone && !quoted && ["true", "false"].contains (Text.asciiLower name)
  | .negate e => isConstant e
  | .not e => isConstant e
  | .isNull e _ => isConstant e
  | .binary _ a b => isConstant a && isConstant b
  | .call _ args _ => areConstant args

def areConstant : List Expr → Bool
  | [] => true
  | e :: es => isConstant e && areConstant es

end

/-- The affinity of a column, where an expression is one. -/
def affinity? (scope : Option Scope) : Expr → Option Affinity
  | .column _ name _ _ =>
    scope.bind fun s => (s.table.columnIndex? name).bind fun i =>
      (s.table.columns[i]?).map (·.affinity)
  | _ => none

def truth (b : Bool) : Value := .integer (if b then 1 else 0)

/-- A value as a number, for arithmetic: `none` for null. -/
def number? : Value → Option Value
  | .null => none
  | .text s => some ((Value.numberOfText? s).getD (.integer 0))
  | .blob _ => some (.integer 0)
  | v => some v

/-- A value as a whole number. -/
def whole? (v : Value) : Option Int :=
  (number? v).map fun
    | .integer n => n
    | .real d p => d.tdiv (Nat.pow 10 p)
    | _ => 0

/-- The truth of a value: `none` for null. -/
def isTrue? (v : Value) : Option Bool :=
  (number? v).map fun
    | .integer n => n != 0
    | .real d _ => d != 0
    | _ => false

/-- What a sum, a difference or a product makes of two numbers: a real number as soon as one of
them is, or an integer would not fit. -/
def combine (f : Int → Int → Int) (scaled : Bool) (a b : Value) : Value :=
  match a, b with
  | .integer x, .integer y => if Value.fits (f x y) then .integer (f x y) else .real (f x y) 0
  | a, b =>
    match a.decimal?, b.decimal? with
    | some (x, p), some (y, q) =>
      if scaled then .ofDecimal (f x y) (p + q)
      else .ofDecimal (f (x * Nat.pow 10 q) (y * Nat.pow 10 p)) (p + q)
    | _, _ => .null

/-- The values to be compared, each taken as the other side's column would take it. -/
def aligned (fa fb : Option Affinity) (a b : Value) : Value × Value :=
  let numeric (f : Option Affinity) : Bool :=
    f = some .integer || f = some .numeric || f = some .real
  if numeric fa || numeric fb then (a.coerce .numeric, b.coerce .numeric)
  else if fa = some .text && fb.isNone then (a, b.coerce .text)
  else if fb = some .text && fa.isNone then (a.coerce .text, b)
  else (a, b)

/-- What an operator makes of two values, given the affinities of columns on its sides. -/
def operate (op : Operator) (fa fb : Option Affinity) (a b : Value) : Value :=
  let compare (test : Value → Value → Bool) : Value :=
    if a = .null || b = .null then .null
    else
      let (x, y) := aligned fa fb a b
      truth (test x y)
  let arithmetic (f : Value → Value → Value) : Value :=
    match number? a, number? b with
    | some x, some y => f x y
    | _, _ => .null
  let division (f : Int → Int → Int) : Value :=
    match whole? a, whole? b with
    | some x, some y => if y = 0 then .null else .integer (f x y)
    | _, _ => .null
  match op with
  | .or =>
    match isTrue? a, isTrue? b with
    | some true, _ => truth true
    | _, some true => truth true
    | some false, some false => truth false
    | _, _ => .null
  | .and =>
    match isTrue? a, isTrue? b with
    | some false, _ => truth false
    | _, some false => truth false
    | some true, some true => truth true
    | _, _ => .null
  | .equal => compare fun x y => x.same y
  | .unequal => compare fun x y => !x.same y
  | .less => compare fun x y => x.before y
  | .lessOrEqual => compare fun x y => !y.before x
  | .greater => compare fun x y => y.before x
  | .greaterOrEqual => compare fun x y => !x.before y
  | .identical =>
    let (x, y) := aligned fa fb a b
    truth (x.same y)
  | .distinct =>
    let (x, y) := aligned fa fb a b
    truth (!x.same y)
  | .add => arithmetic (combine (· + ·) false)
  | .subtract => arithmetic (combine (· - ·) false)
  | .multiply => arithmetic (combine (· * ·) true)
  | .divide => division Int.tdiv
  | .remainder => division Int.tmod
  | .concat =>
    match a.asText, b.asText with
    | some s, some t => .text (s ++ t)
    | _, _ => .null

/-- What a function makes of its arguments. Functions of all rows have no value here. -/
def apply (f : String) (args : List Value) : Value :=
  match Text.asciiLower f, args with
  | "abs", [v] => ((whole? v).map fun n => Value.integer n.natAbs).getD .null
  | "length", [v] => (v.asText.map fun s => Value.integer s.length).getD .null
  | "lower", [v] => (v.asText.map fun s => Value.text (Text.asciiLower s)).getD .null
  | "upper", [v] =>
    (v.asText.map fun s => Value.text (String.ofList (s.toList.map Char.toUpper))).getD .null
  | "typeof", [v] => .text (Text.asciiLower v.typeName)
  | "coalesce", vs => (vs.find? (· != .null)).getD .null
  | "ifnull", vs => (vs.find? (· != .null)).getD .null
  | _, _ => .null

mutual

/-- The value of an expression, in which columns stand for the cells of a row. -/
def eval (scope : Option Scope) : Expr → Value
  | .literal v => v
  | .column _ name quoted _ =>
    match scope.bind fun s => (s.table.columnIndex? name).bind fun i => s.row.cells[i]? with
    | some v => v
    | none =>
      if quoted then .text name
      else if Text.asciiLower name = "true" then truth true
      else if Text.asciiLower name = "false" then truth false
      else ((scope.map fun s => Value.integer s.row.id)).getD .null
  | .negate e =>
    match e with
    | .literal (.real d 0) => (Value.real (-d) 0).narrowed
    | _ => operate .subtract none none (.integer 0) (eval scope e)
  | .not e => ((isTrue? (eval scope e)).map fun b => truth (!b)).getD .null
  | .isNull e negated => truth ((eval scope e = .null) != negated)
  | .binary op a b =>
    operate op (affinity? scope a) (affinity? scope b) (eval scope a) (eval scope b)
  | .call f args _ => apply f (evalAll scope args)

def evalAll (scope : Option Scope) : List Expr → List Value
  | [] => []
  | e :: es => eval scope e :: evalAll scope es

end

end Expr

/-! ## Building tables -/

namespace Table

/-- The reference of a column and its place in time: a later rule may defer it. -/
def columnReferences : List ColumnRule → Option Reference → List Reference
  | [], r => r.toList
  | .references r :: rest, earlier => earlier.toList ++ columnReferences rest (some r)
  | .deferrable d :: rest, some r => columnReferences rest (some { r with deferred := d })
  | _ :: rest, r => columnReferences rest r

def isPrimary : ColumnRule → Option Bool
  | .primaryKey auto => some auto
  | _ => none

def defaultOf : ColumnRule → Option Expr
  | .default e => some e
  | _ => none

/-- A declared column. -/
def columnOf (d : ColumnDecl) : Column where
  name := d.name
  affinity := .ofType d.type
  notNull := d.rules.any fun | .notNull => true | _ => false
  default := (d.rules.filterMap defaultOf).getLast?

/-- The first name that stands for two columns. -/
def repeated? : List String → Option String
  | [] => none
  | n :: rest => if rest.any (sameName n) then some n else repeated? rest

/-- The first fault in a rule on columns of the given names. -/
def ruleFault? (known : String → Bool) : TableRule → Option Fault
  | .primaryKey cs => (cs.find? (!known ·.name)).map fun c => ⟨.noSuchColumn c.name, some c.pos⟩
  | .unique cs => (cs.find? (!known ·.name)).map fun c => ⟨.noSuchColumn c.name, some c.pos⟩
  | .foreignKey ns r =>
    if !r.columns.isEmpty && r.columns.length != ns.length then some ⟨.unevenKey, none⟩
    else (ns.find? (!known ·)).map fun n => ⟨.unknownKeyColumn n, none⟩
  | .other => none

/-- A table as it is declared, without rows. -/
def ofDecl (name : String) (columns : List ColumnDecl) (rules : List TableRule) :
    Except Fault Table := do
  if let some n := repeated? (columns.map (·.name)) then throw ⟨.duplicateColumn n, none⟩
  let index (n : String) : Nat := (columns.findIdx? (sameName ·.name n)).getD columns.length
  let byColumn := columns.zipIdx.flatMap fun (d, i) =>
    (d.rules.filterMap isPrimary).map fun auto => ([i], auto)
  let byTable := rules.filterMap fun
    | .primaryKey cs => some (cs.map (index ·.name), false)
    | _ => none
  let keys := byColumn ++ byTable
  if 1 < keys.length then throw ⟨.manyPrimaryKeys name, none⟩
  if let some f := rules.findSome? (ruleFault? fun n => columns.any (sameName ·.name n)) then
    throw f
  let isInteger (i : Nat) : Bool :=
    ((columns[i]?).map fun d => Text.asciiLower d.type == "integer").getD false
  let key := (keys.head?.map (·.1)).getD []
  let auto := (keys.head?.map (·.2)).getD false
  let idColumn :=
    match key with
    | [i] => if isInteger i then some i else none
    | _ => none
  if auto && idColumn.isNone then throw ⟨.misplacedAutoincrement, none⟩
  let uniqueColumns := columns.zipIdx.flatMap fun (d, i) =>
    d.rules.filterMap fun
      | .unique => some [i]
      | .primaryKey _ => if idColumn.isNone then some [i] else none
      | _ => none
  let uniqueRules := rules.filterMap fun
    | .unique cs => some (cs.map (index ·.name))
    | .primaryKey cs => if idColumn.isNone then some (cs.map (index ·.name)) else none
    | _ => none
  let keyOf (cols : List Nat) (r : Reference) : ForeignKey :=
    ⟨cols, r.table, r.columns, r.deferred⟩
  let columnKeys := columns.zipIdx.flatMap fun (d, i) =>
    (columnReferences d.rules none).map (keyOf [i])
  let ruleKeys := rules.filterMap fun
    | .foreignKey ns r => some (keyOf (ns.map index) r)
    | _ => none
  return {
    name := name
    columns := columns.map columnOf
    idColumn := idColumn
    autoincrement := auto
    lastId := 0
    uniques := (uniqueColumns ++ uniqueRules).reverse
    primaryKey := key
    foreignKeys := columnKeys ++ ruleKeys
    rows := [] }

/-! ## Changing rows -/

/-- The cells in some columns. -/
def pick (columns : List Nat) (cells : List Value) : List Value :=
  columns.map fun i => (cells[i]?).getD .null

/-- Whether two rows agree in columns where neither has null. -/
def clash (columns : List Nat) (a b : Row) : Bool :=
  let x := pick columns a.cells
  let y := pick columns b.cells
  !x.contains .null && (x.zip y).all fun p => p.2 != .null && p.1.same p.2

/-- Why a row cannot stand beside the others, if it cannot. -/
def refusal? (t : Table) (uniques : List (List Nat)) (others : List Row) (r : Row) :
    Option Error :=
  let missing := t.columns.zipIdx.find? fun (c, i) =>
    c.notNull && t.idColumn != some i && r.cells[i]? = some .null
  match missing with
  | some (c, _) => some (.notNullFailed t.name c.name)
  | none =>
    if others.any (·.id = r.id) then
      some (.uniqueFailed t.name [(t.idColumn.map t.columnName).getD "rowid"])
    else
      (uniques.find? fun u => others.any (clash u r)).map fun u =>
        .uniqueFailed t.name (u.map t.columnName)

/-- Puts a row in its place among rows in the order of their numbers. -/
def place (r : Row) : List Row → List Row
  | [] => [r]
  | s :: rest => if r.id < s.id then r :: s :: rest else s :: place r rest

/-- The number of the next row that is not given one. -/
def nextId (t : Table) : Int :=
  let most := t.rows.foldl
    (fun m r => match m with | none => some r.id | some n => some (max n r.id)) (none : Option Int)
  match most, t.autoincrement with
  | none, false => 1
  | none, true => t.lastId + 1
  | some n, false => n + 1
  | some n, true => max n t.lastId + 1

/-- The cells as the columns take them. -/
def coerced (t : Table) (cells : List Value) : List Value :=
  (t.columns.zip cells).map fun (c, v) => v.coerce c.affinity

/-- The row that cells make, with its number taken from them or given newly. -/
def rowOf (t : Table) (cells : List Value) (newId : Int) : Except Error Row :=
  let cells := t.coerced cells
  match t.idColumn with
  | none => .ok ⟨newId, cells⟩
  | some i =>
    match (cells[i]?).getD .null with
    | .null => .ok ⟨newId, cells.set i (.integer newId)⟩
    | .integer n => .ok ⟨n, cells⟩
    | _ => .error .datatypeMismatch

/-- The largest number of a row. -/
def maxId : Int := 0x7FFFFFFFFFFFFFFF

/-- The table with a new row. -/
def insertRow (t : Table) (uniques : List (List Nat)) (cells : List Value) :
    Except Error Table := do
  let r ← t.rowOf cells t.nextId
  if maxId < r.id then throw .full
  match t.refusal? uniques t.rows r with
  | some e => throw e
  | none => return { t with rows := place r t.rows, lastId := max t.lastId r.id }

/-- The table with another row in place of one. -/
def changeRow (t : Table) (uniques : List (List Nat)) (old : Row) (cells : List Value) :
    Except Error Table := do
  let others := t.rows.filter (·.id != old.id)
  if (t.idColumn.bind (cells[·]?)) = some .null then throw .datatypeMismatch
  let r ← t.rowOf cells old.id
  match t.refusal? uniques others r with
  | some e => throw e
  | none => return { t with rows := place r others, lastId := max t.lastId r.id }

/-- Whether a condition holds of a row; without one it does. -/
def meets (t : Table) (condition : Option Expr) (r : Row) : Bool :=
  match condition with
  | none => true
  | some e => Expr.isTrue? (e.eval (some ⟨t, r⟩)) = some true

/-- The cells of a new row from the values given for some columns; the others have defaults. Of
several values for one column the first counts, but the last for the row's number. -/
def cellsFor (t : Table) (columns : Option (List String)) (values : List Value) : List Value :=
  match columns with
  | none => values
  | some names =>
    let given := names.zip values
    t.columns.zipIdx.map fun (c, i) =>
      let ofColumn (p : String × Value) : Bool := sameName p.1 c.name
      let ofNumber (p : String × Value) : Bool :=
        ofColumn p || (isRowIdName p.1 && (t.columnIndex? p.1).isNone)
      let found :=
        if t.idColumn = some i then given.reverse.find? ofNumber else given.find? ofColumn
      match found with
      | some (_, v) => v
      | none => (c.default.map (Expr.eval none)).getD .null

/-- A table of no name and without columns. -/
def nameless : Table := ⟨"", [], none, false, 0, [], [], [], []⟩

/-- The table with more names of columns. -/
def labelled (t : Table) (labels : List String) : Table :=
  { t with columns := t.columns ++ labels.map fun l => ⟨l, .blob, false, none⟩ }

end Table

/-! ## Statements on catalogs -/

namespace Catalog

/-- The columns that a foreign key refers to in its parent. -/
def parentColumns (k : ForeignKey) (parent : Table) : List Nat :=
  if k.parentColumns.isEmpty then parent.primaryKey
  else k.parentColumns.map fun n => (parent.columnIndex? n).getD parent.columns.length

/-- Whether a row's foreign key leads nowhere. -/
def isDangling (c : Catalog) (k : ForeignKey) (r : Row) : Bool :=
  let key := Table.pick k.columns r.cells
  !key.contains .null &&
    match c.table? k.parent with
    | none => true
    | some parent =>
      let columns := parentColumns k parent
      !parent.rows.any fun p =>
        (key.zip (Table.pick columns p.cells)).all fun (v, w) => v.same w

/-- How many foreign keys lead nowhere, of those checked with the statement, or of those checked
with the transaction. -/
def dangling (c : Catalog) (deferred : Bool) : Nat :=
  let keys (t : Table) : List ForeignKey := t.foreignKeys.filter (·.deferred = deferred)
  (c.tables.flatMap fun t => (keys t).flatMap fun k => t.rows.filter (c.isDangling k)).length

/-- Whether the foreign key of a table refers to something in its parent that can be referred
to. -/
def checkKey (c : Catalog) (t parent : Table) (k : ForeignKey) : Except Fault Unit :=
  let columns := parentColumns k parent
  let isKey := (!columns.isEmpty && columns = parent.primaryKey) ||
    (c.uniquesOf parent).contains columns
  if isKey && columns.length = k.columns.length then .ok ()
  else .error ⟨.foreignKeyMismatch t.name parent.name, none⟩

/-- Whether those foreign keys of a table that a change concerns refer to something that can be
referred to. -/
def checkReferences (c : Catalog) (t : Table) (concerned : ForeignKey → Bool) :
    Except Fault Unit :=
  t.foreignKeys.forM fun k =>
    if !concerned k then .ok ()
    else
      match c.table? k.parent with
      | none => .error ⟨.noSuchTable ("main." ++ k.parent), none⟩
      | some parent => c.checkKey t parent k

/-- Whether those foreign keys that refer to a table, and that a change of it concerns, can refer
to it. -/
def checkReferents (c : Catalog) (parent : Table) (concerned : ForeignKey → Bool) :
    Except Fault Unit :=
  c.tables.forM fun t =>
    t.foreignKeys.forM fun k =>
      if sameName k.parent parent.name && concerned k then c.checkKey t parent k else .ok ()

/-- The table of a name, or the error that there is none. -/
def require (c : Catalog) (name : String) : Except Fault Table :=
  match c.table? name with
  | some t => .ok t
  | none => .error ⟨.noSuchTable name, none⟩

/-- Every name in the expressions is known. -/
def known (t : Option Table) (es : List Expr) : Except Fault Unit :=
  match Expr.unknownAmong? t es with
  | some f => .error f
  | none => .ok ()

/-- All rows are as long as the first one. -/
def even (rows : List (List Expr)) : Except Fault Unit :=
  if rows.all fun r => some r.length = rows.head?.map List.length then .ok ()
  else .error ⟨.unevenValues, none⟩

/-- Rows after the first one that are constant are measured as soon as they are read, before
anything else is known about the statement. -/
def evenFront (rows : List (List Expr)) : Except Fault Unit :=
  match rows.head?, rows.tail.takeWhile (Expr.areConstant ·) with
  | some first, r :: rest => do
    known none first
    even (first :: r :: rest)
  | _, _ => .ok ()

def isReserved (name : String) : Bool :=
  "sqlite_".toList.isPrefixOf (Text.asciiLower name).toList

/-- Checks a statement against the catalog, and says whether it writes. -/
def check (c : Catalog) : Statement → Except Fault Bool
  | .createTable _ lenient name written pos columns rules => do
    if isReserved name then throw ⟨.reservedName name, none⟩
    if (c.table? name).isSome then
      if lenient then return false else throw ⟨.tableExists written, some pos⟩
    if (c.index? name).isSome then throw ⟨.indexNamed name, none⟩
    let _ ← Table.ofDecl name columns rules
    return true
  | .createIndex _ lenient name table columns => do
    match c.table? table with
    | none => throw ⟨.noSuchTable ("main." ++ table), none⟩
    | some t =>
      if isReserved name then throw ⟨.reservedName name, none⟩
      if (c.table? name).isSome then throw ⟨.tableNamed name, none⟩
      if (c.index? name).isSome then
        if lenient then return false else throw ⟨.indexExists name, none⟩
      match columns.find? fun i => (t.columnIndex? i.name).isNone with
      | some i => throw ⟨.noSuchColumn i.name, some i.pos⟩
      | none => return true
  | .dropTable lenient name => do
    if (c.table? name).isNone then
      if lenient then return false else throw ⟨.noSuchTable name, none⟩
    return true
  | .dropIndex lenient name => do
    if (c.index? name).isNone then
      if lenient then return false else throw ⟨.noSuchIndex name, none⟩
    return true
  | .insert table columns rows => do
    evenFront rows
    let t ← c.require table
    if let some names := columns then
      if let some n := names.find? fun n => !t.knowsColumn n then
        throw ⟨.unknownColumn table n, none⟩
    known none rows.flatten
    even rows
    let supplied := (rows.head?.map List.length).getD 0
    match columns with
    | none =>
      if supplied != t.columns.length then
        throw ⟨.columnsButValues table t.columns.length supplied, none⟩
    | some names =>
      if supplied != names.length then throw ⟨.valuesForColumns supplied names.length, none⟩
    c.checkReferences t fun _ => true
    return true
  | .insertDefaults table => do
    let t ← c.require table
    c.checkReferences t fun _ => true
    return true
  | .delete table condition => do
    let t ← c.require table
    known (some t) condition.toList
    c.checkReferences t fun _ => true
    c.checkReferents t fun _ => true
    return true
  | .update table changes condition => do
    let t ← c.require table
    for (n, e) in changes do
      known (some t) [e]
      if !t.knowsColumn n then throw ⟨.noSuchColumn n, none⟩
    known (some t) condition.toList
    let changed (i : Nat) : Bool := changes.any fun ch => sameName ch.1 (t.columnName i)
    c.checkReferences t fun k => k.columns.any changed
    c.checkReferents t fun k => (parentColumns k t).any changed
    return true
  | .select columns table conditions => do
    let t ← match table with
      | none => pure none
      | some (n, label) => do
        let t ← c.require n
        pure (some { t with name := label.getD t.name })
    if t.isNone && columns.any fun | .all => true | _ => false then throw ⟨.noTables, none⟩
    known t (columns.filterMap fun | .expr e _ => some e | .all => none)
    let labels := columns.filterMap fun | .expr _ l => l | .all => none
    known (some ((t.getD .nameless).labelled labels)) conditions
    return false
  | .values rows => do
    evenFront rows
    known none rows.flatten
    even rows
    return false
  | .begin _ => return false
  | .commit => return false
  | .rollback => return false

/-- Carries out a statement that writes, without regard to foreign keys. -/
def perform (c : Catalog) : Statement → Except Error Catalog
  | .createTable _ _ name _ _ columns rules =>
    match Table.ofDecl name columns rules with
    | .ok t => .ok { c with tables := c.tables ++ [t] }
    | .error f => .error f.error
  | .createIndex unique _ name table columns =>
    match c.table? table with
    | none => .error (.noSuchTable table)
    | some t =>
      let cols := columns.map fun i => (t.columnIndex? i.name).getD t.columns.length
      let rec clashes : List Row → Bool
        | [] => false
        | r :: rest => rest.any (Table.clash cols r) || clashes rest
      if unique && clashes t.rows then .error (.uniqueFailed t.name (cols.map t.columnName))
      else .ok { c with indexes := c.indexes ++ [⟨name, t.name, unique, cols⟩] }
  | .dropTable _ name =>
    .ok ⟨c.tables.filter (!sameName ·.name name), c.indexes.filter (!sameName ·.table name)⟩
  | .dropIndex _ name => .ok { c with indexes := c.indexes.filter (!sameName ·.name name) }
  | .insert table columns rows =>
    match c.table? table with
    | none => .error (.noSuchTable table)
    | some t => do
      let uniques := c.uniquesOf t
      let t ← rows.foldlM (fun (t : Table) es =>
        t.insertRow uniques (t.cellsFor columns (Expr.evalAll none es))) t
      return c.setTable t
  | .insertDefaults table =>
    match c.table? table with
    | none => .error (.noSuchTable table)
    | some t => do
      let t ← t.insertRow (c.uniquesOf t) (t.cellsFor (some []) [])
      return c.setTable t
  | .delete table condition =>
    match c.table? table with
    | none => .error (.noSuchTable table)
    | some t => .ok (c.setTable { t with rows := t.rows.filter fun r => !t.meets condition r })
  | .update table changes condition =>
    match c.table? table with
    | none => .error (.noSuchTable table)
    | some t => do
      let uniques := c.uniquesOf t
      let t ← (t.rows.filter (t.meets condition)).foldlM (fun (t : Table) r =>
        let cells := t.columns.zipIdx.map fun (col, i) =>
          match changes.find? fun ch => sameName ch.1 col.name with
          | some (_, e) => e.eval (some ⟨t, r⟩)
          | none => (r.cells[i]?).getD .null
        t.changeRow uniques r cells) t
      return c.setTable t
  | .select .. => .ok c
  | .values _ => .ok c
  | .begin _ => .ok c
  | .commit => .ok c
  | .rollback => .ok c

/-- Carries out a statement that writes. It fails if afterwards more foreign keys lead nowhere
than before, of those that are checked with the statement. -/
def run (c : Catalog) (s : Statement) : Except Error Catalog := do
  let c' ← c.perform s
  if c.dangling false < c'.dangling false then throw .foreignKeyFailed
  return c'

end Catalog

end PooledStore.Sql
