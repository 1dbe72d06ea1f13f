import PooledStore.Connection
import PooledStore.Sql.Catalog
import PooledStore.Sql.Grammar

/-!
# Sessions on a database

A session sees the committed catalog of its database, or, inside a transaction that has changed
something, this catalog with its own changes. At most one session at a time may write to a
database; the others go on reading. A session also has temporary tables of its own.

* `Site`: a session together with its database, which is all that a statement can change.
* `Site.begin`, `Site.commit`, `Site.rollback`: transactions.
* `Site.execute`: one statement.
* `Site.script`: a whole script, which stops at the first failure.
-/

namespace PooledStore.Sql

/-- A database: what is committed, how often it has changed, and who has the right to write. -/
structure Database where
  committed : Catalog
  version : Nat
  writer : Option SessionId

/-- A database with nothing in it. -/
def Database.empty : Database := ⟨.empty, 0, none⟩

/-- The database with other contents committed. A change without effect does not count as one. -/
def Database.replace (d : Database) (c : Catalog) : Database :=
  { d with
    committed := c
    version := if c.contents = d.committed.contents then d.version else d.version + 1 }

/-- The database without the session's right to write. -/
def Database.release (d : Database) (id : SessionId) : Database :=
  if d.writer = some id then { d with writer := none } else d

/-- The catalog that a transaction has looked at, and the version of the database then. -/
structure View where
  current : Catalog
  version : Nat

/-- A transaction in progress. -/
structure Transaction where
  /-- The temporary tables at its beginning. -/
  temporaryBefore : Catalog
  /-- Absent until the transaction first looks at the database. -/
  view : Option View
  changed : Bool

/-- A session on a database. -/
structure Session where
  /-- The name of the way in which the database keeps its journal. -/
  journal : String
  busyTimeout : Nat
  /-- The tables whose definitions the session has read; those that others make it learns of when
  it next uses the database. -/
  known : List String
  temporary : Catalog
  transaction : Option Transaction

/-- A new session on a database. -/
def Session.start (d : Database) (journal : String) (busyTimeout : Nat) : Session :=
  ⟨journal, busyTimeout, d.committed.tableNames, .empty, none⟩

/-- A session and the database that it is on. -/
structure Site where
  session : Session
  database : Database

namespace Site

/-! ## Views -/

/-- What the session sees of its database. A transaction that has changed nothing goes with the
database as long as this is as it was when the transaction first looked. -/
def view (x : Site) : View :=
  match x.session.transaction with
  | some ⟨_, some v, changed⟩ =>
    if !changed && v.version = x.database.version then
      ⟨x.database.committed, x.database.version⟩
    else v
  | _ => ⟨x.database.committed, x.database.version⟩

/-- The session is inside a transaction. -/
def inside (x : Site) : Bool := x.session.transaction.isSome

/-- The table of a name as the session sees it; its temporary tables come first. -/
def table? (x : Site) (name : String) : Option Table :=
  match x.session.temporary.table? name with
  | some t => some t
  | none => x.view.current.table? name

/-- The site with another transaction of the session, or none. -/
def withTransaction (x : Site) (t : Option Transaction) : Site :=
  { x with session := { x.session with transaction := t } }

/-- The session has read the definitions of the tables that it sees. -/
def learn (x : Site) : Site :=
  { x with session := { x.session with known := x.view.current.tableNames } }

/-! ## Transactions -/

/-- Whether the session may write to its database now: nobody else does, and nobody has since the
session's transaction first looked. -/
def mayWrite (x : Site) (id : SessionId) : Bool :=
  x.database.writer.all (· = id) && x.view.version = x.database.version

/-- The session's transaction has looked at the database. -/
def look (x : Site) : Site :=
  match x.session.transaction with
  | some t => x.withTransaction (some { t with view := some x.view })
  | none => x

/-- The session has the right to write to its database. -/
def hold (x : Site) (id : SessionId) : Site :=
  { x with database := { x.database with writer := some id } }

/-- Gives the session the right to write to its database, if it may. -/
def seize (x : Site) (id : SessionId) : Except Error Site :=
  if x.mayWrite id then .ok (x.look.hold id) else .error .locked

/-- Begins a transaction in a session that is in none. The right to write, where it is asked for,
is taken before anything else is looked at. -/
def begin (x : Site) (id : SessionId) (mode : BeginMode) : Site × Except Error Unit :=
  let begun := x.withTransaction (some ⟨x.session.temporary, none, false⟩)
  match mode, x.inside with
  | .deferred, false => (begun, .ok ())
  | .deferred, true => (x, .error .nestedTransaction)
  | .immediate, false =>
    match begun.seize id with
    | .ok y => (y, .ok ())
    | .error e => (x, .error e)
  | .immediate, true =>
    match x.seize id with
    | .ok y => (y, .error .nestedTransaction)
    | .error e => (x, .error e)

/-- Makes the changes of the session's transaction lasting. Foreign keys that are checked with the
transaction must lead somewhere, or the transaction stays open. -/
def commit (x : Site) (id : SessionId) : Site × Except Error Unit :=
  match x.session.transaction with
  | none => (x, .error .nothingToCommit)
  | some ⟨_, some v, true⟩ =>
    if x.database.committed.dangling true < v.current.dangling true then
      (x, .error .foreignKeyFailed)
    else
      ({ x.withTransaction none with
          database := { x.database.replace v.current with writer := none } }, .ok ())
  | some _ =>
    ({ x.withTransaction none with database := x.database.release id }, .ok ())

/-- Undoes the session's transaction. -/
def rollback (x : Site) (id : SessionId) : Site × Except Error Unit :=
  match x.session.transaction with
  | none => (x, .error .nothingToRollBack)
  | some t =>
    let y : Site :=
      { session := { x.session with temporary := t.temporaryBefore, transaction := none }
        database := x.database.release id }
    (if t.changed then y.learn else y, .ok ())

/-! ## Statements -/

/-- The table or index that a statement is about, where one tells which catalog it is for. -/
def subject? : Statement → Option String
  | .createTable .. => none
  | .createIndex _ _ _ table _ => some table
  | .dropTable _ name => some name
  | .dropIndex .. => none
  | .insert table .. => some table
  | .insertDefaults table => some table
  | .delete table _ => some table
  | .update table .. => some table
  | .select _ table _ => table.map (·.1)
  | .values _ => none
  | .begin _ => none
  | .commit => none
  | .rollback => none

/-- Whether a statement makes the session use its database: a query without a table does not. -/
def usesDatabase : Statement → Bool
  | .select _ none _ => false
  | .values _ => false
  | _ => true

/-- Whether a statement is for the session's temporary tables. -/
def isTemporary (x : Site) : Statement → Bool
  | .createTable temporary .. => temporary
  | .dropIndex _ name => (x.session.temporary.index? name).isSome
  | stmt => ((subject? stmt).bind x.session.temporary.table?).isSome

/-- Carries out a statement that writes to the database. In a transaction the change stays in the
session's view; without one it is committed at once. -/
def write (x : Site) (id : SessionId) (stmt : Statement) : Site × Except Error Unit :=
  if !x.mayWrite id then (x, .error .locked)
  else
    match x.session.transaction, x.view.current.run stmt with
    | some t, .ok c =>
      ((x.withTransaction
        (some { t with view := some { x.view with current := c }, changed := true })).hold id,
        .ok ())
    | some _, .error e => (x.look.hold id, .error e)
    | none, .ok c =>
      if x.database.committed.dangling true < c.dangling true then (x, .error .foreignKeyFailed)
      else ({ x with database := x.database.replace c }, .ok ())
    | none, .error e => (x, .error e)

/-- Whether the session makes a table without knowing one of that name. -/
def unaware (x : Site) : Statement → Bool
  | .createTable _ _ name .. => !x.session.known.any (sameName name)
  | _ => false

/-- Makes sure that the session may write: inside a transaction it takes the right to. -/
def claim (x : Site) (id : SessionId) : Except Error Site :=
  if x.inside then x.seize id
  else if x.mayWrite id then .ok x
  else .error .locked

/-- The outcome of making a table that is there already, of which the session only learns when it
is about to write. The place in the text is then no longer known. -/
def discover (x : Site) (id : SessionId) (outcome : Except Fault Unit) :
    Site × Except Fault Unit :=
  match x.claim id with
  | .error e => (x, .error ⟨e, none⟩)
  | .ok y => (y.learn, outcome.mapError fun f => ⟨f.error, none⟩)

/-- Carries out one statement on the session's temporary tables. -/
def manipulateTemporary (x : Site) (stmt : Statement) : Site × Except Fault Unit :=
  match x.session.temporary.check stmt with
  | .error f => (x, .error f)
  | .ok false => (x, .ok ())
  | .ok true =>
    match x.session.temporary.run stmt with
    | .error e => (x, .error ⟨e, none⟩)
    | .ok c => ({ x with session := { x.session with temporary := c } }, .ok ())

/-- Carries out one statement on the session's database. -/
def manipulate (x : Site) (id : SessionId) (stmt : Statement) : Site × Except Fault Unit :=
  match x.view.current.check stmt with
  | .error f =>
    match f.error with
    | .tableExists _ => if x.unaware stmt then x.discover id (.error f) else (x, .error f)
    | _ => (x.learn, .error f)
  | .ok false =>
    if x.unaware stmt then x.discover id (.ok ())
    else if usesDatabase stmt then (x.look.learn, .ok ())
    else (x, .ok ())
  | .ok true =>
    let (y, result) := x.write id stmt
    (y.learn, result.mapError fun e => ⟨e, none⟩)

/-- Carries out one statement. -/
def execute (x : Site) (id : SessionId) (stmt : Statement) : Site × Except Fault Unit :=
  let placeless (r : Site × Except Error Unit) : Site × Except Fault Unit :=
    (r.1, r.2.mapError fun e => ⟨e, none⟩)
  match stmt with
  | .begin mode => placeless (x.begin id mode)
  | .commit => placeless (x.commit id)
  | .rollback => placeless (x.rollback id)
  | stmt => if x.isTemporary stmt then x.manipulateTemporary stmt else x.manipulate id stmt

/-- What is wrong with a text that is no statement: the declaration of a table before the place
where the text cannot go on is checked first, as far as the session is aware of other tables. -/
def misreading (x : Site) (m : Misread) : Fault :=
  match m.begun with
  | some stmt =>
    let temporary := x.isTemporary stmt
    let c := if temporary then x.session.temporary else x.view.current
    match c.check stmt with
    | .error f =>
      match f.error with
      | .tableExists _ => if !temporary && x.unaware stmt then m.fault else f
      | _ => f
    | .ok _ => m.fault
  | none => m.fault

/-- Carries out the statements of a script one after the other, at most `fuel` of them. -/
def scriptFor (id : SessionId) : Nat → Site → List Char → Site × Except Failure Unit
  | 0, x, _ => (x, .ok ())
  | fuel + 1, x, sql =>
    match nextStatement sql with
    | .error m => (x, .error ((x.misreading m).inText sql))
    | .ok none => (x, .ok ())
    | .ok (some (stmt, n)) =>
      match x.execute id stmt with
      | (y, .error f) => (y, .error (f.inText sql))
      | (y, .ok ()) => scriptFor id fuel y (sql.drop n)

/-- Carries out a script, up to its first failure. Outside a transaction the statements before that
one have lasting effects. -/
def script (x : Site) (id : SessionId) (sql : String) : Site × Except Failure Unit :=
  scriptFor id (sql.toList.length + 1) x sql.toList

/-! ## Queries -/

/-- The failure of a query that asks for a column which is not there. -/
def missingColumn (before column after : String) : Failure :=
  ⟨.noSuchColumn column, some (before ++ column ++ after, (Text.encode before).length)⟩

/-- The table of a name, or the failure that there is none. -/
def require (x : Site) (name : String) : Except Failure Table :=
  match x.table? name with
  | some t => .ok t
  | none => .error (Error.noSuchTable name).nowhere

/-- The largest value in a column, null if there is none. -/
def maximum (x : Site) (column table : String) : Except Failure Value :=
  match x.require table with
  | .error f => .error f
  | .ok t =>
    match t.columnIndex? column with
    | none => .error (missingColumn "SELECT MAX(" column (") FROM " ++ table))
    | some i =>
      .ok (t.rows.foldl (fun (m : Value) r =>
        let v := (r.cells[i]?).getD .null
        if m.before v then v else m) .null)

/-- All rows of a table in the order of their numbers. -/
def rows (x : Site) (table : String) : Except Failure (List (List Value)) :=
  match x.require table with
  | .error f => .error f
  | .ok t => .ok (t.rows.map (·.cells))

/-- The cells of two columns, ordered by the first one. -/
def columnsOf (x : Site) (first second table : String) : Except Failure (List (Value × Value)) :=
  match x.require table with
  | .error f => .error f
  | .ok t =>
    let rest := " FROM " ++ table ++ " ORDER BY " ++ first
    match t.columnIndex? first, t.columnIndex? second with
    | none, _ => .error (missingColumn "SELECT " first (", " ++ second ++ rest))
    | _, none => .error (missingColumn ("SELECT " ++ first ++ ", ") second rest)
    | some i, some j =>
      let pairs := t.rows.map fun r => ((r.cells[i]?).getD .null, (r.cells[j]?).getD .null)
      .ok (pairs.mergeSort fun a b => !b.1.before a.1)

/-- The names of the lasting tables and indexes, in the order of their bytes. -/
def names (x : Site) : List String :=
  let c := x.view.current
  let all := c.tables.map (·.name) ++ c.indexes.map (·.name)
  all.mergeSort fun a b => !Value.bytesBefore (Text.encode b) (Text.encode a)

end Site

end PooledStore.Sql
