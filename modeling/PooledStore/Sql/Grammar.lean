import PooledStore.Sql.Error
import PooledStore.Sql.Statement
import PooledStore.Sql.Token
import PooledStore.Text.Blank

/-!
# The grammar of SQL scripts

`nextStatement` reads the first statement of a script and says how much of the script it takes. A
text that is no statement is refused at its first token that cannot stand where it stands; a text
that ends too early is incomplete. What is wrong with a table's declaration before that token is
for the reader of the fault to look at first.
-/

namespace PooledStore.Sql

/-- A text that is no statement: why, and the declaration of a table as far as it was read
before. -/
structure Misread where
  fault : Fault
  begun : Option Statement

namespace Grammar

/-- The tokens still to be read, and the declaration of a table as far as it is read. -/
structure State where
  tokens : List Token
  begun : Option Statement

/-- A stretch of reading: takes tokens from the front, or stumbles. -/
abbrev Reading := ExceptT Fault (StateM State)

/-- The token in front. -/
def peek : Reading Token := do
  match (← get).tokens with
  | t :: _ => return t
  | [] => return ⟨.finish, [], 0⟩

def skip : Reading Unit := modify fun s => { s with tokens := s.tokens.tail }

/-- Notes the declaration of a table as far as it is read. -/
def note (declaration : Statement) : Reading Unit :=
  modify fun s => { s with begun := some declaration }

/-- How a token that cannot stand here is reported. -/
def faultAt (t : Token) : Fault :=
  match t.kind with
  | .finish => ⟨.incompleteInput, none⟩
  | .illegal => ⟨.unrecognized (String.ofList t.text), some t.pos⟩
  | _ => ⟨.syntaxNear (String.ofList t.text), some t.pos⟩

/-- The token in front cannot stand here. -/
def stumble {α : Type} : Reading α := do throw (faultAt (← peek))

/-- Takes a key word if it is in front. -/
def word? (w : String) : Reading Bool := do
  if (← peek).isWord w then skip; return true
  else return false

def word (w : String) : Reading Unit := do
  unless ← word? w do stumble

def sign? (s : String) : Reading Bool := do
  if (← peek).isSign s then skip; return true
  else return false

def sign (s : String) : Reading Unit := do
  unless ← sign? s do stumble

/-- Takes a name. -/
def name : Reading (String × Nat) := do
  let t ← peek
  match t.name? with
  | some n => skip; return (n, t.pos)
  | none => stumble

/-- Takes the name of a table, perhaps after the name of its database. -/
def tableName : Reading (String × Nat) := do
  let n ← name
  if ← sign? "." then name else return n

/-- The token in front as it is written. -/
def written : Reading String := do return String.ofList (← peek).text

/-- Takes items with commas between them. -/
def commaList {α : Type} (item : Reading α) : Nat → Reading (List α)
  | 0 => stumble
  | fuel + 1 => do
    let a ← item
    if ← sign? "," then return a :: (← commaList item fuel) else return [a]

/-- One more than the number of tokens left: enough for any list of them. -/
def fuel : Reading Nat := do return (← get).tokens.length + 1

def commas {α : Type} (item : Reading α) : Reading (List α) := do commaList item (← fuel)

def inParens {α : Type} (item : Reading α) : Reading α := do
  sign "("
  let a ← item
  sign ")"
  return a

/-! ## Expressions -/

/-- The number that a literal writes; one too large for an integer is a real number. -/
def numberOf (t : Token) : Value :=
  match t.text with
  | '0' :: x :: hex =>
    if x = 'x' || x = 'X' then
      .integer (hex.foldl (fun n c =>
        n * 16 + (if c.isDigit then c.toNat - 48 else c.toUpper.toNat - 55)) 0)
    else .ofNumeral t.text
  | cs => .ofNumeral cs

/-- The bytes that pairs of hexadecimal digits write. -/
def hexBytes : List Char → List UInt8
  | a :: b :: rest =>
    let digit (c : Char) : Nat := if c.isDigit then c.toNat - 48 else c.toUpper.toNat - 55
    UInt8.ofNat (digit a * 16 + digit b) :: hexBytes rest
  | _ => []

/-- The operator that tokens in front write, with its rank; those of higher rank bind closer. -/
def operator? : Reading (Option (Operator × Nat)) := do
  let t ← peek
  let signs : List (String × Operator × Nat) :=
    [("=", .equal, 4), ("==", .equal, 4), ("<>", .unequal, 4), ("!=", .unequal, 4),
      ("<", .less, 5), ("<=", .lessOrEqual, 5), (">", .greater, 5), (">=", .greaterOrEqual, 5),
      ("+", .add, 7), ("-", .subtract, 7), ("*", .multiply, 8), ("/", .divide, 8),
      ("%", .remainder, 8), ("||", .concat, 9)]
  if t.isWord "OR" then return some (.or, 1)
  else if t.isWord "AND" then return some (.and, 2)
  else if t.isWord "IS" then return some (.identical, 4)
  else if t.kind = .sign then return signs.lookup (String.ofList t.text)
  else return none

/-- A literal of a token, if it is one. A parameter that is given no value is null. -/
def literal? (t : Token) : Option Value :=
  match t.kind with
  | .string => some (.text t.unquoted)
  | .integer => some (numberOf t)
  | .real => some (numberOf t)
  | .blob => some (.blob (hexBytes (t.text.drop 2)))
  | .parameter => some .null
  | .word => if t.isWord "NULL" then some .null else none
  | _ => none

mutual

/-- An expression whose operators have at least the given rank. -/
def expr : Nat → Nat → Reading Expr
  | 0, _ => stumble
  | fuel + 1, rank => do
    let a ← operand fuel
    operations fuel rank a

/-- What operators stand between. -/
def operand : Nat → Reading Expr
  | 0 => stumble
  | fuel + 1 => do
    let t ← peek
    if let some v := literal? t then skip; return .literal v
    else if t.isSign "-" then skip; return .negate (← expr fuel 10)
    else if t.isSign "+" then skip; expr fuel 10
    else if t.isWord "NOT" then skip; return .not (← expr fuel 3)
    else if t.isSign "(" then
      skip
      let e ← expr fuel 1
      sign ")"
      return e
    else
      let (n, pos) ← name
      if ← sign? "(" then
        let args ← arguments fuel
        sign ")"
        return .call n args pos
      else if ← sign? "." then
        let (m, _) ← name
        return .column (some n) m false pos
      else return .column none n (t.kind = .quotedName) pos

/-- The arguments of a function; a lone star counts as none. -/
def arguments : Nat → Reading (List Expr)
  | 0 => stumble
  | fuel + 1 => do
    if (← peek).isSign ")" then return []
    else if ← sign? "*" then return []
    else
      let a ← expr fuel 1
      if ← sign? "," then return a :: (← arguments fuel) else return [a]

/-- The operators, of at least the given rank, and their operands that follow an expression. -/
def operations : Nat → Nat → Expr → Reading Expr
  | 0, _, _ => stumble
  | fuel + 1, rank, a => do
    if rank ≤ 4 then
      if ← word? "ISNULL" then return ← operations fuel rank (.isNull a false)
      if ← word? "NOTNULL" then return ← operations fuel rank (.isNull a true)
    match ← operator? with
    | some (op, r) =>
      if r < rank then return a
      else
        skip
        let op ←
          if op = .identical then do
            if ← word? "NOT" then pure Operator.distinct else pure Operator.identical
          else pure op
        let b ← expr fuel (r + 1)
        operations fuel rank (.binary op a b)
    | none => return a

end

/-- An expression. -/
def expression : Reading Expr := do expr (4 * (← fuel) + 8) 1

/-! ## Declarations -/

/-- Names in parentheses. -/
def nameList : Reading (List String) := inParens (commas (do return (← name).1))

/-- A clause on conflicts, if it is in front. -/
def onConflict : Reading Unit := do
  if ← word? "ON" then
    word "CONFLICT"
    let t ← peek
    if ["ROLLBACK", "ABORT", "FAIL", "IGNORE", "REPLACE"].any t.isWord then skip else stumble

/-- Deferrable or not, after that key word. -/
def deferral (negated : Bool) : Reading Bool := do
  if ← word? "INITIALLY" then
    if ← word? "DEFERRED" then return !negated
    else word "IMMEDIATE"; return false
  else return false

/-- What happens to a reference when its row changes; read and not kept. -/
def referenceActions : Nat → Reading Unit
  | 0 => stumble
  | fuel + 1 => do
    if ← word? "ON" then
      let t ← peek
      if ["DELETE", "UPDATE", "INSERT"].any t.isWord then skip else stumble
      if ← word? "SET" then
        let t ← peek
        if ["NULL", "DEFAULT"].any t.isWord then skip else stumble
      else if ← word? "NO" then word "ACTION"
      else
        let t ← peek
        if ["CASCADE", "RESTRICT"].any t.isWord then skip else stumble
      referenceActions fuel
    else if ← word? "MATCH" then
      let _ ← name
      referenceActions fuel
    else return ()

/-- What a foreign key refers to, after its key word. -/
def reference : Reading Reference := do
  let (table, _) ← name
  let columns ← if (← peek).isSign "(" then nameList else pure []
  referenceActions (← fuel)
  return ⟨table, columns, false⟩

/-- A literal after a sign. -/
def literal : Reading Expr := do
  match literal? (← peek) with
  | some v => skip; return .literal v
  | none => stumble

/-- A default value. -/
def defaultValue : Reading Expr := do
  let t ← peek
  if t.isSign "(" then inParens expression
  else if t.isSign "-" then skip; return .negate (← literal)
  else if t.isSign "+" then skip; literal
  else
    match literal? t with
    | some v => skip; return .literal v
    | none =>
      let (n, _) ← name
      return .literal (.text n)

/-- Whether the key words of an ascending or descending order are in front; they are taken. -/
def sortOrder : Reading Unit := do
  unless ← word? "ASC" do
    let _ ← word? "DESC"

/-- One rule on a column, if one is in front. -/
def columnRule? : Reading (Option ColumnRule) := do
  if ← word? "CONSTRAINT" then
    let _ ← name
    return some .other
  else if ← word? "PRIMARY" then
    word "KEY"
    sortOrder
    onConflict
    return some (.primaryKey (← word? "AUTOINCREMENT"))
  else if ← word? "NOT" then
    if ← word? "DEFERRABLE" then return some (.deferrable (← deferral true))
    word "NULL"
    onConflict
    return some .notNull
  else if ← word? "NULL" then
    onConflict
    return some .other
  else if ← word? "UNIQUE" then
    onConflict
    return some .unique
  else if ← word? "CHECK" then
    let _ ← inParens expression
    return some .other
  else if ← word? "DEFAULT" then return some (.default (← defaultValue))
  else if ← word? "COLLATE" then
    let _ ← name
    return some .other
  else if ← word? "REFERENCES" then return some (.references (← reference))
  else if ← word? "DEFERRABLE" then return some (.deferrable (← deferral false))
  else return none

def columnRules : Nat → Reading (List ColumnRule)
  | 0 => stumble
  | fuel + 1 => do
    match ← columnRule? with
    | some r => return r :: (← columnRules fuel)
    | none => return []

/-- The words of a declared type. -/
def typeWords : Nat → Reading (List String)
  | 0 => stumble
  | fuel + 1 => do
    match (← peek).name? with
    | some w => skip; return w :: (← typeWords fuel)
    | none => return []

/-- A number in a declared type, perhaps with a sign. -/
def typeNumber : Reading Unit := do
  unless ← sign? "-" do
    let _ ← sign? "+"
  let t ← peek
  if t.kind = .integer || t.kind = .real then skip else stumble

/-- A declared type, which may be absent. -/
def typeName : Reading String := do
  let words ← typeWords (← fuel)
  if !words.isEmpty && (← peek).isSign "(" then
    inParens do
      typeNumber
      if ← sign? "," then typeNumber
  return String.intercalate " " words

def columnDecl : Reading ColumnDecl := do
  let (n, _) ← name
  let type ← typeName
  return ⟨n, type, ← columnRules (← fuel)⟩

/-- Whether a rule on the whole table is in front. -/
def startsTableRule (t : Token) : Bool :=
  ["CONSTRAINT", "PRIMARY", "UNIQUE", "CHECK", "FOREIGN"].any t.isWord

/-- A column that a rule or an index names. -/
def indexedColumn : Reading IndexedColumn := do
  let (n, pos) ← name
  if ← word? "COLLATE" then
    let _ ← name
  sortOrder
  return ⟨n, pos⟩

/-- A rule on the whole table. -/
def tableRule : Reading TableRule := do
  if ← word? "CONSTRAINT" then
    let _ ← name
  if ← word? "PRIMARY" then
    word "KEY"
    let columns ← inParens (commas indexedColumn)
    onConflict
    return .primaryKey columns
  else if ← word? "UNIQUE" then
    let columns ← inParens (commas indexedColumn)
    onConflict
    return .unique columns
  else if ← word? "CHECK" then
    let _ ← inParens expression
    onConflict
    return .other
  else
    word "FOREIGN"
    word "KEY"
    let columns ← nameList
    word "REFERENCES"
    let r ← reference
    if ← word? "NOT" then
      word "DEFERRABLE"
      return .foreignKey columns { r with deferred := ← deferral true }
    else if ← word? "DEFERRABLE" then
      return .foreignKey columns { r with deferred := ← deferral false }
    else return .foreignKey columns r

/-- Columns, and after them rules on the table. Every column after which the text goes on is
noted, as `declare` makes a declaration of it and the columns before it. -/
def tableParts (declare : List ColumnDecl → Statement) :
    Nat → List ColumnDecl → Reading (List ColumnDecl × List TableRule)
  | 0, _ => stumble
  | fuel + 1, columns => do
    if !columns.isEmpty && startsTableRule (← peek) then
      return (columns.reverse, ← commas tableRule)
    else
      let columns := (← columnDecl) :: columns
      let more ← sign? ","
      if more || (← peek).isSign ")" then note (declare columns.reverse)
      if more then tableParts declare fuel columns else return (columns.reverse, [])

/-- Words after a table's closing parenthesis; read and not kept. An unknown one is refused unless
what follows cannot stand there. -/
def tableOptions : Nat → Reading Unit
  | 0 => stumble
  | fuel + 1 => do
    let option ← do
      if ← word? "WITHOUT" then pure (some ("ROWID", ← name)) else
      match (← peek).name? with
      | some n => skip; pure (some ("STRICT", n, 0))
      | none => pure none
    match option with
    | none => return ()
    | some (known, n, _) =>
      let t ← peek
      unless t.kind = .finish || t.isSign ";" || t.isSign "," do stumble
      unless Text.asciiLower n = Text.asciiLower known do throw ⟨.unknownTableOption n, none⟩
      if ← sign? "," then tableOptions fuel

/-! ## Statements -/

def ifNotExists : Reading Bool := do
  if ← word? "IF" then
    word "NOT"
    word "EXISTS"
    return true
  else return false

def ifExists : Reading Bool := do
  if ← word? "IF" then
    word "EXISTS"
    return true
  else return false

def createTable (temporary : Bool) : Reading Statement := do
  word "TABLE"
  let lenient ← ifNotExists
  let text ← written
  let (n, pos) ← tableName
  let declare (columns : List ColumnDecl) (rules : List TableRule) : Statement :=
    .createTable temporary lenient n text pos columns rules
  if (← peek).isSign "(" || (← peek).isWord "AS" then note (declare [] [])
  sign "("
  let (columns, rules) ← tableParts (declare · []) (← fuel) []
  sign ")"
  note (declare columns rules)
  tableOptions (← fuel)
  return declare columns rules

def createIndex (unique : Bool) : Reading Statement := do
  word "INDEX"
  let lenient ← ifNotExists
  let (n, _) ← tableName
  word "ON"
  let (table, _) ← name
  let columns ← inParens (commas indexedColumn)
  return .createIndex unique lenient n table columns

def create : Reading Statement := do
  if ← word? "TEMP" then createTable true
  else if ← word? "TEMPORARY" then createTable true
  else if ← word? "UNIQUE" then createIndex true
  else if (← peek).isWord "INDEX" then createIndex false
  else createTable false

def drop : Reading Statement := do
  if ← word? "INDEX" then
    let lenient ← ifExists
    return .dropIndex lenient (← tableName).1
  else
    word "TABLE"
    let lenient ← ifExists
    return .dropTable lenient (← tableName).1

def insert : Reading Statement := do
  word "INTO"
  let (table, _) ← tableName
  let columns ← if (← peek).isSign "(" then pure (some (← nameList)) else pure none
  if columns.isNone then
    if ← word? "DEFAULT" then
      word "VALUES"
      return .insertDefaults table
  word "VALUES"
  return .insert table columns (← commas (inParens (commas expression)))

/-- A condition, if one is in front. -/
def condition : Reading (Option Expr) := do
  if ← word? "WHERE" then return some (← expression) else return none

def delete : Reading Statement := do
  word "FROM"
  let (table, _) ← tableName
  return .delete table (← condition)

def update : Reading Statement := do
  let (table, _) ← tableName
  word "SET"
  let changes ← commas do
    let (n, _) ← name
    sign "="
    return (n, ← expression)
  return .update table changes (← condition)

/-- Another name for a column or a table, if one is in front. -/
def label? : Reading (Option String) := do
  if ← word? "AS" then return some (← name).1
  else
    match (← peek).name? with
    | some n => skip; return some n
    | none => return none

/-- A column of a query's answer, perhaps with a name of its own. -/
def projection : Reading Projection := do
  if ← sign? "*" then return .all
  else
    let e ← expression
    return .expr e (← label?)

def select : Reading Statement := do
  unless ← word? "DISTINCT" do
    let _ ← word? "ALL"
  let columns ← commas projection
  let table ← do
    if ← word? "FROM" then
      let (t, _) ← tableName
      pure (some (t, ← label?))
    else pure none
  let c ← condition
  let order ← do
    if ← word? "ORDER" then
      word "BY"
      commas do
        let e ← expression
        sortOrder
        return e
    else pure []
  if ← word? "LIMIT" then
    let _ ← expression
  return .select columns table (c.toList ++ order)

/-- The key word of a transaction and its name, which may both be absent. -/
def transactionName : Reading Unit := do
  if ← word? "TRANSACTION" then
    if (← peek).name?.isSome then skip

/-- A transaction's beginning after its key word; an exclusive one keeps the others from writing
as an immediate one does. -/
def beginning : Reading Statement := do
  let mode ← do
    if ← word? "IMMEDIATE" then pure BeginMode.immediate
    else if ← word? "EXCLUSIVE" then pure BeginMode.immediate
    else
      let _ ← word? "DEFERRED"
      pure BeginMode.deferred
  transactionName
  return .begin mode

/-- Rows that stand for themselves. -/
def values : Reading Statement := do return .values (← commas (inParens (commas expression)))

def statement : Reading Statement := do
  if ← word? "CREATE" then create
  else if ← word? "DROP" then drop
  else if ← word? "INSERT" then insert
  else if ← word? "DELETE" then delete
  else if ← word? "UPDATE" then update
  else if ← word? "SELECT" then select
  else if ← word? "VALUES" then values
  else if ← word? "BEGIN" then beginning
  else if ← word? "COMMIT" then transactionName; return .commit
  else if ← word? "END" then transactionName; return .commit
  else if ← word? "ROLLBACK" then transactionName; return .rollback
  else stumble

end Grammar

/-- The first statement of a script, with the number of characters that it takes, its semicolon
and all semicolons before it included; `none` for a script without statements. -/
def nextStatement (sql : List Char) : Except Misread (Option (Statement × Nat)) :=
  match (Token.all sql).dropWhile (·.isSign ";") with
  | [] => .ok none
  | tokens =>
    match Grammar.statement.run ⟨tokens, none⟩ with
    | (.error f, s) => .error ⟨f, s.begun⟩
    | (.ok stmt, ⟨[], _⟩) => .ok (some (stmt, sql.length))
    | (.ok stmt, ⟨t :: _, begun⟩) =>
      if t.isSign ";" then .ok (some (stmt, t.pos + 1))
      else .error ⟨Grammar.faultAt t, begun⟩

end PooledStore.Sql
