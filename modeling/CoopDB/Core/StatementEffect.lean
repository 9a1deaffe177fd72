import CoopDB.Core.Client
import CoopDB.Core.Validator

/-!
# What a Statement Does to the Database

A statement by what executing it does to a database. Each execution is a transaction
of its own, so one that fails changes nothing, and a statement stands for a function
on states.

A `SELECT` calls functions, and its `WITH` clauses may hold queries that write. With
`INTO` it also creates a table, and fails at once if there is one of that name. `SHOW`
does nothing. `EXPLAIN` does nothing either, but with `ANALYZE` it executes its
statement. Every other statement writes.

What a function or a query that writes does is up to the database. Of a function it is
known whether it is declared volatile, and one that is not changes nothing.

## Main definitions

* `PgStmt`: A statement, with the functions it calls and the queries that write.
* `Database`: What functions and queries do, over any type of states.
* `PgStmt.exec`: The state after an execution.
* `EffectQuery`: The parser, and what the validator sees of it.
-/

namespace CoopDB

/-- What a `SELECT` does besides reading: it calls a function, or executes a query that
    writes. -/
inductive PgAction
  | call (function : String)
  | write (query : String)
  deriving DecidableEq

/-- A statement with its parameters. -/
inductive PgStmt
  | select (into : Option String) (actions : List PgAction)
  | variableShow
  | explain (analyze : Bool) (stmt : PgStmt)
  | other (node : Node) (query : String)

/-- The tables, the functions and the queries that write. -/
structure Database (σ : Type) where
  tableExists : String → σ → Bool
  createTable : String → σ → σ
  exists_createTable : ∀ name s, tableExists name (createTable name s) = true
  volatile : String → Bool
  call : String → σ → σ
  call_of_stable : ∀ function, volatile function = false → ∀ s, call function s = s
  write : String → σ → σ

section

variable {σ : Type}

/-- The state after an action. -/
def PgAction.run (db : Database σ) (s : σ) : PgAction → σ
  | .call function => db.call function s
  | .write query => db.write query s

/-- The state after an execution. -/
def PgStmt.exec (db : Database σ) : PgStmt → σ → σ
  | .select none actions, s => actions.foldl (PgAction.run db) s
  | .select (some name) actions, s =>
    if db.tableExists name s then s
    else db.createTable name (actions.foldl (PgAction.run db) s)
  | .variableShow, s => s
  | .explain analyze stmt, s => if analyze then stmt.exec db s else s
  | .other _ query, s => db.write query s

end

/-- The top-level node. -/
def PgStmt.node : PgStmt → Node
  | .select _ _ => .selectStmt
  | .variableShow => .variableShowStmt
  | .explain _ _ => .explainStmt
  | .other node _ => node

/-- The parser with what its statements execute, and the scanner. -/
structure EffectQuery where
  parse : String → Except String (List (Option PgStmt))
  scan : String → Except String (List (Int × Int))

/-- What the validator looks at. -/
def EffectQuery.query (p : EffectQuery) : PgQuery :=
  { parse := fun sql => (p.parse sql).map (List.map (Option.map PgStmt.node)), scan := p.scan }

end CoopDB
