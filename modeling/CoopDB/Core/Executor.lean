import CoopDB.Core.Tenant
import CoopDB.Core.Validator

/-!
# The Executor

`internal/sql/executor.go`: one transaction around the caller's statement.

The database is a script of answers, one for each call `Execute` may make. The
session effects of the statement are part of its answer, except for the two
kinds of statement whose effect can be read off the tree: `SET` and
`CREATE TEMP TABLE`. A client may also send `COMMIT` or `ROLLBACK` as its one
statement. That ends the transaction early, and the commit the executor sends
afterwards is then only a warning.

Rows are counted as they arrive: the length of each row's own JSON and one
byte more, against the response limit, before anything is committed.

## Main definitions

* `PooledCall`, `serve`: Requests on one connection of the pool.
-/

namespace CoopDB

/-- The configuration of the executor. A limit that is not positive means
    none. -/
structure ExecutorConfig where
  statementTimeout : Time
  idleInTxTimeout : Time
  maxResponseBytes : Int

/-- `NewExecutor`: timeouts that are not positive become five seconds. -/
def newExecutor (cfg : ExecutorConfig) : ExecutorConfig :=
  { cfg with
    statementTimeout := if cfg.statementTimeout ≤ 0 then 5000000000 else cfg.statementTimeout
    idleInTxTimeout := if cfg.idleInTxTimeout ≤ 0 then 5000000000 else cfg.idleInTxTimeout }

/-- The response. Its `Notice` is never set and so never sent. -/
structure Response where
  command : String
  columns : List String
  rows : List (List Json.Value)
  rowsAffected : Int
  durationMS : Int

/-- The rows of a response, if every value has a JSON form. -/
def marshalRows : List (List Json.Value) → Option (List String)
  | [] => some []
  | row :: rows => do
    let s ← (Json.marshalElems row).map Json.array
    let ss ← marshalRows rows
    return s :: ss

/-- `json.Marshal` of a response. -/
def Response.marshal (r : Response) : Option String := do
  let rows ← marshalRows r.rows
  return Json.object ([("command", Json.quote r.command)] ++
    (if r.columns.isEmpty then []
      else [("columns", Json.array (r.columns.map Json.quote))]) ++
    (if rows.isEmpty then [] else [("rows", Json.array rows)]) ++
    [("rows_affected", toString r.rowsAffected), ("duration_ms", toString r.durationMS)])

/-- What `Execute` is given. -/
structure ExecuteInput where
  workspaceID : String
  pgRole : String
  sql : String
  params : List Json.Value
  result : Option Result

/-- The answers of the database to the calls of one `Execute`. `rows` are the
    answers of `rows.Values`, `rowsErr` what `rows.Err` reports after them. -/
structure DbScript where
  begin : Option DbError
  setup : SetupReplies
  effects : List Effect
  query : Except DbError (List String)
  rows : List (Except DbError (List Json.Value))
  rowsErr : Option DbError
  exec : Except DbError Int
  commit : Option DbError
  durationMS : Int

/-- The statement as the server parses it, with the grammar the validator
    uses. -/
def parsed (q : PgQuery) (sql : String) : Option Node :=
  match q.parse sql with
  | .ok [stmt] => stmt
  | _ => none

/-- What a statement does to its session. -/
def statementEffects : Option Node → List Effect → List Effect
  | some (.variableSetStmt isLocal a), _ => [if isLocal then .setLocal a else .set a]
  | some (.createStmt relation true dropOnCommit), _ => [.createTemp relation dropOnCommit]
  | some (.transactionStmt _), _ => []
  | _, effects => effects

/-- The connection after the caller's statement. -/
def Conn.statement (c : Conn) (node : Option Node) (db : DbScript) : Conn :=
  match node with
  | some (.transactionStmt (.commit false)) => c.commit
  | some (.transactionStmt (.commit true)) => c.commit.begin
  | some (.transactionStmt (.rollback false)) => c.rollback
  | some (.transactionStmt (.rollback true)) => c.rollback.begin
  | node => c.perform (statementEffects node db.effects)

/-- The bytes one row adds to the running size, one of them for the comma. A
    row that has no JSON form counts as empty. -/
def rowBytes (row : List Json.Value) : Int :=
  (((Json.marshalElems row).map Json.array).getD "").utf8ByteSize + 1

/-- The loop over the rows, with the size so far and the rows so far. -/
def collectRows (maxBytes : Int) : Int → List (List Json.Value) →
    List (Except DbError (List Json.Value)) → Except Failure (List (List Json.Value))
  | _, acc, [] => .ok acc
  | _, _, .error e :: _ => .error (classifyPgErr e)
  | approxBytes, acc, .ok values :: rest =>
    if maxBytes > 0 then
      if approxBytes + rowBytes values > maxBytes then .error .responseTooLarge
      else collectRows maxBytes (approxBytes + rowBytes values) (acc ++ [values]) rest
    else collectRows maxBytes approxBytes (acc ++ [values]) rest

/-- The statement's part of the response, before the commit. -/
def runStatement (cfg : ExecutorConfig) (r : Result) (db : DbScript) : Except Failure Response :=
  if r.isSelect || r.hasReturning then
    match db.query with
    | .error e => .error (classifyPgErr e)
    | .ok columns =>
      match collectRows cfg.maxResponseBytes 0 [] db.rows with
      | .error e => .error e
      | .ok rows =>
        match db.rowsErr with
        | some e => .error (classifyPgErr e)
        | none => .ok { command := r.command, columns := columns, rows := rows,
                        rowsAffected := rows.length, durationMS := db.durationMS }
  else
    match db.exec with
    | .error e => .error (classifyPgErr e)
    | .ok affected => .ok { command := r.command, columns := [], rows := [],
                            rowsAffected := affected, durationMS := db.durationMS }

/-- The connection `Execute` leaves behind, what it returned, and whether its
    `Tx.Commit` returned nil. -/
structure Executed where
  conn : Conn
  outcome : Except Failure Response
  committed : Bool

/-- `Execute`. Every return before the commit runs the deferred rollback. -/
def execute (q : PgQuery) (cfg : ExecutorConfig) (c : Conn) (input : ExecuteInput)
    (db : DbScript) : Executed :=
  match input.result with
  | none => { conn := c, outcome := .error (.other "executor.Execute: nil validator result"),
              committed := false }
  | some r =>
    match db.begin with
    | some e => { conn := c, outcome := .error (e.wrap "begin: "), committed := false }
    | none =>
      match setup input.workspaceID input.pgRole cfg.statementTimeout cfg.idleInTxTimeout db.setup
          (Tx.start c.session) with
      | .error e =>
        let failure : Failure := match e with
          | .other text => .other ("tenant setup: " ++ text)
          | e => e
        { conn := c.rollback, outcome := .error failure, committed := false }
      | .ok t =>
        match runStatement cfg r db with
        | .error e => { conn := c.rollback, outcome := .error e, committed := false }
        | .ok response =>
          let c := ({ c with tx := some t } : Conn).statement (parsed q input.sql) db
          match db.commit with
          | some e => { conn := c.rollback, outcome := .error (classifyPgErr e),
                        committed := false }
          | none => { conn := c.commit, outcome := .ok response, committed := true }

/-- One statement sent to a connection of the pool, with the database's side
    of it. -/
structure PooledCall where
  workspaceID : String
  pgRole : String
  sql : String
  params : List Json.Value
  db : DbScript

/-- The connection after one request. A statement that is not accepted never
    reaches it, and no hook runs when it goes back to the pool. -/
def serve (q : PgQuery) (validator : ValidatorConfig) (executor : ExecutorConfig) (c : Conn)
    (p : PooledCall) : Option Conn :=
  match validate q validator p.sql p.params with
  | .error _ => some c
  | .ok res => some (execute q executor c
      { workspaceID := p.workspaceID, pgRole := p.pgRole, sql := p.sql, params := p.params,
        result := some res } p.db).conn

end CoopDB
