import CoopDB.Core.Transcript

/-!
# Running a Procedure

`Dispatcher.run` of `internal/rpc/dispatcher.go`: one transaction around the
body of a registered procedure.

It is built like `Execute`, around the same tenant setup, with three
differences. The timeouts are the caller's own and get no default. The
arguments are encoded after the setup, so an encoding error is found inside the
transaction. And errors are returned as they are, without a prefix.

The body is one statement that answers one row with one json column, which is
null where the procedure has nothing to say. The registry, the argument schema
and the idempotency layer of `Call` come before `run` and are no part of it.

## Main definitions

* `Dispatcher.run`: The transaction, with the messages it sends.
-/

namespace CoopDB

/-- What `run` reads of its input. The arguments are listed in the order
    `json.Marshal` writes the keys of a map. -/
structure CallInput where
  workspaceID : String
  pgRole : String
  args : List (String × Json.Value)
  statementTimeout : Time
  idleInTxTimeout : Time

/-- The answers of the database to the calls of one `run`. `row` is what
    `QueryRow` and `Scan` come back with. -/
structure RunScript where
  begin : Option DbError
  setup : SetupReplies
  effects : List Effect
  row : Except DbError (Option Json.Value)
  commit : Option DbError

/-- The connection `run` leaves behind, what it returned, and whether its
    `Tx.Commit` returned nil. -/
structure Ran where
  conn : Conn
  outcome : Except Failure (Option Json.Value)
  committed : Bool

/-- `run`. Every return before the commit runs the deferred rollback. -/
def Dispatcher.run (c : Conn) (body : String) (input : CallInput) (db : RunScript) :
    List Sent × Ran :=
  match db.begin with
  | some e => ([.begin], { conn := c, outcome := .error (classifyPgErr e), committed := false })
  | none =>
    let ready := setupSent input.workspaceID input.pgRole input.statementTimeout
      input.idleInTxTimeout db.setup (Tx.start c.session)
    match ready.2 with
    | .error e => (.begin :: ready.1 ++ [.rollback],
        { conn := c.rollback, outcome := .error e, committed := false })
    | .ok t =>
      match (Json.Value.object input.args).marshal with
      | none => (.begin :: ready.1 ++ [.rollback],
          { conn := c.rollback, outcome := .error (.other "json: unsupported value"),
            committed := false })
      | some _ =>
        let sent := .begin :: ready.1 ++ [.statement body t.current]
        match db.row with
        | .error e => (sent ++ [.rollback],
            { conn := c.rollback, outcome := .error (classifyPgErr e), committed := false })
        | .ok raw =>
          let c := ({ c with tx := some t } : Conn).perform db.effects
          match db.commit with
          | some e => (sent ++ [.commit],
              { conn := c.rollback, outcome := .error (classifyPgErr e), committed := false })
          | none => (sent ++ [.commit],
              { conn := c.commit, outcome := .ok raw, committed := true })

end CoopDB
