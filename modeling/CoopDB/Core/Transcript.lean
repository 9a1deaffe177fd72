import CoopDB.Core.Executor

/-!
# What Is Sent to the Server

`execute` says what a request leaves behind. This module says what it sends,
message by message, and with which settings in force the caller's own statement
is received.

A message is recorded when it is sent, whether or not the server then refuses
it, so a statement of `Setup` that fails is the last of its kind in the list.
The driver sends a rollback only for a transaction that is still open: after
`Tx.Commit` has been called, successful or not, the deferred `Rollback` returns
at once.

The role setting is not quite the role statements run with. The server takes
the name `none`, quoted or not, for no role at all, and goes on with the login
role. No role can be created under that name.

## Main definitions

* `sendLocal`, `setupSent`: `Setup` with what it sends.

## Theorems

* `setupSent_snd`, `executeSent_snd`: Nothing but the record is added.
-/

namespace CoopDB

/-- The role statements run with, on a connection of the given login role. -/
def Settings.effectiveRole (login : String) (s : Settings) : String :=
  if s.role = "none" then login else s.role

/-- A message sent on the connection of a transaction. The caller's statement
    is recorded with the settings in force when it starts. -/
inductive Sent
  | begin
  | setLocal (a : Assign)
  | statement (sql : String) (current : Settings)
  | commit
  | rollback

/-- Send one transaction-local assignment, and go on if it is accepted. -/
def sendLocal (a : Assign) (context : String) (reply : Option DbError) (t : Tx)
    (next : Tx → List Sent × Except Failure Tx) : List Sent × Except Failure Tx :=
  match reply with
  | some e => ([.setLocal a], .error (e.wrap context))
  | none =>
    let rest := next (t.perform (.setLocal a))
    (.setLocal a :: rest.1, rest.2)

/-- `Setup`, with the statements it sends. -/
def setupSent (workspaceID pgRole : String) (stmtTimeout idleTimeout : Time) (db : SetupReplies)
    (t : Tx) : List Sent × Except Failure Tx :=
  if workspaceID = "" then ([], .error (.other "tenant.Setup: empty workspace_id"))
  else if pgRole = "" then ([], .error (.other "tenant.Setup: empty pg_role"))
  else
    sendLocal (.statementTimeout (milliseconds stmtTimeout)) "set statement_timeout: "
      db.statementTimeout t fun t =>
    sendLocal (.idleInTransactionSessionTimeout (milliseconds idleTimeout))
      "set idle_in_transaction_session_timeout: " db.idleInTransactionSessionTimeout t fun t =>
    sendLocal (.workspaceID workspaceID) "set app.workspace_id: " db.workspaceID t fun t =>
    if !isSafeRoleName pgRole then
      ([], .error (.other ("unsafe pg_role identifier: " ++ goQuote pgRole)))
    else
      sendLocal (.role pgRole) "set local role: " db.role t fun t =>
      sendLocal (.searchPath ["public"]) "set search_path: " db.searchPath t fun t =>
      ([], .ok t)

/-- `Execute`, with the messages it sends. -/
def executeSent (q : PgQuery) (cfg : ExecutorConfig) (c : Conn) (input : ExecuteInput)
    (db : DbScript) : List Sent × Executed :=
  match input.result with
  | none => ([], { conn := c, outcome := .error (.other "executor.Execute: nil validator result"),
                   committed := false })
  | some r =>
    match db.begin with
    | some e => ([.begin], { conn := c, outcome := .error (e.wrap "begin: "), committed := false })
    | none =>
      let ready := setupSent input.workspaceID input.pgRole cfg.statementTimeout cfg.idleInTxTimeout
        db.setup (Tx.start c.session)
      match ready.2 with
      | .error e =>
        let failure : Failure := match e with
          | .other text => .other ("tenant setup: " ++ text)
          | e => e
        (.begin :: ready.1 ++ [.rollback],
          { conn := c.rollback, outcome := .error failure, committed := false })
      | .ok t =>
        let sent := .begin :: ready.1 ++ [.statement input.sql t.current]
        match runStatement cfg r db with
        | .error e => (sent ++ [.rollback],
            { conn := c.rollback, outcome := .error e, committed := false })
        | .ok response =>
          let c := ({ c with tx := some t } : Conn).statement (parsed q input.sql) db
          match db.commit with
          | some e => (sent ++ [.commit],
              { conn := c.rollback, outcome := .error (classifyPgErr e), committed := false })
          | none => (sent ++ [.commit],
              { conn := c.commit, outcome := .ok response, committed := true })

theorem setupSent_snd (workspaceID pgRole : String) (stmtTimeout idleTimeout : Time)
    (db : SetupReplies) (t : Tx) :
    (setupSent workspaceID pgRole stmtTimeout idleTimeout db t).2
      = setup workspaceID pgRole stmtTimeout idleTimeout db t := by
  unfold setupSent setup
  by_cases hws : workspaceID = ""
  · rw [if_pos hws, if_pos hws]
  · by_cases hrole : pgRole = ""
    · rw [if_neg hws, if_neg hws, if_pos hrole, if_pos hrole]
    · rw [if_neg hws, if_neg hws, if_neg hrole, if_neg hrole]
      -- Statement by statement: a refusal ends both, an acceptance goes on.
      cases db.statementTimeout with
      | some => rfl
      | none =>
        cases db.idleInTransactionSessionTimeout with
        | some => rfl
        | none =>
          cases db.workspaceID with
          | some => rfl
          | none =>
            cases hsafe : isSafeRoleName pgRole with
            | false => simp [sendLocal]
            | true =>
              simp only [sendLocal, Bool.not_true, Bool.false_eq_true, if_false]
              cases db.role with
              | some => rfl
              | none =>
                cases db.searchPath with
                | some | none => rfl

theorem executeSent_snd (q : PgQuery) (cfg : ExecutorConfig) (c : Conn) (input : ExecuteInput)
    (db : DbScript) : (executeSent q cfg c input db).2 = execute q cfg c input db := by
  unfold executeSent execute
  cases input.result with
  | none => rfl
  | some r =>
    cases db.begin with
    | some => rfl
    | none =>
      simp only [setupSent_snd]
      cases setup input.workspaceID input.pgRole cfg.statementTimeout cfg.idleInTxTimeout
          db.setup (Tx.start c.session) with
      | error => rfl
      | ok =>
        cases runStatement cfg r db with
        | error => rfl
        | ok =>
          cases db.commit with
          | some | none => rfl

end CoopDB
