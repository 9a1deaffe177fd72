import CoopDB.Core.Keys
import CoopDB.Core.Rpc

/-!
# The Handlers and Their Audit Entries

The five routes of `internal/httpapi/api.go` behind authentication, with what
they write to the audit log.

The handlers call `audit` by hand, at some of their exits. So each handler is
written out once more here, exit by exit, and answers the reply together with
the entries. For the SQL endpoint `Theory.Audit` shows that the reply is that of
`Core.Handlers`. The rate limiter stands between authentication and the
handlers. What it decides for a request is given with the request here, and
`Core.RateLimit` says how it decides.

An auditor is configured. The entry is what `audit` hands to it, and the writer
itself, which hashes the statement and inserts the row, is left out.

## Main definitions

* `ApiRequest`, `Api`, `serveRoute`: The five routes.
-/

namespace CoopDB

/-- `audit.Entry`. -/
structure AuditEntry where
  requestID : String
  workspaceID : String
  keyDBID : String
  endpoint : String
  command : String
  sql : String
  params : List Json.Value
  durationMS : Int
  statusCode : Int
  errorCode : String
  sqlState : String
  clientIP : String

/-- What `audit` reads of a request besides its caller: the id, the client, and
    the time it has taken by then. -/
structure RequestInfo where
  requestID : String
  clientIP : String
  durationMS : Int

/-- The entry of one call of `audit`. -/
def audit (info : RequestInfo) (ws : WorkspaceContext) (endpoint command sql : String)
    (params : List Json.Value) (status : Int) (err : Option Failure) : AuditEntry :=
  { requestID := info.requestID, workspaceID := ws.workspaceID, keyDBID := ws.keyDBID
    endpoint := endpoint, command := command, sql := sql, params := params
    durationMS := info.durationMS, statusCode := status
    errorCode := match err with
      | none => ""
      | some e => (mapError (some e)).title
    sqlState := match err with
      | none => ""
      | some e => (mapError (some e)).sqlState
    clientIP := info.clientIP }

/-- A reply, and the audit entries written by then. -/
structure Handled where
  reply : ApiReply
  entries : List AuditEntry

/-- The part of `handleSQLExecute` after the idempotency layer. -/
def executeSQL (q : PgQuery) (executor : ExecutorConfig) (maxResponseBodyBytes : Int) (c : Conn)
    (info : RequestInfo) (ws : WorkspaceContext) (req : SqlExecuteRequest) (res : Result)
    (db : DbScript) : Handled :=
  let entry := audit info ws "POST /v1/sql/execute" res.command req.sql req.params
  match (execute q executor c
    { workspaceID := ws.workspaceID, pgRole := ws.pgRole, sql := req.sql, params := req.params
      result := some res } db).outcome with
  | .error e =>
    let problem := mapError (some e)
    { reply := .problem problem, entries := [entry problem.status (some e)] }
  | .ok response =>
    let body := responseBody response
    if maxResponseBodyBytes > 0 ∧ (body.length : Int) > maxResponseBodyBytes then
      { reply := .problem serializedTooLarge
        entries := [entry serializedTooLarge.status (some .responseTooLarge)] }
    else { reply := .document 200 false body, entries := [entry 200 none] }

/-- `handleSQLExecute` with its audit entries, for a request of the caller. -/
def handleSQL (q : PgQuery) (validator : ValidatorConfig) (executor : ExecutorConfig)
    (maxResponseBodyBytes : Int) (c : Conn) (info : RequestInfo) (ws : WorkspaceContext)
    (r : SqlRequest) : Handled :=
  match r.readBody with
  | .error e =>
    { reply := .problem { title := "body_too_large", status := 413, detail := e, sqlState := "" }
      entries := [] }
  | .ok _ =>
    match r.decoded with
    | .error e =>
      { reply := .problem { title := "invalid_json", status := 400, detail := e, sqlState := "" }
        entries := [] }
    | .ok req =>
      match validate q validator req.sql req.params with
      | .error e =>
        { reply := .problem (mapError (some e))
          entries := [audit info ws "POST /v1/sql/execute" "" req.sql req.params 400 (some e)] }
      | .ok res =>
        if r.idemKey = "" then
          executeSQL q executor maxResponseBodyBytes c info ws req res r.db
        else
          match r.begun with
          | .error .conflict =>
            { reply := .problem
                { title := "idempotency_conflict", status := 409
                  detail := "idempotency key was used with a different request body"
                  sqlState := "" }
              entries := [] }
          | .error _ =>
            { reply := .problem
                { title := "idempotency_internal", status := 500
                  detail := "a request with this idempotency key is already in progress"
                  sqlState := "" }
              entries := [] }
          | .ok ir =>
            if ir.replay then
              { reply := .document ir.statusCode true ir.body, entries := [] }
            else executeSQL q executor maxResponseBodyBytes c info ws req res r.db

/-- The call `handleRPCCall` makes for a decoded request. -/
def RpcRequest.call (r : RpcRequest) (ws : WorkspaceContext) (req : RpcCallRequest)
    (statementTimeout idleInTxTimeout : Time) : RpcCall :=
  { workspaceID := ws.workspaceID, pgRole := ws.pgRole, name := req.procedure, args := req.args
    idempotencyKey := r.idemKey, statementTimeout := statementTimeout
    idleInTxTimeout := idleInTxTimeout, begun := r.begun, db := r.db, durationMS := r.durationMS }

/-- `handleRPCCall`. -/
def handleRPCCall (registry : Registry) (statementTimeout idleInTxTimeout : Time) (c : Conn)
    (info : RequestInfo) (ws : WorkspaceContext) (r : RpcRequest) : Handled :=
  match r.readBody with
  | .error e =>
    { reply := .problem { title := "body_too_large", status := 413, detail := e, sqlState := "" }
      entries := [] }
  | .ok _ =>
    match r.decoded with
    | .error e =>
      { reply := .problem { title := "invalid_json", status := 400, detail := e, sqlState := "" }
        entries := [] }
    | .ok req =>
      let entry := audit info ws "POST /v1/rpc/call" "RPC" req.procedure [.object req.args]
      match (Dispatcher.call registry c
        (r.call ws req statementTimeout idleInTxTimeout)).outcome with
      | .error e => { reply := .problem e.problem, entries := [entry 500 (some e.failure)] }
      | .ok res =>
        if res.replay then
          { reply := .document res.cachedStatus true res.cachedBody, entries := [] }
        else
          { reply := .document 200 false (utf8 ((res.marshal.map (· ++ "\n")).getD ""))
            entries := [entry 200 none] }

/-- What the limiter answers to a request it does not admit. -/
def rateLimited : Problem :=
  { title := "rate_limited", status := 429
    detail := "this key is sending requests too fast — slow down or raise the limit"
    sqlState := "" }

/-- The document of a created key. -/
def createdDocument (status : Int) (created : CreatedKey) (notice : String) : ApiReply :=
  .document status false (utf8 (Json.object [("new_key_id", Json.quote created.keyID),
    ("token", Json.quote created.fullToken), ("notice", Json.quote notice)] ++ "\n"))

/-- A request to one of the five routes, with what the answer to it depends
    on. -/
inductive ApiRequest
  | sqlExecute (r : SqlRequest)
  | rpcCall (r : RpcRequest)
  | rotateKey (now : Time) (mint : Except String Minted) (db : RotateReplies)
  | createKey (body : Except String CreateKeyRequest) (mint : Except String Minted)
      (db : CreateReplies)
  | me

/-- The dependencies and the configuration of the handlers. `server` is the
    build information as JSON. -/
structure Api where
  x : KeyExternals
  roles : PgRoles
  q : PgQuery
  validator : ValidatorConfig
  executor : ExecutorConfig
  registry : Registry
  maxResponseBodyBytes : Int
  statementTimeout : Time
  idleInTxTimeout : Time
  keyRotateOverlap : Time
  server : String

/-- An authenticated request on its way through the limiter to its handler. -/
def serveRoute (a : Api) (keys : Keys) (c : Conn) (info : RequestInfo) (ws : WorkspaceContext)
    (admitted : Bool) (r : ApiRequest) : Handled :=
  if !admitted then { reply := .problem rateLimited, entries := [] }
  else
    match r with
    | .sqlExecute r =>
      handleSQL a.q a.validator a.executor a.maxResponseBodyBytes c info ws r
    | .rpcCall r => handleRPCCall a.registry a.statementTimeout a.idleInTxTimeout c info ws r
    | .rotateKey now mint db =>
      match handleKeyRotate a.x ws a.keyRotateOverlap now mint db keys with
      | .error p => { reply := .problem p, entries := [] }
      | .ok (_, created) =>
        { reply := createdDocument 200 created
            "old key remains active for the configured overlap window"
          entries := [] }
    | .createKey body mint db =>
      match handleKeyCreate a.x a.roles ws body mint db keys with
      | .error p => { reply := .problem p, entries := [] }
      | .ok (_, created) =>
        { reply := createdDocument 201 created "this token is shown exactly once — store it now"
          entries := [] }
    | .me =>
      { reply := .document 200 false (utf8 (Json.object
          [("workspace_id", Json.quote ws.workspaceID), ("key_id", Json.quote ws.keyID),
            ("role", Json.quote ws.pgRole), ("env", Json.quote ws.env.tag),
            ("server", a.server)] ++ "\n"))
        entries := [] }

end CoopDB
