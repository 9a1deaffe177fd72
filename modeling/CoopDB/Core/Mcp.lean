import CoopDB.Core.Audit
import CoopDB.Core.Unmarshal
import Mathlib.Algebra.Group.Nat.Defs

/-!
# The MCP Tools

The tools `sql_execute` and `rpc_call` of `internal/mcp/tools.go`, over the two
implementations of `Doer`: `directDoer` of `cmd/server/direct_doer.go`, which
calls the validator, the executor and the dispatcher itself, and `Client` of
`internal/mcp/client.go`, which sends a request to the REST handlers and decodes
what comes back.

The two are given the same surroundings, so that they can be compared: the caller,
the connection, the answers of the database and of the idempotency store, and the
measured times. A request of the client reaches its handler, that is, it is
authenticated and within its rate. The audit entries of `directDoer` are left out.

The text of a Postgres error depends on where the error came from, and `Failure`
does not keep that. In one call at most one error is returned, so its text comes
with the surroundings.

## Main definitions

* `directDoer`, `client`: The two implementations.
-/

namespace CoopDB

/-- `SQLResult`. -/
structure SQLResult where
  command : String
  columns : Json.Slice String
  rows : Json.Slice (Json.Slice Json.Value)
  rowsAffected : Int
  durationMS : Int

/-- The zero value of the struct. -/
def SQLResult.zero : SQLResult :=
  { command := "", columns := none, rows := none, rowsAffected := 0, durationMS := 0 }

/-- A slice as the encoder sees it. -/
def Json.ofSlice {α : Type} (elem : α → Json.Value) : Json.Slice α → Json.Value
  | none => .null
  | some xs => .array (xs.map elem)

/-- The result as the encoder sees it. No field is left out when it is empty. -/
def SQLResult.document (r : SQLResult) : Json.Value :=
  .object [("command", .string r.command), ("columns", Json.ofSlice .string r.columns),
    ("rows", Json.ofSlice (Json.ofSlice id) r.rows),
    ("rows_affected", .number (toString r.rowsAffected)),
    ("duration_ms", .number (toString r.durationMS))]

/-- `json.Unmarshal` into an `SQLResult`. -/
def Json.GoJson.decodeSQLResult (j : Json.GoJson) : Json.Value → Option SQLResult
  | .null => some SQLResult.zero
  | .object fields => do
    let command ← Json.stringField (Json.field "command" fields)
    let columns ← Json.sliceField (fun v => Json.stringField (some v)) (Json.field "columns" fields)
    let rows ← Json.sliceField (fun v => Json.sliceField j.decode (some v))
      (Json.field "rows" fields)
    let rowsAffected ← Json.intField (Json.field "rows_affected" fields)
    let durationMS ← Json.intField (Json.field "duration_ms" fields)
    return { command := command, columns := columns, rows := rows, rowsAffected := rowsAffected
             durationMS := durationMS }
  | _ => none

/-- A `map[string]any`, `none` being nil. -/
abbrev GoMap := Option (List (String × Json.Value))

/-- The two methods of `Doer` the tools here call, an error being its text. -/
structure Doer where
  sqlExecute : String → Json.Slice Json.Value → String → Except String SQLResult
  rpcCall : String → GoMap → Except String GoMap

/-- The parts of `CallToolResult` the tools set. -/
structure ToolResult where
  text : String
  isError : Bool
  deriving DecidableEq, Repr

/-- `errResult`. -/
def errResult (msg : String) : ToolResult :=
  { text := msg, isError := true }

/-- `jsonResult`. -/
def jsonResult (j : Json.GoJson) (v : Json.Value) : ToolResult :=
  match v.marshal with
  | none => errResult ("marshal result: " ++ j.marshalError v)
  | some text => { text := Json.indent text, isError := false }

/-- A tool call with the arguments of its request. They have been decoded from
    JSON: an argument is what an `any` holds, and it lay three levels deep in
    its document. -/
structure ToolCall (j : Json.GoJson) where
  args : String → Option Json.Value
  decoded : ∀ name v, args name = some v → j.decode v = some v
  nested : ∀ name v, args name = some v → v.depth + 3 ≤ Json.maxNestingDepth

/-- An argument that is asserted to be a string, empty if it is none. -/
def stringArg : Option Json.Value → String
  | some (.string s) => s
  | _ => ""

/-- An argument that is asserted to be a list. -/
def listArg : Option Json.Value → Json.Slice Json.Value
  | some (.array vs) => some vs
  | _ => none

/-- An argument that is asserted to be a map. -/
def mapArg : Option Json.Value → GoMap
  | some (.object fields) => some fields
  | _ => none

section Arguments

variable {j : Json.GoJson} (call : ToolCall j)

/-- The statement. -/
def ToolCall.sql : String :=
  stringArg (call.args "sql")

/-- The parameters of the statement. -/
def ToolCall.params : Json.Slice Json.Value :=
  listArg (call.args "params")

/-- The idempotency key. -/
def ToolCall.idempotencyKey : String :=
  stringArg (call.args "idempotency_key")

/-- The procedure. -/
def ToolCall.procedure : String :=
  stringArg (call.args "procedure")

/-- The arguments of the procedure. -/
def ToolCall.rpcArgs : GoMap :=
  mapArg (call.args "args")

end Arguments

/-- `handleSQLExecute` of the tools. -/
def Tools.handleSQLExecute (j : Json.GoJson) (d : Doer) (call : ToolCall j) : ToolResult :=
  if call.sql = "" then errResult "required parameter 'sql' is missing or empty"
  else
    match d.sqlExecute call.sql call.params call.idempotencyKey with
    | .error e => errResult e
    | .ok result => jsonResult j result.document

/-- A map as the encoder sees it. -/
def Json.ofMap : GoMap → Json.Value
  | none => .null
  | some fields => .object fields

/-- `handleRPCCall` of the tools. -/
def Tools.handleRPCCall (j : Json.GoJson) (d : Doer) (call : ToolCall j) : ToolResult :=
  if call.procedure = "" then errResult "required parameter 'procedure' is missing or empty"
  else
    match d.rpcCall call.procedure call.rpcArgs with
    | .error e => errResult e
    | .ok result => jsonResult j (Json.ofMap result)

/-- The server, the JSON library, the cap of `MaxBodyBytes` on a request, and
    where the client finds the gateway. -/
structure Mcp where
  api : Api
  json : Json.GoJson
  maxRequestBodyBytes : Int
  baseURL : String

/-- What one tool call meets: the caller, the connection the pool hands out, the
    answers of the idempotency store and of the database, the times that are
    measured, and the text of a Postgres error. -/
structure Surroundings where
  ws : WorkspaceContext
  conn : Conn
  info : RequestInfo
  begun : Answer
  sql : DbScript
  callBegun : Except BeginFailure IdempotencyResult
  rpc : RunScript
  rpcDurationMS : Int
  pgText : PgError → String

/-- `Error` of an error of the validator or the executor. -/
def Surroundings.errorText (w : Surroundings) : Failure → String
  | .responseTooLarge => "response exceeds maximum allowed size"
  | .validation code message => code ++ ": " ++ message
  | .pg e => w.pgText e
  | .other text => text

/-- What `Execute` is called with. -/
def Surroundings.executeInput (w : Surroundings) (sql : String) (params : List Json.Value)
    (res : Result) : ExecuteInput :=
  { workspaceID := w.ws.workspaceID, pgRole := w.ws.pgRole, sql := sql, params := params
    result := some res }

/-- What `Execute` returns for a statement. -/
def Mcp.executed (m : Mcp) (w : Surroundings) (sql : String) (params : List Json.Value)
    (res : Result) : Except Failure Response :=
  (execute m.api.q m.api.executor w.conn (w.executeInput sql params res) w.sql).outcome

/-- The `SQLResult` of `directDoer`. `Execute` makes the columns of a query, even
    where there are none, and appends rows to a nil slice. -/
def embedded (res : Result) (response : Response) : SQLResult :=
  { command := response.command
    columns := if res.isSelect || res.hasReturning then some response.columns else none
    rows := if response.rows.isEmpty then none else some (response.rows.map some)
    rowsAffected := response.rowsAffected
    durationMS := response.durationMS }

/-- What `Call` is called with by a caller that sends no idempotency key. -/
def Mcp.callInput (m : Mcp) (w : Surroundings) (procedure : String)
    (args : List (String × Json.Value)) : RpcCall :=
  { workspaceID := w.ws.workspaceID, pgRole := w.ws.pgRole, name := procedure, args := args
    idempotencyKey := "", statementTimeout := m.api.statementTimeout
    idleInTxTimeout := m.api.idleInTxTimeout, begun := w.callBegun, db := w.rpc
    durationMS := w.rpcDurationMS }

/-- What `Call` returns for it. -/
def Mcp.called (m : Mcp) (w : Surroundings) (procedure : String)
    (args : List (String × Json.Value)) : Except CallError CallResult :=
  (Dispatcher.call m.api.registry w.conn (m.callInput w procedure args)).outcome

/-- `json.Unmarshal` of a JSON column into a map. -/
def Json.GoJson.columnMap (j : Json.GoJson) (v : Json.Value) : Option GoMap :=
  if v.depth ≤ Json.maxNestingDepth then j.decodeMap v else none

/-- The result of a procedure as a map. -/
def Json.GoJson.decodeResult (j : Json.GoJson) : Option Json.Value → Except String GoMap
  | none => .ok none
  | some v =>
    match j.columnMap v with
    | none => .error ("unmarshal rpc result: " ++ j.unmarshalError (utf8 (v.marshal.getD "")))
    | some result => .ok result

/-- `directDoer`. It makes no use of the idempotency key. -/
def directDoer (m : Mcp) (w : Surroundings) : Doer where
  sqlExecute sql params _ :=
    match validate m.api.q m.api.validator sql (params.getD []) with
    | .error e => .error (w.errorText e)
    | .ok res =>
      match m.executed w sql (params.getD []) res with
      | .error e => .error (w.errorText e)
      | .ok response => .ok (embedded res response)
  rpcCall procedure args :=
    match m.called w procedure (args.getD []) with
    | .error e => .error (w.errorText e.failure)
    | .ok res => m.json.decodeResult res.result

/-- `http.StatusText` of the error statuses. -/
def statusTexts : List (Int × String) :=
  [(400, "Bad Request"), (401, "Unauthorized"), (402, "Payment Required"), (403, "Forbidden"),
    (404, "Not Found"), (405, "Method Not Allowed"), (406, "Not Acceptable"),
    (407, "Proxy Authentication Required"), (408, "Request Timeout"), (409, "Conflict"),
    (410, "Gone"), (411, "Length Required"), (412, "Precondition Failed"),
    (413, "Request Entity Too Large"), (414, "Request URI Too Long"),
    (415, "Unsupported Media Type"), (416, "Requested Range Not Satisfiable"),
    (417, "Expectation Failed"), (418, "I'm a teapot"), (421, "Misdirected Request"),
    (422, "Unprocessable Entity"), (423, "Locked"), (424, "Failed Dependency"),
    (425, "Too Early"), (426, "Upgrade Required"), (428, "Precondition Required"),
    (429, "Too Many Requests"), (431, "Request Header Fields Too Large"),
    (451, "Unavailable For Legal Reasons"), (500, "Internal Server Error"),
    (501, "Not Implemented"), (502, "Bad Gateway"), (503, "Service Unavailable"),
    (504, "Gateway Timeout"), (505, "HTTP Version Not Supported"),
    (506, "Variant Also Negotiates"), (507, "Insufficient Storage"), (508, "Loop Detected"),
    (510, "Not Extended"), (511, "Network Authentication Required")]

/-- The fields of an error document. One that cannot be read has none. -/
def problemFields (body : Bytes) : List (String × Json.Value) :=
  match Json.unmarshal body with
  | some (.object fields) => fields
  | _ => []

/-- A field of `GatewayError` that is a string, empty if it could not be read. -/
def gatewayField (name : String) (body : Bytes) : String :=
  stringArg (Json.field name (problemFields body))

/-- `Error` of a `GatewayError`. -/
def gatewayError (status : Int) (body : Bytes) : String :=
  let title :=
    if gatewayField "title" body = "" then (statusTexts.lookup status).getD ""
    else gatewayField "title" body
  if gatewayField "detail" body ≠ "" then title ++ ": " ++ gatewayField "detail" body else title

/-- What the client reads of a body at most. -/
def maxResponseSize : Nat :=
  10 * 2 ^ 20

/-- `doAndDecode`, with how the destination is read and what it holds before. -/
def doAndDecode {α : Type} (j : Json.GoJson) (zero : α) (decode : Json.Value → Option α)
    (reply : HttpReply) : Except String α :=
  let body := reply.body.take maxResponseSize
  if reply.status ≥ 400 then .error (gatewayError reply.status body)
  else if body.isEmpty then .ok zero
  else
    match (Json.unmarshal body).bind decode with
    | none => .error ("decode response: " ++ j.unmarshalError body)
    | some result => .ok result

/-- A header value that may be sent. -/
def validHeaderValue (value : String) : Bool :=
  value.toList.all fun c => c = '\t' || (decide (0x20 ≤ c.toNat) && decide (c.toNat ≠ 0x7f))

/-- A header value as it is received, without the blanks around it. -/
def receivedHeader (value : String) : String :=
  let blank : Char → Bool := fun c => c = ' ' || c = '\t'
  String.ofList (((value.toList.dropWhile blank).reverse.dropWhile blank).reverse)

/-- Reading a body behind `MaxBodyBytes`. -/
def Mcp.readBody (m : Mcp) (body : Bytes) : Except String Unit :=
  if (body.length : Int) > m.maxRequestBodyBytes then .error "http: request body too large"
  else .ok ()

/-- A body decoded into a request struct. -/
def Mcp.decodeBody {α : Type} (m : Mcp) (decode : Json.Value → Option α) (body : Bytes) :
    Except String α :=
  match (Json.unmarshal body).bind decode with
  | none => .error (m.json.unmarshalError body)
  | some req => .ok req

/-- `json.Unmarshal` into an `sqlExecuteRequest`. -/
def Json.GoJson.decodeSqlRequest (j : Json.GoJson) : Json.Value → Option SqlExecuteRequest
  | .null => some { sql := "", params := [] }
  | .object fields => do
    let sql ← Json.stringField (Json.field "sql" fields)
    let params ← Json.sliceField j.decode (Json.field "params" fields)
    return { sql := sql, params := params.getD [] }
  | _ => none

/-- `json.Unmarshal` into an `rpcCallRequest`. -/
def Json.GoJson.decodeRpcRequest (j : Json.GoJson) : Json.Value → Option RpcCallRequest
  | .null => some { procedure := "", args := [] }
  | .object fields => do
    let procedure ← Json.stringField (Json.field "procedure" fields)
    let args ← j.decodeMap ((Json.field "args" fields).getD .null)
    return { procedure := procedure, args := args.getD [] }
  | _ => none

/-- A request to run a statement, as its handler finds it. -/
def Mcp.sqlRequest (m : Mcp) (w : Surroundings) (idemKey : String) (body : Bytes) : SqlRequest :=
  { workspaceID := w.ws.workspaceID, pgRole := w.ws.pgRole, readBody := m.readBody body
    decoded := m.decodeBody m.json.decodeSqlRequest body, idemKey := receivedHeader idemKey
    begun := w.begun, db := w.sql }

/-- What the gateway answers to it. -/
def Mcp.postSQL (m : Mcp) (w : Surroundings) (idemKey : String) (body : Bytes) : HttpReply :=
  (handleSQL m.api.q m.api.validator m.api.executor m.api.maxResponseBodyBytes w.conn w.info w.ws
    (m.sqlRequest w idemKey body)).reply.http

/-- A request to call a procedure, as its handler finds it. -/
def Mcp.rpcRequest (m : Mcp) (w : Surroundings) (body : Bytes) : RpcRequest :=
  { readBody := m.readBody body, decoded := m.decodeBody m.json.decodeRpcRequest body
    idemKey := "", begun := w.callBegun, db := w.rpc, durationMS := w.rpcDurationMS }

/-- What the gateway answers to it. -/
def Mcp.postRPC (m : Mcp) (w : Surroundings) (body : Bytes) : HttpReply :=
  (handleRPCCall m.api.registry m.api.statementTimeout m.api.idleInTxTimeout w.conn w.info w.ws
    (m.rpcRequest w body)).reply.http

/-- The body of a request to run a statement, in the order of its keys. -/
def sqlBody (sql : String) (params : Json.Slice Json.Value) : Json.Value :=
  match params with
  | none => .object [("sql", .string sql)]
  | some vs => .object [("params", .array vs), ("sql", .string sql)]

/-- The body of a request to call a procedure, in the order of its keys. -/
def rpcBody (procedure : String) (args : GoMap) : Json.Value :=
  match args with
  | none => .object [("procedure", .string procedure)]
  | some fields => .object [("args", .object fields), ("procedure", .string procedure)]

/-- `Client`. The key is sent with a statement only. -/
def client (m : Mcp) (w : Surroundings) : Doer where
  sqlExecute sql params idemKey :=
    match (sqlBody sql params).marshal with
    | none => .error ("marshal request: " ++ m.json.marshalError (sqlBody sql params))
    | some text =>
      if !validHeaderValue idemKey then
        .error ("http request: Post \"" ++ m.baseURL ++
          "/v1/sql/execute\": net/http: invalid header field value for \"Idempotency-Key\"")
      else
        doAndDecode m.json SQLResult.zero m.json.decodeSQLResult
          (m.postSQL w idemKey (utf8 text))
  rpcCall procedure args :=
    match (rpcBody procedure args).marshal with
    | none => .error ("marshal request: " ++ m.json.marshalError (rpcBody procedure args))
    | some text => doAndDecode m.json none m.json.decodeMap (m.postRPC w (utf8 text))

end CoopDB
