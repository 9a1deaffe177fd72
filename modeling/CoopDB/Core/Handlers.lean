import CoopDB.Core.Executor
import CoopDB.Core.Idempotency

/-!
# The SQL Handler and the RPC Dispatcher

`handleSQLExecute` of `internal/httpapi/api.go` for one request, and what
`Dispatcher.Call` of `internal/rpc/dispatcher.go` stores for a replay.

The handler is a function of what it receives: the body as it could be read,
the answer `BeginOrReplay` gave it, and the database's script for `Execute`.
`finishSQL` is its tail, after `Execute` has returned. It fixes both the reply
and the arguments of `Complete`, and it holds the second of the two size
checks: the whole document this time, against the same limit, after the
commit. The tail is a definition of its own because the interleaved model in
`Core.Gateway` takes it as one step.

Audit rows, metrics and log lines are written along the way. They depend on
the request and never the other way round, so they are left out here.

## Main definitions

* `SqlHandled`, `handleSQLExecute`: The SQL handler.
-/

namespace CoopDB

/-- The parts of a reply the handlers set. -/
structure HttpReply where
  status : Int
  contentType : String
  replayed : Bool
  body : Bytes

/-- `WriteProblem`. The encoder ends the document with a newline. -/
def problemReply (p : Problem) : HttpReply :=
  { status := p.status, contentType := "application/problem+json", replayed := false,
    body := utf8 (p.marshal ++ "\n") }

/-- The problem of a response that turns out too large once serialised. -/
def serializedTooLarge : Problem :=
  { title := "response_too_large", status := 413,
    detail := "serialized response exceeds AGENTCOOPDB_MAX_RESPONSE_BODY_BYTES", sqlState := "" }

/-- The body of the response. An encoding error is dropped, with no bytes. -/
def responseBody (r : Response) : Bytes :=
  utf8 (r.marshal.getD "")

/-- The tail of `handleSQLExecute`: the reply, and what is passed to
    `Complete` when the request has a key. -/
def finishSQL (maxResponseBodyBytes : Int) : Except Failure Response → HttpReply × Completion
  | .error e =>
    let problem := mapError (some e)
    (problemReply problem,
      { status := problem.status, body := utf8 problem.marshal, ok := false })
  | .ok response =>
    let body := responseBody response
    -- The transaction is committed by now; the check only decides the reply.
    if maxResponseBodyBytes > 0 ∧ (body.length : Int) > maxResponseBodyBytes then
      (problemReply serializedTooLarge,
        { status := serializedTooLarge.status, body := utf8 serializedTooLarge.marshal,
          ok := false })
    else
      ({ status := 200, contentType := "application/json", replayed := false, body := body },
        { status := 200, body := body, ok := true })

/-- The decoded request body. -/
structure SqlExecuteRequest where
  sql : String
  params : List Json.Value

/-- Everything one request to the endpoint brings with it: the caller, the
    body as it could be read and decoded, the header, what `BeginOrReplay`
    answers if it is asked, and the database's side of `Execute`. -/
structure SqlRequest where
  workspaceID : String
  pgRole : String
  readBody : Except String Unit
  decoded : Except String SqlExecuteRequest
  idemKey : String
  begun : Answer
  db : DbScript

/-- What the handler did: the reply, the call of `Complete` if it came to one,
    and what `Execute` did if it was called. -/
structure SqlHandled where
  reply : HttpReply
  completion : Option Completion
  executed : Option Executed

/-- `handleSQLExecute`, on the connection the pool hands to `Execute`. -/
def handleSQLExecute (q : PgQuery) (validator : ValidatorConfig) (executor : ExecutorConfig)
    (maxResponseBodyBytes : Int) (c : Conn) (r : SqlRequest) : SqlHandled :=
  match r.readBody with
  | .error e =>
    { reply := problemReply { title := "body_too_large", status := 413, detail := e,
                              sqlState := "" }
      completion := none, executed := none }
  | .ok _ =>
    match r.decoded with
    | .error e =>
      { reply := problemReply { title := "invalid_json", status := 400, detail := e,
                                sqlState := "" }
        completion := none, executed := none }
    | .ok req =>
      match validate q validator req.sql req.params with
      | .error e => { reply := problemReply (mapError (some e)), completion := none,
                      executed := none }
      | .ok res =>
        let run : SqlHandled :=
          let done := execute q executor c
            { workspaceID := r.workspaceID, pgRole := r.pgRole, sql := req.sql,
              params := req.params, result := some res } r.db
          let tail := finishSQL maxResponseBodyBytes done.outcome
          { reply := tail.1, completion := if r.idemKey = "" then none else some tail.2,
            executed := some done }
        if r.idemKey = "" then run
        else
          match r.begun with
          | .error .conflict =>
            { reply := problemReply
                { title := "idempotency_conflict", status := 409,
                  detail := "idempotency key was used with a different request body",
                  sqlState := "" }
              completion := none, executed := none }
          | .error _ =>
            { reply := problemReply
                { title := "idempotency_internal", status := 500,
                  detail := "a request with this idempotency key is already in progress",
                  sqlState := "" }
              completion := none, executed := none }
          | .ok ir =>
            if ir.replay then
              { reply := { status := ir.statusCode, contentType := "application/json",
                           replayed := true, body := ir.body }
                completion := none, executed := none }
            else run

/-- The procedure ran without an error. -/
def rpcSucceeded : Except Failure (Option Json.Value) → Bool
  | .ok _ => true
  | .error _ => false

/-- The result of the procedure as a JSON document, `null` where `run` failed
    or the column was null. -/
def rpcResult : Except Failure (Option Json.Value) → Option String
  | .ok (some v) => v.marshal
  | _ => some "null"

/-- What `Dispatcher.Call` passes to `Complete`. -/
def finishRPC (procedure : String) (result : Except Failure (Option Json.Value))
    (durationMS : Int) : Completion :=
  { status := if rpcSucceeded result then 200 else 500
    body := utf8 (((rpcResult result).map (fun text => Json.object
      [("duration_ms", toString durationMS), ("procedure", Json.quote procedure),
        ("result", text)])).getD "")
    ok := rpcSucceeded result }

end CoopDB
