import CoopDB.Core.Dispatcher
import CoopDB.Core.Handlers

/-!
# Calling a Procedure

`Dispatcher.Call` of `internal/rpc/dispatcher.go`, around the transaction of
`Dispatcher.run`, and how `handleRPCCall` of `internal/httpapi/api.go` answers
its errors. The handler itself is in `Core.Audit`.

A call is checked three times before anything is sent: the procedure is
registered, the key has the role the procedure asks for, and the arguments fit
its schema. Then comes the idempotency layer, which the SQL endpoint has in its
handler and the RPC endpoint inside `Call`.

`CallError` keeps the errors of `Call` apart as far as `errors.Is` and
`MapError` do. A Postgres error of `BeginOrReplay` reaches `MapError` with its
code, so it is kept apart from the other errors of the store. The JSON schema is
compiled and run by a library. A procedure has the function that comes of it.

## Main definitions

* `RpcCallRequest`, `RpcRequest`: What a request brings with it.
-/

namespace CoopDB

/-- A registered procedure, with what its compiled schema says to
    arguments. -/
structure Procedure where
  name : String
  requiredRole : String
  body : String
  schema : List (String × Json.Value) → Except String Unit

/-- `Registry.Get`. -/
abbrev Registry := String → Option Procedure

/-- An error of `BeginOrReplay`: one of the store, or one of Postgres. -/
inductive BeginFailure
  | store (e : BeginError)
  | pg (e : PgError)

/-- The errors of `Call`. -/
inductive CallError
  | unknownProcedure
  | roleNotPermitted (name requiredRole pgRole : String)
  | schema (detail : String)
  | begin (e : BeginFailure)
  | run (e : Failure)

/-- The text of `ErrUnknownProcedure`. -/
def unknownProcedureText : String :=
  "unknown procedure"

/-- The text of the error around `ErrRoleNotPermitted`. -/
def roleNotPermittedText (name requiredRole pgRole : String) : String :=
  "calling key cannot run this RPC: rpc " ++ goQuote name ++ " requires role " ++
    goQuote requiredRole ++ ", key has " ++ goQuote pgRole

/-- The error as `MapError` distinguishes it. -/
def CallError.failure : CallError → Failure
  | .unknownProcedure => .other unknownProcedureText
  | .roleNotPermitted name requiredRole pgRole =>
    .other (roleNotPermittedText name requiredRole pgRole)
  | .schema detail => .other ("rpc args validation: " ++ detail)
  | .begin (.store e) => .other e.message
  | .begin (.pg e) => .pg e
  | .run e => e

/-- `CallResult`. -/
structure CallResult where
  procedure : String
  result : Option Json.Value
  durationMS : Int
  replay : Bool
  cachedStatus : Int
  cachedBody : Bytes

/-- Everything one call brings with it: the caller, the decoded request, the
    header, the timeouts, what `BeginOrReplay` answers if it is asked, and the
    database's side of `run`. -/
structure RpcCall where
  workspaceID : String
  pgRole : String
  name : String
  args : List (String × Json.Value)
  idempotencyKey : String
  statementTimeout : Time
  idleInTxTimeout : Time
  begun : Except BeginFailure IdempotencyResult
  db : RunScript
  durationMS : Int

/-- What a call did: what it returned, the call of `Complete` if it came to
    one, and what `run` did if it was called. -/
structure Called where
  outcome : Except CallError CallResult
  completion : Option Completion
  ran : Option (List Sent × Ran)

/-- The transaction of the call was committed. -/
def Called.committed (called : Called) : Bool :=
  (called.ran.map (·.2.committed)).getD false

/-- The part of `Call` from `run` on. -/
def Dispatcher.dispatch (c : Conn) (proc : Procedure) (input : RpcCall) : Called :=
  let ran := Dispatcher.run c proc.body
    { workspaceID := input.workspaceID, pgRole := input.pgRole, args := input.args
      statementTimeout := input.statementTimeout, idleInTxTimeout := input.idleInTxTimeout }
    input.db
  { outcome :=
      match ran.2.outcome with
      | .error e => .error (.run e)
      | .ok result => .ok { procedure := proc.name, result := result
                            durationMS := input.durationMS, replay := false, cachedStatus := 0
                            cachedBody := [] }
    completion :=
      if input.idempotencyKey = "" then none
      else some (finishRPC proc.name ran.2.outcome input.durationMS)
    ran := some ran }

/-- `Call`. -/
def Dispatcher.call (registry : Registry) (c : Conn) (input : RpcCall) : Called :=
  match registry input.name with
  | none => { outcome := .error .unknownProcedure, completion := none, ran := none }
  | some proc =>
    if proc.requiredRole ≠ "" ∧ proc.requiredRole ≠ input.pgRole then
      { outcome := .error (.roleNotPermitted input.name proc.requiredRole input.pgRole)
        completion := none, ran := none }
    else
      match proc.schema input.args with
      | .error detail => { outcome := .error (.schema detail), completion := none, ran := none }
      | .ok _ =>
        if input.idempotencyKey = "" then Dispatcher.dispatch c proc input
        else
          match input.begun with
          | .error e => { outcome := .error (.begin e), completion := none, ran := none }
          | .ok ir =>
            if ir.replay then
              { outcome := .ok { procedure := "", result := none, durationMS := 0, replay := true
                                 cachedStatus := ir.statusCode, cachedBody := ir.body }
                completion := none, ran := none }
            else Dispatcher.dispatch c proc input

/-- `json.Marshal` of a result that is no replay. The three fields for replays
    have no tag, so they are written under their own names. -/
def CallResult.marshal (r : CallResult) : Option String :=
  (match r.result with
    | none => some "null"
    | some v => v.marshal).map fun text =>
      Json.object [("procedure", Json.quote r.procedure), ("result", text),
        ("duration_ms", toString r.durationMS), ("Replay", "false"), ("CachedStatus", "0"),
        ("CachedBody", "null")]

/-- What is written to the client: a problem document, or another one. -/
inductive ApiReply
  | problem (p : Problem)
  | document (status : Int) (replayed : Bool) (body : Bytes)

/-- The status that is sent. -/
def ApiReply.status : ApiReply → Int
  | .problem p => p.status
  | .document status _ _ => status

/-- The reply as it goes out. -/
def ApiReply.http : ApiReply → HttpReply
  | .problem p => problemReply p
  | .document status replayed body =>
    { status := status, contentType := "application/json", replayed := replayed, body := body }

/-- The document `handleRPCCall` writes for an error. -/
def CallError.problem : CallError → Problem
  | .unknownProcedure =>
    { title := "unknown_procedure", status := 404, detail := unknownProcedureText, sqlState := "" }
  | .roleNotPermitted name requiredRole pgRole =>
    { title := "permission_denied", status := 403
      detail := roleNotPermittedText name requiredRole pgRole, sqlState := "" }
  | .begin (.store .conflict) =>
    { title := "idempotency_conflict", status := 409, detail := BeginError.conflict.message
      sqlState := "" }
  | e => mapError (some e.failure)

/-- The decoded body of `POST /v1/rpc/call`. -/
structure RpcCallRequest where
  procedure : String
  args : List (String × Json.Value)

/-- What a request to the endpoint brings with it. -/
structure RpcRequest where
  readBody : Except String Unit
  decoded : Except String RpcCallRequest
  idemKey : String
  begun : Except BeginFailure IdempotencyResult
  db : RunScript
  durationMS : Int

end CoopDB
