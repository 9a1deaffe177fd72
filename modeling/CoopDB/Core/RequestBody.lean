import CoopDB.Core.Audit
import CoopDB.Core.Unmarshal

/-!
# Request Bodies and What They Bind

How `handleSQLExecute` and `handleRPCCall` of `internal/httpapi/api.go` read a
body that anybody may have written, and what they hand to Postgres for it.

`Core.Mcp` reads the bodies of the gateway's own client, in which a struct field
has one spelling and occurs once. For all others `json.Unmarshal` has two more
rules. It compares the names of struct fields without regard to case. And where
several fields of the document have the name of one struct field, they are
stored one after the other: a later array takes the place of an earlier one, a
later object is added to the map, and a null empties both of them and leaves a
string as it was.

What is handed to Postgres are the arguments of the one statement of the
request: the parameters as they were decoded, which pgx sends, or the text the
arguments of the procedure are encoded to.

## Main definitions

* `handedSQL`, `handedRPC`: What Postgres gets.
-/

namespace CoopDB

namespace Json

/-- A character of a name without its case. Apart from the capital letters, the
    long s and the Kelvin sign are the same as an ASCII letter. -/
def foldRune (c : Char) : Char :=
  if 'A' ≤ c ∧ c ≤ 'Z' then Char.ofNat (c.toNat + 32)
  else if c.toNat = 0x17f then 's'
  else if c.toNat = 0x212a then 'k'
  else c

/-- The values of the fields that are stored in the struct field of a name, in
    order. The names of the structs are in small letters. -/
def fieldsOf (name : String) (fields : List (String × Value)) : List Value :=
  (fields.filter fun f => f.1.toList.map foldRune = name.toList).map Prod.snd

/-- Storing a value in a field of type `string`. -/
def setString (s : String) : Value → Option String
  | .null => some s
  | .string t => some t
  | _ => none

/-- Storing a value in a field of type `map[string]any`. -/
def GoJson.addToMap (j : GoJson) (m : Option (List (String × Value))) :
    Value → Option (Option (List (String × Value)))
  | .null => some none
  | .object fields => (j.decodeFields fields).map fun fields =>
    some (fields.foldl (fun m f => insertField f.1 f.2 m) (m.getD []))
  | _ => none

/-- `json.Unmarshal` of a document into an `sqlExecuteRequest`. -/
def GoJson.unmarshalSQL (j : GoJson) : Value → Option SqlExecuteRequest
  | .null => some { sql := "", params := [] }
  | .object fields => do
    let sql ← (fieldsOf "sql" fields).foldlM setString ""
    let params ← (fieldsOf "params" fields).foldlM (fun _ v => sliceField j.decode (some v)) none
    return { sql := sql, params := params.getD [] }
  | _ => none

/-- `json.Unmarshal` of a document into an `rpcCallRequest`. -/
def GoJson.unmarshalRPC (j : GoJson) : Value → Option RpcCallRequest
  | .null => some { procedure := "", args := [] }
  | .object fields => do
    let procedure ← (fieldsOf "procedure" fields).foldlM setString ""
    let args ← (fieldsOf "args" fields).foldlM j.addToMap none
    return { procedure := procedure, args := args.getD [] }
  | _ => none

/-- A body decoded into a struct. -/
def GoJson.decodeBody {α : Type} (j : GoJson) (decode : Value → Option α) (body : Bytes) :
    Except String α :=
  match (unmarshal body).bind decode with
  | none => .error (j.unmarshalError body)
  | some req => .ok req

end Json

/-- The request with a body. -/
def SqlRequest.withBody (j : Json.GoJson) (r : SqlRequest) (body : Bytes) : SqlRequest :=
  { r with decoded := j.decodeBody j.unmarshalSQL body }

/-- The request with a body. -/
def RpcRequest.withBody (j : Json.GoJson) (r : RpcRequest) (body : Bytes) : RpcRequest :=
  { r with decoded := j.decodeBody j.unmarshalRPC body }

/-- The message with the caller's statement. -/
def Sent.isStatement : Sent → Bool
  | .statement _ _ => true
  | _ => false

/-- The arguments of `tx.Query` or `tx.Exec`, if `handleSQLExecute` calls
    `Execute` and `Execute` comes to the statement. -/
def handedSQL (a : Api) (c : Conn) (r : SqlRequest) : Option (List Json.Value) :=
  match r.decoded with
  | .error _ => none
  | .ok req =>
    match validate a.q a.validator req.sql req.params with
    | .error _ => none
    | .ok res =>
      let input : ExecuteInput :=
        { workspaceID := r.workspaceID, pgRole := r.pgRole, sql := req.sql, params := req.params
          result := some res }
      if (handleSQLExecute a.q a.validator a.executor a.maxResponseBodyBytes c r).executed.isSome ∧
          (executeSent a.q a.executor c input r.db).1.any Sent.isStatement then
        some input.params
      else none

/-- The argument of `tx.QueryRow`, if `handleRPCCall` calls `Call` and `run`
    comes to the statement: `argsJSON`. -/
def handedRPC (a : Api) (c : Conn) (ws : WorkspaceContext) (r : RpcRequest) : Option String :=
  match r.readBody, r.decoded with
  | .ok _, .ok req =>
    match (Dispatcher.call a.registry c
        (r.call ws req a.statementTimeout a.idleInTxTimeout)).ran with
    | none => none
    | some ran =>
      if ran.1.any Sent.isStatement then (Json.Value.object req.args).marshal else none
  | _, _ => none

end CoopDB
