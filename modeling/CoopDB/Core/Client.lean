import CoopDB.Core.Json

/-!
# The Python Client

`client.py`, `retry.py` and `errors.py`: how one call of the SDK turns the
answers of the transport into a result or an exception.

A call posts its request up to five times. Each attempt ends in a transport
failure or in an HTTP response, and `_handle` makes a dictionary or an exception
of the response. `with_retry` goes on after the three transient kinds of error,
raises every other one at once, and after the last attempt raises the last
error.

Not every exception is one of the package's own. A `Retry-After` that is not a
number, an error document that is not an object, a result with fields of the
wrong type and a body that `r.json()` refuses in an unexpected way all raise
something else, which no handler of the package catches.

The conversions of Python's values are a parameter. Delays are slept through and
leave no trace.

## Main definitions

* `Client.execute`, `Client.rpcCall`, `Client.rotateKey`, `Client.health`,
  `Client.me`: Whole calls.
-/

namespace CoopDB

/-- The classes of the error hierarchy. `base` is `AgentCoopDBError` itself. -/
inductive Kind
  | auth
  | validation
  | idempotencyConflict
  | rateLimited
  | server
  | network
  | queueFull
  | base
  deriving DecidableEq, Repr

/-- The classes `with_retry` retries. -/
def Kind.transient : Kind → Bool
  | .rateLimited | .network | .server => true
  | _ => false

/-- The fields of a JSON object. -/
abbrev Fields := List (String × Json.Value)

/-- An `AgentCoopDBError`. -/
structure ApiError where
  kind : Kind
  message : String
  status : Option Int
  problem : Fields

/-- An exception: one of the package's own, or any other. -/
inductive Raised
  | api (e : ApiError)
  | other (text : String)

/-- The conversions of Python that the client uses. `float` is `none` for what
    is not a number or cannot be slept through, `int` and `list` where they
    raise. -/
structure Python where
  float : String → Option Rat
  str : Json.Value → String
  int : Json.Value → Option Int
  list : Json.Value → Option (List Json.Value)
  truthy : Json.Value → Bool
  lstrip : String → String
  upper : String → String

/-- What `r.json()` raises: a `JSONDecodeError`, another `ValueError`, as for an
    integer with too many digits, or something else, as for a document that is
    nested too deep. -/
inductive JsonError
  | decode (text : String)
  | value (text : String)
  | other (text : String)
  deriving DecidableEq

/-- The parts of a `requests.Response` the client reads. `json` is what
    `r.json()` returns or raises. -/
structure HttpResponse where
  status : Int
  content : Bytes
  text : String
  json : Except JsonError Json.Value
  retryAfter : Option String
  replayed : Option String

/-- How one attempt ends: `requests` raises, or there is a response. -/
inductive Transport
  | failed (detail : String)
  | reply (r : HttpResponse)

namespace Client

/-- `str(v)`. -/
def str (x : Python) : Json.Value → String
  | .string s => s
  | v => x.str v

/-- Set a key of a dictionary. -/
def setField (fields : Fields) (name : String) (v : Json.Value) : Fields :=
  fields.filter (fun f => f.1 != name) ++ [(name, v)]

/-- The problem document of an error response, `none` where it is not an
    object, or where reading it raises something other than a `ValueError`. -/
def problemOf (r : HttpResponse) : Option Fields :=
  match r.json with
  | .ok (.object fields) => some fields
  | .ok _ => none
  | .error (.other _) => none
  | .error _ => some [("title", .string "non_json_error"), ("detail", .string r.text)]

/-- What is raised where there is no problem document. -/
def problemError (r : HttpResponse) : String :=
  match r.json with
  | .error (.other text) => text
  | _ => "object has no attribute 'get'"

/-- The delay of a 429, `none` where `float` raises. A missing or empty header
    means one second. -/
def retryAfter (x : Python) (r : HttpResponse) : Option Rat :=
  match r.retryAfter with
  | none | some "" => some 1
  | some text => x.float text

/-- The exception an error response raises. -/
def errorOf (x : Python) (r : HttpResponse) : Raised :=
  match problemOf r with
  | none => .other (problemError r)
  | some problem =>
    let title := str x ((problem.lookup "title").getD (.string ""))
    let detail := str x ((problem.lookup "detail").getD (.string title))
    let raise (kind : Kind) : Raised := .api ⟨kind, detail, some r.status, problem⟩
    if r.status = 401 ∨ r.status = 403 then raise .auth
    else if r.status = 400 then raise .validation
    else if r.status = 409 ∧ title = "idempotency_conflict" then raise .idempotencyConflict
    else if r.status = 429 then
      match retryAfter x r with
      | none => .other "could not convert string to float"
      | some _ => raise .rateLimited
    else if r.status ≥ 500 then raise .server
    else raise .base

/-- `_handle`. -/
def handle (x : Python) (r : HttpResponse) : Except Raised Fields :=
  if r.status < 300 then
    if r.content.isEmpty then .ok []
    else match r.json with
      | .error (.decode e) =>
        .error (.api ⟨.server, "invalid JSON in response: " ++ e, none, []⟩)
      | .error (.value e) => .error (.other e)
      | .error (.other e) => .error (.other e)
      | .ok data =>
        let result := match data with
          | .object fields => fields
          | data => [("data", data)]
        .ok (if r.replayed = some "true" then setField result "_replayed" (.bool true) else result)
  else .error (errorOf x r)

/-- One pass of `fn` in `_post`. -/
def attempt (x : Python) : Transport → Except Raised Fields
  | .failed detail => .error (.api ⟨.network, detail, none, []⟩)
  | .reply r => handle x r

/-- The attempts `with_retry` makes. -/
def maxAttempts : Nat := 5

/-- What `with_retry` does after an attempt: return or raise, or try again. -/
inductive Next (α : Type)
  | done (r : Except Raised α)
  | again

/-- The body of the loop in `with_retry`, after the attempt with this index. A
    transient error of the last attempt is raised when the loop is over. -/
def afterAttempt {α : Type} (index : Nat) : Except Raised α → Next α
  | .error (.api e) =>
    if e.kind.transient ∧ index + 1 < maxAttempts then .again else .done (.error (.api e))
  | r => .done r

/-- `with_retry` on the outcomes of its attempts, from the one with the given
    index on. There is no result while the loop would go on, nor when there are
    more outcomes than it makes attempts. -/
def withRetry {α : Type} : Nat → List (Except Raised α) → Option (Except Raised α)
  | _, [] => none
  | index, o :: rest =>
    match afterAttempt index o with
    | .done r => if rest.isEmpty then some r else none
    | .again => withRetry (index + 1) rest

/-- `_post` without its headers: the dictionary it returns or the exception it
    raises. -/
def post (x : Python) (replies : List Transport) : Option (Except Raised Fields) :=
  withRetry 0 (replies.map (attempt x))

/-- `_get`: the same loop around another request. -/
def get (x : Python) (replies : List Transport) : Option (Except Raised Fields) :=
  withRetry 0 (replies.map (attempt x))

/-- `rpc_call`. -/
def rpcCall (x : Python) (replies : List Transport) : Option (Except Raised Fields) :=
  post x replies

/-- `rotate_key`. -/
def rotateKey (x : Python) (replies : List Transport) : Option (Except Raised Fields) :=
  post x replies

/-- `health`. -/
def health (x : Python) (replies : List Transport) : Option (Except Raised Fields) :=
  get x replies

/-- `me`. -/
def me (x : Python) (replies : List Transport) : Option (Except Raised Fields) :=
  get x replies

/-- The server's response for `POST /v1/sql/execute`. -/
structure ExecuteResult where
  command : String
  columns : List Json.Value
  rows : List Json.Value
  rowsAffected : Int
  durationMS : Int
  replayed : Bool

/-- `list(v or [])`. -/
def listOf (x : Python) (v : Option Json.Value) : Option (List Json.Value) :=
  match v with
  | none => some []
  | some v => if x.truthy v then x.list v else some []

/-- The result `execute` builds, `none` where a conversion raises. -/
def executeResult (x : Python) (data : Fields) : Option ExecuteResult := do
  let columns ← listOf x (data.lookup "columns")
  let rows ← listOf x (data.lookup "rows")
  let rowsAffected ← x.int ((data.lookup "rows_affected").getD (.number "0"))
  let durationMS ← x.int ((data.lookup "duration_ms").getD (.number "0"))
  return { command := str x ((data.lookup "command").getD (.string ""))
           columns, rows, rowsAffected, durationMS
           replayed := ((data.lookup "_replayed").map x.truthy).getD false }

/-- The statement is taken for a read. -/
def isRead (x : Python) (sql : String) : Bool :=
  let text := x.upper (x.lstrip sql)
  text.startsWith "SELECT" || text.startsWith "SHOW" || text.startsWith "EXPLAIN"

/-- The `Idempotency-Key` of `execute`: the caller's, or else for a write a
    fresh one that all attempts share. -/
def idempotencyHeader (x : Python) (sql idempotencyKey fresh : String) : Option String :=
  if idempotencyKey ≠ "" then some idempotencyKey
  else if isRead x sql then none
  else some fresh

/-- `execute`, on the answers its attempts get. -/
def execute (x : Python) (replies : List Transport) : Option (Except Raised ExecuteResult) :=
  (post x replies).map fun r =>
    match r with
    | .error e => .error e
    | .ok data =>
      match executeResult x data with
      | some result => .ok result
      | none => .error (.other "conversion of the response")

end Client

end CoopDB
