import CoopDB.Core.Basic
import CoopDB.Lib.ReadCommitted

/-!
# The Idempotency Store

`idempotency_keys` as migration 0002 declares it, and the parts of
`internal/rpc/idempotency.go` that touch no statement: the errors
`BeginOrReplay` answers, what it makes of the row it read, and what `Complete`
writes. The statements themselves are taken one at a time in `Core.Gateway`,
where other requests run between them.

The table is unique on `(workspace_id, key)`, so rows are stored under that
pair. The columns `created_at` and `completed_at` are left out, since no query
reads them. A row's `id` is a fresh uuid for each reservation; the model takes
the index of the request that made the reservation, which is as fresh.

The uuid parser and the gzip codec are not part of the repository. `Externals`
carries them, with the two facts about gzip the replay path rests on: its
output is never empty, and reading it back gives the input.

## Main definitions

* `Completion`, `completed`: What `Complete` writes.

## Theorems

* `gunzip_gzipBytes`: A stored body is read back unchanged.
-/

namespace CoopDB

/-- The `state` column, mirrored from its `CHECK` constraint. -/
inductive IdempotencyState
  | pending
  | done
  | failed
  deriving DecidableEq, Repr

/-- The index of a request. It also stands for the transaction the request
    has open, of which there is at most one at a time. -/
abbrev ReqId := Nat

/-- One row of `idempotency_keys`, without the two columns it is stored
    under. -/
structure Row where
  id : ReqId
  requestHash : String
  state : IdempotencyState
  statusCode : Option Int
  responseBody : Bytes
  expiresAt : Time
  deriving DecidableEq, Repr

/-- The unique key of the table: workspace and idempotency key. -/
abbrev Slot := Uuid × String

/-- The table, with requests as the transactions that write it. -/
abbrev KeyTable := ReadCommitted.Table Slot ReqId Row

/-- What `BeginOrReplay` returns when it does not fail. -/
structure IdempotencyResult where
  replay : Bool
  statusCode : Int
  body : Bytes
  deriving DecidableEq, Repr

/-- The result that tells its caller to execute. -/
def proceed : IdempotencyResult :=
  { replay := false, statusCode := 0, body := [] }

/-- The errors of `BeginOrReplay`. `noRows` is the driver's answer to the
    select when the conflicting row is gone by then. -/
inductive BeginError
  | emptyKey
  | workspaceID (detail : String)
  | conflict
  | inProgress
  | noRows
  | gunzip (detail : String)
  | database (detail : String)
  deriving DecidableEq, Repr

/-- The text of each error. -/
def BeginError.message : BeginError → String
  | .emptyKey => "BeginOrReplay: empty key"
  | .workspaceID detail => "workspace_id: " ++ detail
  | .conflict => "idempotency_key reused with different request body"
  | .inProgress => "idempotency_key request still in progress"
  | .noRows => "no rows in result set"
  | .gunzip detail => detail
  | .database detail => detail

/-- What one call of `BeginOrReplay` comes back with. -/
abbrev Answer := Except BeginError IdempotencyResult

/-- The code outside the repository that the store calls. -/
structure Externals where
  uuidParse : String → Except String Uuid
  gzip : Bytes → Bytes
  gzipRead : Bytes → Except String Bytes
  gzip_ne_nil : ∀ b, gzip b ≠ []
  gzipRead_gzip : ∀ b, gzipRead (gzip b) = .ok b

/-- A codec that stores its input behind a marker byte, and a parser that takes
    every workspace for the same one. -/
def storedExternals : Externals :=
  { uuidParse := fun _ => .ok 0
    gzip := fun b => 0 :: b
    gzipRead := fun b => .ok b.tail
    gzip_ne_nil := fun b => List.cons_ne_nil 0 b
    gzipRead_gzip := fun _ => rfl }

/-- `gzipBytes`: writing to a memory buffer cannot fail. -/
def gzipBytes (x : Externals) (p : Bytes) : Bytes :=
  x.gzip p

/-- `gunzip`: an empty column is an empty body. -/
def gunzip (x : Externals) (p : Bytes) : Except String Bytes :=
  if p.length = 0 then .ok [] else x.gzipRead p

/-- A stored body is read back unchanged. -/
theorem gunzip_gzipBytes (x : Externals) (b : Bytes) : gunzip x (gzipBytes x b) = .ok b := by
  have hne : (x.gzip b).length ≠ 0 := fun h => x.gzip_ne_nil b (List.length_eq_zero_iff.mp h)
  simp only [gunzip, gzipBytes, if_neg hne, x.gzipRead_gzip]

/-- The three ways `BeginOrReplay` goes on after its select. The commit before
    an error is not looked at, the one before a replay is. -/
inductive Verdict
  | reclaim
  | refuse (e : BeginError)
  | serve (r : Except BeginError IdempotencyResult)
  deriving DecidableEq, Repr

/-- What `BeginOrReplay` makes of the row it selected, at the instant its
    process reads from its own clock. -/
def judge (x : Externals) (row : Row) (requestHash : String) (now : Time) : Verdict :=
  if row.expiresAt < now then .reclaim
  else if row.requestHash ≠ requestHash then .refuse .conflict
  else if row.state = .pending then .refuse .inProgress
  else .serve (match gunzip x row.responseBody with
    | .error e => .error (.gunzip e)
    | .ok decoded => .ok { replay := true, statusCode := row.statusCode.getD 200, body := decoded })

/-- The arguments a handler passes to `Complete`. -/
structure Completion where
  status : Int
  body : Bytes
  ok : Bool
  deriving DecidableEq, Repr

/-- The row after the update of `Complete`. -/
def completed (x : Externals) (c : Completion) (row : Row) : Row :=
  { row with
    state := if c.ok then .done else .failed
    statusCode := some c.status
    responseBody := gzipBytes x c.body }

end CoopDB
