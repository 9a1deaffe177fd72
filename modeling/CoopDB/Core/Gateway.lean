import CoopDB.Core.Handlers

/-!
# Requests That Share an Idempotency Key

Any number of requests, from any number of gateway processes, on their way
through `handleSQLExecute` or `Dispatcher.Call`, with every database call of
`BeginOrReplay` and `Complete` a step of its own.

A request is a small program counter (`Phase`) over the shared table. Between
two of its calls anything may happen: other requests run, `PurgeExpired` runs,
the client disconnects, the handler panics, the process dies. `move` is what
one request does next, `step` picks the request. An event that is not possible
in a state, such as a statement that has to wait for a lock, has no next
state.

Each call is answered. `ok` is a success, with the clock reading that goes
with the call: the transaction timestamp for `BeginTx`, and what the process
reads from its own clock after the select. `fail` is an error without effect,
`lost` an error whose call took effect all the same, which only a commit and
the single statement of `Complete` can do. A call made with a cancelled context
can only fail.

The execution itself is one step with an arbitrary outcome. What the two
handlers make of the outcome is `finishSQL` and `finishRPC`; their own
transaction touches no row of this table.

## Main definitions

* `Deployment`, `Gateway`, `step`, `initial`: The whole system.
-/

namespace CoopDB

/-- The two endpoints that take an `Idempotency-Key`. -/
inductive Endpoint
  | sqlExecute
  | rpcCall
  deriving DecidableEq, Repr

/-- What a request brings to the store. `idempotencyKey` is empty when the
    header is missing. -/
structure Request where
  endpoint : Endpoint
  workspaceID : String
  idempotencyKey : String
  requestHash : String
  ttl : Time
  deriving DecidableEq, Repr

/-- The `ttl` both handlers pass, 24 hours. -/
def idempotencyTTL : Time :=
  24 * 3600 * 1000000000

/-- The row a request asks for: it has a key and its workspace id parses. -/
def Request.slot (x : Externals) (q : Request) : Option Slot :=
  if q.idempotencyKey = "" then none
  else match x.uuidParse q.workspaceID with
    | .error _ => none
    | .ok ws => some (ws, q.idempotencyKey)

/-- The row `BeginOrReplay` inserts in a transaction that began at `start`. -/
def Request.row (q : Request) (r : ReqId) (start : Time) : Row :=
  { id := r, requestHash := q.requestHash, state := .pending, statusCode := none
    responseBody := [], expiresAt := start + q.ttl }

/-- The next thing a request is going to do. `commitRead` is the commit after
    the select, with whether its error is ignored and what is returned after
    it. -/
inductive Phase
  | arrive
  | begin
  | insert (start : Time)
  | commitInsert
  | select
  | commitRead (ignoreError : Bool) (a : Answer)
  | delete
  | commitDelete
  | execute
  | complete (c : Completion)
  | returned
  | crashed
  deriving DecidableEq, Repr

/-- The handler is no longer running. -/
def Phase.over : Phase → Bool
  | .returned | .crashed => true
  | _ => false

/-- One request: where it is, whether its context is cancelled, what
    `BeginOrReplay` returned to it, and what it passed to `Complete`. -/
structure Local where
  phase : Phase
  cancelled : Bool
  begun : Option Answer
  completion : Option Completion
  deriving DecidableEq, Repr

/-- A request that has just been routed to its handler. -/
def Local.initial : Local :=
  { phase := .arrive, cancelled := false, begun := none, completion := none }

/-- `BeginOrReplay` told the request to execute. -/
def Local.Fresh (l : Local) : Prop :=
  l.begun = some (.ok proceed)

instance (l : Local) : Decidable l.Fresh :=
  inferInstanceAs (Decidable (l.begun = some (.ok proceed)))

/-- Go on to another phase. -/
def Local.to (l : Local) (p : Phase) : Local :=
  { l with phase := p }

/-- `BeginOrReplay` returns. The handlers execute unless it failed or told
    them to replay. -/
def Local.answer (l : Local) (a : Answer) : Local :=
  { l with
    begun := some a
    phase := match a with
      | .ok ir => if ir.replay then .returned else .execute
      | .error _ => .returned }

/-- From the top of the handler to the first call of the store. Without a key
    the store is not asked. -/
def Local.enter (l : Local) (x : Externals) (q : Request) : Local :=
  if q.idempotencyKey = "" then l.to .execute
  else match x.uuidParse q.workspaceID with
    | .error e => l.answer (.error (.workspaceID e))
    | .ok _ => l.to .begin

/-- After the select. -/
def Local.judged (l : Local) : Verdict → Local
  | .reclaim => l.to .delete
  | .refuse e => l.to (.commitRead true (.error e))
  | .serve a => l.to (.commitRead false a)

/-- The execution is over. With a key the result goes to `Complete`. -/
def Local.executed (l : Local) (q : Request) (c : Completion) : Local :=
  if q.idempotencyKey = "" then l.to .returned
  else { l with phase := .complete c, completion := some c }

/-- How a database call is answered. -/
inductive Reply
  | ok (now : Time)
  | fail (detail : String)
  | lost (detail : String)
  deriving DecidableEq, Repr

/-- What came of the execution, for either endpoint. -/
inductive Outcome
  | sql (result : Except Failure Response)
  | rpc (procedure : String) (result : Except Failure (Option Json.Value)) (durationMS : Int)

/-- The endpoint an outcome belongs to. -/
def Outcome.endpoint : Outcome → Endpoint
  | .sql _ => .sqlExecute
  | .rpc _ _ _ => .rpcCall

/-- What the endpoint passes to `Complete`. -/
def Outcome.completion (maxResponseBodyBytes : Int) : Outcome → Completion
  | .sql result => (finishSQL maxResponseBodyBytes result).2
  | .rpc procedure result durationMS => finishRPC procedure result durationMS

/-- What can happen to one request. `reject` is every return before the store
    is asked: an unreadable body, a failed validation, an unknown or forbidden
    procedure. A panic ends in `Recoverer`. -/
inductive Act
  | enter
  | reject
  | call (reply : Reply)
  | execute (o : Outcome)
  | panic
  | cancel
  | crash

/-- The next database call of a request on slot `k`. Every return of
    `BeginOrReplay` runs its deferred rollback. -/
def storeCall (x : Externals) (q : Request) (k : Slot) (r : ReqId) (T : KeyTable) (l : Local) :
    Reply → Option (KeyTable × Local)
  | .ok now => match l.phase with
    | .begin => some (T, l.to (.insert now))
    | .insert start =>
      match T.insertOnConflictDoNothing r k (q.row r start) with
      | none => none
      | some (T', true) => some (T', l.to .commitInsert)
      | some (T', false) => some (T', l.to .select)
    | .commitInsert => some (T.commit r, l.answer (.ok proceed))
    | .select =>
      match T.visible r k with
      | none => some (T.rollback r, l.answer (.error .noRows))
      | some row => some (T, l.judged (judge x row q.requestHash now))
    | .commitRead _ a => some (T.commit r, l.answer a)
    | .delete => (T.delete r k).map (fun T' => (T', l.to .commitDelete))
    -- The recursive call starts over with a transaction of its own.
    | .commitDelete => some (T.commit r, l.to .begin)
    | .complete c =>
      (T.updateNow k (fun row => some (completed x c row))).map (fun T' => (T', l.to .returned))
    | _ => none
  | .fail e => match l.phase with
    | .begin | .insert _ | .commitInsert | .select | .delete | .commitDelete
    | .commitRead false _ => some (T.rollback r, l.answer (.error (.database e)))
    | .commitRead true a => some (T.rollback r, l.answer a)
    -- The handlers log the error and go on.
    | .complete _ => some (T, l.to .returned)
    | _ => none
  | .lost e => match l.phase with
    | .commitInsert | .commitDelete => some (T.commit r, l.answer (.error (.database e)))
    | .complete c =>
      (T.updateNow k (fun row => some (completed x c row))).map (fun T' => (T', l.to .returned))
    | _ => none

/-- A cancelled context lets no call succeed. -/
def Reply.possible (cancelled : Bool) : Reply → Bool
  | .fail _ => true
  | _ => !cancelled

/-- One step of request `r`. -/
def move (x : Externals) (q : Request) (maxResponseBodyBytes : Int) (r : ReqId) (T : KeyTable)
    (l : Local) : Act → Option (KeyTable × Local)
  | .enter => if l.phase = .arrive then some (T, l.enter x q) else none
  | .reject => if l.phase = .arrive then some (T, l.to .returned) else none
  | .call reply =>
    match q.slot x with
    | none => none
    | some k => if reply.possible l.cancelled then storeCall x q k r T l reply else none
  | .execute o =>
    if l.phase = .execute ∧ o.endpoint = q.endpoint then
      some (T, l.executed q (o.completion maxResponseBodyBytes))
    else none
  | .panic => if l.phase.over then none else some (T.rollback r, l.to .returned)
  | .cancel => some (T, { l with cancelled := true })
  | .crash => if l.phase.over then none else some (T.rollback r, l.to .crashed)

/-- What does not change during a run: the code outside the repository, the
    requests, and the response limit. -/
structure Deployment where
  externals : Externals
  requests : ReqId → Request
  maxResponseBodyBytes : Int

/-- The row request `r` asks for. -/
def Deployment.slot (d : Deployment) (r : ReqId) : Option Slot :=
  (d.requests r).slot d.externals

/-- The shared table and every request. -/
structure Gateway where
  table : KeyTable
  reqs : ReqId → Local

/-- Something happens to a request, or `PurgeExpired` runs. -/
inductive Event
  | request (r : ReqId) (a : Act)
  | purge (now : Time)

/-- One step of the system. -/
def step (d : Deployment) (s : Gateway) : Event → Option Gateway
  | .request r a =>
    (move d.externals (d.requests r) d.maxResponseBodyBytes r s.table (s.reqs r) a).map
      (fun p => { table := p.1, reqs := Function.update s.reqs r p.2 })
  | .purge now => some { s with table := s.table.deleteWhere (fun row => row.expiresAt < now) }

/-- An empty table, and no request under way. -/
def initial : Gateway :=
  { table := { committed := fun _ => none, pending := fun _ => none }
    reqs := fun _ => Local.initial }

end CoopDB
