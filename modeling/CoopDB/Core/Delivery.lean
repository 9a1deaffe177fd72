import CoopDB.Core.Gateway
import CoopDB.Core.Offline

/-!
# The Queue, the Client and the Gateway

The whole way of an offline write: `flush` hands an item to `execute`, each
attempt posts a request over a network that may lose it, the gateway carries the
request out or answers from its idempotency table, and the answer may be lost on
its way back.

A request is on its own once it is posted. The client may have given up waiting
when the gateway gets to it, and the gateway may finish it while the client is
at a later attempt. So a lost or late request and a lost or late answer both
look the same to the client: the attempt fails.

An answer with a status of 300 or more may come from anywhere on the way, from a
proxy as well as from any of the handlers in front of this one. A success is
the handler's own. It is sent before `Complete` is called.

What the database has committed is part of the state. The execution of a
statement that returns without an error has committed. One that returns an
error, panics or is cut off by a crash may have committed or not.

Requests that the client did not post come from elsewhere and are not
restricted.

## Main definitions

* `Delivery.commitsOf`: How often an item's statement was committed.
-/

namespace CoopDB

/-- What does not change during a run: the client's surroundings, the gateway,
    the workspace the client's key belongs to, the hash of a posted body, and
    which of the requests are the client's. -/
structure Channel where
  python : Python
  deployment : Deployment
  workspaceID : String
  requestHash : String → List Json.Value → String
  own : ReqId → Bool
  own_endpoint : ∀ r, own r = true → (deployment.requests r).endpoint = .sqlExecute
  own_workspace : ∀ r, own r = true → (deployment.requests r).workspaceID = workspaceID

/-- The request each attempt for an item posts. `fresh` is the key `execute`
    makes up where the item has none. -/
def Channel.request (c : Channel) (p : Payload) (fresh : String) : Request :=
  { endpoint := .sqlExecute
    workspaceID := c.workspaceID
    idempotencyKey := (Client.idempotencyHeader c.python p.sql p.idempotencyKey fresh).getD ""
    requestHash := c.requestHash p.sql p.params
    ttl := idempotencyTTL }

/-- The answer that goes with what is passed to `Complete`. A problem document
    is sent with a newline. -/
def Completion.reply (c : Completion) : HttpReply :=
  if c.ok then { status := c.status, contentType := "application/json", replayed := false,
                 body := c.body }
  else { status := c.status, contentType := "application/problem+json", replayed := false,
         body := c.body ++ utf8 "\n" }

/-- The answer of a handler that has executed or replays. -/
def Local.reply (l : Local) : Option HttpReply :=
  match l.completion, l.begun with
  | some c, _ => some c.reply
  | none, some (.ok ir) =>
    if ir.replay then
      some { status := ir.statusCode, contentType := "application/json", replayed := true,
             body := ir.body }
    else none
  | none, _ => none

/-- The response is this answer. -/
def HttpReply.arrivesAs (h : HttpReply) (r : HttpResponse) : Bool :=
  r.status == h.status && r.content == h.body &&
    r.replayed == (if h.replayed then some "true" else none)

/-- What a client that waits for this handler may get. -/
def Local.mayAnswer (l : Local) : Transport → Bool
  | .failed _ => true
  | .reply r => decide (300 ≤ r.status) || l.reply.any (fun h => h.arrivesAs r)

/-- The step may or must have committed the request's statement. -/
def commitPossible (s : Gateway) (e : Event) (committed : Bool) : Bool :=
  match e with
  | .request _ (.execute (.sql (.ok _))) => committed
  | .request _ (.execute _) => true
  | .request r .panic | .request r .crash => !committed || decide ((s.reqs r).phase = .execute)
  | _ => !committed

/-- The request an event belongs to. -/
def Event.request? : Event → Option ReqId
  | .request r _ => some r
  | .purge _ => none

/-- The queue, the gateway, the requests posted so far with the ids of their
    items, the one the client waits for, the answers to the attempts of the call
    under way, and the requests whose statements were committed. -/
structure Delivery where
  queue : QueueState
  server : Gateway
  sent : List (ReqId × Nat)
  waiting : Option ReqId
  replies : List Transport
  commits : List ReqId

/-- What can happen: the calls on the queue, an attempt, a step of the gateway,
    the end of an attempt, and the end of a call of `execute`. -/
inductive DeliveryEvent
  | enqueue (p : Payload) (now : Time)
  | flush
  | nextDue (now : Time)
  | post (r : ReqId) (fresh : String)
  | server (e : Event) (committed : Bool)
  | answer (t : Transport)
  | finish (now delay : Time)

/-- A new queue, and a gateway with an empty table. -/
def Delivery.start (maxSize : Int) : Delivery :=
  { queue := QueueState.empty maxSize, server := initial, sent := [], waiting := none
    replies := [], commits := [] }

namespace Delivery

variable (c : Channel)

/-- The client's requests are known to the gateway once they are posted. -/
def reaches (s : Delivery) (e : Event) : Bool :=
  match e with
  | .request r _ => !c.own r || decide (r ∈ s.sent.map Prod.fst)
  | .purge _ => true

/-- A call on the queue. -/
def onQueue (s : Delivery) (e : QueueEvent) : Option Delivery :=
  (s.queue.step e).map fun q => { s with queue := q }

/-- One step. An attempt follows while the retry loop goes on. -/
def step (s : Delivery) : DeliveryEvent → Option Delivery
  | .enqueue p now => s.onQueue (.enqueue p now)
  | .flush => s.onQueue .flush
  | .nextDue now => s.onQueue (.nextDue now)
  | .post r fresh =>
    match s.queue.next with
    | none => none
    | some item =>
      if c.own r = true ∧ r ∉ s.sent.map Prod.fst ∧ s.waiting = none ∧
          (Client.post c.python s.replies).isNone = true ∧
          c.deployment.requests r = c.request item.payload fresh then
        some { s with sent := s.sent ++ [(r, item.id)], waiting := some r }
      else none
  | .server e committed =>
    if s.reaches c e = true ∧ commitPossible s.server e committed = true then
      (CoopDB.step c.deployment s.server e).map fun g =>
        { s with server := g
                 commits := s.commits ++ (if committed then e.request?.toList else []) }
    else none
  | .answer t =>
    match s.waiting with
    | none => none
    | some r =>
      if (s.server.reqs r).mayAnswer t then
        some { s with waiting := none, replies := s.replies ++ [t] }
      else none
  | .finish now delay =>
    if s.waiting = none then
      (s.queue.clientStep c.python (.send s.replies now delay)).map fun q =>
        { s with queue := q, replies := [] }
    else none

/-- How often the statement of an item was committed, by the requests that were
    posted for it. -/
def commitsOf (s : Delivery) (item : QueueItem) : Nat :=
  s.commits.countP fun r => decide ((r, item.id) ∈ s.sent)

end Delivery

end CoopDB
