import CoopDB.Core.Client
import CoopDB.Lib.KeyedList

/-!
# The Offline Queue

`queue.py`: writes that could not be sent are kept in a SQLite file and
replayed by `flush`.

A run of the queue is a sequence of `enqueue` and `flush` calls. `flush` is
taken one step at a time: it asks for a batch, then hands its items to the
sender one after the other, and each answer of the sender is a step. In between
the sender may enqueue. What the environment decides comes with the step: the
clock, the answer of the sender, and the jitter of a backoff.

`pending` is kept in the order of its `AUTOINCREMENT` id, which is the order
`next_due` asks for. Parameters are stored as JSON text and read back, so an
item holds JSON values. The columns `created_at` and `moved_at` and the ids of
`dead` are left out, since no query reads them.

Four fields of the state only record what has happened: the items that were
enqueued, those that were acknowledged, those that were moved to `dead`, and
what the finished calls of `flush` returned.

## Main definitions

* `QueueEvent`, `QueueState.step`: One step of a run.
-/

namespace CoopDB

/-- What a caller gives to `enqueue`. -/
structure Payload where
  sql : String
  params : List Json.Value
  idempotencyKey : String

/-- A row of `pending`, and the `QueueItem` read from it. -/
structure QueueItem where
  id : Nat
  payload : Payload
  attempts : Nat
  lastError : Option String
  nextAttemptAt : Time

/-- A row of `dead`. -/
structure DeadItem where
  payload : Payload
  attempts : Nat
  lastError : Option String

/-- `MAX_ATTEMPTS`. -/
def queueMaxAttempts : Nat := 12

/-- The batch size of `flush`. -/
def flushLimit : Nat := 64

/-- A call of `flush` under way: what is left of its batch, and its two
    counters. -/
structure Flush where
  batch : List QueueItem
  sent : Nat
  failed : Nat

/-- The two tables, the next id, the size limit, the call of `flush` that is
    under way, and the record of what has happened. -/
structure QueueState where
  maxSize : Int
  pending : List QueueItem
  dead : List DeadItem
  nextID : Nat
  flushing : Option Flush
  enqueued : List QueueItem
  acked : List QueueItem
  buried : List QueueItem
  returned : List (Nat × Nat)

/-- A queue on a new file. -/
def QueueState.empty (maxSize : Int) : QueueState :=
  { maxSize := maxSize, pending := [], dead := [], nextID := 1, flushing := none
    enqueued := [], acked := [], buried := [], returned := [] }

/-- The largest delay `backoff` draws in `fail`, with base 2 s and cap 300 s, in
    nanoseconds. -/
def backoffUpper (attempts : Nat) : Time :=
  min (300 * 1000000000) (2 * 1000000000 * 2 ^ attempts)

namespace QueueState

/-- `enqueue`: the id of the new row, or the message of `QueueFullError`. -/
def enqueue (q : QueueState) (p : Payload) (now : Time) : Except String (QueueState × Nat) :=
  if (q.pending.length : Int) ≥ q.maxSize then
    .error ("local queue is full (" ++ toString q.maxSize ++ " pending writes)")
  else
    let item : QueueItem :=
      { id := q.nextID, payload := p, attempts := 0, lastError := none, nextAttemptAt := now }
    .ok ({ q with pending := q.pending ++ [item], nextID := q.nextID + 1
                  enqueued := q.enqueued ++ [item] }, item.id)

/-- `next_due`: the first items that are due, in the order of their ids. -/
def nextDue (q : QueueState) (now : Time) (limit : Nat) : List QueueItem :=
  (q.pending.filter (fun i => i.nextAttemptAt ≤ now)).take limit

/-- `ack`. -/
def ack (q : QueueState) (id : Nat) : QueueState :=
  { q with pending := KeyedList.remove QueueItem.id q.pending id }

/-- Insert into `dead` and delete from `pending`. -/
def bury (q : QueueState) (item : QueueItem) (err : String) : QueueState :=
  { q with
    dead := q.dead ++
      [{ payload := item.payload, attempts := item.attempts + 1, lastError := some err }]
    pending := KeyedList.remove QueueItem.id q.pending item.id
    buried := q.buried ++ [item] }

/-- `fail`, with the clock and the delay drawn. -/
def fail (q : QueueState) (item : QueueItem) (err : String) (now delay : Time) : QueueState :=
  if item.attempts + 1 ≥ queueMaxAttempts then q.bury item err
  else
    { q with pending := KeyedList.modify QueueItem.id q.pending item.id (fun i =>
        { i with attempts := item.attempts + 1, lastError := some err
                 nextAttemptAt := now + delay }) }

/-- The item that `flush` hands to the sender next. -/
def next (q : QueueState) : Option QueueItem :=
  q.flushing.bind fun f => f.batch.head?

end QueueState

/-- What can happen to a queue: a call of `enqueue`, the start of a call of
    `flush`, its request for a batch, and the sender's answer for the next item
    of the batch, with the clock and the delay `fail` reads if it is called. -/
inductive QueueEvent
  | enqueue (p : Payload) (now : Time)
  | flush
  | nextDue (now : Time)
  | send (answer : Except Raised Unit) (now delay : Time)

/-- One step. Calls of `flush` do not overlap, and the delay is one that
    `backoff` can draw. -/
def QueueState.step (q : QueueState) : QueueEvent → Option QueueState
  | .enqueue p now =>
    match q.enqueue p now with
    | .error _ => some q
    | .ok (q', _) => some q'
  | .flush =>
    match q.flushing with
    | none => some { q with flushing := some { batch := [], sent := 0, failed := 0 } }
    | some _ => none
  | .nextDue now =>
    match q.flushing with
    | some { batch := [], sent, failed } =>
      match q.nextDue now flushLimit with
      | [] => some { q with flushing := none, returned := q.returned ++ [(sent, failed)] }
      | batch => some { q with flushing := some { batch, sent, failed } }
    | _ => none
  | .send answer now delay =>
    match q.flushing with
    | some { batch := item :: rest, sent, failed } =>
      match answer with
      | .ok _ =>
        some { q.ack item.id with
          flushing := some { batch := rest, sent := sent + 1, failed }
          acked := q.acked ++ [item] }
      | .error (.api e) =>
        if e.kind = .network then
          if 0 ≤ delay ∧ delay ≤ backoffUpper (item.attempts + 1) then
            some { q.fail item e.message now delay with
              flushing := none, returned := q.returned ++ [(sent, failed + 1)] }
          else none
        else
          some { q.bury item e.message with
            flushing := some { batch := rest, sent, failed := failed + 1 } }
      -- Any other exception leaves `flush`, and the item where it is.
      | .error (.other _) => some { q with flushing := none }
    | _ => none

end CoopDB
