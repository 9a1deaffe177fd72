import CoopDB.Core.Queue
import Mathlib.Logic.Function.Basic

/-!
# The Offline Queue, One SQLite Statement at a Time

`queue.py` again, for what `Core.Queue` takes in one piece: the calls of several
threads on one queue file, and a process that stops in the middle of them.

Every call opens its own connection with `isolation_level=None`, so each of its
statements commits on its own. A statement is therefore one step, and between
two statements of a call any other call may come, or the process may stop. What
a call does next is all there is to a call. A process that stops loses its calls
and keeps the file.

The `send` callback runs no statement of the queue itself. Where it calls
`enqueue`, that is a call like any other, of a thread of its own here. The
pragmas of a new connection, the counters that `flush` returns and statements
that fail are left out.

`ack` and `fail` take an item of this queue, one that `next_due` has returned
at some time. A row of `dead` does not say which item it was made from. That
is recorded here next to the row, as are the items that were enqueued and the
ids that were acknowledged.

## Main definitions

* `QueueProcess.perform`, `QueueProcess.step`: One step.
-/

namespace CoopDB

/-- What a call does next. The rest of a batch is `none` where the call is not
    one of `flush`, or `flush` returns after it. -/
inductive QueueCall
  /-- `enqueue`: count the rows. -/
  | counting (p : Payload)
  /-- `enqueue`: insert the row. -/
  | inserting (p : Payload)
  /-- `flush`: ask for a batch. -/
  | fetching
  /-- `flush`: wait for the sender's answer. -/
  | sending (item : QueueItem) (rest : List QueueItem)
  /-- `ack`: delete the row. -/
  | acking (id : Nat) (rest : Option (List QueueItem))
  /-- `fail`: update the row. -/
  | backingOff (item : QueueItem) (err : String)
  /-- `fail` and `flush`: insert into `dead`. -/
  | burying (item : QueueItem) (err : String) (rest : Option (List QueueItem))
  /-- `fail` and `flush`: delete from `pending` what was inserted into `dead`. -/
  | clearing (item : QueueItem) (rest : Option (List QueueItem))

/-- The next step of a call of `flush` with the rest of its batch. -/
def QueueCall.resume : Option (List QueueItem) → Option QueueCall
  | none => none
  | some [] => some .fetching
  | some (item :: rest) => some (.sending item rest)

/-- The first statement of `fail`. -/
def QueueCall.failing (item : QueueItem) (err : String) : QueueCall :=
  if item.attempts + 1 ≥ queueMaxAttempts then .burying item err none else .backingOff item err

/-- The file, the calls of the threads, and the record of what was enqueued and
    acknowledged. Each row of `dead` has the id of the item it was made from. -/
structure QueueProcess where
  maxSize : Int
  pending : List QueueItem
  dead : List (Nat × DeadItem)
  nextID : Nat
  calls : Nat → Option QueueCall
  enqueued : List QueueItem
  acked : List Nat

/-- A process on a new file. -/
def QueueProcess.fresh (maxSize : Int) : QueueProcess :=
  { maxSize := maxSize, pending := [], dead := [], nextID := 1, calls := fun _ => none
    enqueued := [], acked := [] }

/-- What can happen: a thread calls a method, its call runs the next statement
    with the clock and the delay it reads, the sender answers it, or the process
    stops. -/
inductive QueueAction
  | enqueue (t : Nat) (p : Payload)
  | flush (t : Nat)
  | ack (t : Nat) (id : Nat)
  | fail (t : Nat) (item : QueueItem) (err : String)
  | perform (t : Nat) (now delay : Time)
  | answer (t : Nat) (reply : Except Raised Unit)
  | stop

namespace QueueProcess

/-- What the thread does next. -/
def turn (s : QueueProcess) (t : Nat) (next : Option QueueCall) : QueueProcess :=
  { s with calls := Function.update s.calls t next }

/-- The id is that of an item of this queue. -/
def knows (s : QueueProcess) (id : Nat) : Bool :=
  s.enqueued.any (fun i => i.id == id)

/-- A thread without a call begins one. -/
def begin (s : QueueProcess) (t : Nat) (call : QueueCall) : Option QueueProcess :=
  match s.calls t with
  | none => some (s.turn t (some call))
  | some _ => none

/-- `next_due`: the first items that are due, in the order of their ids. -/
def nextDue (s : QueueProcess) (now : Time) (limit : Nat) : List QueueItem :=
  (s.pending.filter (fun i => i.nextAttemptAt ≤ now)).take limit

/-- The next statement of a call. -/
def perform (s : QueueProcess) (t : Nat) (now delay : Time) : QueueCall → Option QueueProcess
  | .counting p =>
    -- `QueueFullError`, or on to the insert.
    if (s.pending.length : Int) ≥ s.maxSize then some (s.turn t none)
    else some (s.turn t (some (.inserting p)))
  | .inserting p =>
    let item : QueueItem :=
      { id := s.nextID, payload := p, attempts := 0, lastError := none, nextAttemptAt := now }
    some { s.turn t none with
      pending := s.pending ++ [item], nextID := s.nextID + 1, enqueued := s.enqueued ++ [item] }
  | .fetching =>
    match s.nextDue now flushLimit with
    | [] => some (s.turn t none)
    | item :: rest => some (s.turn t (some (.sending item rest)))
  | .sending _ _ => none
  | .acking id rest =>
    some { s.turn t (QueueCall.resume rest) with
      pending := KeyedList.remove QueueItem.id s.pending id, acked := s.acked ++ [id] }
  | .backingOff item err =>
    if 0 ≤ delay ∧ delay ≤ backoffUpper (item.attempts + 1) then
      some { s.turn t none with
        pending := KeyedList.modify QueueItem.id s.pending item.id (fun i =>
          { i with attempts := item.attempts + 1, lastError := some err
                   nextAttemptAt := now + delay }) }
    else none
  | .burying item err rest =>
    some { s.turn t (some (.clearing item rest)) with
      dead := s.dead ++ [(item.id,
        { payload := item.payload, attempts := item.attempts + 1, lastError := some err })] }
  | .clearing item rest =>
    some { s.turn t (QueueCall.resume rest) with
      pending := KeyedList.remove QueueItem.id s.pending item.id }

/-- What `flush` does with the sender's answer. -/
def answered (s : QueueProcess) (t : Nat) (item : QueueItem) (rest : List QueueItem) :
    Except Raised Unit → QueueProcess
  | .ok _ => s.turn t (some (.acking item.id (some rest)))
  | .error (.api e) =>
    if e.kind = .network then s.turn t (some (QueueCall.failing item e.message))
    else s.turn t (some (.burying item e.message (some rest)))
  -- Any other exception leaves `flush`, and the item where it is.
  | .error (.other _) => s.turn t none

/-- One step. -/
def step (s : QueueProcess) : QueueAction → Option QueueProcess
  | .enqueue t p => s.begin t (.counting p)
  | .flush t => s.begin t .fetching
  | .ack t id => if s.knows id then s.begin t (.acking id none) else none
  | .fail t item err => if s.knows item.id then s.begin t (QueueCall.failing item err) else none
  | .perform t now delay =>
    match s.calls t with
    | none => none
    | some call => s.perform t now delay call
  | .answer t reply =>
    match s.calls t with
    | some (.sending item rest) => some (s.answered t item rest reply)
    | _ => none
  | .stop => some { s with calls := fun _ => none }

end QueueProcess

end CoopDB
