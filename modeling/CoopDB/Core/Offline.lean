import CoopDB.Core.Queue

/-!
# The Queue With the Client as Its Sender

`flush` called with a sender that hands each item to `execute`. The answer of
the sender is then no longer arbitrary: it is what the client makes of the
answers its attempts get, and an event of a run carries those.

## Main definitions

* `ClientEvent`, `QueueState.clientStep`: Runs of the queue with this sender.
-/

namespace CoopDB

/-- `sender(item)`, on the answers the attempts get. The result of `execute` is
    not looked at. -/
def Client.sender (x : Python) (replies : List Transport) : Option (Except Raised Unit) :=
  (Client.execute x replies).map fun r => r.map fun _ => ()

/-- What can happen to the queue. A `send` comes with the answers to all the
    attempts of its call. -/
inductive ClientEvent
  | enqueue (p : Payload) (now : Time)
  | flush
  | nextDue (now : Time)
  | send (replies : List Transport) (now delay : Time)

/-- The event of the queue. There is none while a call has attempts left to
    make. -/
def ClientEvent.queueEvent (x : Python) : ClientEvent → Option QueueEvent
  | .enqueue p now => some (.enqueue p now)
  | .flush => some .flush
  | .nextDue now => some (.nextDue now)
  | .send replies now delay =>
    (Client.sender x replies).map fun answer => .send answer now delay

/-- One step. -/
def QueueState.clientStep (x : Python) (q : QueueState) (e : ClientEvent) : Option QueueState :=
  (e.queueEvent x).bind q.step

end CoopDB
