import CoopDB.Core.Client
import CoopDB.Core.Keys

/-!
# A Key Operation Through the Client

One call of `rotate_key()`, or of the command that creates a key, from the
client to the table `api_keys`. Both go through `_post`, so the request is
posted again after a transient error, under the one `Idempotency-Key` made up
before the first attempt. Neither handler reads that header, so it is not part
of a request here.

A request is on its own once it is posted. It may be lost, or handled long after
the client has given up on it, and its answer may be lost. An answer below 300
is the handler's own, any other may come from anywhere on the way. The table is
also changed from elsewhere, by other clients and by operators.

Three fields only record what the requests of the call did: which of them
changed the table, the rows they inserted, and how often they changed the expiry
of the caller's key.

## Main definitions

* `KeyCall`, `KeyCallEvent`, `KeyCall.step`, `KeyCall.start`: The call.
-/

namespace CoopDB

/-- The two operations. -/
inductive KeyCommand
  | rotate
  | create (body : CreateKeyRequest)

/-- What does not change during a call: the client's surroundings, the server,
    the id of the key the client authenticates with, and the operation. -/
structure KeyService where
  python : Python
  externals : KeyExternals
  roles : PgRoles
  overlap : Time
  caller : Uuid
  command : KeyCommand

/-- What is decided when a request is handled: the clock, the random draws, and
    the database's answers. -/
structure Handling where
  now : Time
  mint : Except String Minted
  create : CreateReplies
  rotate : RotateReplies

/-- The request of every attempt. -/
def KeyService.request (c : KeyService) (h : Handling) : KeyRequest :=
  match c.command with
  | .rotate => .rotate c.caller c.overlap h.now h.mint h.rotate
  | .create body => .create c.caller (.ok body) h.mint h.create

/-- The rows a request inserted: none but the one that was minted. -/
def newRows (mint : Except String Minted) (keys keys' : Keys) : List Uuid :=
  match mint with
  | .error _ => []
  | .ok m => if (keys m.id).isNone && (keys' m.id).isSome then [m.id] else []

/-- The expiry of a key is another one. -/
def expiryChanged (id : Uuid) (keys keys' : Keys) : Bool :=
  decide ((keys id).map KeyRow.expiresAt ≠ (keys' id).map KeyRow.expiresAt)

/-- The table, the retry loop of the call (the index of the attempt, whether its
    request is posted and not yet answered, and the result once there is one),
    the attempts whose requests were handled, and the record of what they did. -/
structure KeyCall where
  keys : Keys
  index : Nat
  waiting : Bool
  result : Option (Except Raised Fields)
  handled : List Nat
  carried : List Nat
  inserted : List Uuid
  expiries : Nat

/-- A call that has not posted anything yet. -/
def KeyCall.start (keys : Keys) : KeyCall :=
  { keys := keys, index := 0, waiting := false, result := none, handled := [], carried := []
    inserted := [], expiries := 0 }

/-- What can happen: an attempt is posted, a request is handled, the client gets
    an answer or gives up waiting, or the table is changed from elsewhere. -/
inductive KeyCallEvent
  | post
  | handle (i : Nat) (h : Handling)
  | answer (t : Transport)
  | elsewhere (keys : Keys)

namespace KeyCall

variable (c : KeyService)

/-- The request of this attempt was posted. -/
def posted (s : KeyCall) (i : Nat) : Bool :=
  decide (i < s.index) || (i == s.index && s.waiting)

/-- What the client may get for the attempt it waits for. -/
def mayAnswer (s : KeyCall) : Transport → Bool
  | .failed _ => true
  | .reply r => decide (300 ≤ r.status) || s.carried.contains s.index

/-- The loop of `with_retry` after an attempt. -/
def answered (s : KeyCall) (t : Transport) : KeyCall :=
  match Client.afterAttempt s.index (Client.attempt c.python t) with
  | .done r => { s with waiting := false, result := some r }
  | .again => { s with waiting := false, index := s.index + 1 }

/-- A request is handled. -/
def serve (s : KeyCall) (i : Nat) (h : Handling) : Option KeyCall :=
  (serveKeys c.externals c.roles s.keys (c.request h)).map fun keys =>
    let rows := newRows h.mint s.keys keys
    let changed := expiryChanged c.caller s.keys keys
    { s with
      keys := keys
      handled := s.handled ++ [i]
      carried := if rows.isEmpty && !changed then s.carried else s.carried ++ [i]
      inserted := s.inserted ++ rows
      expiries := s.expiries + if changed then 1 else 0 }

/-- One step. A request is handled at most once. -/
def step (s : KeyCall) : KeyCallEvent → Option KeyCall
  | .post => if s.waiting = false ∧ s.result.isNone then some { s with waiting := true } else none
  | .handle i h => if s.posted i = true ∧ i ∉ s.handled then s.serve c i h else none
  | .answer t => if s.waiting = true ∧ s.mayAnswer t = true then some (s.answered c t) else none
  | .elsewhere keys => some { s with keys := keys }

end KeyCall

end CoopDB
