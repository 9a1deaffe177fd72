import CoopDB.Core.Basic
import CoopDB.Lib.Lru
import CoopDB.Lib.TokenBucket
import Mathlib.Algebra.Field.Rat
import Mathlib.Algebra.Order.Ring.Rat
import Mathlib.Logic.Function.Basic

/-!
# The Rate Limiter

`RateLimit` of `internal/httpapi/middleware.go`: a token bucket for each key, in
an LRU of 4096 buckets.

A request goes through the limiter in up to three pieces, each under a lock of
its own: it looks its bucket up, asks the bucket, and, once admitted, reads the
tokens for a header. The bucket is a pointer, so a request goes on with the one
it got even if the LRU has given it up by then. Between the pieces any other
request may come.

Tokens and seconds are exact rationals, where the source has floats. The clock
is read with each piece and never goes back.

Two fields of the process only record what has happened: the keys that were
looked up, in order, and what was decided for whom and when.

## Main definitions

* `RateProcess`, `RateEvent`, `RateProcess.step`: Requests in the limiter.
-/

namespace CoopDB

open TokenBucket (Bucket)

/-- `time.Duration.Seconds`. -/
def seconds (d : Time) : ℚ :=
  (d : ℚ) / 1000000000

/-- The size of the LRU. -/
def maxBuckets : Nat := 4096

/-- The limits, the LRU of pointers, and the buckets they point to. -/
structure RateLimit where
  rps : ℚ
  burst : Int
  limiters : List (String × Nat)
  buckets : Nat → Bucket ℚ
  next : Nat

/-- `NewRateLimit`, with its defaults. -/
def newRateLimit (rps : ℚ) (burst : Int) : RateLimit :=
  { rps := if rps ≤ 0 then 60 else rps
    burst := if burst ≤ 0 then 120 else burst
    limiters := [], buckets := fun _ => TokenBucket.full 0 0, next := 0 }

/-- The key a request is limited by: the id of its API key, or the word all
    requests without one share. -/
def limiterKey (keyDBID : Option String) : String :=
  keyDBID.getD "anon"

namespace RateLimit

/-- `limiterFor`: the bucket of the key, a new one where there is none. -/
def limiterFor (r : RateLimit) (key : String) (now : Time) : RateLimit × Nat :=
  match Lru.get key r.limiters with
  | some (p, limiters) => ({ r with limiters := limiters }, p)
  | none =>
    ({ r with
        limiters := Lru.add maxBuckets key r.next r.limiters
        buckets := Function.update r.buckets r.next (TokenBucket.full (r.burst : ℚ) (seconds now))
        next := r.next + 1 }, r.next)

/-- `Allow` of the bucket. -/
def allow (r : RateLimit) (p : Nat) (now : Time) : RateLimit × Bool :=
  let d := TokenBucket.allow (r.burst : ℚ) r.rps (seconds now) (r.buckets p)
  ({ r with buckets := Function.update r.buckets p d.1 }, d.2)

/-- `Tokens` of the bucket, which brings it up to date. -/
def tokens (r : RateLimit) (p : Nat) (now : Time) : RateLimit × ℚ :=
  let b := TokenBucket.refill (r.burst : ℚ) r.rps (seconds now) (r.buckets p)
  ({ r with buckets := Function.update r.buckets p b }, b.tokens)

end RateLimit

/-- Where a request is in the limiter: it has its bucket, or it was admitted. -/
inductive LimiterStage
  | asking
  | admitted
  deriving DecidableEq

/-- A request in the limiter, with its key and its bucket. -/
structure Limited where
  key : String
  bucket : Nat
  stage : LimiterStage
  deriving DecidableEq

/-- What was decided for a request, and when. -/
structure Decision where
  key : String
  time : Time
  admitted : Bool
  deriving DecidableEq

/-- The limiter, the clock, the requests in the limiter, and the record of what
    has happened. -/
structure RateProcess where
  limit : RateLimit
  clock : Time
  requests : Nat → Option Limited
  lookups : List String
  decisions : List Decision

/-- A new limiter. -/
def RateProcess.start (rps : ℚ) (burst : Int) (now : Time) : RateProcess :=
  { limit := newRateLimit rps burst, clock := now, requests := fun _ => none, lookups := []
    decisions := [] }

/-- A request comes in with the id of its key, if it has one. It asks its bucket.
    It reads the tokens that are left. -/
inductive RateEvent
  | lookup (i : Nat) (keyDBID : Option String) (now : Time)
  | allow (i : Nat) (now : Time)
  | tokens (i : Nat) (now : Time)

/-- The time at which the clock is read. -/
def RateEvent.now : RateEvent → Time
  | .lookup _ _ now => now
  | .allow _ now => now
  | .tokens _ now => now

/-- One piece of a request. -/
def RateProcess.piece (s : RateProcess) : RateEvent → Option RateProcess
  | .lookup i keyDBID now =>
    match s.requests i with
    | some _ => none
    | none =>
      let key := limiterKey keyDBID
      let found := s.limit.limiterFor key now
      some { s with
        limit := found.1
        requests := Function.update s.requests i (some ⟨key, found.2, .asking⟩)
        lookups := s.lookups ++ [key] }
  | .allow i now =>
    match s.requests i with
    | some ⟨key, p, .asking⟩ =>
      let asked := s.limit.allow p now
      some { s with
        limit := asked.1
        -- A request that is not admitted is answered 429.
        requests := Function.update s.requests i
          (if asked.2 then some ⟨key, p, .admitted⟩ else none)
        decisions := s.decisions ++ [⟨key, now, asked.2⟩] }
    | _ => none
  | .tokens i now =>
    match s.requests i with
    | some ⟨_, p, .admitted⟩ =>
      some { s with
        limit := (s.limit.tokens p now).1
        requests := Function.update s.requests i none }
    | _ => none

/-- One step, under a clock that never goes back. -/
def RateProcess.step (s : RateProcess) (e : RateEvent) : Option RateProcess :=
  if s.clock ≤ e.now then (s.piece e).map fun s' => { s' with clock := e.now } else none

end CoopDB
