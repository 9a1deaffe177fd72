import CoopDB.Core.RateLimit

/-!
# One Bucket of the Rate Limiter

`tokenBucket` of `internal/httpapi/middleware.go` with its own fields, and any
sequence of calls of its two methods. Each call holds the bucket's lock from its
reading of the clock on, so calls are one after the other and the clock does not go
back between them.

`Core.RateLimit` has the buckets of all keys and passes their limits along.

## Main definitions

* `BucketCall.Ordered`: The calls are at non-decreasing times.
-/

namespace CoopDB

/-- `tokenBucket`. -/
@[ext] structure RateBucket where
  tokens : ℚ
  max : ℚ
  rate : ℚ
  lastTime : Time
  deriving DecidableEq

/-- A call of `Allow` or `Tokens`, with the time its `refill` reads. -/
inductive BucketCall
  | allow (now : Time)
  | tokens (now : Time)
  deriving DecidableEq

namespace BucketCall

def now : BucketCall → Time
  | .allow now => now
  | .tokens now => now

def isAllow : BucketCall → Bool
  | .allow _ => true
  | .tokens _ => false

/-- Each call is no earlier than the one before it, and the first no earlier than
    `start`. -/
def Ordered : Time → List BucketCall → Prop
  | _, [] => True
  | start, c :: calls => start ≤ c.now ∧ Ordered c.now calls

end BucketCall

namespace RateBucket

/-- `newTokenBucket`. -/
def new (rps : ℚ) (burst : Int) (now : Time) : RateBucket :=
  { tokens := burst, max := burst, rate := rps, lastTime := now }

/-- `refill`. -/
def refill (b : RateBucket) (now : Time) : RateBucket :=
  let elapsed := seconds (now - b.lastTime)
  { b with lastTime := now, tokens := min (b.tokens + elapsed * b.rate) b.max }

/-- `Allow`. -/
def allow (b : RateBucket) (now : Time) : RateBucket × Bool :=
  let b := b.refill now
  if b.tokens < 1 then (b, false) else ({ b with tokens := b.tokens - 1 }, true)

/-- `Tokens`. -/
def readTokens (b : RateBucket) (now : Time) : RateBucket × ℚ :=
  let b := b.refill now
  (b, b.tokens)

/-- The bucket after a call. -/
def afterCall (b : RateBucket) : BucketCall → RateBucket
  | .allow now => (b.allow now).1
  | .tokens now => (b.readTokens now).1

/-- The bucket after calls. -/
def afterCalls : RateBucket → List BucketCall → RateBucket
  | b, [] => b
  | b, c :: calls => afterCalls (b.afterCall c) calls

/-- The calls of `Allow`, with their times and what they returned. -/
def allows : RateBucket → List BucketCall → List (Time × Bool)
  | _, [] => []
  | b, .allow now :: calls => (now, (b.allow now).2) :: allows (b.allow now).1 calls
  | b, .tokens now :: calls => allows (b.readTokens now).1 calls

end RateBucket

end CoopDB
