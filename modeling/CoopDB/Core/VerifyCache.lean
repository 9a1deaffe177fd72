import CoopDB.Core.Keys

/-!
# The Verify Cache

`VerifyCache` of `internal/auth/cache.go`: records that passed the argon2id
check, by the hash of the full token, and a set of key ids whose entries are
not to be used.

Entries are stored per token, while the revocation flag is stored per key id.
`Put` clears the flag, for all the entries of the id at once.

The LRU below it is a map. Which entry it gives up when it is full depends on
its size and on the order of use, and nothing in the cache is told about it, so
`evict` can drop any entry at any time. The size is left out for the same
reason. Each method takes effect in one piece.

## Main definitions

* `VerifyCache`: The cache.
-/

namespace CoopDB

/-- A verified record, and when it was verified. -/
structure CachedKey where
  record : KeyRecord
  verifiedAt : Time
  deriving DecidableEq, Repr

/-- The entries by cache key, their TTL, and the flagged key ids. -/
structure VerifyCache where
  lru : String → Option CachedKey
  ttl : Time
  revoked : String → Bool

/-- `NewVerifyCache`, with its default of five minutes. -/
def newVerifyCache (ttl : Time) : VerifyCache :=
  { lru := fun _ => none
    ttl := if ttl ≤ 0 then 5 * 60 * 1000000000 else ttl
    revoked := fun _ => false }

/-- More than the TTL has passed since the entry was put. -/
def VerifyCache.expired (c : VerifyCache) (v : CachedKey) (now : Time) : Bool :=
  now - v.verifiedAt > c.ttl

/-- The LRU gives an entry up, or is told to. -/
def VerifyCache.evict (c : VerifyCache) (token : String) : VerifyCache :=
  { c with lru := Function.update c.lru token none }

/-- `Get`. An entry that is not returned is removed. -/
def VerifyCache.get (c : VerifyCache) (token : String) (now : Time) :
    Option KeyRecord × VerifyCache :=
  match c.lru token with
  | none => (none, c)
  | some v =>
    if c.expired v now then (none, c.evict token)
    else if c.revoked v.record.id then (none, c.evict token)
    else (some v.record, c)

/-- `Put`. The flag is cleared for the id, not for the token. -/
def VerifyCache.put (c : VerifyCache) (token : String) (rec : KeyRecord) (now : Time) :
    VerifyCache :=
  { c with
    revoked := Function.update c.revoked rec.id false
    lru := Function.update c.lru token (some { record := rec, verifiedAt := now }) }

/-- `RevokeByDBID`. The empty id is ignored. -/
def VerifyCache.revokeByDBID (c : VerifyCache) (keyDBID : String) : VerifyCache :=
  if keyDBID = "" then c else { c with revoked := Function.update c.revoked keyDBID true }

end CoopDB
