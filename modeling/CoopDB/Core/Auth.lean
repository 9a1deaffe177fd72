import CoopDB.Core.VerifyCache
import CoopDB.Lib.ReadCommitted

/-!
# Authentication and Rotation, Step by Step

One gateway process with its verify cache, the table `api_keys` it shares with
others, and any number of requests in between. `Middleware.resolve` and
`Store.Rotate` are taken one call at a time, as other requests can run between
any two of them.

`resolve` asks the cache, then the table, then argon2id, and puts the record in
the cache. `Authenticate` checks that the record is active, and a rotation
request goes on to `Store.Rotate` with the id of the record it was given. That
record may be old by then: it comes from the cache, or from a select before a
long hash. `Rotate` reads the row again, but not whether it is still active.
After the commit, the handler flags the id in the cache.

`Store.Create` and `Store.Revoke` are one statement as far as anyone can see,
and so is `db.RevokeKey`, which makes the same update from a process of its
own. `Store.Rotate` on its own stands for rotations of other processes, which
do not reach this cache.

Some of the state is there to speak about runs, and no step reads it: the number
of steps so far, the step a record was read at, the step a call was started at,
and the rotations whose cache entries have been flagged.

## Main definitions

* `resolveStep`, `rotateStep`, `callStep`, `authStep`: One step.
-/

namespace CoopDB

/-- A request to the gateway, or a call of the store. -/
abbrev CallId := Nat

/-- What `ParseBearer` returns, without the env tag, which nothing reads. -/
structure ParsedKey where
  keyID : String
  secret : String
  fullToken : String
  deriving DecidableEq, Repr

/-- `VerifySecret`, and the hash under which a token is cached. -/
structure AuthExternals extends KeyExternals where
  verifySecret : String → String → Bool
  cacheKey : String → String

/-- The errors of `resolve`: `ErrKeyNotFound`, `ErrInvalidKey`, and others. -/
inductive ResolveError
  | keyNotFound
  | invalidKey
  | other (message : String)
  deriving DecidableEq, Repr

/-- The next call of `resolve`. A record comes with the step it was read at. -/
inductive ResolveStage
  | get
  | find
  | verify (rec : KeyRecord) (readAt : Nat)
  | put (rec : KeyRecord) (readAt : Nat)
  deriving DecidableEq, Repr

/-- The arguments of `Rotate`, the id also as it was parsed, and whether the
    handler is waiting for it. -/
structure Rotation where
  id : String
  old : Uuid
  overlap : Time
  fromRequest : Bool
  deriving DecidableEq, Repr

/-- The next call of `Rotate`. `start` is what `now()` returns in its
    transaction. -/
inductive RotateStage
  | begin
  | select (start : Time)
  | insert (start : Time) (old : KeyRow)
  | update (start : Time)
  | commit
  deriving DecidableEq, Repr

/-- The next thing a call does. A request that `resolve` has refused is over with its
    error. -/
inductive AuthPhase
  | idle
  | resolve (p : ParsedKey) (stage : ResolveStage)
  | resolved (rec : KeyRecord) (readAt : Nat)
  | rotate (r : Rotation) (stage : RotateStage)
  | evict (id : String) (committedAt : Nat)
  | over (refusal : Option ResolveError)
  deriving DecidableEq, Repr

/-- One call: where it is, whether it is a rotation request, and the step it
    was started at. -/
structure AuthCall where
  phase : AuthPhase
  rotates : Bool
  startedAt : Nat
  deriving DecidableEq, Repr

/-- A rotation request that has returned from `RevokeFromCache`. -/
structure Eviction where
  id : String
  committedAt : Nat
  evictedAt : Nat
  deriving DecidableEq, Repr

/-- The clock, the table, the cache and the calls. The last three fields are
    only recorded. -/
structure AuthState where
  now : Time
  keys : ReadCommitted.Table Uuid CallId KeyRow
  cache : VerifyCache
  calls : CallId → AuthCall
  events : Nat
  cachedRead : String → Nat
  evictions : List Eviction

/-- What a call is started for. -/
inductive Job
  | request (p : ParsedKey) (rotates : Bool)
  | rotate (oldID : String) (overlap : Time)

/-- How the next call of a call is answered. `found` is the row `FindByKeyID`
    returns and `missing` its error, `mint` the draws before the insert, and `lost` a
    commit that took effect but was not reported. -/
inductive AuthAct
  | next
  | found (id : Uuid)
  | missing (e : ResolveError)
  | mint (m : Except String Minted)
  | fail
  | lost

/-- What can happen. -/
inductive AuthEvent
  | tick (d : Nat)
  | create (mint : Except String Minted) (db : CreateReplies) (input : CreateKeyInput)
  | revoke (id : String) (db : Option DbError)
  | evict (token : String)
  | start (c : CallId) (job : Job)
  | call (c : CallId) (act : AuthAct)

/-- What does not change during a run. -/
structure AuthDeployment where
  externals : AuthExternals
  roles : PgRoles
  keyRotateOverlap : Time

/-- Let a call go on to another phase. -/
def AuthState.goto (s : AuthState) (c : CallId) (p : AuthPhase) : AuthState :=
  { s with calls := Function.update s.calls c { s.calls c with phase := p } }

/-- One call of `resolve`. -/
def resolveStep (x : AuthExternals) (s : AuthState) (c : CallId) (p : ParsedKey) :
    ResolveStage → AuthAct → Option AuthState
  | .get, .next =>
    let key := x.cacheKey p.fullToken
    match (s.cache.get key s.now).1 with
    | some rec =>
      some ({ s with cache := (s.cache.get key s.now).2 }.goto c (.resolved rec (s.cachedRead key)))
    | none => some ({ s with cache := (s.cache.get key s.now).2 }.goto c (.resolve p .find))
  | .find, .found u =>
    match s.keys.committed u with
    | some row =>
      if row.keyID = p.keyID then
        some (s.goto c (.resolve p (.verify (row.record x.toKeyExternals u) s.events)))
      else none
    | none => none
  | .find, .missing e => some (s.goto c (.over (some e)))
  | .verify rec readAt, .next =>
    if x.verifySecret p.secret rec.secretHash then some (s.goto c (.resolve p (.put rec readAt)))
    else some (s.goto c (.over (some .invalidKey)))
  | .put rec readAt, .next =>
    let key := x.cacheKey p.fullToken
    some ({ s with cache := s.cache.put key rec s.now
                   cachedRead := Function.update s.cachedRead key readAt }.goto c
      (.resolved rec readAt))
  | _, _ => none

/-- The end of `Rotate` without a commit. -/
def AuthState.abort (s : AuthState) (c : CallId) : AuthState :=
  { s with keys := s.keys.rollback c }.goto c (.over none)

/-- One call of `Rotate`. A plain insert waits where the insert that does
    nothing on conflict does, and fails where that does nothing. -/
def rotateStep (s : AuthState) (c : CallId) (r : Rotation) :
    RotateStage → AuthAct → Option AuthState
  | _, .fail => some (s.abort c)
  | .begin, .next => some (s.goto c (.rotate r (.select s.now)))
  | .select start, .next =>
    match s.keys.visible c r.old with
    | none => some (s.abort c)
    | some old => some (s.goto c (.rotate r (.insert start old)))
  | .insert _ _, .mint (.error _) => some (s.abort c)
  | .insert start old, .mint (.ok m) =>
    match s.keys.insertOnConflictDoNothing c m.id (successorRow r.old old m) with
    | none => none
    | some (_, false) => some (s.abort c)
    | some (T, true) => some ({ s with keys := T }.goto c (.rotate r (.update start)))
  | .update start, .next =>
    (s.keys.update c r.old (scheduleExpiry start r.overlap)).map
      (fun T => { s with keys := T }.goto c (.rotate r .commit))
  | .commit, .next =>
    some ({ s with keys := s.keys.commit c }.goto c
      (if r.fromRequest then .evict r.id s.events else .over none))
  | .commit, .lost => some ({ s with keys := s.keys.commit c }.goto c (.over none))
  | _, _ => none

/-- From the return of `resolve` to the handler: `Authenticate` checks that the
    record is active, and a rotation request goes on with its id. -/
def authorized (x : AuthExternals) (overlap now : Time) (rotates : Bool) (rec : KeyRecord) :
    AuthPhase :=
  if rec.active now && rotates then
    match x.uuidParse rec.id with
    | .error _ => .over none
    | .ok u => .rotate { id := rec.id, old := u, overlap := overlap, fromRequest := true } .begin
  else .over none

/-- The next call of a call. -/
def callStep (d : AuthDeployment) (s : AuthState) (c : CallId) (act : AuthAct) :
    Option AuthState :=
  match (s.calls c).phase, act with
  | .resolve p stage, act => resolveStep d.externals s c p stage act
  | .resolved rec _, .next =>
    some (s.goto c (authorized d.externals d.keyRotateOverlap s.now (s.calls c).rotates rec))
  | .rotate r stage, act => rotateStep s c r stage act
  | .evict id committedAt, .next =>
    some ({ s with
      cache := s.cache.revokeByDBID id
      evictions := { id := id, committedAt := committedAt, evictedAt := s.events } :: s.evictions
      }.goto c (.over none))
  | _, _ => none

/-- The first phase of a job. -/
def Job.phase (x : AuthExternals) : Job → AuthPhase
  | .request p _ => .resolve p .get
  | .rotate oldID overlap =>
    match x.uuidParse oldID with
    | .error _ => .over none
    | .ok u => .rotate { id := oldID, old := u, overlap := overlap, fromRequest := false } .begin

/-- The job is a rotation request. -/
def Job.rotates : Job → Bool
  | .request _ rotates => rotates
  | .rotate _ _ => false

/-- The id drawn for a new key is held by a transaction that is not over. -/
def AuthState.waits (s : AuthState) : Except String Minted → Bool
  | .error _ => false
  | .ok m => (s.keys.pending m.id).isSome

/-- One step, not counted yet. -/
def authMove (d : AuthDeployment) (s : AuthState) : AuthEvent → Option AuthState
  | .tick t => some { s with now := s.now + t }
  | .create mint db input =>
    if s.waits mint then none
    else match create d.externals.toKeyExternals d.roles mint db s.keys.committed input with
      | .error _ => some s
      | .ok (keys, _) => some { s with keys := { s.keys with committed := keys } }
  | .revoke id db =>
    match d.externals.uuidParse id, db with
    | .ok u, none =>
      (s.keys.updateNow u (revokeRow s.now)).map (fun T => { s with keys := T })
    | _, _ => some s
  | .evict token => some { s with cache := s.cache.evict token }
  | .start c job =>
    if (s.calls c).phase = .idle then
      some { s with
        calls := Function.update s.calls c
          { phase := job.phase d.externals, rotates := job.rotates, startedAt := s.events } }
    else none
  | .call c act => callStep d s c act

/-- One step. -/
def authStep (d : AuthDeployment) (s : AuthState) (e : AuthEvent) : Option AuthState :=
  (authMove d s e).map (fun s' => { s' with events := s.events + 1 })

/-- A table, an empty cache, and no calls. -/
def AuthState.initial (keys : Keys) (ttl now : Time) : AuthState :=
  { now := now
    keys := { committed := keys, pending := fun _ => none }
    cache := newVerifyCache ttl
    calls := fun _ => { phase := .idle, rotates := false, startedAt := 0 }
    events := 0
    cachedRead := fun _ => 0
    evictions := [] }

end CoopDB
