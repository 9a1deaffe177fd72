import CoopDB.Core.Front
import CoopDB.Lib.Transition
import CoopDB.Theory.Auth.Steps

/-!
# A Call of `resolve` on Its Own

`Front.resolve` says what a whole call of `resolve` returns and leaves in the cache,
with the clock as the call reads it. `Core.Auth` takes the call apart into `Get`,
`FindByKeyID`, `VerifySecret` and `Put`, so that others can come in between. The two
say the same of a call that nobody comes between: while only the clock goes on, its
steps lead to the cache and to the record or the error of the whole call.

The argument goes backwards, from the last step of the call to its first. Each lemma
begins where the call is at one of its steps, waits for the clock if that step reads
it, and leaves the rest to the lemma before.

## Main definitions

* `Reaches`: Steps of one call, and ticks of the clock, lead to a state.
* `FoundIn`: What `FindByKeyID` can answer with a table.
* `ComesTo`, `Leaves`: The call is where `resolve` returns a record or an error, and
  the cache is the one it leaves.

## Theorems

* `put_alone`, `verify_alone`, `find_alone`: The call from `Put`, from `VerifySecret` and
  from `FindByKeyID` on.
* `resolve_alone`: The steps of a call on its own come to what the whole call returns.
-/

namespace CoopDB

open Transition (run)

/-- The event is a tick of the clock or a step of the call. -/
def AuthEvent.isOwn (c : CallId) : AuthEvent → Bool
  | .tick _ => true
  | .call c' _ => c' = c
  | _ => false

/-- Steps of the call, and ticks of the clock, lead to a state with a property. -/
def Reaches (d : AuthDeployment) (c : CallId) (s : AuthState) (post : AuthState → Prop) : Prop :=
  ∃ es s', (∀ e ∈ es, e.isOwn c = true) ∧ run (authStep d) s es = some s' ∧ post s'

/-- The answer of `FindByKeyID` is a row of the table with the key id of the token,
    or an error. -/
def FoundIn (x : AuthExternals) (keys : Keys) (p : ParsedKey) :
    Except ResolveError KeyRecord → Prop
  | .error _ => True
  | .ok rec => ∃ u row, keys u = some row ∧ row.keyID = p.keyID ∧
    rec = row.record x.toKeyExternals u

/-- The call has come to what `resolve` returns. -/
def ComesTo (s : AuthState) (c : CallId) : Except ResolveError KeyRecord → Prop
  | .ok rec => ∃ readAt, (s.calls c).phase = .resolved rec readAt
  | .error e => (s.calls c).phase = .over (some e)

/-- The call has come to what `resolve` returns, and the cache is what it leaves. -/
def Leaves (c : CallId) (outcome : Except ResolveError KeyRecord × VerifyCache) (s : AuthState) :
    Prop :=
  s.cache = outcome.2 ∧ ComesTo s c outcome.1

/-- `resolve` from `VerifySecret` on. -/
def verified (x : AuthExternals) (p : ParsedKey) (rec : KeyRecord) (putAt : Time)
    (cache : VerifyCache) : Except ResolveError KeyRecord × VerifyCache :=
  if x.verifySecret p.secret rec.secretHash then
    (.ok rec, cache.put (x.cacheKey p.fullToken) rec putAt)
  else (.error .invalidKey, cache)

/-- `resolve` from `FindByKeyID` on. -/
def lookedUp (x : AuthExternals) (p : ParsedKey) (putAt : Time) (cache : VerifyCache) :
    Except ResolveError KeyRecord → Except ResolveError KeyRecord × VerifyCache
  | .error e => (.error e, cache)
  | .ok rec => verified x p rec putAt cache

section

variable {d : AuthDeployment} {c : CallId} {s : AuthState} {post : AuthState → Prop}

/-- Nothing more has to happen. -/
theorem Reaches.done (h : post s) : Reaches d c s post :=
  ⟨[], s, fun _ he => absurd he List.not_mem_nil, rfl, h⟩

/-- One event more at the front. -/
theorem Reaches.step (e : AuthEvent) (t : AuthState) (hown : e.isOwn c = true)
    (hstep : authMove d s e = some t)
    (hrest : Reaches d c { t with events := s.events + 1 } post) : Reaches d c s post := by
  obtain ⟨es, s', hes, hrun, hpost⟩ := hrest
  refine ⟨e :: es, s', ?_, ?_, hpost⟩
  · rw [List.forall_mem_cons]
    exact ⟨hown, hes⟩
  · rw [run, authStep, hstep]
    exact hrun

/-- The clock goes on to a later time. -/
theorem Reaches.wait {t : Time} (hle : s.now ≤ t)
    (hrest : Reaches d c { s with now := t, events := s.events + 1 } post) :
    Reaches d c s post := by
  refine Reaches.step (.tick (t - s.now).toNat) { s with now := t } rfl ?_ hrest
  rw [authMove, Int.toNat_of_nonneg (Int.sub_nonneg.mpr hle), add_sub_cancel]

/-- One call of `resolve`. -/
theorem Reaches.call (p : ParsedKey) (stage : ResolveStage) (act : AuthAct) (t : AuthState)
    (hphase : (s.calls c).phase = .resolve p stage)
    (hstep : resolveStep d.externals s c p stage act = some t)
    (hrest : Reaches d c { t with events := s.events + 1 } post) : Reaches d c s post := by
  refine Reaches.step (.call c act) t (decide_eq_true rfl) ?_ hrest
  simp only [authMove, callStep, hphase]
  exact hstep

end

section

variable (d : AuthDeployment) (c : CallId) (p : ParsedKey)

/-- From `Put` on. -/
theorem put_alone {s : AuthState} {rec : KeyRecord} {readAt : Nat} {putAt : Time}
    (hphase : (s.calls c).phase = .resolve p (.put rec readAt)) (hput : s.now ≤ putAt) :
    Reaches d c s
      (Leaves c (.ok rec, s.cache.put (d.externals.cacheKey p.fullToken) rec putAt)) := by
  refine Reaches.wait hput ?_
  refine Reaches.call p (.put rec readAt) .next _ hphase rfl (Reaches.done ⟨rfl, readAt, ?_⟩)
  exact AuthState.goto_self _ c _

/-- From `VerifySecret` on. -/
theorem verify_alone {s : AuthState} {rec : KeyRecord} {readAt : Nat} {putAt : Time}
    (hphase : (s.calls c).phase = .resolve p (.verify rec readAt)) (hput : s.now ≤ putAt) :
    Reaches d c s (Leaves c (verified d.externals p rec putAt s.cache)) := by
  unfold verified
  cases hverify : d.externals.verifySecret p.secret rec.secretHash with
  | true =>
    have hstep : resolveStep d.externals s c p (.verify rec readAt) .next =
        some (s.goto c (.resolve p (.put rec readAt))) := by
      simp only [resolveStep, hverify, if_true]
    exact Reaches.call p _ .next _ hphase hstep (put_alone d c p (AuthState.goto_self _ c _) hput)
  | false =>
    have hstep : resolveStep d.externals s c p (.verify rec readAt) .next =
        some (s.goto c (.over (some .invalidKey))) := by
      simp [resolveStep, hverify]
    exact Reaches.call p _ .next _ hphase hstep (Reaches.done ⟨rfl, AuthState.goto_self _ c _⟩)

/-- From `FindByKeyID` on. -/
theorem find_alone {s : AuthState} {found : Except ResolveError KeyRecord} {putAt : Time}
    (hphase : (s.calls c).phase = .resolve p .find) (hput : s.now ≤ putAt)
    (hfound : FoundIn d.externals s.keys.committed p found) :
    Reaches d c s (Leaves c (lookedUp d.externals p putAt s.cache found)) := by
  cases found with
  | error e =>
    exact Reaches.call p .find (.missing e) _ hphase rfl
      (Reaches.done ⟨rfl, AuthState.goto_self _ c _⟩)
  | ok rec =>
    obtain ⟨u, row, hrow, hkey, hrec⟩ := hfound
    have hstep : resolveStep d.externals s c p .find (.found u) =
        some (s.goto c (.resolve p (.verify rec s.events))) := by
      simp only [resolveStep, hrow, hkey, if_true, ← hrec]
    exact Reaches.call p .find (.found u) _ hphase hstep
      (verify_alone d c p (AuthState.goto_self _ c _) hput)

/-- The whole call, past a cache that does not have the token. -/
theorem resolve_eq_lookedUp (r : FrontRequest) (f : Front)
    (h : (f.cache.get (d.externals.cacheKey p.fullToken) r.getAt).1 = none) :
    ((Front.resolve d.externals p r f).1, (Front.resolve d.externals p r f).2.cache) =
      lookedUp d.externals p r.putAt
        (f.cache.get (d.externals.cacheKey p.fullToken) r.getAt).2 r.found := by
  unfold Front.resolve
  simp only [h]
  cases r.found with
  | error => rfl
  | ok rec =>
    simp only [lookedUp, verified]
    split <;> rfl

/-- A call that nobody comes between, with a clock that does not go back, comes to the
    record or the error that the whole call returns, and leaves the same cache. -/
theorem resolve_alone (s : AuthState) (r : FrontRequest) (f : Front)
    (hphase : (s.calls c).phase = .resolve p .get) (hcache : f.cache = s.cache)
    (hget : s.now ≤ r.getAt) (hput : r.getAt ≤ r.putAt)
    (hfound : FoundIn d.externals s.keys.committed p r.found) :
    Reaches d c s (Leaves c ((Front.resolve d.externals p r f).1,
      (Front.resolve d.externals p r f).2.cache)) := by
  refine Reaches.wait hget ?_
  -- The state when `Get` has answered, with the phase that comes next.
  let answered : AuthPhase → AuthState := fun next =>
    { s with
      now := r.getAt
      events := s.events + 1
      cache := (s.cache.get (d.externals.cacheKey p.fullToken) r.getAt).2 }.goto c next
  cases hgot : (s.cache.get (d.externals.cacheKey p.fullToken) r.getAt).1 with
  | some rec =>
    refine Reaches.call p .get .next
      (answered (.resolved rec (s.cachedRead (d.externals.cacheKey p.fullToken)))) hphase ?_ ?_
    · simp only [resolveStep, hgot]
      rfl
    · refine Reaches.done ⟨?_, ?_⟩
      · simp only [Front.resolve, hcache, hgot]
        rfl
      · simp only [Front.resolve, hcache, hgot]
        exact ⟨_, AuthState.goto_self _ c _⟩
  | none =>
    rw [resolve_eq_lookedUp d p r f (hcache ▸ hgot), hcache]
    refine Reaches.call p .get .next (answered (.resolve p .find)) hphase ?_ ?_
    · simp only [resolveStep, hgot]
      rfl
    · exact find_alone d c p (AuthState.goto_self _ c _) hput hfound

end

/-- A request with the token of the `dbadmin` key has come, and nothing else has. -/
def arrived : AuthState :=
  (run (authStep openDeployment) (AuthState.initial adminKeys 60 0)
    [.start 0 (.request adminToken false)]).get rfl

/-- The clock when it is looked up, and what the table answers. -/
def laterRequest (found : Except ResolveError KeyRecord) : FrontRequest :=
  { header := "", found := found, getAt := 5, putAt := 7, checkedAt := 7, limiterAt := 7
    allowAt := 7, tokensAt := 7 }

/-- The record of the key. -/
def adminRecord : KeyRecord :=
  ((adminKeys 1).get rfl).record openDeployment.externals.toKeyExternals 1

/-- With the clock going on, the request comes to the record, which is cached as of the
    time of `Put`, or to the error of the lookup. -/
theorem lone_request_resolved :
    Reaches openDeployment 0 arrived
        (Leaves 0 (.ok adminRecord, (newVerifyCache 60).put "token" adminRecord 7)) ∧
      Reaches openDeployment 0 arrived (Leaves 0 (.error .keyNotFound, newVerifyCache 60)) :=
  ⟨resolve_alone openDeployment 0 adminToken arrived (laterRequest (.ok adminRecord))
      ⟨newVerifyCache 60, newRateLimit 1 1, 0⟩ rfl rfl (by decide) (by decide)
        ⟨1, _, rfl, rfl, rfl⟩,
    resolve_alone openDeployment 0 adminToken arrived (laterRequest (.error .keyNotFound))
      ⟨newVerifyCache 60, newRateLimit 1 1, 0⟩ rfl rfl (by decide) (by decide) trivial⟩

end CoopDB
