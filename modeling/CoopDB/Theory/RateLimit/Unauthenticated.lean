import CoopDB.Core.Front
import CoopDB.Theory.Auth.Steps

/-!
# Requests That Do Not Authenticate

The limiter stands inside `Authenticate`, so a request whose token fails never
comes to it. Nothing slows such requests down: each of them is looked up and
hashed, unless the verify cache knows its token, and none is answered 429. Their
rate is within the limit exactly when that is how they come.

Requests that do authenticate may come in between. They reach the limiter and any
handler, and change nothing of this.

## Main definitions

* `Served.rejected`, `Served.lookedUp`, `Served.cached`: What became of a request, and
  what the cache had for it.
* `servedIn`: How many requests of a kind came in a window.

## Theorems

* `resolve_effect`: `resolve` leaves the limiter alone.
* `rejected_served`: A request that does not authenticate is looked up unless its token
  is cached, and the limiter knows nothing of it.
* `unauthenticated_limited_iff`: When the requests that do not authenticate are within
  the limit.
-/

namespace CoopDB

/-- The token is well formed, and it does not authenticate. -/
def Served.rejected (x : AuthExternals) (e : Served) : Bool :=
  match parseBearer e.request.header with
  | none => false
  | some p =>
    match (Front.resolve x p e.request e.before).1 with
    | .error _ => true
    | .ok rec => !rec.active e.request.checkedAt

/-- The request came to the lookup and to argon2id. -/
def Served.lookedUp (e : Served) : Bool :=
  e.before.lookups < e.after.lookups

/-- The verify cache has a record for the token. -/
def Served.cached (x : AuthExternals) (e : Served) : Bool :=
  match parseBearer e.request.header with
  | none => false
  | some p => (e.before.cache.get (x.cacheKey p.fullToken) e.request.getAt).1.isSome

/-- How many requests of a kind came to `resolve` from `lo` to `hi`. -/
def servedIn (lo hi : ℚ) (kind : Served → Bool) (l : List Served) : Nat :=
  (l.filter fun e => kind e && decide (lo ≤ seconds e.request.getAt)
    && decide (seconds e.request.getAt ≤ hi)).length

/-- What was served is what the route answers. -/
theorem served_of_mem {x : AuthExternals} {handlers : Route → Handler}
    {rs : List (Route × FrontRequest)} : ∀ s, ∀ e ∈ Front.serve x handlers s rs,
      (e.reply, e.after) = Front.routes x handlers e.route none e.request e.before := by
  induction rs with
  | nil => exact fun s e he => absurd he List.not_mem_nil
  | cons r rs ih =>
    intro s e he
    rcases List.mem_cons.mp he with rfl | hrest
    · rfl
    · exact ih _ e hrest

/-- `resolve` leaves the limiter, and makes a lookup exactly when the cache has
    nothing. -/
theorem resolve_effect (x : AuthExternals) (p : ParsedKey) (r : FrontRequest) (s : Front) :
    (Front.resolve x p r s).2.limit = s.limit ∧
      (Front.resolve x p r s).2.lookups =
        if (s.cache.get (x.cacheKey p.fullToken) r.getAt).1.isSome then s.lookups
        else s.lookups + 1 := by
  unfold Front.resolve
  cases hget : (s.cache.get (x.cacheKey p.fullToken) r.getAt).1 with
  | some => simp [hget]
  | none =>
    cases r.found with
    | error => simp [hget]
    | ok =>
      simp only [hget, Option.isSome_none, Bool.false_eq_true, if_false]
      split <;> exact ⟨rfl, rfl⟩

/-- No error of `resolve` is answered as the limiter answers. -/
theorem resolveError_status (e : ResolveError) : e.reply.status ≠ 429 := by
  cases e with
  | keyNotFound | invalidKey => decide
  | other =>
    intro h
    have hstatus : (500 : Int) = 429 := h
    exact absurd hstatus (by decide)

/-- A request that does not authenticate is over once it is resolved, and it is not
    the limiter that answers it. -/
theorem rejected_reply {x : AuthExternals} {handlers : Route → Handler} {e : Served}
    (he : (e.reply, e.after) = Front.routes x handlers e.route none e.request e.before)
    (hrejected : e.rejected x = true) :
    ∃ p, parseBearer e.request.header = some p ∧
      e.after = (Front.resolve x p e.request e.before).2 ∧ e.reply.status ≠ 429 := by
  unfold Served.rejected at hrejected
  simp only [Front.routes, Front.wrap, Front.authenticate] at he
  cases hparse : parseBearer e.request.header with
  | none => simp only [hparse, Bool.false_eq_true] at hrejected
  | some p =>
    refine ⟨p, rfl, ?_⟩
    rcases hresolve : Front.resolve x p e.request e.before with ⟨error | rec, s⟩
    · simp only [hparse, hresolve, Prod.mk.injEq] at he
      rw [he.1]
      exact ⟨he.2, resolveError_status error⟩
    · -- The record was found, so it is not active.
      simp only [hparse, hresolve, Bool.not_eq_true'] at hrejected
      simp only [hparse, hresolve, CoopDB.authenticate, hrejected, Bool.false_eq_true, if_false,
        Prod.mk.injEq] at he
      rw [he.1]
      exact ⟨he.2, by decide⟩

/-- It was looked up unless the cache had its token, and the limiter knows nothing
    of it. -/
theorem rejected_served {x : AuthExternals} {handlers : Route → Handler} {e : Served}
    (he : (e.reply, e.after) = Front.routes x handlers e.route none e.request e.before)
    (hrejected : e.rejected x = true) :
    e.reply.status ≠ 429 ∧ e.after.limit = e.before.limit ∧ e.lookedUp = !e.cached x := by
  rcases rejected_reply he hrejected with ⟨p, hparse, hafter, hstatus⟩
  rcases resolve_effect x p e.request e.before with ⟨hlimit, hlookups⟩
  refine ⟨hstatus, hafter ▸ hlimit, ?_⟩
  simp only [Served.lookedUp, Served.cached, hparse]
  rw [hafter, hlookups]
  cases (e.before.cache.get (x.cacheKey p.fullToken) e.request.getAt).1 with
  | some | none => simp

/-- Kinds that agree on what was served are counted alike. -/
theorem servedIn_congr (lo hi : ℚ) (kind kind' : Served → Bool) (l : List Served)
    (h : ∀ e ∈ l, kind e = kind' e) : servedIn lo hi kind l = servedIn lo hi kind' l := by
  unfold servedIn
  congr 1
  refine List.filter_congr fun e he => ?_
  rw [h e he]

/-- Whatever else is served: of the requests that do not authenticate, no window
    has more that are looked up than the burst and the rate allow, and the others
    are answered 429, exactly when no window has more of them than that and none
    finds its token in the verify cache. -/
theorem unauthenticated_limited_iff (x : AuthExternals) (handlers : Route → Handler) (s : Front)
    (rs : List (Route × FrontRequest)) :
    ((∀ lo hi : ℚ, lo ≤ hi →
        (servedIn lo hi (fun e => e.rejected x && e.lookedUp) (s.serve x handlers rs) : ℚ) ≤
          (s.limit.burst : ℚ) + (hi - lo) * s.limit.rps) ∧
      ∀ e ∈ s.serve x handlers rs, e.rejected x = true → e.lookedUp = false →
        e.reply.status = 429) ↔
    (∀ lo hi : ℚ, lo ≤ hi →
        (servedIn lo hi (fun e => e.rejected x) (s.serve x handlers rs) : ℚ) ≤
          (s.limit.burst : ℚ) + (hi - lo) * s.limit.rps) ∧
      ∀ e ∈ s.serve x handlers rs, e.rejected x = true → e.cached x = false := by
  have hserved : ∀ e ∈ s.serve x handlers rs, e.rejected x = true →
      e.reply.status ≠ 429 ∧ e.after.limit = e.before.limit ∧ e.lookedUp = !e.cached x :=
    fun e he => rejected_served (served_of_mem s e he)
  -- Where none is cached, all of them are looked up.
  have hsame : (∀ e ∈ s.serve x handlers rs, e.rejected x = true → e.cached x = false) →
      ∀ lo hi, servedIn lo hi (fun e => e.rejected x && e.lookedUp) (s.serve x handlers rs) =
        servedIn lo hi (fun e => e.rejected x) (s.serve x handlers rs) := by
    intro hcached lo hi
    refine servedIn_congr lo hi _ _ _ fun e he => ?_
    cases hrejected : e.rejected x with
    | false => rfl
    | true => rw [Bool.true_and, (hserved e he hrejected).2.2, hcached e he hrejected,
      Bool.not_false]
  constructor
  · rintro ⟨hwindow, hrest⟩
    have hcached : ∀ e ∈ s.serve x handlers rs, e.rejected x = true → e.cached x = false := by
      intro e he hrejected
      rcases hserved e he hrejected with ⟨hstatus, _, hlooked⟩
      cases hhit : e.cached x with
      | false => rfl
      | true =>
        -- It was not looked up, and nothing answers it 429.
        rw [hhit, Bool.not_true] at hlooked
        exact absurd (hrest e he hrejected hlooked) hstatus
    refine ⟨fun lo hi hle => ?_, hcached⟩
    rw [← hsame hcached lo hi]
    exact hwindow lo hi hle
  · rintro ⟨hwindow, hcached⟩
    refine ⟨fun lo hi hle => ?_, fun e he hrejected hlooked => ?_⟩
    · rw [hsame hcached lo hi]
      exact hwindow lo hi hle
    · rw [(hserved e he hrejected).2.2, hcached e he hrejected] at hlooked
      exact absurd hlooked (by decide)

/-- A request with a token nobody was given. -/
def guess : FrontRequest :=
  { header := "Bearer acd_live_aaaaaaaaaaaaaaaa_bbbbbbbbbbbbbbbbbbbbbbbbbbbbbbbb"
    found := .error .keyNotFound, getAt := 0, putAt := 0, checkedAt := 0, limiterAt := 0
    allowAt := 0, tokensAt := 0 }

/-- Two guesses at once. With a burst of one, both are looked up and hashed, and
    neither is answered 429. -/
theorem unlimited_guesses :
    let s : Front := { cache := newVerifyCache 0, limit := newRateLimit 1 1, lookups := 0 }
    let served := s.serve openDeployment.externals (fun _ _ _ s => (.document 200 false [], s))
      [(.me, guess), (.mcp, guess)]
    servedIn 0 0 (fun e => e.rejected openDeployment.externals && e.lookedUp) served = 2 ∧
      ¬(2 : ℚ) ≤ (s.limit.burst : ℚ) + (0 - 0) * s.limit.rps ∧
      served.map (fun e => e.reply.status) = [401, 401] := by
  decide +kernel

end CoopDB
