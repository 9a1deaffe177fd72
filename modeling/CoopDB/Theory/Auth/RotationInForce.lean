import CoopDB.Theory.Auth.Cache
import CoopDB.Theory.Auth.Steps

/-!
# When a Rotation Takes Effect

A rotation request commits and then flags the key in the cache, so that the
next request with the old token reads the table and finds the expiry that was
just scheduled. A lookup that is under way at that moment undoes this. It has
read the row before the commit and is hashing the secret. When it is done it
puts the record in the cache and clears the flag.

The flag also falls when a lookup of another token of the key puts a record,
however new that one is. The old entries of the key then come back with it.
These are the only two ways.

## Main definitions

* `RotationInForce`: What is returned to requests that start after a rotation.
* `PutsFresh`: A put neither brings in nor uncovers an outdated record.
* `InForce`: The invariant.

## Theorems

* `inForce_call`, `inForce_shrink`, `inForce_put`, `inForce_flag`, `inForce_step`: Each
  kind of step keeps the invariant.
* `rotation_in_force`: In a run whose puts are fresh, a request that starts after the flag
  was set is given a record that was read after the rotation committed.
* `late_put_undoes_rotation`: A lookup in flight puts the record from before.
-/

namespace CoopDB

open Transition (run Allowed)

/-- A call of `resolve` that was started after a rotation had flagged the key
    returns a record of the key that was read after the rotation committed. -/
def RotationInForce (s : AuthState) : Prop :=
  ∀ c rec readAt ev, (s.calls c).phase = .resolved rec readAt → ev ∈ s.evictions →
    ev.id = rec.id → ev.evictedAt < (s.calls c).startedAt → ev.committedAt ≤ readAt

/-- Every flagged rotation of the key was committed before step `n`. -/
def ReadAfter (s : AuthState) (id : String) (n : Nat) : Prop :=
  ∀ ev ∈ s.evictions, ev.id = id → ev.committedAt ≤ n

/-- If the step is a put, its record was read after every flagged rotation of
    the key, and if it clears a flag, so was every other entry of the key that
    can still be used. -/
def PutsFresh (d : AuthDeployment) (s : AuthState) : AuthEvent → Prop
  | .call c _ => ∀ p rec readAt, (s.calls c).phase = .resolve p (.put rec readAt) →
      ReadAfter s rec.id readAt ∧
      (s.cache.revoked rec.id = true → ∀ token v, token ≠ d.externals.cacheKey p.fullToken →
        s.cache.lru token = some v → v.record.id = rec.id → s.cache.expired v s.now = false →
        ReadAfter s rec.id (s.cachedRead token))
  | _ => True

/-- The record a call is working with, and the step it was read at. -/
def AuthPhase.holds : AuthPhase → Option (KeyRecord × Nat)
  | .resolve _ (.verify rec readAt) => some (rec, readAt)
  | .resolve _ (.put rec readAt) => some (rec, readAt)
  | .resolved rec readAt => some (rec, readAt)
  | _ => none

/-- The call has no record, and no rotation either. -/
def AuthPhase.plain : AuthPhase → Bool
  | .idle | .resolve _ .get | .resolve _ .find | .over _ => true
  | _ => false

theorem AuthPhase.holds_of_plain (p : AuthPhase) (h : p.plain = true) : p.holds = none := by
  unfold AuthPhase.plain at h
  split at h
  case h_5 => exact absurd h (by simp)
  all_goals rfl

/-- What one call knows: the record it works with is newer than every rotation
    flagged before it started, and what it is going to flag is a key. -/
structure AuthCall.InForce (evictions : List Eviction) (events : Nat) (l : AuthCall) : Prop where
  started : l.startedAt ≤ events
  record : ∀ rec n, l.phase.holds = some (rec, n) → rec.id ≠ "" ∧
    ∀ ev ∈ evictions, ev.id = rec.id → ev.evictedAt < l.startedAt → ev.committedAt ≤ n
  rotation : ∀ r stage, l.phase = .rotate r stage → r.fromRequest = true → r.id ≠ ""
  evicting : ∀ id n, l.phase = .evict id n → id ≠ "" ∧ n ≤ events

/-- Every call is in order, and every entry of the cache that can still be used
    was read after the flagged rotations of its key. -/
structure InForce (s : AuthState) : Prop where
  calls : ∀ c, (s.calls c).InForce s.evictions s.events
  past : ∀ ev ∈ s.evictions, ev.committedAt ≤ s.events
  cached : ∀ token v, s.cache.lru token = some v → v.record.id ≠ "" ∧
    (ReadAfter s v.record.id (s.cachedRead token) ∨ s.cache.revoked v.record.id = true ∨
      s.cache.expired v s.now = true)

theorem inForce_initial (keys : Keys) (ttl now : Time) :
    InForce (AuthState.initial keys ttl now) := by
  refine ⟨fun c => ⟨Nat.le_refl 0, ?_, ?_, ?_⟩, ?_, ?_⟩
  · intro rec n h
    exact absurd h (by simp [AuthState.initial, AuthPhase.holds])
  · intro r stage h
    exact absurd h (by simp [AuthState.initial])
  · intro id n h
    exact absurd h (by simp [AuthState.initial])
  · intro ev h
    exact absurd h List.not_mem_nil
  · intro token v h
    exact absurd h (by simp [AuthState.initial, newVerifyCache])

/-- A call that is in order stays so while others go on. -/
theorem AuthCall.InForce.mono {evictions : List Eviction} {n n' : Nat} {l : AuthCall}
    (h : l.InForce evictions n) (hn : n ≤ n') : l.InForce evictions n' :=
  ⟨Nat.le_trans h.started hn, h.record, h.rotation,
    fun id k hk => ⟨(h.evicting id k hk).1, Nat.le_trans (h.evicting id k hk).2 hn⟩⟩

variable (s : AuthState)

/-- Letting one call go on, and counting the step. -/
theorem inForce_call (c : CallId) {l : AuthCall} (h : InForce s)
    (hl : l.InForce s.evictions s.events) :
    InForce { s with calls := Function.update s.calls c l, events := s.events + 1 } := by
  refine ⟨fun c' => ?_, fun ev hev => Nat.le_succ_of_le (h.past ev hev), h.cached⟩
  by_cases hc : c' = c
  · simp only [hc, Function.update_self]
    exact hl.mono (Nat.le_succ _)
  · simp only [Function.update_of_ne hc]
    exact (h.calls c').mono (Nat.le_succ _)

/-- The table is not looked at, and the count is free to grow. -/
theorem inForce_count (T : ReadCommitted.Table Uuid CallId KeyRow) (h : InForce s) :
    InForce { s with keys := T, events := s.events + 1 } :=
  ⟨fun c => (h.calls c).mono (Nat.le_succ _),
    fun ev hev => Nat.le_succ_of_le (h.past ev hev), h.cached⟩

/-- Entries may go and time may pass. -/
theorem inForce_shrink {cache : VerifyCache} {now : Time} (h : InForce s)
    (hlru : ∀ token v, cache.lru token = some v → s.cache.lru token = some v)
    (hflags : cache.revoked = s.cache.revoked)
    (hexp : ∀ v, s.cache.expired v s.now = true → cache.expired v now = true) :
    InForce { s with cache := cache, now := now } := by
  refine ⟨h.calls, h.past, fun token v hv => ?_⟩
  rcases h.cached token v (hlru token v hv) with ⟨hid, hread | hflag | hold⟩
  · exact ⟨hid, .inl hread⟩
  · exact ⟨hid, .inr (.inl (by rw [hflags]; exact hflag))⟩
  · exact ⟨hid, .inr (.inr (hexp v hold))⟩

/-- `Get` only removes entries. -/
theorem inForce_get (key : String) (h : InForce s) :
    InForce { s with cache := (s.cache.get key s.now).2 } := by
  rcases s.cache.get_cache key s.now with hsame | hless
  · rw [hsame]
    exact h
  · rw [hless]
    exact inForce_shrink s h (s.cache.lru_evict key) rfl fun _ hold => hold

/-- What `Get` returns is neither hidden nor expired, so it was read after the
    flagged rotations of its key. -/
theorem inForce_hit (key : String) (rec : KeyRecord) (h : InForce s)
    (hget : (s.cache.get key s.now).1 = some rec) :
    rec.id ≠ "" ∧ ReadAfter s rec.id (s.cachedRead key) := by
  rcases (s.cache.get_eq_some key s.now rec).mp hget with ⟨v, hv, hrec, hexp, hflag⟩
  rcases h.cached key v hv with ⟨hid, hwhy⟩
  rw [hrec] at hid hwhy
  rw [hflag, hexp] at hwhy
  refine ⟨hid, ?_⟩
  rcases hwhy with hread | hup | hold
  · exact hread
  · exact absurd hup (by simp)
  · exact absurd hold (by simp)

/-- A put of a record that was read after the flagged rotations, which
    uncovers no entry that was not. -/
theorem inForce_put {key : String} {rec : KeyRecord} {readAt : Nat} (h : InForce s)
    (hid : rec.id ≠ "") (hnew : ReadAfter s rec.id readAt)
    (hothers : s.cache.revoked rec.id = true → ∀ token v, token ≠ key → s.cache.lru token = some v →
      v.record.id = rec.id → s.cache.expired v s.now = false →
      ReadAfter s rec.id (s.cachedRead token)) :
    InForce { s with cache := s.cache.put key rec s.now
                     cachedRead := Function.update s.cachedRead key readAt } := by
  refine ⟨h.calls, h.past, fun token v hv => ?_⟩
  simp only [VerifyCache.put] at hv ⊢
  by_cases htok : token = key
  · rw [htok, Function.update_self, Option.some.injEq] at hv
    rw [htok, Function.update_self, ← hv]
    exact ⟨hid, .inl hnew⟩
  · rw [Function.update_of_ne htok] at hv
    rw [Function.update_of_ne htok]
    rcases h.cached token v hv with ⟨hvid, hread | hflag | hold⟩
    · exact ⟨hvid, .inl hread⟩
    · refine ⟨hvid, ?_⟩
      by_cases hsame : v.record.id = rec.id
      · -- The entry was hidden behind the flag that falls.
        rw [hsame] at hflag ⊢
        cases hexp : s.cache.expired v s.now with
        | true => exact .inr (.inr hexp)
        | false => exact .inl (hothers hflag token v htok hv hsame hexp)
      · exact .inr (.inl (by rw [Function.update_of_ne hsame]; exact hflag))
    · exact ⟨hvid, .inr (.inr hold)⟩

/-- Flagging a key. No call that is under way was started after this, and the
    entries of the key are hidden. -/
theorem inForce_flag {id : String} {committedAt : Nat} (h : InForce s) (hid : id ≠ "")
    (hpast : committedAt ≤ s.events) : InForce { s with
      cache := s.cache.revokeByDBID id
      evictions := { id := id, committedAt := committedAt, evictedAt := s.events } :: s.evictions
      } := by
  refine ⟨fun c => ⟨(h.calls c).started, fun rec n hrec => ?_, (h.calls c).rotation,
    (h.calls c).evicting⟩, fun ev hev => ?_, fun token v hv => ?_⟩
  · refine ⟨((h.calls c).record rec n hrec).1, fun ev hev hevid hlate => ?_⟩
    rcases List.mem_cons.mp hev with heq | hmem
    · -- The new flag is set at this step, and the call started at an earlier one.
      rw [heq] at hlate
      exact absurd hlate (Nat.not_lt.mpr (h.calls c).started)
    · exact ((h.calls c).record rec n hrec).2 ev hmem hevid hlate
  · rcases List.mem_cons.mp hev with heq | hmem
    · rw [heq]
      exact hpast
    · exact h.past ev hmem
  · rw [VerifyCache.lru_revokeByDBID] at hv
    rcases h.cached token v hv with ⟨hvid, hrest⟩
    refine ⟨hvid, ?_⟩
    rw [VerifyCache.revoked_revokeByDBID, VerifyCache.expired_revokeByDBID]
    by_cases hsame : v.record.id = id
    · exact .inr (.inl (.inl ⟨hid, hsame⟩))
    · rcases hrest with hread | hflag | hold
      · refine .inl (fun ev hev hevid => ?_)
        rcases List.mem_cons.mp hev with heq | hmem
        · rw [heq] at hevid
          exact absurd hevid.symm hsame
        · exact hread ev hmem hevid
      · exact .inr (.inl (.inr hflag))
      · exact .inr (.inr hold)

namespace AuthCall.InForce

variable (evictions : List Eviction) (n : Nat) (l : AuthCall) (h : l.InForce evictions n)
include h

variable {evictions n l}

/-- Going on to a phase without a record and without a rotation. -/
theorem to_plain {p : AuthPhase} (hp : p.plain = true) :
    ({ l with phase := p } : AuthCall).InForce evictions n := by
  refine ⟨h.started, fun rec k hk => ?_, fun r stage hr => ?_, fun id k hk => ?_⟩
  · rw [AuthPhase.holds_of_plain p hp] at hk
    exact absurd hk (by simp)
  · have hp' : p = .rotate r stage := hr
    rw [hp'] at hp
    exact absurd hp (by simp [AuthPhase.plain])
  · have hp' : p = .evict id k := hk
    rw [hp'] at hp
    exact absurd hp (by simp [AuthPhase.plain])

/-- Going on with a record. -/
theorem to_holding {p : AuthPhase} {rec : KeyRecord} {k : Nat} (hholds : p.holds = some (rec, k))
    (hid : rec.id ≠ "")
    (hread : ∀ ev ∈ evictions, ev.id = rec.id → ev.evictedAt < l.startedAt → ev.committedAt ≤ k) :
    ({ l with phase := p } : AuthCall).InForce evictions n := by
  refine ⟨h.started, fun rec' k' hk' => ?_, fun r stage hr => ?_, fun id k' hk' => ?_⟩
  · have heq : (rec, k) = (rec', k') := Option.some.inj (hholds.symm.trans hk')
    rw [Prod.mk.injEq] at heq
    rw [← heq.1, ← heq.2]
    exact ⟨hid, hread⟩
  · have hr' : p = .rotate r stage := hr
    rw [hr'] at hholds
    exact absurd hholds (by simp [AuthPhase.holds])
  · have hk : p = .evict id k' := hk'
    rw [hk] at hholds
    exact absurd hholds (by simp [AuthPhase.holds])

/-- Going on with a rotation. -/
theorem to_rotate {r : Rotation} (stage : RotateStage) (hid : r.fromRequest = true → r.id ≠ "") :
    ({ l with phase := .rotate r stage } : AuthCall).InForce evictions n := by
  refine ⟨h.started, fun rec k hk => ?_, fun r' stage' hr => ?_, fun id k hk => ?_⟩
  · exact absurd hk (by simp [AuthPhase.holds])
  · have heq : AuthPhase.rotate r stage = .rotate r' stage' := hr
    rw [AuthPhase.rotate.injEq] at heq
    rw [← heq.1]
    exact hid
  · exact absurd hk (by simp)

/-- Going on to flag the key. -/
theorem to_evict (id : String) (k : Nat) (hid : id ≠ "") (hk : k ≤ n) :
    ({ l with phase := .evict id k } : AuthCall).InForce evictions n := by
  refine ⟨h.started, fun rec k' hk' => ?_, fun r stage hr => ?_, fun id' k' hk' => ?_⟩
  · exact absurd hk' (by simp [AuthPhase.holds])
  · exact absurd hr (by simp)
  · have heq : AuthPhase.evict id k = .evict id' k' := hk'
    rw [AuthPhase.evict.injEq] at heq
    rw [← heq.1, ← heq.2]
    exact ⟨hid, hk⟩

end AuthCall.InForce

section

variable (d : AuthDeployment)

/-- A job starts without a record, and flags nothing unless it is a request. -/
theorem inForce_started (evictions : List Eviction) (n : Nat) (job : Job) :
    ({ phase := job.phase d.externals, rotates := job.rotates, startedAt := n } :
      AuthCall).InForce evictions n := by
  have hidle : ({ phase := .idle, rotates := job.rotates, startedAt := n } :
      AuthCall).InForce evictions n :=
    ⟨Nat.le_refl n, fun _ _ h => absurd h (by simp [AuthPhase.holds]),
      fun _ _ h => absurd h (by simp),
      fun _ _ h => absurd h (by simp)⟩
  cases job with
  | request => exact hidle.to_plain rfl
  | rotate oldID =>
    simp only [Job.phase]
    cases d.externals.uuidParse oldID with
    | error => exact hidle.to_plain rfl
    | ok => exact hidle.to_rotate _ nofun

/-- Every step keeps the invariant, if its put is fresh. -/
theorem inForce_step (s s' : AuthState) (e : AuthEvent) (h : InForce s) (hG : PutsFresh d s e)
    (hs : authStep d s e = some s') : InForce s' := by
  rcases authStep_moved d s s' hs with ⟨t, hmoved, rfl⟩
  cases hmoved with
  | ticked t =>
    refine inForce_count _ s.keys (inForce_shrink s h (fun _ _ hv => hv) rfl fun v hold => ?_)
    cases hexp : s.cache.expired v (s.now + t) with
    | true => rfl
    | false => rw [s.cache.expired_mono s.now v t hexp] at hold; exact hold
  | rested => exact inForce_count s s.keys h
  | created => exact inForce_count s _ h
  | revoked id db u T => exact inForce_count s T h
  | dropped token =>
    exact inForce_count _ s.keys
      (inForce_shrink s h (s.cache.lru_evict token) rfl fun _ hold => hold)
  | started c job => exact inForce_call s c h (inForce_started d s.evictions s.events job)
  | hit c p rec hphase hget =>
    have hhit := inForce_hit s _ rec h hget
    exact inForce_call _ c (inForce_get s _ h)
      ((h.calls c).to_holding rfl hhit.1 fun ev hev hid _ => hhit.2 ev hev hid)
  | missed c =>
    exact inForce_call _ c (inForce_get s _ h) ((h.calls c).to_plain rfl)
  | found c p u =>
    -- Read just now, so after every commit there has been.
    refine inForce_call s c h ((h.calls c).to_holding rfl
      (d.externals.uuidString_ne_empty u) fun ev hev _ _ => h.past ev hev)
  | verified c p rec readAt hphase =>
    have hrec := (h.calls c).record rec readAt (by rw [hphase]; rfl)
    exact inForce_call s c h ((h.calls c).to_holding rfl hrec.1 hrec.2)
  | cached c p rec readAt hphase =>
    -- The only step that needs the guard: the record may be old by now.
    have hrec := (h.calls c).record rec readAt (by rw [hphase]; rfl)
    have hfresh := hG p rec readAt hphase
    exact inForce_call _ c
      (inForce_put s h hrec.1 hfresh.1 hfresh.2)
      ((h.calls c).to_holding rfl hrec.1 hrec.2)
  | refused c => exact inForce_call s c h ((h.calls c).to_plain rfl)
  | authorized c rec readAt u hphase =>
    have hrec := (h.calls c).record rec readAt (by rw [hphase]; rfl)
    exact inForce_call s c h ((h.calls c).to_rotate _ fun _ => hrec.1)
  | began c r hphase | selected c r start old hphase =>
    exact inForce_call s c h ((h.calls c).to_rotate _ ((h.calls c).rotation r _ hphase))
  | inserted c r start old m hphase =>
    exact inForce_call { s with keys := _ } c ⟨h.calls, h.past, h.cached⟩
      ((h.calls c).to_rotate _ ((h.calls c).rotation r _ hphase))
  | updated c r start T hphase =>
    exact inForce_call { s with keys := T } c ⟨h.calls, h.past, h.cached⟩
      ((h.calls c).to_rotate _ ((h.calls c).rotation r _ hphase))
  | committed c r act next hphase hact hnext =>
    refine inForce_call { s with keys := s.keys.commit c } c ⟨h.calls, h.past, h.cached⟩ ?_
    -- The request flags the key afterwards, the command line does not.
    rcases hnext with hover | ⟨hreq, hevict⟩
    · rw [hover]
      exact (h.calls c).to_plain rfl
    · rw [hevict]
      exact (h.calls c).to_evict _ _ ((h.calls c).rotation r _ hphase hreq) (Nat.le_refl _)
  | aborted c =>
    exact inForce_call { s with keys := s.keys.rollback c } c ⟨h.calls, h.past, h.cached⟩
      ((h.calls c).to_plain rfl)
  | flagged c id committedAt hphase =>
    have hflag := (h.calls c).evicting id committedAt hphase
    have hnow := inForce_flag s h hflag.1 hflag.2
    exact inForce_call _ c hnow ((hnow.calls c).to_plain rfl)

/-- From every table, in every run whose puts are fresh, whatever a request is
    given that starts after a rotation of its key has been flagged was read
    after that rotation committed. -/
theorem rotation_in_force (keys : Keys) (ttl now : Time) (es : List AuthEvent) (s : AuthState)
    (hfresh : Allowed (authStep d) (PutsFresh d) (AuthState.initial keys ttl now) es)
    (hrun : run (authStep d) (AuthState.initial keys ttl now) es = some s) :
    RotationInForce s := by
  have hinv : InForce s :=
    Transition.run_invariant InForce (inForce_initial keys ttl now)
      (fun t e t' ht hG hstep => inForce_step d t t' e ht hG hstep) hfresh hrun
  intro c rec readAt ev hphase hev hid hlate
  exact ((hinv.calls c).record rec readAt (by rw [hphase]; rfl)).2 ev hev hid hlate

end

/-- The step is not a put, or nothing has been flagged so far. -/
def quiet (s : AuthState) : AuthEvent → Bool
  | .call c _ =>
    match (s.calls c).phase with
    | .resolve _ (.put _ _) => s.evictions.isEmpty
    | _ => true
  | _ => true

theorem putsFresh_of_quiet (d : AuthDeployment) (s : AuthState) (e : AuthEvent)
    (h : quiet s e = true) : PutsFresh d s e := by
  cases e with
  | call =>
    intro p rec readAt hphase
    simp only [quiet, hphase, List.isEmpty_iff] at h
    have hnone : ∀ id n, ReadAfter s id n := by
      intro id n ev hev
      rw [h] at hev
      exact absurd hev List.not_mem_nil
    exact ⟨hnone _ _, fun _ _ _ _ _ _ _ => hnone _ _⟩
  | _ => trivial

/-- A rotation request, and after it another request with the old token, up to
    its put. -/
def rotatedThenUsed : List AuthEvent :=
  lookUp 0 true ++ verifyAndPut 0 ++ rotateTo 0 3 ++ [.call 0 .next] ++ lookUp 1 false ++
    [.call 1 .next]

/-- The second request reads the table again, and what it is given is from
    after the rotation. -/
theorem rotated_then_used_in_force :
    ∃ s, run (authStep openDeployment) (AuthState.initial adminKeys 300 0)
        (rotatedThenUsed ++ [.call 1 .next]) = some s ∧ RotationInForce s := by
  refine ⟨_, rfl, rotation_in_force openDeployment adminKeys 300 0
    (rotatedThenUsed ++ [.call 1 .next]) _ ?_ rfl⟩
  rw [Transition.allowed_append]
  constructor
  · exact Transition.allowed_mono (putsFresh_of_quiet openDeployment)
      (by decide : Allowed (authStep openDeployment) (fun s e => quiet s e = true) _ _)
  · intro t ht
    rw [← Option.some.inj ht]
    refine ⟨fun p rec readAt hphase => ?_, fun _ _ => trivial⟩
    -- The first request's entry went with the miss, so no other entry is there.
    have hput : AuthPhase.resolve adminToken (.put _ _) = .resolve p (.put rec readAt) := hphase
    cases hput
    refine ⟨fun ev hev _ => ?_, fun _ token v htok hv => ?_⟩
    · rw [List.mem_singleton.mp hev]
      decide
    · have hother : token ≠ "token" := htok
      have hlru : Function.update (Function.update (fun _ => none) "token" _) "token" none token
          = some v := hv
      rw [Function.update_of_ne hother, Function.update_of_ne hother] at hlru
      exact absurd hlru (by simp)

/-- A lookup reads the row, a rotation request runs from start to end, and then
    the lookup puts its record. A request that starts now is given that
    record. -/
theorem late_put_undoes_rotation :
    ∃ s, run (authStep openDeployment) (AuthState.initial adminKeys 300 0)
        (lookUp 0 false ++ lookUp 1 true ++ verifyAndPut 1 ++ rotateTo 1 3 ++ [.call 1 .next] ++
          verifyAndPut 0 ++ [.start 2 (.request adminToken false), .call 2 .next]) = some s ∧
      ¬ RotationInForce s := by
  refine ⟨_, rfl, fun h => ?_⟩
  have hbad := h 2 _ _ _ rfl (List.mem_singleton.mpr rfl) rfl (by decide)
  exact absurd hbad (by decide)

end CoopDB
