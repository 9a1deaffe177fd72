import CoopDB.Core.VerifyCache
import CoopDB.Lib.Transition

/-!
# What the Verify Cache Returns

A revocation flag stands for a key id, and every entry of the id is hidden
behind it. That is all `RevokeByDBID` does: the entries stay where they are.
`Put` clears the flag, since the record it is given was just verified. What it
overlooks is that the other entries of the same id were not. They come out from
behind the flag, and `Get` returns them again.

Several tokens of one id are easy to come by: the env tag in a token is not
compared with anything, and each spelling has an entry of its own. The empty id is
the other exception. `RevokeByDBID` ignores it.

## Main definitions

* `CacheCall`, `CacheRun`, `cacheStep`: Calls of the cache, with their history.
* `KeepsRevocations`: No entry that is older than a revocation is returned.
* `Uncovers`: The call brings such an entry back.

## Theorems

* `cacheStep_keeps_iff`: One call keeps revocations unless it uncovers an entry.
* `cache_keeps_revocations_iff`: A sequence of calls does exactly if every `Put` that
  clears a flag finds no other usable entry behind it.
* `second_token_resurrects`: Two tokens of one key, and an entry that comes back.
-/

namespace CoopDB

open Transition (Always Allowed)

namespace VerifyCache

variable (c : VerifyCache) (token : String) (now : Time)

/-- `Get` returns the record of an entry that has not expired and whose id is
    not flagged. -/
theorem get_eq_some (rec : KeyRecord) :
    (c.get token now).1 = some rec ↔
      ∃ v, c.lru token = some v ∧ v.record = rec ∧ c.expired v now = false ∧
        c.revoked rec.id = false := by
  unfold get
  cases hv : c.lru token with
  | none => simp
  | some v =>
    simp only [Option.some.injEq, exists_eq_left']
    cases hexp : c.expired v now with
    | true => simp
    | false =>
      simp only [Bool.false_eq_true, if_false, true_and]
      cases hrev : c.revoked v.record.id with
      | true =>
        simp only [if_true, reduceCtorEq, false_iff]
        intro h
        rw [← h.1, hrev] at h
        exact absurd h.2 (by simp)
      | false =>
        simp only [Bool.false_eq_true, if_false, Option.some.injEq]
        constructor
        · intro hrec
          rw [← hrec]
          exact ⟨rfl, hrev⟩
        · intro h
          exact h.1

/-- After `Get` the cache is the same, or one entry short. -/
theorem get_cache : (c.get token now).2 = c ∨ (c.get token now).2 = c.evict token := by
  unfold get
  cases c.lru token with
  | none => exact .inl rfl
  | some v =>
    by_cases hexp : c.expired v now = true
    · simp only [if_pos hexp, or_true]
    · by_cases hrev : c.revoked v.record.id = true
      · simp only [if_neg hexp, if_pos hrev, or_true]
      · simp only [if_neg hexp, if_neg hrev, true_or]

/-- An eviction leaves only entries that were there. -/
theorem lru_evict (token' : String) (v : CachedKey) (h : (c.evict token).lru token' = some v) :
    c.lru token' = some v := by
  by_cases htok : token' = token
  · rw [htok] at h
    simp only [evict, Function.update_self, reduceCtorEq] at h
  · simp only [evict, Function.update_of_ne htok] at h
    exact h

/-- `Get` leaves only entries that were there, and the TTL. -/
theorem get_keeps : (c.get token now).2.ttl = c.ttl ∧
    ∀ token' v, (c.get token now).2.lru token' = some v → c.lru token' = some v := by
  rcases c.get_cache token now with hsame | hevict
  · rw [hsame]
    exact ⟨rfl, fun _ _ hv => hv⟩
  · rw [hevict]
    exact ⟨rfl, fun token' v hv => c.lru_evict token token' v hv⟩

/-- After a `Put` an entry is the new one or an old one. -/
theorem lru_put {token' : String} {rec : KeyRecord} {v : CachedKey}
    (h : (c.put token rec now).lru token' = some v) :
    (token' = token ∧ v = { record := rec, verifiedAt := now }) ∨ c.lru token' = some v := by
  by_cases htok : token' = token
  · rw [htok] at h
    simp only [put, Function.update_self, Option.some.injEq] at h
    exact .inl ⟨htok, h.symm⟩
  · simp only [put, Function.update_of_ne htok] at h
    exact .inr h

/-- A revocation touches no entry. -/
@[simp] theorem lru_revokeByDBID (id : String) : (c.revokeByDBID id).lru = c.lru := by
  unfold revokeByDBID
  by_cases hid : id = ""
  · rw [if_pos hid]
  · rw [if_neg hid]

@[simp] theorem ttl_revokeByDBID (id : String) : (c.revokeByDBID id).ttl = c.ttl := by
  unfold revokeByDBID
  by_cases hid : id = ""
  · rw [if_pos hid]
  · rw [if_neg hid]

@[simp] theorem expired_revokeByDBID (id : String) (v : CachedKey) :
    (c.revokeByDBID id).expired v now = c.expired v now := by
  unfold revokeByDBID
  by_cases hid : id = ""
  · rw [if_pos hid]
  · rw [if_neg hid]
    rfl

/-- It flags its own id, unless that is empty. -/
theorem revoked_revokeByDBID (id id' : String) :
    (c.revokeByDBID id).revoked id' = true ↔
      (id ≠ "" ∧ id' = id) ∨ c.revoked id' = true := by
  unfold revokeByDBID
  by_cases hid : id = ""
  · rw [if_pos hid]
    simp [hid]
  · rw [if_neg hid]
    by_cases heq : id' = id
    · simp [heq, hid]
    · simp [heq]

/-- An entry does not come back to life. -/
theorem expired_mono (v : CachedKey) (d : Nat) (h : c.expired v (now + d) = false) :
    c.expired v now = false := by
  unfold expired at h ⊢
  rw [decide_eq_false_iff_not, gt_iff_lt, Int.not_lt] at h ⊢
  have hle : now - v.verifiedAt ≤ now + d - v.verifiedAt :=
    Int.sub_le_sub_right (Int.le_add_of_nonneg_right (Int.natCast_nonneg d)) _
  exact Int.le_trans hle h

end VerifyCache

/-- A call of the cache, the passing of time, or an eviction by the LRU. -/
inductive CacheCall
  | put (token : String) (rec : KeyRecord)
  | get (token : String)
  | revokeByDBID (keyDBID : String)
  | advance (d : Nat)
  | evict (token : String)

/-- The cache at an instant, and what was called on it, latest call first. -/
structure CacheRun where
  cache : VerifyCache
  now : Time
  history : List CacheCall

/-- A new cache. -/
def CacheRun.new (ttl now : Time) : CacheRun :=
  { cache := newVerifyCache ttl, now := now, history := [] }

/-- One call. -/
def cacheStep (s : CacheRun) (e : CacheCall) : Option CacheRun :=
  some
    { cache := match e with
        | .put token rec => s.cache.put token rec s.now
        | .get token => (s.cache.get token s.now).2
        | .revokeByDBID id => s.cache.revokeByDBID id
        | .advance _ => s.cache
        | .evict token => s.cache.evict token
      now := match e with
        | .advance d => s.now + d
        | _ => s.now
      history := e :: s.history }

/-- `RevokeByDBID` was called for the id since the token was last put. -/
def revokedSince (token id : String) : List CacheCall → Bool
  | [] => false
  | .put token' _ :: h => if token' = token then false else revokedSince token id h
  | .revokeByDBID id' :: h => id' == id || revokedSince token id h
  | .get _ :: h | .advance _ :: h | .evict _ :: h => revokedSince token id h

/-- Whatever `Get` returns was put after the last revocation of its id. -/
def KeepsRevocations (s : CacheRun) : Prop :=
  ∀ token rec, (s.cache.get token s.now).1 = some rec →
    revokedSince token rec.id s.history = false

/-- Every entry of a flagged id is older than a revocation of the id. The empty
    id is never flagged. -/
structure Covered (s : CacheRun) : Prop where
  older : ∀ token v, s.cache.lru token = some v → s.cache.revoked v.record.id = true →
    revokedSince token v.record.id s.history = true
  empty : s.cache.revoked "" = false

/-- The call brings back an entry that was revoked: a `Put` for a flagged id
    with another usable entry, or a revocation that is ignored. -/
def Uncovers (s : CacheRun) : CacheCall → Prop
  | .put token rec => s.cache.revoked rec.id = true ∧
      ∃ token' v, token' ≠ token ∧ s.cache.lru token' = some v ∧ v.record.id = rec.id ∧
        s.cache.expired v s.now = false
  | .revokeByDBID id => id = "" ∧
      ∃ token v, s.cache.lru token = some v ∧ v.record.id = "" ∧ s.cache.expired v s.now = false
  | _ => False

theorem covered_new (ttl now : Time) : Covered (CacheRun.new ttl now) :=
  ⟨fun token v h => absurd h (by simp [CacheRun.new, newVerifyCache]), rfl⟩

theorem keepsRevocations_new (ttl now : Time) : KeepsRevocations (CacheRun.new ttl now) :=
  fun _ _ _ => rfl

variable (s s' : CacheRun)

/-- A put keeps its own entry fresh and the others as they were. -/
theorem covered_put {token : String} {rec : KeyRecord} (h : Covered s)
    (hs : cacheStep s (.put token rec) = some s') : Covered s' := by
  have hs' := Option.some.inj hs
  subst hs'
  constructor
  · intro token' v hv hflag
    simp only [VerifyCache.put] at hv hflag
    -- The flag of the record's own id is down, so the entry is another id's.
    have hid : v.record.id ≠ rec.id := by
      intro heq
      rw [heq, Function.update_self] at hflag
      exact absurd hflag (by simp)
    rw [Function.update_of_ne hid] at hflag
    by_cases htok : token' = token
    · rw [htok, Function.update_self, Option.some.injEq] at hv
      rw [← hv] at hid
      exact absurd rfl hid
    · rw [Function.update_of_ne htok] at hv
      simp only [revokedSince, if_neg (Ne.symm htok)]
      exact h.older token' v hv hflag
  · simp only [VerifyCache.put]
    by_cases hid : "" = rec.id
    · rw [hid, Function.update_self]
    · rw [Function.update_of_ne hid]
      exact h.empty

/-- After a put, `KeepsRevocations` asks for one thing more: that no other
    entry comes out from behind the flag. -/
theorem keepsRevocations_put {token : String} {rec : KeyRecord} (hc : Covered s)
    (h : KeepsRevocations s) (hs : cacheStep s (.put token rec) = some s') :
    KeepsRevocations s' ↔ ¬ Uncovers s (.put token rec) := by
  have hs' := Option.some.inj hs
  subst hs'
  constructor
  · -- The other entry is usable and its flag is down now.
    rintro hafter ⟨hflag, token', v, htok, hv, hid, hexp⟩
    have hget : ((s.cache.put token rec s.now).get token' s.now).1 = some v.record := by
      rw [VerifyCache.get_eq_some]
      refine ⟨v, ?_, rfl, hexp, ?_⟩
      · simp only [VerifyCache.put, Function.update_of_ne htok, hv]
      · simp [VerifyCache.put, hid]
    have hfresh := hafter token' v.record hget
    have holder := hc.older token' v hv (by rw [hid]; exact hflag)
    simp only [revokedSince, if_neg (Ne.symm htok), holder] at hfresh
    exact absurd hfresh (by simp)
  · intro hno token' rec' hget
    rcases (VerifyCache.get_eq_some _ _ _ _).mp hget with ⟨v, hv, hrec, hexp, hflag⟩
    by_cases htok : token' = token
    · simp only [revokedSince, if_pos htok.symm]
    · simp only [VerifyCache.put, Function.update_of_ne htok] at hv hflag
      simp only [revokedSince, if_neg (Ne.symm htok)]
      refine h token' rec' ((VerifyCache.get_eq_some _ _ _ _).mpr ⟨v, hv, hrec, hexp, ?_⟩)
      -- If the flag was up before, this is the entry that comes out.
      by_cases hid : rec'.id = rec.id
      · cases hup : s.cache.revoked rec'.id with
        | false => rfl
        | true =>
          rw [hid] at hup
          exact absurd ⟨hup, token', v, htok, hv, by rw [hrec, hid], hexp⟩ hno
      · rw [Function.update_of_ne hid] at hflag
        exact hflag

/-- A revocation hides every entry of its id, and makes each of them older than
    a revocation. The empty id is not hidden. -/
theorem covered_revoke (id : String) (h : Covered s)
    (hs : cacheStep s (.revokeByDBID id) = some s') :
    Covered s' := by
  have hs' := Option.some.inj hs
  subst hs'
  constructor
  · intro token v hv hflag
    rw [VerifyCache.lru_revokeByDBID] at hv
    simp only [revokedSince, Bool.or_eq_true, beq_iff_eq]
    rcases (VerifyCache.revoked_revokeByDBID _ _ _).mp hflag with ⟨_, heq⟩ | hbefore
    · exact .inl heq.symm
    · exact .inr (h.older token v hv hbefore)
  · rw [← Bool.not_eq_true, VerifyCache.revoked_revokeByDBID]
    rintro (⟨hne, heq⟩ | hbefore)
    · exact hne heq.symm
    · rw [h.empty] at hbefore
      exact absurd hbefore (by simp)

/-- After a revocation, what is still returned has another id, or the call was
    ignored. -/
theorem keepsRevocations_revoke (id : String) (hc : Covered s) (h : KeepsRevocations s)
    (hs : cacheStep s (.revokeByDBID id) = some s') :
    KeepsRevocations s' ↔ ¬ Uncovers s (.revokeByDBID id) := by
  have hs' := Option.some.inj hs
  subst hs'
  constructor
  · rintro hafter ⟨hid, token, v, hv, hempty, hexp⟩
    have hget : ((s.cache.revokeByDBID id).get token s.now).1 = some v.record := by
      simp only [VerifyCache.revokeByDBID, if_pos hid]
      exact (VerifyCache.get_eq_some _ _ _ _).mpr ⟨v, hv, rfl, hexp, by rw [hempty]; exact hc.empty⟩
    have hfresh := hafter token v.record hget
    simp only [revokedSince, hid, hempty, beq_self_eq_true, Bool.true_or] at hfresh
    exact absurd hfresh (by simp)
  · intro hno token rec hget
    rcases (VerifyCache.get_eq_some _ _ _ _).mp hget with ⟨v, hv, hrec, hexp, hflag⟩
    rw [VerifyCache.lru_revokeByDBID] at hv
    rw [VerifyCache.expired_revokeByDBID] at hexp
    rw [← Bool.not_eq_true, VerifyCache.revoked_revokeByDBID, not_or, Bool.not_eq_true] at hflag
    -- What is still returned is not of the id that was called for.
    have hne : id ≠ rec.id := by
      intro heq
      by_cases hid : id = ""
      · exact hno ⟨hid, token, v, hv, by rw [hrec, ← heq, hid], hexp⟩
      · exact hflag.1 ⟨hid, heq.symm⟩
    simp only [revokedSince, beq_eq_false_iff_ne.mpr hne, Bool.false_or]
    exact h token rec ((VerifyCache.get_eq_some _ _ _ _).mpr ⟨v, hv, hrec, hexp, hflag.2⟩)

/-- A call that adds no entry, changes no flag and only lets time pass brings
    nothing back. -/
theorem kept_of_shrinking (hc : Covered s) (h : KeepsRevocations s)
    (hlru : ∀ token v, s'.cache.lru token = some v → s.cache.lru token = some v)
    (hflags : s'.cache.revoked = s.cache.revoked)
    (hexp : ∀ v, s'.cache.expired v s'.now = false → s.cache.expired v s.now = false)
    (hhist : ∀ token id, revokedSince token id s'.history = revokedSince token id s.history) :
    Covered s' ∧ KeepsRevocations s' := by
  refine ⟨⟨fun token v hv hflag => ?_, by rw [hflags]; exact hc.empty⟩, fun token rec hget => ?_⟩
  · rw [hflags] at hflag
    rw [hhist]
    exact hc.older token v (hlru token v hv) hflag
  · rcases (VerifyCache.get_eq_some _ _ _ _).mp hget with ⟨v, hv, hrec, hlive, hflag⟩
    rw [hflags] at hflag
    rw [hhist]
    exact h token rec
      ((VerifyCache.get_eq_some _ _ _ _).mpr ⟨v, hlru token v hv, hrec, hexp v hlive, hflag⟩)

/-- A call keeps revocations in force exactly when it uncovers no entry. -/
theorem cacheStep_keeps_iff (e : CacheCall) (hc : Covered s) (h : KeepsRevocations s) :
    ∃ s', cacheStep s e = some s' ∧ Covered s' ∧ (KeepsRevocations s' ↔ ¬ Uncovers s e) := by
  refine ⟨_, rfl, ?_⟩
  cases e with
  | put token rec =>
    exact ⟨covered_put s _ hc rfl, keepsRevocations_put s _ hc h rfl⟩
  | revokeByDBID id => exact ⟨covered_revoke s _ id hc rfl, keepsRevocations_revoke s _ id hc h rfl⟩
  | get token =>
    -- `Get` drops an entry that has expired or is flagged.
    rcases s.cache.get_cache token s.now with hsame | hless
    · have hkept := kept_of_shrinking s { s with history := .get token :: s.history } hc h
        (fun _ _ hv => hv) rfl (fun _ hv => hv) (fun _ _ => rfl)
      simp only [hsame]
      exact ⟨hkept.1, iff_of_true hkept.2 not_false⟩
    · have hkept := kept_of_shrinking s
        { s with cache := s.cache.evict token, history := .get token :: s.history } hc h
        (s.cache.lru_evict token) rfl (fun _ hv => hv) (fun _ _ => rfl)
      simp only [hless]
      exact ⟨hkept.1, iff_of_true hkept.2 not_false⟩
  | advance d =>
    have hkept := kept_of_shrinking s
      { s with now := s.now + d, history := .advance d :: s.history } hc h
      (fun _ _ hv => hv) rfl (fun v => s.cache.expired_mono s.now v d) (fun _ _ => rfl)
    exact ⟨hkept.1, iff_of_true hkept.2 not_false⟩
  | evict token =>
    have hkept := kept_of_shrinking s
      { s with cache := s.cache.evict token, history := .evict token :: s.history } hc h
      (s.cache.lru_evict token) rfl (fun _ hv => hv) (fun _ _ => rfl)
    exact ⟨hkept.1, iff_of_true hkept.2 not_false⟩

/-- Over every sequence of calls on a new cache, `Get` never returns an entry
    older than the last revocation of its id exactly when no call of the
    sequence uncovers one. -/
theorem cache_keeps_revocations_iff (ttl now : Time) (calls : List CacheCall) :
    Always cacheStep KeepsRevocations (CacheRun.new ttl now) calls ↔
      Allowed cacheStep (fun s e => ¬ Uncovers s e) (CacheRun.new ttl now) calls :=
  Transition.always_iff_allowed_of_invariant Covered KeepsRevocations
    (fun s e hc h => cacheStep_keeps_iff s e hc h) calls (CacheRun.new ttl now)
    (covered_new ttl now) (keepsRevocations_new ttl now)

/-- A record, for runs on fixed calls. -/
def someRecord (id : String) : KeyRecord :=
  { id := id, workspaceID := "", keyID := "key", secretHash := "hash", env := .live
    pgRole := "dbuser", name := "", expiresAt := none, revokedAt := none, replacesKeyID := none }

/-- A token is cached and its key is revoked. When another token of the key is
    put, `Get` returns the first entry again, from before the revocation. -/
theorem second_token_resurrects :
    ¬ Always cacheStep KeepsRevocations (CacheRun.new 300 0)
        [.put "old" (someRecord "k"), .revokeByDBID "k", .put "new" (someRecord "k")] ∧
      ∃ s, Transition.run cacheStep (CacheRun.new 300 0)
          [.put "old" (someRecord "k"), .revokeByDBID "k", .put "new" (someRecord "k")] = some s ∧
        (s.cache.get "old" s.now).1 = some (someRecord "k") := by
  refine ⟨fun h => ?_, _, rfl, rfl⟩
  have hlast := ((h.2 _ rfl).2 _ rfl).2 _ rfl
  exact absurd (hlast "old" (someRecord "k") rfl) (by decide)

end CoopDB
