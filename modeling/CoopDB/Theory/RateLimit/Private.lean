import CoopDB.Core.RateLimit
import CoopDB.Lib.Transition

/-!
# Each Key Has a Bucket of Its Own

What the limiter decides for a key is what a bucket decides that no other key
has anything to do with, as long as the LRU keeps the key's bucket. It does so
unless 4096 other keys look theirs up between two lookups of the key. A key whose
bucket was given up starts again with a full one.

The invariant follows one key. Before its first lookup nothing points to a bucket
of it. From then on one pointer is its bucket: every request of the key holds it
and no other does, the LRU has it under the key, and brought up to date it is the
bucket of a key that is alone. That the LRU still has it when the key comes again
is the one thing that depends on the others (`Lru.Ahead`).

## Main definitions

* `otherKeysSince`: The other keys looked up since the last lookup of a key.
* `Spaced`: The key comes back before its bucket is given up.
* `RateProcess.decisionsOf`: What was decided for a key, and when.
* `Owns`, `Unseen`: The pointer is the key's bucket, and the key has none yet.
* `Apart`: The invariant: the key is decided for as by a bucket of its own.
* `Asks`: A step that asks or looks at a bucket.
* `Crowded`: The state after other keys have come, for the key that loses its bucket.

## Theorems

* `limiterFor_cases`: A lookup finds a bucket under its key or makes a full one.
* `Apart.lookup`: A lookup by any key keeps the invariant.
* `Apart.undecided`, `Apart.decided`: So does asking a bucket, for another key and for the
  key.
* `apart_start`, `apart_step`: It holds at the start and in every step while the key is
  spaced.
* `decisions_of_own_bucket`: However the requests interleave, a spaced key is decided for
  as by a bucket of its own, and no window admits more than the burst and the rate.
* `decisions_among_others`: Two requests of a key, with two other keys between them.
* `evicted_key_starts_full`: After 4096 others the key is admitted again at once.
-/

namespace CoopDB

open TokenBucket (Bucket full refill after admittedIn)
open Transition (run Allowed)

/-- The other keys looked up since the last lookup of the key, oldest lookup
    first. -/
def otherKeysSince (k : String) (lookups : List String) : Finset String :=
  lookups.foldl (fun seen j => if j = k then ∅ else insert j seen) ∅

theorem otherKeysSince_snoc (k : String) (lookups : List String) (j : String) :
    otherKeysSince k (lookups ++ [j]) =
      if j = k then ∅ else insert j (otherKeysSince k lookups) := by
  simp [otherKeysSince]

/-- Where the key looks its bucket up again, fewer other keys than the LRU holds
    have looked up theirs since the last time. -/
def Spaced (k : String) (s : RateProcess) : RateEvent → Prop
  | .lookup _ keyDBID _ => limiterKey keyDBID = k → k ∈ s.lookups →
      (otherKeysSince k s.lookups).card < maxBuckets
  | _ => True

instance decidableSpaced (k : String) (s : RateProcess) : ∀ e, Decidable (Spaced k s e)
  | .lookup _ keyDBID _ => inferInstanceAs (Decidable (limiterKey keyDBID = k → k ∈ s.lookups →
      (otherKeysSince k s.lookups).card < maxBuckets))
  | .allow _ _ => isTrue trivial
  | .tokens _ _ => isTrue trivial

/-- What was decided for the key, with the times in seconds. -/
def RateProcess.decisionsOf (s : RateProcess) (k : String) : List (ℚ × Bool) :=
  (s.decisions.filter (fun d => d.key = k)).map (fun d => (seconds d.time, d.admitted))

theorem seconds_mono (s t : Time) (h : s ≤ t) : seconds s ≤ seconds t := by
  unfold seconds
  have hcast : (s : ℚ) ≤ (t : ℚ) := Int.cast_le.mpr h
  linarith

/-- A bucket is found under the key, or a new one is made. -/
theorem limiterFor_cases (r : RateLimit) (key : String) (now : Time) :
    (∃ p, (key, p) ∈ r.limiters ∧ r.limiterFor key now =
      ({ r with limiters := (key, p) :: Lru.others key r.limiters }, p)) ∨
    ((∀ e ∈ r.limiters, e.1 ≠ key) ∧ r.limiterFor key now =
      ({ r with
          limiters := Lru.add maxBuckets key r.next r.limiters
          buckets := Function.update r.buckets r.next (full (r.burst : ℚ) (seconds now))
          next := r.next + 1 }, r.next)) := by
  -- A hit brings the entry to the front, and a miss may push the last one out.
  rcases Lru.get_cases key r.limiters with ⟨p, hmem, hget⟩ | ⟨hnone, hget⟩
  · exact .inl ⟨p, hmem, by simp only [RateLimit.limiterFor, hget]⟩
  · exact .inr ⟨hnone, by simp only [RateLimit.limiterFor, hget]⟩

/-- The only entry a lookup adds is that of its key. -/
theorem mem_limiterFor {r : RateLimit} {key : String} {now : Time} {e : String × Nat}
    (he : e ∈ (r.limiterFor key now).1.limiters) :
    e = (key, (r.limiterFor key now).2) ∨ e ∈ r.limiters := by
  rcases limiterFor_cases r key now with ⟨p, _, hfor⟩ | ⟨_, hfor⟩
  · rw [hfor] at he ⊢
    rcases List.mem_cons.mp he with hnew | hold
    · exact .inl hnew
    · exact .inr ((Lru.mem_others key _ e).mp hold).1
  · rw [hfor] at he ⊢
    exact Lru.mem_of_mem_add maxBuckets key r.next _ e he

/-- The buckets there were are left as they are. -/
theorem limiterFor_buckets {r : RateLimit} (key : String) (now : Time) {p : Nat}
    (hp : p < r.next) : (r.limiterFor key now).1.buckets p = r.buckets p := by
  rcases limiterFor_cases r key now with ⟨q, _, hfor⟩ | ⟨_, hfor⟩
  · rw [hfor]
  · rw [hfor]
    exact Function.update_of_ne (Nat.ne_of_lt hp) _ _

/-- The process after a lookup. -/
def RateProcess.looked (s : RateProcess) (i : Nat) (key : String) (now : Time) : RateProcess :=
  { s with
    limit := (s.limit.limiterFor key now).1
    requests := Function.update s.requests i (some ⟨key, (s.limit.limiterFor key now).2, .asking⟩)
    lookups := s.lookups ++ [key], clock := now }

/-- The process after a request has asked its bucket. -/
def RateProcess.asked (s : RateProcess) (i : Nat) (key : String) (q : Nat) (now : Time) :
    RateProcess :=
  { s with
    limit := (s.limit.allow q now).1
    requests := Function.update s.requests i
      (if (s.limit.allow q now).2 then some ⟨key, q, .admitted⟩ else none)
    decisions := s.decisions ++ [⟨key, now, (s.limit.allow q now).2⟩], clock := now }

/-- The process after a request that was admitted has looked at its bucket. -/
def RateProcess.counted (s : RateProcess) (i q : Nat) (now : Time) : RateProcess :=
  { s with
    limit := (s.limit.tokens q now).1
    requests := Function.update s.requests i none, clock := now }

section

variable (max rate : ℚ) (t₀ : Time) (k : String)

/-- The pointer is the bucket of the key. -/
structure Owns (s : RateProcess) (p : Nat) : Prop where
  kept : (otherKeysSince k s.lookups).card < maxBuckets →
    Lru.Ahead k p (otherKeysSince k s.lookups) s.limit.limiters
  entries : ∀ e ∈ s.limit.limiters, e.1 = k ↔ e.2 = p
  requests : ∀ i r, s.requests i = some r → (r.key = k ↔ r.bucket = p)
  made : p < s.limit.next
  bucket : ∀ now, seconds s.clock ≤ now → refill max rate now (s.limit.buckets p) =
    refill max rate now
      (after max rate (full max (seconds t₀)) ((s.decisionsOf k).map Prod.fst))

/-- Nothing of the limiter has to do with the key. -/
structure Unseen (s : RateProcess) : Prop where
  entries : ∀ e ∈ s.limit.limiters, e.1 ≠ k
  requests : ∀ i r, s.requests i = some r → r.key ≠ k
  decisions : s.decisionsOf k = []

/-- The key is decided for as by a bucket of its own. -/
structure Apart (s : RateProcess) : Prop where
  rps : s.limit.rps = rate
  burst : (s.limit.burst : ℚ) = max
  began : t₀ ≤ s.clock
  entries : ∀ e ∈ s.limit.limiters, e.2 < s.limit.next
  requests : ∀ i r, s.requests i = some r → r.bucket < s.limit.next
  sorted : List.Pairwise (· ≤ ·) (seconds t₀ :: (s.decisionsOf k).map Prod.fst)
  past : ∀ t ∈ (s.decisionsOf k).map Prod.fst, t ≤ seconds s.clock
  served : s.decisionsOf k =
    TokenBucket.serve max rate (full max (seconds t₀)) ((s.decisionsOf k).map Prod.fst)
  owner : (k ∉ s.lookups ∧ Unseen k s) ∨ (k ∈ s.lookups ∧ ∃ p, Owns max rate t₀ k s p)

/-- What holds of every request holds after one of them has changed, if it holds
    of that one. -/
theorem forall_update_requests {s : RateProcess} {i : Nat} {next : Option Limited}
    (P : Limited → Prop) (hnew : ∀ r, next = some r → P r)
    (hold : ∀ j r, s.requests j = some r → P r) (j : Nat) (r : Limited)
    (h : Function.update s.requests i next j = some r) : P r := by
  rw [Function.update_apply] at h
  by_cases hj : j = i
  · rw [if_pos hj] at h
    exact hnew r h
  · rw [if_neg hj] at h
    exact hold j r h

variable {max rate t₀ k} {s : RateProcess} (i : Nat) (key : String) (q : Nat) (now : Time)

/-- A lookup keeps pointers in range and leaves the limits. -/
theorem limiterFor_inRange (ha : Apart max rate t₀ k s) :
    (s.limit.limiterFor key now).1.rps = rate ∧
      ((s.limit.limiterFor key now).1.burst : ℚ) = max ∧
      s.limit.next ≤ (s.limit.limiterFor key now).1.next ∧
      (s.limit.limiterFor key now).2 < (s.limit.limiterFor key now).1.next := by
  rcases limiterFor_cases s.limit key now with ⟨q, hq, hfor⟩ | ⟨_, hfor⟩
  · rw [hfor]
    exact ⟨ha.rps, ha.burst, Nat.le_refl _, ha.entries (key, q) hq⟩
  · rw [hfor]
    exact ⟨ha.rps, ha.burst, Nat.le_succ _, Nat.lt_succ_self _⟩

/-- A lookup leaves the key its bucket if it gives that bucket to the key alone
    and the LRU keeps the key's entry. -/
theorem Owns.looked (j : String) {p : Nat} (h : Owns max rate t₀ k s p)
    (ha : Apart max rate t₀ k s) (hclock : s.clock ≤ now)
    (hptr : j = k ↔ (s.limit.limiterFor j now).2 = p)
    (hkept : (otherKeysSince k (s.lookups ++ [j])).card < maxBuckets →
      Lru.Ahead k p (otherKeysSince k (s.lookups ++ [j])) (s.limit.limiterFor j now).1.limiters) :
    Owns max rate t₀ k (s.looked i j now) p := by
  rcases limiterFor_inRange j now ha with ⟨_, _, hnext, _⟩
  -- One entry and one request are new, those of the lookup, and `hptr` is about them.
  refine ⟨hkept, fun e he => ?_, ?_, Nat.lt_of_lt_of_le h.made hnext, fun t ht => ?_⟩
  · rcases mem_limiterFor he with rfl | hold
    · exact hptr
    · exact h.entries e hold
  · refine forall_update_requests (fun r => r.key = k ↔ r.bucket = p) ?_ h.requests
    intro r hr
    rw [← Option.some.inj hr]
    exact hptr
  · change refill max rate t ((s.limit.limiterFor j now).1.buckets p) = _
    rw [limiterFor_buckets j now h.made]
    exact h.bucket t (le_trans (seconds_mono _ _ hclock) ht)

/-- A lookup of the key itself finds its bucket. -/
theorem Owns.lookup_self {p : Nat} (h : Owns max rate t₀ k s p) (ha : Apart max rate t₀ k s)
    (hclock : s.clock ≤ now)
    (hcard : (otherKeysSince k s.lookups).card < maxBuckets) :
    Owns max rate t₀ k (s.looked i k now) p := by
  -- Fewer others have come than the LRU holds, so the entry is still there.
  have hget := Lru.get_of_ahead k p _ _ (h.kept hcard)
  have hfor : s.limit.limiterFor k now =
      ({ s.limit with limiters := (k, p) :: Lru.others k s.limit.limiters }, p) := by
    simp only [RateLimit.limiterFor, hget]
  refine h.looked i now k ha hclock ?_ fun _ => ?_
  · rw [hfor]
    exact iff_of_true rfl rfl
  · rw [hfor, otherKeysSince_snoc, if_pos rfl]
    exact Lru.ahead_self k p _

/-- A lookup of another key leaves the bucket of the key where it is, and moves
    its entry back by one key at most. -/
theorem Owns.lookup_other {j : String} (hjk : j ≠ k) {p : Nat} (h : Owns max rate t₀ k s p)
    (ha : Apart max rate t₀ k s) (hclock : s.clock ≤ now) :
    Owns max rate t₀ k (s.looked i j now) p := by
  have hsince : otherKeysSince k (s.lookups ++ [j]) = insert j (otherKeysSince k s.lookups) := by
    rw [otherKeysSince_snoc, if_neg hjk]
  have hbefore : (insert j (otherKeysSince k s.lookups)).card < maxBuckets →
      Lru.Ahead k p (otherKeysSince k s.lookups) s.limit.limiters := by
    intro hcard
    exact h.kept (Nat.lt_of_le_of_lt (Finset.card_le_card (Finset.subset_insert _ _)) hcard)
  rcases limiterFor_cases s.limit j now with ⟨q, hq, hfor⟩ | ⟨_, hfor⟩
  · -- The other key has a bucket, and it is not this one.
    refine h.looked i now j ha hclock ?_ fun hcard => ?_
    · rw [hfor]
      exact h.entries (j, q) hq
    · rw [hsince] at hcard ⊢
      rw [hfor]
      exact Lru.ahead_others k q hjk (hbefore hcard)
  · -- A new bucket is made for it, and this one is older.
    refine h.looked i now j ha hclock ?_ fun hcard => ?_
    · rw [hfor]
      exact iff_of_false hjk (Nat.ne_of_lt h.made).symm
    · rw [hsince] at hcard ⊢
      rw [hfor]
      exact Lru.add_ahead maxBuckets k j p s.limit.next _ _ hjk hcard (hbefore hcard)

/-- The first lookup of the key makes its bucket, a full one. -/
theorem Unseen.lookup_self (h : Unseen k s) (ha : Apart max rate t₀ k s) (hrate : 0 ≤ rate)
    (hclock : s.clock ≤ now) :
    Owns max rate t₀ k (s.looked i k now) s.limit.next := by
  rcases limiterFor_cases s.limit k now with ⟨q, hq, _⟩ | ⟨_, hfor⟩
  · exact absurd rfl (h.entries (k, q) hq)
  -- The pointer is new, so no entry and no request that was there has it.
  have hptr : (s.limit.limiterFor k now).2 = s.limit.next := by rw [hfor]
  refine ⟨fun _ => ?_, fun e he => ?_, ?_, ?_, fun t (ht : seconds now ≤ t) => ?_⟩
  · simp only [RateProcess.looked, otherKeysSince_snoc, if_true, hfor]
    exact Lru.add_ahead_self maxBuckets (by decide) k s.limit.next _
  · rcases mem_limiterFor he with rfl | hold
    · exact iff_of_true rfl hptr
    · exact iff_of_false (h.entries e hold) (Nat.ne_of_lt (ha.entries e hold))
  · refine forall_update_requests (fun r => r.key = k ↔ r.bucket = s.limit.next) ?_ ?_
    · intro r hr
      rw [← Option.some.inj hr]
      exact iff_of_true rfl hptr
    · intro j r hr
      exact iff_of_false (h.requests j r hr) (Nat.ne_of_lt (ha.requests j r hr))
  · simp only [RateProcess.looked, hfor]
    exact Nat.lt_succ_self _
  · -- A bucket that is full now was full from the start.
    have hnew : (s.looked i k now).limit.buckets s.limit.next = full max (seconds now) := by
      simp only [RateProcess.looked, hfor, Function.update_self, ha.burst]
    have hstart : seconds t₀ ≤ t :=
      le_trans (seconds_mono _ _ (Int.le_trans ha.began hclock)) ht
    have hnone : (s.looked i k now).decisionsOf k = [] := h.decisions
    rw [hnew, hnone, List.map_nil, after, TokenBucket.refill_full max rate hrate _ _ ht,
      TokenBucket.refill_full max rate hrate _ _ hstart]

/-- Lookups of other keys have nothing to do with a key that has not come
    yet. -/
theorem Unseen.lookup_other {j : String} (hjk : j ≠ k) (h : Unseen k s) :
    Unseen k (s.looked i j now) := by
  refine ⟨fun e he => ?_, ?_, h.decisions⟩
  · rcases mem_limiterFor he with rfl | hold
    · exact hjk
    · exact h.entries e hold
  · refine forall_update_requests (fun r => r.key ≠ k) ?_ h.requests
    intro r hr
    rw [← Option.some.inj hr]
    exact hjk

/-- A lookup by any key. -/
theorem Apart.lookup (keyDBID : Option String) (ha : Apart max rate t₀ k s) (hrate : 0 ≤ rate)
    (hclock : s.clock ≤ now)
    (hspaced : Spaced k s (.lookup i keyDBID now)) :
    Apart max rate t₀ k (s.looked i (limiterKey keyDBID) now) := by
  have hspaced' : limiterKey keyDBID = k → k ∈ s.lookups →
      (otherKeysSince k s.lookups).card < maxBuckets := hspaced
  generalize limiterKey keyDBID = j at hspaced' ⊢
  rcases limiterFor_inRange j now ha with ⟨hrps, hburst, hnext, hptr⟩
  refine ⟨hrps, hburst, Int.le_trans ha.began hclock, fun e he => ?_, ?_, ha.sorted,
    fun t ht => le_trans (ha.past t ht) (seconds_mono _ _ hclock), ha.served, ?_⟩
  · rcases mem_limiterFor he with rfl | hold
    · exact hptr
    · exact Nat.lt_of_lt_of_le (ha.entries e hold) hnext
  · refine forall_update_requests (fun r => r.bucket < _) ?_ ?_
    · intro r hr
      rw [← Option.some.inj hr]
      exact hptr
    · exact fun i' r hr => Nat.lt_of_lt_of_le (ha.requests i' r hr) hnext
  · -- The key itself makes its bucket or finds it; another one leaves things as they are.
    by_cases hjk : j = k
    · subst hjk
      refine .inr ⟨List.mem_append_right _ List.mem_cons_self, ?_⟩
      rcases ha.owner with ⟨_, hunseen⟩ | ⟨hmem, p, hp⟩
      · exact ⟨_, hunseen.lookup_self i now ha hrate hclock⟩
      · exact ⟨p, hp.lookup_self i now ha hclock (hspaced' rfl hmem)⟩
    · rcases ha.owner with ⟨hnot, hunseen⟩ | ⟨hmem, p, hp⟩
      · refine .inl ⟨fun hin => ?_, hunseen.lookup_other i now hjk⟩
        rcases List.mem_append.mp hin with hold | hnew
        · exact hnot hold
        · exact hjk (List.mem_singleton.mp hnew).symm
      · exact .inr ⟨List.mem_append_left _ hmem, p, hp.lookup_other i now hjk ha hclock⟩

/-- One more decision counts for its own key. -/
theorem decisionsOf_snoc (s s' : RateProcess) (d : Decision)
    (h : s'.decisions = s.decisions ++ [d]) :
    s'.decisionsOf k =
      if d.key = k then s.decisionsOf k ++ [(seconds d.time, d.admitted)] else s.decisionsOf k := by
  unfold RateProcess.decisionsOf
  rw [h, List.filter_append]
  by_cases hk : d.key = k
  · simp [hk]
  · simp [hk]

/-- A bucket is asked or looked at. The LRU, the limits and the pointers of the
    requests stay, and the clock goes on. -/
structure Asks (s s' : RateProcess) : Prop where
  lookups : s'.lookups = s.lookups
  limiters : s'.limit.limiters = s.limit.limiters
  next : s'.limit.next = s.limit.next
  rps : s'.limit.rps = s.limit.rps
  burst : s'.limit.burst = s.limit.burst
  clock : s.clock ≤ s'.clock
  requests : ∀ j r, s'.requests j = some r →
    ∃ i r', s.requests i = some r' ∧ r.key = r'.key ∧ r.bucket = r'.bucket

/-- A request that is refused lets its pointer go, and one that is admitted keeps it. -/
theorem asks_allow (hclock : s.clock ≤ now) (hi : s.requests i = some ⟨key, q, .asking⟩) :
    Asks s (s.asked i key q now) := by
  refine ⟨rfl, rfl, rfl, rfl, rfl, hclock, ?_⟩
  refine forall_update_requests _ (fun r hnew => ?_) fun j r hold => ⟨j, r, hold, rfl, rfl⟩
  rcases Option.ite_none_right_eq_some.mp hnew with ⟨_, hsome⟩
  rw [← Option.some.inj hsome]
  exact ⟨i, _, hi, rfl, rfl⟩

theorem asks_tokens (hclock : s.clock ≤ now) : Asks s (s.counted i q now) := by
  refine ⟨rfl, rfl, rfl, rfl, rfl, hclock, ?_⟩
  exact forall_update_requests _ (fun r hnew => nomatch hnew) fun j r hold => ⟨j, r, hold, rfl, rfl⟩

/-- A key that has a bucket keeps it. It is the tokens in it alone that have to
    be looked at. -/
theorem Owns.asked {s' : RateProcess} {p : Nat} (h : Owns max rate t₀ k s p) (hasks : Asks s s')
    (hbucket : ∀ now, seconds s'.clock ≤ now → refill max rate now (s'.limit.buckets p) =
      refill max rate now
        (after max rate (full max (seconds t₀)) ((s'.decisionsOf k).map Prod.fst))) :
    Owns max rate t₀ k s' p := by
  refine ⟨?_, ?_, ?_, ?_, hbucket⟩
  · rw [hasks.lookups, hasks.limiters]
    exact h.kept
  · rw [hasks.limiters]
    exact h.entries
  · intro j r hr
    rcases hasks.requests j r hr with ⟨i, r', hr', hkey, hptr⟩
    rw [hkey, hptr]
    exact h.requests i r' hr'
  · rw [hasks.next]
    exact h.made

/-- A key that has not come yet has still not come. -/
theorem Unseen.asked {s' : RateProcess} (h : Unseen k s) (hasks : Asks s s')
    (hdecisions : s'.decisionsOf k = s.decisionsOf k) : Unseen k s' := by
  refine ⟨?_, ?_, hdecisions.trans h.decisions⟩
  · rw [hasks.limiters]
    exact h.entries
  · intro j r hr
    rcases hasks.requests j r hr with ⟨i, r', hr', hkey, _⟩
    rw [hkey]
    exact h.requests i r' hr'

/-- What a step that asks or looks at a bucket has to show for the key: the
    decisions, and the bucket. -/
theorem Apart.asked {s' : RateProcess} (ha : Apart max rate t₀ k s) (hasks : Asks s s')
    (hsorted : List.Pairwise (· ≤ ·) (seconds t₀ :: (s'.decisionsOf k).map Prod.fst))
    (hpast : ∀ t ∈ (s'.decisionsOf k).map Prod.fst, t ≤ seconds s'.clock)
    (hserved : s'.decisionsOf k =
      TokenBucket.serve max rate (full max (seconds t₀)) ((s'.decisionsOf k).map Prod.fst))
    (howner : (k ∉ s'.lookups ∧ Unseen k s') ∨ (k ∈ s'.lookups ∧ ∃ p, Owns max rate t₀ k s' p)) :
    Apart max rate t₀ k s' := by
  refine ⟨hasks.rps.trans ha.rps, ?_, Int.le_trans ha.began hasks.clock, ?_, ?_, hsorted, hpast,
    hserved, howner⟩
  · rw [hasks.burst]
    exact ha.burst
  · rw [hasks.limiters, hasks.next]
    exact ha.entries
  · intro j r hr
    rcases hasks.requests j r hr with ⟨i, r', hr', _, hptr⟩
    rw [hptr, hasks.next]
    exact ha.requests i r' hr'

/-- A step that decides nothing for the key, and leaves its bucket as good as it
    was. -/
theorem Apart.undecided {s' : RateProcess} (ha : Apart max rate t₀ k s) (hasks : Asks s s')
    (hdecisions : s'.decisionsOf k = s.decisionsOf k)
    (hbucket : ∀ p, Owns max rate t₀ k s p → ∀ t, seconds s'.clock ≤ t →
      refill max rate t (s'.limit.buckets p) = refill max rate t (s.limit.buckets p)) :
    Apart max rate t₀ k s' := by
  have hclock := seconds_mono _ _ hasks.clock
  refine ha.asked hasks ?_ ?_ ?_ ?_
  · rw [hdecisions]
    exact ha.sorted
  · rw [hdecisions]
    exact fun t ht => le_trans (ha.past t ht) hclock
  · rw [hdecisions]
    exact ha.served
  · rw [hasks.lookups]
    rcases ha.owner with ⟨hnot, hunseen⟩ | ⟨hmem, p, hp⟩
    · exact .inl ⟨hnot, hunseen.asked hasks hdecisions⟩
    · refine .inr ⟨hmem, p, hp.asked hasks fun t ht => ?_⟩
      rw [hbucket p hp t ht, hdecisions]
      exact hp.bucket t (le_trans hclock ht)

/-- A step that decides for the key, by its bucket. -/
theorem Apart.decided {s' : RateProcess} {p : Nat} (ha : Apart max rate t₀ k s)
    (hasks : Asks s s') (hmem : k ∈ s.lookups) (hp : Owns max rate t₀ k s p)
    (hdecisions : s'.decisionsOf k = s.decisionsOf k ++ [(seconds s'.clock,
      (TokenBucket.allow max rate (seconds s'.clock) (s.limit.buckets p)).2)])
    (hbucket : s'.limit.buckets p =
      (TokenBucket.allow max rate (seconds s'.clock) (s.limit.buckets p)).1) :
    Apart max rate t₀ k s' := by
  have hclock := seconds_mono _ _ hasks.clock
  -- The bucket decides as the bucket of a key that is alone.
  have halike := TokenBucket.allow_congr max rate _ _ (hp.bucket (seconds s'.clock) hclock)
  have htimes : (s'.decisionsOf k).map Prod.fst =
      (s.decisionsOf k).map Prod.fst ++ [seconds s'.clock] := by
    rw [hdecisions, List.map_append, List.map_cons, List.map_nil]
  refine ha.asked hasks ?_ ?_ ?_ ?_
  · -- The clock has not gone back, so the new time is the latest.
    rw [htimes, ← List.cons_append, List.pairwise_append]
    refine ⟨ha.sorted, List.pairwise_singleton _ _, fun a ha' b hb => ?_⟩
    rw [List.mem_singleton.mp hb]
    rcases List.mem_cons.mp ha' with rfl | hold
    · exact le_trans (seconds_mono _ _ ha.began) hclock
    · exact le_trans (ha.past a hold) hclock
  · rw [htimes]
    intro t ht
    rcases List.mem_append.mp ht with hold | hnew
    · exact le_trans (ha.past t hold) hclock
    · exact le_of_eq (List.mem_singleton.mp hnew)
  · rw [htimes, TokenBucket.serve_snoc, ← ha.served, ← halike]
    exact hdecisions
  · rw [hasks.lookups]
    refine .inr ⟨hmem, p, hp.asked hasks fun t _ => ?_⟩
    rw [hbucket, halike, htimes, TokenBucket.after_snoc]

/-- A request asks its bucket. -/
theorem Apart.allow (ha : Apart max rate t₀ k s) (hclock : s.clock ≤ now)
    (hi : s.requests i = some ⟨key, q, .asking⟩) : Apart max rate t₀ k (s.asked i key q now) := by
  have hasks := asks_allow i key q now hclock hi
  have hsnoc := decisionsOf_snoc (k := k) s (s.asked i key q now)
    ⟨key, now, (s.limit.allow q now).2⟩ rfl
  simp only [] at hsnoc
  by_cases hk : key = k
  · -- The decision is for the key, which has come, so that the bucket is its own.
    subst hk
    rw [if_pos rfl] at hsnoc
    rcases ha.owner with ⟨_, hunseen⟩ | ⟨hmem, p, hp⟩
    · exact absurd rfl (hunseen.requests i _ hi)
    · have hqp : q = p := (hp.requests i _ hi).mp rfl
      subst hqp
      refine ha.decided hasks hmem hp ?_ ?_
      · rw [hsnoc, ← ha.rps, ← ha.burst]
        rfl
      · rw [← ha.rps, ← ha.burst]
        exact Function.update_self _ _ _
  · -- The decision is for another key, with another bucket.
    rw [if_neg hk] at hsnoc
    refine ha.undecided hasks hsnoc fun p hp t _ => ?_
    have hqp : q ≠ p := fun hqp => hk ((hp.requests i _ hi).mpr hqp)
    have hsame : (s.asked i key q now).limit.buckets p = s.limit.buckets p :=
      Function.update_of_ne hqp.symm _ _
    rw [hsame]

/-- A request that was admitted looks at its bucket. -/
theorem Apart.tokens (ha : Apart max rate t₀ k s) (hrate : 0 ≤ rate) (hclock : s.clock ≤ now) :
    Apart max rate t₀ k (s.counted i q now) := by
  refine ha.undecided (asks_tokens i q now hclock) rfl fun p _ t ht => ?_
  change refill max rate t (Function.update s.limit.buckets q
    (refill (s.limit.burst : ℚ) s.limit.rps (seconds now) (s.limit.buckets q)) p) = _
  by_cases hqp : p = q
  · -- It is the bucket of the key, and looking at it changes nothing.
    rw [hqp, Function.update_self, ha.rps, ha.burst]
    exact TokenBucket.refill_refill max rate hrate _ _ _ ht
  · rw [Function.update_of_ne hqp]

/-- Every piece of a request keeps the key apart, as long as the key is spaced. -/
theorem apart_step (e : RateEvent) {s' : RateProcess} (ha : Apart max rate t₀ k s)
    (hrate : 0 ≤ rate) (hspaced : Spaced k s e) (hstep : s.step e = some s') :
    Apart max rate t₀ k s' := by
  -- What a step needs of the clock and of its request is what the three lemmas ask for.
  unfold RateProcess.step at hstep
  by_cases hclock : s.clock ≤ e.now
  · rw [if_pos hclock] at hstep
    rcases Option.map_eq_some_iff.mp hstep with ⟨t, hpiece, rfl⟩
    cases e with
    | lookup i keyDBID now =>
      cases hi : s.requests i with
      | some => simp only [RateProcess.piece, hi, reduceCtorEq] at hpiece
      | none =>
        simp only [RateProcess.piece, hi, Option.some.injEq] at hpiece
        rw [← hpiece]
        exact ha.lookup i now keyDBID hrate hclock hspaced
    | allow i now =>
      rcases hi : s.requests i with _ | ⟨key, q, _ | _⟩
      · simp only [RateProcess.piece, hi, reduceCtorEq] at hpiece
      · simp only [RateProcess.piece, hi, Option.some.injEq] at hpiece
        rw [← hpiece]
        exact ha.allow i key q now hclock hi
      · simp only [RateProcess.piece, hi, reduceCtorEq] at hpiece
    | tokens i now =>
      rcases hi : s.requests i with _ | ⟨key, q, _ | _⟩
      · simp only [RateProcess.piece, hi, reduceCtorEq] at hpiece
      · simp only [RateProcess.piece, hi, reduceCtorEq] at hpiece
      · simp only [RateProcess.piece, hi, Option.some.injEq] at hpiece
        rw [← hpiece]
        exact ha.tokens i q now hrate hclock
  · rw [if_neg hclock] at hstep
    cases hstep

end

/-- The limits are positive, whatever was configured. -/
theorem newRateLimit_pos (rps : ℚ) (burst : Int) :
    0 < (newRateLimit rps burst).rps ∧ 0 < (newRateLimit rps burst).burst := by
  unfold newRateLimit
  constructor
  · by_cases hrps : rps ≤ 0
    · simp only [hrps, if_true]
      norm_num
    · simp only [hrps, if_false]
      exact not_le.mp hrps
  · by_cases hburst : burst ≤ 0
    · simp only [hburst, if_true]
      norm_num
    · simp only [hburst, if_false]
      exact not_le.mp hburst

/-- A new limiter has nothing to do with any key. -/
theorem apart_start (rps : ℚ) (burst : Int) (t₀ : Time) (k : String) :
    Apart ((newRateLimit rps burst).burst : ℚ) (newRateLimit rps burst).rps t₀ k
      (RateProcess.start rps burst t₀) := by
  refine ⟨rfl, rfl, Int.le_refl _, ?_, ?_, List.pairwise_singleton _ _, ?_, rfl, .inl ⟨?_, ?_⟩⟩
  · exact fun e he => absurd he List.not_mem_nil
  · exact fun i r hr => nomatch hr
  · exact fun t ht => absurd ht List.not_mem_nil
  · exact List.not_mem_nil
  · refine ⟨fun e he => absurd he List.not_mem_nil, fun i r hr => ?_, rfl⟩
    cases hr

/-- However the requests of all keys interleave, what is decided for a key is what
    a bucket of its own decides that was full at the start and is asked at the
    times of the key's requests, and in no window more of them are admitted than
    the burst and what the rate brings, as long as fewer than 4096 other keys look
    theirs up between two lookups of the key. -/
theorem decisions_of_own_bucket (rps : ℚ) (burst : Int) (t₀ : Time) (k : String)
    (es : List RateEvent) (s : RateProcess)
    (hspaced : Allowed RateProcess.step (Spaced k) (RateProcess.start rps burst t₀) es)
    (hrun : run RateProcess.step (RateProcess.start rps burst t₀) es = some s) :
    s.decisionsOf k =
        TokenBucket.serve ((newRateLimit rps burst).burst : ℚ) (newRateLimit rps burst).rps
          (full ((newRateLimit rps burst).burst : ℚ) (seconds t₀))
          ((s.decisionsOf k).map Prod.fst) ∧
      ∀ lo hi : ℚ, lo ≤ hi → (admittedIn lo hi (s.decisionsOf k) : ℚ) ≤
        ((newRateLimit rps burst).burst : ℚ) + (hi - lo) * (newRateLimit rps burst).rps := by
  rcases newRateLimit_pos rps burst with ⟨hrate, hburst⟩
  have hmax : (0 : ℚ) ≤ ((newRateLimit rps burst).burst : ℚ) := Int.cast_nonneg hburst.le
  have hapart := Transition.run_invariant _
    (apart_start rps burst t₀ k)
    (fun t e t' ht hG hstep => apart_step e ht hrate.le hG hstep) hspaced hrun
  -- The bound on a window is that of one bucket, which is all the key has seen.
  refine ⟨hapart.served, fun lo hi hwindow => ?_⟩
  rw [hapart.served]
  exact TokenBucket.admittedIn_serve_le _ _ hrate.le hmax hwindow _ hmax hapart.sorted

/-- Two requests of one key at once, and between them two other keys that look theirs
    up and ask. -/
def amongOthers : List RateEvent :=
  [.lookup 0 (some "k") 0, .allow 0 0, .lookup 1 (some "a") 0, .lookup 2 (some "b") 0, .allow 2 0,
    .lookup 3 (some "k") 0, .allow 1 0, .allow 3 0]

/-- With a burst of one, the other keys are admitted, and of the two requests the first
    is admitted and the second is not. -/
theorem decisions_among_others : ∃ s,
    run RateProcess.step (RateProcess.start 1 1 0) amongOthers = some s ∧
    s.decisionsOf "a" = [(0, true)] ∧ s.decisionsOf "b" = [(0, true)] ∧
    s.decisionsOf "k" = [(0, true), (0, false)] ∧
    s.decisionsOf "k" = TokenBucket.serve ((newRateLimit 1 1).burst : ℚ) (newRateLimit 1 1).rps
        (full ((newRateLimit 1 1).burst : ℚ) (seconds 0)) ((s.decisionsOf "k").map Prod.fst) ∧
      ∀ lo hi : ℚ, lo ≤ hi → (admittedIn lo hi (s.decisionsOf "k") : ℚ) ≤
        ((newRateLimit 1 1).burst : ℚ) + (hi - lo) * (newRateLimit 1 1).rps := by
  have hrun : (run RateProcess.step (RateProcess.start 1 1 0) amongOthers).map
      (fun s => (s.decisionsOf "a", s.decisionsOf "b", s.decisionsOf "k")) =
        some ([(0, true)], [(0, true)], [(0, true), (0, false)]) := by decide +kernel
  rcases Option.map_eq_some_iff.mp hrun with ⟨s, hs, hdecisions⟩
  rw [Prod.mk.injEq, Prod.mk.injEq] at hdecisions
  refine ⟨s, hs, hdecisions.1, hdecisions.2.1, hdecisions.2.2,
    decisions_of_own_bucket 1 1 0 "k" amongOthers s ?_ hs⟩
  decide +kernel

/-- A lookup, where the clock and the request allow it. -/
theorem step_lookup {s : RateProcess} {i : Nat} (key : String) {now : Time}
    (hclock : s.clock ≤ now) (hfree : s.requests i = none) :
    s.step (.lookup i (some key) now) = some (s.looked i key now) := by
  simp [RateProcess.step, RateProcess.piece, RateEvent.now, hclock, hfree, limiterKey,
    RateProcess.looked]

/-- A key that has no bucket gets a full one, and is admitted. -/
theorem newcomer_admitted (s : RateProcess) (i : Nat) (key : String) (now : Time)
    (hclock : s.clock ≤ now) (hfree : s.requests i = none) (hburst : 1 ≤ s.limit.burst)
    (hnone : ∀ e ∈ s.limit.limiters, e.1 ≠ key) :
    ∃ s', run RateProcess.step s [.lookup i (some key) now, .allow i now] = some s' ∧
      s'.limit.burst = s.limit.burst ∧
      s'.limit.limiters = Lru.add maxBuckets key s.limit.next s.limit.limiters ∧
      s'.limit.next = s.limit.next + 1 ∧ s'.clock = now ∧
      (∀ j, j ≠ i → s'.requests j = s.requests j) ∧
      s'.decisions = s.decisions ++ [⟨key, now, true⟩] := by
  rcases limiterFor_cases s.limit key now with ⟨p, hmem, _⟩ | ⟨_, hfor⟩
  · exact absurd rfl (hnone _ hmem)
  have hptr : (s.limit.limiterFor key now).2 = s.limit.next := by rw [hfor]
  have hadmitted : ((s.limit.limiterFor key now).1.allow s.limit.next now).2 = true := by
    rw [hfor]
    simp only [RateLimit.allow, Function.update_self]
    refine TokenBucket.allow_full _ _ _ (not_lt.mpr ?_)
    exact_mod_cast hburst
  have hasked : (s.looked i key now).step (.allow i now) = some { s.looked i key now with
      limit := ((s.limit.limiterFor key now).1.allow s.limit.next now).1
      requests := Function.update (s.looked i key now).requests i
        (some ⟨key, s.limit.next, .admitted⟩)
      decisions := s.decisions ++ [⟨key, now, true⟩] } := by
    simp [RateProcess.step, RateProcess.piece, RateEvent.now, RateProcess.looked, hptr, hadmitted]
  have hlookup := step_lookup key hclock hfree
  refine ⟨_, (Transition.run_snoc [_] _).mpr ⟨_, ?_, hasked⟩, ?_⟩
  · simp only [run, hlookup]
  · refine ⟨by rw [hfor]; rfl, by rw [hfor]; rfl, by rw [hfor]; rfl, rfl, fun j hj => ?_, rfl⟩
    exact (Function.update_of_ne hj _ _).trans (Function.update_of_ne hj _ _)

/-- The names of other keys. -/
def crowdKey (n : Nat) : String :=
  String.ofList (List.replicate (n + 1) 'a')

theorem crowdKey_injective (m n : Nat) (h : crowdKey m = crowdKey n) : m = n := by
  have hlists := String.ofList_injective h
  have hlengths := congrArg List.length hlists
  simp only [List.length_replicate] at hlengths
  omega

theorem crowdKey_ne (n : Nat) : crowdKey n ≠ "k" := by
  intro h
  have hlists : List.replicate (n + 1) 'a' = ['k'] := String.ofList_injective h
  rw [List.replicate_succ, List.cons.injEq] at hlists
  exact absurd hlists.1 (by decide)

/-- Their entries in a cache without bounds. -/
def crowd : Nat → List (String × Nat)
  | 0 => []
  | n + 1 => (crowdKey n, n + 1) :: crowd n

theorem crowd_length (n : Nat) : (crowd n).length = n := by
  induction n with
  | zero => rfl
  | succ n ih => rw [crowd, List.length_cons, ih]

theorem mem_crowd {n : Nat} {e : String × Nat} (he : e ∈ crowd n) : ∃ m < n, e.1 = crowdKey m := by
  induction n with
  | zero => exact absurd he List.not_mem_nil
  | succ n ih =>
    rcases List.mem_cons.mp he with rfl | hold
    · exact ⟨n, Nat.lt_succ_self n, rfl⟩
    · rcases ih hold with ⟨m, hm, hkey⟩
      exact ⟨m, Nat.lt_succ_of_lt hm, hkey⟩

/-- The others have come after the key was admitted. -/
structure Crowded (n : Nat) (s : RateProcess) : Prop where
  burst : s.limit.burst = 1
  limiters : s.limit.limiters = (crowd n ++ [("k", 0)]).take maxBuckets
  next : s.limit.next = n + 1
  requests : ∀ i, n < i → s.requests i = none
  decisions : s.decisions = [⟨"k", 0, true⟩]
  clock : s.clock = 0

/-- One more key looks its bucket up. -/
theorem crowded_step (n : Nat) (s : RateProcess) (h : Crowded n s) :
    ∃ s', s.step (.lookup (n + 1) (some (crowdKey n)) 0) = some s' ∧ Crowded (n + 1) s' := by
  have hothers : ∀ e ∈ s.limit.limiters, e.1 ≠ crowdKey n := by
    -- The others have names of their own, and none of them is the name of the key.
    rw [h.limiters]
    intro e he hkey
    rcases List.mem_append.mp (List.mem_of_mem_take he) with hold | hk
    · rcases mem_crowd hold with ⟨m, hm, hkey'⟩
      exact absurd (crowdKey_injective m n (hkey'.symm.trans hkey)) (Nat.ne_of_lt hm)
    · rw [List.mem_singleton.mp hk] at hkey
      exact crowdKey_ne n hkey.symm
  rcases limiterFor_cases s.limit (crowdKey n) 0 with ⟨p, hmem, _⟩ | ⟨_, hfor⟩
  · exact absurd rfl (hothers _ hmem)
  refine ⟨_, step_lookup (crowdKey n) (Int.le_of_eq h.clock)
    (h.requests (n + 1) (Nat.lt_succ_self n)), ?_⟩
  unfold RateProcess.looked
  rw [hfor]
  refine ⟨h.burst, ?_, ?_, ?_, h.decisions, rfl⟩
  · have hkept : Lru.others (crowdKey n) s.limit.limiters = s.limit.limiters :=
      List.filter_eq_self.mpr fun e he => decide_eq_true (hothers e he)
    simp only [Lru.add, hkept]
    rw [h.limiters, h.next, crowd, List.cons_append, maxBuckets, List.take_succ_cons,
      List.take_take, List.take_succ_cons]
    rfl
  · simp only [h.next]
  · intro i hi
    exact (Function.update_of_ne (Nat.ne_of_gt hi) _ _).trans (h.requests i (Nat.lt_of_succ_lt hi))

/-- The key is admitted, and then the others come. -/
def crowdComes (n : Nat) : List RateEvent :=
  [.lookup 0 (some "k") 0, .allow 0 0] ++
    (List.range n).map fun i => .lookup (i + 1) (some (crowdKey i)) 0

theorem crowded_run (n : Nat) :
    ∃ s, run RateProcess.step (RateProcess.start 1 1 0) (crowdComes n) = some s ∧ Crowded n s := by
  induction n with
  | zero =>
    rcases newcomer_admitted (RateProcess.start 1 1 0) 0 "k" 0 (Int.le_refl 0) rfl
      (by decide) (fun e he => absurd he List.not_mem_nil)
      with ⟨s, hrun, hburst, hlimiters, hnext, hclock, hrequests, hdecisions⟩
    refine ⟨s, hrun, hburst, hlimiters, hnext, fun i hi => ?_, hdecisions, hclock⟩
    exact hrequests i (Nat.ne_of_gt hi)
  | succ n ih =>
    rcases ih with ⟨s, hrun, hs⟩
    rcases crowded_step n s hs with ⟨s', hstep, hs'⟩
    have hevents : crowdComes (n + 1)
        = crowdComes n ++ [.lookup (n + 1) (some (crowdKey n)) 0] := by
      simp [crowdComes, List.range_succ]
    refine ⟨s', ?_, hs'⟩
    rw [hevents]
    exact (Transition.run_snoc _ _).mpr ⟨s, hrun, hstep⟩

/-- The key comes back among 4096 others and is admitted again at once, with a new
    bucket. A bucket of its own would have refused it, and a burst of one allows
    one request in a window of no length. -/
theorem evicted_key_starts_full : ∃ es s,
    run RateProcess.step (RateProcess.start 1 1 0) es = some s ∧
    s.decisionsOf "k" = [(0, true), (0, true)] ∧
    TokenBucket.serve (1 : ℚ) 1 (full 1 0) [0, 0] = [(0, true), (0, false)] ∧
    ¬(admittedIn 0 0 (s.decisionsOf "k") : ℚ) ≤ 1 + (0 - 0) * 1 := by
  rcases crowded_run maxBuckets with ⟨s, hrun, hs⟩
  have hlimiters : s.limit.limiters = crowd maxBuckets := by
    rw [hs.limiters, List.take_append_of_le_length (Nat.le_of_eq (crowd_length _).symm),
      List.take_of_length_le (Nat.le_of_eq (crowd_length _))]
  -- With that many others there is no room for the first one.
  have hgone : ∀ e ∈ s.limit.limiters, e.1 ≠ "k" := by
    intro e he hkey
    rw [hlimiters] at he
    rcases mem_crowd he with ⟨m, _, hm⟩
    exact crowdKey_ne m (hm.symm.trans hkey)
  rcases newcomer_admitted s (maxBuckets + 1) "k" 0 (Int.le_of_eq hs.clock)
    (hs.requests _ (Nat.lt_succ_self _)) (Int.le_of_eq hs.burst.symm) hgone
    with ⟨s', hrun', _, _, _, _, _, hdecisions⟩
  have hboth : s'.decisionsOf "k" = [(0, true), (0, true)] := by
    unfold RateProcess.decisionsOf
    rw [hdecisions, hs.decisions]
    decide +kernel
  refine ⟨crowdComes maxBuckets ++
    [.lookup (maxBuckets + 1) (some "k") 0, .allow (maxBuckets + 1) 0], s', ?_, hboth,
    by decide +kernel, ?_⟩
  · rw [Transition.run_append, hrun]
    exact hrun'
  · rw [hboth]
    decide +kernel

end CoopDB
