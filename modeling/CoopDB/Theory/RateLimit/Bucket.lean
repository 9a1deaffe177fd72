import CoopDB.Core.RateBucket
import CoopDB.Theory.RateLimit.Private

/-!
# A Bucket Enforces Its Rate

A `tokenBucket` is a bucket of the library once its times are taken in seconds, so the
account of tokens there is an account of its tokens. What is left is `Tokens`, which
refills too. Refilling twice is refilling once, so a bucket that was looked at is as good
as one that was not, and the bound on a window is the one for the calls of `Allow` alone.

## Main definitions

* `RateBucket.toBucket`: The bucket of the library.
* `RateBucket.Bounded`: The tokens are between none and the maximum.

## Theorems

* `afterCalls_bounded`: Every sequence of calls keeps the bounds.
* `allows_filter`: Calls of `Tokens` change nothing.
* `admittedIn_allows_le`: The bound on a window.
* `allow_after_pause`: After a pause that is long enough there is a token.
* `bucket_enforces_rate`: All four, of every sequence of calls at non-decreasing times.
* `limiter_new`, `limiter_allow`, `limiter_tokens`: The limiter asks its buckets this way.
-/

namespace CoopDB

open BucketCall (Ordered)

theorem seconds_sub (s t : Time) : seconds (s - t) = seconds s - seconds t := by
  unfold seconds
  rw [Int.cast_sub, sub_div]

namespace RateBucket

/-! ### The bucket of the library -/

/-- The tokens and the time of a bucket, in seconds. -/
def toBucket (b : RateBucket) : TokenBucket.Bucket ℚ :=
  { tokens := b.tokens, last := seconds b.lastTime }

variable (b : RateBucket) (calls : List BucketCall) (now : Time)

theorem toBucket_refill :
    (b.refill now).toBucket = TokenBucket.refill b.max b.rate (seconds now) b.toBucket := by
  simp only [toBucket, refill, TokenBucket.refill, seconds_sub]

theorem tokens_refill :
    (b.refill now).tokens = (TokenBucket.refill b.max b.rate (seconds now) b.toBucket).tokens :=
  congrArg TokenBucket.Bucket.tokens (toBucket_refill b now)

theorem toBucket_allow :
    (b.allow now).1.toBucket = (TokenBucket.allow b.max b.rate (seconds now) b.toBucket).1 ∧
      (b.allow now).2 = (TokenBucket.allow b.max b.rate (seconds now) b.toBucket).2 := by
  have hrefill := toBucket_refill b now
  unfold allow TokenBucket.allow
  simp only [← hrefill]
  by_cases hempty : (b.refill now).tokens < 1
  · have hempty' : (b.refill now).toBucket.tokens < 1 := hempty
    simp [if_pos hempty, if_pos hempty']
  · have hempty' : ¬ (b.refill now).toBucket.tokens < 1 := hempty
    rw [if_neg hempty, if_neg hempty']
    exact ⟨rfl, rfl⟩

@[simp] theorem refill_max (b : RateBucket) (now : Time) : (b.refill now).max = b.max :=
  rfl

@[simp] theorem refill_rate (b : RateBucket) (now : Time) : (b.refill now).rate = b.rate :=
  rfl

/-- `Allow` leaves the limits alone and sets the time. -/
theorem allow_fields : (b.allow now).1.max = b.max ∧ (b.allow now).1.rate = b.rate ∧
      (b.allow now).1.lastTime = now := by
  unfold allow
  simp only []
  split
  · exact ⟨rfl, rfl, rfl⟩
  · exact ⟨rfl, rfl, rfl⟩

/-- A call leaves the limits alone and sets the time. -/
theorem afterCall_fields (c : BucketCall) :
    (b.afterCall c).max = b.max ∧ (b.afterCall c).rate = b.rate ∧
      (b.afterCall c).lastTime = c.now := by
  cases c with
  | allow now => exact allow_fields b now
  | tokens => exact ⟨rfl, rfl, rfl⟩

theorem afterCalls_append (xs ys : List BucketCall) :
    b.afterCalls (xs ++ ys) = (b.afterCalls xs).afterCalls ys := by
  induction xs generalizing b with
  | nil => rfl
  | cons c xs ih => exact ih (b.afterCall c)

/-- The calls after the first ones begin where the bucket then is. -/
theorem ordered_append (xs ys : List BucketCall) (h : Ordered b.lastTime (xs ++ ys)) :
    Ordered b.lastTime xs ∧ Ordered (b.afterCalls xs).lastTime ys := by
  induction xs generalizing b with
  | nil => exact ⟨trivial, h⟩
  | cons c xs ih =>
    obtain ⟨hfirst, hrest⟩ := h
    rw [← (afterCall_fields b c).2.2] at hrest
    obtain ⟨hxs, hys⟩ := ih (b.afterCall c) hrest
    rw [(afterCall_fields b c).2.2] at hxs
    exact ⟨⟨hfirst, hxs⟩, hys⟩

/-! ### The bounds -/

/-- A bucket that gains tokens, can hold one, and holds neither less than none nor
    more than its maximum. -/
structure Bounded (b : RateBucket) : Prop where
  rate : 0 < b.rate
  max : 1 ≤ b.max
  nonneg : 0 ≤ b.tokens
  le : b.tokens ≤ b.max

theorem new_bounded {rps : ℚ} {burst : Int} (now : Time) (hrate : 0 < rps) (hburst : 1 ≤ burst) :
    (new rps burst now).Bounded := by
  have hmax : (1 : ℚ) ≤ (burst : ℚ) := by exact_mod_cast hburst
  exact ⟨hrate, hmax, le_trans zero_le_one hmax, le_refl _⟩

theorem Bounded.zero_le_max (h : b.Bounded) : 0 ≤ b.max :=
  le_trans zero_le_one h.max

theorem Bounded.refill (h : b.Bounded) (now : Time) (hnow : b.lastTime ≤ now) :
    (b.refill now).Bounded := by
  obtain ⟨hlow, hhigh, _⟩ := TokenBucket.refill_tokens b.max b.rate (le_of_lt h.rate)
    (h.zero_le_max b) b.toBucket (seconds now) (seconds_mono _ _ hnow) h.nonneg
  rw [← tokens_refill] at hlow hhigh
  exact ⟨h.rate, h.max, hlow, hhigh⟩

theorem Bounded.allow (h : b.Bounded) (now : Time) (hnow : b.lastTime ≤ now) :
    (b.allow now).1.Bounded := by
  have hrefill := h.refill b now hnow
  unfold RateBucket.allow
  simp only []
  split
  · exact hrefill
  · rename_i htoken
    -- A token is taken only where there is one.
    have htaken : (1 : ℚ) ≤ (b.refill now).tokens := not_lt.mp htoken
    have hle := hrefill.le
    exact ⟨hrefill.rate, hrefill.max, sub_nonneg.mpr htaken,
      le_trans (sub_le_self _ zero_le_one) hle⟩

/-- The bounds hold after every sequence of calls. -/
theorem afterCalls_bounded (h : b.Bounded) (hordered : Ordered b.lastTime calls) :
    (b.afterCalls calls).Bounded := by
  induction calls generalizing b with
  | nil => exact h
  | cons c calls ih =>
    obtain ⟨hfirst, hrest⟩ := hordered
    rw [← (afterCall_fields b c).2.2] at hrest
    refine ih (b.afterCall c) ?_ hrest
    cases c with
    | allow now => exact h.allow b now hfirst
    | tokens now => exact h.refill b now hfirst

theorem afterCalls_limits :
    (b.afterCalls calls).max = b.max ∧ (b.afterCalls calls).rate = b.rate := by
  induction calls generalizing b with
  | nil => exact ⟨rfl, rfl⟩
  | cons c calls ih =>
    obtain ⟨hmax, hrate, _⟩ := afterCall_fields b c
    exact ⟨(ih (b.afterCall c)).1.trans hmax, (ih (b.afterCall c)).2.trans hrate⟩

/-! ### Looks in between -/

/-- Refilling twice is refilling once. -/
theorem refill_refill (s t : Time) (hrate : 0 ≤ b.rate) (hst : s ≤ t) :
    (b.refill s).refill t = b.refill t := by
  have hbuckets : ((b.refill s).refill t).toBucket = (b.refill t).toBucket := by
    rw [toBucket_refill, toBucket_refill, toBucket_refill, refill_max, refill_rate,
      TokenBucket.refill_refill b.max b.rate hrate _ _ _ (seconds_mono s t hst)]
  have htokens : ((b.refill s).refill t).tokens = (b.refill t).tokens :=
    congrArg TokenBucket.Bucket.tokens hbuckets
  exact RateBucket.ext htokens rfl rfl rfl

/-- `Allow` depends on the refilled bucket only. -/
theorem allow_congr (b' : RateBucket) (now : Time) (h : b.refill now = b'.refill now) :
    b.allow now = b'.allow now := by
  unfold allow
  rw [h]

/-- Calls of `Tokens` change no result of `Allow`. The buckets with and without them
    are the same whenever they are refilled. -/
theorem allows_filter : ∀ b b' : RateBucket, 0 ≤ b.rate →
    Ordered b.lastTime calls → (∀ t, b.lastTime ≤ t → b.refill t = b'.refill t) →
    b.allows calls = b'.allows (calls.filter BucketCall.isAllow) := by
  induction calls with
  | nil => exact fun _ _ _ _ _ => rfl
  | cons c calls ih =>
    intro b b' hrate hordered hsame
    obtain ⟨hfirst, hrest⟩ := hordered
    cases c with
    | allow now =>
      have hallow : b.allow now = b'.allow now := allow_congr b b' now (hsame now hfirst)
      obtain ⟨_, hrate', htime⟩ := allow_fields b now
      rw [List.filter_cons_of_pos rfl, allows, allows, ← hallow]
      refine congrArg _ (ih _ _ (hrate' ▸ hrate) ?_ (fun _ _ => rfl))
      rw [htime]
      exact hrest
    | tokens now =>
      rw [List.filter_cons_of_neg Bool.false_ne_true, allows]
      refine ih (b.refill now) b' hrate hrest (fun t ht => ?_)
      rw [refill_refill b now t hrate ht]
      exact hsame t (le_trans hfirst ht)

/-- After calls of `Tokens` alone a refill gives what it would have given before. -/
theorem refill_afterCalls_tokens (t : Time) (hrate : 0 ≤ b.rate)
    (hnone : ∀ c ∈ calls, c.isAllow = false) (hordered : Ordered b.lastTime calls)
    (ht : (b.afterCalls calls).lastTime ≤ t) :
    b.lastTime ≤ t ∧ (b.afterCalls calls).refill t = b.refill t := by
  induction calls generalizing b with
  | nil => exact ⟨ht, rfl⟩
  | cons c calls ih =>
    obtain ⟨hfirst, hrest⟩ := hordered
    cases c with
    | allow => exact absurd (hnone _ List.mem_cons_self) Bool.false_ne_true.symm
    | tokens now =>
      obtain ⟨hle, hsame⟩ := ih (b.refill now) hrate
        (fun c hc => hnone c (List.mem_cons_of_mem _ hc)) hrest ht
      refine ⟨le_trans hfirst hle, ?_⟩
      exact hsame.trans (refill_refill b now t hrate hle)

/-! ### The results -/

/-- A call of `Allow` with its time in seconds. -/
def inSeconds (e : Time × Bool) : ℚ × Bool :=
  (seconds e.1, e.2)

/-- Calls of `Allow` alone are the requests of the library's bucket. -/
theorem allows_serve (b : RateBucket) (hall : ∀ c ∈ calls, c.isAllow = true) :
    (b.allows calls).map inSeconds =
      TokenBucket.serve b.max b.rate b.toBucket (calls.map (fun c => seconds c.now)) := by
  induction calls generalizing b with
  | nil => rfl
  | cons c calls ih =>
    cases c with
    | tokens => exact absurd (hall _ List.mem_cons_self) Bool.false_ne_true
    | allow now =>
      obtain ⟨hbucket, hresult⟩ := toBucket_allow b now
      obtain ⟨hmax, hrate, _⟩ := allow_fields b now
      have htail := ih (b.allow now).1 (fun c hc => hall c (List.mem_cons_of_mem _ hc))
      rw [hmax, hrate, hbucket] at htail
      rw [allows, List.map_cons, htail, List.map_cons, TokenBucket.serve]
      simp only [inSeconds, hresult, BucketCall.now]

/-- The times of ordered calls of `Allow`, in seconds, are in order. -/
theorem ordered_pairwise (start : Time) (calls : List BucketCall) (h : Ordered start calls) :
    List.Pairwise (· ≤ ·) (seconds start ::
      (calls.filter BucketCall.isAllow).map (fun c => seconds c.now)) := by
  induction calls generalizing start with
  | nil => exact List.pairwise_singleton _ _
  | cons c calls ih =>
    obtain ⟨hfirst, hrest⟩ := h
    have hstart := seconds_mono start c.now hfirst
    have htail := ih c.now hrest
    have hlater := (List.pairwise_cons.mp htail).1
    cases c with
    | allow =>
      rw [List.filter_cons_of_pos rfl, List.map_cons]
      refine List.pairwise_cons.mpr ⟨fun t ht => ?_, htail⟩
      rcases List.mem_cons.mp ht with rfl | hmem
      · exact hstart
      · exact le_trans hstart (hlater t hmem)
    | tokens =>
      rw [List.filter_cons_of_neg Bool.false_ne_true]
      exact List.pairwise_cons.mpr
        ⟨fun t ht => le_trans hstart (hlater t ht), (List.pairwise_cons.mp htail).2⟩

/-- In a window no more calls return true than the maximum and what is gained in its
    length. -/
theorem admittedIn_allows_le (h : b.Bounded) (hordered : Ordered b.lastTime calls) (lo hi : ℚ)
    (hwindow : lo ≤ hi) : (TokenBucket.admittedIn lo hi ((b.allows calls).map inSeconds) : ℚ) ≤
      b.max + b.rate * (hi - lo) := by
  have hrate : 0 ≤ b.rate := le_of_lt h.rate
  rw [allows_filter calls b b hrate hordered (fun _ _ => rfl),
    allows_serve _ b (fun c hc => (List.mem_filter.mp hc).2), mul_comm]
  exact TokenBucket.admittedIn_serve_le b.max b.rate hrate (h.zero_le_max b) hwindow
    b.toBucket h.nonneg (ordered_pairwise b.lastTime calls hordered)

/-- A call of `Allow` at which a refill gives a token returns true. -/
theorem allow_of_refill (h : 1 ≤ (b.refill now).tokens) : (b.allow now).2 = true := by
  unfold allow
  simp only [if_neg (not_lt.mpr h)]

/-- After a pause in which one token is gained, `Allow` returns true, whoever looked
    at the bucket meanwhile. -/
theorem allow_after_pause {between : List BucketCall} {now : Time} (h : b.Bounded)
    (hnone : ∀ c ∈ between, c.isAllow = false)
    (hordered : Ordered b.lastTime (between ++ [.allow now]))
    (hpause : 1 / b.rate ≤ seconds (now - b.lastTime)) :
    ((b.afterCalls between).allow now).2 = true := by
  obtain ⟨hbetween, hlast, _⟩ := ordered_append b between [.allow now] hordered
  obtain ⟨_, hsame⟩ := refill_afterCalls_tokens b between now (le_of_lt h.rate) hnone hbetween hlast
  refine allow_of_refill _ now ?_
  rw [hsame]
  have hgain : 1 ≤ seconds (now - b.lastTime) * b.rate := by
    rw [div_le_iff₀ h.rate] at hpause
    exact hpause
  exact le_min (le_trans hgain (le_add_of_nonneg_left h.nonneg)) h.max

/-- The same after a call of `Allow` in a sequence of calls. -/
theorem allow_after_previous {before between behind : List BucketCall} {t u : Time} (h : b.Bounded)
    (hordered : Ordered b.lastTime (before ++ .allow t :: (between ++ .allow u :: behind)))
    (hnone : ∀ c ∈ between, c.isAllow = false) (hpause : 1 / b.rate ≤ seconds (u - t)) :
    ((b.afterCalls (before ++ .allow t :: between)).allow u).2 = true := by
  obtain ⟨hbefore, hfirst, hrest⟩ := b.ordered_append before _ hordered
  -- The bucket as the earlier of the two calls leaves it.
  generalize hprevious : ((b.afterCalls before).allow t).1 = previous
  have hbounded : previous.Bounded :=
    hprevious ▸ (b.afterCalls_bounded before h hbefore).allow _ t hfirst
  obtain ⟨_, hrate, htime⟩ := (b.afterCalls before).allow_fields t
  rw [hprevious, (b.afterCalls_limits before).2] at hrate
  rw [hprevious] at htime
  have hpair : Ordered previous.lastTime (between ++ [.allow u]) := by
    have hsplit : between ++ BucketCall.allow u :: behind = between ++ [.allow u] ++ behind := by
      rw [List.append_assoc, List.singleton_append]
    refine (previous.ordered_append (between ++ [.allow u]) behind ?_).1
    rw [htime, ← hsplit]
    exact hrest
  have hafter : b.afterCalls (before ++ .allow t :: between) = previous.afterCalls between := by
    rw [b.afterCalls_append before, ← hprevious]
    rfl
  rw [hafter]
  exact previous.allow_after_pause hbounded hnone hpair (by rw [hrate, htime]; exact hpause)

end RateBucket

/-- Of a bucket with a positive rate and a burst of at least one, after every
    sequence of calls at non-decreasing times: the tokens are between none and the
    burst; in every window no more calls of `Allow` return true than the burst and
    what is gained in the window's length; sequences with the same calls of `Allow`
    have the same results, whatever calls of `Tokens` are in them; and a call of
    `Allow` at least `1 / rps` seconds after the one before it returns true. -/
theorem bucket_enforces_rate (rps : ℚ) (burst : Int) (start : Time) (hrate : 0 < rps)
    (hburst : 1 ≤ burst) (calls : List BucketCall) (hordered : Ordered start calls) :
    (0 ≤ ((RateBucket.new rps burst start).afterCalls calls).tokens ∧
      ((RateBucket.new rps burst start).afterCalls calls).tokens ≤ burst) ∧
    (∀ lo hi : ℚ, lo ≤ hi →
      (TokenBucket.admittedIn lo hi
        (((RateBucket.new rps burst start).allows calls).map RateBucket.inSeconds) : ℚ) ≤
          burst + rps * (hi - lo)) ∧
    (∀ calls', Ordered start calls' →
      calls'.filter BucketCall.isAllow = calls.filter BucketCall.isAllow →
      (RateBucket.new rps burst start).allows calls' =
        (RateBucket.new rps burst start).allows calls) ∧
    (∀ before between behind t u, calls = before ++ .allow t :: (between ++ .allow u :: behind) →
      (∀ c ∈ between, c.isAllow = false) → 1 / rps ≤ seconds (u - t) →
      (((RateBucket.new rps burst start).afterCalls (before ++ .allow t :: between)).allow u).2 =
        true) := by
  have hnew := RateBucket.new_bounded start hrate hburst
  have hnonneg : 0 ≤ rps := le_of_lt hrate
  refine ⟨?_, fun lo hi hwindow => ?_, fun calls' hordered' hallows => ?_, ?_⟩
  · have hafter := RateBucket.afterCalls_bounded _ calls hnew hordered
    have hle := hafter.le
    rw [(RateBucket.afterCalls_limits _ calls).1] at hle
    exact ⟨hafter.nonneg, hle⟩
  · exact RateBucket.admittedIn_allows_le _ calls hnew hordered lo hi hwindow
  · rw [RateBucket.allows_filter calls' _ _ hnonneg hordered' (fun _ _ => rfl), hallows,
      ← RateBucket.allows_filter calls _ _ hnonneg hordered (fun _ _ => rfl)]
  · rintro before between behind t u rfl hnone hpause
    exact RateBucket.allow_after_previous _ hnew hordered hnone hpause

/-- Half a second after the call before, at two tokens a second, there is one again. -/
theorem half_second_gains_one :
    ((RateBucket.new 2 1 0).afterCalls [.allow 0, .tokens 100000000]).tokens ≤ (1 : Int) ∧
      (((RateBucket.new 2 1 0).afterCalls [.allow 0, .tokens 100000000]).allow 500000000).2 =
        true := by
  have h := bucket_enforces_rate 2 1 0 (by norm_num) (by decide)
  refine ⟨(h [.allow 0, .tokens 100000000] ⟨by decide, by decide, trivial⟩).1.2, ?_⟩
  refine (h [.allow 0, .tokens 100000000, .allow 500000000]
    ⟨by decide, by decide, by decide, trivial⟩).2.2.2 [] [.tokens 100000000] [] 0 500000000 rfl
    (fun c hc => ?_) (by norm_num [seconds])
  rw [List.mem_singleton.mp hc]
  rfl

/-! ### The limiter's buckets -/

section

variable (r : RateLimit) (p : Nat) (b : RateBucket) (now : Time)

/-- The bucket a new key gets. -/
theorem limiter_new (key : String) (hnew : Lru.get key r.limiters = none) :
    (r.limiterFor key now).1.buckets (r.limiterFor key now).2 =
      (RateBucket.new r.rps r.burst now).toBucket := by
  simp only [RateLimit.limiterFor, hnew, Function.update_self]
  rfl

variable (hmax : b.max = r.burst) (hrate : b.rate = r.rps) (hbucket : r.buckets p = b.toBucket)

include hmax hrate hbucket

/-- What the limiter makes of a bucket for a request, and its answer, are those of
    `Allow`. -/
theorem limiter_allow : (r.allow p now).1.buckets p = (b.allow now).1.toBucket ∧
    (r.allow p now).2 = (b.allow now).2 := by
  obtain ⟨hafter, hresult⟩ := b.toBucket_allow now
  simp only [RateLimit.allow, Function.update_self]
  rw [hbucket, ← hmax, ← hrate, hafter, hresult]
  exact ⟨rfl, rfl⟩

/-- The same for `Tokens`. -/
theorem limiter_tokens : (r.tokens p now).1.buckets p = (b.readTokens now).1.toBucket ∧
    (r.tokens p now).2 = (b.readTokens now).2 := by
  simp only [RateLimit.tokens, Function.update_self]
  rw [hbucket, ← hmax, ← hrate, RateBucket.readTokens, b.toBucket_refill now, b.tokens_refill now]
  exact ⟨rfl, rfl⟩

end

end CoopDB
