import Mathlib.Algebra.Order.Field.Basic
import Mathlib.Algebra.Order.Group.MinMax
import Mathlib.Tactic.Linarith
import Mathlib.Tactic.Ring

/-!
# Token Buckets

A bucket holds tokens up to a maximum and gains them at a rate. A request takes
one token or is refused. Time and tokens are in any ordered field.

What a bucket decides depends on nothing but the times it is asked at. Looking at
it in between only brings it up to date, and bringing it up to date twice is the
same as doing it once (`refill_refill`).

The bound on a window is an account of tokens. From any moment on, the requests
admitted are paid for by the tokens there and the tokens gained since
(`admittedIn_upTo_le`), and at the first request of a window there are at most
as many as the maximum.

## Main definitions

* `refill`, `allow`: Bring it up to date; take a token.

## Theorems

* `admittedIn_serve_le`: The bound on a window.
-/

namespace TokenBucket

/-- The tokens of a bucket, as of some time. -/
structure Bucket (K : Type) where
  tokens : K
  last : K

variable {K : Type} [Field K] [LinearOrder K] (max rate : K)

/-- A bucket with all its tokens. -/
def full (now : K) : Bucket K :=
  { tokens := max, last := now }

/-- Add what was gained since the last time. -/
def refill (now : K) (b : Bucket K) : Bucket K :=
  { tokens := min (b.tokens + (now - b.last) * rate) max, last := now }

/-- Take a token if there is one. -/
def allow (now : K) (b : Bucket K) : Bucket K × Bool :=
  let b := refill max rate now b
  if b.tokens < 1 then (b, false) else ({ b with tokens := b.tokens - 1 }, true)

/-- The bucket after requests at the given times. -/
def after : Bucket K → List K → Bucket K
  | b, [] => b
  | b, t :: ts => after (allow max rate t b).1 ts

/-- The requests at the given times, with what is decided for each. -/
def serve : Bucket K → List K → List (K × Bool)
  | _, [] => []
  | b, t :: ts => (t, (allow max rate t b).2) :: serve (allow max rate t b).1 ts

theorem after_snoc (b : Bucket K) (ts : List K) (t : K) :
    after max rate b (ts ++ [t]) = (allow max rate t (after max rate b ts)).1 := by
  induction ts generalizing b with
  | nil => rfl
  | cons t' ts ih => exact ih (allow max rate t' b).1

theorem serve_snoc (b : Bucket K) (ts : List K) (t : K) :
    serve max rate b (ts ++ [t]) =
      serve max rate b ts ++ [(t, (allow max rate t (after max rate b ts)).2)] := by
  induction ts generalizing b with
  | nil => rfl
  | cons t' ts ih =>
    simp only [List.cons_append, serve, after]
    rw [ih (allow max rate t' b).1]

/-- The last time after requests is the time of the last of them. -/
theorem allow_last (now : K) (b : Bucket K) : (allow max rate now b).1.last = now := by
  unfold allow
  simp only []
  split <;> rfl

/-- Buckets that are alike once up to date decide alike. -/
theorem allow_congr {now : K} (b b' : Bucket K)
    (h : refill max rate now b = refill max rate now b') :
    allow max rate now b = allow max rate now b' := by
  unfold allow
  rw [h]

/-- A bucket that was just made gives a token, if it can hold one. -/
theorem allow_full (now : K) (hmax : ¬ max < 1) : (allow max rate now (full max now)).2 = true := by
  have htokens : (refill max rate now (full max now)).tokens = max := by
    simp [refill, full]
  simp [allow, htokens, hmax]

/-- The number of requests admitted from `lo` to `hi`. -/
def admittedIn (lo hi : K) (l : List (K × Bool)) : Nat :=
  (l.filter (fun e => e.2 && decide (lo ≤ e.1) && decide (e.1 ≤ hi))).length

/-- Requests past the window do not count. -/
theorem admittedIn_past (lo : K) {hi : K} {ts : List K} (hpast : ∀ t ∈ ts, ¬ t ≤ hi) :
    ∀ b : Bucket K, admittedIn lo hi (serve max rate b ts) = 0 := by
  induction ts with
  | nil => exact fun _ => rfl
  | cons t ts ih =>
    intro b
    have ht : ¬ t ≤ hi := hpast t List.mem_cons_self
    have htail := ih (fun u hu => hpast u (List.mem_cons_of_mem t hu)) (allow max rate t b).1
    simp only [admittedIn] at htail
    simp only [serve, admittedIn, List.filter_cons, ht, decide_false, Bool.and_false,
      Bool.false_eq_true, if_false]
    exact htail

omit [Field K] in
/-- Where the first of a sorted list is past the window, so is the rest. -/
theorem past_of_sorted {hi t : K} {ts : List K} (hsorted : List.Pairwise (· ≤ ·) (t :: ts))
    (ht : ¬ t ≤ hi) : ∀ u ∈ t :: ts, ¬ u ≤ hi := by
  intro u hu
  rcases List.mem_cons.mp hu with rfl | hmem
  · exact ht
  · exact fun hle => ht (le_trans ((List.pairwise_cons.mp hsorted).1 u hmem) hle)

section

variable [IsStrictOrderedRing K] (hrate : 0 ≤ rate)

include hrate

/-- Bringing a bucket up to date twice is the same as doing it once. -/
theorem refill_refill (b : Bucket K) (s t : K) (hst : s ≤ t) :
    refill max rate t (refill max rate s b) = refill max rate t b := by
  have hgain : 0 ≤ (t - s) * rate := mul_nonneg (sub_nonneg.mpr hst) hrate
  have hsum : b.tokens + (t - b.last) * rate
      = b.tokens + (s - b.last) * rate + (t - s) * rate := by ring
  unfold refill
  simp only [Bucket.mk.injEq, and_true]
  rw [hsum]
  rcases le_total (b.tokens + (s - b.last) * rate) max with hle | hge
  · rw [min_eq_left hle]
  · -- The bucket was full, and stays so.
    rw [min_eq_right hge, min_eq_right (by linarith), min_eq_right (by linarith)]

/-- A full bucket stays full. -/
theorem refill_full (s t : K) (hst : s ≤ t) :
    refill max rate t (full max s) = full max t := by
  have hgain : 0 ≤ (t - s) * rate := mul_nonneg (sub_nonneg.mpr hst) hrate
  unfold refill full
  simp only [Bucket.mk.injEq, and_true]
  exact min_eq_right (by linarith)

/-- A look at the bucket before a request does not change what is decided. -/
theorem allow_refill (b : Bucket K) (s t : K) (hst : s ≤ t) :
    allow max rate t (refill max rate s b) = allow max rate t b :=
  allow_congr max rate _ b (refill_refill max rate hrate b s t hst)

/-- After bringing a bucket up to date there are at most the tokens there were
    and those gained, and no fewer than none if there were no fewer than
    none. -/
theorem refill_tokens (hmax : 0 ≤ max) (b : Bucket K) (t : K) (hlast : b.last ≤ t)
    (hnonneg : 0 ≤ b.tokens) :
    0 ≤ (refill max rate t b).tokens ∧ (refill max rate t b).tokens ≤ max ∧
      (refill max rate t b).tokens ≤ b.tokens + (t - b.last) * rate := by
  have hgain : 0 ≤ (t - b.last) * rate := mul_nonneg (sub_nonneg.mpr hlast) hrate
  refine ⟨le_min (by linarith) hmax, min_le_right _ _, min_le_left _ _⟩

/-- A request takes one token if it is admitted, and leaves none owing. -/
theorem allow_tokens (hmax : 0 ≤ max) {b : Bucket K} {t : K} (hlast : b.last ≤ t)
    (hnonneg : 0 ≤ b.tokens) :
    0 ≤ (allow max rate t b).1.tokens ∧
      (allow max rate t b).1.tokens + (if (allow max rate t b).2 then 1 else 0)
        = (refill max rate t b).tokens := by
  rcases refill_tokens max rate hrate hmax b t hlast hnonneg with ⟨hlow, _, _⟩
  unfold allow
  simp only []
  by_cases hempty : (refill max rate t b).tokens < 1
  · simp only [if_pos hempty, Bool.false_eq_true, if_false, add_zero, and_true]
    exact hlow
  · simp only [if_neg hempty, if_true, sub_add_cancel, and_true, sub_nonneg]
    exact not_lt.mp hempty

/-- What is admitted up to `hi` is paid for by the tokens there are and those
    gained until then. -/
theorem admittedIn_upTo_le (hmax : 0 ≤ max) (lo : K) {hi : K} {ts : List K} :
    ∀ b : Bucket K, 0 ≤ b.tokens → List.Pairwise (· ≤ ·) (b.last :: ts) → b.last ≤ hi →
      (admittedIn lo hi (serve max rate b ts) : K) ≤ b.tokens + (hi - b.last) * rate := by
  induction ts with
  | nil =>
    intro b hnonneg _ hhi
    have hgain : 0 ≤ (hi - b.last) * rate := mul_nonneg (sub_nonneg.mpr hhi) hrate
    simp only [serve, admittedIn, List.filter_nil, List.length_nil, Nat.cast_zero]
    linarith
  | cons t ts ih =>
    intro b hnonneg hsorted hhi
    rcases List.pairwise_cons.mp hsorted with ⟨hafter, hrest⟩
    have hlast : b.last ≤ t := hafter t List.mem_cons_self
    rcases allow_tokens max rate hrate hmax hlast hnonneg with ⟨hpaid, htaken⟩
    rcases refill_tokens max rate hrate hmax b t hlast hnonneg with ⟨_, _, hgained⟩
    have hsorted' : List.Pairwise (· ≤ ·) ((allow max rate t b).1.last :: ts) := by
      rw [allow_last]
      exact hrest
    by_cases ht : t ≤ hi
    · have hih := ih (allow max rate t b).1 hpaid hsorted' (by rw [allow_last]; exact ht)
      rw [allow_last] at hih
      have hsum : (t - b.last) * rate + (hi - t) * rate = (hi - b.last) * rate := by ring
      -- The request counts at most once, and only if it was admitted.
      have hcount : (admittedIn lo hi (serve max rate b (t :: ts)) : K) ≤
          (if (allow max rate t b).2 then 1 else 0) +
            (admittedIn lo hi (serve max rate (allow max rate t b).1 ts) : K) := by
        simp only [serve, admittedIn, List.filter_cons]
        cases (allow max rate t b).2 with
        | false => simp
        | true =>
          split
          · simp only [List.length_cons, Nat.cast_add, Nat.cast_one, if_true]
            linarith
          · simp only [if_true]
            linarith
      linarith
    · -- This request and all later ones are past the window.
      have hnone := admittedIn_past max rate lo (past_of_sorted hrest ht) b
      have hgain : 0 ≤ (hi - b.last) * rate := mul_nonneg (sub_nonneg.mpr hhi) hrate
      rw [hnone, Nat.cast_zero]
      linarith

/-- In a window no more requests are admitted than the maximum and what is gained
    in its length. -/
theorem admittedIn_serve_le (hmax : 0 ≤ max) {lo hi : K} (hwindow : lo ≤ hi) {ts : List K} :
    ∀ b : Bucket K, 0 ≤ b.tokens → List.Pairwise (· ≤ ·) (b.last :: ts) →
      (admittedIn lo hi (serve max rate b ts) : K) ≤ max + (hi - lo) * rate := by
  have hlength : 0 ≤ (hi - lo) * rate := mul_nonneg (sub_nonneg.mpr hwindow) hrate
  induction ts with
  | nil =>
    intro b _ _
    simp only [serve, admittedIn, List.filter_nil, List.length_nil, Nat.cast_zero]
    linarith
  | cons t ts ih =>
    intro b hnonneg hsorted
    rcases List.pairwise_cons.mp hsorted with ⟨hafter, hrest⟩
    have hlast : b.last ≤ t := hafter t List.mem_cons_self
    by_cases ht : lo ≤ t
    · -- The window has begun. Bring the bucket up to date at its first request.
      rcases refill_tokens max rate hrate hmax b t hlast hnonneg with ⟨hlow, hcap, _⟩
      have hsame : serve max rate (refill max rate t b) (t :: ts) = serve max rate b (t :: ts) := by
        simp only [serve, allow_refill max rate hrate b t t (le_refl t)]
      by_cases hthi : t ≤ hi
      · have hupTo := admittedIn_upTo_le max rate hrate hmax lo (refill max rate t b)
          hlow (List.pairwise_cons.mpr ⟨fun u hu => ?_, hrest⟩) hthi
        · rw [hsame] at hupTo
          have hpart : (hi - t) * rate ≤ (hi - lo) * rate :=
            mul_le_mul_of_nonneg_right (by linarith) hrate
          have hlast' : (refill max rate t b).last = t := rfl
          rw [hlast'] at hupTo
          linarith
        · rcases List.mem_cons.mp hu with rfl | hmem
          · exact le_refl _
          · exact (List.pairwise_cons.mp hrest).1 u hmem
      · rw [admittedIn_past max rate lo (past_of_sorted hrest hthi) b, Nat.cast_zero]
        linarith
    · -- The request is before the window and does not count.
      rcases allow_tokens max rate hrate hmax hlast hnonneg with ⟨hpaid, _⟩
      have hih := ih (allow max rate t b).1 hpaid (by rw [allow_last]; exact hrest)
      have hskip : admittedIn lo hi (serve max rate b (t :: ts))
          = admittedIn lo hi (serve max rate (allow max rate t b).1 ts) := by
        simp [serve, admittedIn, ht]
      rw [hskip]
      exact hih

end

end TokenBucket
