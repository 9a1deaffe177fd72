import CoopDB.Lib.BinaryFloat
import Mathlib.Algebra.Ring.Parity

/-!
# The Shortest Decimal of a Floating-Point Number

How a number of a binary format is printed so that it is read back as the same
number: with as few decimal digits as possible, and of the decimals with so few
digits the nearest one. For a number that is an integer the missing digits are
zeros. So the decimal that is printed is an integer that ends in as many zeros
as an integer can that is rounded to the number.

What is rounded to a number is an interval around it, since rounding keeps the
order. So if any multiple of a power of ten is rounded to it, then so is the next
one below or the next one above. `shortest` tries these two, from the largest
power on down.

Two decimals that are equally near do not occur (`no_tie`). The number would be
half way between two multiples of `10 ^ k`. It is a multiple of the spacing of
its format, which is a power of two not below `10 ^ k`, and that makes it a
multiple of `2 ^ k`, which half of an odd multiple of `10 ^ k` is not.

## Main definitions

* `shortest`: The decimal that is printed.

## Theorems

* `decimalOf_some`, `decimalOf_none`: One power of ten.
* `isShortest_shortest`, `IsShortest.unique`: `shortest` is what it should be.
-/

namespace BinaryFloat

/-- The last multiple of `10 ^ k` that is not above `f`. -/
def below (k f : Nat) : Nat :=
  f / 10 ^ k * 10 ^ k

/-- The next one. -/
def above (k f : Nat) : Nat :=
  below k f + 10 ^ k

variable (p : Nat)

/-- The nearest multiple of `10 ^ k` that is rounded to `f`. -/
def decimalOf (k f : Nat) : Option Nat :=
  if round p (below k f) = f ∧ (round p (above k f) ≠ f ∨ f - below k f ≤ above k f - f) then
    some (below k f)
  else if round p (above k f) = f then some (above k f)
  else none

/-- The shortest decimal with no more than `k` zeros. -/
def shortestFrom (f : Nat) : Nat → Nat
  | 0 => f
  | k + 1 => (decimalOf p (k + 1) f).getD (shortestFrom f k)

/-- The shortest decimal. -/
def shortest (f : Nat) : Nat :=
  shortestFrom p f (f.log2 + 1)

/-- `d` is rounded to `f`. No integer that is rounded to `f` ends in more zeros,
    and none that ends in as many is nearer. -/
def IsShortest (f d : Nat) : Prop :=
  round p d = f ∧ ∃ k, 10 ^ k ∣ d ∧ (∀ j, round p j = f → ¬ 10 ^ (k + 1) ∣ j) ∧
    ∀ j, round p j = f → 10 ^ k ∣ j → Nat.dist d f ≤ Nat.dist j f

/-! ### One power of ten -/

theorem dvd_below (k f : Nat) : 10 ^ k ∣ below k f :=
  Nat.dvd_mul_left _ _

theorem dvd_above (k f : Nat) : 10 ^ k ∣ above k f :=
  Nat.dvd_add (dvd_below k f) (Nat.dvd_refl _)

theorem below_le (k f : Nat) : below k f ≤ f :=
  Nat.div_mul_le_self f _

theorem lt_above (k f : Nat) : f < above k f := by
  have hmod := Nat.mod_lt f (Nat.pow_pos (n := k) (show 0 < 10 by omega))
  have hsum := Nat.div_add_mod f (10 ^ k)
  unfold above below
  rw [Nat.mul_comm]
  omega

/-- A multiple is not between the two. -/
theorem multiple_outside {k f j : Nat} (hj : 10 ^ k ∣ j) : j ≤ below k f ∨ above k f ≤ j := by
  obtain ⟨a, rfl⟩ := hj
  unfold above below
  by_cases ha : a ≤ f / 10 ^ k
  · exact .inl (by rw [Nat.mul_comm]; exact Nat.mul_le_mul_right _ ha)
  · refine .inr ?_
    rw [← Nat.succ_mul, Nat.mul_comm]
    exact Nat.mul_le_mul_left _ (Nat.succ_le_of_lt (Nat.lt_of_not_le ha))

/-- What is rounded to `f` is an interval. -/
theorem round_eq_of_between (hp : 1 ≤ p) {f i j : Nat} (hf : round p f = f) (hj : round p j = f)
    (h : (j ≤ i ∧ i ≤ f) ∨ (f ≤ i ∧ i ≤ j)) : round p i = f := by
  rcases h with ⟨hji, hif⟩ | ⟨hfi, hij⟩
  · have hlow := round_mono p hp hji
    have hhigh := round_mono p hp hif
    omega
  · have hlow := round_mono p hp hfi
    have hhigh := round_mono p hp hij
    omega

/-- A multiple that is rounded to `f` is no nearer than `below` or `above`,
    which is then rounded to `f` as well. -/
theorem multiple_cases (hp : 1 ≤ p) {k f j : Nat} (hf : round p f = f) (hj : round p j = f)
    (hdvd : 10 ^ k ∣ j) :
    (round p (below k f) = f ∧ Nat.dist (below k f) f ≤ Nat.dist j f) ∨
      (round p (above k f) = f ∧ Nat.dist (above k f) f ≤ Nat.dist j f) := by
  have hbelow := below_le k f
  have habove := lt_above k f
  rcases multiple_outside (f := f) hdvd with hle | hle
  · refine .inl ⟨round_eq_of_between p hp hf hj (.inl ⟨hle, hbelow⟩), ?_⟩
    unfold Nat.dist
    omega
  · refine .inr ⟨round_eq_of_between p hp hf hj (.inr ⟨Nat.le_of_lt habove, hle⟩), ?_⟩
    unfold Nat.dist
    omega

theorem decimalOf_some (hp : 1 ≤ p) {k f d : Nat} (hf : round p f = f)
    (h : decimalOf p k f = some d) :
    round p d = f ∧ 10 ^ k ∣ d ∧
      ∀ j, round p j = f → 10 ^ k ∣ j → Nat.dist d f ≤ Nat.dist j f := by
  have hbelow := below_le k f
  have habove := lt_above k f
  unfold decimalOf at h
  by_cases hlow : round p (below k f) = f ∧
      (round p (above k f) ≠ f ∨ f - below k f ≤ above k f - f)
  · rw [if_pos hlow, Option.some.injEq] at h
    subst h
    refine ⟨hlow.1, dvd_below k f, fun j hj hdvd => ?_⟩
    rcases multiple_cases p hp hf hj hdvd with ⟨_, hle⟩ | ⟨hround, hle⟩
    · exact hle
    · have hnear := hlow.2.resolve_left (fun h => h hround)
      unfold Nat.dist at hle ⊢
      omega
  · rw [if_neg hlow] at h
    by_cases hhigh : round p (above k f) = f
    · rw [if_pos hhigh, Option.some.injEq] at h
      subst h
      refine ⟨hhigh, dvd_above k f, fun j hj hdvd => ?_⟩
      rcases multiple_cases p hp hf hj hdvd with ⟨hround, hle⟩ | ⟨_, hle⟩
      · have hfar : ¬ f - below k f ≤ above k f - f := fun hle => hlow ⟨hround, .inr hle⟩
        unfold Nat.dist at hle ⊢
        omega
      · exact hle
    · rw [if_neg hhigh] at h
      cases h

theorem decimalOf_none (hp : 1 ≤ p) {k f : Nat} (hf : round p f = f) (h : decimalOf p k f = none) :
    ∀ j, round p j = f → ¬ 10 ^ k ∣ j := by
  intro j hj hdvd
  unfold decimalOf at h
  split at h
  case isTrue => cases h
  case isFalse hlow =>
    split at h
    case isTrue => cases h
    case isFalse hhigh =>
      rcases multiple_cases p hp hf hj hdvd with ⟨hround, _⟩ | ⟨hround, _⟩
      · exact hlow ⟨hround, .inl hhigh⟩
      · exact hhigh hround

/-! ### All of them -/

/-- The search finds the shortest decimal if there is none with more zeros than
    it starts with. -/
theorem isShortest_shortestFrom (hp : 1 ≤ p) {f : Nat} (hf : round p f = f) (k : Nat)
    (h : ∀ j, round p j = f → ¬ 10 ^ (k + 1) ∣ j) : IsShortest p f (shortestFrom p f k) := by
  induction k with
  | zero =>
    refine ⟨hf, 0, Nat.one_dvd f, h, fun j _ _ => ?_⟩
    rw [shortestFrom, Nat.dist_self]
    exact Nat.zero_le _
  | succ k ih =>
    rw [shortestFrom]
    cases hd : decimalOf p (k + 1) f with
    | some =>
      obtain ⟨hround, hdvd, hnear⟩ := decimalOf_some p hp hf hd
      exact ⟨hround, k + 1, hdvd, h, hnear⟩
    | none => exact ih (decimalOf_none p hp hf hd)

theorem isShortest_shortest (hp : 1 ≤ p) {f : Nat} (hf : round p f = f) (hpos : f ≠ 0) :
    IsShortest p f (shortest p f) := by
  refine isShortest_shortestFrom p hp hf _ (fun j hj hdvd => ?_)
  -- A multiple of so large a power is zero or at least the next power of two.
  have hj0 : j ≠ 0 := by
    rintro rfl
    exact hpos (hj.symm.trans (round_zero p))
  have hpow : 2 ^ (f.log2 + 1) ≤ j := by
    calc 2 ^ (f.log2 + 1) ≤ 2 ^ (f.log2 + 1 + 1) := Nat.pow_le_pow_right Nat.two_pos (by omega)
      _ ≤ 10 ^ (f.log2 + 1 + 1) := Nat.pow_le_pow_left (by omega) _
      _ ≤ j := Nat.le_of_dvd (Nat.pos_of_ne_zero hj0) hdvd
  have hrep : round p (2 ^ (f.log2 + 1)) = 2 ^ (f.log2 + 1) :=
    (round_eq_self_iff p hp _).mpr ⟨1, f.log2 + 1, Nat.one_le_two_pow, (Nat.one_mul _).symm⟩
  have hmono := round_mono p hp hpow
  have hlt := Nat.lt_log2_self (n := f)
  omega

/-- A number of the format is not half way between two multiples of a power of
    ten that are rounded to it. -/
theorem no_tie (hp : 1 ≤ p) {k f : Nat} (hf : round p f = f)
    (hhigh : round p (above k f) = f) : f - below k f ≠ above k f - f := by
  intro htie
  have hbelow := below_le k f
  have habove := lt_above k f
  have hs := spacing_pos p f
  -- The number is a multiple of its spacing.
  obtain ⟨q, hq⟩ : spacing p f ∣ f := by
    rcases nearestMultiple_cases (spacing p f) f with ⟨h, _⟩ | ⟨h, _⟩
    · exact ⟨f / spacing p f, by rw [Nat.mul_comm]; exact hf.symm.trans h⟩
    · exact ⟨f / spacing p f + 1, by rw [Nat.mul_comm, Nat.succ_mul]; exact hf.symm.trans h⟩
  have hqlt : q < 2 ^ p := by
    have hlt := lt_pow_mul_spacing p f
    rw [Nat.mul_comm] at hlt
    nth_rewrite 1 [hq] at hlt
    exact Nat.lt_of_mul_lt_mul_left hlt
  -- The next number of the format is not nearer to the multiple above.
  have hnext : Representable p (f + spacing p f) := by
    refine ⟨q + 1, f.log2 + 1 - p, by omega, ?_⟩
    rw [Nat.succ_mul, Nat.mul_comm]
    exact congrArg (· + spacing p f) hq
  have hwidth : 10 ^ k ≤ spacing p f := by
    have hnear := round_nearest p hp (above k f) _ hnext
    rw [hhigh] at hnear
    unfold Nat.dist at hnear
    unfold above at hnear htie habove
    omega
  have hk : k ≤ f.log2 + 1 - p := by
    refine (Nat.pow_le_pow_iff_right (show 1 < 2 by omega)).mp (Nat.le_trans ?_ hwidth)
    exact Nat.pow_le_pow_left (by omega) k
  -- So it is a multiple of `2 ^ k`, and an odd number times `5 ^ k` is even.
  obtain ⟨c, hc⟩ : 2 ^ k ∣ f := Nat.dvd_trans (Nat.pow_dvd_pow 2 hk) ⟨q, hq⟩
  have htwice : 2 * f = (2 * (f / 10 ^ k) + 1) * 10 ^ k := by
    have hexp : (2 * (f / 10 ^ k) + 1) * 10 ^ k = 2 * below k f + 10 ^ k := by
      unfold below
      rw [Nat.succ_mul, Nat.mul_assoc]
    rw [hexp]
    unfold above at htie habove
    omega
  have hpow : (10 : Nat) ^ k = 2 ^ k * 5 ^ k := Nat.mul_pow 2 5 k
  have hparity : 2 * c = (2 * (f / 10 ^ k) + 1) * 5 ^ k := by
    refine Nat.eq_of_mul_eq_mul_left (Nat.two_pow_pos k) ?_
    calc 2 ^ k * (2 * c) = 2 * f := by rw [Nat.mul_left_comm, ← hc]
      _ = (2 * (f / 10 ^ k) + 1) * (2 ^ k * 5 ^ k) := by rw [htwice, hpow]
      _ = 2 ^ k * ((2 * (f / 10 ^ k) + 1) * 5 ^ k) := Nat.mul_left_comm _ _ _
  have hodd : Odd ((2 * (f / 10 ^ k) + 1) * 5 ^ k) :=
    Odd.mul ⟨_, rfl⟩ (Odd.pow ⟨2, rfl⟩)
  rw [← hparity] at hodd
  exact absurd hodd (Nat.not_odd_iff_even.mpr ⟨c, Nat.two_mul c⟩)

/-- Nor are two of the nearest multiples on two sides of it. -/
theorem not_nearest_both (hp : 1 ≤ p) {k f lo hi : Nat} (hf : round p f = f)
    (hlo : round p lo = f ∧ 10 ^ k ∣ lo) (hhi : round p hi = f ∧ 10 ^ k ∣ hi)
    (hnear : ∀ j, round p j = f → 10 ^ k ∣ j → f - lo ≤ Nat.dist j f)
    (heq : f - lo = hi - f) (hlt : lo < f) : False := by
  have hbelow := below_le k f
  have habove := lt_above k f
  have hle : lo ≤ below k f := (multiple_outside hlo.2).resolve_right (by omega)
  have hge : above k f ≤ hi := (multiple_outside hhi.2).resolve_left (by omega)
  have hrlow : round p (below k f) = f :=
    round_eq_of_between p hp hf hlo.1 (.inl ⟨hle, hbelow⟩)
  have hrhigh : round p (above k f) = f :=
    round_eq_of_between p hp hf hhi.1 (.inr ⟨Nat.le_of_lt habove, hge⟩)
  have hnearlow := hnear _ hrlow (dvd_below k f)
  have hnearhigh := hnear _ hrhigh (dvd_above k f)
  refine no_tie p hp hf hrhigh ?_
  unfold Nat.dist at hnearlow hnearhigh
  omega

/-- There is one shortest decimal. -/
theorem IsShortest.unique (hp : 1 ≤ p) {f d d' : Nat} (hf : round p f = f)
    (h : IsShortest p f d) (h' : IsShortest p f d') : d = d' := by
  obtain ⟨hd, k, hdvd, hmax, hnear⟩ := h
  obtain ⟨hd', k', hdvd', hmax', hnear'⟩ := h'
  -- Both end in the largest number of zeros.
  have hk : k = k' := by
    by_contra hne
    rcases Nat.lt_or_gt_of_ne hne with hlt | hlt
    · exact hmax d' hd' (Nat.dvd_trans (Nat.pow_dvd_pow 10 hlt) hdvd')
    · exact hmax' d hd (Nat.dvd_trans (Nat.pow_dvd_pow 10 hlt) hdvd)
  subst hk
  have hsame : Nat.dist d f = Nat.dist d' f :=
    Nat.le_antisymm (hnear d' hd' hdvd') (hnear' d hd hdvd)
  by_contra hne
  rcases Nat.lt_or_ge d f with hlt | hge
  · have hdist : Nat.dist d f = f - d := Nat.dist_eq_sub_of_le (Nat.le_of_lt hlt)
    rw [hdist] at hnear
    refine not_nearest_both p hp hf ⟨hd, hdvd⟩ ⟨hd', hdvd'⟩ hnear ?_ hlt
    unfold Nat.dist at hsame
    omega
  · have hlt : d' < f := by
      unfold Nat.dist at hsame
      omega
    have hdist : Nat.dist d' f = f - d' := Nat.dist_eq_sub_of_le (Nat.le_of_lt hlt)
    rw [hdist] at hnear'
    refine not_nearest_both p hp hf ⟨hd', hdvd'⟩ ⟨hd, hdvd⟩ hnear' ?_ hlt
    unfold Nat.dist at hsame
    omega

/-- What is printed for a number of the format. -/
theorem shortest_eq_iff (hp : 1 ≤ p) {f : Nat} (hf : round p f = f) (hpos : f ≠ 0) (d : Nat) :
    shortest p f = d ↔ IsShortest p f d := by
  constructor
  · rintro rfl
    exact isShortest_shortest p hp hf hpos
  · exact fun h => (isShortest_shortest p hp hf hpos).unique p hp hf h

theorem shortest_zero : shortest p 0 = 0 := by
  have hdecimal : decimalOf p 1 0 = some 0 := by
    unfold decimalOf below
    rw [Nat.zero_div, Nat.zero_mul, round_zero]
    exact if_pos ⟨rfl, .inr (Nat.zero_le _)⟩
  unfold shortest
  rw [Nat.log2_zero, shortestFrom, hdecimal]
  rfl

/-- It is read back as the number. -/
theorem round_shortest (hp : 1 ≤ p) {f : Nat} (hf : round p f = f) :
    round p (shortest p f) = f := by
  by_cases hpos : f = 0
  · subst hpos
    rw [shortest_zero, round_zero]
  · exact (isShortest_shortest p hp hf hpos).1

theorem representable_of_le_pow {n : Nat} (h : n ≤ 2 ^ p) : Representable p n :=
  ⟨n, 0, h, by rw [Nat.pow_zero, Nat.mul_one]⟩

/-- Up to `2 ^ p` an integer is printed as itself. Above `2 ^ p` only the next
    integer is rounded to it, which is odd and so does not end in a zero. -/
theorem shortest_of_le_pow (hp : 1 ≤ p) {n : Nat} (h : n ≤ 2 ^ p) : shortest p n = n := by
  have hn : round p n = n := (round_eq_self_iff p hp n).mpr (representable_of_le_pow p h)
  by_cases hpos : n = 0
  · subst hpos
    exact shortest_zero p
  obtain ⟨hround, k, hdvd, _, hnear⟩ := isShortest_shortest p hp hn hpos
  rcases Nat.lt_or_ge (2 ^ p) (shortest p n) with hgt | hle
  -- Above the power the only candidate is the next number, which is odd and no nearer.
  · have hlow := round_mono p hp (Nat.le_of_lt hgt)
    rw [(round_eq_self_iff p hp _).mpr (representable_of_le_pow p (Nat.le_refl _)), hround] at hlow
    have heq : n = 2 ^ p := Nat.le_antisymm h hlow
    have hnext : Representable p (2 ^ p + 2) := by
      refine ⟨2 ^ (p - 1) + 1, 1, ?_, ?_⟩
      · have hsucc := Nat.pow_lt_pow_right (show 1 < 2 by omega) (show p - 1 < p by omega)
        omega
      · have hsucc : 2 ^ p = 2 ^ (p - 1) * 2 := by
          rw [← Nat.pow_succ, Nat.succ_eq_add_one, Nat.sub_add_cancel hp]
        rw [Nat.succ_mul, hsucc]
        rfl
    have hfar := round_nearest p hp (shortest p n) _ hnext
    rw [hround] at hfar
    have hodd : shortest p n = 2 ^ p + 1 := by
      unfold Nat.dist at hfar
      omega
    have hk : k = 0 := by
      by_contra hne
      have htwo : 2 ∣ shortest p n :=
        Nat.dvd_trans (Nat.dvd_trans ⟨5, rfl⟩ (dvd_pow_self 10 hne)) hdvd
      have heven : 2 ∣ 2 ^ p := dvd_pow_self 2 (by omega)
      omega
    subst hk
    have hself := hnear n hn (Nat.one_dvd n)
    unfold Nat.dist at hself
    omega
  · have hself := (round_eq_self_iff p hp _).mpr (representable_of_le_pow p hle)
    exact hself.symm.trans hround

/-! ### Signs -/

/-- A function of the magnitude of an integer, with its sign kept. -/
def signed (g : Nat → Nat) (i : Int) : Int :=
  i.sign * g i.natAbs

theorem signed_neg (g : Nat → Nat) (i : Int) : signed g (-i) = -signed g i := by
  unfold signed
  rw [Int.sign_neg, Int.natAbs_neg, Int.neg_mul]

theorem signed_natCast {g : Nat → Nat} (h : g 0 = 0) (n : Nat) : signed g n = g n := by
  cases n with
  | zero =>
    rw [h]
    exact Int.zero_mul _
  | succ => exact Int.one_mul _

theorem signed_signed {g h : Nat → Nat} (hg : g 0 = 0) (hh : h 0 = 0) (i : Int) :
    signed g (signed h i) = signed (fun n => g (h n)) i := by
  have hcomp : g (h 0) = 0 := by rw [hh, hg]
  obtain ⟨n, rfl | rfl⟩ := i.eq_nat_or_neg
  · rw [signed_natCast hh, signed_natCast hg, signed_natCast (g := fun n => g (h n)) hcomp]
  · rw [signed_neg, signed_neg, signed_neg, signed_natCast hh, signed_natCast hg,
      signed_natCast (g := fun n => g (h n)) hcomp]

theorem signed_eq_self_iff {g : Nat → Nat} (h : g 0 = 0) (i : Int) :
    signed g i = i ↔ g i.natAbs = i.natAbs := by
  obtain ⟨n, rfl | rfl⟩ := i.eq_nat_or_neg
  · rw [signed_natCast h, Int.natAbs_natCast, Int.ofNat_inj]
  · rw [signed_neg, signed_natCast h, Int.neg_inj, Int.natAbs_neg, Int.natAbs_natCast,
      Int.ofNat_inj]

end BinaryFloat
