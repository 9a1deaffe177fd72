import Mathlib.Algebra.Group.Nat.Defs
import Mathlib.Data.Nat.Dist

/-!
# Rounding to Binary Floating Point

Natural numbers rounded to a floating-point format of `p` binary digits, to the
nearest one and to the even one of two that are equally near. The exponent has
no bound here, so a format is good for every number below its overflow.

A number of `p` digits is `m * 2 ^ e` with `m` up to `2 ^ p`. The numbers of the
format around `n` are the multiples of `spacing p n`. Above `n` they may be
further apart and below closer together, but not before the next power of two,
which is a multiple of the spacing itself. So the nearest multiple is the
nearest number of the format.

## Main definitions

* `spacing`, `round`: Rounding.

## Theorems

* `round_nearest`: No number of the format is nearer.
-/

namespace BinaryFloat

/-! ### Multiples -/

/-- The multiple of `s` nearest to `n`, the even one of two. -/
def nearestMultiple (s n : Nat) : Nat :=
  if s < 2 * (n % s) ∨ (s = 2 * (n % s) ∧ n / s % 2 = 1) then (n / s + 1) * s else n / s * s

/-- It is one of the two multiples around `n`, and not the further one. -/
theorem nearestMultiple_cases (s n : Nat) :
    (nearestMultiple s n = n / s * s ∧ 2 * (n % s) ≤ s) ∨
      (nearestMultiple s n = n / s * s + s ∧ s ≤ 2 * (n % s)) := by
  unfold nearestMultiple
  by_cases hup : s < 2 * (n % s) ∨ (s = 2 * (n % s) ∧ n / s % 2 = 1)
  · rw [if_pos hup, Nat.succ_mul]
    exact .inr ⟨rfl, by omega⟩
  · rw [if_neg hup]
    exact .inl ⟨rfl, by omega⟩

theorem nearestMultiple_of_dvd {s n : Nat} (hs : 0 < s) (h : s ∣ n) : nearestMultiple s n = n := by
  have hmod : n % s = 0 := Nat.mod_eq_zero_of_dvd h
  unfold nearestMultiple
  rw [hmod, if_neg (by omega), Nat.div_mul_cancel h]

/-- No other multiple is nearer. -/
theorem nearestMultiple_nearest {s : Nat} (hs : 0 < s) (n k : Nat) :
    Nat.dist n (nearestMultiple s n) ≤ Nat.dist n (k * s) := by
  have hsum : n / s * s + n % s = n := by rw [Nat.mul_comm]; exact Nat.div_add_mod n s
  have hmod := Nat.mod_lt n hs
  -- The multiple is at most the one below `n`, or at least the one above.
  have hside : k * s ≤ n / s * s ∨ n / s * s + s ≤ k * s := by
    by_cases hk : k ≤ n / s
    · exact .inl (Nat.mul_le_mul_right s hk)
    · have hle := Nat.mul_le_mul_right s (Nat.succ_le_of_lt (Nat.lt_of_not_le hk))
      rw [Nat.succ_mul] at hle
      exact .inr hle
  unfold Nat.dist
  rcases nearestMultiple_cases s n with ⟨h, hr⟩ | ⟨h, hr⟩
  · rw [h]
    omega
  · rw [h]
    omega

theorem nearestMultiple_mono {s n m : Nat} (hs : 0 < s) (h : n ≤ m) :
    nearestMultiple s n ≤ nearestMultiple s m := by
  have hn : n / s * s + n % s = n := by rw [Nat.mul_comm]; exact Nat.div_add_mod n s
  have hm : m / s * s + m % s = m := by rw [Nat.mul_comm]; exact Nat.div_add_mod m s
  by_cases hq : n / s = m / s
  · -- Between the same two multiples, what lies higher is not rounded lower.
    rw [hq] at hn
    unfold nearestMultiple
    rw [hq]
    by_cases hup : s < 2 * (n % s) ∨ (s = 2 * (n % s) ∧ m / s % 2 = 1)
    · rw [if_pos hup, if_pos (by omega)]
    · rw [if_neg hup]
      split
      · exact Nat.mul_le_mul_right s (Nat.le_succ _)
      · exact Nat.le_refl _
  · have hlt : n / s < m / s := Nat.lt_of_le_of_ne (Nat.div_le_div_right h) hq
    have hstep := Nat.mul_le_mul_right s (Nat.succ_le_of_lt hlt)
    rw [Nat.succ_mul] at hstep
    rcases nearestMultiple_cases s n with ⟨hn', _⟩ | ⟨hn', _⟩ <;>
      rcases nearestMultiple_cases s m with ⟨hm', _⟩ | ⟨hm', _⟩ <;> omega

/-! ### Formats -/

variable (p : Nat)

/-- The distance of the numbers of the format around `n`. -/
def spacing (n : Nat) : Nat :=
  2 ^ (n.log2 + 1 - p)

/-- The number of the format nearest to `n`. -/
def round (n : Nat) : Nat :=
  nearestMultiple (spacing p n) n

/-- A number of the format. -/
def Representable (n : Nat) : Prop :=
  ∃ m e, m ≤ 2 ^ p ∧ n = m * 2 ^ e

theorem spacing_pos (n : Nat) : 0 < spacing p n :=
  Nat.two_pow_pos _

theorem round_zero : round p 0 = 0 :=
  nearestMultiple_of_dvd (spacing_pos p 0) (Nat.dvd_zero _)

/-- A power of two is a multiple of the spacing of the numbers from it on. -/
theorem spacing_dvd_pow {n : Nat} (hp : 1 ≤ p) : spacing p n ∣ 2 ^ n.log2 :=
  Nat.pow_dvd_pow 2 (by omega)

theorem lt_pow_mul_spacing (n : Nat) : n < 2 ^ p * spacing p n := by
  unfold spacing
  rw [← Nat.pow_add]
  exact Nat.lt_of_lt_of_le Nat.lt_log2_self (Nat.pow_le_pow_right Nat.two_pos (by omega))

/-- The quotient by the spacing has no more than `p` digits. -/
theorem div_spacing_lt (n : Nat) : n / spacing p n < 2 ^ p := by
  rw [Nat.div_lt_iff_lt_mul (spacing_pos p n)]
  exact lt_pow_mul_spacing p n

/-- What rounding gives is of the format. -/
theorem representable_round (n : Nat) : Representable p (round p n) := by
  have hlt := div_spacing_lt p n
  rcases nearestMultiple_cases (spacing p n) n with ⟨h, _⟩ | ⟨h, _⟩
  · exact ⟨n / spacing p n, n.log2 + 1 - p, by omega, h⟩
  · refine ⟨n / spacing p n + 1, n.log2 + 1 - p, by omega, ?_⟩
    rw [Nat.succ_mul]
    exact h

/-- A number of the format that is no multiple of the spacing is below the last
    power of two. -/
theorem representable_cases (n : Nat) {m : Nat} (h : Representable p m) :
    spacing p n ∣ m ∨ m ≤ 2 ^ n.log2 := by
  obtain ⟨a, e, ha, rfl⟩ := h
  by_cases he : n.log2 + 1 - p ≤ e
  · exact .inl (Nat.dvd_mul_left_of_dvd (Nat.pow_dvd_pow 2 he) a)
  · refine .inr ?_
    calc a * 2 ^ e ≤ 2 ^ p * 2 ^ e := Nat.mul_le_mul_right _ ha
      _ = 2 ^ (p + e) := (Nat.pow_add 2 p e).symm
      _ ≤ 2 ^ n.log2 := Nat.pow_le_pow_right Nat.two_pos (by omega)

/-- The numbers of the format are those that rounding leaves alone. -/
theorem round_eq_self_iff (hp : 1 ≤ p) (n : Nat) : round p n = n ↔ Representable p n := by
  constructor
  · intro h
    rw [← h]
    exact representable_round p n
  · intro h
    by_cases hn : n = 0
    · rw [hn, round_zero]
    · refine nearestMultiple_of_dvd (spacing_pos p n) ?_
      rcases representable_cases p n h with hdvd | hle
      · exact hdvd
      · -- It is the power of two itself.
        have heq := Nat.le_antisymm hle (Nat.log2_self_le hn)
        have hdvd := spacing_dvd_pow p (n := n) hp
        rwa [← heq] at hdvd

theorem round_round (hp : 1 ≤ p) (n : Nat) : round p (round p n) = round p n :=
  (round_eq_self_iff p hp _).mpr (representable_round p n)

/-- No number of the format is nearer than the one rounding gives. -/
theorem round_nearest (hp : 1 ≤ p) (n m : Nat) (h : Representable p m) :
    Nat.dist n (round p n) ≤ Nat.dist n m := by
  by_cases hn : n = 0
  · rw [hn, round_zero, Nat.dist_self]
    exact Nat.zero_le _
  · have hnear := nearestMultiple_nearest (spacing_pos p n) n
    rcases representable_cases p n h with ⟨k, hk⟩ | hle
    · rw [hk, Nat.mul_comm]
      exact hnear k
    · -- The power of two below `n` is a multiple, and nearer than `m`.
      obtain ⟨k, hk⟩ := spacing_dvd_pow p (n := n) hp
      have hpow := Nat.log2_self_le hn
      have hle' := hnear k
      rw [Nat.mul_comm, ← hk] at hle'
      refine Nat.le_trans hle' ?_
      unfold Nat.dist
      omega

theorem pow_le_round (hp : 1 ≤ p) (n : Nat) (hn : n ≠ 0) : 2 ^ n.log2 ≤ round p n := by
  have hdvd := spacing_dvd_pow p (n := n) hp
  rw [← nearestMultiple_of_dvd (spacing_pos p n) hdvd]
  exact nearestMultiple_mono (spacing_pos p n) (Nat.log2_self_le hn)

theorem round_ne_zero (hp : 1 ≤ p) {n : Nat} (hn : n ≠ 0) : round p n ≠ 0 := by
  have hle := pow_le_round p hp n hn
  have hpos := Nat.two_pow_pos n.log2
  omega

theorem round_le_pow (hp : 1 ≤ p) (n : Nat) : round p n ≤ 2 ^ (n.log2 + 1) := by
  have hdvd : spacing p n ∣ 2 ^ (n.log2 + 1) := Nat.pow_dvd_pow 2 (by omega)
  rw [← nearestMultiple_of_dvd (spacing_pos p n) hdvd]
  exact nearestMultiple_mono (spacing_pos p n) (Nat.le_of_lt Nat.lt_log2_self)

/-- Rounding keeps the order. -/
theorem round_mono (hp : 1 ≤ p) {n m : Nat} (h : n ≤ m) : round p n ≤ round p m := by
  by_cases hn : n = 0
  · rw [hn, round_zero]
    exact Nat.zero_le _
  · have hm : m ≠ 0 := by omega
    have hlog : n.log2 ≤ m.log2 :=
      (Nat.le_log2 hm).mpr (Nat.le_trans (Nat.log2_self_le hn) h)
    by_cases hsame : n.log2 = m.log2
    · unfold round spacing
      rw [hsame]
      exact nearestMultiple_mono (Nat.two_pow_pos _) h
    · -- A power of two lies between the two.
      calc round p n ≤ 2 ^ (n.log2 + 1) := round_le_pow p hp n
        _ ≤ 2 ^ m.log2 := Nat.pow_le_pow_right Nat.two_pos (by omega)
        _ ≤ round p m := pow_le_round p hp m hm

end BinaryFloat
