import Mathlib.Algebra.Order.Field.Rat
import Mathlib.Algebra.Order.Ring.Int
import Mathlib.Tactic.Common
import Mathlib.Tactic.Linarith

/-!
# Single precision

A binary32 datum by its value: a whole number of the smallest subnormals, of `2⁻¹⁴⁹` each, or an
infinity, or no number.  The sign of a zero and the payload of a NaN are not kept, since no
comparison and no conversion to an integer sees them.  Comparing is comparing the values; scaling
by a power of two is exact, but for an overflow upwards and for a rounding to even among the
subnormals downwards.
-/

/-- The values of finite data: at most 24 significant bits, and below `2¹²⁸`. -/
def Binary32.Fits (u : ℤ) : Prop :=
  ∃ m e : ℕ, m < 2 ^ 24 ∧ e ≤ 253 ∧ u.natAbs = m * 2 ^ e

/-- A datum; a finite one in units of `2⁻¹⁴⁹`. -/
inductive Binary32
  | nan
  | inf (neg : Bool)
  | fin (u : ℤ) (fits : Binary32.Fits u)

namespace Binary32

variable {u v : ℤ} {g k : ℕ}

/-! ### Finite values -/

lemma Fits.neg (h : Fits u) : Fits (-u) := by
  obtain ⟨m, e, hm, he, hu⟩ := h
  exact ⟨m, e, hm, he, by rw [Int.natAbs_neg, hu]⟩

/-- Small values are all there. -/
lemma Fits.of_small (h : u.natAbs < 2 ^ 24) : Fits u :=
  ⟨u.natAbs, 0, h, Nat.zero_le _, by rw [pow_zero, mul_one]⟩

lemma natAbs_twoPow (k : ℕ) : ((2 : ℤ) ^ k).natAbs = 2 ^ k := by
  rw [Int.natAbs_pow]
  rfl

lemma Fits.twoPow (h : k < 277) : Fits (2 ^ k) := by
  by_cases hk : k ≤ 253
  · exact ⟨1, k, by norm_num, hk, by rw [natAbs_twoPow, one_mul]⟩
  · refine ⟨2 ^ (k - 253), 253, ?_, le_rfl, ?_⟩
    · exact Nat.pow_lt_pow_right (by norm_num) (by omega)
    · rw [natAbs_twoPow, ← pow_add, Nat.sub_add_cancel (by omega)]

/-- `2¹²⁸`, where the finite data end. -/
def bound : ℕ := 2 ^ 24 * 2 ^ 253

/-- Scaling up below the largest exponent. -/
lemma Fits.mul_twoPow (h : Fits u) (hlt : u.natAbs * 2 ^ k < bound) : Fits (u * 2 ^ k) := by
  obtain ⟨m, e, hm, -, hu⟩ := h
  have habs : (u * 2 ^ k).natAbs = m * 2 ^ (e + k) := by
    rw [Int.natAbs_mul, natAbs_twoPow, hu, mul_assoc, pow_add]
  by_cases he : e + k ≤ 253
  · exact ⟨m, e + k, hm, he, habs⟩
  · -- the exponent is at its end, what is left of it goes to the significand
    have hsum : m * 2 ^ (e + k - 253) * 2 ^ 253 = m * 2 ^ (e + k) := by
      rw [mul_assoc, ← pow_add, Nat.sub_add_cancel (by omega)]
    refine ⟨m * 2 ^ (e + k - 253), 253, ?_, le_rfl, habs.trans hsum.symm⟩
    rw [hu, mul_assoc, ← pow_add, ← hsum] at hlt
    exact Nat.lt_of_mul_lt_mul_right hlt

/-! ### Rounding to even -/

/-- `u / 2 ^ g` to the nearest integer, ties to even. -/
def roundDiv (u : ℤ) (g : ℕ) : ℤ :=
  let q := u / 2 ^ g
  let r := u % 2 ^ g
  if 2 * r < 2 ^ g ∨ (2 * r = 2 ^ g ∧ q % 2 = 0) then q else q + 1

/-- A quotient that comes out even is not rounded. -/
lemma roundDiv_of_dvd (h : u % 2 ^ g = 0) : roundDiv u g * 2 ^ g = u := by
  have hpos : (0 : ℤ) < 2 ^ g := by positivity
  have hif : 2 * (u % 2 ^ g) < 2 ^ g ∨ (2 * (u % 2 ^ g) = 2 ^ g ∧ u / 2 ^ g % 2 = 0) := by
    left
    rw [h, mul_zero]
    exact hpos
  rw [roundDiv, if_pos hif]
  exact Int.ediv_mul_cancel (Int.dvd_of_emod_eq_zero h)

/-- The rounded quotient is the floor or the integer after it. -/
lemma roundDiv_bounds (u : ℤ) (g : ℕ) :
    u / 2 ^ g ≤ roundDiv u g ∧ roundDiv u g ≤ u / 2 ^ g + 1 := by
  simp only [roundDiv]
  split_ifs
  · exact ⟨le_rfl, by omega⟩
  · exact ⟨by omega, le_rfl⟩

/-- The rounded quotient of a value below `2 ^ n` units and a power of two. -/
lemma natAbs_roundDiv_le {n : ℕ} (h : u.natAbs < 2 ^ (n + g)) :
    (roundDiv u g).natAbs ≤ 2 ^ n := by
  have hpos : (0 : ℤ) < 2 ^ g := by positivity
  have hu : -(2 ^ n * 2 ^ g : ℤ) < u ∧ u < 2 ^ n * 2 ^ g := by
    have hcast : ((2 ^ (n + g) : ℕ) : ℤ) = 2 ^ n * 2 ^ g := by
      push_cast
      rw [pow_add]
    omega
  have hhigh : u / 2 ^ g < 2 ^ n := Int.ediv_lt_of_lt_mul hpos hu.2
  have hlow : -(2 ^ n) ≤ u / 2 ^ g := by
    rw [Int.le_ediv_iff_mul_le hpos, neg_mul]
    exact hu.1.le
  obtain ⟨h₁, h₂⟩ := roundDiv_bounds u g
  have hcast : ((2 ^ n : ℕ) : ℤ) = 2 ^ n := by push_cast; rfl
  omega

/-- Where the division of a finite value by a power of two rounds, the value is subnormal by
then. -/
lemma Fits.small_of_inexact (h : Fits u) (hr : u % 2 ^ g ≠ 0) : u.natAbs < 2 ^ (23 + g) := by
  obtain ⟨m, e, hm, -, hu⟩ := h
  have heg : e < g := by
    by_contra hge
    apply hr
    apply Int.emod_eq_zero_of_dvd
    rw [← Int.natAbs_dvd_natAbs, natAbs_twoPow, hu]
    exact Dvd.dvd.mul_left (pow_dvd_pow 2 (by omega)) m
  rw [hu]
  calc m * 2 ^ e < 2 ^ 24 * 2 ^ e := Nat.mul_lt_mul_of_pos_right hm (by positivity)
    _ = 2 ^ (24 + e) := (pow_add 2 24 e).symm
    _ ≤ 2 ^ (23 + g) := Nat.pow_le_pow_right (by norm_num) (by omega)

lemma Fits.roundDiv (h : Fits u) : Fits (roundDiv u g) := by
  by_cases hr : u % 2 ^ g = 0
  · obtain ⟨m, e, hm, he, hu⟩ := h
    have hmul : (Binary32.roundDiv u g).natAbs * 2 ^ g = m * 2 ^ e := by
      rw [← hu, ← roundDiv_of_dvd hr, Int.natAbs_mul, natAbs_twoPow,
        roundDiv_of_dvd hr]
    by_cases hge : g ≤ e
    · refine ⟨m, e - g, hm, by omega, ?_⟩
      refine Nat.eq_of_mul_eq_mul_right (m := 2 ^ g) (by positivity) ?_
      rw [hmul, mul_assoc, ← pow_add, Nat.sub_add_cancel hge]
    · apply Fits.of_small
      have hlt : (Binary32.roundDiv u g).natAbs * 2 ^ g < 2 ^ 24 * 2 ^ g := by
        rw [hmul]
        calc m * 2 ^ e < 2 ^ 24 * 2 ^ e := Nat.mul_lt_mul_of_pos_right hm (by positivity)
          _ ≤ 2 ^ 24 * 2 ^ g :=
            Nat.mul_le_mul_left _ (Nat.pow_le_pow_right (by norm_num) (by omega))
      exact Nat.lt_of_mul_lt_mul_right hlt
  · apply Fits.of_small
    have hle := natAbs_roundDiv_le (h.small_of_inexact hr)
    omega

/-- Truncating a rounded quotient, scaled up again by less than the rounding could show in, is
truncating the quotient itself. -/
lemma Fits.tdiv_roundDiv (h : Fits u) (hk : k ≤ 125) :
    (Binary32.roundDiv u g * 2 ^ k).tdiv (2 ^ 149) = (u * 2 ^ k).tdiv (2 ^ (149 + g)) := by
  by_cases hr : u % 2 ^ g = 0
  · have hu : u * 2 ^ k = Binary32.roundDiv u g * 2 ^ k * 2 ^ g := by
      rw [mul_right_comm, roundDiv_of_dvd hr]
    rw [hu, pow_add, Int.mul_tdiv_mul_of_pos_left _ _ (by positivity)]
  · -- both sides are below one
    have zero (a : ℤ) (n : ℕ) (ha : a.natAbs < 2 ^ n) : a.tdiv (2 ^ n) = 0 := by
      rw [← Int.natAbs_eq_zero, Int.natAbs_tdiv, natAbs_twoPow]
      exact Nat.div_eq_of_lt ha
    have hsmall := h.small_of_inexact hr
    have hle := natAbs_roundDiv_le hsmall
    have hpow : (2 : ℕ) ^ k ≤ 2 ^ 125 := Nat.pow_le_pow_right (by norm_num) hk
    rw [zero, zero]
    · rw [Int.natAbs_mul, natAbs_twoPow]
      calc u.natAbs * 2 ^ k < 2 ^ (23 + g) * 2 ^ 126 :=
            Nat.mul_lt_mul'' hsmall (lt_of_le_of_lt hpow (by norm_num))
        _ = 2 ^ (149 + g) := by
          rw [← pow_add]
          congr 1
          omega
    · rw [Int.natAbs_mul, natAbs_twoPow]
      calc (Binary32.roundDiv u g).natAbs * 2 ^ k ≤ 2 ^ 23 * 2 ^ 125 := Nat.mul_le_mul hle hpow
        _ < 2 ^ 149 := by norm_num

/-! ### The operations -/

/-- A magnitude with a sign. -/
def signed (neg : Bool) (m : ℕ) : ℤ := if neg then -m else m

@[simp]
lemma natAbs_signed (neg : Bool) (m : ℕ) : (signed neg m).natAbs = m := by
  cases neg <;> simp [signed]

/-- The magnitude of the fields of a finite datum. -/
def magnitude (e f : ℕ) : ℕ := if e = 0 then f else (2 ^ 23 + f) * 2 ^ (e - 1)

lemma fits_magnitude (neg : Bool) {e f : ℕ} (he : e < 255) (hf : f < 2 ^ 23) :
    Fits (signed neg (magnitude e f)) := by
  rw [Fits, natAbs_signed, magnitude]
  split_ifs
  · exact ⟨f, 0, by omega, Nat.zero_le _, by rw [pow_zero, mul_one]⟩
  · exact ⟨2 ^ 23 + f, e - 1, by omega, by omega, rfl⟩

/-- The datum of a bit pattern. -/
def ofBits (w : UInt32) : Binary32 :=
  let neg := decide (2 ^ 31 ≤ w.toNat)
  let e := w.toNat / 2 ^ 23 % 2 ^ 8
  let f := w.toNat % 2 ^ 23
  if he : e = 255 then if f = 0 then .inf neg else .nan
  else .fin (signed neg (magnitude e f)) (fits_magnitude neg (by omega) (Nat.mod_lt _ (by norm_num)))

/-- The value in units, an infinity as `2¹²⁸`. -/
def rank : Binary32 → Option ℤ
  | .nan => none
  | .inf neg => some (signed neg bound)
  | .fin u _ => some u

/-- `a < b`, false where one of them is no number. -/
def lt (a b : Binary32) : Bool :=
  match a.rank, b.rank with
  | some x, some y => decide (x < y)
  | _, _ => false

/-- `a <= b`, false where one of them is no number. -/
def le (a b : Binary32) : Bool :=
  match a.rank, b.rank with
  | some x, some y => decide (x ≤ y)
  | _, _ => false

/-- `-a` -/
def neg : Binary32 → Binary32
  | .nan => .nan
  | .inf neg => .inf !neg
  | .fin u h => .fin (-u) h.neg

/-- `2 ^ k` -/
def twoPow (k : ℕ) : Binary32 :=
  if h : k < 128 then .fin (2 ^ (149 + k)) (.twoPow (by omega)) else .inf false

/-- `a / 2 ^ g` -/
def divTwoPow (g : ℕ) : Binary32 → Binary32
  | .nan => .nan
  | .inf neg => .inf neg
  | .fin u h => .fin (roundDiv u g) h.roundDiv

/-- `a * 2 ^ k` -/
def mulTwoPow (k : ℕ) : Binary32 → Binary32
  | .nan => .nan
  | .inf neg => .inf neg
  | .fin u h =>
    if hlt : u.natAbs * 2 ^ k < bound then .fin (u * 2 ^ k) (h.mul_twoPow hlt)
    else .inf (decide (u < 0))

/-- The integer part, of a finite datum. -/
def trunc : Binary32 → Option ℤ
  | .fin u _ => some (u.tdiv (2 ^ 149))
  | _ => none

/-- The value of a finite datum. -/
def value : Binary32 → ℚ
  | .fin u _ => u / 2 ^ 149
  | _ => 0

variable {a b : Binary32} {x y : ℤ}

lemma lt_eq (ha : a.rank = some x) (hb : b.rank = some y) : a.lt b = decide (x < y) := by
  simp only [lt, ha, hb]

lemma le_eq (ha : a.rank = some x) (hb : b.rank = some y) : a.le b = decide (x ≤ y) := by
  simp only [le, ha, hb]

lemma exists_rank (h : a ≠ .nan) : ∃ x, a.rank = some x := by
  cases a with
  | nan => exact absurd rfl h
  | inf neg => exact ⟨_, rfl⟩
  | fin u h => exact ⟨_, rfl⟩

lemma rank_neg (ha : a.rank = some x) : a.neg.rank = some (-x) := by
  cases a with
  | nan => cases ha
  | inf neg =>
    cases ha
    cases neg <;> rfl
  | fin u h =>
    cases ha
    rfl

lemma rank_twoPow (h : k < 128) : (twoPow k).rank = some (2 ^ (149 + k)) := by
  rw [twoPow, dif_pos h]
  rfl

/-- Below `2¹²⁸` there are only finite data. -/
lemma eq_fin_of_rank (ha : a.rank = some x) (hx : |x| < bound) : ∃ h, a = .fin x h := by
  cases a with
  | nan => cases ha
  | inf neg =>
    cases ha
    rw [Int.abs_eq_natAbs, natAbs_signed] at hx
    exact absurd hx (lt_irrefl _)
  | fin u h =>
    cases ha
    exact ⟨h, rfl⟩

end Binary32
