import Gd32Bridge.Lib.Checked
import Mathlib.Data.Rat.Cast.Order
import Mathlib.Order.Bounds.Basic
import Mathlib.Tactic.Linarith
import Mathlib.Tactic.Ring

/-!
# I2C settings derived from the clock

`i2c_timing_derive` of `hal/transport_hw_gd32.c` and `bridge_i2c_stretch_timeout_reload` of
`hal/gd32/i2c_timeout.c`.  Both are written in checked arithmetic of the widths the source uses.
-/

namespace Gd32Bridge

open Checked

/-! ### PSC, SCLDELY and SDADELY -/

/-- `I2C_TIMING_FIELD_MAX` -/
def i2cTimingFieldMax : ℕ := 15

/-- `I2C_APB1_MIN_HZ_FAST_MODE` -/
def i2cApb1MinHzFastMode : ℕ := 4000000

/-- The three output arguments of `i2c_timing_derive`. -/
structure I2cTiming where
  psc : ℕ
  sclDely : ℕ
  sdaDely : ℕ
deriving DecidableEq, Repr

/-- The ceiling division of `i2c_timing_derive`: `num / t_psc_ps`, rounded up. -/
def i2cTimingCeil (num tPscPs : ℕ) : Option ℕ := do
  div (← sub (← add 64 num tPscPs) 1) tPscPs

/-- `i2c_timing_derive`: the verdict and the output arguments afterwards. -/
def i2cTimingDerive (apb1Hz : UInt32) (out : I2cTiming) : Option (Bool × I2cTiming) :=
  if apb1Hz.toNat < i2cApb1MinHzFastMode then some (false, out)
  else do
    let p ← div apb1Hz.toNat 8000000
    let p ← (if p > 0 then sub p 1 else some p)
    let p := if p > i2cTimingFieldMax then i2cTimingFieldMax else p
    -- picosecond fixed-point, in 64 bits
    let tI2cclkPs ← div 1000000000000 apb1Hz.toNat
    let tPscPs ← mul 64 (← add 32 p 1) tI2cclkPs
    let trMaxPs := 300000
    let tsuDatMinPs := 100000
    let tfMaxPs := 300000
    let dnf3TermPs ← mul 64 3 tI2cclkPs
    let scldelyQ ← i2cTimingCeil (← add 64 trMaxPs tsuDatMinPs) tPscPs
    let scl ← (if scldelyQ > 0 then (sub scldelyQ 1).bind (fit 32) else some 0)
    let sda ← (if tfMaxPs > dnf3TermPs then
        (sub tfMaxPs dnf3TermPs).bind fun num => (i2cTimingCeil num tPscPs).bind (fit 32)
      else some 0)
    if p > i2cTimingFieldMax ∨ scl > i2cTimingFieldMax ∨ sda > i2cTimingFieldMax then
      some (false, out)
    else some (true, ⟨p, scl, sda⟩)

/-- The fields fit their registers and give the data line its set-up and hold times: 400 ns of
SCLDELY, and 300 ns of SDADELY less three clocks. -/
structure I2cTiming.Sound (t : I2cTiming) (f : ℕ) : Prop where
  psc : t.psc ≤ 15
  sclDely : t.sclDely ≤ 15
  sdaDely : t.sdaDely ≤ 15
  setUp : (400 / 10 ^ 9 : ℚ) ≤ (t.sclDely + 1) * ((t.psc + 1) / f)
  hold : (300 / 10 ^ 9 : ℚ) - 3 * (1 / f) ≤ t.sdaDely * ((t.psc + 1) / f)

/-! ### The stretch timeout -/

/-- `BRIDGE_I2C_STRETCH_TIMEOUT_US` -/
def bridgeI2cStretchTimeoutUs : ℕ := 25000

/-- `I2C_TIMEOUT_COUNTER_SCALE` -/
def i2cTimeoutCounterScale : ℕ := 2048

/-- `I2C_TIMEOUT_RELOAD_MAX` -/
def i2cTimeoutReloadMax : ℕ := 4095

/-- `I2C_TIMEOUT_MAX_US` -/
def i2cTimeoutMaxUs : ℕ := 35000

/-- `units * I2C_TIMEOUT_COUNTER_SCALE * 1000000u` -/
def i2cTimeoutScaled (units : ℕ) : Option ℕ := do
  mul 64 (← mul 64 units i2cTimeoutCounterScale) 1000000

/-- `bridge_i2c_stretch_timeout_reload`: the reload, or `none` where the source returns false. -/
def bridgeI2cStretchTimeoutReload (i2cClkHz : UInt32) : Option (Option ℕ) :=
  if i2cClkHz = 0 then some none
  else do
    let want ← mul 64 i2cClkHz.toNat bridgeI2cStretchTimeoutUs
    let units ← div want (← mul 64 i2cTimeoutCounterScale 1000000)
    let covered ← i2cTimeoutScaled units
    let units ← (if covered < want then add 64 units 1 else some units)
    let limit ← add 64 i2cTimeoutReloadMax 1
    let covered ← i2cTimeoutScaled units
    let longest ← mul 64 i2cClkHz.toNat i2cTimeoutMaxUs
    if units = 0 then some none
    else if units > limit then some none
    else if covered > longest then some none
    else ((sub units 1).bind (fit 16)).map some

/-- A reload whose timeout, `(r + 1) * 2048` clocks, lies between 25 ms and 35 ms. -/
def StretchWindow (f r : ℕ) : Prop :=
  (25 / 1000 : ℚ) ≤ (r + 1) * 2048 / f ∧ ((r + 1) * 2048 / f : ℚ) ≤ 35 / 1000

/-! ### The derived timing -/

section Timing

variable {f : UInt32} {out : I2cTiming}

/-- The prescaler field. -/
def timingPsc (f : ℕ) : ℕ :=
  if (if f / 8000000 > 0 then f / 8000000 - 1 else f / 8000000) > i2cTimingFieldMax then
    i2cTimingFieldMax
  else if f / 8000000 > 0 then f / 8000000 - 1 else f / 8000000

/-- `tPSC` in picoseconds. -/
def timingPscPs (f : ℕ) : ℕ := (timingPsc f + 1) * (1000000000000 / f)

/-- The least number of prescaler ticks that last `n` picoseconds. -/
def timingTicks (f n : ℕ) : ℕ := (n + timingPscPs f - 1) / timingPscPs f

/-- The SDADELY field. -/
def timingSda (f : ℕ) : ℕ :=
  if 300000 > 3 * (1000000000000 / f) then
    timingTicks f (300000 - 3 * (1000000000000 / f))
  else 0

lemma timingPsc_le (f : ℕ) : timingPsc f ≤ i2cTimingFieldMax := by
  simp only [timingPsc]
  split_ifs <;> omega

/-- A clock of 32 bits above the floor has a period between 232 ps and 250 ns. -/
lemma clock_ps_bounds {n : ℕ} (hmin : 4000000 ≤ n) (hmax : n < 2 ^ 32) :
    232 ≤ 1000000000000 / n ∧ 1000000000000 / n ≤ 250000 := by
  constructor
  · rw [Nat.le_div_iff_mul_le (by omega)]
    omega
  · calc 1000000000000 / n ≤ 1000000000000 / 4000000 := Nat.div_le_div_left hmin (by omega)
      _ = 250000 := rfl

lemma timingPscPs_bounds {n : ℕ} (hmin : 4000000 ≤ n) (hmax : n < 2 ^ 32) :
    232 ≤ timingPscPs n ∧ timingPscPs n ≤ 4000000 := by
  obtain ⟨hlo, hhi⟩ := clock_ps_bounds hmin hmax
  have hpsc : timingPsc n ≤ 15 := timingPsc_le n
  constructor
  · calc 232 ≤ 1 * (1000000000000 / n) := by omega
      _ ≤ timingPscPs n := Nat.mul_le_mul_right _ (by omega)
  · calc timingPscPs n ≤ 16 * 250000 := Nat.mul_le_mul (by omega) hhi
      _ = 4000000 := rfl

/-- The ticks last long enough. -/
lemma le_timingTicks_mul {n : ℕ} (hmin : 4000000 ≤ n) (hmax : n < 2 ^ 32) (m : ℕ) :
    m ≤ timingTicks n m * timingPscPs n := by
  have hpos := (timingPscPs_bounds hmin hmax).1
  have hdiv := Nat.div_add_mod (m + timingPscPs n - 1) (timingPscPs n)
  have hmod := Nat.mod_lt (m + timingPscPs n - 1) (show timingPscPs n > 0 by omega)
  rw [timingTicks, Nat.mul_comm]
  omega

lemma timingTicks_pos {n m : ℕ} (hmin : 4000000 ≤ n) (hmax : n < 2 ^ 32) (hm : 0 < m) :
    0 < timingTicks n m := by
  have hle := le_timingTicks_mul hmin hmax m
  refine Nat.pos_of_ne_zero fun h0 => ?_
  rw [h0] at hle
  omega

lemma timingTicks_lt {n m : ℕ} (hmin : 4000000 ≤ n) (hmax : n < 2 ^ 32) (hm : m ≤ 400000) :
    timingTicks n m < 2 ^ 32 := by
  have hhi := (timingPscPs_bounds hmin hmax).2
  have hle : timingTicks n m ≤ m + timingPscPs n - 1 := Nat.div_le_self _ _
  omega

/-- The source computes these values, and every operation of it is defined. -/
lemma i2cTimingDerive_eq (hmin : i2cApb1MinHzFastMode ≤ f.toNat) :
    i2cTimingDerive f out =
      if timingPsc f.toNat > i2cTimingFieldMax ∨ timingTicks f.toNat 400000 - 1 > i2cTimingFieldMax ∨
          timingSda f.toNat > i2cTimingFieldMax then some (false, out)
      else some (true, ⟨timingPsc f.toNat, timingTicks f.toNat 400000 - 1, timingSda f.toNat⟩) := by
  have hmax : f.toNat < 2 ^ 32 := f.toNat_lt
  obtain ⟨hlo, hhi⟩ := clock_ps_bounds hmin hmax
  obtain ⟨hplo, hphi⟩ := timingPscPs_bounds hmin hmax
  have hpsc : timingPsc f.toNat ≤ 15 := timingPsc_le _
  have hq := timingTicks_pos hmin hmax (show 0 < 400000 by omega)
  have hqlt := timingTicks_lt hmin hmax (show 400000 ≤ 400000 by omega)
  have hsub : (if f.toNat / 8000000 > 0 then sub (f.toNat / 8000000) 1
      else some (f.toNat / 8000000)) =
      some (if f.toNat / 8000000 > 0 then f.toNat / 8000000 - 1 else f.toNat / 8000000) := by
    split_ifs with h
    · exact sub_of_le h
    · rfl
  have hclk : div 1000000000000 f.toNat = some (1000000000000 / f.toNat) :=
    div_of_pos (Nat.lt_of_lt_of_le (by decide) hmin)
  have htick : mul 64 (timingPsc f.toNat + 1) (1000000000000 / f.toNat) =
      some (timingPscPs f.toNat) :=
    mul_of_lt (show timingPscPs f.toNat < 2 ^ 64 by omega)
  have hceil (n : ℕ) (hn : n ≤ 400000) :
      i2cTimingCeil n (timingPscPs f.toNat) = some (timingTicks f.toNat n) := by
    rw [i2cTimingCeil, add_of_lt (by omega)]
    simp only [Option.bind_eq_bind, Option.bind_some]
    rw [sub_of_le (by omega)]
    exact div_of_pos (by omega)
  rw [i2cTimingDerive, if_neg (Nat.not_lt.mpr hmin), div_of_pos (by decide)]
  simp only [Option.bind_eq_bind, Option.bind_some]
  rw [hsub]
  simp only [Option.bind_some]
  rw [← timingPsc, hclk, add_of_lt (by omega)]
  simp only [Option.bind_some]
  rw [htick, mul_of_lt (by omega), add_of_lt (by decide)]
  simp only [Option.bind_some]
  rw [hceil 400000 (by omega)]
  simp only [Option.bind_some]
  rw [if_pos hq, sub_of_le hq]
  simp only [Option.bind_some]
  rw [fit_of_lt (by omega)]
  have hsda : (if 300000 > 3 * (1000000000000 / f.toNat) then
      (sub 300000 (3 * (1000000000000 / f.toNat))).bind fun num =>
        (i2cTimingCeil num (timingPscPs f.toNat)).bind (fit 32)
      else some 0) = some (timingSda f.toNat) := by
    simp only [timingSda]
    split_ifs with h
    · rw [sub_of_le (by omega)]
      simp only [Option.bind_some]
      rw [hceil _ (by omega)]
      exact fit_of_lt (timingTicks_lt hmin hmax (by omega))
    · rfl
  rw [hsda]
  simp only [Option.bind_some]

/-- What is derived is sound. -/
lemma timing_sound (hmin : i2cApb1MinHzFastMode ≤ f.toNat)
    (hscl : timingTicks f.toNat 400000 - 1 ≤ i2cTimingFieldMax)
    (hsda : timingSda f.toNat ≤ i2cTimingFieldMax) :
    I2cTiming.Sound ⟨timingPsc f.toNat, timingTicks f.toNat 400000 - 1, timingSda f.toNat⟩
      f.toNat := by
  have hmax : f.toNat < 2 ^ 32 := f.toNat_lt
  have hpos : (0 : ℚ) < f.toNat := by
    exact_mod_cast Nat.lt_of_lt_of_le (by decide) hmin
  -- the truncated period is no longer than the clock's
  have hclk : 1000000000000 / f.toNat * f.toNat ≤ 1000000000000 := Nat.div_mul_le_self _ _
  have hscale (ticks extra n : ℕ) (h : n ≤ ticks * timingPscPs f.toNat +
      extra * (1000000000000 / f.toNat)) :
      (n * f.toNat : ℚ) ≤ (ticks * (timingPsc f.toNat + 1) + extra) * 10 ^ 12 := by
    have hnat : n * f.toNat ≤ (ticks * (timingPsc f.toNat + 1) + extra) * 1000000000000 :=
      calc n * f.toNat
          ≤ (ticks * timingPscPs f.toNat + extra * (1000000000000 / f.toNat)) * f.toNat :=
            Nat.mul_le_mul_right _ h
        _ = (ticks * (timingPsc f.toNat + 1) + extra) * (1000000000000 / f.toNat * f.toNat) := by
            rw [timingPscPs]
            ring
        _ ≤ (ticks * (timingPsc f.toNat + 1) + extra) * 1000000000000 :=
            Nat.mul_le_mul_left _ hclk
    exact_mod_cast hnat
  refine ⟨timingPsc_le _, hscl, hsda, ?_, ?_⟩
  · have hq := timingTicks_pos hmin hmax (show 0 < 400000 by omega)
    have h := hscale (timingTicks f.toNat 400000) 0 400000 (by
      rw [Nat.zero_mul, Nat.add_zero]
      exact le_timingTicks_mul hmin hmax 400000)
    have hcast : ((timingTicks f.toNat 400000 - 1 : ℕ) : ℚ) + 1 = timingTicks f.toNat 400000 := by
      rw [Nat.cast_sub hq]
      push_cast
      ring
    simp only [hcast]
    rw [← mul_div_assoc, le_div_iff₀ hpos]
    push_cast at h
    linarith
  · have h := hscale (timingSda f.toNat) 3 300000 (by
      rw [timingSda]
      split_ifs with h
      · have hle := le_timingTicks_mul hmin hmax (300000 - 3 * (1000000000000 / f.toNat))
        omega
      · omega)
    rw [← mul_div_assoc, ← mul_div_assoc, sub_le_iff_le_add, ← add_div, le_div_iff₀ hpos]
    push_cast at h
    linarith

end Timing

/-! ### The least reload -/

section Timeout

variable {f : UInt32}

/-- 25 ms in units of 2048 clocks, rounded up. -/
def timeoutUnits (f : ℕ) : ℕ :=
  if f * 25000 / 2048000000 * 2048 * 1000000 < f * 25000 then f * 25000 / 2048000000 + 1
  else f * 25000 / 2048000000

/-- They are the least that cover it. -/
lemma timeoutUnits_le_iff {n u : ℕ} : timeoutUnits n ≤ u ↔ n * 25000 ≤ u * 2048000000 := by
  have hdiv := Nat.div_add_mod (n * 25000) 2048000000
  have hmod := Nat.mod_lt (n * 25000) (show 2048000000 > 0 by omega)
  simp only [timeoutUnits]
  split_ifs <;> omega

lemma bridgeI2cStretchTimeoutReload_eq (hf : f ≠ 0) :
    bridgeI2cStretchTimeoutReload f =
      if timeoutUnits f.toNat = 0 then some none
      else if timeoutUnits f.toNat > 4096 then some none
      else if timeoutUnits f.toNat * 2048 * 1000000 > f.toNat * 35000 then some none
      else some (some (timeoutUnits f.toNat - 1)) := by
  have hmax : f.toNat < 2 ^ 32 := f.toNat_lt
  have hunits : timeoutUnits f.toNat ≤ 60000 := timeoutUnits_le_iff.mpr (by omega)
  have hquot : f.toNat * 25000 / 2048000000 ≤ 60000 := by omega
  have hscaled (u : ℕ) (hu : u ≤ 60000) : i2cTimeoutScaled u = some (u * 2048 * 1000000) := by
    simp only [i2cTimeoutScaled, i2cTimeoutCounterScale, Option.bind_eq_bind]
    rw [mul_of_lt (by omega), Option.bind_some, mul_of_lt (by omega)]
  have hround : (if f.toNat * 25000 / 2048000000 * 2048 * 1000000 < f.toNat * 25000 then
      add 64 (f.toNat * 25000 / 2048000000) 1 else some (f.toNat * 25000 / 2048000000)) =
      some (timeoutUnits f.toNat) := by
    simp only [timeoutUnits]
    split_ifs
    · exact add_of_lt (by omega)
    · rfl
  simp only [bridgeI2cStretchTimeoutReload, if_neg hf, bridgeI2cStretchTimeoutUs,
    i2cTimeoutCounterScale, i2cTimeoutReloadMax, i2cTimeoutMaxUs, Option.bind_eq_bind]
  have hscale : mul 64 2048 1000000 = some 2048000000 := by decide
  have hlimit : add 64 4095 1 = some 4096 := by decide
  rw [mul_of_lt (by omega), Option.bind_some, hscale, Option.bind_some, div_of_pos (by decide),
    Option.bind_some, hscaled _ hquot, Option.bind_some, hround, Option.bind_some, hlimit,
    Option.bind_some, hscaled _ hunits, Option.bind_some, mul_of_lt (by omega), Option.bind_some]
  split_ifs with h0 h1 h2
  · rfl
  · rfl
  · rfl
  · rw [sub_of_le (Nat.pos_of_ne_zero h0), Option.bind_some, fit_of_lt (by omega)]
    rfl

lemma stretchWindow_iff {n r : ℕ} (hn : 0 < n) :
    StretchWindow n r ↔ n * 25000 ≤ (r + 1) * 2048000000 ∧ (r + 1) * 2048000000 ≤ n * 35000 := by
  have hpos : (0 : ℚ) < n := by exact_mod_cast hn
  rw [StretchWindow, le_div_iff₀ hpos, div_le_iff₀ hpos]
  constructor
  · rintro ⟨hlo, hhi⟩
    constructor
    · have h : ((n * 25000 : ℕ) : ℚ) ≤ ((r + 1) * 2048000000 : ℕ) := by
        push_cast
        linarith
      exact_mod_cast h
    · have h : (((r + 1) * 2048000000 : ℕ) : ℚ) ≤ (n * 35000 : ℕ) := by
        push_cast
        linarith
      exact_mod_cast h
  · rintro ⟨hlo, hhi⟩
    have hlo' : ((n * 25000 : ℕ) : ℚ) ≤ ((r + 1) * 2048000000 : ℕ) := by exact_mod_cast hlo
    have hhi' : (((r + 1) * 2048000000 : ℕ) : ℚ) ≤ (n * 35000 : ℕ) := by exact_mod_cast hhi
    push_cast at hlo' hhi'
    constructor <;> linarith

/-- The reload is found exactly when there is one, and is the least. -/
lemma timeout_exact (f : UInt32) :
    ∃ reload, bridgeI2cStretchTimeoutReload f = some reload ∧
      (reload.isSome ↔ ∃ r ≤ 4095, StretchWindow f.toNat r) ∧
      ∀ r, reload = some r → IsLeast {r | r ≤ 4095 ∧ StretchWindow f.toNat r} r := by
  by_cases hf : f = 0
  · refine ⟨none, by rw [bridgeI2cStretchTimeoutReload, if_pos hf], ?_, fun r hr => by cases hr⟩
    refine ⟨fun h => absurd h (by decide), ?_⟩
    rintro ⟨r, -, hlo, -⟩
    rw [hf, UInt32.toNat_zero, Nat.cast_zero, div_zero] at hlo
    norm_num at hlo
  have hpos : 0 < f.toNat := Nat.pos_of_ne_zero fun h0 => hf (UInt32.toNat_inj.mp h0)
  have hunits : 0 < timeoutUnits f.toNat := by
    rw [Nat.pos_iff_ne_zero]
    intro h0
    have := timeoutUnits_le_iff.mp (Nat.le_of_eq h0)
    omega
  have hwindow (r : ℕ) : StretchWindow f.toNat r ↔
      timeoutUnits f.toNat ≤ r + 1 ∧ (r + 1) * 2048000000 ≤ f.toNat * 35000 := by
    rw [stretchWindow_iff hpos, timeoutUnits_le_iff]
  rw [bridgeI2cStretchTimeoutReload_eq hf, if_neg (Nat.ne_of_gt hunits)]
  by_cases hlimit : timeoutUnits f.toNat > 4096
  · refine ⟨none, if_pos hlimit, ⟨fun h => absurd h (by decide), ?_⟩, fun r hr => by cases hr⟩
    rintro ⟨r, hr, hw⟩
    have := ((hwindow r).mp hw).1
    omega
  rw [if_neg hlimit]
  by_cases hlong : timeoutUnits f.toNat * 2048 * 1000000 > f.toNat * 35000
  · refine ⟨none, if_pos hlong, ⟨fun h => absurd h (by decide), ?_⟩, fun r hr => by cases hr⟩
    rintro ⟨r, hr, hw⟩
    have := (hwindow r).mp hw
    omega
  · have hleast : IsLeast {r | r ≤ 4095 ∧ StretchWindow f.toNat r} (timeoutUnits f.toNat - 1) := by
      constructor
      · exact ⟨by omega, (hwindow _).mpr (by omega)⟩
      · rintro r ⟨-, hw⟩
        have := ((hwindow r).mp hw).1
        omega
    refine ⟨some (timeoutUnits f.toNat - 1), if_neg hlong, ⟨fun _ => ?_, fun _ => rfl⟩, ?_⟩
    · exact ⟨_, hleast.1.1, hleast.1.2⟩
    · rintro r ⟨⟩
      exact hleast

end Timeout

/-- For every clock of 32 bits: both derivations are free of overflow and division by zero; an
accepted timing fits its registers and meets the set-up and hold times, a refused one leaves the
arguments alone; and a stretch timeout is found exactly when the 12-bit reload can express one
between 25 ms and 35 ms, and then is the shortest. -/
theorem i2c_clock_config_sound (f : UInt32) (out : I2cTiming) :
    (∃ ok out', i2cTimingDerive f out = some (ok, out') ∧ (ok = true → out'.Sound f.toNat) ∧
      (ok = false → out' = out)) ∧
    (∃ reload, bridgeI2cStretchTimeoutReload f = some reload ∧
      (reload.isSome ↔ ∃ r ≤ 4095, StretchWindow f.toNat r) ∧
      ∀ r, reload = some r → IsLeast {r | r ≤ 4095 ∧ StretchWindow f.toNat r} r) := by
  refine ⟨?_, timeout_exact f⟩
  by_cases hmin : f.toNat < i2cApb1MinHzFastMode
  · exact ⟨false, out, if_pos hmin, fun h => absurd h (by decide), fun _ => rfl⟩
  · rw [i2cTimingDerive_eq (Nat.not_lt.mp hmin)]
    split_ifs with h
    · exact ⟨false, out, rfl, fun h => absurd h (by decide), fun _ => rfl⟩
    · obtain ⟨-, hscl, hsda⟩ := not_or.mp h |>.imp_right not_or.mp
      exact ⟨true, _, rfl, fun _ => timing_sound (Nat.not_lt.mp hmin) (Nat.not_lt.mp hscl)
        (Nat.not_lt.mp hsda), fun h => absurd h (by decide)⟩

/-- The worked example of the source, 216 MHz. -/
example (out : I2cTiming) : i2cTimingDerive 216000000 out = some (true, ⟨15, 5, 4⟩) := by
  rfl

end Gd32Bridge
