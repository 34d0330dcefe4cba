import Gd32Bridge.Lib.Checked
import Gd32Bridge.Pwm.OneShot

/-!
# PWM_SET and PWM_GET

The encoder of `pwm_set.c` and the decoder of `pwm.c` agree up to the unit of the alignment, in
arithmetic that never leaves 32 bits and with values that fit the 16-bit registers.
-/

namespace Gd32Bridge

open Checked Transition

/-! ### The two conversions in checked arithmetic -/

/-- `pwm_counter_values` with every operation checked. -/
def pwmCounterValuesChecked (periodNs dutyNs : ℕ) (centerAligned : Bool) :
    Option (Except HwRv (ℕ × ℕ)) := do
  let maxPeriodTicks ← (if centerAligned then mul 32 2 pwmTimerArrMax else add 32 pwmTimerArrMax 1)
  let maxPeriodNs ← mul 32 maxPeriodTicks pwmTimerTickNs
  if periodNs > maxPeriodNs then some (.error .range)
  else do
    let periodTicks ← div periodNs pwmTimerTickNs
    let dutyTicks ← div dutyNs pwmTimerTickNs
    if periodTicks = 0 then some (.error .range)
    else if ¬ centerAligned then do
      let arr ← sub periodTicks 1
      if arr > pwmTimerArrMax ∨ dutyTicks > pwmTimerArrMax then some (.error .range)
      else some (.ok (arr, dutyTicks))
    else do
      let halfPeriod ← div periodTicks 2
      if halfPeriod = 0 then some (.error .range)
      else do
        let compare ← div dutyTicks 2
        if halfPeriod > pwmTimerArrMax ∨ compare > pwmTimerArrMax then some (.error .range)
        else some (.ok (halfPeriod, compare))

/-- The body of `bridge_hw_pwm_get`, with every operation checked: period and duty in ns. -/
def PwmTimer.get (tm : PwmTimer) (ch : ℕ) : Option (ℕ × ℕ) := do
  let car := tm.car % 2 ^ 16
  let top ← add 32 car 1
  let compare := (tm.channels ch).compare
  let cv := if compare > top then top else compare
  if (tm.channels ch).oneShot then
    let periodNs ← mul 32 top pwmTimerTickNs
    -- the source has `car - cv + 1u`, where `car - cv` may wrap
    let dutyNs ← mul 32 (← sub top cv) pwmTimerTickNs
    some (periodNs, dutyNs)
  else if tm.alignMode = 0 then
    let periodNs ← mul 32 top pwmTimerTickNs
    let dutyNs ← mul 32 cv pwmTimerTickNs
    some (periodNs, dutyNs)
  else
    let periodNs ← mul 32 (← mul 32 2 car) pwmTimerTickNs
    let dutyNs ← mul 32 (← mul 32 2 cv) pwmTimerTickNs
    some (periodNs, if dutyNs > periodNs then periodNs else dutyNs)

/-- `bridge_hw_pwm_get` -/
def Pwm.get (s : Pwm) (ch : ℕ) : Option (HwRv × ℕ × ℕ) :=
  if ch ≥ pwmChannelCount then some (.range, 0, 0)
  else ((s.timers (pwmTimerIndex ch)).get ch).map fun x => (.ok, x.1, x.2)

/-- No operation of the encoder overflows. -/
lemma pwmCounterValuesChecked_eq (periodNs dutyNs : ℕ) (centerAligned : Bool) :
    pwmCounterValuesChecked periodNs dutyNs centerAligned =
      some (pwmCounterValues periodNs dutyNs centerAligned) := by
  have hdiv (n : ℕ) : div n pwmTimerTickNs = some (n / pwmTimerTickNs) := div_of_pos (by decide)
  have hhalf (n : ℕ) : div n 2 = some (n / 2) := div_of_pos (by decide)
  rw [pwmCounterValuesChecked, pwmCounterValues]
  cases centerAligned with
  | false =>
    have hmax : add 32 pwmTimerArrMax 1 = some (pwmTimerArrMax + 1) := add_of_lt (by decide)
    have hns : mul 32 (pwmTimerArrMax + 1) pwmTimerTickNs =
        some ((pwmTimerArrMax + 1) * pwmTimerTickNs) := mul_of_lt (by decide)
    simp only [Bool.false_eq_true, if_false, hmax, hns, hdiv, bind, Option.bind, not_false_eq_true,
      if_true]
    by_cases hbig : periodNs > (pwmTimerArrMax + 1) * pwmTimerTickNs
    · rw [if_pos hbig, if_pos hbig]
    rw [if_neg hbig, if_neg hbig]
    by_cases hzero : periodNs / pwmTimerTickNs = 0
    · rw [if_pos hzero, if_pos hzero]
    rw [if_neg hzero, if_neg hzero, sub_of_le (Nat.one_le_iff_ne_zero.mpr hzero)]
    simp only
    split_ifs
    · rfl
    · rfl
  | true =>
    have hmax : mul 32 2 pwmTimerArrMax = some (2 * pwmTimerArrMax) := mul_of_lt (by decide)
    have hns : mul 32 (2 * pwmTimerArrMax) pwmTimerTickNs =
        some (2 * pwmTimerArrMax * pwmTimerTickNs) := mul_of_lt (by decide)
    simp only [if_true, hmax, hns, hdiv, hhalf, bind, Option.bind, not_true_eq_false, if_false]
    split_ifs
    all_goals rfl

/-! ### The values a set programs -/

/-- The unit of an alignment, in ns. -/
def pwmUnitNs (alignMode : ℕ) : ℕ := if alignMode = 0 then pwmTimerTickNs else 2 * pwmTimerTickNs

/-- The longest period of an alignment, in ns. -/
def pwmMaxPeriodNs (alignMode : ℕ) : ℕ :=
  (if alignMode = 0 then pwmTimerArrMax + 1 else 2 * pwmTimerArrMax) * pwmTimerTickNs

/-- The reload for a period of so many units. -/
def pwmReload (alignMode units : ℕ) : ℕ := if alignMode = 0 then units - 1 else units

/-- What is accepted, and what it is encoded to. -/
lemma pwmCounterValues_ok_iff {periodNs dutyNs alignMode arr compare : ℕ} :
    pwmCounterValues periodNs dutyNs (alignMode ≠ 0) = .ok (arr, compare) ↔
      periodNs ≤ pwmMaxPeriodNs alignMode ∧ 0 < periodNs / pwmUnitNs alignMode ∧
      arr = pwmReload alignMode (periodNs / pwmUnitNs alignMode) ∧ arr ≤ pwmTimerArrMax ∧
      compare = dutyNs / pwmUnitNs alignMode ∧ compare ≤ pwmTimerArrMax := by
  by_cases halign : alignMode = 0
  · simp only [pwmCounterValues, pwmMaxPeriodNs, pwmUnitNs, pwmReload, halign, ne_eq,
      not_true_eq_false, decide_false, Bool.false_eq_true, if_false, not_false_eq_true, if_true]
    generalize periodNs / pwmTimerTickNs = ticks
    split_ifs with hbig hzero hfit
    · simp only [false_iff]
      omega
    · simp only [false_iff]
      omega
    · simp only [false_iff]
      omega
    · simp only [Except.ok.injEq, Prod.mk.injEq]
      omega
  · simp only [pwmCounterValues, pwmMaxPeriodNs, pwmUnitNs, pwmReload, halign, ne_eq,
      not_false_eq_true, decide_true, not_true_eq_false, if_false, if_true,
      Nat.mul_comm 2 pwmTimerTickNs, ← Nat.div_div_eq_div_mul]
    split_ifs with hbig hzero hhalf hfit
    · simp only [false_iff]
      omega
    · simp only [false_iff]
      omega
    · simp only [false_iff]
      omega
    · simp only [false_iff]
      omega
    · simp only [Except.ok.injEq, Prod.mk.injEq]
      omega

lemma pwmUnitNs_pos (alignMode : ℕ) : 0 < pwmUnitNs alignMode := by
  rw [pwmUnitNs]
  split_ifs
  · decide
  · decide

/-- The rounded request is encoded to the same values. -/
lemma pwmCounterValues_rounded {periodNs dutyNs alignMode arr compare : ℕ}
    (h : pwmCounterValues periodNs dutyNs (alignMode ≠ 0) = .ok (arr, compare)) :
    pwmCounterValues (periodNs / pwmUnitNs alignMode * pwmUnitNs alignMode)
      (dutyNs / pwmUnitNs alignMode * pwmUnitNs alignMode) (alignMode ≠ 0) =
        .ok (arr, compare) := by
  rw [pwmCounterValues_ok_iff] at h ⊢
  obtain ⟨hmax, hrest⟩ := h
  rw [Nat.mul_div_cancel _ (pwmUnitNs_pos alignMode),
    Nat.mul_div_cancel _ (pwmUnitNs_pos alignMode)]
  exact ⟨Nat.le_trans (Nat.div_mul_le_self _ _) hmax, hrest⟩

/-! ### The timer after a set -/

/-- The registers and variables that PWM_GET and the next PWM_SET look at. -/
structure PwmTimer.Holds (tm : PwmTimer) (ch arr compare alignMode : ℕ) : Prop where
  car : tm.car = arr
  compare : (tm.channels ch).compare = compare
  oneShot : (tm.channels ch).oneShot = false
  alignMode : tm.alignMode = alignMode
  running : tm.cen = true
  repeating : tm.spm = false

variable {tm : PwmTimer} {ch arr compare alignMode : ℕ}

lemma PwmTimer.Holds.promote (h : tm.Holds ch arr compare alignMode) :
    tm.promote.Holds ch arr compare alignMode :=
  ⟨h.car, h.compare, h.oneShot, h.alignMode, h.running, h.repeating⟩

lemma PwmTimer.Holds.overflow (h : tm.Holds ch arr compare alignMode) (cnt : ℕ) (down : Bool) :
    (tm.overflow cnt down).Holds ch arr compare alignMode := by
  refine PwmTimer.Holds.promote ⟨h.car, h.compare, h.oneShot, h.alignMode, ?_, h.repeating⟩
  simp only [h.repeating, Bool.not_false]

/-- The preload and the variables outlive the ticks of the timer. -/
lemma PwmTimer.Holds.tick (h : tm.Holds ch arr compare alignMode) :
    tm.tick.Holds ch arr compare alignMode := by
  have hcnt (cnt : ℕ) : PwmTimer.Holds { tm with cnt } ch arr compare alignMode :=
    ⟨h.car, h.compare, h.oneShot, h.alignMode, h.running, h.repeating⟩
  rw [PwmTimer.tick]
  split_ifs
  · exact h.overflow _ _
  · exact hcnt _
  · exact h.overflow _ _
  · exact hcnt _
  · exact hcnt _
  · exact h.overflow _ _
  · exact h

/-- Programming the timer: it is refused or leaves the values in the preload. -/
lemma PwmTimer.applyCounterValues_cases (tm : PwmTimer) (ch arr compare : ℕ) :
    (¬ tm.cen ∧ tm.syncMaster ∧ tm.applyCounterValues ch arr compare = ⟨tm, .busy, ()⟩) ∨
      ((tm.applyCounterValues ch arr compare).rv = .ok ∧
        (tm.applyCounterValues ch arr compare).hw.Holds ch arr compare tm.alignMode ∧
        ∀ c, c ≠ ch → ((tm.applyCounterValues ch arr compare).hw.channels c).compare =
          (tm.channels c).compare) := by
  rw [PwmTimer.applyCounterValues]
  by_cases hbusy : ¬ tm.cen ∧ tm.syncMaster
  · rw [if_pos hbusy]
    exact .inl ⟨hbusy.1, hbusy.2, rfl⟩
  rw [if_neg hbusy]
  have hself : Function.update tm.channels ch ((tm.channels ch).continuous compare) ch =
      (tm.channels ch).continuous compare := Function.update_self _ _ _
  refine .inr ⟨rfl, ?_, fun c hc => ?_⟩
  · cases tm.cen with
    | true =>
      exact ⟨rfl, congrArg PwmChannel.compare hself, congrArg PwmChannel.oneShot hself, rfl, rfl,
        rfl⟩
    | false =>
      exact ⟨rfl, congrArg PwmChannel.compare hself, congrArg PwmChannel.oneShot hself, rfl, rfl,
        rfl⟩
  · have hother : (Function.update tm.channels ch ((tm.channels ch).continuous compare) c).compare =
        (tm.channels c).compare := by rw [Function.update_of_ne hc]
    cases tm.cen with
    | true => exact hother
    | false => exact hother

/-- The encoder refuses with one code only. -/
lemma pwmCounterValues_error {periodNs dutyNs : ℕ} {centerAligned : Bool} {rv : HwRv}
    (h : pwmCounterValues periodNs dutyNs centerAligned = .error rv) : rv = .range := by
  simp only [pwmCounterValues] at h
  split_ifs at h <;> cases h <;> rfl

/-- An accepted set programs what its request is encoded to. -/
lemma PwmTimer.set_ok {periodNs dutyNs : ℕ} (h : (tm.set ch periodNs dutyNs).rv = .ok) :
    dutyNs ≤ periodNs ∧ ∃ arr compare,
      pwmCounterValues periodNs dutyNs (tm.alignMode ≠ 0) = .ok (arr, compare) ∧
      tm.set ch periodNs dutyNs = tm.applyCounterValues ch arr compare := by
  simp only [PwmTimer.set] at h ⊢
  by_cases hd : dutyNs > periodNs
  · rw [if_pos hd] at h
    cases h
  rw [if_neg hd] at h ⊢
  cases hv : pwmCounterValues periodNs dutyNs (tm.alignMode ≠ 0) with
  | error rv =>
    rw [hv, pwmCounterValues_error hv] at h
    cases h
  | ok x =>
    obtain ⟨arr, compare⟩ := x
    exact ⟨Nat.not_lt.mp hd, arr, compare, rfl, rfl⟩

/-- What PWM_GET makes of the values of an accepted request. -/
lemma PwmTimer.Holds.get {periodNs dutyNs : ℕ} (h : tm.Holds ch arr compare alignMode)
    (hd : dutyNs ≤ periodNs)
    (hv : pwmCounterValues periodNs dutyNs (alignMode ≠ 0) = .ok (arr, compare)) :
    tm.get ch = some (periodNs / pwmUnitNs alignMode * pwmUnitNs alignMode,
      dutyNs / pwmUnitNs alignMode * pwmUnitNs alignMode) := by
  obtain ⟨-, hpos, harr, harrmax, hcmp, -⟩ := pwmCounterValues_ok_iff.mp hv
  have hle : dutyNs / pwmUnitNs alignMode ≤ periodNs / pwmUnitNs alignMode :=
    Nat.div_le_div_right hd
  have hfit : arr < 2 ^ 16 := Nat.lt_succ_of_le harrmax
  rw [← hcmp] at hle ⊢
  generalize periodNs / pwmUnitNs alignMode = units at hpos harr hle ⊢
  have htop : add 32 arr 1 = some (arr + 1) := add_of_lt (by omega)
  have hcv : ¬ compare > arr + 1 := by
    rw [pwmReload] at harr
    split_ifs at harr <;> omega
  rw [PwmTimer.get]
  simp only [h.car, h.compare, h.oneShot, h.alignMode, Nat.mod_eq_of_lt hfit, htop, bind,
    Option.bind, if_neg hcv, Bool.false_eq_true, if_false]
  by_cases halign : alignMode = 0
  · have hunits : arr + 1 = units := by
      rw [harr, pwmReload, if_pos halign]
      exact Nat.sub_add_cancel hpos
    have hunit : pwmUnitNs alignMode = pwmTimerTickNs := if_pos halign
    have hperiod : mul 32 units pwmTimerTickNs = some (units * pwmTimerTickNs) := by
      refine mul_of_lt ?_
      rw [pwmTimerTickNs]
      omega
    have hduty : mul 32 compare pwmTimerTickNs = some (compare * pwmTimerTickNs) := by
      refine mul_of_lt ?_
      rw [pwmTimerTickNs]
      omega
    rw [if_pos halign, hunits, hperiod, hduty, hunit]
  · have hunits : arr = units := by
      rw [harr, pwmReload, if_neg halign]
    have hunit : pwmUnitNs alignMode = 2 * pwmTimerTickNs := if_neg halign
    have hmul {n : ℕ} (hn : n < 2 ^ 16) : mul 32 2 n = some (2 * n) := mul_of_lt (by omega)
    have hns {n : ℕ} (hn : n < 2 ^ 16) :
        mul 32 (2 * n) pwmTimerTickNs = some (n * (2 * pwmTimerTickNs)) := by
      rw [mul_of_lt (by rw [pwmTimerTickNs]; omega), Nat.mul_comm 2 n, Nat.mul_assoc]
    have hcmpfit : compare < 2 ^ 16 := by omega
    have hclamp : ¬ compare * (2 * pwmTimerTickNs) > arr * (2 * pwmTimerTickNs) := by
      rw [hunits]
      exact Nat.not_lt.mpr (Nat.mul_le_mul_right _ hle)
    rw [if_neg halign, hmul hfit, hmul hcmpfit]
    simp only [hns hfit, hns hcmpfit, if_neg hclamp]
    rw [hunit, hunits]

/-! ### Runs that leave the timer alone -/

/-- The operation is no command on the timer of the channel. -/
def PwmOp.Elsewhere (ch : ℕ) : PwmOp → Prop
  | .command c _ => pwmTimerIndex c ≠ pwmTimerIndex ch
  | .tick _ => True

/-- The values outlive every such run. -/
lemma PwmTimer.Holds.of_reach {s₀ s : Pwm}
    (h₀ : (s₀.timers (pwmTimerIndex ch)).Holds ch arr compare alignMode)
    (h : Reach pwmStep (fun s => s = s₀) (fun _ op _ => op.Elsewhere ch) s) :
    (s.timers (pwmTimerIndex ch)).Holds ch arr compare alignMode := by
  refine Reach.invariant
    (I := fun s => (s.timers (pwmTimerIndex ch)).Holds ch arr compare alignMode) ?_ ?_ h
  · rintro s rfl
    exact h₀
  · intro s op s' _ hs hstep helse
    cases op with
    | command c cmd =>
      cases hstep
      by_cases hc : c < pwmChannelCount
      · rw [Pwm.command_timers hc, Function.update_of_ne helse.symm]
        exact hs
      · have hsame : (s.command c cmd).hw = s := by
          rw [Pwm.command, if_pos (Nat.not_lt.mp hc)]
        rw [hsame]
        exact hs
    | tick t =>
      cases hstep
      by_cases ht : pwmTimerIndex ch = t
      · subst ht
        simp only [Function.update_self]
        exact hs.tick
      · simp only [Function.update_of_ne ht]
        exact hs

/-- The arithmetic of a request and the values it programs. -/
structure PwmEncoded (periodNs dutyNs alignMode : ℕ) : Prop where
  /-- no operation of the encoder overflows -/
  checked : pwmCounterValuesChecked periodNs dutyNs (alignMode ≠ 0) =
    some (pwmCounterValues periodNs dutyNs (alignMode ≠ 0))
  /-- both values fit their registers -/
  fits : ∀ arr compare, pwmCounterValues periodNs dutyNs (alignMode ≠ 0) = .ok (arr, compare) →
    arr < 2 ^ 16 ∧ compare < 2 ^ 16

lemma pwmEncoded (periodNs dutyNs alignMode : ℕ) : PwmEncoded periodNs dutyNs alignMode := by
  refine ⟨pwmCounterValuesChecked_eq _ _ _, fun arr compare hv => ?_⟩
  obtain ⟨-, -, -, harr, -, hcmp⟩ := pwmCounterValues_ok_iff.mp hv
  exact ⟨Nat.lt_succ_of_le harr, Nat.lt_succ_of_le hcmp⟩

/-- A refused PWM_SET changes nothing.  After an accepted one, and whatever happens that is no
command on the timer, PWM_GET returns the request rounded down to the unit, and the rounded request
is accepted and programs the values that are there. -/
theorem pwm_set_get_round_trip (s : Pwm) (ch periodNs dutyNs : ℕ) :
    let tm := s.timers (pwmTimerIndex ch)
    let r := s.command ch (.set periodNs dutyNs)
    let period' := periodNs / pwmUnitNs tm.alignMode * pwmUnitNs tm.alignMode
    let duty' := dutyNs / pwmUnitNs tm.alignMode * pwmUnitNs tm.alignMode
    PwmEncoded periodNs dutyNs tm.alignMode ∧
      (r.rv ≠ .ok → r.hw = s) ∧
      (r.rv = .ok → ∀ s', Reach pwmStep (fun s => s = r.hw) (fun _ op _ => op.Elsewhere ch) s' →
        s'.get ch = some (.ok, period', duty') ∧ duty' ≤ period' ∧
        (s'.command ch (.set period' duty')).rv = .ok ∧
        ((s'.command ch (.set period' duty')).hw.timers (pwmTimerIndex ch)).car =
          (s'.timers (pwmTimerIndex ch)).car ∧
        ∀ c, (((s'.command ch (.set period' duty')).hw.timers
            (pwmTimerIndex ch)).channels c).compare =
          ((s'.timers (pwmTimerIndex ch)).channels c).compare) := by
  intro tm r period' duty'
  refine ⟨pwmEncoded _ _ _, Pwm.command_of_refused, fun hok s' hreach => ?_⟩
  by_cases hch : ch < pwmChannelCount
  swap
  · have hrange : r.rv = .range := by
      simp only [r, Pwm.command, if_pos (Nat.not_lt.mp hch)]
    rw [hrange] at hok
    cases hok
  have hserve (s : Pwm) (p d : ℕ) : (s.command ch (.set p d)).rv =
      ((s.timers (pwmTimerIndex ch)).set ch p d).rv := Pwm.command_rv hch
  have htimer (s : Pwm) (p d : ℕ) : (s.command ch (.set p d)).hw.timers (pwmTimerIndex ch) =
      ((s.timers (pwmTimerIndex ch)).set ch p d).hw := by
    rw [Pwm.command_timers hch, Function.update_self]
    rfl
  obtain ⟨hd, arr, compare, hv, heq⟩ := PwmTimer.set_ok ((hserve s periodNs dutyNs).symm.trans hok)
  -- the registers after the first set, and after any run that leaves the timer alone
  have hafter : (r.hw.timers (pwmTimerIndex ch)).Holds ch arr compare tm.alignMode := by
    rcases tm.applyCounterValues_cases ch arr compare with ⟨-, -, hbusy⟩ | ⟨-, hholds, -⟩
    · rw [hserve, heq, hbusy] at hok
      cases hok
    · rw [htimer, heq]
      exact hholds
  have hholds := hafter.of_reach hreach
  have hrounded : duty' ≤ period' := Nat.mul_le_mul_right _ (Nat.div_le_div_right hd)
  -- the second set finds the timer running
  have hagain : (s'.timers (pwmTimerIndex ch)).set ch period' duty' =
      (s'.timers (pwmTimerIndex ch)).applyCounterValues ch arr compare := by
    rw [PwmTimer.set, if_neg (Nat.not_lt.mpr hrounded), hholds.alignMode,
      pwmCounterValues_rounded hv]
  have hcases := (s'.timers (pwmTimerIndex ch)).applyCounterValues_cases ch arr compare
  rw [← hagain] at hcases
  rcases hcases with ⟨hhalted, -, -⟩ | ⟨haccept, hsame, hother⟩
  · exact absurd hholds.running hhalted
  refine ⟨?_, hrounded, (hserve s' period' duty').trans haccept, ?_, fun c => ?_⟩
  · rw [Pwm.get, if_neg (Nat.not_le.mpr hch), hholds.get hd hv]
    rfl
  · rw [htimer, hsame.car, hholds.car]
  · rw [htimer]
    by_cases hc : c = ch
    · rw [hc, hsame.compare, hholds.compare]
    · exact hother c hc

/-- 1.5 ms with a duty of 333.7 us, edge-aligned. -/
theorem pwm_set_get_round_trip_edge :
    ((Pwm.boot fun _ => false).command 2 (.set 1500999 333700)).rv = .ok ∧
      ((Pwm.boot fun _ => false).command 2 (.set 1500999 333700)).hw.get 2 =
        some (.ok, 1500000, 333000) :=
  ⟨rfl, ((pwm_set_get_round_trip (Pwm.boot fun _ => false) 2 1500999 333700).2.2 rfl _
    (.start rfl)).1⟩

end Gd32Bridge
