import Gd32Bridge.Lib.Transition
import Gd32Bridge.Protocol.Hal
import Mathlib.Tactic.Common

/-!
# The PWM timers

`hal/gd32/pwm.c`, `pwm_set.c`, `pwm_ownership.h` and the output stage of `pwm_capture.c`.  A timer
has one counter, one reload and the counter-enable and single-pulse bits for its four channels; a
channel has its compare mode and value.  Reload and compare are written to a preload that the next
update event transfers.  A command is one step, a tick of a timer another.
-/

namespace Gd32Bridge

/-- `PWM_CHANNEL_COUNT` -/
def pwmChannelCount : ℕ := 8
/-- `PWM_TIMER_TICK_NS` -/
def pwmTimerTickNs : ℕ := 1000
/-- `PWM_TIMER_ARR_MAX` -/
def pwmTimerArrMax : ℕ := 0xFFFF
/-- `PWM_ONE_SHOT_DELAY_TICKS` -/
def pwmOneShotDelayTicks : ℕ := 1

/-- The two compare modes: output active while CNT < CHxCV, or inactive while CNT < CHxCV. -/
inductive PwmMode
  | pwm0
  | pwm1
deriving DecidableEq, Repr

/-- A channel: OCxM, CHxCV as written and as in use, whether the output stage drives the pad, and
`pwm_one_shot`. -/
structure PwmChannel where
  mode : PwmMode
  compare : ℕ
  compareActive : ℕ
  driving : Bool
  oneShot : Bool
deriving DecidableEq, Repr

/-- A timer: CNT and the direction a centre-aligned count has, CAR as written and as in use,
CTL0.CEN, SPM and CAM, `pwm_align_mode`, `pwm_timer_claims`, whether it is a live sync master, and
its channels by their PWM number. -/
structure PwmTimer where
  cnt : ℕ
  down : Bool
  car : ℕ
  carActive : ℕ
  cen : Bool
  spm : Bool
  cam : ℕ
  alignMode : ℕ
  claims : UInt8
  syncMaster : Bool
  channels : ℕ → PwmChannel

/-- `pwm_channel_init` after reset, where the preload is not yet in use. -/
def PwmChannel.boot : PwmChannel := ⟨.pwm0, 0, 0, true, false⟩

/-- `pwm_timer_init` and the `pwm_channel_init` of its channels. -/
def PwmTimer.boot (syncMaster : Bool) : PwmTimer :=
  ⟨0, false, pwmTimerArrMax, pwmTimerArrMax, true, false, 0, 0, 0, syncMaster, fun _ => .boot⟩

/-! ### The hardware -/

/-- An update event: the preloads take effect. -/
def PwmTimer.promote (tm : PwmTimer) : PwmTimer :=
  { tm with
    carActive := tm.car
    channels := fun ch => { tm.channels ch with compareActive := (tm.channels ch).compare } }

/-- The update event at the end of a count; single-pulse mode clears CEN with it. -/
def PwmTimer.overflow (tm : PwmTimer) (cnt : ℕ) (down : Bool) : PwmTimer :=
  { tm with cnt, down, cen := !tm.spm }.promote

/-- `TIMER_EVENT_SRC_UPG`: an update event that also clears the counter. -/
def PwmTimer.upg (tm : PwmTimer) : PwmTimer := { tm with cnt := 0 }.promote

/-- One tick of the prescaled clock.  Edge-aligned the counter runs `0..CAR` and starts over;
centre-aligned it runs up to CAR and down to 0, with an update event at either end. -/
def PwmTimer.tick (tm : PwmTimer) : PwmTimer :=
  if ¬ tm.cen then tm
  else if tm.cam = 0 then
    if tm.cnt = tm.carActive then tm.overflow 0 tm.down
    else { tm with cnt := (tm.cnt + 1) % 2 ^ 16 }
  else if tm.down then
    if tm.cnt ≤ 1 then tm.overflow 0 false else { tm with cnt := tm.cnt - 1 }
  else if tm.cnt + 1 < tm.carActive then { tm with cnt := tm.cnt + 1 }
  else tm.overflow tm.carActive true

/-- The compare output of a channel. -/
def PwmChannel.output (c : PwmChannel) (cnt : ℕ) : Bool :=
  match c.mode with
  | .pwm0 => decide (cnt < c.compareActive)
  | .pwm1 => !decide (cnt < c.compareActive)

/-- The pad of a channel is active. -/
def PwmTimer.pad (tm : PwmTimer) (ch : ℕ) : Bool :=
  (tm.channels ch).driving && (tm.channels ch).output tm.cnt

/-! ### The register accesses -/

/-- A write to the registers of one channel. -/
def PwmTimer.setChannel (tm : PwmTimer) (ch : ℕ) (c : PwmChannel) : PwmTimer :=
  { tm with channels := Function.update tm.channels ch c }

/-- `pwm_timer_channel_bit` -/
def pwmTimerChannelBit (channel : ℕ) : UInt8 := 1 <<< (UInt8.ofNat channel &&& 0x03)

/-- `pwm_timer_has_sibling_claim` -/
def pwmTimerHasSiblingClaim (claims : UInt8) (channel : ℕ) : Bool :=
  claims &&& ~~~pwmTimerChannelBit channel != 0

/-- `pwm_channel_claim` -/
def PwmTimer.claim (tm : PwmTimer) (ch : ℕ) : PwmTimer :=
  { tm with claims := tm.claims ||| pwmTimerChannelBit ch }

/-- `pwm_channel_release` -/
def PwmTimer.release (tm : PwmTimer) (ch : ℕ) : PwmTimer :=
  { tm with claims := tm.claims &&& ~~~pwmTimerChannelBit ch }

/-! ### PWM_SET -/

/-- `pwm_counter_values`: reload and compare. -/
def pwmCounterValues (periodNs dutyNs : ℕ) (centerAligned : Bool) : Except HwRv (ℕ × ℕ) :=
  let maxPeriodTicks := if centerAligned then 2 * pwmTimerArrMax else pwmTimerArrMax + 1
  if periodNs > maxPeriodTicks * pwmTimerTickNs then .error .range
  else
    let periodTicks := periodNs / pwmTimerTickNs
    let dutyTicks := dutyNs / pwmTimerTickNs
    if periodTicks = 0 then .error .range
    else if ¬ centerAligned then
      if periodTicks - 1 > pwmTimerArrMax ∨ dutyTicks > pwmTimerArrMax then .error .range
      else .ok (periodTicks - 1, dutyTicks)
    else if periodTicks / 2 = 0 then .error .range
    else if periodTicks / 2 > pwmTimerArrMax ∨ dutyTicks / 2 > pwmTimerArrMax then .error .range
    else .ok (periodTicks / 2, dutyTicks / 2)

/-- The channel as PWM_SET leaves it, the compare in the preload. -/
def PwmChannel.continuous (c : PwmChannel) (compare : ℕ) : PwmChannel :=
  { c with mode := .pwm0, oneShot := false, compare }

/-- `pwm_apply_counter_values` -/
def PwmTimer.applyCounterValues (tm : PwmTimer) (ch arr compare : ℕ) : HwResult PwmTimer Unit :=
  if ¬ tm.cen ∧ tm.syncMaster then ⟨tm, .busy, ()⟩
  else
    let tm' := { tm.claim ch with spm := false, car := arr }.setChannel ch
      ((tm.channels ch).continuous compare)
    -- a halted timer has no update event of its own to come
    ⟨{ (if tm.cen then tm' else tm'.upg) with cen := true }, .ok, ()⟩

/-- `bridge_hw_pwm_set` -/
def PwmTimer.set (tm : PwmTimer) (ch periodNs dutyNs : ℕ) : HwResult PwmTimer Unit :=
  if dutyNs > periodNs then ⟨tm, .inval, ()⟩
  else
    match pwmCounterValues periodNs dutyNs (tm.alignMode ≠ 0) with
    | .error rv => ⟨tm, rv, ()⟩
    | .ok (arr, compare) => tm.applyCounterValues ch arr compare

/-! ### PWM_CONFIGURE -/

/-- `bridge_hw_pwm_configure` -/
def PwmTimer.configure (tm : PwmTimer) (alignMode deadTimeNs breakCfg : ℕ) :
    HwResult PwmTimer Unit :=
  if alignMode > 3 then ⟨tm, .inval, ()⟩
  else if deadTimeNs ≠ 0 then ⟨tm, .notimpl, ()⟩
  else if breakCfg ≠ 0 then ⟨tm, .notimpl, ()⟩
  else if tm.alignMode = alignMode then ⟨tm, .ok, ()⟩
  else ⟨{ tm with cam := alignMode, alignMode }, .ok, ()⟩

/-! ### PWM_SINGLE_PULSE -/

/-- The channel as PWM_SINGLE_PULSE programs it. -/
def PwmChannel.oneShotArmed (c : PwmChannel) : PwmChannel :=
  { c with mode := .pwm1, oneShot := true, compare := pwmOneShotDelayTicks }

/-- `bridge_hw_pwm_single_pulse` -/
def PwmTimer.singlePulse (tm : PwmTimer) (ch pulseNs : ℕ) : HwResult PwmTimer Unit :=
  let pulseUs := pulseNs / pwmTimerTickNs
  if pulseUs = 0 then ⟨tm, .range, ()⟩
  else if pulseUs > pwmTimerArrMax then ⟨tm, .range, ()⟩
  else if tm.alignMode ≠ 0 then ⟨tm, .notimpl, ()⟩
  else if tm.syncMaster then ⟨tm, .busy, ()⟩
  else if pwmTimerHasSiblingClaim tm.claims ch then ⟨tm, .busy, ()⟩
  else
    let tm' := { tm.release ch with cen := false, car := pulseUs }.setChannel ch
      (tm.channels ch).oneShotArmed
    ⟨{ tm'.upg with spm := true, cen := true }, .ok, ()⟩

/-! ### Capture -/

/-- `bridge_hw_pwm_capture_begin`: the pad becomes an input. -/
def PwmTimer.captureBegin (tm : PwmTimer) (ch edge : ℕ) : HwResult PwmTimer Unit :=
  if edge > 2 then ⟨tm, .inval, ()⟩
  else ⟨(tm.claim ch).setChannel ch { tm.channels ch with driving := false }, .ok, ()⟩

/-- `bridge_hw_pwm_capture_end`: `pwm_channel_init` again, with the preload in use. -/
def PwmTimer.captureEnd (tm : PwmTimer) (ch : ℕ) : HwResult PwmTimer Unit :=
  ⟨(tm.release ch).setChannel ch
    { tm.channels ch with mode := .pwm0, oneShot := false, compare := 0, driving := true }, .ok, ()⟩

/-! ### Commands and runs -/

/-- TIMER0 and TIMER7. -/
structure Pwm where
  timers : ℕ → PwmTimer

/-- `bridge_hw_init`; which of the timers is a sync master is the business of TIMER_SYNC. -/
def Pwm.boot (syncMaster : ℕ → Bool) : Pwm := ⟨fun t => .boot (syncMaster t)⟩

/-- `pwm_timer_index` of the timer that `pwm_channels` gives a channel. -/
def pwmTimerIndex (channel : ℕ) : ℕ := if channel < 4 then 0 else 1

inductive PwmCommand
  | set (periodNs dutyNs : ℕ)
  | configure (alignMode deadTimeNs breakCfg : ℕ)
  | singlePulse (pulseNs : ℕ)
  | captureBegin (edge : ℕ)
  | captureEnd
deriving DecidableEq, Repr

/-- A command on the timer of the channel it is addressed to. -/
def PwmTimer.serve (tm : PwmTimer) (ch : ℕ) : PwmCommand → HwResult PwmTimer Unit
  | .set periodNs dutyNs => tm.set ch periodNs dutyNs
  | .configure alignMode deadTimeNs breakCfg => tm.configure alignMode deadTimeNs breakCfg
  | .singlePulse pulseNs => tm.singlePulse ch pulseNs
  | .captureBegin edge => tm.captureBegin ch edge
  | .captureEnd => tm.captureEnd ch

/-- The shims begin with the check of the channel. -/
def Pwm.command (s : Pwm) (ch : ℕ) (cmd : PwmCommand) : HwResult Pwm Unit :=
  if ch ≥ pwmChannelCount then ⟨s, .range, ()⟩
  else
    match (s.timers (pwmTimerIndex ch)).serve ch cmd with
    | ⟨tm, rv, _⟩ => ⟨⟨Function.update s.timers (pwmTimerIndex ch) tm⟩, rv, ()⟩

/-- A command, or a tick of one timer. -/
inductive PwmOp
  | command (ch : ℕ) (cmd : PwmCommand)
  | tick (timer : ℕ)
deriving DecidableEq, Repr

def pwmStep (s : Pwm) : PwmOp → Option Pwm
  | .command ch cmd => some (s.command ch cmd).hw
  | .tick t => some ⟨Function.update s.timers t (s.timers t).tick⟩

/-- The pad of a channel. -/
def Pwm.pad (s : Pwm) (ch : ℕ) : Bool := (s.timers (pwmTimerIndex ch)).pad ch

end Gd32Bridge
