import Gd32Bridge.Lib.Transition
import Gd32Bridge.Protocol.Hal
import Mathlib.Tactic.Common

/-!
# Low-power requests

`hal/gd32/power.c`.  A request runs inside a transport interrupt: it arms the wakeup timer of the
RTC and latches the mode.  `bridge_power_tick` runs at base level: it samples the latch, spins with
the interrupts on, and enters the mode.  A request is one step here, because a nested request is
answered BUSY; the tick is cut where a request can fall between two of its steps.
-/

namespace Gd32Bridge

/-- `POWER_WAKE_LSB_HZ` -/
def powerWakeLsbHz : ℕ := 2000
/-- `POWER_WAKE_TIMER_MAX_MS` -/
def powerWakeTimerMaxMs : ℕ := 65535 * 1000 / powerWakeLsbHz
/-- `POWER_LP_FWDGT_MAX_MS` -/
def powerLpFwdgtMaxMs : ℕ := 300
/-- `POWER_WAKE_RTC` -/
def powerWakeRtc : UInt32 := 0x1
/-- `POWER_WAKE_TIMER` -/
def powerWakeTimer : UInt32 := 0x8

/-- `power_wake_bitmap_supported` -/
def powerWakeBitmapSupported (wakeBitmap : UInt32) : Bool :=
  wakeBitmap &&& ~~~(powerWakeRtc ||| powerWakeTimer) == 0

/-! ### The wakeup timer -/

/-- The wakeup timer of the RTC and its way to the core: RTC_CTL.WTEN, the clock RTC_CTL.WTCS
selects, RTC_WUT, and the interrupt enables (RTC_CTL.WTIE, EXTI line 19, the vector). -/
structure RtcWakeup where
  enabled : Bool
  clockDiv16 : Bool
  reload : ℕ
  irq : Bool
deriving DecidableEq, Repr

/-- What a vendor call on the RTC reports.  One that reports ERROR may have written its register
or not. -/
inductive VendorRtc
  | success
  | error (written : Bool)
deriving DecidableEq, Repr

def VendorRtc.writes : VendorRtc → Bool
  | success => true
  | error written => written

/-- `rtc_wakeup_disable` -/
def RtcWakeup.disable (r : RtcWakeup) (v : VendorRtc) : RtcWakeup :=
  if v.writes then { r with enabled := false } else r

/-- `rtc_wakeup_clock_set(WAKEUP_RTCCK_DIV16)` -/
def RtcWakeup.clockSet (r : RtcWakeup) (v : VendorRtc) : RtcWakeup :=
  if v.writes then { r with clockDiv16 := true } else r

/-- `rtc_wakeup_timer_set` -/
def RtcWakeup.timerSet (r : RtcWakeup) (v : VendorRtc) (reload : ℕ) : RtcWakeup :=
  if v.writes then { r with reload } else r

/-- The interrupt path and `rtc_wakeup_enable`. -/
def RtcWakeup.enable (r : RtcWakeup) : RtcWakeup := { r with irq := true, enabled := true }

/-! ### The state -/

/-- How far `bridge_power_tick` has got: the latch not yet read; the mode read and the interrupts
still on; back from a standby entry that did not take, the transport vectors enabled again. -/
inductive TickPhase
  | idle
  | settling (mode : UInt8)
  | aborting
deriving DecidableEq, Repr

/-- The variables of `power.c`, the RTC and the two option bits that let the watchdog count through
deep-sleep and standby. -/
structure Power where
  rtcWakeupReady : Bool
  rtc : RtcWakeup
  lpPendingMode : UInt8
  clockRelockPending : Bool
  clockRelockTick : UInt8
  i2cReinitPending : Bool
  fwdgspdDpslp : Bool
  fwdgspdStdby : Bool
  phase : TickPhase
deriving DecidableEq, Repr

/-- After a reset: the RTC keeps its registers, the vector and the EXTI line do not. -/
def Power.boot (rtc : RtcWakeup) (fwdgspdDpslp fwdgspdStdby : Bool) : Power where
  rtcWakeupReady := false
  rtc := { rtc with irq := false }
  lpPendingMode := 0
  clockRelockPending := false
  clockRelockTick := 0
  i2cReinitPending := false
  fwdgspdDpslp
  fwdgspdStdby
  phase := .idle

/-- The watchdog counts through the mode. -/
def Power.fwdgtCounts (p : Power) (mode : UInt8) : Bool :=
  if mode = 2 then p.fwdgspdDpslp else p.fwdgspdStdby

/-! ### The request -/

/-- What a request meets: whether IRC32K stabilises, and the three vendor calls. -/
structure ArmEnv where
  irc32kStable : Bool
  disable : VendorRtc
  clock : VendorRtc
  timer : VendorRtc
deriving DecidableEq, Repr

/-- The ticks of a wake time, as `rtc_wakeup_arm_ms` computes them. -/
def wakeTicks (wakeAfterMs : ℕ) : ℕ :=
  let ticks := (wakeAfterMs * powerWakeLsbHz + 999) / 1000
  let ticks := if ticks = 0 then 1 else ticks
  if ticks > 65535 then 65535 else ticks

/-- `rtc_wakeup_arm_ms` -/
def rtcWakeupArmMs (p : Power) (env : ArmEnv) (wakeAfterMs : ℕ) : HwResult Power Unit :=
  if ¬ (p.rtcWakeupReady ∨ env.irc32kStable) then ⟨p, .io, ()⟩
  else
    let p := { p with rtcWakeupReady := true }
    if wakeAfterMs > powerWakeTimerMaxMs then ⟨p, .range, ()⟩
    else
      let p := { p with rtc := p.rtc.disable env.disable }
      if env.disable ≠ .success then ⟨p, .io, ()⟩
      else
        let p := { p with rtc := p.rtc.clockSet env.clock }
        if env.clock ≠ .success then ⟨p, .io, ()⟩
        else
          let p := { p with rtc := p.rtc.timerSet env.timer (wakeTicks wakeAfterMs - 1) }
          if env.timer ≠ .success then ⟨p, .io, ()⟩
          else ⟨{ p with rtc := p.rtc.enable }, .ok, ()⟩

/-- The wake time a request asks for. -/
def lpWakeMs (wakeAfterMs : UInt32) : ℕ :=
  if wakeAfterMs ≠ 0 then wakeAfterMs.toNat else powerWakeTimerMaxMs

/-- `bridge_hw_power_mode_set` -/
def bridgeHwPowerModeSet (p : Power) (env : ArmEnv) (mode : UInt8)
    (wakeBitmap wakeAfterMs : UInt32) : HwResult Power Unit :=
  if ¬ powerWakeBitmapSupported wakeBitmap then ⟨p, .notimpl, ()⟩
  else if mode = 0 ∨ mode = 1 then
    if wakeAfterMs ≠ 0 then ⟨p, .inval, ()⟩ else ⟨p, .ok, ()⟩
  else if mode = 2 ∨ mode = 3 then
    if wakeAfterMs = 0 ∧ wakeBitmap &&& (powerWakeRtc ||| powerWakeTimer) = 0 then
      ⟨p, .inval, ()⟩
    else if p.fwdgtCounts mode ∧ lpWakeMs wakeAfterMs > powerLpFwdgtMaxMs then ⟨p, .range, ()⟩
    else
      match rtcWakeupArmMs p env (lpWakeMs wakeAfterMs) with
      | ⟨p', .ok, _⟩ => ⟨{ p' with lpPendingMode := mode }, .ok, ()⟩
      | ⟨p', rv, _⟩ => ⟨p', rv, ()⟩
  else ⟨p, .inval, ()⟩

/-! ### The tick -/

/-- What a tick meets before it samples the latch. -/
structure TickEnv where
  relocked : Bool
  i2cIdle : Bool
  i2cReady : Bool
  csHigh : Bool
  quiet : Bool
deriving DecidableEq, Repr

/-- The retries at the head of `bridge_power_tick`. -/
def Power.retry (p : Power) (env : TickEnv) : Power :=
  let p :=
    if p.clockRelockPending then
      if p.clockRelockTick &&& 7 = 0 ∧ env.relocked then
        { p with
          clockRelockTick := p.clockRelockTick + 1
          clockRelockPending := false
          i2cReinitPending := true }
      else { p with clockRelockTick := p.clockRelockTick + 1 }
    else p
  if p.i2cReinitPending ∧ env.i2cIdle ∧ env.i2cReady then { p with i2cReinitPending := false } else p

/-- `bridge_power_tick` up to where it samples the latch.  A request that falls in here finds the
same latch and the same RTC as one that comes just before. -/
def Power.tick (p : Power) (env : TickEnv) : Power :=
  let p := p.retry env
  if p.lpPendingMode = 0 then p
  else if ¬ env.csHigh then p
  else if ¬ env.quiet then p
  else { p with phase := .settling p.lpPendingMode }

/-- What the entry meets: the re-checks under the lock and the way back from deep-sleep, and whether
the part powers down into standby. -/
structure EnterEnv where
  quiet : Bool
  relocked : Bool
  i2cReady : Bool
  disable : VendorRtc
  poweredDown : Bool
deriving DecidableEq, Repr

/-- The mode an entry reaches from the mode sampled, if it is not backed out. -/
def EnterEnv.entered (env : EnterEnv) (mode : UInt8) : Option UInt8 :=
  if mode = 2 then if env.quiet then some 2 else none
  else if mode = 3 then some 3
  else none

/-- The deep-sleep arm of `bridge_power_tick`, all of it under the interrupt lock. -/
def Power.deepSleep (p : Power) (env : EnterEnv) : Power :=
  if ¬ env.quiet then { p with phase := .idle }
  else
    { p with
      clockRelockPending := p.clockRelockPending || !env.relocked
      clockRelockTick := if env.relocked then p.clockRelockTick else 0
      i2cReinitPending := p.i2cReinitPending || !env.i2cReady
      rtc := p.rtc.disable env.disable
      lpPendingMode := 0
      phase := .idle }

/-- The standby arm up to where the transport vectors are enabled again: the way out of standby is
a reset. -/
def Power.standby (p : Power) (env : EnterEnv) : Power :=
  if env.poweredDown then .boot p.rtc p.fwdgspdDpslp p.fwdgspdStdby else { p with phase := .aborting }

/-- `bridge_power_tick` after the settle spin, with the mode it sampled. -/
def Power.enter (p : Power) (env : EnterEnv) (mode : UInt8) : Power :=
  if mode = 2 then p.deepSleep env
  else if mode = 3 then p.standby env
  else { p with phase := .idle }

/-- The last line of the standby arm. -/
def Power.drop (p : Power) : Power := { p with lpPendingMode := 0, phase := .idle }

/-! ### Runs -/

/-- A request from a transport interrupt, or a piece of the tick. -/
inductive PowerOp
  | request (env : ArmEnv) (mode : UInt8) (wakeBitmap wakeAfterMs : UInt32)
  | tick (env : TickEnv)
  | enter (env : EnterEnv)
  | drop
deriving DecidableEq, Repr

/-- A request can come in every phase; the pieces of the tick follow each other. -/
def powerStep (p : Power) : PowerOp → Option Power
  | .request env mode wakeBitmap wakeAfterMs =>
    some (bridgeHwPowerModeSet p env mode wakeBitmap wakeAfterMs).hw
  | .tick env => if p.phase = .idle then some (p.tick env) else none
  | .enter env =>
    match p.phase with
    | .settling mode => some (p.enter env mode)
    | _ => none
  | .drop => if p.phase = .aborting then some p.drop else none

end Gd32Bridge
