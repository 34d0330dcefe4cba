import Gd32Bridge.Pwm.Basic

/-!
# The reload of a timer and its mirror

`pwm_capture.c` keeps a mirror of the reload a timer is counting with, which cannot be read.  The
functions that touch it are run one access at a time: the counter goes on between any two of them,
and an update event may come unless CTL0.UPDIS holds it back.  The timer is edge-aligned.
-/

namespace Gd32Bridge

/-- The capture unit of a channel, CHxCV and its flag, and `pwm_capture_state_t`. -/
structure PwmCapture where
  value : ℕ
  flag : Bool
  lastTick : ℕ
  periodTicks : ℕ
  pulseWidthTicks : ℕ
  edge : ℕ
  state : ℕ
  havePeriod : Bool
  havePulse : Bool
deriving DecidableEq, Repr

/-- Where a call is: the access that is next. -/
inductive ReloadPc
  | idle
  /-- `pwm_apply_counter_values` has looked at CEN -/
  | setMode (wasRunning : Bool) (arr : ℕ)
  /-- `pwm_preload_transaction` -/
  | setSave (arr : ℕ)
  | setMask (arr : ℕ) (saved : Bool)
  /-- `pwm_preload_load` -/
  | setCar (arr : ℕ) (saved : Bool)
  /-- `pwm_capture_consume_update` in `pwm_car_shadow_defer` -/
  | setSample (arr : ℕ) (saved : Bool)
  | setClear (arr : ℕ) (saved : Bool)
  | setCommit (arr : ℕ) (saved : Bool)
  | setPending (arr : ℕ) (saved : Bool)
  | setRestore (saved : Bool)
  /-- `bridge_hw_pwm_single_pulse` -/
  | pulseDisable (arr : ℕ)
  | pulseCount (arr : ℕ)
  /-- the forced update of a pulse or of a set on a halted timer, and `pwm_car_shadow_commit` -/
  | forceCar (pulse : Bool) (arr : ℕ)
  | forceUpg (pulse : Bool) (arr : ℕ)
  | forceClear (pulse : Bool) (arr : ℕ)
  | forceCommit (pulse : Bool) (arr : ℕ)
  | pulseMode
  | enable
  /-- `pwm_capture_drain` -/
  | drainFlag (ch : ℕ)
  | drainRead (ch : ℕ)
  | drainClear (ch now : ℕ)
  | drainSample (ch now : ℕ)
  | drainClearUp (ch now : ℕ)
  | drainCommit (ch now : ℕ)
deriving DecidableEq, Repr

/-- A timer with CAR as written and as in use, CEN, SPM, UPDIS and the update flag; the mirror, the
pending write and the capture units; and the call in progress. -/
structure ReloadTimer where
  cnt : ℕ
  car : ℕ
  carActive : ℕ
  cen : Bool
  spm : Bool
  updis : Bool
  upif : Bool
  activeCar : ℕ
  pendingCar : ℕ
  pendingValid : Bool
  capture : ℕ → PwmCapture
  pc : ReloadPc

/-- After `pwm_timer_init`; its forced update may have left the flag set. -/
def ReloadTimer.boot (upif : Bool) : ReloadTimer :=
  ⟨0, pwmTimerArrMax, pwmTimerArrMax, true, false, false, upif, pwmTimerArrMax, 0, false,
    fun _ => ⟨0, false, 0, 0, 0, 0, 0, false, false⟩, .idle⟩

/-! ### The hardware -/

/-- An update event. -/
def ReloadTimer.update (s : ReloadTimer) : ReloadTimer :=
  { s with cnt := 0, carActive := s.car, upif := true }

/-- A tick of the counter; without the update event it starts over all the same. -/
def ReloadTimer.tick (s : ReloadTimer) : ReloadTimer :=
  if ¬ s.cen then s
  else if s.cnt = s.carActive then
    if s.updis then { s with cnt := 0 } else { s.update with cen := !s.spm }
  else { s with cnt := s.cnt + 1 }

def ReloadTimer.setCapture (s : ReloadTimer) (ch : ℕ) (c : PwmCapture) : ReloadTimer :=
  { s with capture := Function.update s.capture ch c }

/-- An edge at the pad of a channel. -/
def ReloadTimer.edge (s : ReloadTimer) (ch : ℕ) : ReloadTimer :=
  s.setCapture ch { s.capture ch with value := s.cnt, flag := true }

/-! ### The code -/

def ReloadTimer.goto (s : ReloadTimer) (pc : ReloadPc) : ReloadTimer := { s with pc }

/-- The end of `pwm_capture_consume_update` when the flag was set. -/
def ReloadTimer.consumed (s : ReloadTimer) : ReloadTimer :=
  if s.pendingValid then { s with activeCar := s.pendingCar, pendingValid := false } else s

/-- The modular difference of `pwm_capture_drain`. -/
def ReloadTimer.delta (s : ReloadTimer) (ch now : ℕ) : ℕ :=
  let mod := s.activeCar + 1
  (now + mod - (s.capture ch).lastTick % mod) % mod

/-- What `pwm_capture_drain` makes of the difference. -/
def PwmCapture.fold (c : PwmCapture) (now delta : ℕ) : PwmCapture :=
  if c.edge = 2 then
    match c.state with
    | 0 => { c with lastTick := now, state := 1 }
    | 1 => { c with pulseWidthTicks := delta, havePulse := true, lastTick := now, state := 2 }
    | _ => { c with periodTicks := delta + c.pulseWidthTicks, havePeriod := true, lastTick := now,
                    state := 1 }
  else if c.state = 0 then { c with lastTick := now, state := 1 }
  else { c with periodTicks := delta, havePeriod := true, lastTick := now }

/-- The rest of `pwm_capture_drain`, after the mirror is settled: it touches no register. -/
def ReloadTimer.drained (s : ReloadTimer) (ch now : ℕ) : ReloadTimer :=
  (s.setCapture ch ((s.capture ch).fold now (s.delta ch now))).goto .idle

/-- The next access of the call in progress. -/
def ReloadTimer.go (s : ReloadTimer) : Option ReloadTimer :=
  match s.pc with
  | .idle => none
  | .setMode wasRunning arr =>
    some ({ s with spm := false }.goto (if wasRunning then .setSave arr else .forceCar false arr))
  | .setSave arr => some (s.goto (.setMask arr s.updis))
  | .setMask arr saved => some ({ s with updis := true }.goto (.setCar arr saved))
  | .setCar arr saved => some ({ s with car := arr }.goto (.setSample arr saved))
  | .setSample arr saved =>
    some (s.goto (if s.upif then .setClear arr saved else .setPending arr saved))
  | .setClear arr saved => some ({ s with upif := false }.goto (.setCommit arr saved))
  | .setCommit arr saved => some (s.consumed.goto (.setPending arr saved))
  | .setPending arr saved =>
    some ({ s with pendingCar := arr, pendingValid := true }.goto (.setRestore saved))
  | .setRestore saved => some ({ s with updis := saved }.goto .enable)
  | .pulseDisable arr => some ({ s with cen := false }.goto (.pulseCount arr))
  | .pulseCount arr => some ({ s with cnt := 0 }.goto (.forceCar true arr))
  | .forceCar pulse arr => some ({ s with car := arr }.goto (.forceUpg pulse arr))
  | .forceUpg pulse arr => some (s.update.goto (.forceClear pulse arr))
  | .forceClear pulse arr => some ({ s with upif := false }.goto (.forceCommit pulse arr))
  | .forceCommit pulse arr =>
    some ({ s with activeCar := arr, pendingValid := false }.goto
      (if pulse then .pulseMode else .enable))
  | .pulseMode => some ({ s with spm := true }.goto .enable)
  | .enable => some ({ s with cen := true }.goto .idle)
  | .drainFlag ch => some (s.goto (if (s.capture ch).flag then .drainRead ch else .idle))
  | .drainRead ch => some (s.goto (.drainClear ch (s.capture ch).value))
  | .drainClear ch now =>
    some ((s.setCapture ch { s.capture ch with flag := false }).goto (.drainSample ch now))
  | .drainSample ch now => some (if s.upif then s.goto (.drainClearUp ch now) else s.drained ch now)
  | .drainClearUp ch now => some ({ s with upif := false }.goto (.drainCommit ch now))
  | .drainCommit ch now => some (s.consumed.drained ch now)

/-- A capture session is opened. -/
def ReloadTimer.begin (s : ReloadTimer) (ch edge : ℕ) : ReloadTimer :=
  s.setCapture ch ⟨(s.capture ch).value, false, 0, 0, 0, edge, 0, false, false⟩

/-- The hardware, the next access of the call in progress, and the calls: a set and a pulse with
the reload that has been accepted, a drain, and the start of a capture. -/
inductive ReloadOp
  | tick
  | edge (ch : ℕ)
  | go
  | set (arr : ℕ)
  | singlePulse (arr : ℕ)
  | drain (ch : ℕ)
  | captureBegin (ch edge : ℕ)
deriving DecidableEq, Repr

/-- Calls come one after the other. -/
def reloadStep (s : ReloadTimer) : ReloadOp → Option ReloadTimer
  | .tick => some s.tick
  | .edge ch => some (s.edge ch)
  | .go => s.go
  | .set arr => if s.pc = .idle then some (s.goto (.setMode s.cen arr)) else none
  | .singlePulse arr => if s.pc = .idle then some (s.goto (.pulseDisable arr)) else none
  | .drain ch => if s.pc = .idle then some (s.goto (.drainFlag ch)) else none
  | .captureBegin ch edge => if s.pc = .idle then some (s.begin ch edge) else none

end Gd32Bridge
