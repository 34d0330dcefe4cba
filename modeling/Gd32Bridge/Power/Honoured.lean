import Gd32Bridge.Power.Basic

/-!
# What a low-power entry honours

The request last accepted is latched in one variable and armed in the RTC.  As long as the two stay
in step, every entry is into the mode of that request, with its wake time running.
-/

namespace Gd32Bridge

open Transition

variable {p p' : Power}

/-! ### What is remembered -/

/-- An accepted request for mode 2 or 3, and whether its mode has been entered since. -/
structure LpRequest where
  mode : UInt8
  ms : ℕ
  attempted : Bool
deriving DecidableEq, Repr

/-- An entry: the mode, the RTC at that moment, the request last accepted, and whether the watchdog
counts through the mode. -/
structure LpEntry where
  mode : UInt8
  rtc : RtcWakeup
  request : Option LpRequest
  fwdgtCounts : Bool
deriving DecidableEq, Repr

/-- The request last accepted, whether a later one has been broken off with the timer touched, and
the entries. -/
structure LpLog where
  accepted : Option LpRequest
  broken : Bool
  entries : List LpEntry
deriving DecidableEq, Repr

/-- The request has been tried if the mode entered is its own. -/
def LpRequest.tried (r : LpRequest) (mode : UInt8) : LpRequest :=
  if r.mode = mode then { r with attempted := true } else r

/-- The mode a step enters. -/
def Power.enters (p : Power) : PowerOp → Option UInt8
  | .enter env =>
    match p.phase with
    | .settling mode => env.entered mode
    | _ => none
  | _ => none

/-- The request for mode 2 or 3 a step accepts. -/
def Power.accepts (p : Power) : PowerOp → Option LpRequest
  | .request env mode wakeBitmap wakeAfterMs =>
    if (mode = 2 ∨ mode = 3) ∧ (bridgeHwPowerModeSet p env mode wakeBitmap wakeAfterMs).rv = .ok then
      some ⟨mode, lpWakeMs wakeAfterMs, false⟩
    else none
  | _ => none

/-- The step is a request that fails after it has touched the wakeup timer. -/
def Power.breaksOff (p : Power) : PowerOp → Bool
  | .request env mode wakeBitmap wakeAfterMs =>
    let r := bridgeHwPowerModeSet p env mode wakeBitmap wakeAfterMs
    r.rv != .ok && r.hw.rtc != p.rtc
  | _ => false

def LpLog.note (g : LpLog) (p : Power) (op : PowerOp) (_ : Power) : LpLog :=
  match p.accepts op, p.enters op with
  | some r, _ => { g with accepted := some r, broken := false }
  | none, some mode =>
    { g with
      accepted := g.accepted.map (·.tried mode)
      entries := ⟨mode, p.rtc, g.accepted, p.fwdgtCounts mode⟩ :: g.entries }
  | none, none => { g with broken := g.broken || p.breaksOff op }

/-! ### The property -/

/-- The wakeup timer runs with the wake time. -/
structure RtcWakeup.Armed (r : RtcWakeup) (ms : ℕ) : Prop where
  enabled : r.enabled = true
  irq : r.irq = true
  clock : r.clockDiv16 = true
  time : (r.reload + 1) * 1000 = ms * powerWakeLsbHz

/-- The entry is into the mode of the request last accepted, under its wake time, which the watchdog
allows. -/
def LpEntry.Honoured (e : LpEntry) : Prop :=
  ∃ r, e.request = some r ∧ e.mode = r.mode ∧ e.rtc.Armed r.ms ∧
    (e.fwdgtCounts = true → r.ms ≤ powerLpFwdgtMaxMs)

/-- Every entry so far honoured its request, and the request last accepted is still latched unless
its mode has been tried. -/
def LpHonoured (x : Power × LpLog) : Prop :=
  (∀ e ∈ x.2.entries, e.Honoured) ∧
    ∀ r, x.2.accepted = some r → r.attempted = false → x.1.lpPendingMode = r.mode

/-- The steps that keep latch and timer in step: no request is accepted between an aborted standby
and the clearing of the latch, and an entry finds the latch as it was sampled and the timer as the
request last accepted has left it. -/
def LpInStep (x : Power × LpLog) : PowerOp → Prop
  | .request env mode wakeBitmap wakeAfterMs =>
    x.1.phase = .aborting → x.1.accepts (.request env mode wakeBitmap wakeAfterMs) = none
  | .enter env => ∀ mode, x.1.phase = .settling mode → x.1.enters (.enter env) ≠ none →
      x.1.lpPendingMode = mode ∧ x.2.broken = false
  | _ => True

/-! ### What a request does -/

lemma wakeTicks_eq {ms : ℕ} (hpos : 0 < ms) (hmax : ms ≤ powerWakeTimerMaxMs) :
    wakeTicks ms = 2 * ms := by
  have hmax' : ms ≤ 32767 := hmax
  have hticks : (ms * powerWakeLsbHz + 999) / 1000 = 2 * ms := by
    simp only [powerWakeLsbHz]
    omega
  have hne : ¬ 2 * ms = 0 := by omega
  simp only [wakeTicks, hticks, if_neg hne]
  rw [if_neg (by omega)]

/-- The armed timer. -/
def RtcWakeup.armed (r : RtcWakeup) (ms : ℕ) : RtcWakeup :=
  { r with enabled := true, irq := true, clockDiv16 := true, reload := wakeTicks ms - 1 }

lemma RtcWakeup.armed_armed (r : RtcWakeup) {ms : ℕ} (hpos : 0 < ms)
    (hmax : ms ≤ powerWakeTimerMaxMs) : (r.armed ms).Armed ms := by
  refine ⟨rfl, rfl, rfl, ?_⟩
  simp only [armed, wakeTicks_eq hpos hmax, powerWakeLsbHz]
  omega

/-- The ways the arm sequence ends: refused before the RTC is touched, broken off by a vendor call,
or done. -/
inductive ArmRule (p : Power) (env : ArmEnv) (ms : ℕ) : HwResult Power Unit → Prop
  | refused (ready : Bool) {rv : HwRv} (hrv : rv ≠ .ok) :
      ArmRule p env ms ⟨{ p with rtcWakeupReady := ready }, rv, ()⟩
  | broken (rtc : RtcWakeup) :
      ArmRule p env ms ⟨{ p with rtcWakeupReady := true, rtc }, .io, ()⟩
  | done (h : ms ≤ powerWakeTimerMaxMs) :
      ArmRule p env ms ⟨{ p with rtcWakeupReady := true, rtc := p.rtc.armed ms }, .ok, ()⟩

lemma ArmRule.of_arm (p : Power) (env : ArmEnv) (ms : ℕ) :
    ArmRule p env ms (rtcWakeupArmMs p env ms) := by
  fun_cases rtcWakeupArmMs p env ms with
  | case1 => exact .refused p.rtcWakeupReady (by decide)
  | case2 => exact .refused true (by decide)
  | case3 => exact .broken _
  | case4 => exact .broken _
  | case5 => exact .broken _
  | case6 _ _ hmax _ hd _ hc _ ht =>
    simp only [ne_eq, not_not] at hd hc ht
    have hrtc : ((((p.rtc.disable env.disable).clockSet env.clock).timerSet env.timer
        (wakeTicks ms - 1)).enable) = p.rtc.armed ms := by
      simp [hd, hc, ht, RtcWakeup.disable, RtcWakeup.clockSet, RtcWakeup.timerSet,
        RtcWakeup.enable, RtcWakeup.armed, VendorRtc.writes]
    have hdone : ArmRule p env ms ⟨{ p with rtcWakeupReady := true, rtc := p.rtc.armed ms }, .ok, ()⟩ :=
      .done (Nat.not_lt.mp hmax)
    rw [← hrtc] at hdone
    exact hdone

/-- The ways a request ends: nothing armed and nothing latched, broken off while arming, or
accepted. -/
inductive RequestRule (p : Power) (env : ArmEnv) (mode : UInt8) (wakeAfterMs : UInt32) :
    HwResult Power Unit → Prop
  | refused (ready : Bool) {rv : HwRv} (h : mode = 2 ∨ mode = 3 → rv ≠ .ok) :
      RequestRule p env mode wakeAfterMs ⟨{ p with rtcWakeupReady := ready }, rv, ()⟩
  | broken (rtc : RtcWakeup) (hm : mode = 2 ∨ mode = 3) :
      RequestRule p env mode wakeAfterMs ⟨{ p with rtcWakeupReady := true, rtc }, .io, ()⟩
  | accepted (hm : mode = 2 ∨ mode = 3) (hmax : lpWakeMs wakeAfterMs ≤ powerWakeTimerMaxMs)
      (hdog : p.fwdgtCounts mode = true → lpWakeMs wakeAfterMs ≤ powerLpFwdgtMaxMs) :
      RequestRule p env mode wakeAfterMs
        ⟨{ p with
            rtcWakeupReady := true
            rtc := p.rtc.armed (lpWakeMs wakeAfterMs)
            lpPendingMode := mode }, .ok, ()⟩

lemma RequestRule.of_set (p : Power) (env : ArmEnv) (mode : UInt8)
    (wakeBitmap wakeAfterMs : UInt32) :
    RequestRule p env mode wakeAfterMs
      (bridgeHwPowerModeSet p env mode wakeBitmap wakeAfterMs) := by
  have harm := ArmRule.of_arm p env (lpWakeMs wakeAfterMs)
  fun_cases bridgeHwPowerModeSet p env mode wakeBitmap wakeAfterMs with
  | case1 => exact .refused p.rtcWakeupReady fun _ => by decide
  | case2 => exact .refused p.rtcWakeupReady fun _ => by decide
  | case3 _ h01 =>
    refine .refused p.rtcWakeupReady fun h23 => ?_
    rcases h01 with rfl | rfl <;> rcases h23 with h | h <;> cases h
  | case4 => exact .refused p.rtcWakeupReady fun _ => by decide
  | case5 => exact .refused p.rtcWakeupReady fun _ => by decide
  | case6 _ _ hm _ hdog p' out heq =>
    rw [heq] at harm
    cases harm with
    | refused _ hrv => exact absurd rfl hrv
    | done hmax =>
      exact .accepted hm hmax fun hc => Nat.not_lt.mp fun hlt => hdog ⟨hc, hlt⟩
  | case7 _ _ hm _ _ p' rv out hne heq =>
    rw [heq] at harm
    cases harm with
    | refused ready hrv => exact .refused ready fun _ => hrv
    | broken rtc => exact .broken rtc hm
    | done => exact (hne rfl).elim
  | case8 => exact .refused p.rtcWakeupReady fun _ => by decide

/-! ### The invariant -/

/-- Latch, timer and log in step. -/
structure LpInv (x : Power × LpLog) : Prop where
  entries : ∀ e ∈ x.2.entries, e.Honoured
  latched : x.1.phase ≠ .aborting → x.1.lpPendingMode ≠ 0 →
    ∃ r, x.2.accepted = some r ∧ x.1.lpPendingMode = r.mode ∧
      (x.2.broken = false → x.1.rtc.Armed r.ms) ∧
      (x.1.fwdgtCounts r.mode = true → r.ms ≤ powerLpFwdgtMaxMs)
  waiting : ∀ r, x.2.accepted = some r → r.attempted = false → x.1.lpPendingMode = r.mode
  aborting : x.1.phase = .aborting → ∀ r, x.2.accepted = some r → r.attempted = true

variable {g : LpLog}

lemma lpWakeMs_pos (ms : UInt32) : 0 < lpWakeMs ms := by
  simp only [lpWakeMs]
  split
  · next h => exact Nat.pos_of_ne_zero fun h0 => h (UInt32.toNat_inj.mp h0)
  · decide

/-- A request keeps it. -/
lemma LpInv.request (h : LpInv (p, g)) {env : ArmEnv} {mode : UInt8}
    {wakeBitmap wakeAfterMs : UInt32}
    (hnone : LpInStep (p, g) (.request env mode wakeBitmap wakeAfterMs)) :
    LpInv ((bridgeHwPowerModeSet p env mode wakeBitmap wakeAfterMs).hw,
      g.note p (.request env mode wakeBitmap wakeAfterMs) p') := by
  have hrule := RequestRule.of_set p env mode wakeBitmap wakeAfterMs
  have hnote : g.note p (.request env mode wakeBitmap wakeAfterMs) p' =
      match p.accepts (.request env mode wakeBitmap wakeAfterMs) with
      | some r => { g with accepted := some r, broken := false }
      | none => { g with
        broken := g.broken || p.breaksOff (.request env mode wakeBitmap wakeAfterMs) } := by
    simp only [LpLog.note, Power.enters]
    split <;> simp_all
  rw [hnote]
  simp only [LpInStep, Power.accepts, Power.breaksOff] at hnone ⊢
  generalize bridgeHwPowerModeSet p env mode wakeBitmap wakeAfterMs = res at hrule hnone ⊢
  cases hrule with
  | refused ready hrv =>
    rw [if_neg fun hc => hrv hc.1 hc.2]
    simp only [bne_self_eq_false, Bool.and_false, Bool.or_false]
    exact ⟨h.entries, h.latched, h.waiting, h.aborting⟩
  | broken rtc hm =>
    rw [if_neg fun hc => nomatch hc.2]
    refine ⟨h.entries, fun hph hne => ?_, h.waiting, h.aborting⟩
    obtain ⟨r, hr, hlatch, harmed, hdog⟩ := h.latched hph hne
    refine ⟨r, hr, hlatch, fun hwhole => ?_, hdog⟩
    -- a request that is broken off without a trace leaves the timer as it was
    obtain ⟨hold, hsame⟩ : g.broken = false ∧ rtc = p.rtc := by simpa using hwhole
    rw [hsame]
    exact harmed hold
  | accepted hm hmax hdog =>
    rw [if_pos ⟨hm, rfl⟩] at hnone ⊢
    refine ⟨h.entries, fun _ _ => ?_, ?_, fun hph => ?_⟩
    · exact ⟨_, rfl, rfl, fun _ => p.rtc.armed_armed (lpWakeMs_pos wakeAfterMs) hmax, hdog⟩
    · rintro r ⟨rfl⟩ _
      rfl
    · exact nomatch hnone hph

/-- A step that is no request and enters no mode leaves the log alone. -/
lemma LpLog.note_of_none {op : PowerOp} (ha : p.accepts op = none) (he : p.enters op = none)
    (hb : p.breaksOff op = false) : g.note p op p' = g := by
  simp only [note, ha, he, hb, Bool.or_false]

@[simp]
lemma Power.retry_lpPendingMode (env : TickEnv) :
    (p.retry env).lpPendingMode = p.lpPendingMode := by
  simp only [retry]
  split_ifs <;> rfl

@[simp]
lemma Power.retry_rtc (env : TickEnv) : (p.retry env).rtc = p.rtc := by
  simp only [retry]
  split_ifs <;> rfl

@[simp]
lemma Power.retry_phase (env : TickEnv) : (p.retry env).phase = p.phase := by
  simp only [retry]
  split_ifs <;> rfl

@[simp]
lemma Power.retry_fwdgtCounts (env : TickEnv) (mode : UInt8) :
    (p.retry env).fwdgtCounts mode = p.fwdgtCounts mode := by
  simp only [retry]
  split_ifs <;> rfl

/-- Up to the sample the tick touches neither latch nor timer. -/
lemma LpInv.tick (h : LpInv (p, g)) (hph : p.phase = .idle) (env : TickEnv) :
    LpInv (p.tick env, g) := by
  have hidle : p.phase ≠ .aborting := by
    rw [hph]
    decide
  have hretry : (p.retry env).phase ≠ .aborting := by
    rw [Power.retry_phase]
    exact hidle
  have hfields : (p.tick env).lpPendingMode = p.lpPendingMode ∧ (p.tick env).rtc = p.rtc ∧
      (p.tick env).phase ≠ .aborting ∧
      ∀ mode, (p.tick env).fwdgtCounts mode = p.fwdgtCounts mode := by
    simp only [Power.tick]
    split_ifs
    · exact ⟨p.retry_lpPendingMode env, p.retry_rtc env, hretry, p.retry_fwdgtCounts env⟩
    · exact ⟨p.retry_lpPendingMode env, p.retry_rtc env, by simp, p.retry_fwdgtCounts env⟩
    · exact ⟨p.retry_lpPendingMode env, p.retry_rtc env, hretry, p.retry_fwdgtCounts env⟩
    · exact ⟨p.retry_lpPendingMode env, p.retry_rtc env, hretry, p.retry_fwdgtCounts env⟩
  obtain ⟨hmode, hrtc, hphase, hdog⟩ := hfields
  refine ⟨h.entries, fun _ hne => ?_, fun r hr hun => ?_, fun hab => absurd hab hphase⟩
  · simp only [hmode, hrtc, hdog] at hne ⊢
    exact h.latched hidle hne
  · exact hmode.trans (h.waiting r hr hun)

/-- An entry the latch agrees with honours the request, and has tried it. -/
lemma LpInv.entry (h : LpInv (p, g)) {mode : UInt8} (hph : p.phase = .settling mode)
    (hmode : p.lpPendingMode = mode) (hwhole : g.broken = false) (hne : mode ≠ 0) :
    LpEntry.Honoured ⟨mode, p.rtc, g.accepted, p.fwdgtCounts mode⟩ ∧
      ∀ r, g.accepted.map (·.tried mode) = some r → r.attempted = true := by
  have hsettle : p.phase ≠ .aborting := by
    rw [hph]
    exact nofun
  obtain ⟨r, hr, hlatch, harmed, hdog⟩ := h.latched hsettle (hmode.trans_ne hne)
  have hrm : mode = r.mode := hmode.symm.trans hlatch
  refine ⟨⟨r, hr, hrm, harmed hwhole, hrm ▸ hdog⟩, fun r' hr' => ?_⟩
  rw [hr, Option.map_some, Option.some.injEq, LpRequest.tried, if_pos hrm.symm] at hr'
  rw [← hr']

/-- The end of a tick, entered or backed out. -/
lemma LpInv.enter (h : LpInv (p, g)) {mode : UInt8} (hph : p.phase = .settling mode)
    {env : EnterEnv} (hok : LpInStep (p, g) (.enter env)) :
    LpInv (p.enter env mode, g.note p (.enter env) p') := by
  have henters : p.enters (.enter env) = env.entered mode := by
    simp only [Power.enters, hph]
  have hsettle : p.phase ≠ .aborting := by
    rw [hph]
    exact nofun
  cases hin : env.entered mode with
  | none =>
    rw [LpLog.note_of_none rfl (henters.trans hin) rfl]
    have hback : p.enter env mode = { p with phase := .idle } := by
      simp only [EnterEnv.entered] at hin
      simp only [Power.enter, Power.deepSleep]
      split_ifs at hin ⊢ <;> rfl
    rw [hback]
    exact ⟨h.entries, fun _ => h.latched hsettle, h.waiting, nofun⟩
  | some m =>
    have hm : m = mode ∧ mode ≠ 0 := by
      simp only [EnterEnv.entered] at hin
      split_ifs at hin with h2 _ h3 <;> cases hin
      · exact ⟨h2.symm, h2 ▸ by decide⟩
      · exact ⟨h3.symm, h3 ▸ by decide⟩
    obtain ⟨rfl, hm0⟩ := hm
    have hsample : p.lpPendingMode = m ∧ g.broken = false :=
      hok m hph (by rw [henters, hin]; exact nofun)
    obtain ⟨hhon, htried⟩ := h.entry hph hsample.1 hsample.2 hm0
    have hnote : g.note p (.enter env) p' =
        ⟨g.accepted.map (·.tried m), g.broken,
          ⟨m, p.rtc, g.accepted, p.fwdgtCounts m⟩ :: g.entries⟩ := by
      simp only [LpLog.note, Power.accepts, henters, hin]
    have hgone : (p.enter env m).phase = .aborting ∨ (p.enter env m).lpPendingMode = 0 := by
      simp only [EnterEnv.entered] at hin
      simp only [Power.enter, Power.deepSleep, Power.standby]
      split_ifs at hin ⊢ <;> first | exact .inl rfl | exact .inr rfl
    rw [hnote]
    refine ⟨?_, fun hna hne => ?_, fun r hr hun => ?_, fun _ => htried⟩
    · rintro e (_ | ⟨_, he⟩)
      · exact hhon
      · exact h.entries e he
    · exact (hgone.elim hna hne).elim
    · rw [htried r hr] at hun
      cases hun

/-- The latch cleared after an aborted standby. -/
lemma LpInv.drop (h : LpInv (p, g)) (hph : p.phase = .aborting) : LpInv (p.drop, g) := by
  refine ⟨h.entries, fun _ hne => absurd rfl hne, fun r hr hun => ?_, nofun⟩
  rw [h.aborting hph r hr] at hun
  cases hun

lemma LpInv.step {x y : Power × LpLog} {op : PowerOp} (h : LpInv x)
    (hs : withHistory powerStep LpLog.note x op = some y) (hok : LpInStep x op) : LpInv y := by
  obtain ⟨p, g⟩ := x
  obtain ⟨p', g'⟩ := y
  obtain ⟨hstep, hnote⟩ := withHistory_eq_some.mp hs
  simp only at hstep hnote
  subst hnote
  cases op with
  | request env mode wakeBitmap wakeAfterMs =>
    cases hstep
    exact h.request hok
  | tick env =>
    simp only [powerStep] at hstep
    split_ifs at hstep with hph
    cases hstep
    rw [LpLog.note_of_none rfl rfl rfl]
    exact h.tick hph env
  | enter env =>
    simp only [powerStep] at hstep
    split at hstep
    · next mode hph =>
      cases hstep
      exact h.enter hph hok
    · cases hstep
  | drop =>
    simp only [powerStep] at hstep
    split_ifs at hstep with hph
    cases hstep
    rw [LpLog.note_of_none rfl rfl rfl]
    exact h.drop hph

/-! ### Runs -/

/-- Any reset state, nothing accepted yet. -/
def LpStart (x : Power × LpLog) : Prop :=
  (∃ rtc dpslp stdby, x.1 = .boot rtc dpslp stdby) ∧ x.2 = ⟨none, false, []⟩

/-- In every run that keeps latch and timer in step, low-power requests are honoured. -/
theorem low_power_honoured {x : Power × LpLog}
    (h : Reach (withHistory powerStep LpLog.note) LpStart (fun x op _ => LpInStep x op) x) :
    LpHonoured x := by
  have hinv : LpInv x := by
    apply Reach.invariant (I := LpInv) ?_ ?_ h
    · rintro ⟨_, _⟩ ⟨⟨rtc, dpslp, stdby, rfl⟩, rfl⟩
      exact ⟨nofun, fun _ hne => absurd rfl hne, nofun, nofun⟩
    · exact fun _ _ _ _ hI hs hok => hI.step hs hok
  exact ⟨hinv.entries, hinv.waiting⟩

/-- Every RTC call succeeds. -/
def armClean : ArmEnv := ⟨true, .success, .success, .success⟩

/-- A quiet link; a standby entry does not take. -/
def enterQuiet : EnterEnv := ⟨true, true, true, .success, false⟩

def tickQuiet : TickEnv := ⟨true, true, true, true, true⟩

def bootLog : Power × LpLog := (.boot ⟨false, false, 0, false⟩ true true, ⟨none, false, []⟩)

lemma lpStart_bootLog : LpStart bootLog := ⟨⟨_, _, _, rfl⟩, rfl⟩

/-- A test for runs that keep in step: no request comes while a standby is aborted. -/
def lpInStepTest (x : Power × LpLog) (op : PowerOp) (_ : Power × LpLog) : Bool :=
  match op with
  | .request .. => x.1.phase != .aborting
  | .enter _ => x.1.phase == .settling x.1.lpPendingMode && !x.2.broken
  | _ => true

lemma lpInStep_of_test (x : Power × LpLog) (op : PowerOp) (y : Power × LpLog)
    (h : lpInStepTest x op y = true) : LpInStep x op := by
  cases op with
  | request env mode wakeBitmap wakeAfterMs =>
    simp only [lpInStepTest, bne_iff_ne] at h
    exact fun hab => absurd hab h
  | enter env =>
    simp only [lpInStepTest, Bool.and_eq_true, beq_iff_eq, Bool.not_eq_true'] at h
    exact fun mode hph _ => ⟨TickPhase.settling.inj (h.1.symm.trans hph), h.2⟩
  | tick => trivial
  | drop => trivial

/-- A deep-sleep of 200 ms: its request is broken off while one of 100 ms waits, and sent again. -/
theorem low_power_honoured_sleep :
    ∃ x, Reach (withHistory powerStep LpLog.note) LpStart (fun x op _ => LpInStep x op) x ∧
      x.2.entries.map (·.request) = [some ⟨2, 200, false⟩] ∧ LpHonoured x := by
  have hinit : Reach (withHistory powerStep LpLog.note) LpStart (fun x op _ => LpInStep x op)
      bootLog := .start lpStart_bootLog
  obtain ⟨x, hx, hq⟩ := hinit.exists_of_run lpInStepTest
    (fun x => x.2.entries.map (·.request) == [some ⟨2, 200, false⟩])
    [.request armClean 2 0 100, .request ⟨true, .success, .error false, .success⟩ 2 0 200,
      .request armClean 2 0 200, .tick tickQuiet, .enter enterQuiet] lpInStep_of_test (by decide)
  exact ⟨x, hx, by simpa using hq, low_power_honoured hx⟩

/-- A request for the other mode during the settle spin; a request whose RTC call fails while
another one waits; a request between an aborted standby and the clearing of the latch. -/
theorem low_power_requests_mixed :
    (∃ x, Reach (withHistory powerStep LpLog.note) LpStart (fun _ _ _ => True) x ∧
      (∃ e ∈ x.2.entries, e.mode = 2 ∧ e.request = some ⟨3, 200, false⟩) ∧ ¬ LpHonoured x) ∧
    (∃ x, Reach (withHistory powerStep LpLog.note) LpStart (fun _ _ _ => True) x ∧
      (∃ e ∈ x.2.entries, e.rtc.enabled = false) ∧ ¬ LpHonoured x) ∧
    ∃ x, Reach (withHistory powerStep LpLog.note) LpStart (fun _ _ _ => True) x ∧
      x.2.accepted = some ⟨2, 200, false⟩ ∧ x.1.lpPendingMode = 0 ∧ ¬ LpHonoured x := by
  have hinit : Reach (withHistory powerStep LpLog.note) LpStart (fun _ _ _ => True) bootLog :=
    .start lpStart_bootLog
  refine ⟨?_, ?_, ?_⟩
  · obtain ⟨x, hx, hq⟩ := hinit.exists_of_run (fun _ _ _ => true)
      (fun x => x.2.entries.any fun e => e.mode == 2 && e.request == some ⟨3, 200, false⟩)
      [.request armClean 2 0 100, .tick tickQuiet, .request armClean 3 0 200, .enter enterQuiet]
      (fun _ _ _ _ => trivial) (by decide)
    simp only [List.any_eq_true, Bool.and_eq_true, beq_iff_eq] at hq
    refine ⟨x, hx, hq, fun hh => ?_⟩
    obtain ⟨e, he, hmode, hreq⟩ := hq
    obtain ⟨r, hr, hrm, -⟩ := hh.1 e he
    rw [hreq, Option.some.injEq] at hr
    rw [hmode, ← hr] at hrm
    cases hrm
  · obtain ⟨x, hx, hq⟩ := hinit.exists_of_run (fun _ _ _ => true)
      (fun x => x.2.entries.any fun e => e.rtc.enabled == false)
      [.request armClean 2 0 100, .request ⟨true, .success, .error false, .success⟩ 2 0 200,
        .tick tickQuiet, .enter enterQuiet]
      (fun _ _ _ _ => trivial) (by decide)
    simp only [List.any_eq_true, beq_iff_eq] at hq
    refine ⟨x, hx, hq, fun hh => ?_⟩
    obtain ⟨e, he, hoff⟩ := hq
    obtain ⟨r, -, -, harmed, -⟩ := hh.1 e he
    rw [harmed.enabled] at hoff
    cases hoff
  · obtain ⟨x, hx, hq⟩ := hinit.exists_of_run (fun _ _ _ => true)
      (fun x => x.2.accepted == some ⟨2, 200, false⟩ && x.1.lpPendingMode == 0)
      [.request armClean 3 0 100, .tick tickQuiet, .enter enterQuiet, .request armClean 2 0 200,
        .drop]
      (fun _ _ _ _ => trivial) (by decide)
    simp only [Bool.and_eq_true, beq_iff_eq] at hq
    refine ⟨x, hx, hq.1, hq.2, fun hh => ?_⟩
    have hlatch := hh.2 _ hq.1 rfl
    rw [hq.2] at hlatch
    cases hlatch

end Gd32Bridge
