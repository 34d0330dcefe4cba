import Gd32Bridge.Pwm.Basic

/-!
# A one-shot fires once

After PWM_SINGLE_PULSE the counter halts at 0 with the channel still in the inverted compare mode.
It stays quiet as long as nothing starts the counter of the timer again.
-/

namespace Gd32Bridge

open Transition

variable {tm : PwmTimer} {ch ch' w k : ℕ}

/-! ### What is remembered -/

/-- A one-shot: its width in ticks, and the ticks of its timer since. -/
structure Fired where
  width : ℕ
  ticks : ℕ
deriving DecidableEq, Repr

/-- The one-shot of each channel, until a command is addressed to the channel. -/
abbrev PwmLog := ℕ → Option Fired

def PwmCommand.fires : PwmCommand → Option Fired
  | .singlePulse pulseNs => some ⟨pulseNs / pwmTimerTickNs, 0⟩
  | _ => none

def PwmLog.note (g : PwmLog) (s : Pwm) (op : PwmOp) (_ : Pwm) : PwmLog :=
  match op with
  | .command ch cmd => if (s.command ch cmd).rv = .ok then Function.update g ch cmd.fires else g
  | .tick t => fun ch =>
    if pwmTimerIndex ch = t then (g ch).map fun f => { f with ticks := f.ticks + 1 } else g ch

/-- The pad of a channel that fired is active in ticks `1 .. width` after it, and in no other. -/
def PulsedOnce (x : Pwm × PwmLog) : Prop :=
  ∀ ch f, x.2 ch = some f → x.1.pad ch = decide (1 ≤ f.ticks ∧ f.ticks ≤ f.width)

/-- Two channels of one timer. -/
def PwmSibling (ch ch' : ℕ) : Prop := ch' ≠ ch ∧ pwmTimerIndex ch' = pwmTimerIndex ch

/-- What an accepted command may do beside the one-shots of its siblings: it does not start the
counter with a reload above 0, does not change the alignment while a pulse runs, and does not fire
a channel whose pad is an input. -/
def PwmUndisturbed (x : Pwm × PwmLog) : PwmOp → Prop
  | .tick _ => True
  | .command ch cmd =>
    (x.1.command ch cmd).rv = .ok →
      match cmd with
      | .set periodNs _ => 2 * pwmTimerTickNs ≤ periodNs → ∀ ch', PwmSibling ch ch' → x.2 ch' = none
      | .configure alignMode _ _ => alignMode ≠ (x.1.timers (pwmTimerIndex ch)).alignMode →
          ∀ ch', PwmSibling ch ch' → ∀ f, x.2 ch' = some f → f.width < f.ticks
      | .singlePulse _ => (∀ ch', PwmSibling ch ch' → x.2 ch' = none) ∧
          ((x.1.timers (pwmTimerIndex ch)).channels ch).driving = true
      | _ => True

/-! ### The state of a one-shot -/

/-- The channel as it stays until the next command to it. -/
structure PwmChannel.Armed (c : PwmChannel) : Prop where
  mode : c.mode = .pwm1
  compare : c.compare = 1
  compareActive : c.compareActive = 1
  driving : c.driving = true

/-- `k` ticks after a one-shot of width `w`: the count is running towards its one update event,
or it is at 0 and cannot leave it. -/
structure OneShot (tm : PwmTimer) (ch w k : ℕ) : Prop where
  channel : (tm.channels ch).Armed
  pos : 1 ≤ w
  bound : w ≤ pwmTimerArrMax
  phase : (k ≤ w ∧ tm.cam = 0 ∧ tm.cen = true ∧ tm.cnt = k ∧ tm.carActive = w ∧
      (tm.spm = true ∨ tm.car = 0)) ∨
    (w < k ∧ tm.cnt = 0 ∧ (tm.cen = false ∨ tm.car = 0 ∧ tm.carActive = 0))

lemma OneShot.pad_eq (h : OneShot tm ch w k) : tm.pad ch = decide (1 ≤ k ∧ k ≤ w) := by
  have hpad : tm.pad ch = decide (1 ≤ tm.cnt) := by
    simp only [PwmTimer.pad, PwmChannel.output, h.channel.driving, h.channel.mode,
      h.channel.compareActive, Bool.true_and]
    by_cases hcnt : tm.cnt < 1
    · simp [hcnt, Nat.not_le.mpr hcnt]
    · simp [hcnt, Nat.not_lt.mp hcnt]
  rw [hpad]
  rcases h.phase with ⟨hk, -, -, hcnt, -, -⟩ | ⟨hk, hcnt, -⟩
  · rw [hcnt]
    simp [hk]
  · rw [hcnt]
    have hno : ¬ (1 ≤ k ∧ k ≤ w) := by omega
    simp [hno]

/-- An update event leaves the channel as it is. -/
lemma PwmChannel.Armed.promote {tm : PwmTimer} (h : (tm.channels ch).Armed) :
    (tm.promote.channels ch).Armed :=
  ⟨h.mode, h.compare, h.compare, h.driving⟩

/-- A counter with nothing to count to stays at 0, whatever the alignment. -/
lemma PwmTimer.tick_of_still (hcnt : tm.cnt = 0) (hcar : tm.carActive = 0) :
    tm.tick = tm ∨ ∃ down, tm.tick = tm.overflow 0 down := by
  fun_cases tick tm with
  | case1 => exact .inl rfl
  | case2 => exact .inr ⟨_, rfl⟩
  | case3 _ _ hne => exact absurd (hcnt.trans hcar.symm) hne
  | case4 => exact .inr ⟨_, rfl⟩
  | case5 _ _ _ hlow => exact absurd (hcnt ▸ Nat.zero_le 1) hlow
  | case6 _ _ _ hlt => exact absurd (hcar ▸ hlt) (Nat.not_lt_zero _)
  | case7 =>
    rw [hcar]
    exact .inr ⟨_, rfl⟩

lemma OneShot.tick (h : OneShot tm ch w k) : OneShot tm.tick ch w (k + 1) := by
  have hbound : w ≤ 65535 := h.bound
  rcases h.phase with ⟨hk, hcam, hcen, hcnt, hcar, hend⟩ | ⟨hk, hcnt, hstill⟩
  · by_cases hlast : k = w
    · -- the one update event
      have htick : tm.tick = tm.overflow 0 tm.down := by
        simp [PwmTimer.tick, hcen, hcam, hcnt, hcar, hlast]
      rw [htick]
      refine ⟨h.channel.promote, h.pos, h.bound, .inr ⟨by omega, rfl, ?_⟩⟩
      rcases hend with hspm | hcar0
      · left
        simp [PwmTimer.overflow, PwmTimer.promote, hspm]
      · exact .inr ⟨hcar0, hcar0⟩
    · have htick : tm.tick = { tm with cnt := k + 1 } := by
        have hmod : (k + 1) % 2 ^ 16 = k + 1 := Nat.mod_eq_of_lt (by omega)
        simp only [PwmTimer.tick, hcen, hcam, hcnt, hcar, hmod]
        simp [hlast]
      rw [htick]
      exact ⟨h.channel, h.pos, h.bound, .inl ⟨by omega, hcam, hcen, rfl, hcar, hend⟩⟩
  · rcases hstill with hoff | ⟨hcar0, hcar⟩
    · have htick : tm.tick = tm := by simp [PwmTimer.tick, hoff]
      rw [htick]
      exact ⟨h.channel, h.pos, h.bound, .inr ⟨by omega, hcnt, .inl hoff⟩⟩
    · rcases PwmTimer.tick_of_still hcnt hcar with htick | ⟨down, htick⟩
      · rw [htick]
        exact ⟨h.channel, h.pos, h.bound, .inr ⟨by omega, hcnt, .inr ⟨hcar0, hcar⟩⟩⟩
      · rw [htick]
        exact ⟨h.channel.promote, h.pos, h.bound, .inr ⟨by omega, rfl, .inr ⟨hcar0, hcar0⟩⟩⟩

/-! ### Commands to a sibling -/

@[simp]
lemma PwmTimer.setChannel_channels (c : PwmChannel) :
    (tm.setChannel ch c).channels = Function.update tm.channels ch c := rfl

/-- A write to the registers of a sibling and to the claims. -/
lemma OneShot.setChannel (h : OneShot tm ch w k) (hne : ch ≠ ch') (claims : UInt8)
    (c : PwmChannel) : OneShot ({ tm with claims }.setChannel ch' c) ch w k := by
  refine ⟨?_, h.pos, h.bound, h.phase⟩
  rw [PwmTimer.setChannel_channels, Function.update_of_ne hne]
  exact h.channel

/-- A reload of one tick: the accepted PWM_SETs below two ticks. -/
lemma pwmCounterValues_short {periodNs dutyNs arr compare : ℕ} {centerAligned : Bool}
    (hshort : periodNs < 2 * pwmTimerTickNs)
    (h : pwmCounterValues periodNs dutyNs centerAligned = .ok (arr, compare)) : arr = 0 := by
  have hone : periodNs / pwmTimerTickNs < 2 :=
    Nat.div_lt_of_lt_mul (Nat.mul_comm 2 pwmTimerTickNs ▸ hshort)
  revert h
  fun_cases pwmCounterValues periodNs dutyNs centerAligned with
  | case4 =>
    intro h
    simp only [Except.ok.injEq, Prod.mk.injEq] at h
    omega
  | case7 _ _ _ _ _ _ hhalf =>
    exact absurd (Nat.div_eq_of_lt hone) hhalf
  | _ => exact nofun

lemma OneShot.set (h : OneShot tm ch w k) (hne : ch ≠ ch') {periodNs dutyNs : ℕ}
    (hshort : periodNs < 2 * pwmTimerTickNs) : OneShot (tm.set ch' periodNs dutyNs).hw ch w k := by
  simp only [PwmTimer.set]
  split
  · exact h
  split
  · exact h
  · next arr compare hval =>
    obtain rfl := pwmCounterValues_short hshort hval
    simp only [PwmTimer.applyCounterValues]
    split
    · exact h
    have harmed : ∀ c, ((({ tm.claim ch' with spm := false, car := 0 } : PwmTimer).setChannel ch'
        c).channels ch).Armed := by
      intro c
      rw [PwmTimer.setChannel_channels, Function.update_of_ne hne]
      exact h.channel
    cases hcen : tm.cen with
    | true =>
      refine ⟨harmed _, h.pos, h.bound, ?_⟩
      rcases h.phase with ⟨hk, hcam, -, hcnt, hcar, -⟩ | ⟨hk, hcnt, hstill⟩
      · exact .inl ⟨hk, hcam, rfl, hcnt, hcar, .inr rfl⟩
      · rcases hstill with hoff | ⟨-, hcar⟩
        · rw [hcen] at hoff
          cases hoff
        · exact .inr ⟨hk, hcnt, .inr ⟨rfl, hcar⟩⟩
    | false =>
      refine ⟨(harmed _).promote, h.pos, h.bound, ?_⟩
      rcases h.phase with ⟨-, -, hon, -⟩ | ⟨hk, -, -⟩
      · rw [hcen] at hon
        cases hon
      · exact .inr ⟨hk, rfl, .inr ⟨rfl, rfl⟩⟩

lemma OneShot.configure (h : OneShot tm ch w k) {alignMode deadTimeNs breakCfg : ℕ}
    (hrun : alignMode ≠ tm.alignMode → w < k) :
    OneShot (tm.configure alignMode deadTimeNs breakCfg).hw ch w k := by
  fun_cases PwmTimer.configure tm alignMode deadTimeNs breakCfg with
  | case1 => exact h
  | case2 => exact h
  | case3 => exact h
  | case4 => exact h
  | case5 _ _ _ halign =>
    have hover : w < k := hrun (Ne.symm halign)
    rcases h.phase with ⟨hk, -⟩ | ⟨hk, hcnt, hstill⟩
    · omega
    · exact ⟨h.channel, h.pos, h.bound, .inr ⟨hk, hcnt, hstill⟩⟩

/-! ### Firing -/

lemma OneShot.of_fire {pulseNs : ℕ} (halign : tm.cam = tm.alignMode)
    (hdrive : (tm.channels ch).driving = true) (hok : (tm.singlePulse ch pulseNs).rv = .ok) :
    OneShot (tm.singlePulse ch pulseNs).hw ch (pulseNs / pwmTimerTickNs) 0 := by
  simp only [PwmTimer.singlePulse] at hok ⊢
  split_ifs at hok ⊢ with h₀ hmax ha hs hc
  have harmed : ((({ tm.release ch with cen := false, car := pulseNs / pwmTimerTickNs } :
      PwmTimer).setChannel ch (tm.channels ch).oneShotArmed).upg.channels ch).Armed := by
    simp only [PwmTimer.upg, PwmTimer.promote, PwmTimer.setChannel_channels, Function.update_self]
    exact ⟨rfl, rfl, rfl, hdrive⟩
  refine ⟨harmed, Nat.pos_of_ne_zero h₀, Nat.not_lt.mp hmax, .inl ⟨Nat.zero_le _, ?_, rfl, rfl, rfl, .inl rfl⟩⟩
  exact halign.trans (not_not.mp ha)

/-! ### Runs -/

/-- The alignment the firmware remembers is the timer's. -/
lemma PwmTimer.serve_aligned (cmd : PwmCommand) (h : tm.cam = tm.alignMode) :
    (tm.serve ch cmd).hw.cam = (tm.serve ch cmd).hw.alignMode := by
  cases cmd with
  | set periodNs dutyNs =>
    simp only [serve, set]
    split
    · exact h
    split
    · exact h
    · simp only [applyCounterValues]
      split
      · exact h
      · split <;> exact h
  | configure alignMode deadTimeNs breakCfg =>
    simp only [serve, configure]
    split_ifs <;> first | exact h | rfl
  | singlePulse pulseNs =>
    simp only [serve, singlePulse]
    split_ifs <;> exact h
  | captureBegin edge =>
    simp only [serve, captureBegin]
    split_ifs <;> exact h
  | captureEnd => exact h

/-- A command that is not accepted changes nothing. -/
lemma PwmTimer.serve_of_refused {cmd : PwmCommand} (h : (tm.serve ch cmd).rv ≠ .ok) :
    (tm.serve ch cmd).hw = tm := by
  revert h
  cases cmd with
  | set periodNs dutyNs =>
    simp only [serve, set]
    split
    · exact fun _ => rfl
    split
    · exact fun _ => rfl
    · simp only [applyCounterValues]
      split
      · exact fun _ => rfl
      · exact fun h => absurd rfl h
  | configure alignMode deadTimeNs breakCfg =>
    simp only [serve, configure]
    split_ifs <;> first | exact fun _ => rfl | exact fun h => absurd rfl h
  | singlePulse pulseNs =>
    simp only [serve, singlePulse]
    split_ifs <;> first | exact fun _ => rfl | exact fun h => absurd rfl h
  | captureBegin edge =>
    simp only [serve, captureBegin]
    split_ifs <;> first | exact fun _ => rfl | exact fun h => absurd rfl h
  | captureEnd => exact fun h => absurd rfl h

/-- A command to a sibling that meets the condition. -/
lemma OneShot.serve (h : OneShot tm ch w k) (hne : ch ≠ ch') {cmd : PwmCommand}
    (hset : ∀ p d, cmd = .set p d → p < 2 * pwmTimerTickNs)
    (hcfg : ∀ a d b, cmd = .configure a d b → a ≠ tm.alignMode → w < k)
    (hfire : ∀ n, cmd ≠ .singlePulse n) : OneShot (tm.serve ch' cmd).hw ch w k := by
  cases cmd with
  | set p d => exact h.set hne (hset p d rfl)
  | configure a d b => exact h.configure (hcfg a d b rfl)
  | singlePulse n => exact absurd rfl (hfire n)
  | captureBegin edge =>
    simp only [PwmTimer.serve, PwmTimer.captureBegin]
    split_ifs
    · exact h
    · exact h.setChannel hne _ _
  | captureEnd => exact h.setChannel hne _ _

/-- Every one-shot is where its ticks put it. -/
structure PwmInv (x : Pwm × PwmLog) : Prop where
  aligned : ∀ t, (x.1.timers t).cam = (x.1.timers t).alignMode
  shots : ∀ ch f, x.2 ch = some f →
    OneShot (x.1.timers (pwmTimerIndex ch)) ch f.width f.ticks

variable {s s' : Pwm} {g : PwmLog}

lemma Pwm.command_timers {cmd : PwmCommand} (hch : ch < pwmChannelCount) :
    (s.command ch cmd).hw.timers = Function.update s.timers (pwmTimerIndex ch)
      ((s.timers (pwmTimerIndex ch)).serve ch cmd).hw := by
  simp only [command, if_neg (Nat.not_le.mpr hch)]

lemma Pwm.command_rv {cmd : PwmCommand} (hch : ch < pwmChannelCount) :
    (s.command ch cmd).rv = ((s.timers (pwmTimerIndex ch)).serve ch cmd).rv := by
  simp only [command, if_neg (Nat.not_le.mpr hch)]

lemma Pwm.command_of_refused {cmd : PwmCommand} (h : (s.command ch cmd).rv ≠ .ok) :
    (s.command ch cmd).hw = s := by
  by_cases hch : ch < pwmChannelCount
  · rw [command_rv hch] at h
    have hsame : (s.command ch cmd).hw.timers = s.timers := by
      rw [command_timers hch, PwmTimer.serve_of_refused h, Function.update_eq_self]
    exact congrArg Pwm.mk hsame
  · simp only [command, if_pos (Nat.not_lt.mp hch)]

lemma PwmInv.tick (h : PwmInv (s, g)) (t : ℕ) :
    PwmInv (⟨Function.update s.timers t (s.timers t).tick⟩, g.note s (.tick t) s') := by
  refine ⟨fun u => ?_, fun ch f hf => ?_⟩
  · by_cases hu : u = t
    · subst hu
      simp only [Function.update_self, PwmTimer.tick, PwmTimer.overflow, PwmTimer.promote]
      split_ifs <;> exact h.aligned u
    · simp only [Function.update_of_ne hu]
      exact h.aligned u
  · simp only [PwmLog.note] at hf
    by_cases ht : pwmTimerIndex ch = t
    · rw [if_pos ht] at hf
      obtain ⟨f₀, hf₀, rfl⟩ := Option.map_eq_some_iff.mp hf
      have hshot := (h.shots ch f₀ hf₀).tick
      subst ht
      simp only [Function.update_self]
      exact hshot
    · rw [if_neg ht] at hf
      simp only [Function.update_of_ne ht]
      exact h.shots ch f hf

/-- The one-shot of another channel beside an accepted command. -/
lemma PwmInv.shot_of_command (h : PwmInv (s, g)) {cmd : PwmCommand} {f : Fired}
    (hch : ch < pwmChannelCount) (hok : PwmUndisturbed (s, g) (.command ch cmd))
    (hrv : (s.command ch cmd).rv = .ok) (hne : ch' ≠ ch) (hf : g ch' = some f) :
    OneShot ((s.command ch cmd).hw.timers (pwmTimerIndex ch')) ch' f.width f.ticks := by
  have hshot := h.shots ch' f hf
  have hcond := hok hrv
  rw [Pwm.command_timers hch]
  by_cases hidx : pwmTimerIndex ch' = pwmTimerIndex ch
  · have hbusy : ¬ ∀ c, PwmSibling ch c → g c = none := fun hnone => by
      rw [hnone ch' ⟨hne, hidx⟩] at hf
      cases hf
    simp only [hidx, Function.update_self] at hshot ⊢
    refine hshot.serve hne ?_ ?_ ?_
    · rintro p d rfl
      exact Nat.not_le.mp fun hlong => hbusy (hcond hlong)
    · rintro a d b rfl ha
      exact hcond ha ch' ⟨hne, hidx⟩ f hf
    · rintro n rfl
      exact hbusy hcond.1
  · simp only [Function.update_of_ne hidx]
    exact hshot

lemma PwmInv.command (h : PwmInv (s, g)) {cmd : PwmCommand}
    (hok : PwmUndisturbed (s, g) (.command ch cmd)) :
    PwmInv ((s.command ch cmd).hw, g.note s (.command ch cmd) s') := by
  by_cases hrv : (s.command ch cmd).rv = .ok
  swap
  · simp only [PwmLog.note, if_neg hrv, Pwm.command_of_refused hrv]
    exact h
  have hch : ch < pwmChannelCount := by
    refine Nat.not_le.mp fun hge => ?_
    simp [Pwm.command, hge] at hrv
  refine ⟨fun t => ?_, fun ch' f hf => ?_⟩
  · simp only [Pwm.command_timers hch]
    by_cases ht : t = pwmTimerIndex ch
    · simp only [ht, Function.update_self]
      exact PwmTimer.serve_aligned cmd (h.aligned _)
    · simp only [Function.update_of_ne ht]
      exact h.aligned t
  · simp only [PwmLog.note, if_pos hrv] at hf
    by_cases hne : ch' = ch
    · subst hne
      rw [Function.update_self] at hf
      cases cmd with
      | singlePulse pulseNs =>
        cases hf
        simp only [Pwm.command_timers hch, Function.update_self]
        have hdrive := (hok hrv).2
        rw [Pwm.command_rv hch] at hrv
        exact .of_fire (h.aligned _) hdrive hrv
      | _ => cases hf
    · rw [Function.update_of_ne hne] at hf
      exact h.shot_of_command hch hok hrv hne hf

lemma PwmInv.step {x y : Pwm × PwmLog} {op : PwmOp} (h : PwmInv x)
    (hs : withHistory pwmStep PwmLog.note x op = some y) (hok : PwmUndisturbed x op) : PwmInv y := by
  obtain ⟨s, g⟩ := x
  obtain ⟨s', g'⟩ := y
  obtain ⟨hstep, hnote⟩ := withHistory_eq_some.mp hs
  simp only at hstep hnote
  subst hnote
  cases op with
  | command ch cmd =>
    cases hstep
    exact h.command hok
  | tick t =>
    cases hstep
    exact h.tick t

/-- Any boot state, nothing fired. -/
def PwmStart (x : Pwm × PwmLog) : Prop := (∃ sync, x.1 = .boot sync) ∧ x.2 = fun _ => none

/-- In every run whose commands leave the one-shots of their siblings alone, a one-shot is one
window of its width, and the pad stays inactive until the next command to the channel. -/
theorem one_shot_fires_once {x : Pwm × PwmLog}
    (h : Reach (withHistory pwmStep PwmLog.note) PwmStart (fun x op _ => PwmUndisturbed x op) x) :
    PulsedOnce x := by
  have hinv : PwmInv x := by
    apply Reach.invariant (I := PwmInv) ?_ ?_ h
    · rintro ⟨_, _⟩ ⟨⟨sync, rfl⟩, rfl⟩
      exact ⟨fun _ => rfl, nofun⟩
    · exact fun _ _ _ _ hI hs hok => hI.step hs hok
  exact fun ch f hf => (hinv.shots ch f hf).pad_eq

def pwmBootLog : Pwm × PwmLog := (.boot fun _ => false, fun _ => none)

lemma pwmStart_bootLog : PwmStart pwmBootLog := ⟨⟨_, rfl⟩, rfl⟩

/-- A pulse of one tick on channel 0, seen in its tick and two ticks later; channel 1 is configured
while the pulse runs, and changes the alignment of the timer when it is over. -/
theorem one_shot_fires_once_single :
    ∃ x y, Reach (withHistory pwmStep PwmLog.note) PwmStart (fun x op _ => PwmUndisturbed x op) x ∧
      Reach (withHistory pwmStep PwmLog.note) PwmStart (fun x op _ => PwmUndisturbed x op) y ∧
      x.1.pad 0 = true ∧ (y.1.timers 0).alignMode = 1 ∧ y.1.pad 0 = false := by
  have h₀ : Reach (withHistory pwmStep PwmLog.note) PwmStart (fun x op _ => PwmUndisturbed x op)
      pwmBootLog := .start pwmStart_bootLog
  have h₁ := h₀.next (PwmOp.command 0 (.singlePulse 1000)) rfl fun _ => ⟨fun _ _ => rfl, rfl⟩
  have h₂ := h₁.next (PwmOp.command 1 (.configure 0 500 0)) rfl fun _ hne => absurd rfl hne
  have h₃ := h₂.next (PwmOp.tick 0) rfl trivial
  have h₄ := h₃.next (PwmOp.tick 0) rfl trivial
  have h₅ := h₄.next (PwmOp.command 1 (.configure 1 0 0)) rfl fun _ _ ch' hsib f hf => by
    have hlt : ch' < 4 := by
      by_contra hge
      exact absurd hsib.2 (by simp [pwmTimerIndex, hge])
    -- the pulse of channel 0 is over, and no other channel has fired
    obtain rfl | rfl | rfl | rfl : ch' = 0 ∨ ch' = 1 ∨ ch' = 2 ∨ ch' = 3 := by omega
    all_goals cases hf
    decide
  have h₆ := h₅.next (PwmOp.tick 0) rfl trivial
  exact ⟨_, _, h₃, h₆, (one_shot_fires_once h₃ 0 ⟨1, 1⟩ rfl).trans rfl, rfl,
    (one_shot_fires_once h₆ 0 ⟨1, 3⟩ rfl).trans rfl⟩

/-- A pulse of two ticks on channel 0 that is over, then a command to channel 1 and one more tick;
an alignment change in the middle of the pulse; a one-shot on a channel in capture. -/
theorem one_shot_fires_again :
    (∃ x, Reach (withHistory pwmStep PwmLog.note) PwmStart (fun _ _ _ => True) x ∧
      x.2 0 = some ⟨2, 4⟩ ∧ x.1.pad 0 = true ∧ ¬ PulsedOnce x) ∧
    (∃ x, Reach (withHistory pwmStep PwmLog.note) PwmStart (fun _ _ _ => True) x ∧
      x.2 0 = some ⟨2, 4⟩ ∧ (x.1.timers 0).spm = true ∧ x.1.pad 0 = true ∧ ¬ PulsedOnce x) ∧
    (∃ x, Reach (withHistory pwmStep PwmLog.note) PwmStart (fun _ _ _ => True) x ∧
      x.2 0 = some ⟨2, 5⟩ ∧ (x.1.timers 0).cen = false ∧ x.1.pad 0 = true ∧ ¬ PulsedOnce x) ∧
    ∃ x, Reach (withHistory pwmStep PwmLog.note) PwmStart (fun _ _ _ => True) x ∧
      x.2 0 = some ⟨2, 1⟩ ∧ x.1.pad 0 = false ∧ ¬ PulsedOnce x := by
  have hinit : Reach (withHistory pwmStep PwmLog.note) PwmStart (fun _ _ _ => True) pwmBootLog :=
    .start pwmStart_bootLog
  have hwrong : ∀ {x : Pwm × PwmLog} {f : Fired} {b : Bool}, x.2 0 = some f → x.1.pad 0 = b →
      b ≠ decide (1 ≤ f.ticks ∧ f.ticks ≤ f.width) → ¬ PulsedOnce x :=
    fun hf hpad hne hx => hne (hpad.symm.trans (hx 0 _ hf))
  refine ⟨?_, ?_, ?_, ?_⟩
  · obtain ⟨x, hx, hq⟩ := hinit.exists_of_run (fun _ _ _ => true)
      (fun x => x.2 0 == some ⟨2, 4⟩ && x.1.pad 0)
      [.command 0 (.singlePulse 2000), .tick 0, .tick 0, .tick 0, .command 1 (.set 8000 4000),
        .tick 0]
      (fun _ _ _ _ => trivial) (by decide)
    simp only [Bool.and_eq_true, beq_iff_eq] at hq
    exact ⟨x, hx, hq.1, hq.2, hwrong hq.1 hq.2 (by decide)⟩
  · obtain ⟨x, hx, hq⟩ := hinit.exists_of_run (fun _ _ _ => true)
      (fun x => x.2 0 == some ⟨2, 4⟩ && ((x.1.timers 0).spm && x.1.pad 0))
      [.command 0 (.singlePulse 2000), .tick 0, .tick 0, .tick 0, .command 1 (.singlePulse 5000),
        .tick 0]
      (fun _ _ _ _ => trivial) (by decide)
    simp only [Bool.and_eq_true, beq_iff_eq] at hq
    exact ⟨x, hx, hq.1, hq.2.1, hq.2.2, hwrong hq.1 hq.2.2 (by decide)⟩
  · obtain ⟨x, hx, hq⟩ := hinit.exists_of_run (fun _ _ _ => true)
      (fun x => x.2 0 == some ⟨2, 5⟩ && ((x.1.timers 0).cen == false && x.1.pad 0))
      [.command 0 (.singlePulse 2000), .tick 0, .command 1 (.configure 3 0 0), .tick 0, .tick 0,
        .tick 0, .tick 0]
      (fun _ _ _ _ => trivial) (by decide)
    simp only [Bool.and_eq_true, beq_iff_eq] at hq
    exact ⟨x, hx, hq.1, hq.2.1, hq.2.2, hwrong hq.1 hq.2.2 (by decide)⟩
  · obtain ⟨x, hx, hq⟩ := hinit.exists_of_run (fun _ _ _ => true)
      (fun x => x.2 0 == some ⟨2, 1⟩ && x.1.pad 0 == false)
      [.command 0 (.captureBegin 0), .command 0 (.singlePulse 2000), .tick 0]
      (fun _ _ _ _ => trivial) (by decide)
    simp only [Bool.and_eq_true, beq_iff_eq] at hq
    exact ⟨x, hx, hq.1, hq.2, hwrong hq.1 hq.2 (by decide)⟩

end Gd32Bridge
