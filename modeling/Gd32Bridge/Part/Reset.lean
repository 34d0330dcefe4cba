import Mathlib.Data.List.Basic

/-!
# Reset causes, fault records and the free watchdog

`RCU_RSTSCK` latches a flag for every reset until it is cleared, and `hal/gd32/reset_reason.c`
turns a captured value into the one byte of the wire.  `hal/gd32/fault_diag.c` builds the record
that the fault handlers leave in the backup registers.  The free watchdog counts on a clock of its
own, and nothing but a reset stops it.
-/

namespace Gd32Bridge

/-! ### Reset causes -/

inductive ResetCause
  | optionBytes
  | brownOut
  | pin
  | powerOn
  | software
  | watchdog
  | windowWatchdog
  | lowPower
deriving DecidableEq, Repr

namespace ResetCause

/-- `BRIDGE_RESET_RSTSCK_*RSTF` -/
def flag : ResetCause → UInt32
  | optionBytes => 0x00800000
  | brownOut => 0x02000000
  | pin => 0x04000000
  | powerOn => 0x08000000
  | software => 0x10000000
  | watchdog => 0x20000000
  | windowWatchdog => 0x40000000
  | lowPower => 0x80000000

/-- The flag of the cause is set in `RCU_RSTSCK`. -/
def isSet (c : ResetCause) (rstsck : UInt32) : Bool :=
  rstsck &&& c.flag != 0

end ResetCause

/-- `bridge_reset_reason_decode` -/
def bridgeResetReasonDecode (rstsck : UInt32) : UInt8 :=
  if rstsck &&& ResetCause.powerOn.flag ≠ 0 then 1
  else if rstsck &&& ResetCause.brownOut.flag ≠ 0 then 5
  else if rstsck &&& (ResetCause.watchdog.flag ||| ResetCause.windowWatchdog.flag) ≠ 0 then 4
  else if rstsck &&& ResetCause.pin.flag ≠ 0 then 2
  else if rstsck &&& ResetCause.lowPower.flag ≠ 0 then 6
  else if rstsck &&& ResetCause.software.flag ≠ 0 then 3
  else 0

/-- A reset, and whether the part latches the pin flag along with it. -/
structure Reset where
  cause : ResetCause
  pin : Bool
deriving DecidableEq, Repr

namespace Reset

/-- The documented cold value of `RCU_RSTSCK`. -/
def coldRstsck : UInt32 := 0x0E000000

/-- What the reset does to `RCU_RSTSCK`. -/
def latch (r : Reset) (rstsck : UInt32) : UInt32 :=
  if r.cause = .powerOn then coldRstsck
  else rstsck ||| (r.cause.flag ||| if r.pin then ResetCause.pin.flag else 0)

/-- The causes a reset announces: its own, the pin if it is latched along, and at power-on those
of the cold value. -/
def Announces (r : Reset) (c : ResetCause) : Prop :=
  c = r.cause ∨ (c = .pin ∧ (r.pin = true ∨ r.cause = .powerOn)) ∨
    (c = .brownOut ∧ r.cause = .powerOn)

instance (r : Reset) (c : ResetCause) : Decidable (r.Announces c) :=
  inferInstanceAs (Decidable (_ ∨ _))

/-- The resets the flags stand for, after one more: a power-on loses the older ones. -/
def since (r : Reset) (rs : List Reset) : List Reset :=
  if r.cause = .powerOn then [r] else r :: rs

end Reset

/-- What a list of resets amounts to, in the published order of precedence. -/
def resetReasonOf (rs : List Reset) : UInt8 :=
  let announced (c : ResetCause) : Prop := ∃ r ∈ rs, r.Announces c
  if announced .powerOn then 1
  else if announced .brownOut then 5
  else if announced .watchdog ∨ announced .windowWatchdog then 4
  else if announced .pin then 2
  else if announced .lowPower then 6
  else if announced .software then 3
  else 0

/-- The flags of `rstsck` are those of the resets `rs`. -/
def Latched (rs : List Reset) (rstsck : UInt32) : Prop :=
  ∀ c : ResetCause, c.isSet rstsck = true ↔ ∃ r ∈ rs, r.Announces c

lemma uint32_and_or (a b c : UInt32) : a &&& (b ||| c) = (a &&& b) ||| (a &&& c) := by
  apply UInt32.toBitVec_inj.mp
  simp only [UInt32.toBitVec_and, UInt32.toBitVec_or]
  exact BitVec.and_or_distrib_left

namespace ResetCause

@[simp] lemma isSet_zero (c : ResetCause) : c.isSet 0 = false := by
  cases c <;> rfl

@[simp] lemma isSet_or (c : ResetCause) (a b : UInt32) :
    c.isSet (a ||| b) = (c.isSet a || c.isSet b) := by
  have hand : (a ||| b) &&& c.flag = (a &&& c.flag) ||| (b &&& c.flag) := by
    rw [UInt32.and_comm, uint32_and_or, UInt32.and_comm, UInt32.and_comm _ b]
  rw [Bool.eq_iff_iff, Bool.or_eq_true]
  simp only [isSet, bne_iff_ne, hand, ne_eq, UInt32.or_eq_zero_iff, not_and_or]

lemma isSet_cold (c : ResetCause) :
    c.isSet Reset.coldRstsck = decide (c = .brownOut ∨ c = .pin ∨ c = .powerOn) := by
  cases c <;> rfl

lemma isSet_flag (c d : ResetCause) : c.isSet d.flag = decide (c = d) := by
  cases c <;> cases d <;> rfl

end ResetCause

/-- After a reset the flags are those it announces, and those that were there before unless the
power was lost. -/
lemma Reset.isSet_latch (r : Reset) (c : ResetCause) (rstsck : UInt32) :
    c.isSet (r.latch rstsck) = true ↔
      r.Announces c ∨ (r.cause ≠ .powerOn ∧ c.isSet rstsck = true) := by
  obtain ⟨cause, pin⟩ := r
  simp only [latch, Announces]
  by_cases hp : cause = .powerOn
  · subst hp
    cases c <;> simp [ResetCause.isSet_cold]
  · rw [if_neg hp]
    cases pin <;> simp [hp, ResetCause.isSet_flag, or_comm, or_assoc]

lemma Latched.reset {rs : List Reset} {rstsck : UInt32} (h : Latched rs rstsck) (r : Reset) :
    Latched (r.since rs) (r.latch rstsck) := by
  intro c
  rw [r.isSet_latch]
  simp only [Reset.since]
  split_ifs with hp
  · simp [hp]
  · simp [hp, h c]

lemma latched_nil : Latched [] 0 := by
  intro c
  simp

/-- Some reset has latched its flag. -/
lemma Latched.ne_zero {rs : List Reset} {rstsck : UInt32} (h : Latched rs rstsck) (hrs : rs ≠ []) :
    rstsck ≠ 0 := by
  obtain ⟨r, hr⟩ := List.exists_mem_of_ne_nil rs hrs
  rintro rfl
  have hset := (h r.cause).mpr ⟨r, hr, .inl rfl⟩
  rw [ResetCause.isSet_zero] at hset
  cases hset

/-- The decoded byte is what the latched resets amount to. -/
theorem Latched.decode {rs : List Reset} {rstsck : UInt32} (h : Latched rs rstsck) :
    bridgeResetReasonDecode rstsck = resetReasonOf rs := by
  have hflag (c : ResetCause) : rstsck &&& c.flag ≠ 0 ↔ ∃ r ∈ rs, r.Announces c := by
    rw [← h c, ResetCause.isSet, bne_iff_ne]
  have hdog : rstsck &&& (ResetCause.watchdog.flag ||| ResetCause.windowWatchdog.flag) ≠ 0 ↔
      (∃ r ∈ rs, r.Announces .watchdog) ∨ ∃ r ∈ rs, r.Announces .windowWatchdog := by
    rw [uint32_and_or, ne_eq, UInt32.or_eq_zero_iff, not_and_or]
    exact or_congr (hflag _) (hflag _)
  simp only [bridgeResetReasonDecode, resetReasonOf, hflag, hdog]

/-! ### Fault records -/

/-- `fault_type_t` -/
inductive FaultType
  | nmi
  | hardFault
  | memManage
  | busFault
  | usageFault
deriving DecidableEq, Repr

def FaultType.code : FaultType → UInt32
  | nmi => 0
  | hardFault => 1
  | memManage => 2
  | busFault => 3
  | usageFault => 4

/-- `fault_record_t` -/
structure FaultRecord where
  magic : UInt32
  pc : UInt32
  lr : UInt32
  statusPrimary : UInt32
  statusSecondary : UInt32
  mmfar : UInt32
  bfar : UInt32
deriving DecidableEq, Repr

/-- What a fault handler finds on the stack and in the status registers. -/
structure FaultScene where
  pc : UInt32
  lr : UInt32
  cfsr : UInt32
  hfsr : UInt32
  mmfar : UInt32
  bfar : UInt32
  /-- `SYSCFG_STAT` -/
  stat : UInt32
  /-- `FMC_ECCCS` -/
  eccs : UInt32
deriving DecidableEq, Repr

def faultRecordMagic : UInt32 := 0xFA170000
def cfsrMmarValid : UInt32 := 0x00000080
def cfsrBfarValid : UInt32 := 0x00008000
def statFlashEcc : UInt32 := 0x00000004

/-- `fault_diag_build_cpu` -/
def faultDiagBuildCpu (t : FaultType) (pc lr cfsr hfsr mmfarRaw bfarRaw : UInt32) : FaultRecord where
  magic := faultRecordMagic ||| t.code
  pc := pc
  lr := lr
  statusPrimary := cfsr
  statusSecondary := hfsr
  mmfar := if cfsr &&& cfsrMmarValid ≠ 0 then mmfarRaw else 0
  bfar := if cfsr &&& cfsrBfarValid ≠ 0 then bfarRaw else 0

/-- `fault_diag_build_nmi` -/
def faultDiagBuildNmi (pc lr stat eccsRaw : UInt32) : FaultRecord where
  magic := faultRecordMagic ||| FaultType.nmi.code
  pc := pc
  lr := lr
  statusPrimary := stat
  statusSecondary := if stat &&& statFlashEcc ≠ 0 then eccsRaw else 0
  mmfar := 0
  bfar := 0

/-- The record `fault_common_handler` builds. -/
def FaultScene.record (x : FaultScene) : FaultType → FaultRecord
  | .nmi => faultDiagBuildNmi x.pc x.lr x.stat (if x.stat &&& statFlashEcc ≠ 0 then x.eccs else 0)
  | t => faultDiagBuildCpu t x.pc x.lr x.cfsr x.hfsr x.mmfar x.bfar

/-! ### The free watchdog -/

/-- The prescalers that are used. -/
inductive FwdgtPsc
  | div4
  | div32
  | div256
deriving DecidableEq, Repr

/-- Periods of the IRC32K in one count. -/
def FwdgtPsc.periods : FwdgtPsc → ℕ
  | div4 => 4
  | div32 => 32
  | div256 => 256

/-- The free watchdog: a 12-bit counter that counts down to a reset once it is started. -/
structure Fwdgt where
  started : Bool
  psc : FwdgtPsc
  rld : Fin 4096
  count : Fin 4096
deriving DecidableEq, Repr

namespace Fwdgt

/-- The reset values. -/
def initial : Fwdgt := ⟨false, .div4, 4095, 4095⟩

/-- The counter has run out: only the reset is left. -/
def expired (d : Fwdgt) : Bool :=
  d.started && d.count == 0

/-- One count. -/
def tick (d : Fwdgt) : Option Fwdgt :=
  if d.started && d.count != 0 then some { d with count := ⟨d.count - 1, by omega⟩ } else none

/-- Periods of the IRC32K until the counter runs out. -/
def left (d : Fwdgt) : ℕ :=
  d.count * d.psc.periods

end Fwdgt

/-- How the updates of the prescaler and the reload register in `fwdgt_config` end. -/
inductive FwdgtUpdate
  | done
  | pscTimeout
  | rldTimeout
deriving DecidableEq, Repr

/-- `fwdgt_config`: the counter is started first, then the two registers are updated, each after a
bounded wait; true for `SUCCESS`. -/
def fwdgtConfig (d : Fwdgt) (reload : Fin 4096) (psc : FwdgtPsc) : FwdgtUpdate → Fwdgt × Bool
  | .done => (⟨true, psc, reload, reload⟩, true)
  | .pscTimeout => ({ d with started := true }, false)
  | .rldTimeout => ({ d with started := true, psc := psc }, false)

/-- `fwdgt_counter_reload` -/
def fwdgtCounterReload (d : Fwdgt) : Fwdgt :=
  { d with count := d.rld }

/-- `fwdgt_enable` -/
def fwdgtEnable (d : Fwdgt) : Fwdgt :=
  { d with started := true }

/-- `OTA_TRIAL_FWDGT_RELOAD` -/
def otaTrialFwdgtReload : Fin 4096 := 0xFFF

/-- `BRIDGE_FWDGT_RELOAD` -/
def bridgeFwdgtReload : Fin 4096 := 500

/-- `bridge_fwdgt_arm`, with the outcome of the first update and of the retry. -/
def bridgeFwdgtArm (d : Fwdgt) (u u' : FwdgtUpdate) : Fwdgt :=
  match fwdgtConfig d bridgeFwdgtReload .div32 u with
  | (d, true) => fwdgtEnable d
  | (d, false) => fwdgtEnable (fwdgtConfig d bridgeFwdgtReload .div32 u').1

/-- The longest window the watchdog can express, in periods of the IRC32K. -/
def fwdgtLongest : ℕ := 4095 * 256

lemma Fwdgt.left_le (d : Fwdgt) : d.left ≤ fwdgtLongest := by
  have hcount : d.count.val ≤ 4095 := Nat.le_of_lt_succ d.count.isLt
  have hpsc : d.psc.periods ≤ 256 := by cases d.psc <;> decide
  exact Nat.mul_le_mul hcount hpsc

/-- One count takes its periods off what is left. -/
lemma Fwdgt.left_of_tick {d d' : Fwdgt} (h : d.tick = some d') :
    d'.started = true ∧ d'.psc = d.psc ∧ d'.left + d.psc.periods = d.left := by
  simp only [tick] at h
  split_ifs at h with hc
  cases h
  rw [Bool.and_eq_true, bne_iff_ne, ne_eq, Fin.ext_iff] at hc
  have hpos : 1 ≤ d.count.val := Nat.one_le_iff_ne_zero.mpr hc.2
  refine ⟨hc.1, rfl, ?_⟩
  simp only [left]
  calc (d.count.val - 1) * d.psc.periods + d.psc.periods
      = (d.count.val - 1 + 1) * d.psc.periods := by rw [Nat.add_one_mul]
    _ = d.count.val * d.psc.periods := by rw [Nat.sub_add_cancel hpos]

lemma fwdgtConfig_started (d : Fwdgt) (reload : Fin 4096) (psc : FwdgtPsc) (u : FwdgtUpdate) :
    (fwdgtConfig d reload psc u).1.started = true := by
  cases u <;> rfl

end Gd32Bridge
