import Gd32Bridge.System.Basic
import Gd32Bridge.Part.Reset

/-!
# From one reset to the next

The device is what runs on the part once an image has been started.  Around it are the `main` of
the bootloader (`src/boot/boot_main.c`), the head of the application's start-up and the watchdog
line of `bridge_hw_tick` (`hal/gd32/init.c`), the fault handlers (`hal/gd32/fault_handlers.c`),
which the bootloader and the images have alike, and what survives a reset: the flash, the backup
registers, the reset flags, and a watchdog that may still be counting.

A program can stop making progress at any point, so none of its steps ever has to happen; the
clock of the watchdog runs whatever the program does.
-/

namespace Gd32Bridge

variable {σ : Type}

/-- The backup registers that are used. -/
structure Backup where
  /-- `RTC_BKP0` to `RTC_BKP6` -/
  record : FaultRecord
  /-- the number of faults in a row -/
  bkp7 : UInt32
  /-- the reset flags on their way from the bootloader to the application -/
  bkp8 : UInt32
deriving DecidableEq, Repr

def Backup.initial : Backup := ⟨⟨0, 0, 0, 0, 0, 0, 0⟩, 0, 0⟩

/-- Where the program of the part stands. -/
inductive Stage
  /-- nothing runs: a reset has been asked for, or the power is going away -/
  | down
  /-- the bootloader, before it reads the reset flags -/
  | read
  /-- before it writes them to `RTC_BKP8` -/
  | stash (rstsck : UInt32)
  /-- before it clears them -/
  | clear (wdtFired : Bool)
  /-- before it decides what to boot -/
  | decide (wdtFired : Bool)
  /-- before it arms the watchdog for a slot on trial, or tries that again -/
  | arm (dec : BootDecision) (again : Bool)
  /-- before it jumps -/
  | jump (dec : BootDecision)
  /-- the bootloader has found nothing to boot -/
  | park
  /-- the image that was booted, before `bridge_hw_init` takes its reset-cause snapshot -/
  | start (dec : BootDecision)
  /-- before `ota_boot_init` -/
  | init (dec : BootDecision)
  /-- after it; `up` once the transports are initialised, `armed` for `fwdgt_armed` -/
  | app (dec : BootDecision) (up armed : Bool)
  /-- halted by a fault handler, with the decision behind the image if one was running -/
  | halted (dec : Option BootDecision)
deriving DecidableEq, Repr

/-- The decision behind the image that is running. -/
def Stage.launched : Stage → Option BootDecision
  | start dec | init dec | app dec _ _ => some dec
  | halted dec => dec
  | _ => none

/-- A program is running, the bootloader or an image. -/
def Stage.running : Stage → Bool
  | down | halted _ => false
  | _ => true

structure Part (σ : Type) where
  sys : Sys σ
  stage : Stage
  /-- the flags of `RCU_RSTSCK` -/
  rstsck : UInt32
  bkp : Backup
  dog : Fwdgt
  /-- `s_reset_reason_snapshot` -/
  snapshot : UInt32

/-- What can happen to the part. -/
inductive PartLabel
  /-- the device takes a step -/
  | device (l : Label)
  /-- the bootloader or the start-up code takes a step in which nothing is left open -/
  | go
  /-- the bootloader's `fwdgt_config` -/
  | config (u : FwdgtUpdate)
  /-- `ota_boot_init` -/
  | bootInit (script : List PhysResult)
  /-- the transports are initialised, at start-up or after a wake -/
  | transports (ok : Bool)
  /-- the watchdog line at the end of `bridge_hw_tick` -/
  | feed (u u' : FwdgtUpdate)
  /-- `power_fwdgt_settle_before_lp_entry` -/
  | settle
  /-- a fault handler is entered -/
  | fault (t : FaultType) (x : FaultScene) (debugger : Bool)
  /-- the watchdog counts -/
  | clock
  /-- the part is reset; `dogRuns` if a warm reset leaves a running watchdog alone, `backup` if the
  backup registers have kept their power -/
  | reset (r : Reset) (dogRuns backup : Bool)

/-- The step is one of the main loop, not of a transport interrupt. -/
def Label.atBase : Label → Bool
  | .request _ _ _ _ => false
  | _ => true

/-- What a reset leaves of the device. -/
def Sys.down : Sys σ → Sys σ
  | .off b => .off b
  | .on d _ => .off (d.ota.board.prepare [])

/-- `ota_confirm_tick` gets to the end, where it zeroes the fault count and resets the part. -/
def confirmLands : Sys σ → Label → Bool
  | .on d _, .confirmTick script => decide ((otaConfirmTick (d.prepare script).ota).2 = .reset)
  | _, _ => false

/-- `ota_boot_init` goes about healing a record that the bootloader has passed over. -/
def selfHeals (f : Flash) (run : Slot) : Bool :=
  !runRecTrial f run && (metaCurrent f).any fun n => n.1.activeSlot != run.code && n.1.trial

namespace Part

/-- `RTC_BKP7 = 0` under a condition -/
def clearFaults (b : Backup) (c : Bool) : Backup :=
  if c then { b with bkp7 := 0 } else b

/-- A step of the device, which may end in the reset it asks for. -/
def device (hal : Hal σ) (p : Part σ) (l : Label) : Option (Part σ) :=
  match p.stage with
  | .app _ up _ =>
    if l.atBase && !up then none
    else
      match step hal p.sys l with
      | none => none
      | some (.on d pc) => some { p with sys := .on d pc }
      | some (.off b) =>
        some { p with
          sys := .off b, stage := .down, bkp := clearFaults p.bkp (confirmLands p.sys l) }
  | _ => none

/-- The steps in which nothing is left open. -/
def go (p : Part σ) : Option (Part σ) :=
  match p.stage with
  | .read => some { p with stage := .stash p.rstsck }
  | .stash rstsck =>
    some { p with
      bkp := { p.bkp with bkp8 := rstsck }, stage := .clear (ResetCause.watchdog.isSet rstsck) }
  | .clear wdtFired => some { p with rstsck := 0, stage := .decide wdtFired }
  | .decide wdtFired =>
    -- the watchdog is fed before each candidate is checked
    let dog :=
      if (Boot.metaCandidates p.sys.flash).isEmpty then p.dog else fwdgtCounterReload p.dog
    match bootDecideSlot p.sys.flash wdtFired with
    | none => some { p with dog := dog, stage := .park }
    | some dec =>
      some { p with dog := dog, stage := if dec.trial then .arm dec false else .jump dec }
  | .jump dec => some { p with dog := fwdgtCounterReload p.dog, stage := .start dec }
  | .park => some { p with dog := fwdgtCounterReload p.dog }
  | .start dec =>
    if p.bkp.bkp8 ≠ 0 then
      some { p with snapshot := p.bkp.bkp8, bkp := { p.bkp with bkp8 := 0 }, stage := .init dec }
    else
      -- `bridge_reset_reason_latch_and_clear`: no bootloader has stashed the flags
      some { p with snapshot := p.rstsck, rstsck := 0, stage := .init dec }
  | _ => none

/-- The bootloader arms the watchdog, with one retry. -/
def config (p : Part σ) (u : FwdgtUpdate) : Option (Part σ) :=
  match p.stage with
  | .arm dec again =>
    match fwdgtConfig p.dog otaTrialFwdgtReload .div256 u with
    | (dog, ok) =>
      some { p with dog := dog, stage := if ok || again then .jump dec else .arm dec true }
  | _ => none

def bootInit (hal : Hal σ) (p : Part σ) (script : List PhysResult) : Option (Part σ) :=
  match p.stage, p.sys with
  | .init dec, .off b =>
    let p := { p with bkp := clearFaults p.bkp (selfHeals b.flash dec.slot) }
    match otaBootInit (b.bootBoard script) dec.slot with
    | (o, true) =>
      some { p with
        sys := .on ⟨o, bootConfigLoad b.flash, ⟨0, 0⟩, hal.init⟩ .idle, stage := .app dec false false }
    | (o, false) => some { p with sys := .off o.board, stage := .down }
  | _, _ => none

/-- `fault_reset_loop_mark_healthy` is the last thing a successful initialisation does. -/
def transports (p : Part σ) (ok : Bool) : Option (Part σ) :=
  match p.stage with
  | .app dec _ armed => some { p with bkp := clearFaults p.bkp ok, stage := .app dec true armed }
  | _ => none

def feed (p : Part σ) (u u' : FwdgtUpdate) : Option (Part σ) :=
  match p.stage, p.sys with
  | .app dec true armed, .on d .idle =>
    if d.ota.trial then some p
    else if !armed then
      some { p with dog := bridgeFwdgtArm p.dog u u', stage := .app dec true true }
    else some { p with dog := fwdgtCounterReload p.dog }
  | _, _ => none

def settle (p : Part σ) : Option (Part σ) :=
  match p.stage, p.sys with
  | .app _ _ _, .on d _ =>
    if d.ota.trial then some p else some { p with dog := fwdgtCounterReload p.dog }
  | _, _ => none

/-- `FAULT_RESET_LOOP_LIMIT` -/
def faultResetLoopLimit : UInt32 := 3

/-- `fault_reset_loop_bump` -/
def faultResetLoopBump (count : UInt32) : UInt32 :=
  if count < 0xFFFFFFFF then count + 1 else count

/-- `fault_common_handler`, which is linked into the bootloader and into the images. -/
def fault (p : Part σ) (t : FaultType) (x : FaultScene) (debugger : Bool) : Option (Part σ) :=
  if p.stage.running then
    -- a fault in the middle of the walk over the slots leaves what one after it does
    let count := faultResetLoopBump p.bkp.bkp7
    let bkp := { p.bkp with record := x.record t, bkp7 := count }
    if debugger || decide (count > faultResetLoopLimit) then
      some { p with bkp := bkp, stage := .halted p.stage.launched }
    else some { p with bkp := bkp, sys := p.sys.down, stage := .down }
  else none

/-- The part is reset, by the watchdog only if that has run out. -/
def reset (p : Part σ) (r : Reset) (dogRuns backup : Bool) : Option (Part σ) :=
  if r.cause = .watchdog ∧ p.dog.expired = false then none
  else
    some {
      sys := p.sys.down
      stage := .read
      rstsck := r.latch p.rstsck
      bkp := if r.cause = .powerOn ∧ backup = false then .initial else p.bkp
      dog := if r.cause = .powerOn ∨ r.cause = .watchdog ∨ dogRuns = false then .initial else p.dog
      snapshot := 0 }

/-- The step function of the part. -/
def step (hal : Hal σ) (p : Part σ) : PartLabel → Option (Part σ)
  | .device l => p.device hal l
  | .go => p.go
  | .config u => p.config u
  | .bootInit script => p.bootInit hal script
  | .transports ok => p.transports ok
  | .feed u u' => p.feed u u'
  | .settle => p.settle
  | .fault t x debugger => p.fault t x debugger
  | .clock => p.dog.tick.map fun dog => { p with dog := dog }
  | .reset r dogRuns backup => p.reset r dogRuns backup

end Part

/-- `bridge_hw_reset_reason` -/
def Part.resetReason (p : Part σ) : UInt8 :=
  bridgeResetReasonDecode p.snapshot

/-! ### What a step can do -/

/-- The two places where the application feeds the watchdog. -/
def PartLabel.feeds : PartLabel → Bool
  | feed _ _ | settle => true
  | _ => false

/-- The steps of the part, one constructor for each branch. -/
inductive PartMove (hal : Hal σ) (p : Part σ) : PartLabel → Part σ → Prop
  | runs {dec : BootDecision} {up armed : Bool} {l : Label} {d : Device σ} {pc : BasePc}
      (hst : p.stage = .app dec up armed) (hup : l.atBase = true → up = true)
      (hs : step hal p.sys l = some (.on d pc)) :
      PartMove hal p (.device l) { p with sys := .on d pc }
  | stops {dec : BootDecision} {up armed : Bool} {l : Label} {b : Board}
      (hst : p.stage = .app dec up armed) (hup : l.atBase = true → up = true)
      (hs : step hal p.sys l = some (.off b)) :
      PartMove hal p (.device l)
        { p with
          sys := .off b, stage := .down, bkp := Part.clearFaults p.bkp (confirmLands p.sys l) }
  | read (hst : p.stage = .read) : PartMove hal p .go { p with stage := .stash p.rstsck }
  | stash {rstsck : UInt32} (hst : p.stage = .stash rstsck) :
      PartMove hal p .go
        { p with
          bkp := { p.bkp with bkp8 := rstsck }, stage := .clear (ResetCause.watchdog.isSet rstsck) }
  | clear {wdt : Bool} (hst : p.stage = .clear wdt) :
      PartMove hal p .go { p with rstsck := 0, stage := .decide wdt }
  | parks {wdt : Bool} (dog : Fwdgt) (hst : p.stage = .decide wdt)
      (hd : bootDecideSlot p.sys.flash wdt = none) :
      PartMove hal p .go { p with dog := dog, stage := .park }
  | decides {wdt : Bool} {dec : BootDecision} (dog : Fwdgt) (hst : p.stage = .decide wdt)
      (hd : bootDecideSlot p.sys.flash wdt = some dec) :
      PartMove hal p .go
        { p with dog := dog, stage := if dec.trial then .arm dec false else .jump dec }
  | jump {dec : BootDecision} (hst : p.stage = .jump dec) :
      PartMove hal p .go { p with dog := fwdgtCounterReload p.dog, stage := .start dec }
  | park (hst : p.stage = .park) : PartMove hal p .go { p with dog := fwdgtCounterReload p.dog }
  | snapshot {dec : BootDecision} (hst : p.stage = .start dec) (hb : p.bkp.bkp8 ≠ 0) :
      PartMove hal p .go
        { p with snapshot := p.bkp.bkp8, bkp := { p.bkp with bkp8 := 0 }, stage := .init dec }
  | latch {dec : BootDecision} (hst : p.stage = .start dec) (hb : p.bkp.bkp8 = 0) :
      PartMove hal p .go { p with snapshot := p.rstsck, rstsck := 0, stage := .init dec }
  | config {dec : BootDecision} {again : Bool} (u : FwdgtUpdate) {dog : Fwdgt} {ok : Bool}
      (hst : p.stage = .arm dec again)
      (hdog : fwdgtConfig p.dog otaTrialFwdgtReload .div256 u = (dog, ok)) :
      PartMove hal p (.config u)
        { p with dog := dog, stage := if ok || again then .jump dec else .arm dec true }
  | boots {dec : BootDecision} {b : Board} {script : List PhysResult} {o : Ota}
      (hst : p.stage = .init dec) (hsys : p.sys = .off b)
      (ho : otaBootInit (b.bootBoard script) dec.slot = (o, true)) :
      PartMove hal p (.bootInit script)
        { p with
          bkp := Part.clearFaults p.bkp (selfHeals b.flash dec.slot)
          sys := .on ⟨o, bootConfigLoad b.flash, ⟨0, 0⟩, hal.init⟩ .idle
          stage := .app dec false false }
  | bootCut {dec : BootDecision} {b : Board} {script : List PhysResult} {o : Ota}
      (hst : p.stage = .init dec) (hsys : p.sys = .off b)
      (ho : otaBootInit (b.bootBoard script) dec.slot = (o, false)) :
      PartMove hal p (.bootInit script)
        { p with
          bkp := Part.clearFaults p.bkp (selfHeals b.flash dec.slot)
          sys := .off o.board
          stage := .down }
  | transports {dec : BootDecision} {up armed : Bool} (ok : Bool)
      (hst : p.stage = .app dec up armed) :
      PartMove hal p (.transports ok)
        { p with bkp := Part.clearFaults p.bkp ok, stage := .app dec true armed }
  /-- neither the main loop nor the entry into a low-power mode feeds on trial -/
  | gated {dec : BootDecision} {up armed : Bool} {d : Device σ} {pc : BasePc} {l : PartLabel}
      (hl : l.feeds = true) (hst : p.stage = .app dec up armed) (hsys : p.sys = .on d pc)
      (hg : d.ota.trial = true) : PartMove hal p l p
  | arms {dec : BootDecision} {d : Device σ} (u u' : FwdgtUpdate)
      (hst : p.stage = .app dec true false) (hsys : p.sys = .on d .idle)
      (hg : d.ota.trial = false) :
      PartMove hal p (.feed u u')
        { p with dog := bridgeFwdgtArm p.dog u u', stage := .app dec true true }
  | feeds {dec : BootDecision} {up armed : Bool} {d : Device σ} {pc : BasePc} {l : PartLabel}
      (hl : l.feeds = true) (hst : p.stage = .app dec up armed) (hsys : p.sys = .on d pc)
      (hg : d.ota.trial = false) : PartMove hal p l { p with dog := fwdgtCounterReload p.dog }
  | halts (t : FaultType) (x : FaultScene) (debugger : Bool) (hst : p.stage.running = true) :
      PartMove hal p (.fault t x debugger)
        { p with
          bkp := { p.bkp with record := x.record t, bkp7 := Part.faultResetLoopBump p.bkp.bkp7 }
          stage := .halted p.stage.launched }
  | restarts (t : FaultType) (x : FaultScene) (debugger : Bool) (hst : p.stage.running = true)
      (hcount : Part.faultResetLoopBump p.bkp.bkp7 ≤ Part.faultResetLoopLimit) :
      PartMove hal p (.fault t x debugger)
        { p with
          bkp := { p.bkp with record := x.record t, bkp7 := Part.faultResetLoopBump p.bkp.bkp7 }
          sys := p.sys.down
          stage := .down }
  | clock {dog : Fwdgt} (hdog : p.dog.tick = some dog) : PartMove hal p .clock { p with dog := dog }
  | reset (r : Reset) (dogRuns backup : Bool) (dog : Fwdgt)
      (hr : r.cause = .watchdog → p.dog.expired = true) :
      PartMove hal p (.reset r dogRuns backup)
        { sys := p.sys.down
          stage := .read
          rstsck := r.latch p.rstsck
          bkp := if r.cause = .powerOn ∧ backup = false then .initial else p.bkp
          dog := dog
          snapshot := 0 }

namespace PartMove

variable {hal : Hal σ} {p q : Part σ}

lemma of_device {l : Label} (h : p.device hal l = some q) : PartMove hal p (.device l) q := by
  simp only [Part.device] at h
  split at h
  · next dec up armed hst =>
    split_ifs at h with hup
    have hup' : l.atBase = true → up = true := by
      intro hl
      rw [hl, Bool.true_and, Bool.not_eq_true', Bool.not_eq_false] at hup
      exact hup
    split at h
    · cases h
    · next hs =>
      cases h
      exact .runs hst hup' hs
    · next hs =>
      cases h
      exact .stops hst hup' hs
  · cases h

lemma of_go (h : p.go = some q) : PartMove hal p .go q := by
  cases hst : p.stage with
  | read =>
    simp only [Part.go, hst] at h
    cases h
    exact .read hst
  | stash rstsck =>
    simp only [Part.go, hst] at h
    cases h
    exact .stash hst
  | clear wdtFired =>
    simp only [Part.go, hst] at h
    cases h
    exact .clear hst
  | decide wdtFired =>
    simp only [Part.go, hst] at h
    split at h
    · next hd =>
      cases h
      exact .parks _ hst hd
    · next hd =>
      cases h
      exact .decides _ hst hd
  | jump dec =>
    simp only [Part.go, hst] at h
    cases h
    exact .jump hst
  | park =>
    have hgo : p.go = some { p with dog := fwdgtCounterReload p.dog } := by
      simp only [Part.go, hst]
    rw [hgo] at h
    cases h
    exact .park hst
  | start dec =>
    simp only [Part.go, hst] at h
    split_ifs at h with hb
    · cases h
      exact .snapshot hst hb
    · cases h
      exact .latch hst (not_not.mp hb)
  | arm dec again =>
    simp only [Part.go, hst] at h
    cases h
  | init dec =>
    simp only [Part.go, hst] at h
    cases h
  | app dec up armed =>
    simp only [Part.go, hst] at h
    cases h
  | halted dec =>
    simp only [Part.go, hst] at h
    cases h
  | down =>
    simp only [Part.go, hst] at h
    cases h

lemma of_config {u : FwdgtUpdate} (h : p.config u = some q) : PartMove hal p (.config u) q := by
  simp only [Part.config] at h
  split at h
  · next hst =>
    cases h
    exact .config u hst rfl
  · cases h

lemma of_bootInit {script : List PhysResult} (h : p.bootInit hal script = some q) :
    PartMove hal p (.bootInit script) q := by
  simp only [Part.bootInit] at h
  split at h
  · next hst hsys =>
    split at h
    · next ho =>
      cases h
      exact .boots hst hsys ho
    · next ho =>
      cases h
      exact .bootCut hst hsys ho
  · cases h

lemma of_feed {u u' : FwdgtUpdate} (h : p.feed u u' = some q) : PartMove hal p (.feed u u') q := by
  simp only [Part.feed] at h
  split at h
  · next armed _ hst hsys =>
    split_ifs at h with hg ha
    · cases h
      exact .gated rfl hst hsys hg
    · cases h
      rw [Bool.not_eq_true'] at ha
      subst ha
      exact .arms u u' hst hsys (Bool.eq_false_iff.mpr hg)
    · cases h
      exact .feeds rfl hst hsys (Bool.eq_false_iff.mpr hg)
  · cases h

lemma of_settle (h : p.settle = some q) : PartMove hal p .settle q := by
  simp only [Part.settle] at h
  split at h
  · next hst hsys =>
    split_ifs at h with hg
    · cases h
      exact .gated rfl hst hsys hg
    · cases h
      exact .feeds rfl hst hsys (Bool.eq_false_iff.mpr hg)
  · cases h

lemma of_fault {t : FaultType} {x : FaultScene} {debugger : Bool}
    (h : p.fault t x debugger = some q) : PartMove hal p (.fault t x debugger) q := by
  simp only [Part.fault] at h
  split_ifs at h with hst hc
  · cases h
    exact .halts t x debugger hst
  · cases h
    rw [Bool.or_eq_true, not_or, decide_eq_true_eq, UInt32.not_lt] at hc
    exact .restarts t x debugger hst hc.2

/-- Every step is one of these. -/
theorem of_step {l : PartLabel} (h : p.step hal l = some q) : PartMove hal p l q := by
  cases l with
  | device l => exact of_device h
  | go => exact of_go h
  | config u => exact of_config h
  | bootInit script => exact of_bootInit h
  | transports ok =>
    simp only [Part.step, Part.transports] at h
    split at h
    · next hst =>
      cases h
      exact .transports ok hst
    · cases h
  | feed u u' => exact of_feed h
  | settle => exact of_settle h
  | fault t x debugger => exact of_fault h
  | clock =>
    obtain ⟨dog, hdog, rfl⟩ := Option.map_eq_some_iff.mp h
    exact .clock hdog
  | reset r dogRuns backup =>
    simp only [Part.step, Part.reset] at h
    split at h
    · cases h
    next hr =>
    cases h
    refine .reset r dogRuns backup _ fun hc => ?_
    rw [not_and, Bool.not_eq_false] at hr
    exact hr hc

end PartMove

end Gd32Bridge
