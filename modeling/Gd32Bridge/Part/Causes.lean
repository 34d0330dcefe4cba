import Gd32Bridge.Boot.Selection
import Gd32Bridge.Lib.Transition
import Gd32Bridge.Part.Basic
import Gd32Bridge.System.Runs

/-!
# What the part knows about its resets

The bootloader reads the reset flags once, hands them on in a backup register and clears them
afterwards, and the application takes them from there.  A reset in between makes the next boot find
the flags of both.  So what a boot is told is what has happened since the flags were last cleared,
however often the part was reset on the way, and neither the watchdog verdict of the decision nor
the reset reason on the wire is ever left over from an earlier boot.

The count of the faults in a row bounds the resets by the fault handlers in the same way, and their
last record stays until the backup registers lose their power.
-/

namespace Gd32Bridge

open Transition

variable {σ : Type} {hal : Hal σ}

/-- What has happened to the part. -/
structure PartHistory where
  /-- the resets since the flags were last cleared or lost -/
  resets : List Reset
  /-- those of them that the bootloader has found when it read the flags -/
  told : List Reset
  /-- periods of the IRC32K that the watchdog has counted since the jump -/
  elapsed : ℕ
  /-- resets by the fault handlers since the fault count was last zeroed -/
  faultResets : ℕ
  /-- the record of the last fault since the backup registers last lost their power -/
  lastFault : Option FaultRecord

/-- The program takes a step from the stage. -/
def PartHistory.go (h : PartHistory) : Stage → PartHistory
  | .read => { h with told := h.resets }
  | .clear _ => { h with resets := [] }
  | .jump _ => { h with elapsed := 0 }
  | _ => h

def partUpd (h : PartHistory) (p : Part σ) (l : PartLabel) (q : Part σ) : PartHistory :=
  let h' : PartHistory :=
    match l with
    | .go => h.go p.stage
    | .clock => { h with elapsed := h.elapsed + p.dog.psc.periods }
    | .fault t x _ =>
      { h with
        lastFault := some (x.record t)
        faultResets := if q.stage = .down then h.faultResets + 1 else h.faultResets }
    | .reset r _ backup =>
      { h with
        resets := r.since h.resets
        lastFault := if r.cause = .powerOn ∧ backup = false then none else h.lastFault }
    | _ => h
  if q.bkp.bkp7 = 0 then { h' with faultResets := 0 } else h'

/-- The torn-page assumption, for a step of the part. -/
def PartLegal (p : Part σ) (_ : PartLabel) (q : Part σ) : Prop :=
  ∀ pg, TornPage p.sys.board q.sys.board pg

/-- The power comes up for the first time. -/
def PartInit (x : Part σ × PartHistory) : Prop :=
  Provisioned x.1.sys ∧ x.1.stage = .read ∧ x.1.rstsck = Reset.coldRstsck ∧
    x.1.dog = .initial ∧ x.2.resets = [⟨.powerOn, false⟩] ∧ x.2.faultResets = 0 ∧
      x.2.lastFault = none

/-- A run of the part, with its history. -/
abbrev PartReach (hal : Hal σ) (p : Part σ) (h : PartHistory) : Prop :=
  Reach (withHistory (Part.step hal) partUpd) PartInit (fun x l y => PartLegal x.1 l y.1) (p, h)

/-- The watchdog has fired. -/
def DogFired (rs : List Reset) : Prop :=
  ∃ r ∈ rs, r.cause = .watchdog

instance (rs : List Reset) : Decidable (DogFired rs) :=
  inferInstanceAs (Decidable (∃ r ∈ rs, r.cause = .watchdog))

lemma Latched.fired {rs : List Reset} {rstsck : UInt32} (h : Latched rs rstsck) :
    ResetCause.watchdog.isSet rstsck = decide (DogFired rs) := by
  have hann : ∀ r : Reset, r.Announces .watchdog ↔ r.cause = .watchdog := by
    intro r
    simp only [Reset.Announces, reduceCtorEq, false_and, or_false]
    exact eq_comm
  rw [Bool.eq_iff_iff, h .watchdog, decide_eq_true_eq, DogFired]
  simp only [hann]

/-! ### The invariant rule -/

/-- What holds at first and is kept by every move holds in every run. -/
lemma PartReach.invariant {I : Part σ → PartHistory → Prop}
    (h₀ : ∀ p h, PartInit (p, h) → I p h)
    (hmove : ∀ p h l q, PartReach hal p h → I p h → PartMove hal p l q → PartLegal p l q →
      I q (partUpd h p l q)) {p : Part σ} {h : PartHistory} (hr : PartReach hal p h) : I p h := by
  refine Reach.invariant (I := fun x => I x.1 x.2) (fun x => h₀ x.1 x.2) ?_ hr
  rintro ⟨p, h⟩ l ⟨q, h'⟩ hr hi hs hok
  obtain ⟨hstep, hh⟩ := withHistory_eq_some.mp hs
  simp only at hstep hh
  rw [hh]
  exact hmove p h l q hr hi (.of_step hstep) hok

/-! ### The flags -/

/-- The device is without power or in reset. -/
def Sys.IsOff : Sys σ → Prop
  | .off _ => True
  | .on _ _ => False

lemma Sys.isOff_down (s : Sys σ) : s.down.IsOff := by
  cases s <;> trivial

/-- The decision is the one for the flash and for what the bootloader was told. -/
def Decided (s : Sys σ) (told : List Reset) (dec : BootDecision) : Prop :=
  bootDecideSlot s.flash (decide (DogFired told)) = some dec

/-- A boot on trial right after a watchdog reset is a last resort. -/
def Warned (told : List Reset) (dec : BootDecision) : Prop :=
  dec.trial = true → DogFired told → dec.lastResort = true

/-- What the program knows at each stage. -/
def Knows (p : Part σ) (h : PartHistory) : Stage → Prop
  | .down | .park => p.sys.IsOff
  | .read => p.sys.IsOff ∧ h.resets ≠ []
  | .stash rstsck => p.sys.IsOff ∧ h.told ≠ [] ∧ Latched h.told rstsck
  | .clear wdtFired | .decide wdtFired =>
    p.sys.IsOff ∧ h.told ≠ [] ∧ Latched h.told p.bkp.bkp8 ∧ wdtFired = decide (DogFired h.told)
  | .arm dec _ | .jump dec | .start dec =>
    p.sys.IsOff ∧ h.told ≠ [] ∧ Latched h.told p.bkp.bkp8 ∧ Decided p.sys h.told dec
  | .init dec => p.sys.IsOff ∧ Latched h.told p.snapshot ∧ Decided p.sys h.told dec
  | .app dec _ _ => (¬ p.sys.IsOff) ∧ Latched h.told p.snapshot ∧ Warned h.told dec
  | .halted dec => ∀ d ∈ dec, Warned h.told d

/-- The first pass of the selection takes no record on trial after a watchdog reset. -/
lemma otaBootSelect_trial {cands : List (MetaRecord × Bool)} {r : MetaRecord} {lr : Bool}
    (h : otaBootSelect cands true = some (r, lr)) (ht : r.trial = true) : lr = true := by
  simp only [otaBootSelect] at h
  split at h
  · next c hc =>
    cases h
    have hv := List.find?_some hc
    simp only [Bool.and_eq_true, otaBootCandidateOk_iff] at hv
    exact absurd ⟨ht, rfl⟩ hv.2
  · split at h
    · cases h
      rfl
    · cases h

/-- A decision on trial after a watchdog reset is a last resort. -/
lemma Decided.warned {s : Sys σ} {told : List Reset} {dec : BootDecision}
    (h : Decided s told dec) : Warned told dec := by
  intro ht hf
  simp only [Decided, decide_eq_true hf, bootDecideSlot] at h
  split at h
  · cases h
  · next r lr hsel =>
    split at h
    · cases h
    · cases h
      exact otaBootSelect_trial hsel ht

/-- The resets and what was told of them, after a step. -/
def PartHistory.resetsAfter (h : PartHistory) (st : Stage) : PartLabel → List Reset
  | .go => (h.go st).resets
  | .reset r _ _ => r.since h.resets
  | _ => h.resets

def PartHistory.toldAfter (h : PartHistory) (st : Stage) : PartLabel → List Reset
  | .go => (h.go st).told
  | _ => h.told

lemma partUpd_resets (h : PartHistory) (p q : Part σ) (l : PartLabel) :
    (partUpd h p l q).resets = h.resetsAfter p.stage l := by
  simp only [partUpd]
  split_ifs <;> cases l <;> rfl

lemma partUpd_told (h : PartHistory) (p q : Part σ) (l : PartLabel) :
    (partUpd h p l q).told = h.toldAfter p.stage l := by
  simp only [partUpd]
  split_ifs <;> cases l <;> rfl

/-- An image that runs was booted with what the bootloader was told. -/
lemma Knows.warned {p : Part σ} {h : PartHistory} {st : Stage} {dec : BootDecision}
    (hk : Knows p h st) (hst : st.launched = some dec) : Warned h.told dec := by
  cases st with
  | start dec' =>
    cases hst
    exact hk.2.2.2.warned
  | init dec' =>
    cases hst
    exact hk.2.2.warned
  | app dec' up armed =>
    cases hst
    exact hk.2.2
  | halted dec' => exact hk dec hst
  | _ => cases hst

structure FlagsInv (p : Part σ) (h : PartHistory) : Prop where
  latched : Latched h.resets p.rstsck
  knows : Knows p h p.stage

namespace FlagsInv

variable {p q : Part σ} {h : PartHistory} {l : PartLabel}

lemma start (hi : PartInit (p, h)) : FlagsInv p h := by
  obtain ⟨hprov, hst, hrst, -, hres, -⟩ := hi
  simp only at hprov hst hrst hres
  constructor
  · intro c
    rw [hrst, hres, ResetCause.isSet_cold]
    cases c <;> simp [Reset.Announces]
  · rw [hst]
    refine ⟨?_, by simp [hres]⟩
    cases hs : p.sys with
    | off b => trivial
    | on d pc =>
      rw [hs] at hprov
      exact hprov

/-- Nothing the invariant looks at has changed. -/
lemma keep (inv : FlagsInv p h) {h' : PartHistory} (hr : h'.resets = h.resets)
    (ht : h'.told = h.told) (hsys : q.sys = p.sys) (hf : q.rstsck = p.rstsck)
    (hb : q.bkp.bkp8 = p.bkp.bkp8) (hs : q.snapshot = p.snapshot) (hst : q.stage = p.stage) :
    FlagsInv q h' := by
  obtain ⟨hl, hk⟩ := inv
  refine ⟨by rwa [hr, hf], ?_⟩
  rw [hst]
  cases hp : p.stage <;> rw [hp] at hk <;> simpa only [Knows, hr, ht, hsys, hb, hs] using hk

/-- Every move keeps the invariant. -/
lemma move (inv : FlagsInv p h) (hm : PartMove hal p l q) {h' : PartHistory}
    (hres : h'.resets = h.resetsAfter p.stage l) (htold : h'.told = h.toldAfter p.stage l) :
    FlagsInv q h' := by
  obtain ⟨hl, hk⟩ := inv
  cases hm with
  | runs hst hup hs =>
    rw [hst] at hk
    refine ⟨by rwa [hres], ?_⟩
    simp only [hst, Knows, htold]
    exact ⟨not_false, hk.2⟩
  | stops hst hup hs => exact ⟨by rwa [hres], trivial⟩
  | read hst =>
    rw [hst] at hk hres htold
    refine ⟨by rwa [hres], ?_⟩
    simp only [Knows, htold]
    exact ⟨hk.1, hk.2, hl⟩
  | stash hst =>
    rw [hst] at hk hres htold
    refine ⟨by rwa [hres], ?_⟩
    simp only [Knows, htold]
    exact ⟨hk.1, hk.2.1, hk.2.2, hk.2.2.fired⟩
  | clear hst =>
    rw [hst] at hk hres htold
    constructor
    · rw [hres]
      exact latched_nil
    · simp only [Knows, htold]
      exact hk
  | parks dog hst hd =>
    rw [hst] at hk hres
    exact ⟨by rwa [hres], hk.1⟩
  | @decides wdt dec dog hst hd =>
    rw [hst] at hk hres htold
    obtain ⟨hoff, hne, hb, rfl⟩ := hk
    refine ⟨by rwa [hres], ?_⟩
    have hknows : Knows p h' (.jump dec) := by
      simp only [Knows, htold]
      exact ⟨hoff, hne, hb, hd⟩
    simp only
    split_ifs
    · exact hknows
    · exact hknows
  | jump hst =>
    rw [hst] at hk hres htold
    refine ⟨by rwa [hres], ?_⟩
    simp only [Knows, htold]
    exact hk
  | park hst =>
    rw [hst] at hres htold
    exact keep ⟨hl, hk⟩ hres htold rfl rfl rfl rfl rfl
  | snapshot hst hb =>
    rw [hst] at hk hres htold
    refine ⟨by rwa [hres], ?_⟩
    simp only [Knows, htold]
    exact ⟨hk.1, hk.2.2⟩
  | latch hst hb =>
    -- the bootloader has stashed at least the flag of the reset before it
    rw [hst] at hk
    exact absurd hb (hk.2.2.1.ne_zero hk.2.1)
  | @config dec again u dog ok hst hdog =>
    rw [hst] at hk
    refine ⟨by rwa [hres], ?_⟩
    have hknows : Knows p h' (.jump dec) := by
      simp only [Knows, htold]
      exact hk
    simp only
    split_ifs
    · exact hknows
    · exact hknows
  | boots hst hsys ho =>
    rw [hst] at hk
    refine ⟨by rwa [hres], ?_⟩
    simp only [Knows, htold]
    exact ⟨not_false, hk.2.1, hk.2.2.warned⟩
  | bootCut hst hsys ho => exact ⟨by rwa [hres], trivial⟩
  | transports ok hst =>
    rw [hst] at hk
    refine ⟨by rwa [hres], ?_⟩
    simp only [Knows, htold]
    exact hk
  | gated hfeeds hst hsys hg =>
    cases l with
    | feed u u' => exact keep ⟨hl, hk⟩ hres htold rfl rfl rfl rfl rfl
    | settle => exact keep ⟨hl, hk⟩ hres htold rfl rfl rfl rfl rfl
    | _ => cases hfeeds
  | arms u u' hst hsys hg =>
    rw [hst] at hk
    refine ⟨by rwa [hres], ?_⟩
    simp only [Knows, htold]
    exact hk
  | feeds hfeeds hst hsys hg =>
    cases l with
    | feed u u' => exact keep ⟨hl, hk⟩ hres htold rfl rfl rfl rfl rfl
    | settle => exact keep ⟨hl, hk⟩ hres htold rfl rfl rfl rfl rfl
    | _ => cases hfeeds
  | halts t x debugger hst =>
    refine ⟨by rwa [hres], ?_⟩
    simp only [Knows, htold]
    exact fun dec hdec => hk.warned hdec
  | restarts t x debugger hst hcount => exact ⟨by rwa [hres], p.sys.isOff_down⟩
  | clock hdog => exact keep ⟨hl, hk⟩ hres htold rfl rfl rfl rfl rfl
  | reset r dogRuns backup dog hr =>
    constructor
    · rw [hres]
      exact hl.reset r
    · simp only [Knows, hres]
      refine ⟨p.sys.isOff_down, ?_⟩
      rw [PartHistory.resetsAfter, Reset.since]
      split_ifs <;> exact List.cons_ne_nil _ _

end FlagsInv

lemma PartReach.flags {p : Part σ} {h : PartHistory} (hr : PartReach hal p h) : FlagsInv p h :=
  PartReach.invariant (fun _ _ => FlagsInv.start)
    (fun p h l q _ inv hm _ => inv.move hm (partUpd_resets h p q l) (partUpd_told h p q l)) hr

/-- In every run, whatever resets the part and wherever it strikes, a decision of the bootloader is
the one for the flash and for whether the watchdog has fired since the flags were last cleared; and
once the application has taken its snapshot, the reset reason on the wire is what the resets since
then amount to in the published order of precedence, none of them from an earlier boot. -/
theorem reset_causes_of_reach {p : Part σ} {h : PartHistory} (hr : PartReach hal p h)
    {dec : BootDecision} :
    (((∃ again, p.stage = .arm dec again) ∨ p.stage = .jump dec ∨ p.stage = .start dec ∨
        p.stage = .init dec) → bootDecideSlot p.sys.flash (decide (DogFired h.told)) = some dec) ∧
      ((p.stage = .init dec ∨ ∃ up armed, p.stage = .app dec up armed) →
        p.resetReason = resetReasonOf h.told) := by
  have hk := hr.flags.knows
  constructor
  · rintro (⟨again, hst⟩ | hst | hst | hst)
    · rw [hst] at hk
      exact hk.2.2.2
    · rw [hst] at hk
      exact hk.2.2.2
    · rw [hst] at hk
      exact hk.2.2.2
    · rw [hst] at hk
      exact hk.2.2
  · rintro (hst | ⟨up, armed, hst⟩)
    · rw [hst] at hk
      exact hk.2.1.decode
    · rw [hst] at hk
      exact hk.2.1.decode

/-! ### A sample part -/

/-- The sample device on a part whose power comes up. -/
def samplePart : Part Unit × PartHistory :=
  (⟨sampleDevice, .read, Reset.coldRstsck, .initial, .initial, 0⟩,
    ⟨[⟨.powerOn, false⟩], [], 0, 0, none⟩)

/-- `PartLegal` as a test. -/
def partLegalCheck (x : Part Unit × PartHistory) (_ : PartLabel) (y : Part Unit × PartHistory) :
    Bool :=
  legalCheck x.1.sys .powerOff y.1.sys

/-- Labels that run from the sample part reach a state of every kind the last one is of. -/
lemma exists_partReach_of_sample (q : Part Unit × PartHistory → Bool) (ls : List PartLabel)
    (h : (run (withHistory (Part.step .stub) partUpd) partLegalCheck samplePart ls).any q = true) :
    ∃ p h, PartReach .stub p h ∧ q (p, h) = true := by
  have hinit : PartInit samplePart := ⟨sampleDevice_provisioned, rfl, rfl, rfl, rfl, rfl, rfl⟩
  obtain ⟨⟨p, h⟩, hr, hq⟩ :=
    (Reach.start hinit).exists_of_run partLegalCheck q ls
      (fun _ _ _ hc => Legal.of_check (l := .powerOff) hc) h
  exact ⟨p, h, hr, hq⟩

/-- From the reset vector to the main loop. -/
def bootRun : List PartLabel := [.go, .go, .go, .go, .go, .go, .bootInit [], .transports true]

/-- The window watchdog fires, and before its flag is cleared a wake from a low-power mode resets
the part again. -/
def twoResets : List PartLabel :=
  bootRun ++ [.reset ⟨.windowWatchdog, true⟩ false true, .go, .reset ⟨.lowPower, false⟩ false true] ++
    bootRun

def twoResetsTold : Part Unit × PartHistory → Bool
  | (p, h) => decide (h.told = [⟨.lowPower, false⟩, ⟨.windowWatchdog, true⟩]) &&
      match p.stage with
      | .app _ _ _ => true
      | _ => false

set_option maxRecDepth 20000 in
/-- Both are told, and the watchdog outranks the other. -/
theorem reset_causes_two_resets : ∃ p h, PartReach (.stub : Hal Unit) p h ∧
    h.told = [⟨.lowPower, false⟩, ⟨.windowWatchdog, true⟩] ∧ p.resetReason = 4 := by
  obtain ⟨p, h, hr, hq⟩ := exists_partReach_of_sample twoResetsTold twoResets (by decide +kernel)
  simp only [twoResetsTold, Bool.and_eq_true, decide_eq_true_eq] at hq
  obtain ⟨htold, hst⟩ := hq
  split at hst
  · next dec up armed hs =>
    refine ⟨p, h, hr, htold, ?_⟩
    rw [(reset_causes_of_reach hr).2 (.inr ⟨up, armed, hs⟩), htold]
    rfl
  · cases hst

/-! ### The fault handlers -/

lemma faultResetLoopBump_toNat {count : UInt32} (h : Part.faultResetLoopBump count ≤ 3) :
    (Part.faultResetLoopBump count).toNat = count.toNat + 1 := by
  have hone : (1 : UInt32).toNat = 1 := rfl
  simp only [Part.faultResetLoopBump] at h ⊢
  split_ifs at h ⊢ with hc
  · have hlt : count.toNat < 0xFFFFFFFF := UInt32.lt_iff_toNat_lt.mp hc
    rw [UInt32.toNat_add, hone]
    omega
  · have hge : 0xFFFFFFFF ≤ count.toNat := UInt32.le_iff_toNat_le.mp (UInt32.not_lt.mp hc)
    have hle : count.toNat ≤ 3 := UInt32.le_iff_toNat_le.mp h
    omega

lemma le_faultResetLoopBump (count : UInt32) :
    count.toNat ≤ (Part.faultResetLoopBump count).toNat := by
  have hone : (1 : UInt32).toNat = 1 := rfl
  simp only [Part.faultResetLoopBump]
  split_ifs with hc
  · have hlt : count.toNat < 0xFFFFFFFF := UInt32.lt_iff_toNat_lt.mp hc
    rw [UInt32.toNat_add, hone]
    omega
  · exact le_rfl

structure FaultsInv (p : Part σ) (h : PartHistory) : Prop where
  /-- the count is at least the resets it has let through -/
  counted : h.faultResets ≤ p.bkp.bkp7.toNat
  bounded : h.faultResets ≤ 3
  recorded : ∀ r, h.lastFault = some r → p.bkp.record = r

namespace FaultsInv

variable {p q : Part σ} {h h' : PartHistory}

/-- The count is kept or zeroed, the record is kept or lost. -/
lemma keep (inv : FaultsInv p h)
    (hf : h'.faultResets = if q.bkp.bkp7 = 0 then 0 else h.faultResets)
    (hq : q.bkp.bkp7 = p.bkp.bkp7 ∨ q.bkp.bkp7 = 0)
    (hrec : h'.lastFault = none ∨ h'.lastFault = h.lastFault ∧ q.bkp.record = p.bkp.record) :
    FaultsInv q h' := by
  have hle : h'.faultResets ≤ h.faultResets := by
    rw [hf]
    split_ifs
    · exact Nat.zero_le _
    · exact le_rfl
  refine ⟨?_, hle.trans inv.bounded, ?_⟩
  · rcases hq with hq | hq
    · rw [hq]
      exact hle.trans inv.counted
    · rw [hf, if_pos hq]
      exact Nat.zero_le _
  · intro r hr
    rcases hrec with hrec | ⟨hlast, hrec⟩
    · rw [hrec] at hr
      cases hr
    · rw [hrec]
      exact inv.recorded r (hlast ▸ hr)

end FaultsInv

lemma clearFaults_bkp7 (b : Backup) (c : Bool) :
    (Part.clearFaults b c).bkp7 = b.bkp7 ∨ (Part.clearFaults b c).bkp7 = 0 := by
  cases c
  · exact .inl rfl
  · exact .inr rfl

lemma clearFaults_record (b : Backup) (c : Bool) : (Part.clearFaults b c).record = b.record := by
  cases c <;> rfl

/-- The resets by the fault handlers, before a zeroed count is taken account of. -/
def PartHistory.faultResetsAfter (h : PartHistory) (st : Stage) : PartLabel → ℕ
  | .fault _ _ _ => if st = .down then h.faultResets + 1 else h.faultResets
  | _ => h.faultResets

def PartHistory.lastFaultAfter (h : PartHistory) : PartLabel → Option FaultRecord
  | .fault t x _ => some (x.record t)
  | .reset r _ backup => if r.cause = .powerOn ∧ backup = false then none else h.lastFault
  | _ => h.lastFault

/-- Every move keeps the invariant. -/
lemma FaultsInv.move {p q : Part σ} {h h' : PartHistory} {l : PartLabel} (inv : FaultsInv p h)
    (hm : PartMove hal p l q)
    (hf : h'.faultResets = if q.bkp.bkp7 = 0 then 0 else h.faultResetsAfter q.stage l)
    (hlast : h'.lastFault = h.lastFaultAfter l) : FaultsInv q h' := by
  cases hm with
  | halts t x debugger hst =>
    have hf : h'.faultResets ≤ h.faultResets := by
      rw [hf]
      split_ifs
      · exact Nat.zero_le _
      · exact le_rfl
    refine ⟨?_, hf.trans inv.bounded, ?_⟩
    · exact hf.trans (inv.counted.trans (le_faultResetLoopBump _))
    · intro r hr
      rw [hlast] at hr
      exact Option.some.inj hr
  | restarts t x debugger hst hcount =>
    have hnat := faultResetLoopBump_toNat hcount
    have hle : (Part.faultResetLoopBump p.bkp.bkp7).toNat ≤ 3 := UInt32.le_iff_toNat_le.mp hcount
    have hf : h'.faultResets ≤ h.faultResets + 1 := by
      rw [hf]
      split_ifs
      · exact Nat.zero_le _
      · exact le_rfl
    have hcounted := inv.counted
    refine ⟨?_, by omega, ?_⟩
    · simp only [hnat]
      omega
    · intro r hr
      rw [hlast] at hr
      exact Option.some.inj hr
  | reset r dogRuns backup dog hr =>
    simp only [PartHistory.lastFaultAfter] at hlast
    by_cases hlost : r.cause = .powerOn ∧ backup = false
    · simp only [if_pos hlost] at hf hlast ⊢
      exact inv.keep hf (.inr rfl) (.inl hlast)
    · simp only [if_neg hlost] at hf hlast ⊢
      exact inv.keep hf (.inl rfl) (.inr ⟨hlast, rfl⟩)
  | stops hst hup hs =>
    exact inv.keep hf (clearFaults_bkp7 _ _) (.inr ⟨hlast, clearFaults_record _ _⟩)
  | boots hst hsys ho =>
    exact inv.keep hf (clearFaults_bkp7 _ _) (.inr ⟨hlast, clearFaults_record _ _⟩)
  | bootCut hst hsys ho =>
    exact inv.keep hf (clearFaults_bkp7 _ _) (.inr ⟨hlast, clearFaults_record _ _⟩)
  | transports ok hst =>
    exact inv.keep hf (clearFaults_bkp7 _ _) (.inr ⟨hlast, clearFaults_record _ _⟩)
  | gated hfeeds hst hsys hg =>
    cases l with
    | feed u u' => exact inv.keep hf (.inl rfl) (.inr ⟨hlast, rfl⟩)
    | settle => exact inv.keep hf (.inl rfl) (.inr ⟨hlast, rfl⟩)
    | _ => cases hfeeds
  | feeds hfeeds hst hsys hg =>
    cases l with
    | feed u u' => exact inv.keep hf (.inl rfl) (.inr ⟨hlast, rfl⟩)
    | settle => exact inv.keep hf (.inl rfl) (.inr ⟨hlast, rfl⟩)
    | _ => cases hfeeds
  | _ => exact inv.keep hf (.inl rfl) (.inr ⟨hlast, rfl⟩)

end Gd32Bridge
