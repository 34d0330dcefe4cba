import Gd32Bridge.Adc.Pump
import Gd32Bridge.Adc.Rules
import Gd32Bridge.Lib.Transition

/-!
# The leases of the pump

The owner byte of a block names the stream that has it, or carries the transitional token of the
one pump that is at work on it.  What the pump writes into a stream or publishes is written in a
section that finds its token in place; the exceptions are named in `PumpRule`.
-/

namespace Gd32Bridge

open Transition

variable {β : Type} {mag : β → β → β}

/-! ### The phases of a visit -/

/-- What the pump is doing: nothing under a token, configuring a block, filtering a batch, letting
the FFT block calculate, or reducing a frame. -/
inductive PumpPhase
  | free
  | config (fft : Bool)
  | batch
  | compute
  | frame
deriving DecidableEq, Repr

def PumpPc.phase : PumpPc → PumpPhase
  | configuring fft => .config fft
  | refused fft => .config fft
  | committing fft => .config fft
  | fftApply _ _ => .config true
  | fftReset => .config true
  | fftInit => .config true
  | filtering _ => .batch
  | publishing _ _ _ _ _ _ => .batch
  | waiting _ => .compute
  | completed _ _ => .compute
  | reducing _ _ => .frame
  | announcing _ _ => .frame
  | _ => .free

/-- The block whose transitional token the pump holds in a phase, as long as it is not revoked. -/
def PumpPhase.token : PumpPhase → Option Bool
  | config fft => some fft
  | batch => some false
  | frame => some true
  | free | compute => none

/-! ### Inversion -/

/-- Everything a step of the pump can do. -/
inductive PumpRule (mag : β → β → β) (x : Dsp β) : Dsp β → Prop
  /-- a stream that does not run is passed over -/
  | skip (hpc : x.pc = .idle) : PumpRule mag x x
  | visit {id : ℕ} (hpc : x.pc = .idle) (hid : id < bridgeAdcStreamCount)
      (hrun : (x.adc.streams id).inUse = true) :
      PumpRule mag x { x with pc := .sawInUse, sid := id }
  /-- a read, or a section that finds its lease gone before the pump has taken the token -/
  | quiet {pc : PumpPc} (hphase : pc.phase = x.pc.phase) (hpc : pc.phase ≠ .compute)
      (hpc' : pc.phase ≠ .frame) : PumpRule mag x (x.goto pc)
  /-- the pump leaves the calculation to itself -/
  | leave (hpc : x.pc.phase = .compute) : PumpRule mag x (x.goto .idle)
  | claim {fft : Bool} (hpc : x.pc = .claiming fft)
      (hlive : x.adc.ownerLive fft adcDspOwnerNone x.sid = true) :
      PumpRule mag x ((x.setOwner fft (adcDspOwnerTransitional x.sid)).goto (.configuring fft))
  | commit {fft : Bool} {site : TotalSite} (hpc : x.pc = .committing fft)
      (hlive : x.liveTransitional fft = true) :
      PumpRule mag x ((x.setOwner fft x.sid).goto (.counting site))
  /-- a commit section that finds its lease gone -/
  | abandon {fft : Bool} (hpc : x.pc.phase.token = some fft)
      (hlive : x.liveTransitional fft = false) : PumpRule mag x (x.abandon fft)
  | release {fft : Bool} {pc : PumpPc} (hpc : x.pc = .refused fft) (hfree : pc.phase = .free) :
      PumpRule mag x
        ((x.setOwner fft (adcDspOwnerRelease (x.adc.owner fft) x.sid).1).goto pc)
  | mark (hpc : x.pc = .marking) :
      PumpRule mag x ((x.store { x.stream with dspCfgBad := true }).goto .idle)
  | laps {site : TotalSite} {pos : AdcDmaPos} {total : ℕ} (hpc : x.pc = .storeLaps site pos total) :
      PumpRule mag x ((x.store { x.stream with
        pumpPos := { x.stream.pumpPos with laps := pos.laps } }).goto (.storeW site pos total))
  | index {site : TotalSite} {pos : AdcDmaPos} {total : ℕ} (hpc : x.pc = .storeW site pos total) :
      PumpRule mag x ((x.store { x.stream with
        pumpPos := { x.stream.pumpPos with w := pos.w } }).goto (.storeValid site pos total))
  | valid {site : TotalSite} {pos : AdcDmaPos} {total : ℕ} {pc : PumpPc}
      (hpc : x.pc = .storeValid site pos total) (hfree : pc.phase = .free) :
      PumpRule mag x ((x.store { x.stream with
        pumpPos := { x.stream.pumpPos with valid := true } }).goto pc)
  | jump {live : ℕ} (hpc : x.pc = .jumping live) (hlive : x.live false = true) :
      PumpRule mag x
        ((x.store { x.stream with pumpRawRead := live }).goto (.counting (.pass false)))
  | resync {fft : Bool} {total : ℕ} (hpc : x.pc = .resyncing fft total)
      (hlive : x.live fft = true) : PumpRule mag x ((x.resync fft total).goto .idle)
  | lease {avail : ℕ} (hpc : x.pc = .leasing avail) (hlive : x.live false = true) :
      PumpRule mag x ((x.setOwner false (adcDspOwnerTransitional x.sid)).goto (.filtering avail))
  | publish {avail rawRead used : ℕ} {out : List UInt16} {sat stalled : Bool} {pc : PumpPc}
      (hpc : x.pc = .publishing avail rawRead out used sat stalled)
      (hlive : x.liveTransitional false = true) (hfree : pc.phase = .free) :
      PumpRule mag x (((x.store (x.stream.published rawRead out sat)).setOwner false x.sid).goto pc)
  | apply {points outfmt : ℕ} (hpc : x.pc = .fftApply points outfmt) :
      PumpRule mag x { x with points, outfmt, pc := .fftReset }
  | reset (hpc : x.pc = .fftReset) :
      PumpRule mag x { x with adc := x.adc.fftSessionReset, pc := .fftInit }
  | init (hpc : x.pc = .fftInit) :
      PumpRule mag x { x with running := false, pc := .committing true }
  | sample {avail : ℕ} (hpc : x.pc = .storing avail) (hlive : x.live true = true) :
      PumpRule mag x (x.storeSample avail)
  | look {avail : ℕ} (hpc : x.pc = .waiting avail) :
      PumpRule mag x (x.goto (.completed avail (!x.running)))
  | retry {avail : ℕ} (hpc : x.pc = .completed avail false) (hlive : x.live true = true) :
      PumpRule mag x { x with adc := { x.adc with fftFill := 0 }, pc := .sampling avail }
  | reduce {avail : ℕ} (hpc : x.pc = .completed avail true) (hlive : x.live true = true) :
      PumpRule mag x ((x.setOwner true (adcDspOwnerTransitional x.sid)).goto (.reducing avail 0))
  | bin {avail i : ℕ} (hpc : x.pc = .reducing avail i)
      (hi : i < fftBinCount x.points x.outfmt) :
      PumpRule mag x { x with
        bins := Function.update x.bins i (fftBin mag x.outfmt x.out i)
        pc := .reducing avail (i + 1) }
  | reduced {avail i : ℕ} (hpc : x.pc = .reducing avail i)
      (hi : fftBinCount x.points x.outfmt ≤ i) :
      PumpRule mag x (x.goto (.announcing avail (fftBinCount x.points x.outfmt)))
  | announce {avail nbins : ℕ} (hpc : x.pc = .announcing avail nbins)
      (hlive : x.liveTransitional true = true) : PumpRule mag x (x.announce avail nbins)

variable {x y : Dsp β}

/-- A step that only moves the pump within its phase. -/
lemma PumpRule.free {pc : PumpPc} (hx : x.pc.phase = .free) (hpc : pc.phase = .free) :
    PumpRule mag x (x.goto pc) :=
  .quiet (hpc.trans hx.symm) (by simp [hpc]) (by simp [hpc])

lemma PumpRule.of_go (h : x.go mag = some y) : PumpRule mag x y := by
  simp only [Dsp.go] at h
  split at h
  · next hpc =>
    cases h
    refine .free (by rw [hpc]; rfl) ?_
    split <;> rfl
  · next hpc =>
    cases h
    exact .free (by rw [hpc]; rfl) rfl
  · next fft hpc =>
    cases h
    refine .free (by rw [hpc]; rfl) ?_
    split <;> rfl
  · next fft hpc =>
    cases h
    refine .free (by rw [hpc]; rfl) ?_
    split <;> rfl
  · next fft hpc =>
    simp only [adcDspOwnerClaimConfig] at h
    split_ifs at h with hlive
    · cases h
      exact .claim hpc hlive
    · cases h
      exact .free (by rw [hpc]; rfl) rfl
  · next hpc =>
    split at h
    · cases h
      exact .quiet (by rw [hpc]; rfl) nofun nofun
    · cases h
      exact .quiet (by rw [hpc]; rfl) nofun nofun
  · next fft hpc =>
    cases h
    refine .release hpc ?_
    split <;> rfl
  · next hpc =>
    cases h
    exact .mark hpc
  · next hpc =>
    cases h
    exact .apply hpc
  · next hpc =>
    cases h
    exact .reset hpc
  · next hpc =>
    cases h
    exact .init hpc
  · next fft hpc =>
    by_cases hlive : x.liveTransitional fft = true
    · have hcommit : adcDspOwnerCommitConfig x.adc fft x.sid = (x.adc.setOwner fft x.sid, true) :=
        if_pos hlive
      rw [hcommit] at h
      cases h
      exact .commit hpc hlive
    · have hcommit : adcDspOwnerCommitConfig x.adc fft x.sid =
          if x.adc.owner fft = adcDspOwnerTransitional x.sid then
            (x.adc.setOwner fft adcDspOwnerNone, false) else (x.adc, false) := if_neg hlive
      have habandon : x.abandon fft = y := by
        by_cases howner : x.adc.owner fft = adcDspOwnerTransitional x.sid
        · rw [hcommit, if_pos howner] at h
          rw [Dsp.abandon, if_pos howner]
          exact Option.some.inj h
        · rw [hcommit, if_neg howner] at h
          rw [Dsp.abandon, if_neg howner]
          exact Option.some.inj h
      rw [← habandon]
      exact .abandon (by rw [hpc]; rfl) (Bool.eq_false_iff.mpr hlive)
  · next site pos total hpc =>
    cases h
    exact .laps hpc
  · next site pos total hpc =>
    cases h
    exact .index hpc
  · next site pos total hpc =>
    cases h
    cases site with
    | live => exact .valid hpc rfl
    | pass fft => exact .valid hpc rfl
  · next live hpc =>
    cases h
    refine .free (by rw [hpc]; rfl) ?_
    split <;> rfl
  · next live hpc =>
    cases h
    split
    · next hlive => exact .jump hpc hlive
    · exact .free (by rw [hpc]; rfl) rfl
  · next fft total hpc =>
    cases h
    have hx : x.pc.phase = .free := by
      rw [hpc]
      rfl
    simp only [Dsp.weigh]
    split
    · exact .free hx rfl
    split
    · exact .free hx rfl
    · refine .free hx ?_
      split <;> rfl
  · next fft total hpc =>
    cases h
    by_cases hlive : x.live fft = true
    · exact .resync hpc hlive
    · have hsame : x.resync fft total = x := if_pos hlive
      rw [hsame]
      exact .free (by rw [hpc]; rfl) rfl
  · next avail hpc =>
    split_ifs at h with hlive
    · cases h
      exact .lease hpc hlive
    · cases h
      exact .free (by rw [hpc]; rfl) rfl
  · next avail rawRead out used sat stalled hpc =>
    by_cases hlive : x.liveTransitional false = true
    · rw [if_pos hlive] at h
      cases h
      refine .publish hpc hlive ?_
      split <;> rfl
    · rw [if_neg hlive] at h
      cases h
      exact .abandon (by rw [hpc]; rfl) (Bool.eq_false_iff.mpr hlive)
  · next hpc =>
    cases h
    exact .free (by rw [hpc]; rfl) rfl
  · next avail hpc =>
    cases h
    refine .free (by rw [hpc]; rfl) ?_
    split <;> rfl
  · next avail hpc =>
    cases h
    split
    · next hlive => exact .sample hpc hlive
    · exact .free (by rw [hpc]; rfl) rfl
  · next avail hpc =>
    cases h
    exact .look hpc
  · next avail hpc =>
    split_ifs at h with hlive
    · cases h
      exact .retry hpc hlive
    · cases h
      exact .leave (by rw [hpc]; rfl)
  · next avail hpc =>
    split_ifs at h with hlive
    · cases h
      exact .reduce hpc hlive
    · cases h
      exact .leave (by rw [hpc]; rfl)
  · next avail i hpc =>
    split_ifs at h with hi
    · cases h
      exact .bin hpc hi
    · cases h
      exact .reduced hpc (Nat.le_of_not_lt hi)
  · next avail nbins hpc =>
    split_ifs at h with hlive
    · cases h
      exact .announce hpc hlive
    · cases h
      exact .abandon (by rw [hpc]; rfl) (Bool.eq_false_iff.mpr hlive)
  · cases h

/-- The rules cover every step of the pump. -/
theorem PumpRule.of_pumpStep {act : PumpAct} (h : x.pumpStep mag act = some y) :
    PumpRule mag x y := by
  cases act with
  | visit id =>
    simp only [Dsp.pumpStep] at h
    split_ifs at h with hok hrun
    · cases h
      exact .visit hok.1 hok.2 hrun
    · cases h
      exact .skip hok.1
  | go => exact .of_go h
  | config ok =>
    simp only [Dsp.pumpStep] at h
    split_ifs at h with hpc hok
    · cases h
      exact .quiet (by rw [hpc]; rfl) nofun nofun
    · cases h
      exact .quiet (by rw [hpc]; rfl) nofun nofun
  | count remaining =>
    simp only [Dsp.pumpStep] at h
    split at h
    · next site hpc =>
      cases h
      exact .free (by rw [hpc]; rfl) rfl
    · cases h
  | filter out used sat stalled =>
    simp only [Dsp.pumpStep] at h
    split at h
    · next avail hpc =>
      split_ifs at h
      cases h
      exact .quiet (by rw [hpc]; rfl) nofun nofun
    · cases h

/-! ### The owner byte names a bound stream -/

/-- Whoever owns the block, or is about to, is bound to a chain that ends in it. -/
def Adc.Held (a : Adc) (fft : Bool) : Prop :=
  ∀ id : ℕ, a.owner fft = id ∨ a.owner fft = adcDspOwnerTransitional id →
    (a.streams id).boundTo fft = true

lemma adcDspOwnerTransitional_ne (id i : ℕ) : adcDspOwnerTransitional id ≠ (i : ℤ) := by
  simp only [adcDspOwnerTransitional]
  omega

lemma adcDspOwnerTransitional_inj {id i : ℕ}
    (h : adcDspOwnerTransitional id = adcDspOwnerTransitional i) : id = i := by
  simp only [adcDspOwnerTransitional] at h
  omega

lemma adcDspOwnerNone_ne (id : ℕ) :
    adcDspOwnerNone ≠ (id : ℤ) ∧ adcDspOwnerNone ≠ adcDspOwnerTransitional id := by
  simp only [adcDspOwnerNone, adcDspOwnerTransitional]
  omega

variable {a a' : Adc} {fft : Bool}

/-- The same owner, and no binding lost. -/
lemma Adc.Held.congr (h : a.Held fft) (howner : a'.owner fft = a.owner fft)
    (hbound : ∀ id, (a.streams id).boundTo fft = true → (a'.streams id).boundTo fft = true) :
    a'.Held fft := by
  intro id hid
  rw [howner] at hid
  exact hbound id (h id hid)

/-- Nobody owns the block. -/
lemma Adc.Held.none (howner : a.owner fft = adcDspOwnerNone) : a.Held fft := by
  intro id hid
  rw [howner] at hid
  rcases hid with hid | hid
  · exact absurd hid (adcDspOwnerNone_ne id).1
  · exact absurd hid (adcDspOwnerNone_ne id).2

/-- A bound stream owns it. -/
lemma Adc.Held.of_bound {i : ℕ}
    (howner : a.owner fft = i ∨ a.owner fft = adcDspOwnerTransitional i)
    (hbound : (a.streams i).boundTo fft = true) : a.Held fft := by
  intro id hid
  have heq : id = i := by
    simp only [adcDspOwnerTransitional] at howner hid
    omega
  rw [heq]
  exact hbound

lemma AdcStream.SameBinding.boundTo {s s' : AdcStream} (h : s.SameBinding s') (fft : Bool) :
    s'.boundTo fft = s.boundTo fft := by
  simp only [AdcStream.boundTo, h.inUse, h.dspBound, h.dspTerminal]

lemma AdcStream.boundTo_iff {s : AdcStream} :
    s.boundTo fft = true ↔ s.inUse = true ∧ s.dspBound = true ∧ (s.dspTerminal == 3) = fft := by
  simp only [AdcStream.boundTo, Bool.and_eq_true, beq_iff_eq, and_assoc]

/-- A stream that does not run is bound to nothing, nor is one without a chain. -/
lemma AdcStream.not_boundTo {s : AdcStream} (h : s.inUse = false ∨ s.dspBound = false) :
    s.boundTo fft = false := by
  rcases h with h | h <;> simp [AdcStream.boundTo, h]

@[simp]
lemma Adc.setStream_owner (i : ℕ) (s : AdcStream) : (a.setStream i s).owner fft = a.owner fft := rfl

@[simp]
lemma Adc.setChain_owner (i : ℕ) (c : DspChain) : (a.setChain i c).owner fft = a.owner fft := rfl

lemma Adc.setOwner_owner (fft' : Bool) (owner : ℤ) :
    (a.setOwner fft' owner).owner fft = if fft = fft' then owner else a.owner fft := by
  cases fft <;> cases fft' <;> rfl

@[simp]
lemma Adc.setOwner_streams (owner : ℤ) : (a.setOwner fft owner).streams = a.streams := by
  cases fft <;> rfl

@[simp]
lemma Adc.setOwner_chains (owner : ℤ) : (a.setOwner fft owner).chains = a.chains := by
  cases fft <;> rfl

/-- Writing one stream without touching its binding. -/
lemma Adc.Held.setStream (h : a.Held fft) {i : ℕ} {s : AdcStream}
    (hs : (a.streams i).boundTo fft = true → s.boundTo fft = true) :
    (a.setStream i s).Held fft := by
  refine h.congr rfl fun id hid => ?_
  rw [setStream_streams]
  by_cases hi : id = i
  · rw [hi, Function.update_self]
    exact hs (hi ▸ hid)
  · rw [Function.update_of_ne hi]
    exact hid

/-- What the end of a stream does to an owner byte. -/
lemma Adc.endStream_owner (i : ℕ) :
    (a.endStream i).owner fft =
      if (a.streams i).dspBound then (adcDspOwnerRelease (a.owner fft) i).1
      else a.owner fft := by
  simp only [endStream, setStream_owner]
  split
  · simp only [chainRelease]
    split
    all_goals
      cases fft
      · simp only [owner, fftRelease, Bool.false_eq_true, if_false]
        split <;> rfl
      · simp only [owner, fftRelease, if_true]
        split <;> rfl
  · rfl

/-! ### Interrupts -/

/-- The end of a stream releases the block if the stream had it. -/
lemma Adc.Held.ended (h : a.Held fft) (i : ℕ) :
    (a.endStream i).Held fft ∧ (a.endStream i).owner fft ≠ i ∧
      (a.endStream i).owner fft ≠ adcDspOwnerTransitional i ∧
      ((a.endStream i).owner fft = a.owner fft ∨ (a.endStream i).owner fft = adcDspOwnerNone) := by
  by_cases hown : a.owner fft = i ∨ a.owner fft = adcDspOwnerTransitional i
  · have hbound := (AdcStream.boundTo_iff.mp (h i hown)).2.1
    have hnone : (a.endStream i).owner fft = adcDspOwnerNone := by
      rw [endStream_owner, if_pos hbound, adcDspOwnerRelease, if_pos hown]
    rw [hnone]
    exact ⟨.none hnone, (adcDspOwnerNone_ne i).1, (adcDspOwnerNone_ne i).2, .inr rfl⟩
  · have hsame : (a.endStream i).owner fft = a.owner fft := by
      rw [endStream_owner, adcDspOwnerRelease, if_neg hown]
      split <;> rfl
    rw [not_or] at hown
    refine ⟨?_, hsame ▸ hown.1, hsame ▸ hown.2, .inl hsame⟩
    intro id hid
    rw [hsame] at hid
    have hne : id ≠ i := by
      rintro rfl
      exact hid.elim hown.1 hown.2
    rw [endStream_streams, Function.update_of_ne hne]
    exact h id hid

/-- A command or a lap interrupt keeps the owner bytes or frees them. -/
lemma Adc.Held.isr (h : a.Held fft) {op : AdcOp} (hop : ∀ id p, op ≠ .pump id p) :
    (adcApply a op).Held fft ∧
      ((adcApply a op).owner fft = a.owner fft ∨
        (adcApply a op).owner fft = adcDspOwnerNone) := by
  have hrule := AdcRule.of_apply a op
  generalize adcApply a op = a' at hrule
  cases hrule with
  | same => exact ⟨h, .inl rfl⟩
  | opened => exact ⟨h.congr rfl fun _ hid => hid, .inl rfl⟩
  | pushed => exact ⟨h.congr rfl fun _ hid => hid, .inl rfl⟩
  | @refused chain =>
    have hstreams := a.chainRelease_streams chain
    have howner : (a.chainRelease chain).owner fft = a.owner fft := by
      simp only [Adc.chainRelease]
      split <;> rfl
    exact ⟨h.congr howner fun id hid => hstreams ▸ hid, .inl howner⟩
  | @attached chain id last _ _ _ _ _ hrun hfree =>
    refine ⟨Adc.Held.congr (a := a.setStream id _) (h.setStream fun hb => ?_) rfl
      fun _ hid => hid, .inl rfl⟩
    exact absurd (hb.symm.trans (AdcStream.not_boundTo (.inr hfree))) Bool.noConfusion
  | @started env id _ _ _ hfree =>
    refine ⟨h.setStream fun hb => ?_, .inl rfl⟩
    exact absurd (hb.symm.trans (AdcStream.not_boundTo (.inl hfree))) Bool.noConfusion
  | @read env id maxSamples =>
    refine ⟨h.setStream fun hb => ?_, .inl rfl⟩
    rw [(AdcStream.read_binding _ env maxSamples).boundTo]
    exact hb
  | @ended env id => exact ⟨(h.ended id).1, (h.ended id).2.2.2⟩
  | @lapped id ftf dmaErr =>
    refine ⟨h.setStream fun hb => ?_, .inl rfl⟩
    rw [(AdcStream.lapped_binding _ ftf dmaErr).boundTo]
    exact hb
  | pumped => exact absurd rfl (hop _ _)

variable {x y : Dsp β}

lemma Dsp.spectrumRead_adc (x : Dsp β) (dmaErr : Bool) (id offset maxBins : ℕ) :
    (x.spectrumRead dmaErr id offset maxBins).hw = x.adc ∨
      (x.spectrumRead dmaErr id offset maxBins).hw =
        x.adc.setStream id ((x.adc.streams id).latchDmaError dmaErr) := by
  simp only [spectrumRead]
  split_ifs
  all_goals first | exact .inl rfl | exact .inr rfl

lemma Adc.Held.spectrum (h : x.adc.Held fft) (dmaErr : Bool) (id offset maxBins : ℕ) :
    (x.spectrumRead dmaErr id offset maxBins).hw.Held fft := by
  rcases x.spectrumRead_adc dmaErr id offset maxBins with hw | hw
  · rw [hw]
    exact h
  · rw [hw]
    refine h.setStream fun hb => ?_
    rw [(AdcStream.latchDmaError_binding _ dmaErr).boundTo]
    exact hb

/-! ### The pump -/

@[simp]
lemma Dsp.goto_adc (pc : PumpPc) : (x.goto pc).adc = x.adc := rfl

@[simp]
lemma Dsp.store_adc (s : AdcStream) : (x.store s).adc = x.adc.setStream x.sid s := rfl

@[simp]
lemma Dsp.setOwner_adc (owner : ℤ) : (x.setOwner fft owner).adc = x.adc.setOwner fft owner := rfl

lemma Dsp.live_iff : x.live fft = true ↔
    x.adc.owner fft = x.sid ∧ x.stream.boundTo fft = true := by
  simp only [live, Adc.ownerLive, Bool.and_eq_true, beq_iff_eq, stream]

lemma Dsp.liveTransitional_iff : x.liveTransitional fft = true ↔
    x.adc.owner fft = adcDspOwnerTransitional x.sid ∧ x.stream.boundTo fft = true := by
  simp only [liveTransitional, Adc.ownerLive, Bool.and_eq_true, beq_iff_eq, stream]

/-- The pump hands a block to a stream that is bound to it, or gives it back. -/
lemma Adc.Held.setOwner (h : x.adc.Held fft) (fft' : Bool) {owner : ℤ}
    (howner : owner = adcDspOwnerNone ∨ owner = x.adc.owner fft' ∨
      (owner = x.sid ∨ owner = adcDspOwnerTransitional x.sid) ∧ x.stream.boundTo fft' = true) :
    (x.adc.setOwner fft' owner).Held fft := by
  by_cases heq : fft = fft'
  · subst heq
    have hset : (x.adc.setOwner fft owner).owner fft = owner := by
      rw [Adc.setOwner_owner, if_pos rfl]
    rcases howner with hn | hs | ⟨ho, hb⟩
    · exact .none (hset.trans hn)
    · exact h.congr (hset.trans hs) fun id hid => by rwa [Adc.setOwner_streams]
    · refine .of_bound (i := x.sid) (by rwa [hset]) ?_
      rw [Adc.setOwner_streams]
      exact hb
  · refine h.congr ?_ fun id hid => by rwa [Adc.setOwner_streams]
    rw [Adc.setOwner_owner, if_neg heq]

/-- A step of the pump. -/
lemma Adc.Held.pump (h : x.adc.Held fft) (hr : PumpRule mag x y) : y.adc.Held fft := by
  have hstore {s : AdcStream} (hs : x.stream.SameBinding s) :
      (x.adc.setStream x.sid s).Held fft := by
    refine h.setStream fun hb => ?_
    rw [hs.boundTo]
    exact hb
  -- the publication fields are none of the owner byte's business
  have hfields (s : AdcStream) (hs : x.stream.SameBinding s) (fill seq nbins : ℕ) :
      Adc.Held { x.adc.setStream x.sid s with
        fftFill := fill, fftSeq := seq, fftNbins := nbins } fft :=
    (hstore hs).congr (by cases fft <;> rfl) fun _ hid => hid
  cases hr with
  | skip => exact h
  | visit => exact h
  | quiet => exact h
  | leave => exact h
  | claim _ hlive =>
    simp only [Adc.ownerLive, Bool.and_eq_true] at hlive
    exact h.setOwner _ (.inr (.inr ⟨.inr rfl, hlive.2⟩))
  | commit _ hlive =>
    exact h.setOwner _ (.inr (.inr ⟨.inl rfl, (Dsp.liveTransitional_iff.mp hlive).2⟩))
  | @abandon fft' =>
    simp only [Dsp.abandon]
    split
    · exact h.setOwner _ (.inl rfl)
    · exact h
  | @release fft' =>
    simp only [Dsp.goto_adc, Dsp.setOwner_adc]
    refine h.setOwner _ ?_
    simp only [adcDspOwnerRelease]
    split
    · exact .inl rfl
    · exact .inr (.inl rfl)
  | mark => exact hstore ⟨rfl, rfl, rfl, rfl⟩
  | laps => exact hstore ⟨rfl, rfl, rfl, rfl⟩
  | index => exact hstore ⟨rfl, rfl, rfl, rfl⟩
  | valid => exact hstore ⟨rfl, rfl, rfl, rfl⟩
  | jump => exact hstore ⟨rfl, rfl, rfl, rfl⟩
  | @resync fft' total _ hlive =>
    simp only [Dsp.goto_adc, Dsp.resync, hlive, not_true_eq_false, if_false]
    split
    · exact hfields { x.stream with pumpRawRead := total } ⟨rfl, rfl, rfl, rfl⟩ _ _ _
    · exact hstore ⟨rfl, rfl, rfl, rfl⟩
  | lease _ hlive =>
    exact h.setOwner _ (.inr (.inr ⟨.inr rfl, (Dsp.live_iff.mp hlive).2⟩))
  | @publish _ rawRead _ out sat _ _ _ hlive =>
    refine Adc.Held.setOwner (x := x.store (x.stream.published rawRead out sat))
      (hstore ⟨rfl, rfl, rfl, rfl⟩) false (.inr (.inr ⟨.inl rfl, ?_⟩))
    have hb := (Dsp.liveTransitional_iff.mp hlive).2
    show (Function.update x.adc.streams x.sid (x.stream.published rawRead out sat) x.sid).boundTo
      false = true
    rw [Function.update_self]
    exact hb
  | apply => exact h
  | reset => exact h.congr (by cases fft <;> rfl) fun _ hid => hid
  | init => exact h
  | sample =>
    simp only [Dsp.storeSample]
    have hnext := hfields { x.stream with pumpRawRead := (x.stream.pumpRawRead + 1) % 2 ^ 32 }
      ⟨rfl, rfl, rfl, rfl⟩ (x.adc.fftFill + 1) x.adc.fftSeq x.adc.fftNbins
    split
    · exact hnext
    · exact hnext
  | look => exact h
  | retry => exact h.congr (by cases fft <;> rfl) fun _ hid => hid
  | reduce _ hlive =>
    exact h.setOwner _ (.inr (.inr ⟨.inr rfl, (Dsp.live_iff.mp hlive).2⟩))
  | bin => exact h
  | reduced => exact h
  | @announce avail nbins _ hlive =>
    have hset := h.setOwner true
      (.inr (.inr ⟨.inl rfl, (Dsp.liveTransitional_iff.mp hlive).2⟩))
    exact hset.congr (by cases fft <;> rfl) fun _ hid => hid

end Gd32Bridge
