import Gd32Bridge.Adc.Lease

/-!
# The transitional token

A transitional token stands in an owner byte only while the pump is in the phase that needs it, and
names the stream the pump is at work on.  While nobody owns the FFT block, and while it is being
configured, no frame is published.
-/

namespace Gd32Bridge

open Transition

variable {β : Type} {mag : β → β → β} {x y : Dsp β} {a : Adc} {fft : Bool}

/-- No frame is there, and none has been begun. -/
structure Adc.Blank (a : Adc) : Prop where
  fill : a.fftFill = 0
  seq : a.fftSeq = 0
  nbins : a.fftNbins = 0

lemma Adc.Blank.reset (h : a.Blank) : a.fftSessionReset = a := by
  have hfill := h.fill
  have hseq := h.seq
  have hnbins := h.nbins
  cases a
  simp only at hfill hseq hnbins
  subst hfill hseq hnbins
  rfl

/-- What holds of the owner bytes between any two steps. -/
structure Dsp.Orderly (x : Dsp β) : Prop where
  held : ∀ fft, x.adc.Held fft
  token : ∀ fft id, x.adc.owner fft = adcDspOwnerTransitional id →
    id = x.sid ∧ x.pc.phase.token = some fft
  mine : ∀ fft, x.pc.phase.token = some fft →
    x.adc.owner fft = adcDspOwnerTransitional x.sid ∨ x.adc.owner fft = adcDspOwnerNone
  blank : x.adc.owner true = adcDspOwnerNone ∨ x.pc.phase = .config true → x.adc.Blank

lemma Dsp.Orderly.boot (zero : β) : (Dsp.boot zero).Orderly where
  held := fun fft => .none (by cases fft <;> rfl)
  token := by
    intro fft id h
    have hnone : (Dsp.boot zero).adc.owner fft = adcDspOwnerNone := by cases fft <;> rfl
    exact absurd (hnone.symm.trans h) (adcDspOwnerNone_ne id).2
  mine := fun _ h => nomatch h
  blank := fun _ => ⟨rfl, rfl, rfl⟩

/-! ### Interrupts -/

/-- What an interrupt leaves of the published frame: everything, or nothing when the stream that
owned the block has been ended. -/
inductive FftEffect (a a' : Adc) : Prop
  | same (howner : a'.owner true = a.owner true) (hfill : a'.fftFill = a.fftFill)
      (hseq : a'.fftSeq = a.fftSeq) (hnbins : a'.fftNbins = a.fftNbins)
  | freed {i : ℕ} (hown : a.owner true = i ∨ a.owner true = adcDspOwnerTransitional i)
      (hrun : (a'.streams i).inUse = false) (hnone : a'.owner true = adcDspOwnerNone)
      (hblank : a'.Blank)

lemma Adc.chainRelease_fft (i : ℕ) :
    (a.chainRelease i).owner true = a.owner true ∧ (a.chainRelease i).fftFill = a.fftFill ∧
      (a.chainRelease i).fftSeq = a.fftSeq ∧ (a.chainRelease i).fftNbins = a.fftNbins := by
  simp only [chainRelease]
  split
  · exact ⟨rfl, rfl, rfl, rfl⟩
  · exact ⟨rfl, rfl, rfl, rfl⟩

/-- The end of a stream. -/
lemma Adc.Held.ended_fft (h : a.Held true) (i : ℕ) : FftEffect a (a.endStream i) := by
  by_cases hown : a.owner true = i ∨ a.owner true = adcDspOwnerTransitional i
  · have hbound := (AdcStream.boundTo_iff.mp (h i hown)).2.1
    have hrel : adcDspOwnerRelease (a.facRelease i).fftOwner i = (adcDspOwnerNone, true) :=
      if_pos hown
    have hfft : ((a.facRelease i).fftRelease i).Blank := by
      simp only [fftRelease, hrel, if_true]
      exact ⟨rfl, rfl, rfl⟩
    have hrest := ((a.facRelease i).fftRelease i).chainRelease_fft (a.streams i).dspChainId
    refine .freed hown ?_ ?_ ?_
    · rw [endStream_streams, Function.update_self]
      rfl
    · rw [endStream_owner, if_pos hbound, adcDspOwnerRelease, if_pos hown]
    · simp only [endStream, hbound, if_true]
      exact ⟨hrest.2.1.trans hfft.fill, hrest.2.2.1.trans hfft.seq, hrest.2.2.2.trans hfft.nbins⟩
  · have hrel : adcDspOwnerRelease (a.facRelease i).fftOwner i = (a.fftOwner, false) :=
      if_neg hown
    have hfft : (a.facRelease i).fftRelease i = a.facRelease i := by
      simp only [fftRelease, hrel]
      rfl
    have hrest := (a.facRelease i).chainRelease_fft (a.streams i).dspChainId
    by_cases hbound : (a.streams i).dspBound = true
    · simp only [endStream, hbound, if_true, hfft]
      exact .same hrest.1 hrest.2.1 hrest.2.2.1 hrest.2.2.2
    · simp only [endStream, hbound]
      exact .same rfl rfl rfl rfl

/-- A command or a lap interrupt. -/
lemma Adc.Held.isr_fft (h : a.Held true) {op : AdcOp} (hop : ∀ id p, op ≠ .pump id p) :
    FftEffect a (adcApply a op) := by
  have hrule := AdcRule.of_apply a op
  generalize adcApply a op = a' at hrule
  cases hrule with
  | same => exact .same rfl rfl rfl rfl
  | opened => exact .same rfl rfl rfl rfl
  | pushed => exact .same rfl rfl rfl rfl
  | @refused chain =>
    have hrest := a.chainRelease_fft chain
    exact .same hrest.1 hrest.2.1 hrest.2.2.1 hrest.2.2.2
  | attached => exact .same rfl rfl rfl rfl
  | started => exact .same rfl rfl rfl rfl
  | read => exact .same rfl rfl rfl rfl
  | @ended env id => exact h.ended_fft id
  | lapped => exact .same rfl rfl rfl rfl
  | pumped => exact absurd rfl (hop _ _)

/-- Interrupts give no token. -/
lemma Dsp.Orderly.isr (h : x.Orderly) {op : AdcOp} (hop : ∀ id p, op ≠ .pump id p) :
    ({ x with adc := adcApply x.adc op } : Dsp β).Orderly where
  held := fun fft => ((h.held fft).isr hop).1
  token := by
    intro fft id hid
    rcases ((h.held fft).isr hop).2 with howner | howner
    · exact h.token fft id (howner.symm.trans hid)
    · exact absurd (howner.symm.trans hid) (adcDspOwnerNone_ne id).2
  mine := by
    intro fft hphase
    rcases ((h.held fft).isr hop).2 with howner | howner
    · exact (h.mine fft hphase).imp howner.trans howner.trans
    · exact .inr howner
  blank := by
    intro hnone
    have heffect := (h.held true).isr_fft hop
    cases heffect with
    | same howner hfill hseq hnbins =>
      have hb := h.blank (hnone.imp_left howner.symm.trans)
      exact ⟨hfill.trans hb.fill, hseq.trans hb.seq, hnbins.trans hb.nbins⟩
    | freed _ _ _ hblank => exact hblank

lemma Dsp.Orderly.spectrum (h : x.Orderly) (dmaErr : Bool) (id offset maxBins : ℕ) :
    ({ x with adc := (x.spectrumRead dmaErr id offset maxBins).hw } : Dsp β).Orderly := by
  have hheld (fft : Bool) := (h.held fft).spectrum dmaErr id offset maxBins
  rcases x.spectrumRead_adc dmaErr id offset maxBins with hw | hw
  · rw [hw] at hheld ⊢
    exact ⟨hheld, h.token, h.mine, h.blank⟩
  · rw [hw] at hheld ⊢
    refine ⟨hheld, h.token, h.mine, fun hb => ?_⟩
    exact ⟨(h.blank hb).fill, (h.blank hb).seq, (h.blank hb).nbins⟩

/-! ### The pump -/

/-- A step that touches no owner byte and stays under the same token. -/
lemma Dsp.Orderly.keep (h : x.Orderly) (hr : PumpRule mag x y)
    (howner : ∀ fft, y.adc.owner fft = x.adc.owner fft)
    (hsid : y.sid = x.sid) (htoken : y.pc.phase.token = x.pc.phase.token)
    (hblank : y.adc.owner true = adcDspOwnerNone ∨ y.pc.phase = .config true → y.adc.Blank) :
    y.Orderly where
  held := fun fft => (h.held fft).pump hr
  token := by
    intro fft id hid
    rw [hsid, htoken]
    exact h.token fft id ((howner fft).symm.trans hid)
  mine := by
    intro fft hphase
    rw [howner, hsid]
    exact h.mine fft (htoken ▸ hphase)
  blank := hblank

/-- The pump takes a token. -/
lemma Dsp.Orderly.take (h : x.Orderly) (hr : PumpRule mag x y) (hx : x.pc.phase.token = none)
    (hy : y.pc.phase.token = some fft) (hsid : y.sid = x.sid)
    (howner : y.adc.owner fft = adcDspOwnerTransitional x.sid)
    (hother : ∀ fft', fft' ≠ fft → y.adc.owner fft' = x.adc.owner fft')
    (hblank : y.adc.owner true = adcDspOwnerNone ∨ y.pc.phase = .config true → y.adc.Blank) :
    y.Orderly where
  held := fun fft => (h.held fft).pump hr
  token := by
    intro fft' id hid
    by_cases heq : fft' = fft
    · subst heq
      exact ⟨adcDspOwnerTransitional_inj (hid.symm.trans howner) |>.trans hsid.symm, hy⟩
    · have hold := (h.token fft' id ((hother fft' heq).symm.trans hid)).2
      rw [hx] at hold
      cases hold
  mine := by
    intro fft' hphase
    have heq : fft = fft' := Option.some.inj (hy.symm.trans hphase)
    rw [← heq, hsid]
    exact .inl howner
  blank := hblank

/-- And gives it back. -/
lemma Dsp.Orderly.settle (h : x.Orderly) (hr : PumpRule mag x y) (hx : x.pc.phase.token = some fft)
    (hy : y.pc.phase.token = none)
    (howner : ∀ id, y.adc.owner fft ≠ adcDspOwnerTransitional id)
    (hother : ∀ fft', fft' ≠ fft → y.adc.owner fft' = x.adc.owner fft')
    (hblank : y.adc.owner true = adcDspOwnerNone ∨ y.pc.phase = .config true → y.adc.Blank) :
    y.Orderly where
  held := fun fft => (h.held fft).pump hr
  token := by
    intro fft' id hid
    by_cases heq : fft' = fft
    · exact absurd (heq ▸ hid) (howner id)
    · have hold := (h.token fft' id ((hother fft' heq).symm.trans hid)).2
      exact absurd (Option.some.inj (hx.symm.trans hold)).symm heq
  mine := by
    intro fft' hphase
    rw [hy] at hphase
    cases hphase
  blank := hblank

/-- A lease that is alive is no free block. -/
lemma Dsp.live_ne_none (h : x.live true = true) : x.adc.owner true ≠ adcDspOwnerNone := by
  rw [(Dsp.live_iff.mp h).1]
  exact (adcDspOwnerNone_ne x.sid).1.symm

/-- A commit section finds its lease gone only when the owner byte carries no token of it. -/
lemma Dsp.Orderly.abandon_eq (h : x.Orderly) (hlive : x.liveTransitional fft = false) :
    x.adc.owner fft ≠ adcDspOwnerTransitional x.sid ∧ x.abandon fft = x.goto .idle := by
  have hne : x.adc.owner fft ≠ adcDspOwnerTransitional x.sid := by
    intro howner
    have hbound := h.held fft x.sid (.inr howner)
    rw [Dsp.liveTransitional_iff.mpr ⟨howner, hbound⟩] at hlive
    cases hlive
  exact ⟨hne, if_neg hne⟩

/-- A step that leaves the tables alone and stays under the same token. -/
lemma Dsp.Orderly.quiet (h : x.Orderly) (hr : PumpRule mag x y) (hadc : y.adc = x.adc)
    (hsid : y.sid = x.sid) (htoken : y.pc.phase.token = x.pc.phase.token)
    (hphase : y.pc.phase = .config true → x.pc.phase = .config true) : y.Orderly := by
  refine h.keep hr (fun fft => by rw [hadc]) hsid htoken fun hb => ?_
  rw [hadc] at hb ⊢
  exact h.blank (hb.imp_right hphase)

/-- A step that writes the stream, between two phases. -/
lemma Dsp.Orderly.write (h : x.Orderly) {s : AdcStream} {pc : PumpPc}
    (hr : PumpRule mag x ((x.store s).goto pc)) (hx : x.pc.phase = .free) (hpc : pc.phase = .free) :
    ((x.store s).goto pc).Orderly := by
  have htoken : ((x.store s).goto pc).pc.phase.token = x.pc.phase.token := by
    rw [hx, ← hpc]
    rfl
  refine h.keep hr (fun fft => rfl) rfl htoken ?_
  rintro (hb | hb)
  · exact ⟨(h.blank (.inl hb)).fill, (h.blank (.inl hb)).seq, (h.blank (.inl hb)).nbins⟩
  · exact nomatch hpc.symm.trans hb

/-- The pump turns to another stream only when it is idle. -/
lemma PumpRule.sid_eq (hr : PumpRule mag x y) (hidle : x.pc ≠ .idle) : y.sid = x.sid := by
  cases hr with
  | visit hpc => exact absurd hpc hidle
  | abandon =>
    simp only [Dsp.abandon]
    split <;> rfl
  | @resync fft =>
    simp only [Dsp.goto, Dsp.resync]
    split
    · rfl
    split <;> rfl
  | sample =>
    simp only [Dsp.storeSample]
    split <;> rfl
  | _ => rfl

/-- A step of the pump. -/
lemma Dsp.Orderly.pump (h : x.Orderly) (hr : PumpRule mag x y) : y.Orderly := by
  have hrule := hr
  cases hrule with
  | skip => exact h
  | @visit id hpc hid hrun =>
    refine ⟨h.held, fun fft id hid => ?_, fun _ => by rintro ⟨⟩, ?_⟩
    · have hold := (h.token fft id hid).2
      rw [hpc] at hold
      cases hold
    · rintro (hb | hb)
      · exact h.blank (.inl hb)
      · cases hb
  | quiet hphase hpc hpc' =>
    exact h.quiet hr rfl rfl (congrArg PumpPhase.token hphase)
      fun hc => hphase.symm.trans hc
  | leave hpc =>
    refine h.quiet hr rfl rfl ?_ (by rintro ⟨⟩)
    rw [hpc]
    rfl
  | @claim fft hpc hlive =>
    refine h.take hr (by rw [hpc]; rfl) rfl rfl ?_ ?_ ?_
    · exact (Adc.setOwner_owner fft _).trans (if_pos rfl)
    · exact fun fft' hne => (Adc.setOwner_owner fft _).trans (if_neg hne)
    · -- the FFT block was free until now
      intro hb
      have hfree : x.adc.owner true = adcDspOwnerNone := by
        cases fft with
        | true =>
          simp only [Adc.ownerLive, Bool.and_eq_true, beq_iff_eq] at hlive
          exact hlive.1
        | false => exact hb.resolve_right (by rintro ⟨⟩)
      have hblank := h.blank (.inl hfree)
      cases fft
      · exact ⟨hblank.fill, hblank.seq, hblank.nbins⟩
      · exact ⟨hblank.fill, hblank.seq, hblank.nbins⟩
  | @commit fft site hpc hlive =>
    have hset (fft' : Bool) : ((x.setOwner fft x.sid).goto (.counting site)).adc.owner fft' =
        if fft' = fft then (x.sid : ℤ) else x.adc.owner fft' := Adc.setOwner_owner fft _
    refine h.settle hr (by rw [hpc]; rfl) rfl ?_ ?_ ?_
    · intro id
      rw [hset, if_pos rfl]
      exact (adcDspOwnerTransitional_ne id x.sid).symm
    · exact fun fft' hne => (hset fft').trans (if_neg hne)
    · rintro (hb | hb)
      · rw [hset] at hb
        split_ifs at hb with heq
        · exact absurd hb.symm (adcDspOwnerNone_ne x.sid).1
        · have hblank := h.blank (.inl hb)
          cases fft
          · exact ⟨hblank.fill, hblank.seq, hblank.nbins⟩
          · exact ⟨hblank.fill, hblank.seq, hblank.nbins⟩
      · cases hb
  | @abandon fft hpc hlive =>
    obtain ⟨hne, hidle⟩ := h.abandon_eq hlive
    rw [hidle] at hr ⊢
    refine h.settle hr hpc rfl ?_ (fun _ _ => rfl) ?_
    · intro id hid
      rw [(h.token fft id hid).1] at hid
      exact hne hid
    · rintro (hb | hb)
      · exact h.blank (.inl hb)
      · cases hb
  | @release fft pc hpc hfree =>
    set owner := (adcDspOwnerRelease (x.adc.owner fft) x.sid).1 with howner
    have hset (fft' : Bool) : ((x.setOwner fft owner).goto pc).adc.owner fft' =
        if fft' = fft then owner else x.adc.owner fft' := Adc.setOwner_owner fft _
    have htoken : x.pc.phase.token = some fft := by rw [hpc]; rfl
    have hnone : ((x.setOwner fft owner).goto pc).pc.phase = .free := hfree
    refine h.settle hr htoken (by rw [hnone]; rfl) ?_ ?_ ?_
    · intro id hid
      rw [hset, if_pos rfl, howner, adcDspOwnerRelease] at hid
      split_ifs at hid with hmine
      · exact (adcDspOwnerNone_ne id).2 hid
      · exact hmine (.inr ((h.token fft id hid).1 ▸ hid))
    · exact fun fft' hne => (hset fft').trans (if_neg hne)
    · rintro (hb | hb)
      · rw [hset] at hb
        have hblank : x.adc.Blank := by
          split_ifs at hb with heq
          · exact h.blank (.inr (by rw [hpc, ← heq]; rfl))
          · exact h.blank (.inl hb)
        cases fft
        · exact ⟨hblank.fill, hblank.seq, hblank.nbins⟩
        · exact ⟨hblank.fill, hblank.seq, hblank.nbins⟩
      · cases hnone.symm.trans hb
  | mark hpc => exact h.write hr (by rw [hpc]; rfl) rfl
  | laps hpc => exact h.write hr (by rw [hpc]; rfl) rfl
  | index hpc => exact h.write hr (by rw [hpc]; rfl) rfl
  | valid hpc hfree => exact h.write hr (by rw [hpc]; rfl) hfree
  | jump hpc hlive => exact h.write hr (by rw [hpc]; rfl) rfl
  | @resync fft total hpc hlive =>
    have htoken : x.pc.phase.token = none := by rw [hpc]; rfl
    cases fft with
    | false =>
      have heq : x.resync false total =
          x.store { x.stream with pumpRawRead := total, procGap := true } := by
        simp only [Dsp.resync, hlive, not_true_eq_false, if_false, Bool.false_eq_true]
      rw [heq] at hr ⊢
      exact h.write hr (by rw [hpc]; rfl) rfl
    | true =>
      have heq : x.resync true total = { x with
          adc := { x.adc.setStream x.sid { x.stream with pumpRawRead := total } with
            fftFill := 0 } } := by
        simp only [Dsp.resync, hlive, not_true_eq_false, if_false, if_true]
      rw [heq] at hr ⊢
      have hne : x.adc.owner true ≠ adcDspOwnerNone := Dsp.live_ne_none hlive
      refine h.keep hr (fun fft => by cases fft <;> rfl) rfl htoken.symm ?_
      rintro (hb | hb)
      · exact absurd hb hne
      · cases hb
  | @lease avail hpc hlive =>
    refine h.take hr (by rw [hpc]; rfl) rfl rfl rfl ?_ ?_
    · intro fft' hne
      rw [Bool.eq_not_of_ne hne]
      rfl
    · rintro (hb | hb)
      · exact ⟨(h.blank (.inl hb)).fill, (h.blank (.inl hb)).seq, (h.blank (.inl hb)).nbins⟩
      · cases hb
  | @publish avail rawRead used out sat stalled pc hpc hlive hfree =>
    have hphase : (((x.store (x.stream.published rawRead out sat)).setOwner false x.sid).goto
        pc).pc.phase = .free := hfree
    have htoken : x.pc.phase.token = some false := by rw [hpc]; rfl
    refine h.settle hr htoken (by rw [hphase]; rfl) ?_ ?_ ?_
    · exact fun id => (adcDspOwnerTransitional_ne id x.sid).symm
    · intro fft' hne
      rw [Bool.eq_not_of_ne hne]
      rfl
    · rintro (hb | hb)
      · exact ⟨(h.blank (.inl hb)).fill, (h.blank (.inl hb)).seq, (h.blank (.inl hb)).nbins⟩
      · cases hphase.symm.trans hb
  | apply hpc => exact h.quiet hr rfl rfl (by rw [hpc]; rfl) fun _ => by rw [hpc]; rfl
  | reset hpc =>
    refine h.keep hr (fun fft => by cases fft <;> rfl) rfl (by rw [hpc]; rfl) fun _ => ?_
    exact ⟨rfl, rfl, rfl⟩
  | init hpc => exact h.quiet hr rfl rfl (by rw [hpc]; rfl) fun _ => by rw [hpc]; rfl
  | @sample avail hpc hlive =>
    have hne := Dsp.live_ne_none hlive
    simp only [Dsp.storeSample] at hr ⊢
    split_ifs at hr ⊢
    · refine h.keep hr (fun fft => by cases fft <;> rfl) rfl (by rw [hpc]; rfl) ?_
      rintro (hb | hb)
      · exact absurd hb hne
      · cases hb
    · refine h.keep hr (fun fft => by cases fft <;> rfl) rfl (by rw [hpc]; rfl) ?_
      rintro (hb | hb)
      · exact absurd hb hne
      · cases hb
  | look hpc => exact h.quiet hr rfl rfl (by rw [hpc]; rfl) (by rintro ⟨⟩)
  | @retry avail hpc hlive =>
    have hne := Dsp.live_ne_none hlive
    refine h.keep hr (fun fft => by cases fft <;> rfl) rfl (by rw [hpc]; rfl) ?_
    rintro (hb | hb)
    · exact absurd hb hne
    · cases hb
  | @reduce avail hpc hlive =>
    refine h.take hr (by rw [hpc]; rfl) rfl rfl rfl ?_ ?_
    · intro fft' hne
      rw [Bool.eq_not_of_ne hne]
      rfl
    · rintro (hb | hb)
      · exact absurd hb.symm (adcDspOwnerNone_ne x.sid).2
      · cases hb
  | bin hpc hi => exact h.quiet hr rfl rfl (by rw [hpc]; rfl) (by rintro ⟨⟩)
  | reduced hpc hi => exact h.quiet hr rfl rfl (by rw [hpc]; rfl) (by rintro ⟨⟩)
  | @announce avail nbins hpc hlive =>
    have htoken : x.pc.phase.token = some true := by rw [hpc]; rfl
    refine h.settle hr htoken rfl ?_ ?_ ?_
    · exact fun id => (adcDspOwnerTransitional_ne id x.sid).symm
    · intro fft' hne
      rw [Bool.eq_not_of_ne hne]
      rfl
    · rintro (hb | hb)
      · exact absurd hb.symm (adcDspOwnerNone_ne x.sid).1
      · cases hb

/-- Every step keeps the owner bytes in order. -/
theorem Dsp.Orderly.step (h : x.Orderly) {op : DspOp β} (hs : dspStep mag x op = some y) :
    y.Orderly := by
  cases op with
  | isr op =>
    cases op with
    | pump => cases hs
    | _ =>
      cases hs
      exact h.isr fun _ _ => nofun
  | spectrum dmaErr id offset maxBins =>
    cases hs
    exact h.spectrum dmaErr id offset maxBins
  | base act => exact h.pump (.of_pumpStep hs)
  | fftOut out =>
    simp only [dspStep] at hs
    split_ifs at hs
    cases hs
    exact ⟨h.held, h.token, h.mine, h.blank⟩
  | fftDone =>
    simp only [dspStep] at hs
    split_ifs at hs
    cases hs
    exact ⟨h.held, h.token, h.mine, h.blank⟩

/-- A stream that does not run owns nothing. -/
lemma Dsp.Orderly.not_owner (h : x.Orderly) {id : ℕ} (hrun : (x.adc.streams id).inUse = false)
    (fft : Bool) : x.adc.owner fft ≠ id ∧ x.adc.owner fft ≠ adcDspOwnerTransitional id := by
  have hunbound : (x.adc.streams id).boundTo fft = false := AdcStream.not_boundTo (.inl hrun)
  constructor
  · intro howner
    exact Bool.noConfusion (hunbound.symm.trans (h.held fft id (.inl howner)))
  · intro howner
    exact Bool.noConfusion (hunbound.symm.trans (h.held fft id (.inr howner)))

end Gd32Bridge
