import Gd32Bridge.Adc.Lossless
import Gd32Bridge.Adc.Tokens

/-!
# A session that has ended

The pump may be suspended in the middle of a visit while its stream is ended and begun again.  Its
sections then find their lease gone; the stores that sit in no section do not look.
-/

namespace Gd32Bridge

open Transition

variable {β : Type} {mag : β → β → β} {zero : β} {x y : Dsp β} {gone : Bool}

/-- Whether the session the pump is at work for has ended.  It is the session the pump finds when
it turns to the stream, or the one it has since claimed a block for. -/
def sessionGone (gone : Bool) (x : Dsp β) (op : DspOp β) (y : Dsp β) : Bool :=
  match op with
  | .isr (.streamEnd _ id) => gone || (id == x.sid && !(y.adc.streams id).inUse)
  | .base _ =>
    match x.pc, y.pc with
    | .idle, _ => false
    | .claiming _, .configuring _ => false
    | _, _ => gone
  | _ => gone

/-- Nothing of the session on a stream has changed: its fields, the FFT window and sequence number,
and what a spectrum request would be answered. -/
structure Dsp.Untouched (x y : Dsp β) (id : ℕ) : Prop where
  stream : y.adc.streams id = x.adc.streams id
  fill : y.adc.fftFill = x.adc.fftFill
  seq : y.adc.fftSeq = x.adc.fftSeq
  frame : ∀ dmaErr offset maxBins,
    (y.spectrumRead dmaErr id offset maxBins).rv = (x.spectrumRead dmaErr id offset maxBins).rv ∧
      (y.spectrumRead dmaErr id offset maxBins).out =
        (x.spectrumRead dmaErr id offset maxBins).out

/-- The pump is about to store into the stream, outside any section, what is not there yet. -/
def Dsp.StaleStore (x : Dsp β) : Prop :=
  match x.pc with
  | .marking => x.stream.dspCfgBad = false
  | .storeLaps _ pos _ => x.stream.pumpPos.laps ≠ pos.laps
  | .storeW _ pos _ => x.stream.pumpPos.w ≠ pos.w
  | .storeValid _ _ _ => x.stream.pumpPos.valid = false
  | _ => False

/-- Where the pump stores into the stream outside any section. -/
def PumpPc.unguarded : PumpPc → Bool
  | marking | storeLaps _ _ _ | storeW _ _ _ | storeValid _ _ _ => true
  | _ => false

lemma Dsp.not_staleStore (h : x.pc.unguarded = false) : ¬ x.StaleStore := by
  cases hpc : x.pc <;> simp [StaleStore, PumpPc.unguarded, hpc] at h ⊢

/-! ### The invariant -/

/-- A session that has ended owns nothing, even when another one runs on its stream. -/
structure GoneInv (x : Dsp β) (gone : Bool) : Prop where
  orderly : x.Orderly
  lost : gone = true → ∀ fft, x.adc.owner fft ≠ x.sid ∧
    x.adc.owner fft ≠ adcDspOwnerTransitional x.sid

lemma Adc.setOwner_self (a : Adc) (fft : Bool) : a.setOwner fft (a.owner fft) = a := by
  cases fft
  · rfl
  · rfl

lemma AdcStream.same_iff_cfgBad (s : AdcStream) :
    { s with dspCfgBad := true } = s ↔ s.dspCfgBad = true := by
  constructor
  · intro h
    exact (congrArg AdcStream.dspCfgBad h).symm
  · intro h
    rw [← h]

lemma AdcStream.same_iff_pumpPos (s : AdcStream) {pos : AdcDmaPos} :
    { s with pumpPos := pos } = s ↔ pos = s.pumpPos := by
  constructor
  · intro h
    exact congrArg AdcStream.pumpPos h
  · intro h
    rw [h]

/-- What a step of the pump can do when the session it is at work for has ended. -/
inductive GoneRule (x y : Dsp β) : Prop
  /-- it moves on, and the tables and bins stay -/
  | move (hadc : y.adc = x.adc) (hbins : y.bins = x.bins) (hstale : ¬ x.StaleStore)
  /-- it goes on reducing a frame that nobody will read -/
  | bin (hadc : y.adc = x.adc) (hfree : x.adc.owner true = adcDspOwnerNone)
      (hstale : ¬ x.StaleStore)
  | claim {fft : Bool} (hpc : x.pc = .claiming fft) (hpc' : y.pc = .configuring fft)
      (hlive : x.adc.ownerLive fft adcDspOwnerNone x.sid = true)
      (hadc : y.adc = x.adc.setOwner fft (adcDspOwnerTransitional x.sid)) (hbins : y.bins = x.bins)
      (hstale : ¬ x.StaleStore)
  | store {s : AdcStream} (hadc : y.adc = x.adc.setStream x.sid s) (hbins : y.bins = x.bins)
      (hstale : s = x.stream ↔ ¬ x.StaleStore)

/-- The stores that sit in no section. -/
lemma GoneRule.of_unguarded {act : PumpAct} (hu : x.pc.unguarded = true)
    (hs : x.pumpStep mag act = some y) : GoneRule x y := by
  have hgo : x.go mag = some y := by
    cases act with
    | go => exact hs
    | _ => cases hpc : x.pc <;> simp [PumpPc.unguarded, Dsp.pumpStep, hpc] at hu hs
  have hstore {s : AdcStream} {pc : PumpPc} (hstale : s = x.stream ↔ ¬ x.StaleStore) :
      GoneRule x ((x.store s).goto pc) := .store rfl rfl hstale
  cases hpc : x.pc with
  | marking =>
    simp only [Dsp.go, hpc] at hgo
    cases hgo
    refine hstore ?_
    simp only [Dsp.StaleStore, hpc, Bool.not_eq_false]
    exact x.stream.same_iff_cfgBad
  | storeLaps site pos total =>
    simp only [Dsp.go, hpc] at hgo
    cases hgo
    refine hstore ?_
    simp only [Dsp.StaleStore, hpc, ne_eq, not_not]
    refine x.stream.same_iff_pumpPos.trans ⟨fun h => ?_, fun h => by rw [← h]⟩
    exact (congrArg AdcDmaPos.laps h).symm
  | storeW site pos total =>
    simp only [Dsp.go, hpc] at hgo
    cases hgo
    refine hstore ?_
    simp only [Dsp.StaleStore, hpc, ne_eq, not_not]
    refine x.stream.same_iff_pumpPos.trans ⟨fun h => ?_, fun h => by rw [← h]⟩
    exact (congrArg AdcDmaPos.w h).symm
  | storeValid site pos total =>
    have hvalid : { x.stream with pumpPos := { x.stream.pumpPos with valid := true } } = x.stream ↔
        ¬ x.StaleStore := by
      simp only [Dsp.StaleStore, hpc, Bool.not_eq_false]
      refine x.stream.same_iff_pumpPos.trans ⟨fun h => ?_, fun h => by rw [← h]⟩
      exact (congrArg AdcDmaPos.valid h).symm
    simp only [Dsp.go, hpc] at hgo
    cases hgo
    cases site with
    | live => exact hstore hvalid
    | pass => exact hstore hvalid
  | _ => simp [PumpPc.unguarded, hpc] at hu

/-- Everything the pump does for a session that has ended. -/
lemma GoneInv.rule (hi : GoneInv x true) {act : PumpAct} (hs : x.pumpStep mag act = some y) :
    GoneRule x y := by
  have hlost := hi.lost rfl
  -- no lease is alive
  have hlive (fft : Bool) : ¬ x.live fft = true := fun h => (hlost fft).1 (Dsp.live_iff.mp h).1
  have htrans (fft : Bool) : ¬ x.liveTransitional fft = true :=
    fun h => (hlost fft).2 (Dsp.liveTransitional_iff.mp h).1
  by_cases hu : x.pc.unguarded = true
  · exact .of_unguarded hu hs
  have hstale := Dsp.not_staleStore (Bool.eq_false_iff.mpr hu)
  have hr := PumpRule.of_pumpStep hs
  cases hr with
  | skip hpc => exact .move rfl rfl hstale
  | visit hpc => exact .move rfl rfl hstale
  | quiet => exact .move rfl rfl hstale
  | leave => exact .move rfl rfl hstale
  | claim hpc hclaim => exact .claim hpc rfl hclaim rfl rfl hstale
  | commit _ h => exact absurd h (htrans _)
  | @abandon fft hpc h =>
    rw [(hi.orderly.abandon_eq h).2]
    exact .move rfl rfl hstale
  | @release fft pc hpc =>
    have hsame : (adcDspOwnerRelease (x.adc.owner fft) x.sid).1 = x.adc.owner fft := by
      rw [adcDspOwnerRelease, if_neg (not_or.mpr (hlost fft))]
    rw [hsame]
    exact .move (x.adc.setOwner_self fft) rfl hstale
  | mark hpc => exact absurd (by rw [hpc]; rfl) hu
  | laps hpc => exact absurd (by rw [hpc]; rfl) hu
  | index hpc => exact absurd (by rw [hpc]; rfl) hu
  | valid hpc => exact absurd (by rw [hpc]; rfl) hu
  | jump _ h => exact absurd h (hlive _)
  | resync _ h => exact absurd h (hlive _)
  | lease _ h => exact absurd h (hlive _)
  | publish _ h => exact absurd h (htrans _)
  | apply => exact .move rfl rfl hstale
  | reset hpc =>
    have hblank := hi.orderly.blank (.inr (by rw [hpc]; rfl))
    exact .move hblank.reset rfl hstale
  | init => exact .move rfl rfl hstale
  | sample _ h => exact absurd h (hlive _)
  | look => exact .move rfl rfl hstale
  | retry _ h => exact absurd h (hlive _)
  | reduce _ h => exact absurd h (hlive _)
  | @bin avail i hpc =>
    have hmine := hi.orderly.mine true (by rw [hpc]; rfl)
    exact .bin rfl (hmine.resolve_left (hlost true).2) hstale
  | reduced => exact .move rfl rfl hstale
  | announce _ h => exact absurd h (htrans _)

/-! ### What a step leaves of the session that runs now -/

/-- What a spectrum request is answered depends on the stream, on the published frame and on whether
the stream owns the block. -/
lemma Dsp.spectrumRead_congr {id : ℕ} (hstream : y.adc.streams id = x.adc.streams id)
    (hseq : y.adc.fftSeq = x.adc.fftSeq) (hnbins : y.adc.fftNbins = x.adc.fftNbins)
    (howner : y.adc.fftOwner = id ↔ x.adc.fftOwner = id)
    (hbins : x.adc.fftOwner = id → y.bins = x.bins) (dmaErr : Bool) (offset maxBins : ℕ) :
    (y.spectrumRead dmaErr id offset maxBins).rv = (x.spectrumRead dmaErr id offset maxBins).rv ∧
      (y.spectrumRead dmaErr id offset maxBins).out =
        (x.spectrumRead dmaErr id offset maxBins).out := by
  have hset (a : Adc) (s : AdcStream) : (a.setStream id s).fftOwner = a.fftOwner ∧
      (a.setStream id s).fftSeq = a.fftSeq ∧ (a.setStream id s).fftNbins = a.fftNbins :=
    ⟨rfl, rfl, rfl⟩
  simp only [spectrumRead, hstream, (hset _ _).1, (hset _ _).2.1, (hset _ _).2.2, hseq, hnbins]
  by_cases hown : x.adc.fftOwner = id
  · have hown' := howner.mpr hown
    simp only [hown, hown', hbins hown]
    split_ifs <;> exact ⟨rfl, rfl⟩
  · have hown' := mt howner.mp hown
    simp only [hown, hown', ne_eq, not_false_eq_true, true_or, if_true]
    split_ifs <;> exact ⟨rfl, rfl⟩

/-- Nothing of it changes, unless the pump is about to store what is not there. -/
lemma GoneRule.untouched_iff (hr : GoneRule x y) : x.Untouched y x.sid ↔ ¬ x.StaleStore := by
  cases hr with
  | move hadc hbins hstale =>
    refine iff_of_true ⟨by rw [hadc], by rw [hadc], by rw [hadc], ?_⟩ hstale
    exact Dsp.spectrumRead_congr (by rw [hadc]) (by rw [hadc]) (by rw [hadc]) (by rw [hadc])
      fun _ => hbins
  | bin hadc hfree hstale =>
    refine iff_of_true ⟨by rw [hadc], by rw [hadc], by rw [hadc], ?_⟩ hstale
    refine Dsp.spectrumRead_congr (by rw [hadc]) (by rw [hadc]) (by rw [hadc]) (by rw [hadc]) ?_
    exact fun howner => absurd (hfree.symm.trans howner) (adcDspOwnerNone_ne x.sid).1
  | @claim fft hpc hpc' hlive hadc hbins hstale =>
    simp only [Adc.ownerLive, Bool.and_eq_true, beq_iff_eq] at hlive
    refine iff_of_true ?_ hstale
    cases fft with
    | false =>
      refine ⟨by rw [hadc]; rfl, by rw [hadc]; rfl, by rw [hadc]; rfl, ?_⟩
      refine Dsp.spectrumRead_congr (by rw [hadc]; rfl) (by rw [hadc]; rfl) (by rw [hadc]; rfl) ?_
        fun _ => hbins
      rw [hadc]
      exact Iff.rfl
    | true =>
      refine ⟨by rw [hadc]; rfl, by rw [hadc]; rfl, by rw [hadc]; rfl, ?_⟩
      refine Dsp.spectrumRead_congr (by rw [hadc]; rfl) (by rw [hadc]; rfl) (by rw [hadc]; rfl) ?_
        fun _ => hbins
      rw [hadc]
      exact iff_of_false (adcDspOwnerTransitional_ne x.sid x.sid)
        fun howner => (adcDspOwnerNone_ne x.sid).1 (hlive.1.symm.trans howner)
  | @store s hadc hbins hstale =>
    have hself : y.adc.streams x.sid = s := by
      rw [hadc, Adc.setStream_streams, Function.update_self]
    rw [← hstale]
    constructor
    · intro h
      exact hself.symm.trans h.stream
    · intro hs
      have hsame : y.adc.streams x.sid = x.adc.streams x.sid := hself.trans hs
      refine ⟨hsame, by rw [hadc]; rfl, by rw [hadc]; rfl, ?_⟩
      exact Dsp.spectrumRead_congr hsame (by rw [hadc]; rfl) (by rw [hadc]; rfl)
        (by rw [hadc]; rfl) fun _ => hbins

/-! ### Runs -/

/-- Interrupts end sessions and give no lease. -/
lemma GoneInv.isr (hi : GoneInv x gone) {op : AdcOp} (hop : ∀ id p, op ≠ .pump id p)
    (hy : y = { x with adc := adcApply x.adc op }) :
    GoneInv y (sessionGone gone x (.isr op) y) := by
  have hord : y.Orderly := hy ▸ hi.orderly.isr hop
  have hsid : y.sid = x.sid := by rw [hy]
  refine ⟨hord, fun hgone fft => ?_⟩
  rw [hsid]
  by_cases hold : gone = true
  · have howner : y.adc.owner fft = x.adc.owner fft ∨ y.adc.owner fft = adcDspOwnerNone := by
      rw [hy]
      exact ((hi.orderly.held fft).isr hop).2
    rcases howner with howner | howner
    · rw [howner]
      exact hi.lost hold fft
    · rw [howner]
      exact ⟨(adcDspOwnerNone_ne x.sid).1, (adcDspOwnerNone_ne x.sid).2⟩
  · have hended : (y.adc.streams x.sid).inUse = false := by
      cases op with
      | streamEnd env id =>
        simp only [sessionGone, Bool.or_eq_true, Bool.and_eq_true, beq_iff_eq,
          Bool.not_eq_true'] at hgone
        have hend := hgone.resolve_left hold
        exact hend.1 ▸ hend.2
      | _ => exact absurd hgone hold
    exact hord.not_owner hended fft

/-- The pump takes a lease only for a session that is there. -/
lemma GoneInv.base (hi : GoneInv x gone) {act : PumpAct} (hs : x.pumpStep mag act = some y) :
    GoneInv y (sessionGone gone x (.base act) y) := by
  have hr := PumpRule.of_pumpStep hs
  refine ⟨hi.orderly.pump hr, fun hgone fft => ?_⟩
  have hold : gone = true ∧ x.pc ≠ .idle ∧
      ¬ ∃ fft fft', x.pc = .claiming fft ∧ y.pc = .configuring fft' := by
    simp only [sessionGone] at hgone
    split at hgone
    · cases hgone
    · cases hgone
    · next hidle hclaim =>
      refine ⟨hgone, fun h => hidle h, ?_⟩
      rintro ⟨fft, fft', h, h'⟩
      exact hclaim fft fft' h h'
  obtain ⟨rfl, hidle, hclaim⟩ := hold
  rw [hr.sid_eq hidle]
  cases hi.rule hs with
  | move hadc =>
    rw [hadc]
    exact hi.lost rfl fft
  | bin hadc =>
    rw [hadc]
    exact hi.lost rfl fft
  | claim hpc hpc' => exact absurd ⟨_, _, hpc, hpc'⟩ hclaim
  | store hadc =>
    rw [hadc]
    exact hi.lost rfl fft

lemma GoneInv.step {op : DspOp β} {p q : Dsp β × Bool} (hi : GoneInv p.1 p.2)
    (hs : withHistory (dspStep mag) sessionGone p op = some q) : GoneInv q.1 q.2 := by
  obtain ⟨x, gone⟩ := p
  obtain ⟨y, gone'⟩ := q
  obtain ⟨hstep, hnote⟩ := withHistory_eq_some.mp hs
  simp only at hi hstep hnote ⊢
  subst hnote
  cases op with
  | isr op =>
    cases op with
    | pump => cases hstep
    | _ => exact hi.isr (fun _ _ => nofun) (Option.some.inj hstep).symm
  | base act => exact hi.base hstep
  | spectrum dmaErr id offset maxBins =>
    cases hstep
    refine ⟨hi.orderly.spectrum dmaErr id offset maxBins, fun hgone fft => ?_⟩
    show (x.spectrumRead dmaErr id offset maxBins).hw.owner fft ≠ x.sid ∧
      (x.spectrumRead dmaErr id offset maxBins).hw.owner fft ≠ adcDspOwnerTransitional x.sid
    rcases x.spectrumRead_adc dmaErr id offset maxBins with hw | hw
    · rw [hw]
      exact hi.lost hgone fft
    · rw [hw]
      exact hi.lost hgone fft
  | fftOut out =>
    have hord := hi.orderly.step hstep
    simp only [dspStep] at hstep
    split_ifs at hstep
    cases hstep
    exact ⟨hord, hi.lost⟩
  | fftDone =>
    have hord := hi.orderly.step hstep
    simp only [dspStep] at hstep
    split_ifs at hstep
    cases hstep
    exact ⟨hord, hi.lost⟩

/-- Along every run: a step of the pump for a session that has ended leaves the session that runs
on its stream by then alone, unless it is one of the stores outside the sections and stores
something new; and between two visits no owner byte carries a token. -/
theorem session_isolation_iff
    (hr : Reach (withHistory (dspStep mag) sessionGone) (fun p => p = (.boot zero, false))
      (fun _ _ _ => True) (x, gone)) :
    (∀ act y, dspStep mag x (.base act) = some y →
      ((gone = true → (x.adc.streams x.sid).inUse = true → x.Untouched y x.sid) ↔
        ¬ (gone = true ∧ (x.adc.streams x.sid).inUse = true ∧ x.StaleStore))) ∧
      (x.pc = .idle → ∀ fft id, x.adc.owner fft ≠ adcDspOwnerTransitional id) := by
  have hi : GoneInv x gone := by
    refine Reach.invariant (I := fun p => GoneInv p.1 p.2) ?_ ?_ hr
    · rintro p rfl
      exact ⟨.boot zero, nofun⟩
    · exact fun p op q _ hi hs _ => hi.step hs
  constructor
  · intro act y hs
    by_cases hgone : gone = true
    · subst hgone
      rw [(hi.rule hs).untouched_iff]
      constructor
      · intro h hstale
        exact h rfl hstale.2.1 hstale.2.2
      · intro h _ hrun hstale
        exact h ⟨rfl, hrun, hstale⟩
    · exact iff_of_true (fun h => absurd h hgone) fun h => hgone h.1
  · intro hpc fft id howner
    have htoken := (hi.orderly.token fft id howner).2
    rw [hpc] at htoken
    cases htoken

/-- Stream 0 is ended, begun again and bound to a new filter. -/
def replaceSession : List (DspOp ℕ) :=
  [.isr (.streamEnd ⟨true, true⟩ 0), .isr (.streamBegin ⟨true, true, true, true, 12⟩ 0 0 1000),
    .isr .chainOpen, .isr (.stagePush 0 0 0 0 8 [0, 1, 0, 0, 0, 0, 0, 0]), .isr (.chainBind 0 0)]

/-- A run of `filterSession` and `ops` at whose end stream 0 is in its second session and the pump,
begun for the first one, is at `pc`. -/
def suspendedAt (pc : PumpPc) (ops : List (DspOp ℕ)) : Bool :=
  (run (withHistory (dspStep fun a b => a + b) sessionGone) (fun _ _ _ => true)
    (Dsp.boot 0, false) ops).any fun p =>
      p.2 && p.1.pc == pc && p.1.sid == 0 && (p.1.adc.streams 0).boundTo false &&
        !(p.1.adc.streams 0).pumpPos.valid && !(p.1.adc.streams 0).dspCfgBad

/-- The state it leads to. -/
lemma reach_suspended (pc : PumpPc) (ops : List (DspOp ℕ)) (h : suspendedAt pc ops = true) :
    ∃ x : Dsp ℕ, Reach (withHistory (dspStep fun a b => a + b) sessionGone)
        (fun p => p = (.boot 0, false)) (fun _ _ _ => True) (x, true) ∧ x.pc = pc ∧ x.sid = 0 ∧
      (x.adc.streams 0).boundTo false = true ∧ (x.adc.streams 0).pumpPos.valid = false ∧
      (x.adc.streams 0).dspCfgBad = false := by
  have hinit : Reach (withHistory (dspStep fun a b : ℕ => a + b) sessionGone)
      (fun p => p = (.boot 0, false)) (fun _ _ _ => True) (.boot 0, false) := .start rfl
  obtain ⟨⟨x, gone⟩, hr, hq⟩ := hinit.exists_of_run _ _ ops (fun _ _ _ _ => trivial) h
  simp only [Bool.and_eq_true, beq_iff_eq, Bool.not_eq_true'] at hq
  obtain ⟨⟨⟨⟨⟨rfl, hpc⟩, hsid⟩, hb⟩, hvalid⟩, hcfg⟩ := hq
  exact ⟨x, hr, hpc, hsid, hb, hvalid, hcfg⟩

/-- A batch whose session is replaced before its commit. -/
theorem session_isolation_iff_suspended_batch :
    ∃ x y : Dsp ℕ, (x.adc.streams x.sid).boundTo false = true ∧
      x.pc = .publishing 8 8 [1, 2, 3, 4, 5, 6, 7, 4095] 8 false false ∧
      dspStep (fun a b => a + b) x (.base .go) = some y ∧ x.Untouched y x.sid := by
  obtain ⟨x, hr, hpc, hsid, hb, -, -⟩ := reach_suspended
    (.publishing 8 8 [1, 2, 3, 4, 5, 6, 7, 4095] 8 false false)
    (filterSession ++ firstBatch ++ replaceSession) (by decide +kernel)
  have hgo : ∃ y, dspStep (fun a b => a + b) x (.base .go) = some y := by
    simp only [dspStep, Dsp.pumpStep, Dsp.go, hpc]
    split
    · exact ⟨_, rfl⟩
    · exact ⟨_, rfl⟩
  obtain ⟨y, hy⟩ := hgo
  have hstale : ¬ x.StaleStore := by simp [Dsp.StaleStore, hpc]
  rw [← hsid] at hb
  refine ⟨x, y, hb, hpc, hy, ?_⟩
  exact ((session_isolation_iff hr).1 .go y hy).mpr (fun h => hstale h.2.2) rfl
    (AdcStream.boundTo_iff.mp hb).1

lemma Dsp.store_stream (x : Dsp β) (s : AdcStream) (pc : PumpPc) :
    ((x.store s).goto pc).adc.streams x.sid = s := by
  rw [Dsp.goto_adc, Dsp.store_adc, Adc.setStream_streams, Function.update_self]

/-- The second session gets the position tracker of the first one, or its refused configuration. -/
theorem suspended_pump_touches_replacement :
    (∃ x y : Dsp ℕ, Reach (withHistory (dspStep fun a b => a + b) sessionGone)
        (fun p => p = (.boot 0, false)) (fun _ _ _ => True) (x, true) ∧
      (x.adc.streams x.sid).inUse = true ∧ dspStep (fun a b => a + b) x (.base .go) = some y ∧
      x.stream.pumpPos.valid = false ∧ y.stream.pumpPos.valid = true ∧
      ¬ x.Untouched y x.sid) ∧
    ∃ x y : Dsp ℕ, Reach (withHistory (dspStep fun a b => a + b) sessionGone)
        (fun p => p = (.boot 0, false)) (fun _ _ _ => True) (x, true) ∧
      (x.adc.streams x.sid).inUse = true ∧ dspStep (fun a b => a + b) x (.base .go) = some y ∧
      x.stream.dspCfgBad = false ∧ y.stream.dspCfgBad = true ∧ ¬ x.Untouched y x.sid := by
  constructor
  · obtain ⟨x, hr, hpc, hsid, hb, hvalid, -⟩ := reach_suspended
      (.storeValid (.pass false) ⟨0, 8, true⟩ 8)
      (filterSession ++ [.base (.visit 0), .base .go, .base .go, .base .go, .base .go,
        .base (.count 1016), .base .go, .base .go] ++ replaceSession) (by decide +kernel)
    have hgo : dspStep (fun a b => a + b) x (.base .go) = some ((x.store { x.stream with
        pumpPos := { x.stream.pumpPos with valid := true } }).goto (.weighing false 8)) := by
      simp only [dspStep, Dsp.pumpStep, Dsp.go, hpc]
      rfl
    have hvalid' : x.stream.pumpPos.valid = false := by rwa [Dsp.stream, hsid]
    rw [← hsid] at hb
    refine ⟨x, _, hr, (AdcStream.boundTo_iff.mp hb).1, hgo, hvalid', ?_, fun h => ?_⟩
    · exact congrArg (fun s : AdcStream => s.pumpPos.valid) (x.store_stream _ _)
    · have hsame := congrArg (fun s : AdcStream => s.pumpPos.valid)
        (h.stream.symm.trans (x.store_stream _ _))
      exact Bool.noConfusion (hvalid'.symm.trans hsame)
  · obtain ⟨x, hr, hpc, hsid, hb, -, hcfg⟩ := reach_suspended .marking
      (filterSession.take 10 ++ [.base (.config false), .base .go] ++ replaceSession)
      (by decide +kernel)
    have hgo : dspStep (fun a b => a + b) x (.base .go) =
        some ((x.store { x.stream with dspCfgBad := true }).goto .idle) := by
      simp only [dspStep, Dsp.pumpStep, Dsp.go, hpc]
    have hcfg' : x.stream.dspCfgBad = false := by rwa [Dsp.stream, hsid]
    rw [← hsid] at hb
    refine ⟨x, _, hr, (AdcStream.boundTo_iff.mp hb).1, hgo, hcfg', ?_, fun h => ?_⟩
    · exact congrArg AdcStream.dspCfgBad (x.store_stream _ _)
    · have hsame := congrArg AdcStream.dspCfgBad (h.stream.symm.trans (x.store_stream _ _))
      exact Bool.noConfusion (hcfg'.symm.trans hsame)

end Gd32Bridge
