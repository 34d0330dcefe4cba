import Gd32Bridge.Adc.Spectrum
import Gd32Bridge.Adc.Visit

/-!
# Frames are read whole

A reply is part of one whole frame of the session that asks.  It names the frame by a 32-bit
number, so two frames of one session share a number when `2 ^ 32` frames lie between them.
-/

namespace Gd32Bridge

open Transition

variable {β : Type} {mag : β → β → β} {zero : β}

/-- While a frame is being reduced or the block configured, nobody is given bins; a request that is
not refused for another reason is answered BUSY. -/
lemma Dsp.Orderly.busy {x : Dsp β} (h : x.Orderly)
    (hphase : x.pc.phase = .frame ∨ x.pc.phase = .config true) (dmaErr : Bool)
    (id offset maxBins : ℕ) :
    (x.spectrumRead dmaErr id offset maxBins).out = none ∧
      (id < bridgeAdcStreamCount → (x.adc.streams id).boundTo true = true →
        ((x.adc.streams id).latchDmaError dmaErr).dmaErrorCount = 0 →
        (x.spectrumRead dmaErr id offset maxBins).rv = .busy) := by
  have htoken : x.pc.phase.token = some true := by
    rcases hphase with hphase | hphase <;> rw [hphase] <;> rfl
  have hne : x.adc.owner true ≠ id := by
    intro howner
    rcases h.mine true htoken with htrans | hnone
    · exact adcDspOwnerTransitional_ne x.sid id (htrans.symm.trans howner)
    · exact (adcDspOwnerNone_ne id).1 (hnone.symm.trans howner)
  constructor
  · cases hout : (x.spectrumRead dmaErr id offset maxBins).out with
    | none => rfl
    | some r => exact absurd (spectrumRead_out hout).1 hne
  · intro hid hbound herr
    simp only [spectrumRead, if_neg (Nat.not_le_of_lt hid), hbound, not_true_eq_false, if_false,
      herr, ne_eq]
    exact congrArg HwResult.rv (if_pos (Or.inl hne))

/-- The number of a frame identifies it as long as the session has not announced more than
`2 ^ 32`. -/
lemma FrameHistory.Sliced.same_frame {h : FrameHistory β} (hs : h.Sliced) {id : ℕ}
    (hfew : (h.frames id).length ≤ 2 ^ 32) {e e' : FrameReply β} (he : e ∈ h.replies id)
    (he' : e' ∈ h.replies id) (hseq : e.reply.seq = e'.reply.seq) :
    ∃ f ∈ h.frames id, e.SliceOf f ∧ e'.SliceOf f := by
  obtain ⟨k, f, hk, hkseq, hf⟩ := hs id e he
  obtain ⟨k', f', hk', hkseq', hf'⟩ := hs id e' he'
  have hlt := (List.getElem?_eq_some_iff.mp hk).1
  have hlt' := (List.getElem?_eq_some_iff.mp hk').1
  have heq : k = k' := by
    rw [hkseq, hkseq'] at hseq
    omega
  rw [heq] at hk
  have hsame : f = f' := Option.some.inj (hk.symm.trans hk')
  exact ⟨f, List.mem_of_getElem? hk, hf, hsame ▸ hf'⟩

lemma FrameInv.of_reach {x : Dsp β} {h : FrameHistory β}
    (hr : Reach (withHistory (dspStep mag) (FrameHistory.note mag))
      (fun p => p = (.boot zero, .empty)) (fun _ _ _ => True) (x, h)) : FrameInv mag x h := by
  refine Reach.invariant (I := fun p => FrameInv mag p.1 p.2) ?_ ?_ hr
  · rintro p rfl
    exact .boot mag zero
  · exact fun p op q _ hi hs _ => hi.step hs

/-- Along every run: each reply given in the present session of a stream is part of one whole frame
announced in that session and carries its number modulo `2 ^ 32`, so that replies with the same
number are parts of the same frame unless more than `2 ^ 32` have been announced; while a frame is
being reduced or the block configured no bins are given; and a frame whose session has ended is not
announced. -/
theorem spectrum_frames_whole {x : Dsp β} {h : FrameHistory β}
    (hr : Reach (withHistory (dspStep mag) (FrameHistory.note mag))
      (fun p => p = (.boot zero, .empty)) (fun _ _ _ => True) (x, h)) :
    (∀ id, ∀ e ∈ h.replies id, ∃ k f, (h.frames id)[k]? = some f ∧
      e.reply.seq = (k + 1) % 2 ^ 32 ∧ e.SliceOf f) ∧
    (∀ id, (h.frames id).length ≤ 2 ^ 32 → ∀ e ∈ h.replies id, ∀ e' ∈ h.replies id,
      e.reply.seq = e'.reply.seq → ∃ f ∈ h.frames id, e.SliceOf f ∧ e'.SliceOf f) ∧
    (x.pc.phase = .frame ∨ x.pc.phase = .config true → ∀ dmaErr id offset maxBins,
      (x.spectrumRead dmaErr id offset maxBins).out = none ∧
        (id < bridgeAdcStreamCount → (x.adc.streams id).boundTo true = true →
          ((x.adc.streams id).latchDmaError dmaErr).dmaErrorCount = 0 →
          (x.spectrumRead dmaErr id offset maxBins).rv = .busy)) ∧
    (h.revoked = true → ∀ avail n, x.pc = .announcing avail n → ∀ act y,
      dspStep mag x (.base act) = some y → y.adc = x.adc ∧ y.bins = x.bins) := by
  have hi := FrameInv.of_reach hr
  refine ⟨hi.sliced, ?_, fun hphase => hi.orderly.busy hphase, ?_⟩
  · exact fun id hfew e he e' he' => hi.sliced.same_frame hfew he he'
  · intro hrev avail n hpc act y hs
    have hlost := hi.lost hrev (.inr (by rw [hpc]; rfl))
    have hlive : x.liveTransitional true = false := by
      rw [← Bool.not_eq_true]
      exact fun hlive => hlost.2 (Dsp.liveTransitional_iff.mp hlive).1
    have hgo : x.go mag = some y := by
      cases act with
      | go => exact hs
      | _ => simp [dspStep, Dsp.pumpStep, hpc] at hs
    simp only [Dsp.go, hpc, hlive, Bool.false_eq_true, if_false, (hi.orderly.abandon_eq hlive).2]
      at hgo
    cases hgo
    exact ⟨rfl, rfl⟩

/-! ### Runs -/

/-- The FFT works on stream 0 and a frame has been asked for. -/
def fftSession : List (DspOp ℕ) :=
  [.isr (.streamBegin ⟨true, true, true, true, 12⟩ 0 0 1000), .isr .chainOpen,
    .isr (.stagePush 0 0 3 0 4 [32, 0, 0, 0]), .isr (.chainBind 0 0),
    .base (.visit 0), .base .go, .base .go, .base .go, .base .go, .base .go, .base .go, .base .go,
    .base .go, .base .go, .base .go, .base (.count 1024), .base .go, .base .go, .base .go,
    .base .go]

/-- Some run leads to `v`, with these frames announced and these replies given on stream 0. -/
def FrameLane (mag : β → β → β) (zero : β) (v : PumpView β) (frames : List (List β))
    (replies : List (FrameReply β)) : Prop :=
  ∃ h, Lane mag (FrameHistory.note mag) (fun p => p = (.boot zero, .empty)) (fun _ _ _ => True) true
      v h ∧ h.frames 0 = frames ∧ h.replies 0 = replies

/-- The way to the samples and the reloads are nothing to the frames. -/
lemma FrameHistory.unnoted (mag : β → β → β) :
    Unnoted (η := FrameHistory β) (FrameHistory.note mag) (fun _ _ _ => True) where
  base := by
    intro h x act y hearly
    cases hpc : x.pc <;> simp [PumpPc.early, hpc, FrameHistory.note] at hearly ⊢
  lap := fun _ _ _ _ _ => rfl
  okBase := fun _ _ _ => trivial
  okLap := fun _ _ _ _ => trivial

variable {v v' : PumpView β} {frames frames' : List (List β)} {replies : List (FrameReply β)}

/-- One more step of the pump. -/
lemma FrameLane.base (hl : FrameLane mag zero v frames replies) (act : PumpAct)
    (hstep : ∀ (x : Dsp β) (h : FrameHistory β), x.sid = 0 → x.view true = v →
      h.frames 0 = frames → ∃ y, x.pumpStep mag act = some y ∧ y.sid = 0 ∧ y.view true = v' ∧
        (h.note mag x (.base act) y).frames 0 = frames' ∧
        (h.note mag x (.base act) y).replies 0 = h.replies 0) :
    FrameLane mag zero v' frames' replies := by
  obtain ⟨h, ⟨x, hr, hsid, hv⟩, hframes, hreplies⟩ := hl
  obtain ⟨y, hy, hsid', hv', hframes', hreplies'⟩ := hstep x h hsid hv hframes
  exact ⟨_, ⟨y, .next (.base act) hr (withHistory_eq_some.mpr ⟨hy, rfl⟩) trivial, hsid', hv'⟩,
    hframes', hreplies'.trans hreplies⟩

/-- The stream after `n` of its samples have been taken by the FFT pump. -/
def AdcStream.sampled (s : AdcStream) (n : ℕ) : AdcStream :=
  { s with pumpRawRead := (s.pumpRawRead + n) % 2 ^ 32 }

/-- One sample goes into the window. -/
lemma FrameLane.sample {k : ℕ} (hl : FrameLane mag zero v frames replies)
    (hpc : v.pc = .sampling (k + 1)) (howner : v.owner = 0)
    (hbound : v.stream.boundTo true = true) :
    FrameLane mag zero
      (if v.fill + 1 < v.points then
        { v with pc := .sampling k, stream := v.stream.sampled 1, fill := v.fill + 1 }
      else
        { v with
          pc := .waiting k, stream := v.stream.sampled 1, fill := v.fill + 1
          running := true }) frames replies := by
  have hlive {x : Dsp β} {w : PumpView β} (hsid : x.sid = 0) (hv : x.view true = w)
      (hown : w.owner = 0) (hb : w.stream.boundTo true = true) : x.live true = true := by
    refine Dsp.live_iff.mpr ⟨?_, (Dsp.stream_of_view hsid hv).symm ▸ hb⟩
    rw [hsid]
    exact (congrArg PumpView.owner hv).trans hown
  have h₁ : FrameLane mag zero { v with pc := .storing k } frames replies := by
    refine hl.base .go fun x h hsid hv hframes => ?_
    have hx : x.pc = .sampling (k + 1) := (congrArg PumpView.pc hv).trans hpc
    refine ⟨x.goto (.storing k), ?_, hsid, by rw [Dsp.view_goto, hv], ?_, ?_⟩
    · simp only [Dsp.pumpStep, Dsp.go, hx, hlive hsid hv howner hbound, if_true]
    · simp only [FrameHistory.note, hx]
      exact hframes
    · simp only [FrameHistory.note, hx]
  refine h₁.base .go fun x h hsid hv hframes => ?_
  have hx : x.pc = .storing k := congrArg PumpView.pc hv
  have hfill : x.adc.fftFill = v.fill := congrArg PumpView.fill hv
  have hpoints : x.points = v.points := congrArg PumpView.points hv
  have hown : x.adc.owner true = v.owner := congrArg PumpView.owner hv
  have hfmt : x.outfmt = v.outfmt := congrArg PumpView.outfmt hv
  have hrun : x.running = v.running := congrArg PumpView.running hv
  have hout : x.out = v.out := congrArg PumpView.out hv
  refine ⟨x.storeSample k, ?_, ?_, ?_, ?_, ?_⟩
  · simp only [Dsp.pumpStep, Dsp.go, hx, hlive hsid hv howner hbound, if_true]
  · rw [← hsid]
    simp only [Dsp.storeSample]
    split <;> rfl
  · have hstream : Function.update x.adc.streams x.sid
        { x.stream with pumpRawRead := (x.stream.pumpRawRead + 1) % 2 ^ 32 } 0 =
          v.stream.sampled 1 := by
      rw [hsid, Function.update_self, Dsp.stream_of_view hsid hv]
      rfl
    simp only [Dsp.storeSample, hfill, hpoints]
    by_cases hfull : v.fill + 1 < v.points
    · rw [if_pos hfull, if_neg (Nat.not_le_of_lt hfull)]
      exact PumpView.ext rfl hown hstream rfl hfmt rfl hrun hout
    · rw [if_neg hfull, if_pos (Nat.le_of_not_lt hfull)]
      exact PumpView.ext rfl hown hstream rfl hfmt rfl rfl hout
  · simp only [FrameHistory.note, hx]
    exact hframes
  · simp only [FrameHistory.note, hx]

/-- Samples go into the window one after the other, as long as there is room. -/
lemma FrameLane.samples {k n : ℕ} (hl : FrameLane mag zero v frames replies)
    (hpc : v.pc = .sampling (n + k)) (howner : v.owner = 0)
    (hbound : v.stream.boundTo true = true) (hraw : v.stream.pumpRawRead < 2 ^ 32)
    (hroom : v.fill + n < v.points) :
    FrameLane mag zero
      { v with pc := .sampling k, stream := v.stream.sampled n, fill := v.fill + n }
      frames replies := by
  induction n generalizing v with
  | zero =>
    have hsame : v.stream.sampled 0 = v.stream := by
      rw [AdcStream.sampled, Nat.add_zero, Nat.mod_eq_of_lt hraw]
    have hv : { v with pc := .sampling k, stream := v.stream.sampled 0, fill := v.fill + 0 } =
        v := by
      rw [hsame]
      refine PumpView.ext ?_ rfl rfl rfl rfl rfl rfl rfl
      rw [hpc, Nat.zero_add]
    rw [hv]
    exact hl
  | succ n ih =>
    have hmore : v.pc = .sampling (n + k + 1) := by
      rw [hpc, Nat.add_right_comm]
    have hnext := hl.sample hmore howner hbound
    rw [if_pos (by omega)] at hnext
    have hlast := ih hnext rfl howner hbound (Nat.mod_lt _ (by decide)) (by simp only; omega)
    have hsum : (v.stream.sampled 1).sampled n = v.stream.sampled (n + 1) := by
      simp only [AdcStream.sampled, Nat.mod_add_mod, Nat.add_assoc, Nat.add_comm 1 n]
    simp only [hsum, Nat.add_assoc, Nat.add_comm 1 n] at hlast
    exact hlast

/-- The pump is idle, has taken all of the first `T` samples, and the window of 32 is empty. -/
structure PumpView.Ready (v : PumpView β) (T : ℕ) : Prop where
  pc : v.pc = .idle
  owner : v.owner = 0
  drained : v.stream.Drained true T
  points : v.points = 32
  outfmt : v.outfmt = 0
  fill : v.fill = 0

/-- The block does its work. -/
lemma FrameLane.block (hl : FrameLane mag zero v frames replies) (op : DspOp β)
    (hnote : ∀ x y (h : FrameHistory β), h.note mag x op y = h)
    (hstep : ∀ x : Dsp β, x.view true = v →
      ∃ y, dspStep mag x op = some y ∧ y.sid = x.sid ∧ y.view true = v') :
    FrameLane mag zero v' frames replies := by
  obtain ⟨h, hlane, hframes, hreplies⟩ := hl
  refine ⟨h, hlane.step op (fun _ _ => trivial) fun x hsid hv => ?_, hframes, hreplies⟩
  obtain ⟨y, hy, hsid', hv'⟩ := hstep x hv
  exact ⟨y, hy, hsid'.trans hsid, hv', hnote x y h⟩

/-- Thirty-two samples fill the window, the block leaves `out` and the pump begins to reduce it. -/
lemma FrameLane.capture {T : ℕ} (hl : FrameLane mag zero v frames replies) (hv : v.Ready T)
    (out : ℕ → β) :
    FrameLane mag zero { v with
      pc := .reducing 0 0, owner := adcDspOwnerTransitional 0
      stream := (v.stream.counted (T + 32)).sampled 32, fill := 32, running := false, out := out }
      frames replies := by
  obtain ⟨h, hlane, hframes, hreplies⟩ := hl
  have harrive : FrameLane mag zero
      { v with pc := .sampling 32, stream := v.stream.counted (T + 32) } frames replies :=
    ⟨h, hlane.arrive (n := 32) (FrameHistory.unnoted mag) hv.drained hv.pc hv.owner (by decide)
      (by decide), hframes, hreplies⟩
  have hbound : (v.stream.counted (T + 32)).boundTo true = true := hv.drained.boundTo
  have hraw : (v.stream.counted (T + 32)).pumpRawRead < 2 ^ 32 := by
    have hread : (v.stream.counted (T + 32)).pumpRawRead = T % 2 ^ 32 := hv.drained.pumpRawRead
    rw [hread]
    exact Nat.mod_lt _ (by decide)
  have hroom : v.fill + 31 < v.points := by
    rw [hv.fill, hv.points]
    decide
  have hfull : ¬ v.fill + 31 + 1 < v.points := by
    rw [hv.fill, hv.points]
    decide
  have hwindow := (harrive.samples (n := 31) (k := 1) rfl hv.owner hbound hraw hroom).sample
    (k := 0) rfl hv.owner hbound
  rw [if_neg hfull] at hwindow
  have hstream : ((v.stream.counted (T + 32)).sampled 31).sampled 1 =
      (v.stream.counted (T + 32)).sampled 32 := by
    simp only [AdcStream.sampled, Nat.mod_add_mod, Nat.add_assoc]
  have hfill : v.fill + 31 + 1 = 32 := by
    rw [hv.fill]
  simp only [hstream, hfill] at hwindow
  -- the block calculates
  have hout := hwindow.block (.fftOut out) (fun _ _ _ => rfl) fun x hx => by
    have hrun : x.running = true := congrArg PumpView.running hx
    refine ⟨{ x with out }, if_pos hrun, rfl, ?_⟩
    have hview : ({ x with out } : Dsp β).view true = { x.view true with out := out } := rfl
    rw [hview, hx]
  have hdone := hout.block .fftDone (fun _ _ _ => rfl) fun x hx => by
    have hrun : x.running = true := congrArg PumpView.running hx
    refine ⟨{ x with running := false }, if_pos hrun, rfl, ?_⟩
    have hview : ({ x with running := false } : Dsp β).view true =
        { x.view true with running := false } := rfl
    rw [hview, hx]
  -- and the pump finds it done
  have hlook : FrameLane mag zero { v with
      pc := .completed 0 true, stream := (v.stream.counted (T + 32)).sampled 32, fill := 32
      running := false, out := out } frames replies := by
    refine hdone.base .go fun x h hsid hx hframes => ?_
    have hpc : x.pc = .waiting 0 := congrArg PumpView.pc hx
    have hrun : x.running = false := congrArg PumpView.running hx
    refine ⟨x.goto (.completed 0 true), ?_, hsid, by rw [Dsp.view_goto, hx], ?_, ?_⟩
    · simp only [Dsp.pumpStep, Dsp.go, hpc, hrun, Bool.not_false]
    · simp only [FrameHistory.note, hpc]
      exact hframes
    · simp only [FrameHistory.note, hpc]
  refine hlook.base .go fun x h hsid hx hframes => ?_
  have hpc : x.pc = .completed 0 true := congrArg PumpView.pc hx
  have hlive : x.live true = true := by
    refine Dsp.live_iff.mpr ⟨?_, (Dsp.stream_of_view hsid hx).symm ▸ hbound⟩
    rw [hsid]
    exact (congrArg PumpView.owner hx).trans hv.owner
  refine ⟨(x.setOwner true (adcDspOwnerTransitional x.sid)).goto (.reducing 0 0), ?_, hsid, ?_, ?_,
    ?_⟩
  · simp only [Dsp.pumpStep, Dsp.go, hpc, hlive, if_true]
  · rw [Dsp.view_goto, Dsp.view_setOwner, hx, hsid]
  · simp only [FrameHistory.note, hpc]
    exact hframes
  · simp only [FrameHistory.note, hpc]

/-- The bins are reduced one after the other. -/
lemma FrameLane.reduce {avail i : ℕ} (hl : FrameLane mag zero v frames replies)
    (hpc : v.pc = .reducing avail 0) (hi : i ≤ fftBinCount v.points v.outfmt) :
    FrameLane mag zero { v with pc := .reducing avail i } frames replies := by
  induction i with
  | zero =>
    rw [← hpc]
    exact hl
  | succ i ih =>
    refine (ih (Nat.le_of_succ_le hi)).base .go fun x h hsid hx hframes => ?_
    have hred : x.pc = .reducing avail i := congrArg PumpView.pc hx
    have hpoints : x.points = v.points := congrArg PumpView.points hx
    have hfmt : x.outfmt = v.outfmt := congrArg PumpView.outfmt hx
    have hlt : i < fftBinCount x.points x.outfmt := by
      rw [hpoints, hfmt]
      exact hi
    refine ⟨{ x with
      bins := Function.update x.bins i (fftBin mag x.outfmt x.out i)
      pc := .reducing avail (i + 1) }, ?_, hsid, ?_, ?_, ?_⟩
    · simp only [Dsp.pumpStep, Dsp.go, hred, if_pos hlt]
    · have hview : ({ x with
          bins := Function.update x.bins i (fftBin mag x.outfmt x.out i)
          pc := .reducing avail (i + 1) } : Dsp β).view true =
            { x.view true with pc := .reducing avail (i + 1) } := rfl
      rw [hview, hx]
    · simp only [FrameHistory.note, hred]
      exact hframes
    · simp only [FrameHistory.note, hred]

def PumpView.frame (mag : β → β → β) (v : PumpView β) : List β :=
  (List.range (fftBinCount v.points v.outfmt)).map (fftBin mag v.outfmt v.out)

/-- The frame is reduced and announced. -/
lemma FrameLane.announce {avail : ℕ} (hl : FrameLane mag zero v frames replies)
    (hpc : v.pc = .reducing avail 0) (howner : v.owner = adcDspOwnerTransitional 0)
    (hbound : v.stream.boundTo true = true) :
    FrameLane mag zero { v with pc := .sampling avail, owner := 0, fill := 0 }
      (frames ++ [v.frame mag]) replies := by
  have hreduced : FrameLane mag zero
      { v with pc := .announcing avail (fftBinCount v.points v.outfmt) } frames replies := by
    refine (hl.reduce hpc (Nat.le_refl _)).base .go fun x h hsid hx hframes => ?_
    have hred : x.pc = .reducing avail (fftBinCount v.points v.outfmt) := congrArg PumpView.pc hx
    have hpoints : x.points = v.points := congrArg PumpView.points hx
    have hfmt : x.outfmt = v.outfmt := congrArg PumpView.outfmt hx
    refine ⟨x.goto (.announcing avail (fftBinCount v.points v.outfmt)), ?_, hsid,
      by rw [Dsp.view_goto, hx], ?_, ?_⟩
    · simp only [Dsp.pumpStep, Dsp.go, hred, hpoints, hfmt, Nat.lt_irrefl, if_false]
    · simp only [FrameHistory.note, hred]
      exact hframes
    · simp only [FrameHistory.note, hred]
  refine hreduced.base .go fun x h hsid hx hframes => ?_
  have hann : x.pc = .announcing avail (fftBinCount v.points v.outfmt) := congrArg PumpView.pc hx
  have hframe : x.frame mag = v.frame mag := by
    have hpoints : x.points = v.points := congrArg PumpView.points hx
    have hfmt : x.outfmt = v.outfmt := congrArg PumpView.outfmt hx
    have hout : x.out = v.out := congrArg PumpView.out hx
    rw [Dsp.frame, PumpView.frame, hpoints, hfmt, hout]
  have hlive : x.liveTransitional true = true := by
    refine Dsp.liveTransitional_iff.mpr ⟨?_, (Dsp.stream_of_view hsid hx).symm ▸ hbound⟩
    rw [hsid]
    exact (congrArg PumpView.owner hx).trans howner
  have hnote (y : Dsp β) : h.note mag x (.base .go) y = h.announced 0 (v.frame mag) := by
    simp only [FrameHistory.note, hann, hlive, if_true, hsid, hframe]
  refine ⟨x.announce avail (fftBinCount v.points v.outfmt), ?_, hsid, ?_, ?_, ?_⟩
  · simp only [Dsp.pumpStep, Dsp.go, hann, hlive, if_true]
  · have hview : (x.announce avail (fftBinCount v.points v.outfmt)).view true =
        { x.view true with pc := .sampling avail, owner := x.sid, fill := 0 } := rfl
    rw [hview, hx, hsid]
    rfl
  · rw [hnote, ← hframes]
    exact Function.update_self 0 _ h.frames
  · rw [hnote]
    rfl

/-- A visit that finds a window of samples. -/
lemma FrameLane.cycle {T : ℕ} (hl : FrameLane mag zero v frames replies) (hv : v.Ready T)
    (out : ℕ → β) :
    ∃ v', FrameLane mag zero v' (frames ++ [(List.range 64).map out]) replies ∧
      v'.Ready (T + 32) := by
  have hbound : ((v.stream.counted (T + 32)).sampled 32).boundTo true = true := hv.drained.boundTo
  have hann := (hl.capture hv out).announce rfl rfl hbound
  have hframe : PumpView.frame mag { v with
      pc := .reducing 0 0, owner := adcDspOwnerTransitional 0
      stream := (v.stream.counted (T + 32)).sampled 32, fill := 32, running := false, out := out } =
        (List.range 64).map out := by
    simp only [PumpView.frame, hv.points, hv.outfmt]
    rfl
  rw [hframe] at hann
  have hidle : FrameLane mag zero { v with
      pc := .idle, owner := 0, stream := (v.stream.counted (T + 32)).sampled 32, fill := 0
      running := false, out := out } (frames ++ [(List.range 64).map out]) replies := by
    refine hann.base .go fun x h hsid hx hframes => ?_
    have hpc : x.pc = .sampling 0 := congrArg PumpView.pc hx
    refine ⟨x.goto .idle, ?_, hsid, by rw [Dsp.view_goto, hx], ?_, ?_⟩
    · simp only [Dsp.pumpStep, Dsp.go, hpc]
    · simp only [FrameHistory.note, hpc]
      exact hframes
    · simp only [FrameHistory.note, hpc]
  have hraw : ((v.stream.counted (T + 32)).sampled 32).pumpRawRead = (T + 32) % 2 ^ 32 := by
    have hread : (v.stream.counted (T + 32)).pumpRawRead = T % 2 ^ 32 := hv.drained.pumpRawRead
    rw [AdcStream.sampled, hread, Nat.mod_add_mod]
  exact ⟨_, hidle, rfl, rfl, ⟨hv.drained.inUse, hv.drained.dspBound, hv.drained.terminal,
    hv.drained.dmaErrorCount, rfl, rfl, hraw⟩, hv.points, hv.outfmt, rfl⟩

/-- And `m` of them, all with the same output. -/
lemma FrameLane.cycles {T : ℕ} (hl : FrameLane mag zero v frames replies) (hv : v.Ready T)
    (out : ℕ → β) (m : ℕ) :
    ∃ v', FrameLane mag zero v' (frames ++ List.replicate m ((List.range 64).map out)) replies ∧
      v'.Ready (T + 32 * m) := by
  induction m with
  | zero =>
    rw [List.replicate_zero, List.append_nil]
    exact ⟨v, hl, hv⟩
  | succ m ih =>
    obtain ⟨w, hw, hready⟩ := ih
    obtain ⟨w', hw', hready'⟩ := hw.cycle hready out
    rw [List.append_assoc, ← List.replicate_succ'] at hw'
    exact ⟨w', hw', hready'⟩

/-- A request for the first bin gets that of the last frame, with its number. -/
lemma FrameLane.read {T : ℕ} {f : List β} (hl : FrameLane mag zero v (frames ++ [f]) replies)
    (hv : v.Ready T) (hseq : (frames.length + 1) % 2 ^ 32 ≠ 0) :
    FrameLane mag zero v (frames ++ [f])
      (⟨0, 1, (frames.length + 1) % 2 ^ 32, f.length, f.take 1⟩ :: replies) := by
  obtain ⟨h, ⟨x, hr, hsid, hx⟩, hframes, hreplies⟩ := hl
  have hpub := (FrameInv.of_reach hr).published
  have howner : x.adc.owner true = (0 : ℕ) := (congrArg PumpView.owner hx).trans hv.owner
  have hstream : x.adc.streams 0 = v.stream := congrArg PumpView.stream hx
  have hfftSeq : x.adc.fftSeq = (frames.length + 1) % 2 ^ 32 := by
    rw [hpub.seq 0 (.inl howner), hframes, List.length_append, List.length_singleton]
  have hbins : (List.range x.adc.fftNbins).map x.bins = f := by
    rw [hpub.bins 0 howner, hframes, List.getLastD_eq_getLast?, List.getLast?_concat]
    rfl
  have hnbins : x.adc.fftNbins = f.length := by
    rw [← hbins, List.length_map, List.length_range]
  have hsame : x.adc.setStream 0 v.stream = x.adc := by
    rw [← hstream, Adc.setStream, Function.update_eq_self]
  have hreply : x.spectrumRead false 0 0 1 =
      ⟨x.adc, .ok, some ⟨(frames.length + 1) % 2 ^ 32, f.length, f.take 1⟩⟩ := by
    have hslice := slice_map_range x.bins x.adc.fftNbins 0 1
    rw [hbins, List.drop_zero] at hslice
    have hid : ¬ 0 ≥ bridgeAdcStreamCount := by decide
    have hbusy : ¬ (¬ x.adc.fftOwner = (0 : ℕ) ∨ x.adc.fftSeq = 0) := by
      rw [hfftSeq]
      exact not_or.mpr ⟨not_not.mpr howner, hseq⟩
    simp only [Dsp.spectrumRead, if_neg hid, hstream, hv.drained.boundTo, not_true_eq_false,
      if_false, AdcStream.latchDmaError, Bool.false_eq_true, hv.drained.dmaErrorCount, ne_eq, hsame]
    rw [if_neg hbusy, hslice, hfftSeq, hnbins]
  have hnote : h.note mag x (.spectrum false 0 0 1) x =
      h.replied 0 ⟨0, 1, (frames.length + 1) % 2 ^ 32, f.length, f.take 1⟩ := by
    simp only [FrameHistory.note, hreply]
  have hstep : withHistory (dspStep mag) (FrameHistory.note mag) (x, h) (.spectrum false 0 0 1) =
      some (x, h.replied 0 ⟨0, 1, (frames.length + 1) % 2 ^ 32, f.length, f.take 1⟩) := by
    refine withHistory_eq_some.mpr ⟨?_, hnote.symm⟩
    simp only [dspStep, hreply]
  refine ⟨_, ⟨x, .next _ hr hstep trivial, hsid, hx⟩, hframes, ?_⟩
  rw [← hreplies]
  exact Function.update_self 0 _ h.replies

/-- The test that the pump is idle and nothing has been announced yet. -/
def startedFft (p : Dsp ℕ × FrameHistory ℕ) : Bool :=
  p.1.pc == .idle && p.1.sid == 0 && p.1.adc.owner true == 0 && p.1.points == 32 &&
    p.1.outfmt == 0 && p.1.adc.fftFill == 0 && (p.1.adc.streams 0).inUse &&
    (p.1.adc.streams 0).dspBound && (p.1.adc.streams 0).dspTerminal == 3 &&
    (p.1.adc.streams 0).dmaErrorCount == 0 && (p.1.adc.streams 0).lapCount == 0 &&
    (p.1.adc.streams 0).pumpPos == ⟨0, 0, true⟩ && (p.1.adc.streams 0).pumpRawRead == 0 &&
    (p.2.frames 0).isEmpty && (p.2.replies 0).isEmpty

lemma FrameLane.start :
    ∃ v, FrameLane (fun a b => a + b) 0 v [] [] ∧ v.Ready 0 := by
  have hinit : Reach
      (withHistory (dspStep fun a b : ℕ => a + b) (FrameHistory.note fun a b => a + b))
      (fun p => p = (.boot 0, .empty)) (fun _ _ _ => True) (.boot 0, .empty) := .start rfl
  obtain ⟨⟨x, h⟩, hr, hq⟩ := hinit.exists_of_run (fun _ _ _ => true) startedFft fftSession
    (fun _ _ _ _ => trivial) (by decide +kernel)
  simp only [startedFft, Bool.and_eq_true, beq_iff_eq, List.isEmpty_iff, and_assoc] at hq
  obtain ⟨hpc, hsid, howner, hpoints, hfmt, hfill, hrun, hbound, hterm, herr, hlap, hpos, hraw,
    hframes, hreplies⟩ := hq
  refine ⟨x.view true, ⟨h, ⟨x, hr, hsid, rfl⟩, hframes, hreplies⟩, hpc, howner, ?_, hpoints, hfmt,
    hfill⟩
  have hterm' : ((x.adc.streams 0).dspTerminal == 3) = true := beq_iff_eq.mpr hterm
  exact ⟨hrun, hbound, hterm', herr, hlap, hpos, hraw⟩

/-- A frame of 64 equal bins. -/
def levelFrame (k : ℕ) : List ℕ := (List.range 64).map fun _ => k

/-- One frame, and after `m + 1` others a frame with the first one's number. -/
lemma FrameLane.wraps {m : ℕ} (hm : m + 1 = 2 ^ 32) :
    ∃ v frames, FrameLane (fun a b => a + b) 0 v frames
      [⟨0, 1, 1, 64, [1]⟩, ⟨0, 1, 1, 64, [0]⟩] := by
  obtain ⟨v, hl, hv⟩ := FrameLane.start
  obtain ⟨v₁, hl₁, hv₁⟩ := hl.cycle hv fun _ => 0
  have hl₂ := hl₁.read hv₁ (by decide)
  obtain ⟨v₃, hl₃, hv₃⟩ := hl₂.cycles hv₁ (fun _ => 1) (m + 1)
  rw [List.replicate_succ', ← List.append_assoc] at hl₃
  have hlength : ([] ++ [levelFrame 0] ++ List.replicate m (levelFrame 1)).length + 1 =
      2 ^ 32 + 1 := by
    simp only [List.nil_append, List.length_append, List.length_singleton, List.length_replicate]
    omega
  have hseq : (([] ++ [levelFrame 0] ++ List.replicate m (levelFrame 1)).length + 1) % 2 ^ 32 =
      1 := by
    omega
  have hl₄ := hl₃.read hv₃ (by rw [← levelFrame, ← levelFrame, hseq]; decide)
  rw [← levelFrame, ← levelFrame, hseq] at hl₄
  exact ⟨v₃, _, hl₄⟩

/-- The way to a frame and a reply. -/
theorem spectrum_frames_whole_first_frame :
    (∃ h : FrameHistory ℕ, ⟨0, 1, 1, 64, [0]⟩ ∈ h.replies 0 ∧
      ∃ k f, (h.frames 0)[k]? = some f ∧ 1 = (k + 1) % 2 ^ 32 ∧
        (⟨0, 1, 1, 64, [0]⟩ : FrameReply ℕ).SliceOf f) ∧
    ∃ x : Dsp ℕ, x.pc.phase = .frame ∧ (x.spectrumRead false 0 0 1).out = none ∧
      (x.spectrumRead false 0 0 1).rv = .busy := by
  obtain ⟨v, hl, hv⟩ := FrameLane.start
  constructor
  · obtain ⟨v₁, hl₁, hv₁⟩ := hl.cycle hv fun _ => 0
    obtain ⟨h, ⟨x, hr, -, -⟩, -, hreplies⟩ := hl₁.read hv₁ (by decide)
    have hmem : ⟨0, 1, 1, 64, [0]⟩ ∈ h.replies 0 := by
      rw [hreplies]
      exact List.mem_cons_self
    exact ⟨h, hmem, (spectrum_frames_whole hr).1 0 _ hmem⟩
  · obtain ⟨h, ⟨x, hr, hsid, hx⟩, -, -⟩ := hl.capture hv fun _ => 0
    have hphase : x.pc.phase = .frame := congrArg (fun w => w.pc.phase) hx
    have hstream : x.adc.streams 0 = (v.stream.counted (0 + 32)).sampled 32 :=
      congrArg PumpView.stream hx
    have hbusy := (spectrum_frames_whole hr).2.2.1 (.inl hphase) false 0 0 1
    refine ⟨x, hphase, hbusy.1, hbusy.2 (by decide) ?_ ?_⟩
    · rw [hstream]
      exact hv.drained.boundTo
    · rw [hstream]
      exact hv.drained.dmaErrorCount

/-- Two replies of one session with the same number, which are parts of no single frame; and a
request that finds a transfer error while a frame is being reduced is not answered BUSY. -/
theorem spectrum_numbers_repeat :
    (∃ (x : Dsp ℕ) (h : FrameHistory ℕ),
      Reach (withHistory (dspStep fun a b => a + b) (FrameHistory.note fun a b => a + b))
        (fun p => p = (.boot 0, .empty)) (fun _ _ _ => True) (x, h) ∧
      ∃ e ∈ h.replies 0, ∃ e' ∈ h.replies 0, e.reply.seq = e'.reply.seq ∧ e.reply.seq ≠ 0 ∧
        ¬ ∃ f, e.SliceOf f ∧ e'.SliceOf f) ∧
    ∃ (x : Dsp ℕ) (h : FrameHistory ℕ),
      Reach (withHistory (dspStep fun a b => a + b) (FrameHistory.note fun a b => a + b))
        (fun p => p = (.boot 0, .empty)) (fun _ _ _ => True) (x, h) ∧
      x.pc.phase = .frame ∧ (x.adc.streams 0).boundTo true = true ∧
      (x.spectrumRead true 0 0 1).rv = .io := by
  constructor
  · obtain ⟨v, frames, h, ⟨x, hr, -, -⟩, -, hreplies⟩ :=
      FrameLane.wraps (m := 2 ^ 32 - 1) rfl
    refine ⟨x, h, hr, ⟨0, 1, 1, 64, [1]⟩, ?_, ⟨0, 1, 1, 64, [0]⟩, ?_, rfl, Nat.one_ne_zero, ?_⟩
    · rw [hreplies]
      exact List.mem_cons_self
    · rw [hreplies]
      exact List.mem_cons_of_mem _ List.mem_cons_self
    · rintro ⟨f, hf, hf'⟩
      have hbins : [1] = [0] := hf.bins.trans hf'.bins.symm
      cases hbins
  · obtain ⟨v, hl, hv⟩ := FrameLane.start
    obtain ⟨h, ⟨x, hr, hsid, hx⟩, -, -⟩ := hl.capture hv fun _ => 0
    have hstream : x.adc.streams 0 = (v.stream.counted (0 + 32)).sampled 32 :=
      congrArg PumpView.stream hx
    have hbound : (x.adc.streams 0).boundTo true = true := by
      rw [hstream]
      exact hv.drained.boundTo
    have herr : ((x.adc.streams 0).latchDmaError true).dmaErrorCount ≠ 0 := by
      have hcount : (x.adc.streams 0).dmaErrorCount = 0 := by
        rw [hstream]
        exact hv.drained.dmaErrorCount
      simp only [AdcStream.latchDmaError, if_true, hcount]
      decide
    have hid : ¬ 0 ≥ bridgeAdcStreamCount := by decide
    refine ⟨x, h, hr, congrArg (fun w => w.pc.phase) hx, hbound, ?_⟩
    simp only [Dsp.spectrumRead, if_neg hid, hbound, not_true_eq_false, if_false, if_pos herr]

end Gd32Bridge
