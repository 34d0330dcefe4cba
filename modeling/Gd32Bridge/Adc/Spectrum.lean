import Gd32Bridge.Adc.Tokens

/-!
# The published frames

The pump reduces the output of the FFT block into one buffer, in place, and a spectrum request may
arrive between any two of its stores.  The history of a run keeps, for the present session of each
stream, the frames announced and the replies given.
-/

namespace Gd32Bridge

open Transition

variable {β : Type} {mag : β → β → β} {zero : β} {x y : Dsp β}

/-! ### The history -/

/-- The complete reduction of what the block has left in its output. -/
def Dsp.frame (mag : β → β → β) (x : Dsp β) : List β :=
  (List.range (fftBinCount x.points x.outfmt)).map (fftBin mag x.outfmt x.out)

/-- A spectrum request and the reply to it. -/
structure FrameReply (β : Type) where
  offset : ℕ
  maxBins : ℕ
  reply : SpectrumReply β

/-- The reply has the bins asked for of a frame. -/
structure FrameReply.SliceOf (e : FrameReply β) (f : List β) : Prop where
  total : e.reply.total = f.length
  bins : e.reply.bins = (f.drop e.offset).take e.maxBins

/-- The frames announced in the present session of each stream, the oldest first, and the replies
given in it; and whether the stream of the frame the pump is working on has been ended since its
last sample. -/
structure FrameHistory (β : Type) where
  frames : ℕ → List (List β)
  replies : ℕ → List (FrameReply β)
  revoked : Bool

def FrameHistory.empty : FrameHistory β := ⟨fun _ => [], fun _ => [], false⟩

/-- A new session. -/
def FrameHistory.clear (h : FrameHistory β) (id : ℕ) : FrameHistory β :=
  { h with frames := Function.update h.frames id [], replies := Function.update h.replies id [] }

def FrameHistory.announced (h : FrameHistory β) (id : ℕ) (f : List β) : FrameHistory β :=
  { h with frames := Function.update h.frames id (h.frames id ++ [f]) }

def FrameHistory.replied (h : FrameHistory β) (id : ℕ) (e : FrameReply β) : FrameHistory β :=
  { h with replies := Function.update h.replies id (e :: h.replies id) }

/-- What a step adds. -/
def FrameHistory.note (mag : β → β → β) (h : FrameHistory β) (x : Dsp β) (op : DspOp β)
    (y : Dsp β) : FrameHistory β :=
  match op with
  | .isr (.streamBegin _ id _ _) =>
    if (y.adc.streams id).inUse = true ∧ (x.adc.streams id).inUse = false then h.clear id else h
  | .isr (.streamEnd _ id) =>
    if id = x.sid ∧ (y.adc.streams id).inUse = false then { h with revoked := true } else h
  | .spectrum dmaErr id offset maxBins =>
    match (x.spectrumRead dmaErr id offset maxBins).out with
    | some r => h.replied id ⟨offset, maxBins, r⟩
    | none => h
  | .base _ =>
    match x.pc with
    | .storing _ => { h with revoked := false }
    | .announcing _ _ => if x.liveTransitional true then h.announced x.sid (x.frame mag) else h
    | _ => h
  | _ => h

/-! ### The invariants -/

/-- How far the pump has come with its frame; the block does not touch its output meanwhile. -/
structure Dsp.Reduction (mag : β → β → β) (x : Dsp β) : Prop where
  done : ∀ avail, x.pc = .completed avail true → x.running = false
  reducing : ∀ avail i, x.pc = .reducing avail i →
    x.running = false ∧ ∀ j < i, x.bins j = fftBin mag x.outfmt x.out j
  announcing : ∀ avail n, x.pc = .announcing avail n →
    x.running = false ∧ (List.range n).map x.bins = x.frame mag

/-- The stream owns the block, maybe with its last frame being reduced. -/
def Dsp.Publishes (x : Dsp β) (id : ℕ) : Prop :=
  x.adc.owner true = id ∨ x.adc.owner true = adcDspOwnerTransitional id ∧ x.pc.phase = .frame

/-- What can be read of the last frame. -/
structure Published (x : Dsp β) (h : FrameHistory β) : Prop where
  session : ∀ id, (x.adc.streams id).inUse = true → h.frames id = [] ∨ x.Publishes id
  seq : ∀ id, x.Publishes id → x.adc.fftSeq = (h.frames id).length % 2 ^ 32
  bins : ∀ id : ℕ, x.adc.owner true = id →
    (List.range x.adc.fftNbins).map x.bins = (h.frames id).getLastD []

/-- The replies are slices of the frames. -/
def FrameHistory.Sliced (h : FrameHistory β) : Prop :=
  ∀ id, ∀ e ∈ h.replies id, ∃ k f, (h.frames id)[k]? = some f ∧
    e.reply.seq = (k + 1) % 2 ^ 32 ∧ e.SliceOf f

structure FrameInv (mag : β → β → β) (x : Dsp β) (h : FrameHistory β) : Prop where
  orderly : x.Orderly
  lost : h.revoked = true → x.pc.phase = .compute ∨ x.pc.phase = .frame →
    x.adc.owner true ≠ x.sid ∧ x.adc.owner true ≠ adcDspOwnerTransitional x.sid
  reduction : x.Reduction mag
  published : Published x h
  sliced : h.Sliced

/-! ### Replies -/

/-- A reply with bins comes from the owner of the block. -/
lemma Dsp.spectrumRead_out {dmaErr : Bool} {id offset maxBins : ℕ} {r : SpectrumReply β}
    (h : (x.spectrumRead dmaErr id offset maxBins).out = some r) :
    x.adc.owner true = id ∧ x.adc.fftSeq ≠ 0 ∧
      r = ⟨x.adc.fftSeq, x.adc.fftNbins, (List.range (min (x.adc.fftNbins - offset) maxBins)).map
        fun i => x.bins (offset + i)⟩ := by
  simp only [spectrumRead] at h
  split_ifs at h with hid hbound herr hbusy
  obtain ⟨howner, hseq⟩ := not_or.mp hbusy
  exact ⟨not_not.mp howner, hseq, (Option.some.inj h).symm⟩

/-- Part of the bins, as part of the list of all of them. -/
lemma slice_map_range (bins : ℕ → β) (total offset maxBins : ℕ) :
    ((List.range (min (total - offset) maxBins)).map fun i => bins (offset + i)) =
      (((List.range total).map bins).drop offset).take maxBins := by
  refine List.ext_getElem ?_ fun i hi hi' => ?_
  · simp only [List.length_map, List.length_range, List.length_take, List.length_drop]
    exact Nat.min_comm _ _
  · simp only [List.getElem_map, List.getElem_range, List.getElem_take, List.getElem_drop]

lemma FrameHistory.replied_replies (h : FrameHistory β) (id : ℕ) (e : FrameReply β) :
    (h.replied id e).replies = Function.update h.replies id (e :: h.replies id) := rfl

/-- A reply is a slice of the last frame of its session. -/
lemma FrameInv.spectrum {h : FrameHistory β} (hi : FrameInv mag x h) (dmaErr : Bool)
    (id offset maxBins : ℕ)
    (hy : y = { x with adc := (x.spectrumRead dmaErr id offset maxBins).hw }) :
    (h.note mag x (.spectrum dmaErr id offset maxBins) y).Sliced := by
  cases hout : (x.spectrumRead dmaErr id offset maxBins).out with
  | none =>
    simp only [FrameHistory.note, hout]
    exact hi.sliced
  | some r =>
    simp only [FrameHistory.note, hout]
    obtain ⟨howner, hseq, hr⟩ := Dsp.spectrumRead_out hout
    have hbins := hi.published.bins id howner
    have hcount := hi.published.seq id (.inl howner)
    intro i e he
    rw [FrameHistory.replied_replies] at he
    by_cases hid : i = id
    · subst hid
      rw [Function.update_self] at he
      rcases List.mem_cons.mp he with heq | hold
      · -- the frame is the last one announced, and there is one
        have hsome : ∃ f, (h.frames i).getLast? = some f := by
          cases hlast : (h.frames i).getLast? with
          | some f => exact ⟨f, rfl⟩
          | none =>
            rw [List.getLast?_eq_none_iff.mp hlast] at hcount
            exact absurd hcount hseq
        obtain ⟨f, hf⟩ := hsome
        have hpos : 0 < (h.frames i).length := by
          rw [List.length_pos_iff]
          intro hnil
          rw [hnil] at hf
          cases hf
        have hframe : (List.range x.adc.fftNbins).map x.bins = f := by
          rw [hbins, List.getLastD_eq_getLast?, hf]
          rfl
        refine ⟨(h.frames i).length - 1, f, ?_, ?_, ?_, ?_⟩
        · exact List.getLast?_eq_getElem?.symm.trans hf
        · rw [heq, hr, Nat.sub_add_cancel hpos]
          exact hcount
        · rw [heq, hr, ← hframe, List.length_map, List.length_range]
        · rw [heq, hr, ← hframe]
          exact slice_map_range x.bins x.adc.fftNbins offset maxBins
      · exact hi.sliced i e hold
    · rw [Function.update_of_ne hid] at he
      exact hi.sliced i e he

/-! ### Interrupts -/

variable {h hist : FrameHistory β}

/-- Only a STREAM_BEGIN makes a stream run. -/
lemma AdcRule.inUse_mono {a a' : Adc} {op : AdcOp} (hrule : AdcRule a op a')
    (hbegin : ∀ env id channel rate, op ≠ .streamBegin env id channel rate) {id : ℕ}
    (hrun : (a'.streams id).inUse = true) : (a.streams id).inUse = true := by
  have hset {i : ℕ} {s : AdcStream} (hs : s.inUse = true → (a.streams i).inUse = true)
      (h : ((a.setStream i s).streams id).inUse = true) : (a.streams id).inUse = true := by
    rw [Adc.setStream_streams] at h
    by_cases hid : id = i
    · subst hid
      rw [Function.update_self] at h
      exact hs h
    · rwa [Function.update_of_ne hid] at h
  cases hrule with
  | same => exact hrun
  | opened => exact hrun
  | pushed => exact hrun
  | refused => rwa [Adc.chainRelease_streams] at hrun
  | @attached chain i last =>
    exact hset (s := (a.streams i).attached chain _) (fun hs => hs) hrun
  | started => exact absurd rfl (hbegin _ _ _ _)
  | @read env i maxSamples =>
    refine hset (fun hs => ?_) hrun
    rwa [(AdcStream.read_binding _ env maxSamples).inUse] at hs
  | @ended env i =>
    rw [Adc.endStream_streams] at hrun
    by_cases hid : id = i
    · subst hid
      rw [Function.update_self] at hrun
      cases hrun
    · rwa [Function.update_of_ne hid] at hrun
  | @lapped i ftf dmaErr =>
    refine hset (fun hs => ?_) hrun
    rwa [(AdcStream.lapped_binding _ ftf dmaErr).inUse] at hs
  | @pumped i p => exact hset (s := (a.streams i).pumped p) (fun hs => hs) hrun

/-- What an interrupt does to the history of a stream: nothing, or it begins a session in which
nothing is bound yet. -/
lemma FrameHistory.note_isr (mag : β → β → β) (h : FrameHistory β) (x : Dsp β) {op : AdcOp}
    (hadc : y.adc = adcApply x.adc op) (id : ℕ) :
    ((h.note mag x (.isr op) y).frames id = h.frames id ∧
        (h.note mag x (.isr op) y).replies id = h.replies id ∧
        ((y.adc.streams id).inUse = true → (x.adc.streams id).inUse = true)) ∨
      ((h.note mag x (.isr op) y).frames id = [] ∧ (h.note mag x (.isr op) y).replies id = [] ∧
        (y.adc.streams id).boundTo true = false) := by
  have hrule := AdcRule.of_apply x.adc op
  rw [← hadc] at hrule
  cases op with
  | streamBegin env i channel rate =>
    obtain ⟨a', ha'⟩ : ∃ a', y.adc = a' := ⟨_, rfl⟩
    rw [ha'] at hrule
    cases hrule with
    | same =>
      have hnote : h.note mag x (.isr (.streamBegin env i channel rate)) y = h := by
        refine if_neg fun hnew => ?_
        rw [ha'] at hnew
        exact Bool.noConfusion (hnew.1.symm.trans hnew.2)
      rw [hnote, ha']
      exact .inl ⟨rfl, rfl, fun hrun => hrun⟩
    | started hid hfree =>
      have hstreams : y.adc.streams = Function.update x.adc.streams i
          ((x.adc.streams i).started channel env.resolutionBits) := by
        rw [ha']
        rfl
      have hnote : h.note mag x (.isr (.streamBegin env i channel rate)) y = h.clear i := by
        refine if_pos ⟨?_, hfree⟩
        rw [hstreams, Function.update_self]
        rfl
      rw [hnote, hstreams]
      by_cases hid : id = i
      · subst hid
        simp only [clear, Function.update_self]
        exact .inr ⟨trivial, trivial, AdcStream.not_boundTo (.inr rfl)⟩
      · simp only [clear, Function.update_of_ne hid]
        exact .inl ⟨trivial, trivial, fun hrun => hrun⟩
  | streamEnd env i =>
    refine .inl ⟨?_, ?_, hrule.inUse_mono fun _ _ _ _ => nofun⟩
    · simp only [note]
      split <;> rfl
    · simp only [note]
      split <;> rfl
  | chainOpen => exact .inl ⟨rfl, rfl, hrule.inUse_mono fun _ _ _ _ => nofun⟩
  | stagePush => exact .inl ⟨rfl, rfl, hrule.inUse_mono fun _ _ _ _ => nofun⟩
  | chainBind => exact .inl ⟨rfl, rfl, hrule.inUse_mono fun _ _ _ _ => nofun⟩
  | streamRead => exact .inl ⟨rfl, rfl, hrule.inUse_mono fun _ _ _ _ => nofun⟩
  | lapIsr => exact .inl ⟨rfl, rfl, hrule.inUse_mono fun _ _ _ _ => nofun⟩
  | pump => exact .inl ⟨rfl, rfl, hrule.inUse_mono fun _ _ _ _ => nofun⟩

/-- An interrupt publishes nothing; it ends the session of the owner, or leaves what it finds. -/
lemma FrameInv.isr_published (hi : FrameInv mag x h) {op : AdcOp} (hop : ∀ id p, op ≠ .pump id p)
    (hy : y = { x with adc := adcApply x.adc op }) : Published y (h.note mag x (.isr op) y) := by
  have hadc : y.adc = adcApply x.adc op := by rw [hy]
  have hord : y.Orderly := hy ▸ hi.orderly.isr hop
  have hnote := h.note_isr mag x hadc
  have hphase : y.pc.phase = x.pc.phase := by rw [hy]
  have hbins : y.bins = x.bins := by rw [hy]
  -- a stream that begins its session does not publish
  have hfresh {id : ℕ} (hb : (y.adc.streams id).boundTo true = false) : ¬ y.Publishes id := by
    intro hp
    have hheld := hord.held true id (hp.imp_right And.left)
    rw [hb] at hheld
    cases hheld
  have heffect := (hi.orderly.held true).isr_fft hop
  rw [← hadc] at heffect
  cases heffect with
  | same howner hfill hseq hnbins =>
    have hpub (id : ℕ) : y.Publishes id ↔ x.Publishes id := by
      rw [Dsp.Publishes, Dsp.Publishes, howner, hphase]
    refine ⟨fun id hrun => ?_, fun id hp => ?_, fun id hown => ?_⟩
    · rcases hnote id with ⟨hframes, -, hmono⟩ | ⟨hframes, -, -⟩
      · rw [hframes, hpub]
        exact hi.published.session id (hmono hrun)
      · exact .inl hframes
    · rcases hnote id with ⟨hframes, -, -⟩ | ⟨-, -, hb⟩
      · rw [hframes, hseq]
        exact hi.published.seq id ((hpub id).mp hp)
      · exact absurd hp (hfresh hb)
    · rcases hnote id with ⟨hframes, -, -⟩ | ⟨-, -, hb⟩
      · rw [hframes, hnbins, hbins]
        exact hi.published.bins id (howner.symm.trans hown)
      · exact absurd (.inl hown) (hfresh hb)
  | @freed i hown hrun hnone hblank =>
    have hpub (id : ℕ) : ¬ y.Publishes id := by
      rintro (hp | ⟨hp, -⟩)
      · exact (adcDspOwnerNone_ne id).1 (hnone.symm.trans hp)
      · exact (adcDspOwnerNone_ne id).2 (hnone.symm.trans hp)
    refine ⟨fun id hrun' => ?_, fun id hp => absurd hp (hpub id), fun id hown' => ?_⟩
    · rcases hnote id with ⟨hframes, -, hmono⟩ | ⟨hframes, -, -⟩
      · rw [hframes]
        refine .inl ((hi.published.session id (hmono hrun')).resolve_right fun hp => ?_)
        -- the block was freed by the end of its owner, and that one does not run
        have hid : id = i := by
          have hp' := hp.imp_right And.left
          simp only [adcDspOwnerTransitional] at hown hp'
          omega
        rw [hid, hrun] at hrun'
        cases hrun'
      · exact .inl hframes
    · exact absurd (.inl hown') (hpub id)

/-- An interrupt keeps the invariant. -/
lemma FrameInv.isr (hi : FrameInv mag x h) {op : AdcOp} (hop : ∀ id p, op ≠ .pump id p)
    (hy : y = { x with adc := adcApply x.adc op }) : FrameInv mag y (h.note mag x (.isr op) y) := by
  have hord : y.Orderly := hy ▸ hi.orderly.isr hop
  refine ⟨hord, ?_, ?_, hi.isr_published hop hy, ?_⟩
  · intro hrev hpc
    have hpc' : x.pc.phase = .compute ∨ x.pc.phase = .frame := by rwa [hy] at hpc
    have hsid : y.sid = x.sid := by rw [hy]
    rw [hsid]
    by_cases hold : h.revoked = true
    · have howner : y.adc.owner true = x.adc.owner true ∨ y.adc.owner true = adcDspOwnerNone := by
        rw [hy]
        exact ((hi.orderly.held true).isr hop).2
      rcases howner with howner | howner
      · rw [howner]
        exact hi.lost hold hpc'
      · rw [howner]
        exact adcDspOwnerNone_ne x.sid
    · -- the stream of the frame has just been ended
      have hended : (y.adc.streams x.sid).inUse = false := by
        cases op with
        | streamEnd env id =>
          simp only [FrameHistory.note] at hrev
          split_ifs at hrev with hend
          · exact hend.1 ▸ hend.2
          · exact absurd hrev hold
        | streamBegin =>
          simp only [FrameHistory.note] at hrev
          split_ifs at hrev <;> exact absurd hrev hold
        | _ => exact absurd hrev hold
      exact hord.not_owner hended true
  · rw [hy]
    exact ⟨hi.reduction.done, hi.reduction.reducing, hi.reduction.announcing⟩
  · have hadc : y.adc = adcApply x.adc op := by rw [hy]
    intro id e he
    rcases h.note_isr mag x hadc id with ⟨hframes, hreplies, -⟩ | ⟨-, hreplies, -⟩
    · rw [hreplies] at he
      rw [hframes]
      exact hi.sliced id e he
    · rw [hreplies] at he
      cases he

/-! ### The pump -/

/-- The pump runs and binds nothing. -/
lemma PumpRule.binding (hr : PumpRule mag x y) (id : ℕ) :
    (x.adc.streams id).SameBinding (y.adc.streams id) := by
  have hstore {s : AdcStream} (hs : x.stream.SameBinding s) :
      (x.adc.streams id).SameBinding (Function.update x.adc.streams x.sid s id) := by
    by_cases hid : id = x.sid
    · subst hid
      rw [Function.update_self]
      exact hs
    · rw [Function.update_of_ne hid]
      exact .refl _
  have howner (fft : Bool) (o : ℤ) :
      (x.adc.streams id).SameBinding ((x.adc.setOwner fft o).streams id) := by
    rw [Adc.setOwner_streams]
    exact .refl _
  cases hr with
  | claim => exact howner _ _
  | commit => exact howner _ _
  | abandon =>
    simp only [Dsp.abandon]
    split
    · exact howner _ _
    · exact .refl _
  | release => exact howner _ _
  | mark => exact hstore ⟨rfl, rfl, rfl, rfl⟩
  | laps => exact hstore ⟨rfl, rfl, rfl, rfl⟩
  | index => exact hstore ⟨rfl, rfl, rfl, rfl⟩
  | valid => exact hstore ⟨rfl, rfl, rfl, rfl⟩
  | jump => exact hstore ⟨rfl, rfl, rfl, rfl⟩
  | @resync fft total _ hlive =>
    simp only [Dsp.goto_adc, Dsp.resync, hlive, not_true_eq_false, if_false]
    split
    · exact hstore (s := { x.stream with pumpRawRead := total }) ⟨rfl, rfl, rfl, rfl⟩
    · exact hstore ⟨rfl, rfl, rfl, rfl⟩
  | publish => exact hstore ⟨rfl, rfl, rfl, rfl⟩
  | sample =>
    have hnext := hstore (s := { x.stream with
      pumpRawRead := (x.stream.pumpRawRead + 1) % 2 ^ 32 }) ⟨rfl, rfl, rfl, rfl⟩
    simp only [Dsp.storeSample]
    split
    · exact hnext
    · exact hnext
  | _ => exact .refl _

lemma Dsp.abandon_phase (x : Dsp β) (fft : Bool) : (x.abandon fft).pc.phase = .free := by
  simp only [abandon]
  split
  · rfl
  · rfl

/-- The reduction goes on, bin by bin. -/
lemma Dsp.Reduction.pump (h : x.Reduction mag) (hr : PumpRule mag x y) : y.Reduction mag := by
  -- in any other phase there is nothing to say
  have hother (hcompute : y.pc.phase ≠ .compute) (hframe : y.pc.phase ≠ .frame) :
      y.Reduction mag :=
    ⟨fun _ hpc => absurd (by rw [hpc]; rfl) hcompute,
      fun _ _ hpc => absurd (by rw [hpc]; rfl) hframe,
      fun _ _ hpc => absurd (by rw [hpc]; rfl) hframe⟩
  have hfree (hphase : y.pc.phase = .free) : y.Reduction mag :=
    hother (by rw [hphase]; rintro ⟨⟩) (by rw [hphase]; rintro ⟨⟩)
  cases hr with
  | skip hpc => exact hfree (by rw [hpc]; rfl)
  | quiet _ hcompute hframe => exact hother hcompute hframe
  | abandon => exact hfree (x.abandon_phase _)
  | release _ hphase => exact hfree hphase
  | valid _ hphase => exact hfree hphase
  | publish _ _ hphase => exact hfree hphase
  | sample =>
    simp only [storeSample]
    split
    · exact ⟨by rintro _ ⟨⟩, by rintro _ _ ⟨⟩, by rintro _ _ ⟨⟩⟩
    · exact ⟨by rintro _ ⟨⟩, by rintro _ _ ⟨⟩, by rintro _ _ ⟨⟩⟩
  | look hpc =>
    refine ⟨fun avail hdone => ?_, by rintro _ _ ⟨⟩, by rintro _ _ ⟨⟩⟩
    have hrun : (!x.running) = true := (PumpPc.completed.inj hdone).2
    rwa [Bool.not_eq_true'] at hrun
  | @reduce avail hpc =>
    refine ⟨by rintro _ ⟨⟩, fun avail' i hred => ?_, by rintro _ _ ⟨⟩⟩
    cases hred
    exact ⟨h.done avail hpc, fun j hj => absurd hj (Nat.not_lt_zero j)⟩
  | @bin avail i hpc hi =>
    refine ⟨by rintro _ ⟨⟩, fun avail' i' hred => ?_, by rintro _ _ ⟨⟩⟩
    cases hred
    obtain ⟨hrun, hbins⟩ := h.reducing avail i hpc
    refine ⟨hrun, fun j hj => ?_⟩
    by_cases hlast : j = i
    · subst hlast
      exact Function.update_self j _ x.bins
    · exact (Function.update_of_ne hlast _ x.bins).trans (hbins j (by omega))
  | @reduced avail i hpc hi =>
    refine ⟨by rintro _ ⟨⟩, by rintro _ _ ⟨⟩, fun avail' n hann => ?_⟩
    cases hann
    obtain ⟨hrun, hbins⟩ := h.reducing avail i hpc
    refine ⟨hrun, List.map_congr_left fun j hj => ?_⟩
    exact hbins j (Nat.lt_of_lt_of_le (List.mem_range.mp hj) hi)
  | _ => exact hother (by rintro ⟨⟩) (by rintro ⟨⟩)

/-- A step that announces nothing and changes neither the owner nor what it has published. -/
lemma Published.keep (h : Published x hist)
    (hrun : ∀ id, (y.adc.streams id).inUse = (x.adc.streams id).inUse)
    (howner : y.adc.owner true = x.adc.owner true) (hseq : y.adc.fftSeq = x.adc.fftSeq)
    (hnbins : y.adc.fftNbins = x.adc.fftNbins)
    (hbins : ∀ id : ℕ, x.adc.owner true = id → y.bins = x.bins)
    (hphase : ∀ id, x.adc.owner true = adcDspOwnerTransitional id →
      (y.pc.phase = .frame ↔ x.pc.phase = .frame)) : Published y hist := by
  have hpub (id : ℕ) : y.Publishes id ↔ x.Publishes id := by
    rw [Dsp.Publishes, Dsp.Publishes, howner]
    exact or_congr_right (and_congr_right (hphase id))
  refine ⟨fun id hid => ?_, fun id hp => ?_, fun id hown => ?_⟩
  · rw [hpub]
    exact h.session id (hrun id ▸ hid)
  · rw [hseq]
    exact h.seq id ((hpub id).mp hp)
  · rw [howner] at hown
    rw [hnbins, hbins id hown]
    exact h.bins id hown

/-- Nobody has published, before or after. -/
lemma Published.silent (h : Published x hist) (hr : PumpRule mag x y) (hx : ∀ id, ¬ x.Publishes id)
    (hy : ∀ id, ¬ y.Publishes id) : Published y hist := by
  refine ⟨fun id hrun => ?_, fun id hp => absurd hp (hy id), fun id hown => ?_⟩
  · exact .inl ((h.session id ((hr.binding id).inUse ▸ hrun)).resolve_right (hx id))
  · exact absurd (.inl hown) (hy id)

lemma Dsp.not_publishes (hnone : x.adc.owner true = adcDspOwnerNone) (id : ℕ) :
    ¬ x.Publishes id := by
  rintro (hp | ⟨hp, -⟩)
  · exact (adcDspOwnerNone_ne id).1 (hnone.symm.trans hp)
  · exact (adcDspOwnerNone_ne id).2 (hnone.symm.trans hp)

/-- A block that is being configured has published nothing. -/
lemma Dsp.Orderly.config_silent (h : x.Orderly) (hphase : x.pc.phase = .config true) (id : ℕ) :
    ¬ x.Publishes id := by
  rcases h.mine true (by rw [hphase]; rfl) with howner | hnone
  · rintro (hp | ⟨-, hp⟩)
    · exact adcDspOwnerTransitional_ne x.sid id (howner.symm.trans hp)
    · exact nomatch hphase.symm.trans hp
  · exact not_publishes hnone id

/-- Configuring the block starts the frames of the session. -/
lemma FrameInv.committed (hi : FrameInv mag x h) (hr : PumpRule mag x y)
    (hphase : x.pc.phase = .config true)
    (hadc : y.adc.fftSeq = x.adc.fftSeq ∧ y.adc.fftNbins = x.adc.fftNbins) : Published y h := by
  have hord := hi.orderly.pump hr
  have hblank := hi.orderly.blank (.inr hphase)
  have hempty {id : ℕ} (hrun : (y.adc.streams id).inUse = true) : h.frames id = [] :=
    (hi.published.session id ((hr.binding id).inUse ▸ hrun)).resolve_right
      (hi.orderly.config_silent hphase id)
  have hown {id : ℕ} (hp : y.Publishes id) : (y.adc.streams id).inUse = true :=
    (AdcStream.boundTo_iff.mp (hord.held true id (hp.imp_right And.left))).1
  refine ⟨fun id hrun => .inl (hempty hrun), fun id hp => ?_, fun id hid => ?_⟩
  · rw [hempty (hown hp), hadc.1, hblank.seq]
    rfl
  · rw [hempty (hown (.inl hid)), hadc.2, hblank.nbins]
    rfl

/-- The frame gets the token, and stays. -/
lemma FrameInv.reduced (hi : FrameInv mag x h) (hr : PumpRule mag x y)
    (hphase : x.pc.phase = .compute) (hx : x.adc.owner true = x.sid)
    (hy : y.adc.owner true = adcDspOwnerTransitional x.sid) (hphase' : y.pc.phase = .frame)
    (hseq : y.adc.fftSeq = x.adc.fftSeq) : Published y h := by
  have hpub (id : ℕ) : y.Publishes id ↔ x.Publishes id := by
    constructor
    · rintro (hp | ⟨hp, -⟩)
      · exact absurd (hy.symm.trans hp) (adcDspOwnerTransitional_ne x.sid id)
      · rw [← adcDspOwnerTransitional_inj (hy.symm.trans hp)]
        exact .inl hx
    · rintro (hp | ⟨-, hp⟩)
      · rw [← Int.ofNat.inj (hx.symm.trans hp)]
        exact .inr ⟨hy, hphase'⟩
      · exact nomatch hphase.symm.trans hp
  refine ⟨fun id hrun => ?_, fun id hp => ?_, fun id hid => ?_⟩
  · rw [hpub]
    exact hi.published.session id ((hr.binding id).inUse ▸ hrun)
  · rw [hseq]
    exact hi.published.seq id ((hpub id).mp hp)
  · exact absurd (hy.symm.trans hid) (adcDspOwnerTransitional_ne x.sid id)

lemma Dsp.resync_published (x : Dsp β) (fft : Bool) (total : ℕ) :
    (x.resync fft total).adc.owner true = x.adc.owner true ∧
      (x.resync fft total).adc.fftSeq = x.adc.fftSeq ∧
      (x.resync fft total).adc.fftNbins = x.adc.fftNbins ∧
      (x.resync fft total).bins = x.bins := by
  simp only [resync]
  split
  · exact ⟨rfl, rfl, rfl, rfl⟩
  split
  · exact ⟨rfl, rfl, rfl, rfl⟩
  · exact ⟨rfl, rfl, rfl, rfl⟩

lemma Dsp.storeSample_published (x : Dsp β) (avail : ℕ) :
    (x.storeSample avail).adc.owner true = x.adc.owner true ∧
      (x.storeSample avail).adc.fftSeq = x.adc.fftSeq ∧
      (x.storeSample avail).adc.fftNbins = x.adc.fftNbins ∧
      (x.storeSample avail).bins = x.bins ∧ (x.storeSample avail).pc.phase ≠ .frame := by
  simp only [storeSample]
  split
  · exact ⟨rfl, rfl, rfl, rfl, by rintro ⟨⟩⟩
  · exact ⟨rfl, rfl, rfl, rfl, by rintro ⟨⟩⟩

/-- The pump publishes only where it announces a frame. -/
lemma FrameInv.pump_published (hi : FrameInv mag x h) (hr : PumpRule mag x y)
    (hno : ∀ avail n, x.pc = .announcing avail n → x.liveTransitional true = false) :
    Published y h := by
  have hord := hi.orderly.pump hr
  have hpub := hi.published
  have hrule := hr
  have hrun (id : ℕ) := (hr.binding id).inUse
  -- no frame is in work before or after
  have hkeep (howner : y.adc.owner true = x.adc.owner true) (hseq : y.adc.fftSeq = x.adc.fftSeq)
      (hnbins : y.adc.fftNbins = x.adc.fftNbins) (hbins : y.bins = x.bins)
      (hx : x.pc.phase ≠ .frame) (hy : y.pc.phase ≠ .frame) : Published y h :=
    hpub.keep hrun howner hseq hnbins (fun _ _ => hbins) fun _ _ => iff_of_false hy hx
  cases hrule with
  | skip => exact hpub
  | visit hpc => exact hkeep rfl rfl rfl rfl (by rw [hpc]; rintro ⟨⟩) (by rintro ⟨⟩)
  | quiet hphase =>
    refine hpub.keep hrun rfl rfl rfl (fun _ _ => rfl) fun _ _ => ?_
    rw [← hphase]
    rfl
  | leave hpc => exact hkeep rfl rfl rfl rfl (by rw [hpc]; rintro ⟨⟩) (by rintro ⟨⟩)
  | @claim fft hpc hlive =>
    cases fft with
    | false =>
      exact hkeep rfl rfl rfl rfl (by rw [hpc]; rintro ⟨⟩) (by rintro ⟨⟩)
    | true =>
      simp only [Adc.ownerLive, Bool.and_eq_true, beq_iff_eq] at hlive
      exact hpub.silent hr (Dsp.not_publishes hlive.1) (hord.config_silent rfl)
  | @commit fft site hpc =>
    cases fft with
    | false =>
      exact hkeep rfl rfl rfl rfl (by rw [hpc]; rintro ⟨⟩) (by rintro ⟨⟩)
    | true => exact hi.committed hr (by rw [hpc]; rfl) ⟨rfl, rfl⟩
  | @abandon fft hpc hlive =>
    obtain ⟨hne, hidle⟩ := hi.orderly.abandon_eq hlive
    rw [hidle] at hrun ⊢
    refine hpub.keep hrun rfl rfl rfl (fun _ _ => rfl) fun id howner => ?_
    obtain ⟨rfl, htoken⟩ := hi.orderly.token true id howner
    rw [Option.some.inj (hpc.symm.trans htoken)] at hne
    exact absurd howner hne
  | @release fft pc hpc hfree =>
    cases fft with
    | false =>
      refine hkeep rfl rfl rfl rfl (by rw [hpc]; rintro ⟨⟩) ?_
      intro hp
      cases hfree.symm.trans hp
    | true =>
      have hphase : x.pc.phase = .config true := by rw [hpc]; rfl
      refine hpub.silent hr (hi.orderly.config_silent hphase) (Dsp.not_publishes ?_)
      show (adcDspOwnerRelease (x.adc.owner true) x.sid).1 = adcDspOwnerNone
      rcases hi.orderly.mine true (by rw [hphase]; rfl) with howner | hnone
      · rw [adcDspOwnerRelease, if_pos (.inr howner)]
      · rw [adcDspOwnerRelease, hnone]
        split <;> rfl
  | mark hpc => exact hkeep rfl rfl rfl rfl (by rw [hpc]; rintro ⟨⟩) (by rintro ⟨⟩)
  | laps hpc => exact hkeep rfl rfl rfl rfl (by rw [hpc]; rintro ⟨⟩) (by rintro ⟨⟩)
  | index hpc => exact hkeep rfl rfl rfl rfl (by rw [hpc]; rintro ⟨⟩) (by rintro ⟨⟩)
  | valid hpc hfree =>
    refine hkeep rfl rfl rfl rfl (by rw [hpc]; rintro ⟨⟩) ?_
    intro hp
    cases hfree.symm.trans hp
  | jump hpc => exact hkeep rfl rfl rfl rfl (by rw [hpc]; rintro ⟨⟩) (by rintro ⟨⟩)
  | @resync fft total hpc =>
    obtain ⟨howner, hseq, hnbins, hbins⟩ := x.resync_published fft total
    exact hkeep howner hseq hnbins hbins (by rw [hpc]; rintro ⟨⟩) (by rintro ⟨⟩)
  | lease hpc => exact hkeep rfl rfl rfl rfl (by rw [hpc]; rintro ⟨⟩) (by rintro ⟨⟩)
  | publish hpc _ hfree =>
    refine hkeep rfl rfl rfl rfl (by rw [hpc]; rintro ⟨⟩) ?_
    intro hp
    cases hfree.symm.trans hp
  | apply hpc => exact hkeep rfl rfl rfl rfl (by rw [hpc]; rintro ⟨⟩) (by rintro ⟨⟩)
  | reset hpc =>
    have hblank := hi.orderly.blank (.inr (by rw [hpc]; rfl))
    exact hkeep rfl hblank.seq.symm hblank.nbins.symm rfl (by rw [hpc]; rintro ⟨⟩) (by rintro ⟨⟩)
  | init hpc => exact hkeep rfl rfl rfl rfl (by rw [hpc]; rintro ⟨⟩) (by rintro ⟨⟩)
  | @sample avail hpc =>
    obtain ⟨howner, hseq, hnbins, hbins, hphase⟩ := x.storeSample_published avail
    exact hkeep howner hseq hnbins hbins (by rw [hpc]; rintro ⟨⟩) hphase
  | look hpc => exact hkeep rfl rfl rfl rfl (by rw [hpc]; rintro ⟨⟩) (by rintro ⟨⟩)
  | retry hpc => exact hkeep rfl rfl rfl rfl (by rw [hpc]; rintro ⟨⟩) (by rintro ⟨⟩)
  | reduce hpc hlive => exact hi.reduced hr (by rw [hpc]; rfl) (Dsp.live_iff.mp hlive).1 rfl rfl rfl
  | bin hpc =>
    have hmine := hi.orderly.mine true (by rw [hpc]; rfl)
    have hframe : x.pc.phase = .frame := by rw [hpc]; rfl
    refine hpub.keep hrun rfl rfl rfl (fun id hid => ?_) fun _ _ => iff_of_true rfl hframe
    rcases hmine with howner | hnone
    · exact absurd (howner.symm.trans hid) (adcDspOwnerTransitional_ne x.sid id)
    · exact absurd (hnone.symm.trans hid) (adcDspOwnerNone_ne id).1
  | reduced hpc =>
    exact hpub.keep hrun rfl rfl rfl (fun _ _ => rfl) fun _ _ => iff_of_true rfl (by rw [hpc]; rfl)
  | announce hpc hlive =>
    rw [hno _ _ hpc] at hlive
    cases hlive

/-- A frame is begun with its last sample, and left before the pump turns to another stream. -/
lemma PumpRule.frame (hr : PumpRule mag x y) (hy : y.pc.phase = .compute ∨ y.pc.phase = .frame) :
    (∃ avail, x.pc = .storing avail) ∨
      (x.pc.phase = .compute ∨ x.pc.phase = .frame) ∧ y.sid = x.sid ∧
        (y.adc.owner true = x.adc.owner true ∨ x.live true = true) := by
  cases hr with
  | sample hpc => exact .inl ⟨_, hpc⟩
  | look hpc => exact .inr ⟨.inl (by rw [hpc]; rfl), rfl, .inl rfl⟩
  | reduce hpc hlive => exact .inr ⟨.inl (by rw [hpc]; rfl), rfl, .inr hlive⟩
  | bin hpc => exact .inr ⟨.inr (by rw [hpc]; rfl), rfl, .inl rfl⟩
  | reduced hpc => exact .inr ⟨.inr (by rw [hpc]; rfl), rfl, .inl rfl⟩
  | skip hpc =>
    rw [hpc] at hy
    exact absurd hy (by decide)
  | quiet _ hcompute hframe => exact absurd hy (not_or.mpr ⟨hcompute, hframe⟩)
  | abandon =>
    rw [x.abandon_phase] at hy
    exact absurd hy (by decide)
  | release _ hfree =>
    have hphase := hfree.symm
    exact absurd (hy.imp hphase.trans hphase.trans) (by decide)
  | valid _ hfree =>
    have hphase := hfree.symm
    exact absurd (hy.imp hphase.trans hphase.trans) (by decide)
  | publish _ _ hfree =>
    have hphase := hfree.symm
    exact absurd (hy.imp hphase.trans hphase.trans) (by decide)
  | _ => exact hy.elim nofun nofun

/-- A frame is announced. -/
lemma FrameInv.announce (hi : FrameInv mag x h) {avail n : ℕ} (hpc : x.pc = .announcing avail n)
    (hlive : x.liveTransitional true = true) :
    Published (x.announce avail n) (h.announced x.sid (x.frame mag)) ∧
      (h.announced x.sid (x.frame mag)).Sliced := by
  have howner : x.adc.owner true = adcDspOwnerTransitional x.sid :=
    (Dsp.liveTransitional_iff.mp hlive).1
  have hnow : x.Publishes x.sid := .inr ⟨howner, by rw [hpc]; rfl⟩
  have hy : (x.announce avail n).adc.owner true = x.sid := rfl
  have hpub {id : ℕ} (hp : (x.announce avail n).Publishes id) : id = x.sid := by
    rcases hp with hp | ⟨-, hp⟩
    · exact (Int.ofNat.inj (hy.symm.trans hp)).symm
    · cases hp
  have hframes (id : ℕ) : (h.announced x.sid (x.frame mag)).frames id =
      if id = x.sid then h.frames x.sid ++ [x.frame mag] else h.frames id :=
    Function.update_apply h.frames x.sid _ id
  refine ⟨⟨fun id hrun => ?_, fun id hp => ?_, fun id hid => ?_⟩, fun id e he => ?_⟩
  · by_cases hid : id = x.sid
    · rw [hid]
      exact .inr (.inl hy)
    · rw [hframes, if_neg hid]
      refine .inl ((hi.published.session id hrun).resolve_right ?_)
      rintro (hp | ⟨hp, -⟩)
      · exact adcDspOwnerTransitional_ne x.sid id (howner.symm.trans hp)
      · exact hid (adcDspOwnerTransitional_inj (howner.symm.trans hp)).symm
  · rw [hpub hp, hframes, if_pos rfl, List.length_append, List.length_singleton]
    show (x.adc.fftSeq + 1) % 2 ^ 32 = _
    rw [hi.published.seq x.sid hnow, Nat.mod_add_mod]
  · rw [hpub (.inl hid), hframes, if_pos rfl]
    show (List.range n).map x.bins = _
    rw [(hi.reduction.announcing avail n hpc).2, List.getLastD_concat]
  · obtain ⟨k, f, hk, hseq, hslice⟩ := hi.sliced id e he
    refine ⟨k, f, ?_, hseq, hslice⟩
    rw [hframes]
    split
    · next hid =>
      subst hid
      rw [List.getElem?_append_left (List.getElem?_eq_some_iff.mp hk).1]
      exact hk
    · exact hk

/-- What the pump leaves of a frame whose session has ended. -/
lemma FrameInv.base_lost (hi : FrameInv mag x h) {act : PumpAct} (hr : PumpRule mag x y)
    (hrev : (h.note mag x (.base act) y).revoked = true)
    (hpc : y.pc.phase = .compute ∨ y.pc.phase = .frame) :
    y.adc.owner true ≠ y.sid ∧ y.adc.owner true ≠ adcDspOwnerTransitional y.sid := by
  rcases hr.frame hpc with ⟨avail, hsample⟩ | ⟨hphase, hsid, howner⟩
  · simp only [FrameHistory.note, hsample] at hrev
    cases hrev
  · have hold : h.revoked = true := by
      simp only [FrameHistory.note] at hrev
      split at hrev
      · cases hrev
      · split at hrev <;> exact hrev
      · exact hrev
    have hlost := hi.lost hold hphase
    rw [hsid]
    rcases howner with howner | hlive
    · rw [howner]
      exact hlost
    · exact absurd (Dsp.live_iff.mp hlive).1 hlost.1

/-- A step of the pump keeps the invariant. -/
lemma FrameInv.base (hi : FrameInv mag x h) {act : PumpAct} (hs : x.pumpStep mag act = some y) :
    FrameInv mag y (h.note mag x (.base act) y) := by
  have hr := PumpRule.of_pumpStep hs
  have hord := hi.orderly.pump hr
  have hred := hi.reduction.pump hr
  by_cases hann : ∃ avail n, x.pc = .announcing avail n ∧ x.liveTransitional true = true
  · obtain ⟨avail, n, hpc, hlive⟩ := hann
    have hgo : x.go mag = some y := by
      cases act with
      | go => exact hs
      | _ => simp [Dsp.pumpStep, hpc] at hs
    simp only [Dsp.go, hpc, hlive, if_true, Option.some.injEq] at hgo
    have hnote : h.note mag x (.base act) y = h.announced x.sid (x.frame mag) := by
      simp only [FrameHistory.note, hpc]
      exact if_pos hlive
    obtain ⟨hpub, hsliced⟩ := hi.announce hpc hlive
    refine ⟨hord, hi.base_lost hr, hred, ?_, ?_⟩
    · rw [hnote, ← hgo]
      exact hpub
    · rw [hnote]
      exact hsliced
  · have hno (avail n : ℕ) (hpc : x.pc = .announcing avail n) :
        x.liveTransitional true = false := by
      rw [← Bool.not_eq_true]
      exact fun hlive => hann ⟨avail, n, hpc, hlive⟩
    have hnote : (h.note mag x (.base act) y).frames = h.frames ∧
        (h.note mag x (.base act) y).replies = h.replies := by
      simp only [FrameHistory.note]
      split
      · exact ⟨rfl, rfl⟩
      · next hpc =>
        rw [hno _ _ hpc]
        exact ⟨rfl, rfl⟩
      · exact ⟨rfl, rfl⟩
    have hpub := hi.pump_published hr hno
    refine ⟨hord, hi.base_lost hr, hred, ?_, ?_⟩
    · exact ⟨by rw [hnote.1]; exact hpub.session, by rw [hnote.1]; exact hpub.seq,
        by rw [hnote.1]; exact hpub.bins⟩
    · rw [FrameHistory.Sliced, hnote.1, hnote.2]
      exact hi.sliced

/-- A spectrum request changes nothing but the replies, and latches an error. -/
lemma FrameInv.spectrum_keep (hi : FrameInv mag x h) (dmaErr : Bool) (id offset maxBins : ℕ)
    (hy : y = { x with adc := (x.spectrumRead dmaErr id offset maxBins).hw }) :
    FrameInv mag y (h.note mag x (.spectrum dmaErr id offset maxBins) y) := by
  have hord : y.Orderly := hy ▸ hi.orderly.spectrum dmaErr id offset maxBins
  have hadc : y.adc.owner true = x.adc.owner true ∧ y.adc.fftSeq = x.adc.fftSeq ∧
      y.adc.fftNbins = x.adc.fftNbins ∧
      ∀ i, (y.adc.streams i).inUse = (x.adc.streams i).inUse := by
    rw [hy]
    rcases x.spectrumRead_adc dmaErr id offset maxBins with hw | hw
    · simp only [hw]
      exact ⟨trivial, trivial, trivial, fun _ => trivial⟩
    · simp only [hw]
      refine ⟨rfl, rfl, rfl, fun i => ?_⟩
      rw [Adc.setStream_streams]
      by_cases hid : i = id
      · subst hid
        rw [Function.update_self]
        exact (AdcStream.latchDmaError_binding _ dmaErr).inUse
      · rw [Function.update_of_ne hid]
  have hnote : (h.note mag x (.spectrum dmaErr id offset maxBins) y).frames = h.frames ∧
      (h.note mag x (.spectrum dmaErr id offset maxBins) y).revoked = h.revoked := by
    simp only [FrameHistory.note]
    split
    · exact ⟨rfl, rfl⟩
    · exact ⟨rfl, rfl⟩
  have hpub : Published y h := hi.published.keep hadc.2.2.2 hadc.1 hadc.2.1 hadc.2.2.1
    (fun _ _ => by rw [hy]) fun _ _ => by rw [hy]
  refine ⟨hord, ?_, ?_, ?_, hi.spectrum dmaErr id offset maxBins hy⟩
  · rw [hnote.2, hadc.1, hy]
    exact hi.lost
  · rw [hy]
    exact ⟨hi.reduction.done, hi.reduction.reducing, hi.reduction.announcing⟩
  · exact ⟨by rw [hnote.1]; exact hpub.session, by rw [hnote.1]; exact hpub.seq,
      by rw [hnote.1]; exact hpub.bins⟩

/-- The block writes its output and ends its calculation only while one is under way. -/
lemma FrameInv.block (hi : FrameInv mag x h) (hrun : x.running = true) (hord : y.Orderly)
    (hadc : y.adc = x.adc) (hbins : y.bins = x.bins) (hpc : y.pc = x.pc) (hsid : y.sid = x.sid) :
    FrameInv mag y h := by
  have hno {P : Prop} (h : x.running = false) : P := by
    rw [hrun] at h
    cases h
  refine ⟨hord, ?_, ⟨?_, ?_, ?_⟩, ?_, hi.sliced⟩
  · rw [hpc, hadc, hsid]
    exact hi.lost
  · rw [hpc]
    exact fun avail hdone => hno (hi.reduction.done avail hdone)
  · rw [hpc]
    exact fun avail i hred => hno (hi.reduction.reducing avail i hred).1
  · rw [hpc]
    exact fun avail n hann => hno (hi.reduction.announcing avail n hann).1
  · exact hi.published.keep (fun id => by rw [hadc]) (by rw [hadc]) (by rw [hadc]) (by rw [hadc])
      (fun _ _ => hbins) fun _ _ => by rw [hpc]

lemma FrameInv.step {op : DspOp β} {p q : Dsp β × FrameHistory β} (hi : FrameInv mag p.1 p.2)
    (hs : withHistory (dspStep mag) (FrameHistory.note mag) p op = some q) :
    FrameInv mag q.1 q.2 := by
  obtain ⟨x, h⟩ := p
  obtain ⟨y, h'⟩ := q
  obtain ⟨hstep, hnote⟩ := withHistory_eq_some.mp hs
  simp only at hi hstep hnote ⊢
  subst hnote
  cases op with
  | isr op =>
    cases op with
    | pump => cases hstep
    | _ => exact hi.isr (fun _ _ => nofun) (Option.some.inj hstep).symm
  | spectrum dmaErr id offset maxBins =>
    exact hi.spectrum_keep dmaErr id offset maxBins (Option.some.inj hstep).symm
  | base act => exact hi.base hstep
  | fftOut out =>
    have hord := hi.orderly.step hstep
    simp only [dspStep] at hstep
    split_ifs at hstep with hrun
    cases hstep
    exact hi.block hrun hord rfl rfl rfl rfl
  | fftDone =>
    have hord := hi.orderly.step hstep
    simp only [dspStep] at hstep
    split_ifs at hstep with hrun
    cases hstep
    exact hi.block hrun hord rfl rfl rfl rfl

lemma FrameInv.boot (mag : β → β → β) (zero : β) : FrameInv mag (.boot zero) .empty where
  orderly := .boot zero
  lost := nofun
  reduction := ⟨nofun, nofun, nofun⟩
  published := by
    have hpub (id : ℕ) : ¬ (Dsp.boot zero).Publishes id := Dsp.not_publishes rfl id
    exact ⟨nofun, fun id hp => absurd hp (hpub id), fun id hid => absurd (.inl hid) (hpub id)⟩
  sliced := nofun

end Gd32Bridge
