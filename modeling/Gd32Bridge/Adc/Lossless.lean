import Gd32Bridge.Adc.Fifo
import Gd32Bridge.Adc.Visit

/-!
# Nothing is lost without a BUSY

Runs of the queue of filtered samples.  The backlog of a read is the signed difference of two
32-bit totals, so the queue is lossless until a read finds a whole number of wraps and a few outputs
more unread, and serves those few.
-/

namespace Gd32Bridge

open Transition

variable {β : Type} {mag : β → β → β} {zero : β}

def FifoHistory.empty : FifoHistory := ⟨fun _ => .empty, false⟩

lemma FifoInv.boot (zero : β) : FifoInv (.boot zero) .empty where
  held := .none rfl
  revoked := nofun
  logs := fun _ hb => nomatch hb

/-- A stream is begun and a filter with one tap bound to it, and the pump takes it up before there
is a sample. -/
def filterSession : List (DspOp ℕ) :=
  [.isr (.streamBegin ⟨true, true, true, true, 12⟩ 0 0 1000), .isr .chainOpen,
    .isr (.stagePush 0 0 0 0 8 [0, 1, 0, 0, 0, 0, 0, 0]), .isr (.chainBind 0 0),
    .base (.visit 0), .base .go, .base .go, .base .go, .base .go, .base .go, .base (.config true),
    .base .go, .base (.count 1024), .base .go, .base .go, .base .go, .base .go,
    .base (.count 1024), .base .go, .base .go, .base .go, .base .go]

/-- Eight samples have come and are filtered. -/
def firstBatch : List (DspOp ℕ) :=
  [.base (.visit 0), .base .go, .base .go, .base .go, .base .go, .base (.count 1016), .base .go,
    .base .go, .base .go, .base .go, .base .go,
    .base (.filter [1, 2, 3, 4, 5, 6, 7, 4095] 8 false false)]

/-- A read that finds nothing wrong with the converter. -/
def soundRead (vrefMv : ℕ) : ReadEnv := ⟨false, false, true, fun _ => 0, fun _ _ => 0, vrefMv⟩

/-- A test for `UnreadTold` that looks at the backlog only. -/
def unreadTold (p : Dsp ℕ × FifoHistory) (op : DspOp ℕ) (_ : Dsp ℕ × FifoHistory) : Bool :=
  match op with
  | .isr (.streamRead _ id maxSamples) =>
    decide (BacklogTold ((p.2.logs id).committed.length - (p.2.logs id).next) maxSamples)
  | _ => true

/-- As long as no read serves outputs from a backlog of more than a ring, taking it for a smaller
one, each filter-bound stream is a queue that loses nothing without a BUSY, and a batch whose lease
has been revoked writes nothing. -/
theorem filtered_plane_fifo {x : Dsp β} {h : FifoHistory}
    (hr : Reach (withHistory (dspStep mag) FifoHistory.note) (fun p => p = (.boot zero, .empty))
      UnreadTold (x, h)) :
    (∀ id, (x.adc.streams id).boundTo false = true →
      (h.logs id).next ≤ (h.logs id).committed.length ∧
        FifoWithGaps (h.logs id).committed (x.adc.streams id).fullScale (h.logs id).answers
          (h.logs id).next) ∧
      (h.revoked = true → ∀ avail rawRead out used sat stalled,
        x.pc = .publishing avail rawRead out used sat stalled →
        ∀ act y, dspStep mag x (.base act) = some y → y.adc.streams = x.adc.streams) := by
  have hi : FifoInv x h := by
    refine Reach.invariant (I := fun p => FifoInv p.1 p.2) ?_ ?_ hr
    · rintro p rfl
      exact .boot zero
    · exact fun p op q _ hi hs hok => hi.step hs hok
  refine ⟨fun id hb => ⟨(hi.logs id hb).plane.le, (hi.logs id hb).queue⟩, ?_⟩
  intro hrev avail rawRead out used sat stalled hpc act y hs
  rcases Dsp.publish_cases hpc hs with ⟨hlive, -⟩ | ⟨-, hsame⟩
  · exact absurd (Dsp.liveTransitional_iff.mp hlive).1 (hi.revoked hrev (by rw [hpc]; rfl))
  · exact hsame

/-- A batch of eight outputs of which a read takes three, and a batch whose stream is ended and
bound again before its commit. -/
theorem filtered_plane_fifo_first_batches :
    (∃ (x : Dsp ℕ) (h : FifoHistory), (x.adc.streams 0).boundTo false = true ∧
      h.logs 0 = ⟨[1, 2, 3, 4, 5, 6, 7, 4095], [.served 8 4095 [1, 2, 3]], 3, 0⟩ ∧
      FifoWithGaps (h.logs 0).committed (x.adc.streams 0).fullScale (h.logs 0).answers
        (h.logs 0).next) ∧
    ∃ x y : Dsp ℕ, (x.adc.streams 0).boundTo false = true ∧
      x.pc = .publishing 8 8 [1, 2, 3, 4, 5, 6, 7, 4095] 8 false false ∧
      dspStep (fun a b => a + b) x (.base .go) = some y ∧ y.adc.streams = x.adc.streams := by
  have hinit : Reach (withHistory (dspStep fun a b : ℕ => a + b) FifoHistory.note)
      (fun p => p = (.boot 0, .empty)) UnreadTold (.boot 0, .empty) := .start rfl
  have hchk (p : Dsp ℕ × FifoHistory) (op : DspOp ℕ) (q : Dsp ℕ × FifoHistory)
      (hok : unreadTold p op q = true) : UnreadTold p op q := by
    cases op with
    | isr op =>
      cases op with
      | streamRead =>
        simp only [unreadTold, decide_eq_true_eq] at hok
        exact fun _ => hok
      | _ => trivial
    | _ => trivial
  constructor
  · obtain ⟨⟨x, h⟩, hr, hq⟩ := hinit.exists_of_run unreadTold
      (fun p => (p.1.adc.streams 0).boundTo false &&
        p.2.logs 0 == ⟨[1, 2, 3, 4, 5, 6, 7, 4095], [.served 8 4095 [1, 2, 3]], 3, 0⟩)
      (filterSession ++ firstBatch ++ [.base .go, .isr (.streamRead (soundRead 4095) 0 3)]) hchk
      (by decide +kernel)
    simp only [Bool.and_eq_true, beq_iff_eq] at hq
    exact ⟨x, h, hq.1, hq.2, ((filtered_plane_fifo hr).1 0 hq.1).2⟩
  · obtain ⟨⟨x, h⟩, hr, hq⟩ := hinit.exists_of_run unreadTold
      (fun p => (p.1.adc.streams 0).boundTo false && p.2.revoked &&
        p.1.pc == .publishing 8 8 [1, 2, 3, 4, 5, 6, 7, 4095] 8 false false)
      (filterSession ++ firstBatch ++ [.isr (.streamEnd ⟨true, true⟩ 0),
        .isr (.streamBegin ⟨true, true, true, true, 12⟩ 0 0 1000), .isr .chainOpen,
        .isr (.stagePush 0 0 0 0 8 [0, 1, 0, 0, 0, 0, 0, 0]), .isr (.chainBind 0 0)]) hchk
      (by decide +kernel)
    simp only [Bool.and_eq_true, beq_iff_eq] at hq
    obtain ⟨⟨hb, hrev⟩, hpc⟩ := hq
    have hgo : ∃ y, dspStep (fun a b => a + b) x (.base .go) = some y := by
      simp only [dspStep, Dsp.pumpStep, Dsp.go, hpc]
      split
      · exact ⟨_, rfl⟩
      · exact ⟨_, rfl⟩
    obtain ⟨y, hy⟩ := hgo
    exact ⟨x, y, hb, hpc, hy, (filtered_plane_fifo hr).2 hrev _ _ _ _ _ _ hpc .go y hy⟩

/-! ### A visit of the pump -/

/-- The reads come often: fewer than `2 ^ 31` outputs between two of them. -/
def SinceSmall (p : Dsp β × FifoHistory) (op : DspOp β) (_ : Dsp β × FifoHistory) : Prop :=
  match op with
  | .isr (.streamRead _ id _) => (p.1.adc.streams id).boundTo false = true →
    (p.2.logs id).since < 2 ^ 31
  | _ => True

/-- The way to the samples and the reloads are nothing to the queue. -/
lemma FifoHistory.unnoted : Unnoted (η := FifoHistory) (β := β) FifoHistory.note SinceSmall where
  base := by
    intro h x act y hearly
    cases hpc : x.pc <;> simp [PumpPc.early, hpc, FifoHistory.note] at hearly ⊢
  lap := fun _ _ _ _ _ => rfl
  okBase := fun _ _ _ => trivial
  okLap := fun _ _ _ _ => trivial

/-- Some run in which the reads come often leads to the pump having done its work on stream 0, which
is as `s` says. -/
def FifoLane (mag : β → β → β) (zero : β) (s : AdcStream) (h : FifoHistory) : Prop :=
  ∃ v, Lane mag FifoHistory.note (fun p => p = (.boot zero, .empty)) SinceSmall false v h ∧
    v.pc = .idle ∧ v.owner = 0 ∧ v.stream = s

variable {s s' : AdcStream} {h h' : FifoHistory} {T : ℕ}

/-- A filter-bound stream that can be served, whose pump has taken all of the first `T` samples. -/
structure AdcStream.Steady (s : AdcStream) (T : ℕ) : Prop extends s.Drained false T where
  sound : s.Sound
  fullScale : s.fullScale = 4095

/-- The pump filters `n` samples into as many outputs, in one batch, and commits them. -/
lemma Lane.batch {v : PumpView β} {n rawRead : ℕ} {out : List UInt16}
    (hl : Lane mag FifoHistory.note (fun p => p = (.boot zero, .empty)) SinceSmall false v h)
    (hpc : v.pc = .leasing n) (howner : v.owner = 0) (hs : v.stream.boundTo false = true)
    (hpos : 0 < n) (hn : n ≤ adcDspPumpLockBatch) (hout : out.length ≤ adcDspPumpLockBatch)
    (hraw : (v.stream.pumpRawRead + n) % 2 ^ 32 = rawRead) :
    ∃ h', FifoLane mag zero (v.stream.published rawRead out false) h' ∧
      h'.logs 0 = (h.logs 0).commit out := by
  have hu := FifoHistory.unnoted (β := β)
  have h₁ : Lane mag FifoHistory.note (fun p => p = (.boot zero, .empty)) SinceSmall false
      { v with pc := .filtering n, owner := adcDspOwnerTransitional 0 }
      { h with revoked := false } := by
    refine hl.base hu.okBase .go fun x hsid hv => ?_
    have hx : x.pc = .leasing n := (congrArg PumpView.pc hv).trans hpc
    have hstream := Dsp.stream_of_view hsid hv
    have hown : x.adc.owner false = x.sid := by
      rw [hsid]
      exact (congrArg PumpView.owner hv).trans howner
    have hlive : x.live false = true := Dsp.live_iff.mpr ⟨hown, hstream ▸ hs⟩
    refine ⟨(x.setOwner false (adcDspOwnerTransitional x.sid)).goto (.filtering n), ?_, hsid, ?_,
      ?_⟩
    · simp only [Dsp.pumpStep, Dsp.go, hx, hlive, if_true]
    · rw [Dsp.view_goto, Dsp.view_setOwner, hv, hsid]
    · simp only [FifoHistory.note, hx]
  have h₂ : Lane mag FifoHistory.note (fun p => p = (.boot zero, .empty)) SinceSmall false
      { v with
        pc := .publishing n rawRead out n false false, owner := adcDspOwnerTransitional 0 }
      { h with revoked := false } := by
    refine h₁.base hu.okBase (.filter out n false false) fun x hsid hv => ?_
    have hx : x.pc = .filtering n := congrArg PumpView.pc hv
    have hstream := Dsp.stream_of_view hsid hv
    have hok : n ≤ min n adcDspPumpLockBatch ∧ out.length ≤ adcDspPumpLockBatch ∧
        (n = 0 → false = true) := ⟨by omega, hout, fun h0 => by omega⟩
    refine ⟨x.goto (.publishing n rawRead out n false false), ?_, hsid, ?_, ?_⟩
    · simp only [Dsp.pumpStep, hx, hstream, if_pos hok, hraw]
    · rw [Dsp.view_goto, hv]
    · simp only [FifoHistory.note, hx]
  have h₃ : Lane mag FifoHistory.note (fun p => p = (.boot zero, .empty)) SinceSmall false
      { v with pc := .idle, stream := v.stream.published rawRead out false }
      (({ h with revoked := false } : FifoHistory).setLog 0 ((h.logs 0).commit out)) := by
    refine h₂.base hu.okBase .go fun x hsid hv => ?_
    have hx : x.pc = .publishing n rawRead out n false false := congrArg PumpView.pc hv
    have hstream := Dsp.stream_of_view hsid hv
    have hlive : x.liveTransitional false = true :=
      Dsp.liveTransitional_iff.mpr ⟨by rw [hsid]; exact congrArg PumpView.owner hv, hstream ▸ hs⟩
    refine ⟨((x.store (x.stream.published rawRead out false)).setOwner false x.sid).goto .idle, ?_,
      hsid, ?_, ?_⟩
    · simp only [Dsp.pumpStep, Dsp.go, hx, hlive, if_true, Nat.le_refl, or_true]
    · rw [Dsp.view_goto, Dsp.view_setOwner, Dsp.view_store hsid, hv, hstream, hsid]
      exact congrArg (fun o => { v with
        pc := .idle, owner := o, stream := v.stream.published rawRead out false }) howner.symm
    · simp only [FifoHistory.note, hx, hlive, if_true, hsid]
  refine ⟨_, ⟨_, h₃, rfl, howner, rfl⟩, ?_⟩
  rw [FifoHistory.setLog_logs, Function.update_self]

/-- A visit that finds eight more samples. -/
lemma FifoLane.cycle (hl : FifoLane mag zero s h) (hs : s.Steady T)
    (hm : s.Filtered (h.logs 0).committed (h.logs 0).next) (c : UInt16) :
    ∃ s' h', FifoLane mag zero s' h' ∧ s'.Steady (T + 8) ∧
      s'.Filtered (h'.logs 0).committed (h'.logs 0).next ∧
      h'.logs 0 = (h.logs 0).commit (List.replicate 8 c) := by
  obtain ⟨v, hlane, hpc, howner, rfl⟩ := hl
  have hleasing := hlane.arrive (n := 8) FifoHistory.unnoted hs.toDrained hpc howner (by decide)
    (by decide)
  have hbound : (v.stream.counted (T + 8)).boundTo false = true := hs.boundTo
  have hraw : ((v.stream.counted (T + 8)).pumpRawRead + 8) % 2 ^ 32 = (T + 8) % 2 ^ 32 := by
    have hread : (v.stream.counted (T + 8)).pumpRawRead = T % 2 ^ 32 := hs.pumpRawRead
    rw [hread, Nat.mod_add_mod]
  have hlen : (List.replicate 8 c).length ≤ adcDspPumpLockBatch :=
    Nat.le_of_eq List.length_replicate
  obtain ⟨h', hidle, hlog⟩ := hleasing.batch rfl howner hbound (by decide) (by decide) hlen hraw
  have hsat : ((v.stream.counted (T + 8)).published ((T + 8) % 2 ^ 32) (List.replicate 8 c)
      false).dspSat = false := by
    simp only [AdcStream.published, Bool.or_false]
    exact hs.sound.sat
  refine ⟨_, h', hidle, ?_, ?_, hlog⟩
  · exact ⟨⟨hs.inUse, hs.dspBound, hs.terminal, hs.dmaErrorCount, rfl, rfl, rfl⟩,
      ⟨hs.sound.terminal, hs.sound.cfgBad, hsat, hs.sound.gap⟩, hs.fullScale⟩
  · rw [hlog]
    have hcounted : (v.stream.counted (T + 8)).Filtered (h.logs 0).committed (h.logs 0).next :=
      hm.congr rfl rfl rfl
    exact hcounted.published _ _ _

/-- And `m` of them, one after the other. -/
lemma FifoLane.cycles (hl : FifoLane mag zero s h) (hs : s.Steady T)
    (hm : s.Filtered (h.logs 0).committed (h.logs 0).next) (c : UInt16) (m : ℕ) :
    ∃ s' h', FifoLane mag zero s' h' ∧ s'.Steady (T + 8 * m) ∧
      s'.Filtered (h'.logs 0).committed (h'.logs 0).next ∧
      h'.logs 0 = (h.logs 0).commit (List.replicate (8 * m) c) := by
  induction m with
  | zero =>
    refine ⟨s, h, hl, hs, hm, ?_⟩
    simp only [FilterLog.commit, Nat.mul_zero, List.replicate_zero, List.append_nil,
      List.length_nil, Nat.add_zero]
  | succ m ih =>
    obtain ⟨s₁, h₁, hl₁, hs₁, hm₁, hlog₁⟩ := ih
    obtain ⟨s₂, h₂, hl₂, hs₂, hm₂, hlog₂⟩ := hl₁.cycle hs₁ hm₁ c
    refine ⟨s₂, h₂, hl₂, hs₂, hm₂, ?_⟩
    have hsum : 8 * m + 8 = 8 * (m + 1) := rfl
    rw [hlog₂, hlog₁]
    simp only [FilterLog.commit, List.append_assoc, List.replicate_append_replicate,
      List.length_replicate, hsum, Nat.add_assoc]

/-! ### Reads of a steady stream -/

lemma FifoLane.read (hl : FifoLane mag zero s h) (hb : s.boundTo false = true)
    (hsince : (h.logs 0).since < 2 ^ 31) (env : ReadEnv) (maxSamples : ℕ) :
    ∃ h', FifoLane mag zero (s.read env maxSamples).hw h' ∧
      h'.logs 0 = (h.logs 0).answered env (s.read env maxSamples) := by
  obtain ⟨v, ⟨x, hr, hsid, hv⟩, hpc, howner, hs⟩ := hl
  have hx : x.adc.streams 0 = s := (congrArg PumpView.stream hv).trans hs
  refine ⟨h.setLog 0 ((h.logs 0).answered env (s.read env maxSamples)), ⟨_, ⟨_, .next
    (.isr (.streamRead env 0 maxSamples)) hr (withHistory_eq_some.mpr ⟨rfl, ?_⟩) fun _ => hsince,
    hsid, rfl⟩, ?_, ?_, ?_⟩, ?_⟩
  · have hnote : 0 < bridgeAdcStreamCount ∧ s.boundTo false = true := ⟨by decide, hb⟩
    simp only [FifoHistory.note, hx, if_pos hnote]
  · exact (congrArg PumpView.pc hv).trans hpc
  · exact (congrArg PumpView.owner hv).trans howner
  · show Function.update x.adc.streams 0 ((x.adc.streams 0).read env maxSamples).hw 0 = _
    rw [Function.update_self, hx]
  · rw [FifoHistory.setLog_logs, Function.update_self]

section Steady

variable {n : ℕ} {log : List UInt16}

lemma AdcStream.Steady.read_eq (hs : s.Steady T) (hf : s.Filtered log n) (vrefMv maxSamples : ℕ) :
    s.read (soundRead vrefMv) maxSamples =
      if (log.length - n) % 2 ^ 32 = 0 ∨ 2 ^ 31 ≤ (log.length - n) % 2 ^ 32 then ⟨s, .ok, []⟩
      else if adcRingSamples ≤ (log.length - n) % 2 ^ 32 then
        ⟨{ s with procRead := s.procWrite }, .busy, []⟩
      else s.procAnswer (soundRead vrefMv) maxSamples n ((log.length - n) % 2 ^ 32) := by
  rw [← hf.readProc_eq hs.sound]
  have hlatch : s.latchDmaError (soundRead vrefMv).dmaErr = s := rfl
  have hrun : ¬ ¬ s.inUse = true := not_not.mpr hs.inUse
  rw [AdcStream.read, if_neg hrun, hlatch, AdcStream.serve,
    if_neg (not_not.mpr hs.dmaErrorCount), if_neg (by simp [soundRead]), if_pos hs.dspBound]

lemma AdcStream.Steady.procServed (hs : s.Steady T) (k : ℕ) : (s.procServed k).Steady T :=
  ⟨⟨hs.inUse, hs.dspBound, hs.terminal, hs.dmaErrorCount, hs.lapCount, hs.pumpPos,
    hs.pumpRawRead⟩, ⟨hs.sound.terminal, hs.sound.cfgBad, hs.sound.sat, hs.sound.gap⟩, hs.fullScale⟩

/-- Some outputs are served, those that `RingHolds` says the slots hold now. -/
lemma FifoLane.serve {k vrefMv : ℕ} {mv : List UInt16} (hl : FifoLane mag zero s h)
    (hs : s.Steady T) (hf : s.Filtered (h.logs 0).committed (h.logs 0).next)
    (hsince : (h.logs 0).since < 2 ^ 31)
    (hback : ((h.logs 0).committed.length - (h.logs 0).next) % 2 ^ 32 < adcRingSamples)
    (hpos : 0 < ((h.logs 0).committed.length - (h.logs 0).next) % 2 ^ 32)
    (hk : k ≤ ((h.logs 0).committed.length - (h.logs 0).next) % 2 ^ 32)
    (hmv : (List.range k).map (fun i => codeMv s.fullScale vrefMv
      (s.procRing (((h.logs 0).next % 2 ^ 32 + i) % 2 ^ 32 % adcRingSamples))) = mv) :
    ∃ h', FifoLane mag zero (s.procServed k) h' ∧
      h'.logs 0 = ⟨(h.logs 0).committed,
        .served (h.logs 0).committed.length vrefMv mv :: (h.logs 0).answers,
        (h.logs 0).next + k, 0⟩ := by
  obtain ⟨h', hl', hlog⟩ := hl.read hs.boundTo hsince (soundRead vrefMv) k
  have hread : s.read (soundRead vrefMv) k = ⟨s.procServed k, .ok, mv⟩ := by
    have hmin : min (((h.logs 0).committed.length - (h.logs 0).next) % 2 ^ 32) k = k :=
      Nat.min_eq_right hk
    have hsmall : adcRingSamples < 2 ^ 31 := by decide
    rw [hs.read_eq hf, if_neg (by omega), if_neg (by omega), AdcStream.procAnswer, hmin, ← hmv]
    rfl
  rw [hread] at hl' hlog
  have hlen : mv.length = k := by rw [← hmv, List.length_map, List.length_range]
  refine ⟨h', hl', ?_⟩
  rw [hlog]
  simp only [FilterLog.answered, hlen]
  rfl

/-- The backlog has turned negative: the read finds nothing. -/
lemma FifoLane.blind (hl : FifoLane mag zero s h) (hs : s.Steady T)
    (hf : s.Filtered (h.logs 0).committed (h.logs 0).next) (hsince : (h.logs 0).since < 2 ^ 31)
    (hback : 2 ^ 31 ≤ ((h.logs 0).committed.length - (h.logs 0).next) % 2 ^ 32)
    (vrefMv maxSamples : ℕ) :
    ∃ h', FifoLane mag zero s h' ∧
      h'.logs 0 = ⟨(h.logs 0).committed,
        .served (h.logs 0).committed.length vrefMv [] :: (h.logs 0).answers,
        (h.logs 0).next, 0⟩ := by
  obtain ⟨h', hl', hlog⟩ := hl.read hs.boundTo hsince (soundRead vrefMv) maxSamples
  rw [hs.read_eq hf, if_pos (.inr hback)] at hl' hlog
  exact ⟨h', hl', hlog⟩

end Steady

/-! ### Where it stops being lossless -/

/-- The step is no read. -/
def noRead (_ : Dsp ℕ × FifoHistory) (op : DspOp ℕ) (_ : Dsp ℕ × FifoHistory) : Bool :=
  match op with
  | .isr (.streamRead _ _ _) => false
  | _ => true

/-- The filter of stream 0 is configured and no sample has come. -/
def startedSession (p : Dsp ℕ × FifoHistory) : Bool :=
  let s := p.1.adc.streams 0
  p.1.pc = .idle && p.1.sid == 0 && p.1.adc.owner false == 0 && s.inUse && s.dspBound &&
    s.dspTerminal == 0 && !s.dspCfgBad && !s.dspSat && !s.procGap && s.dmaErrorCount == 0 &&
    s.fullScale == 4095 && s.lapCount == 0 && s.pumpPos == ⟨0, 0, true⟩ && s.pumpRawRead == 0 &&
    s.procWrite == 0 && s.procRead == 0 && p.2.logs 0 == .empty

/-- The session has been set up. -/
lemma FifoLane.start : ∃ s h, FifoLane (fun a b => a + b) 0 s h ∧ s.Steady 0 ∧
    s.Filtered [] 0 ∧ h.logs 0 = .empty := by
  have hinit : Reach (withHistory (dspStep fun a b : ℕ => a + b) FifoHistory.note)
      (fun p => p = (.boot 0, .empty)) SinceSmall (.boot 0, .empty) := .start rfl
  have hchk (p : Dsp ℕ × FifoHistory) (op : DspOp ℕ) (q : Dsp ℕ × FifoHistory)
      (hok : noRead p op q = true) : SinceSmall p op q := by
    cases op with
    | isr op =>
      cases op with
      | streamRead => cases hok
      | _ => trivial
    | _ => trivial
  obtain ⟨⟨x, h⟩, hr, hq⟩ :=
    hinit.exists_of_run noRead startedSession filterSession hchk (by decide +kernel)
  simp only [startedSession, Bool.and_eq_true, beq_iff_eq, decide_eq_true_eq, Bool.not_eq_true',
    and_assoc] at hq
  obtain ⟨hpc, hsid, howner, hrun, hbound, hterm, hcfg, hsat, hgap, herr, hscale, hlap, hpos, hraw,
    hwrite, hread, hlog⟩ := hq
  refine ⟨x.adc.streams 0, h, ⟨_, ⟨x, hr, hsid, rfl⟩, hpc, howner, rfl⟩, ?_, ?_, hlog⟩
  · exact ⟨⟨hrun, hbound, by rw [hterm]; rfl, herr, hlap, hpos, hraw⟩,
      ⟨by rw [hterm]; decide, hcfg, hsat, hgap⟩, hscale⟩
  · exact ⟨hwrite, hread, Nat.le_refl _, .nil _⟩

/-- Thirty-two outputs of code 0 and then `k` of full scale. -/
def twoLevels (k : ℕ) : List UInt16 := List.replicate 32 0 ++ List.replicate k 4095

/-- The answers after which the queue has lost `2 ^ 32` outputs without a BUSY. -/
def blindAnswers (N : ℕ) : List Answer :=
  [.served (32 + (N + N)) 3300 (List.replicate 15 3300), .served (32 + N) 3300 [],
    .served 32 3300 [0]]

lemma twoLevels_length (k : ℕ) : (twoLevels k).length = 32 + k := by
  rw [twoLevels, List.length_append, List.length_replicate, List.length_replicate]

lemma twoLevels_low (k : ℕ) {m : ℕ} (hm : m < 32) : (twoLevels k).getD m 0 = 0 := by
  have hlen : m < (List.replicate 32 (0 : UInt16)).length := by rwa [List.length_replicate]
  simp only [twoLevels, List.getD_eq_getElem?_getD, List.getElem?_append_left hlen,
    List.getElem?_replicate_of_lt hm, Option.getD_some]

lemma twoLevels_high {k m : ℕ} (hm : 32 ≤ m) (hk : m < 32 + k) : (twoLevels k).getD m 0 = 4095 := by
  have hlen : (List.replicate 32 (0 : UInt16)).length ≤ m := by rwa [List.length_replicate]
  have hrest : m - 32 < k := by omega
  simp only [twoLevels, List.getD_eq_getElem?_getD, List.getElem?_append_right hlen,
    List.length_replicate, List.getElem?_replicate_of_lt hrest, Option.getD_some]

/-- Thirty-two outputs, a read that takes one of them, `2 ^ 31 - 8` outputs, a read that finds the
backlog negative, and as many outputs again: the next read serves outputs `2 ^ 32` further on. -/
lemma FifoLane.skips {N m : ℕ} (hm : 8 * m = N) (hN : N = 2 ^ 31 - 8) :
    ∃ s h, FifoLane (fun a b => a + b) 0 s h ∧ s.Steady (32 + N + N) ∧
      (h.logs 0).committed = twoLevels (N + N) ∧ (h.logs 0).answers = blindAnswers N := by
  obtain ⟨s₀, h₀, hl₀, hs₀, hf₀, hlog₀⟩ := FifoLane.start
  obtain ⟨s₁, h₁, hl₁, hs₁, hf₁, hlog₁⟩ :=
    hl₀.cycles hs₀ (by rw [hlog₀]; exact hf₀) 0 4
  have hlog₁ : h₁.logs 0 = ⟨List.replicate 32 0, [], 0, 32⟩ := by
    rw [hlog₁, hlog₀]
    rfl
  -- the first read
  have hmv₁ : (List.range 1).map (fun i => codeMv s₁.fullScale 3300
      (s₁.procRing (((h₁.logs 0).next % 2 ^ 32 + i) % 2 ^ 32 % adcRingSamples))) = [0] := by
    rw [hlog₁] at hf₁ ⊢
    rw [hf₁.ring.served s₁.fullScale 3300 (n := 0) (k := 1) (by decide) (by decide), hs₁.fullScale]
    decide
  obtain ⟨h₂, hl₂, hlog₂⟩ := hl₁.serve hs₁ hf₁ (by rw [hlog₁]; decide) (by rw [hlog₁]; decide)
    (by rw [hlog₁]; decide) (by rw [hlog₁]; decide) hmv₁
  have hlog₂ : h₂.logs 0 = ⟨List.replicate 32 0, [.served 32 3300 [0]], 1, 0⟩ := by
    rw [hlog₂, hlog₁, List.length_replicate]
  have hf₂ : (s₁.procServed 1).Filtered (h₂.logs 0).committed (h₂.logs 0).next := by
    rw [hlog₁] at hf₁
    rw [hlog₂]
    exact hf₁.procServed (by decide)
  -- the second one finds more than it can tell
  obtain ⟨s₃, h₃, hl₃, hs₃, hf₃, hlog₃⟩ := hl₂.cycles (hs₁.procServed 1) hf₂ 4095 m
  have hlog₃ : h₃.logs 0 = ⟨twoLevels N, [.served 32 3300 [0]], 1, N⟩ := by
    rw [hlog₃, hlog₂, hm]
    simp only [FilterLog.commit, List.length_replicate, Nat.zero_add, twoLevels]
  obtain ⟨h₄, hl₄, hlog₄⟩ := hl₃.blind hs₃ hf₃ (by rw [hlog₃]; simp only; omega)
    (by rw [hlog₃]; simp only [twoLevels_length]; omega) 3300 15
  have hlog₄ : h₄.logs 0 =
      ⟨twoLevels N, [.served (32 + N) 3300 [], .served 32 3300 [0]], 1, 0⟩ := by
    rw [hlog₄, hlog₃, twoLevels_length]
  have hf₄ : s₃.Filtered (h₄.logs 0).committed (h₄.logs 0).next := by
    rw [hlog₃] at hf₃
    rw [hlog₄]
    exact hf₃
  -- and the third one once more around
  obtain ⟨s₅, h₅, hl₅, hs₅, hf₅, hlog₅⟩ := hl₄.cycles hs₃ hf₄ 4095 m
  have hlog₅ : h₅.logs 0 =
      ⟨twoLevels (N + N), [.served (32 + N) 3300 [], .served 32 3300 [0]], 1, N⟩ := by
    rw [hlog₅, hlog₄, hm]
    simp only [FilterLog.commit, List.length_replicate, Nat.zero_add, twoLevels,
      List.append_assoc, List.replicate_append_replicate]
  have hback : ((h₅.logs 0).committed.length - (h₅.logs 0).next) % 2 ^ 32 = 15 := by
    rw [hlog₅]
    simp only [twoLevels_length]
    omega
  have hmv₅ : (List.range 15).map (fun i => codeMv s₅.fullScale 3300
      (s₅.procRing (((h₅.logs 0).next % 2 ^ 32 + i) % 2 ^ 32 % adcRingSamples))) =
      List.replicate 15 3300 := by
    rw [List.eq_replicate_iff]
    refine ⟨by rw [List.length_map, List.length_range], fun v hv => ?_⟩
    obtain ⟨i, hi, rfl⟩ := List.mem_map.mp hv
    have hlt := List.mem_range.mp hi
    have hring : RingHolds s₅.procRing (twoLevels (N + N)) := by
      rw [hlog₅] at hf₅
      exact hf₅.ring
    have hslot : (1 % 2 ^ 32 + i) % 2 ^ 32 % adcRingSamples =
        (2 ^ 32 + 1 + i) % adcRingSamples := by
      simp only [adcRingSamples]
      omega
    have hcode : s₅.procRing ((2 ^ 32 + 1 + i) % adcRingSamples) = 4095 := by
      have hlen := twoLevels_length (N + N)
      rw [hring (2 ^ 32 + 1 + i) (by omega) (by simp only [adcRingSamples]; omega)]
      exact twoLevels_high (by omega) (by omega)
    simp only [hlog₅, hslot, hcode, hs₅.fullScale]
    decide
  obtain ⟨h₆, hl₆, hlog₆⟩ := hl₅.serve hs₅ hf₅ (by rw [hlog₅]; simp only; omega)
    (by rw [hback]; decide) (by rw [hback]; decide) (Nat.le_of_eq hback.symm) hmv₅
  refine ⟨_, h₆, hl₆, ?_, ?_, ?_⟩
  · have hT : 0 + 8 * 4 + 8 * m + 8 * m = 32 + N + N := by rw [hm]
    rw [← hT]
    exact hs₅.procServed 15
  · rw [hlog₆, hlog₅]
  · rw [hlog₆, hlog₅]
    simp only [twoLevels_length, blindAnswers]

lemma FifoWithGaps.served_inv {log mv : List UInt16} {as : List Answer}
    {fullScale committed vrefMv n : ℕ}
    (h : FifoWithGaps log fullScale (.served committed vrefMv mv :: as) n) :
    ∃ n', FifoWithGaps log fullScale as n' ∧ n = n' + mv.length ∧
      mv = outputsFrom log fullScale vrefMv n' mv.length := by
  cases h with
  | @served _ n' k _ _ h =>
    have hlen : (outputsFrom log fullScale vrefMv n' k).length = k := by
      rw [outputsFrom, List.length_map, List.length_range']
    exact ⟨n', h, by rw [hlen], by rw [hlen]⟩

/-- Whatever the queue may have skipped at a BUSY, these answers contain none. -/
lemma not_fifoWithGaps_blind {N n : ℕ}
    (h : FifoWithGaps (twoLevels (N + N)) 4095 (blindAnswers N) n) : False := by
  obtain ⟨n₂, h₂, -, hmv⟩ := h.served_inv
  obtain ⟨n₁, h₁, hn₂, -⟩ := h₂.served_inv
  obtain ⟨n₀, h₀, hn₁, -⟩ := h₁.served_inv
  -- the first read has taken one output, so the third one is to start with the second
  cases h₀
  have hn : n₂ = 1 := by
    simp only [List.length_nil, List.length_singleton] at hn₁ hn₂
    omega
  have hlow := twoLevels_low (N + N) (by decide : 1 < 32)
  rw [hn, List.length_replicate, outputsFrom, List.range'_succ, List.map_cons, hlow,
    List.replicate_succ] at hmv
  have hhead := (List.cons.inj hmv).1
  exact absurd hhead (by decide)

/-- With fewer than `2 ^ 31` outputs between two reads the queue still loses outputs without a
BUSY: the backlog of a read may be larger than that. -/
theorem filtered_plane_skips :
    ∃ (x : Dsp ℕ) (h : FifoHistory),
      Reach (withHistory (dspStep fun a b => a + b) FifoHistory.note)
        (fun p => p = (.boot 0, .empty)) SinceSmall (x, h) ∧
      (x.adc.streams 0).boundTo false = true ∧
      (h.logs 0).committed = twoLevels (2 ^ 32 - 16) ∧
      (h.logs 0).answers = [.served (2 ^ 32 + 16) 3300 (List.replicate 15 3300),
        .served (2 ^ 31 + 24) 3300 [], .served 32 3300 [0]] ∧
      ¬ ∃ n, FifoWithGaps (h.logs 0).committed (x.adc.streams 0).fullScale (h.logs 0).answers
        n := by
  obtain ⟨s, h, ⟨v, ⟨x, hr, -, hv⟩, -, -, hstream⟩, hd, hcommitted, hanswers⟩ :=
    FifoLane.skips (m := 2 ^ 28 - 1) (N := 2 ^ 31 - 8) rfl rfl
  have hs : x.adc.streams 0 = s := (congrArg PumpView.stream hv).trans hstream
  refine ⟨x, h, hr, hs ▸ hd.boundTo, hcommitted, hanswers, ?_⟩
  rintro ⟨n, hn⟩
  rw [hcommitted, hanswers, hs, hd.fullScale] at hn
  exact not_fifoWithGaps_blind hn

end Gd32Bridge
