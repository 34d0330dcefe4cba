import Gd32Bridge.Adc.Lease
import Gd32Bridge.Adc.Filtered

/-!
# Visits of the pump

How runs are put together: one more step of the pump on stream 0, whatever the history that watches
it, and from such steps the way from the idle pump to the first section of its work.
-/

namespace Gd32Bridge

open Transition

variable {β η : Type} {mag : β → β → β} {upd : η → Dsp β → DspOp β → Dsp β → η}
  {init : Dsp β × η → Prop} {ok : Dsp β × η → DspOp β → Dsp β × η → Prop}

/-- What a visit of the pump to stream 0 depends on: where it is, the owner byte of its block, the
stream, and the FFT block. -/
@[ext]
structure PumpView (β : Type) where
  pc : PumpPc
  owner : ℤ
  stream : AdcStream
  points : ℕ
  outfmt : ℕ
  fill : ℕ
  running : Bool
  out : ℕ → β

def Dsp.view (x : Dsp β) (fft : Bool) : PumpView β :=
  ⟨x.pc, x.adc.owner fft, x.adc.streams 0, x.points, x.outfmt, x.adc.fftFill, x.running, x.out⟩

/-- Some run leads to `v`, with `h` noted. -/
def Lane (mag : β → β → β) (upd : η → Dsp β → DspOp β → Dsp β → η) (init : Dsp β × η → Prop)
    (ok : Dsp β × η → DspOp β → Dsp β × η → Prop) (fft : Bool) (v : PumpView β) (h : η) : Prop :=
  ∃ x : Dsp β, Reach (withHistory (dspStep mag) upd) init ok (x, h) ∧ x.sid = 0 ∧ x.view fft = v

/-- The reads and stores before the pump begins its work on the samples. -/
def PumpPc.early : PumpPc → Bool
  | idle | sawInUse | sawBound | entered _ | checkOwner _ | counting _ | storeLaps _ _ _
  | storeW _ _ _ | storeValid _ _ _ | weighing _ _ => true
  | _ => false

/-- The history takes no note of the way to the samples, nor of a reload, and every step of the
pump is allowed. -/
structure Unnoted (upd : η → Dsp β → DspOp β → Dsp β → η)
    (ok : Dsp β × η → DspOp β → Dsp β × η → Prop) : Prop where
  base : ∀ h x act y, x.pc.early = true → upd h x (.base act) y = h
  lap : ∀ h x y ftf dmaErr, upd h x (.isr (.lapIsr 0 ftf dmaErr)) y = h
  okBase : ∀ p act q, ok p (.base act) q
  okLap : ∀ p ftf dmaErr q, ok p (.isr (.lapIsr 0 ftf dmaErr)) q

variable {fft : Bool} {v v' : PumpView β} {h h' : η}

lemma Dsp.view_goto (x : Dsp β) (fft : Bool) (pc : PumpPc) :
    (x.goto pc).view fft = { x.view fft with pc := pc } := rfl

lemma Dsp.view_setOwner (x : Dsp β) (fft : Bool) (owner : ℤ) :
    (x.setOwner fft owner).view fft = { x.view fft with owner := owner } := by
  cases fft
  · rfl
  · rfl

lemma Dsp.view_store {x : Dsp β} (hsid : x.sid = 0) (fft : Bool) (s : AdcStream) :
    (x.store s).view fft = { x.view fft with stream := s } := by
  simp only [view, store, hsid, Adc.setStream, Function.update_self]
  cases fft
  · rfl
  · rfl

lemma Dsp.stream_of_view {x : Dsp β} (hsid : x.sid = 0) (hv : x.view fft = v) :
    x.stream = v.stream := by
  rw [← hv, stream, hsid]
  rfl

/-- One more step. -/
lemma Lane.step (hl : Lane mag upd init ok fft v h) (op : DspOp β) (hok : ∀ p q, ok p op q)
    (hstep : ∀ x : Dsp β, x.sid = 0 → x.view fft = v →
      ∃ y, dspStep mag x op = some y ∧ y.sid = 0 ∧ y.view fft = v' ∧ upd h x op y = h') :
    Lane mag upd init ok fft v' h' := by
  obtain ⟨x, hr, hsid, hv⟩ := hl
  obtain ⟨y, hy, hsid', hv', hnote⟩ := hstep x hsid hv
  exact ⟨y, .next op hr (withHistory_eq_some.mpr ⟨hy, hnote.symm⟩) (hok _ _), hsid', hv'⟩

/-- One more step of the pump. -/
lemma Lane.base (hl : Lane mag upd init ok fft v h) (hok : ∀ p act q, ok p (.base act) q)
    (act : PumpAct)
    (hstep : ∀ x : Dsp β, x.sid = 0 → x.view fft = v →
      ∃ y, x.pumpStep mag act = some y ∧ y.sid = 0 ∧ y.view fft = v' ∧
        upd h x (.base act) y = h') : Lane mag upd init ok fft v' h' :=
  hl.step (.base act) (fun p q => hok p act q) hstep

/-- A step of the way that only reads. -/
lemma Lane.goto (hl : Lane mag upd init ok fft v h) (hu : Unnoted upd ok) (act : PumpAct)
    {pc : PumpPc} (hearly : v.pc.early = true)
    (hstep : ∀ x : Dsp β, x.pc = v.pc → x.sid = 0 → x.stream = v.stream →
      x.adc.owner fft = v.owner → x.pumpStep mag act = some (x.goto pc)) :
    Lane mag upd init ok fft { v with pc := pc } h := by
  refine hl.base hu.okBase act fun x hsid hv => ?_
  have hgo := hstep x (congrArg PumpView.pc hv) hsid (Dsp.stream_of_view hsid hv)
    (congrArg PumpView.owner hv)
  refine ⟨_, hgo, hsid, ?_, hu.base h x act _ ?_⟩
  · rw [Dsp.view_goto, hv]
  · rw [← hv] at hearly
    exact hearly

/-- A step of the way that writes the stream. -/
lemma Lane.store (hl : Lane mag upd init ok fft v h) (hu : Unnoted upd ok) {s : AdcStream}
    {k : PumpPc} (hearly : v.pc.early = true)
    (hstep : ∀ x : Dsp β, x.pc = v.pc → x.stream = v.stream →
      x.go mag = some ((x.store s).goto k)) :
    Lane mag upd init ok fft { v with pc := k, stream := s } h := by
  refine hl.base hu.okBase .go fun x hsid hv => ?_
  have hgo := hstep x (congrArg PumpView.pc hv) (Dsp.stream_of_view hsid hv)
  refine ⟨_, hgo, hsid, ?_, hu.base h x .go _ ?_⟩
  · rw [Dsp.view_goto, Dsp.view_store hsid, hv]
  · rw [← hv] at hearly
    exact hearly

/-- A reload of the ring is counted. -/
lemma Lane.lap (hl : Lane mag upd init ok fft v h) (hu : Unnoted upd ok) :
    Lane mag upd init ok fft { v with stream := v.stream.lapped true false } h := by
  refine hl.step (.isr (.lapIsr 0 true false)) (fun p q => hu.okLap p true false q)
    fun x hsid hv => ⟨_, rfl, hsid, ?_, hu.lap h x _ true false⟩
  rw [← hv]
  simp only [Dsp.view, adcApply, adcLapIsr, Adc.setStream, Function.update_self]
  cases fft <;> rfl

/-! ### The way to the samples -/

/-- A stream whose pump has taken all of the first `T` samples. -/
structure AdcStream.Drained (s : AdcStream) (fft : Bool) (T : ℕ) : Prop where
  inUse : s.inUse = true
  dspBound : s.dspBound = true
  terminal : (s.dspTerminal == 3) = fft
  dmaErrorCount : s.dmaErrorCount = 0
  lapCount : s.lapCount = T / adcRingSamples % 2 ^ 32
  pumpPos : s.pumpPos = ⟨T / adcRingSamples % 2 ^ 32, T % adcRingSamples, true⟩
  pumpRawRead : s.pumpRawRead = T % 2 ^ 32

/-- The reloads counted when `T` samples have been deposited. -/
def AdcStream.withLaps (s : AdcStream) (T : ℕ) : AdcStream :=
  { s with lapCount := T / adcRingSamples % 2 ^ 32 }

/-- And the pump has counted them. -/
def AdcStream.counted (s : AdcStream) (T : ℕ) : AdcStream :=
  { s.withLaps T with pumpPos := ⟨T / adcRingSamples % 2 ^ 32, T % adcRingSamples, true⟩ }

variable {T n : ℕ}

lemma AdcStream.Drained.boundTo {s : AdcStream} (hs : s.Drained fft T) : s.boundTo fft = true :=
  AdcStream.boundTo_iff.mpr ⟨hs.inUse, hs.dspBound, hs.terminal⟩

/-- The pump finds its stream in order and goes to count the samples. -/
lemma Lane.visit (hl : Lane mag upd init ok fft v h) (hu : Unnoted upd ok)
    (hs : v.stream.Drained fft T) (hpc : v.pc = .idle) (howner : v.owner = 0) :
    Lane mag upd init ok fft { v with pc := .counting (.pass fft) } h := by
  have h₁ : Lane mag upd init ok fft { v with pc := .sawInUse } h := by
    refine hl.base hu.okBase (.visit 0) fun x hsid hv => ?_
    have hidle : x.pc = .idle := (congrArg PumpView.pc hv).trans hpc
    have hrun : (x.adc.streams 0).inUse = true := by
      have hstream : x.adc.streams 0 = v.stream := congrArg PumpView.stream hv
      rw [hstream]
      exact hs.inUse
    refine ⟨{ x with pc := .sawInUse, sid := 0 }, ?_, rfl, ?_, hu.base h x _ _ (by rw [hidle]; rfl)⟩
    · simp only [Dsp.pumpStep, hidle, hrun, if_true]
      rfl
    · rw [← hv]
      rfl
  have h₂ : Lane mag upd init ok fft { v with pc := .sawBound } h := by
    refine h₁.goto hu .go rfl fun x hx _ hstream _ => ?_
    simp only [Dsp.pumpStep, Dsp.go, hx, hstream, hs.dspBound, if_true]
  have h₃ : Lane mag upd init ok fft { v with pc := .entered fft } h := by
    refine h₂.goto hu .go rfl fun x hx _ hstream _ => ?_
    simp only [Dsp.pumpStep, Dsp.go, hx, hstream, hs.terminal]
  have h₄ : Lane mag upd init ok fft { v with pc := .checkOwner fft } h := by
    refine h₃.goto hu .go rfl fun x hx _ hstream _ => ?_
    simp only [Dsp.pumpStep, Dsp.go, hx, hstream, hs.dmaErrorCount, ne_eq, not_true_eq_false,
      if_false]
  refine h₄.goto hu .go rfl fun x hx hsid _ hown => ?_
  simp only [Dsp.pumpStep, Dsp.go, hx, hown, howner, hsid]
  rfl

/-- It counts them and stores its tracker. -/
lemma Lane.count (hl : Lane mag upd init ok fft v h) (hu : Unnoted upd ok)
    (hpc : v.pc = .counting (.pass fft)) {remaining total : ℕ} {pos : AdcDmaPos}
    (hcount : adcStreamTotalWritten v.stream.lapCount remaining v.stream.pumpPos = (total, pos)) :
    Lane mag upd init ok fft
      { v with pc := .weighing fft total, stream := { v.stream with pumpPos := pos } } h := by
  have hvalid : pos.valid = true := by
    simp only [adcStreamTotalWritten, Prod.mk.injEq] at hcount
    rw [← hcount.2]
  have h₁ : Lane mag upd init ok fft { v with pc := .storeLaps (.pass fft) pos total } h := by
    refine hl.goto hu (.count remaining) (by rw [hpc]; rfl) fun x hx _ hstream _ => ?_
    simp only [Dsp.pumpStep, hx.trans hpc, hstream, hcount]
  have h₂ := h₁.store hu (k := .storeW (.pass fft) pos total)
    (s := { v.stream with pumpPos := { v.stream.pumpPos with laps := pos.laps } }) rfl
    fun x hx hstream => by simp only [Dsp.go, hx, hstream]
  have h₃ := h₂.store hu (k := .storeValid (.pass fft) pos total)
    (s := { v.stream with pumpPos := { v.stream.pumpPos with laps := pos.laps, w := pos.w } }) rfl
    fun x hx hstream => by simp only [Dsp.go, hx, hstream]
  refine h₃.store hu rfl fun x hx hstream => ?_
  simp only [Dsp.go, hx, hstream, Dsp.counted, ← hvalid]

/-- Some more samples, less than a ring: it is reloaded at most once. -/
lemma Lane.deposit (hl : Lane mag upd init ok fft v h) (hu : Unnoted upd ok)
    (hs : v.stream.Drained fft T) (hn : n < adcRingSamples) :
    Lane mag upd init ok fft { v with stream := v.stream.withLaps (T + n) } h := by
  have hlap := hs.lapCount
  by_cases hsame : (T + n) / adcRingSamples = T / adcRingSamples
  · have heq : v.stream.withLaps (T + n) = v.stream := by
      rw [AdcStream.withLaps, hsame, ← hlap]
    rw [heq]
    exact hl
  · have hone : (v.stream.lapCount + 1) % 2 ^ 32 = (T + n) / adcRingSamples % 2 ^ 32 := by
      simp only [adcRingSamples] at hlap hsame hn ⊢
      omega
    have heq : v.stream.withLaps (T + n) = v.stream.lapped true false := by
      rw [AdcStream.withLaps, ← hone]
      rfl
    rw [heq]
    exact hl.lap hu

/-- What the pump counts then. -/
lemma AdcStream.Drained.total {s : AdcStream} (hs : s.Drained fft T) (hn : n < adcRingSamples) :
    adcStreamTotalWritten ((T + n) / adcRingSamples % 2 ^ 32)
        (adcRingSamples - (T + n) % adcRingSamples) s.pumpPos =
      ((T + n) % 2 ^ 32,
        ⟨(T + n) / adcRingSamples % 2 ^ 32, (T + n) % adcRingSamples, true⟩) := by
  have hw : adcStreamWriteIndex (adcRingSamples - (T + n) % adcRingSamples) =
      (T + n) % adcRingSamples := by
    have hlt : (T + n) % adcRingSamples < adcRingSamples := Nat.mod_lt _ (by decide)
    rw [adcStreamWriteIndex, if_neg (by omega)]
    omega
  have htotal : ((T + n) / adcRingSamples % 2 ^ 32 * adcRingSamples + (T + n) % adcRingSamples) %
      2 ^ 32 = (T + n) % 2 ^ 32 := by
    simp only [adcRingSamples]
    omega
  -- the index runs backwards only when a reload has been counted
  have hforward : ¬ ((T + n) / adcRingSamples % 2 ^ 32 = T / adcRingSamples % 2 ^ 32 ∧
      (T + n) % adcRingSamples < T % adcRingSamples) := by
    simp only [adcRingSamples] at hn ⊢
    omega
  simp only [adcStreamTotalWritten, hw, htotal, hs.pumpPos, true_and, if_neg hforward]

/-- A visit that finds `n` more samples comes to its work on them. -/
lemma Lane.arrive (hl : Lane mag upd init ok fft v h) (hu : Unnoted upd ok)
    (hs : v.stream.Drained fft T) (hpc : v.pc = .idle) (howner : v.owner = 0) (hpos : 0 < n)
    (hn : n < adcRingSamples) :
    Lane mag upd init ok fft { v with
      pc := if fft then .sampling n else .leasing n, stream := v.stream.counted (T + n) } h := by
  have hcounting := (hl.visit hu hs hpc howner).deposit hu hs hn
  have hweighing := hcounting.count hu rfl (hs.total hn)
  refine hweighing.goto hu .go rfl fun x hx _ hstream _ => ?_
  have havail : int32Sub ((T + n) % 2 ^ 32) x.stream.pumpRawRead = n := by
    have hraw : x.stream.pumpRawRead = T % 2 ^ 32 := by
      rw [hstream]
      exact hs.pumpRawRead
    have hsmall : n % 2 ^ 32 = n := Nat.mod_eq_of_lt (by simp only [adcRingSamples] at hn; omega)
    rw [hraw, int32Sub_mod (Nat.le_add_right T n), Nat.add_sub_cancel_left, hsmall, if_pos]
    simp only [adcRingSamples] at hn
    omega
  have hsome : ¬ (n : ℤ) ≤ 0 := by omega
  have hring : ¬ (n : ℤ) ≥ adcRingSamples := by omega
  simp only [Dsp.pumpStep, Dsp.go, hx, Dsp.weigh, havail, if_neg hsome, if_neg hring,
    Int.toNat_natCast]

end Gd32Bridge
