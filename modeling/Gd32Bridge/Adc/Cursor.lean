import Gd32Bridge.Adc.Rules
import Gd32Bridge.Lib.Transition

/-!
# The raw read cursor and the read total

`read_idx` is the slot and `total_read` the number of the sample that is served next; they agree
modulo the ring as long as every branch of a read moves them together.
-/

namespace Gd32Bridge

open Transition

/-! ### Moving the two together -/

/-- The slot served next is the one of sample number `totalRead`. -/
def AdcStream.CursorAgrees (s : AdcStream) : Prop :=
  s.readIdx < adcRingSamples ∧ s.readIdx % adcRingSamples = s.totalRead % adcRingSamples

/-- Nothing else of the stream matters. -/
lemma AdcStream.CursorAgrees.congr {s s' : AdcStream} (h : s.CursorAgrees)
    (hidx : s'.readIdx = s.readIdx) (htotal : s'.totalRead = s.totalRead) : s'.CursorAgrees := by
  simpa only [CursorAgrees, hidx, htotal] using h

lemma adcStreamWriteIndex_lt (remaining : ℕ) : adcStreamWriteIndex remaining < adcRingSamples := by
  simp only [adcStreamWriteIndex]
  split_ifs with h
  · decide
  · simp only [adcRingSamples] at h ⊢
    omega

/-- The total is the write index, up to whole laps. -/
lemma adcStreamTotalWritten_mod (lapCount remaining : ℕ) (trk : AdcDmaPos) :
    (adcStreamTotalWritten lapCount remaining trk).1 % adcRingSamples =
      adcStreamWriteIndex remaining := by
  have hw := adcStreamWriteIndex_lt remaining
  simp only [adcStreamTotalWritten, adcRingSamples] at hw ⊢
  split <;> omega

/-- The copy loop moves the cursor by one slot a sample. -/
lemma copyRaw_snd (env : ReadEnv) (fullScale n i : ℕ) {readIdx : ℕ}
    (h : readIdx < adcRingSamples) :
    (copyRaw env fullScale n i readIdx).2 = (readIdx + n) % adcRingSamples := by
  induction n generalizing i readIdx with
  | zero => simp only [copyRaw, Nat.add_zero, Nat.mod_eq_of_lt h]
  | succ n ih =>
    have hnext : (readIdx + 1) % adcRingSamples < adcRingSamples := Nat.mod_lt _ (by decide)
    rw [copyRaw, ih (i + 1) hnext, Nat.mod_add_mod]
    congr 1
    omega

lemma AdcStream.latchDmaError_cursor {s : AdcStream} (h : s.CursorAgrees) (dmaErr : Bool) :
    (s.latchDmaError dmaErr).CursorAgrees := by
  cases dmaErr
  · exact h
  · exact h.congr rfl rfl

@[simp]
lemma AdcStream.latchDmaError_dspBound (s : AdcStream) (dmaErr : Bool) :
    (s.latchDmaError dmaErr).dspBound = s.dspBound := by
  cases dmaErr <;> rfl

lemma AdcStream.reanchor_cursor (s : AdcStream) (w : ℕ) : (s.reanchor w).CursorAgrees := by
  simp only [CursorAgrees, reanchor, adcRingSamples]
  omega

/-! ### A read -/

/-- The DMA counter gives the same write index at both reads of it. -/
def ReadEnv.Still (env : ReadEnv) : Prop :=
  adcStreamWriteIndex (env.remaining 0) = adcStreamWriteIndex (env.remaining 1)

/-- In an overrun the slot comes from the second read of the counter, the total from the first. -/
lemma AdcStream.resync_cursor (s : AdcStream) (env : ReadEnv) :
    (s.resync env).CursorAgrees ↔ env.Still := by
  have hmod := adcStreamTotalWritten_mod s.lapCount (env.remaining 0) s.rdPos
  have hw := adcStreamWriteIndex_lt (env.remaining 1)
  simp only [CursorAgrees, resync, ReadEnv.Still, hmod, Nat.mod_eq_of_lt hw]
  exact ⟨fun h => h.2.symm, fun h => ⟨hw, h.symm⟩⟩

lemma AdcStream.consumed_cursor {s : AdcStream} (h : s.CursorAgrees) (env : ReadEnv) (n : ℕ) :
    (s.consumed env n).CursorAgrees := by
  obtain ⟨hlt, hmod⟩ := h
  simp only [CursorAgrees, consumed, copyRaw_snd env s.fullScale n 0 hlt]
  simp only [adcRingSamples] at hmod ⊢
  omega

lemma AdcStream.readRaw_cursor {s : AdcStream} (h : s.CursorAgrees) (env : ReadEnv)
    (maxSamples : ℕ) : (s.readRaw env maxSamples).hw.CursorAgrees ↔
      (s.backlog env ≥ adcRingSamples → env.Still) := by
  by_cases hle : s.backlog env ≤ 0
  · simp only [readRaw, if_pos hle]
    refine iff_of_true (h.congr rfl rfl) fun hover => absurd (Int.le_trans hover hle) ?_
    decide
  by_cases hover : s.backlog env ≥ adcRingSamples
  · simp only [readRaw, if_neg hle, if_pos hover]
    rw [resync_cursor]
    exact ⟨fun hs _ => hs, fun hs => hs hover⟩
  · simp only [readRaw, if_neg hle, if_neg hover]
    exact iff_of_true (consumed_cursor h env _) fun hge => absurd hge hover

/-- The filtered plane leaves the raw cursor alone. -/
lemma AdcStream.readProc_cursor {s : AdcStream} (h : s.CursorAgrees) (env : ReadEnv)
    (maxSamples : ℕ) : (s.readProc env maxSamples).hw.CursorAgrees := by
  have hserved (n : ℕ) : (s.procServed n).CursorAgrees := h.congr rfl rfl
  simp only [readProc]
  split
  · exact h
  split
  · exact h
  split
  · exact h
  split
  · exact h.congr rfl rfl
  split
  · exact h
  split
  · exact h.congr rfl rfl
  · exact hserved _

/-- The raw plane is served, and takes the overrun branch. -/
def AdcStream.Overruns (s : AdcStream) (env : ReadEnv) : Prop :=
  s.dmaErrorCount = 0 ∧ env.rovf = false ∧ s.dspBound = false ∧ s.backlog env ≥ adcRingSamples

lemma AdcStream.serve_cursor {s : AdcStream} (h : s.CursorAgrees) (env : ReadEnv)
    (maxSamples : ℕ) :
    (s.serve env maxSamples).hw.CursorAgrees ↔ (s.Overruns env → env.Still) := by
  simp only [serve, Overruns]
  by_cases herr : s.dmaErrorCount ≠ 0
  · rw [if_pos herr]
    exact iff_of_true h fun hover => absurd hover.1 herr
  rw [if_neg herr]
  cases env.rovf with
  | true =>
    rw [if_pos rfl]
    exact iff_of_true (reanchor_cursor _ _) fun hover => absurd hover.2.1 Bool.noConfusion
  | false =>
    rw [if_neg Bool.false_ne_true]
    cases s.dspBound with
    | true =>
      rw [if_pos rfl]
      exact iff_of_true (readProc_cursor h env maxSamples) fun hover =>
        absurd hover.2.2.1 Bool.noConfusion
    | false =>
      rw [if_neg Bool.false_ne_true]
      refine (readRaw_cursor h env maxSamples).trans ?_
      exact ⟨fun hs hover => hs hover.2.2.2, fun hs hover => hs ⟨not_not.mp herr, rfl, rfl, hover⟩⟩

/-- A read of a running stream, with the error flag latched first. -/
lemma AdcStream.read_cursor {s : AdcStream} (hrun : s.inUse = true) (h : s.CursorAgrees)
    (env : ReadEnv) (maxSamples : ℕ) :
    (s.read env maxSamples).hw.CursorAgrees ↔
      ((s.latchDmaError env.dmaErr).Overruns env → env.Still) := by
  have hread : s.read env maxSamples = (s.latchDmaError env.dmaErr).serve env maxSamples :=
    if_neg (not_not.mpr hrun)
  rw [hread]
  exact serve_cursor (latchDmaError_cursor h env.dmaErr) env maxSamples

/-! ### Runs -/

/-- The cursors of every stream that runs without a chain. -/
def Adc.CursorOk (a : Adc) : Prop :=
  ∀ id < bridgeAdcStreamCount, (a.streams id).inUse = true → (a.streams id).dspBound = false →
    (a.streams id).CursorAgrees

/-- In an overrun the counter stands still between the two reads of it. -/
def CursorStill (a : Adc) (op : AdcOp) (_ : Adc) : Prop :=
  match op with
  | .streamRead env id _ =>
    id < bridgeAdcStreamCount → (a.streams id).inUse = true →
      ((a.streams id).latchDmaError env.dmaErr).Overruns env → env.Still
  | _ => True

/-- The invariant also covers the streams with a chain, whose cursor is parked. -/
def Adc.CursorInv (a : Adc) : Prop :=
  ∀ id, (a.streams id).inUse = true → (a.streams id).CursorAgrees

lemma Adc.CursorInv.setStream {a : Adc} (h : a.CursorInv) {i : ℕ} {s : AdcStream}
    (hs : s.inUse = true → s.CursorAgrees) : (a.setStream i s).CursorInv := by
  intro id hrun
  simp only [setStream_streams] at hrun ⊢
  by_cases hi : id = i
  · subst hi
    rw [Function.update_self] at hrun ⊢
    exact hs hrun
  · rw [Function.update_of_ne hi] at hrun ⊢
    exact h id hrun

lemma AdcStream.lapped_cursor {s : AdcStream} (h : s.CursorAgrees) (ftf dmaErr : Bool) :
    (s.lapped ftf dmaErr).CursorAgrees := by
  refine latchDmaError_cursor ?_ dmaErr
  cases ftf
  · exact h
  · exact h.congr rfl rfl

/-- One step. -/
lemma Adc.CursorInv.step {a a' : Adc} {op : AdcOp} (h : a.CursorInv)
    (hs : adcStep a op = some a') (hok : CursorStill a op a') : a'.CursorInv := by
  cases AdcRule.of_step hs with
  | same => exact h
  | opened => exact h
  | pushed => exact h
  | refused => exact fun id hrun => by simpa using h id (by simpa using hrun)
  | @attached chain id last _ _ _ _ _ hrun =>
    exact h.setStream fun _ => (h id hrun).congr rfl rfl
  | started => exact h.setStream fun _ => ⟨(by decide : 0 < adcRingSamples), rfl⟩
  | @read env id maxSamples hid =>
    refine h.setStream fun hrun => ?_
    rw [(AdcStream.read_binding _ env maxSamples).inUse] at hrun
    exact (AdcStream.read_cursor hrun (h id hrun) env maxSamples).mpr (hok hid hrun)
  | @ended env id =>
    intro i hrun
    rw [endStream_streams] at hrun ⊢
    by_cases hi : i = id
    · subst hi
      rw [Function.update_self] at hrun
      exact absurd hrun Bool.noConfusion
    · rw [Function.update_of_ne hi] at hrun ⊢
      exact h i hrun
  | @lapped id ftf dmaErr =>
    refine h.setStream fun hrun => AdcStream.lapped_cursor (h id ?_) ftf dmaErr
    rwa [(AdcStream.lapped_binding _ ftf dmaErr).inUse] at hrun
  | @pumped id p =>
    exact h.setStream fun hrun => (h id hrun).congr rfl rfl

/-- A read that leaves the cursors together either takes no overrun or found the counter still. -/
lemma CursorStill.of_cursorOk {a a' : Adc} {op : AdcOp} (h : a.CursorInv)
    (hs : adcStep a op = some a') (hok : a'.CursorOk) : CursorStill a op a' := by
  cases op with
  | streamRead env id maxSamples =>
    intro hid hrun hover
    obtain rfl : (adcStreamRead a env id maxSamples).hw = a' := by
      simpa only [adcStep, adcApply, Option.some.injEq] using hs
    have hbind := AdcStream.read_binding (a.streams id) env maxSamples
    have hstream : (adcStreamRead a env id maxSamples).hw.streams id =
        ((a.streams id).read env maxSamples).hw := by
      simp only [adcStreamRead, if_neg (Nat.not_le_of_lt hid)]
      exact Function.update_self ..
    have hfree : (a.streams id).dspBound = false := by
      simpa only [AdcStream.latchDmaError_dspBound] using hover.2.2.1
    have hagree := hok id hid
    rw [hstream, hbind.inUse, hbind.dspBound] at hagree
    exact (AdcStream.read_cursor hrun (h id hrun) env maxSamples).mp (hagree hrun hfree) hover
  | _ => trivial

/-- As long as no overrun sees the counter move, `read_idx` and `total_read` name the same sample
of every stream that runs without a chain; and a step from such a run breaks this exactly when it
is an overrun that does. -/
theorem raw_cursor_congruent {a : Adc} (h : Reach adcStep (· = Adc.boot) CursorStill a) :
    a.CursorOk ∧ ∀ op a', adcStep a op = some a' → (a'.CursorOk ↔ CursorStill a op a') := by
  have hinv : a.CursorInv := by
    apply Reach.invariant (I := Adc.CursorInv) ?_ ?_ h
    · rintro _ rfl id hrun
      exact absurd hrun Bool.noConfusion
    · intro s op s' _ hI hs hok
      exact hI.step hs hok
  refine ⟨fun id _ hrun _ => hinv id hrun, fun op a' hs => ⟨fun hok => ?_, fun hok => ?_⟩⟩
  · exact .of_cursorOk hinv hs hok
  · exact fun id _ hrun _ => hinv.step hs hok id hrun

/-- Stream 0 on channel 0 at 1 kHz, started on a healthy converter. -/
def beginStream0 : AdcOp := .streamBegin ⟨true, true, true, true, 12⟩ 0 0 1000

/-- What a healthy read meets when the counter gives `r₀` and then `r₁`. -/
def readEnvAt (r₀ r₁ : ℕ) : ReadEnv :=
  ⟨false, false, true, fun k => if k = 0 then r₀ else r₁, fun _ _ => 0, 3300⟩

/-- A test for `CursorStill`. -/
def cursorStillCheck (op : AdcOp) : Bool :=
  match op with
  | .streamRead env _ _ =>
    adcStreamWriteIndex (env.remaining 0) == adcStreamWriteIndex (env.remaining 1)
  | _ => true

lemma CursorStill.of_check {a a' : Adc} {op : AdcOp} (h : cursorStillCheck op = true) :
    CursorStill a op a' := by
  cases op with
  | streamRead env id maxSamples => exact fun _ _ _ => beq_iff_eq.mp h
  | _ => trivial

/-- An overrun of a still counter, and what it reaches. -/
theorem raw_cursor_congruent_overrun :
    ∃ a, Reach adcStep (· = Adc.boot) CursorStill a ∧ (a.streams 0).totalRead = 1024 ∧
      a.CursorOk ∧ ∀ op a', adcStep a op = some a' → (a'.CursorOk ↔ CursorStill a op a') := by
  have hinit : Reach adcStep (· = Adc.boot) CursorStill Adc.boot := .start rfl
  obtain ⟨a, ha, hq⟩ := hinit.exists_of_run (fun _ op _ => cursorStillCheck op)
    (fun a => (a.streams 0).totalRead == 1024)
    [beginStream0, .lapIsr 0 true false, .streamRead (readEnvAt 1024 1024) 0 32]
    (fun _ _ _ h => .of_check h) (by decide)
  exact ⟨a, ha, beq_iff_eq.mp hq, raw_cursor_congruent ha⟩

/-- The DMA deposits one sample between the two reads of its counter: `total_read` is 1024 and
`read_idx` 1. -/
theorem raw_cursor_splits :
    ∃ a, Reach adcStep (· = Adc.boot) (fun _ _ _ => True) a ∧ ¬ a.CursorOk := by
  have hinit : Reach adcStep (· = Adc.boot) (fun _ _ _ => True) Adc.boot := .start rfl
  obtain ⟨a, ha, hq⟩ := hinit.exists_of_run (fun _ _ _ => true)
    (fun a => (a.streams 0).inUse && !(a.streams 0).dspBound &&
      (a.streams 0).readIdx % adcRingSamples != (a.streams 0).totalRead % adcRingSamples)
    [beginStream0, .lapIsr 0 true false, .streamRead (readEnvAt 1024 1023) 0 32]
    (fun _ _ _ _ => trivial) (by decide)
  simp only [Bool.and_eq_true, Bool.not_eq_true', bne_iff_ne] at hq
  exact ⟨a, ha, fun hok => hq.2 (hok 0 (by decide) hq.1.1 hq.1.2).2⟩

end Gd32Bridge
