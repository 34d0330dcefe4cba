import Gd32Bridge.Protocol.Hal
import Mathlib.Data.List.Basic
import Mathlib.Tactic.Common

/-!
# The DSP chain pool

`hal/gd32/adc_dsp_chain.c`: a stage is uploaded in chunks, a chain is four stages, and binding
checks the shape of a chain before it goes live.  Sizes and indices are natural numbers, the
coverage bitmap is a predicate on byte positions.
-/

namespace Gd32Bridge

/-- `BRIDGE_DSP_MAX_CHAINS` -/
def dspMaxChains : ℕ := 4
/-- `BRIDGE_DSP_MAX_STAGES` -/
def dspMaxStages : ℕ := 4
/-- `BRIDGE_DSP_MAX_STAGE_BYTES` -/
def dspMaxStageBytes : ℕ := 260
/-- `BRIDGE_DSP_KIND_MAX` -/
def dspKindMax : ℕ := 3
/-- `BRIDGE_DSP_MAX_FIR_TAPS` -/
def dspMaxFirTaps : ℕ := 64
/-- `BRIDGE_DSP_MAX_IIR_SECTIONS` -/
def dspMaxIirSections : ℕ := 8
/-- `BRIDGE_DSP_MIN_FFT_POINTS` -/
def dspMinFftPoints : ℕ := 32
/-- `BRIDGE_DSP_MAX_FFT_POINTS` -/
def dspMaxFftPoints : ℕ := 1024
/-- `BRIDGE_DSP_COEFF_FMT_MAX` -/
def dspCoeffFmtMax : ℕ := 1
/-- `BRIDGE_DSP_WINDOW_SHAPE_MAX` -/
def dspWindowShapeMax : ℕ := 3
/-- `BRIDGE_DSP_FFT_OUT_FMT_MAX` -/
def dspFftOutFmtMax : ℕ := 2
/-- `BRIDGE_DSP_STAGE_HDR_BYTES` -/
def dspStageHdrBytes : ℕ := 4

/-- `adc_dsp_stage_t`; the kinds are 0 FIR, 1 IIR, 2 WINDOW, 3 FFT. -/
structure DspStage where
  kind : ℕ
  totalSize : ℕ
  bytesReceived : ℕ
  complete : Bool
  coverage : ℕ → Bool
  data : ℕ → UInt8

/-- A stage of zeros. -/
def DspStage.zero : DspStage := ⟨0, 0, 0, false, fun _ => false, fun _ => 0⟩

/-- `adc_dsp_chain_t` -/
structure DspChain where
  inUse : Bool
  bound : Bool
  stages : ℕ → DspStage

/-- The chain as `.bss` holds it at boot. -/
def DspChain.zero : DspChain := ⟨false, false, fun _ => .zero⟩

/-! ### The payload check -/

/-- The little-endian `n_points` field of an FFT stage. -/
def DspStage.nPoints (st : DspStage) : ℕ := (st.data 0).toNat + 256 * (st.data 1).toNat

/-- `adc_dsp_stage_blob_valid` -/
def DspStage.blobValid (st : DspStage) : Bool :=
  if st.totalSize < dspStageHdrBytes then false
  else
    match st.kind with
    | 0 =>
      let fmt := (st.data 0).toNat
      let nTaps := (st.data 1).toNat
      if fmt > dspCoeffFmtMax then false
      else if nTaps = 0 ∨ nTaps > dspMaxFirTaps then false
      else st.totalSize == dspStageHdrBytes + nTaps * 4
    | 1 =>
      let fmt := (st.data 0).toNat
      let nSec := (st.data 1).toNat
      if fmt > dspCoeffFmtMax then false
      else if nSec = 0 ∨ nSec > dspMaxIirSections then false
      else st.totalSize == dspStageHdrBytes + nSec * 5 * 4
    | 2 =>
      if (st.data 0).toNat > dspWindowShapeMax then false
      else st.totalSize == dspStageHdrBytes
    | 3 =>
      let outFmt := (st.data 2).toNat
      if outFmt > dspFftOutFmtMax then false
      else if st.nPoints < dspMinFftPoints ∨ st.nPoints > dspMaxFftPoints then false
      else if st.nPoints &&& (st.nPoints - 1) ≠ 0 then false
      else st.totalSize == dspStageHdrBytes
    | _ => false

/-- A stage that has been seeded. -/
def DspStage.Populated (st : DspStage) : Prop := st.totalSize ≠ 0

instance (st : DspStage) : Decidable st.Populated := inferInstanceAs (Decidable (_ ≠ _))

/-! ### Uploading a stage -/

/-- The metadata step of `bridge_hw_adc_dsp_stage_push`: the first chunk seeds the stage, a chunk
at offset zero with other metadata restarts it, any other disagreement is refused. -/
def DspStage.seed (st : DspStage) (kind offset total : ℕ) : Option DspStage :=
  if st.totalSize = 0 then
    some { st with kind, totalSize := total, bytesReceived := 0, complete := false }
  else if st.kind ≠ kind ∨ st.totalSize ≠ total then
    if offset ≠ 0 then none else some { DspStage.zero with kind, totalSize := total }
  else some st

/-- Some byte of the chunk differs from one received before. -/
def DspStage.conflicting (st : DspStage) : ℕ → List UInt8 → Bool
  | _, [] => false
  | offset, b :: bs =>
    (st.coverage offset && st.data offset != b) || st.conflicting (offset + 1) bs

/-- `adc_dsp_stage_mark_byte_received` after the byte is stored. -/
def DspStage.receive (st : DspStage) (offset : ℕ) (b : UInt8) : DspStage :=
  if st.coverage offset then st
  else
    { st with
      data := Function.update st.data offset b
      coverage := Function.update st.coverage offset true
      bytesReceived := st.bytesReceived + 1 }

/-- The copy loop of `bridge_hw_adc_dsp_stage_push`. -/
def DspStage.fill (st : DspStage) : ℕ → List UInt8 → DspStage
  | _, [] => st
  | offset, b :: bs => (st.receive offset b).fill (offset + 1) bs

/-- The last line of `bridge_hw_adc_dsp_stage_push`. -/
def DspStage.close (st : DspStage) : DspStage :=
  { st with complete := st.bytesReceived == st.totalSize }

/-- `bridge_hw_adc_dsp_stage_push` from the point where the stage is known. -/
def DspStage.push (st : DspStage) (kind offset total : ℕ) (chunk : List UInt8) :
    DspStage × HwRv :=
  match st.seed kind offset total with
  | none => (st, .inval)
  | some st' =>
    if st'.conflicting offset chunk then
      if offset ≠ 0 ∨ chunk.length ≠ total then (st', .inval)
      else (({ DspStage.zero with kind, totalSize := total }.fill offset chunk).close, .ok)
    else ((st'.fill offset chunk).close, .ok)

/-! ### What the runtime can realise -/

/-- The index of the last populated FFT stage among the stages listed. -/
def fftIndex (stages : ℕ → DspStage) : List ℕ → Option ℕ → Option ℕ
  | [], acc => acc
  | i :: is, acc =>
    fftIndex stages is (if (stages i).Populated ∧ (stages i).kind = 3 then some i else acc)

/-- `adc_dsp_chain_p1_capable` -/
def adcDspChainP1Capable (stages : ℕ → DspStage) : Bool :=
  let idx := (List.range dspMaxStages).filter fun i => (stages i).Populated
  if ¬ idx.all fun i => (stages i).blobValid then false
  else
    match fftIndex stages (List.range dspMaxStages) none with
    | some f =>
      if ¬ idx.all fun i => (stages i).kind == 3 || (stages i).kind == 2 then false
      else decide (dspMinFftPoints ≤ (stages f).nPoints ∧ (stages f).nPoints ≤ dspMaxFftPoints)
    | none =>
      if idx.length ≠ 1 then false
      else idx.all fun i => (stages i).kind != 1 || (stages i).data 1 == 1

/-! ### The structural checks of a bind -/

/-- The three indices the loop of `bridge_hw_adc_dsp_chain_bind` carries. -/
structure BindScan where
  fft : Option ℕ
  window : Option ℕ
  last : Option ℕ
deriving DecidableEq, Repr

/-- One turn of that loop. -/
def bindStep (stages : ℕ → DspStage) (acc : BindScan) (i : ℕ) : Option BindScan :=
  if ¬ (stages i).Populated then some acc
  else if ¬ (stages i).complete then none
  else if ¬ (stages i).blobValid then none
  else if acc.last.any fun j => i - j ≠ 1 then none
  else if (stages i).kind = 3 then
    if acc.fft.isSome then none else some { acc with last := some i, fft := some i }
  else if (stages i).kind = 2 then
    if acc.window.isSome then none else some { acc with last := some i, window := some i }
  else some { acc with last := some i }

/-- The checks after the loop: the index of the terminal stage, or a refusal. -/
def bindTail (acc : BindScan) : Option ℕ :=
  match acc.last with
  | none => none
  | some last =>
    match acc.fft with
    | some f =>
      if f ≠ last then none
      else if acc.window.any fun w => f = 0 ∨ w ≠ f - 1 then none
      else some last
    | none => if acc.window.isSome then none else some last

/-- The structural part of `bridge_hw_adc_dsp_chain_bind`. -/
def bindScan (stages : ℕ → DspStage) : Option ℕ :=
  ((List.range dspMaxStages).foldlM (bindStep stages) ⟨none, none, none⟩).bind bindTail

end Gd32Bridge
