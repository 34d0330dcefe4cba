import Gd32Bridge.Adc.Chain
import Mathlib.Data.Int.Init

/-!
# ADC streams

The stream table of `hal/gd32/adc_stream.c` and the commands on it: `adc_stream_begin`,
`adc_stream_read`, `adc_stream_end`, the lap interrupt, and the chain commands, which write both
the pool and the table.  Counters are natural numbers reduced modulo `2 ^ 32` where the source
lets them wrap; what a call meets in the hardware is handed to it.
-/

namespace Gd32Bridge

/-- `BRIDGE_ADC_STREAM_RING_SAMPLES` -/
def adcRingSamples : ℕ := 1024
/-- `BRIDGE_ADC_STREAM_COUNT` -/
def bridgeAdcStreamCount : ℕ := 2
/-- `BRIDGE_ADC_STREAM_RATE_MAX_HZ` -/
def adcStreamRateMaxHz : ℕ := 100000
/-- `ADC_CHANNEL_MAP_COUNT` -/
def adcChannelMapCount : ℕ := 8

/-- `adc_dma_pos_t` -/
structure AdcDmaPos where
  laps : ℕ
  w : ℕ
  valid : Bool
deriving DecidableEq, Repr

/-- `adc_stream_state_t`, without the DMA ring itself and the three peripheral handles that
`adc_stream_begin` derives from the stream's index. -/
structure AdcStream where
  inUse : Bool
  channel : ℕ
  fullScale : ℕ
  readIdx : ℕ
  lapCount : ℕ
  dmaErrorCount : ℕ
  totalRead : ℕ
  rdPos : AdcDmaPos
  pumpPos : AdcDmaPos
  dspChainId : ℕ
  dspBound : Bool
  procRing : ℕ → UInt16
  procWrite : ℕ
  procRead : ℕ
  procGap : Bool
  pumpRawRead : ℕ
  dspTerminal : ℕ
  dspCfgBad : Bool
  dspSat : Bool

/-- The slot as `.bss` holds it at boot. -/
def AdcStream.zero : AdcStream :=
  ⟨false, 0, 0, 0, 0, 0, 0, ⟨0, 0, false⟩, ⟨0, 0, false⟩, 0, false, fun _ => 0, 0, 0, false, 0, 0,
    false, false⟩

/-- The stream table, the chain pool, and the owner bytes of the two single-instance blocks with
the publication fields of the FFT. -/
structure Adc where
  streams : ℕ → AdcStream
  chains : ℕ → DspChain
  facOwner : ℤ
  fftOwner : ℤ
  fftFill : ℕ
  fftSeq : ℕ
  fftNbins : ℕ

/-- `ADC_DSP_OWNER_NONE` -/
def adcDspOwnerNone : ℤ := -1

/-- The state at boot. -/
def Adc.boot : Adc :=
  ⟨fun _ => .zero, fun _ => .zero, adcDspOwnerNone, adcDspOwnerNone, 0, 0, 0⟩

def Adc.setStream (a : Adc) (id : ℕ) (s : AdcStream) : Adc :=
  { a with streams := Function.update a.streams id s }

def Adc.setChain (a : Adc) (id : ℕ) (c : DspChain) : Adc :=
  { a with chains := Function.update a.chains id c }

/-! ### The writer's position -/

/-- `adc_stream_write_index`, from the remaining count of the DMA channel. -/
def adcStreamWriteIndex (remaining : ℕ) : ℕ :=
  if remaining = 0 ∨ remaining > adcRingSamples then 0 else adcRingSamples - remaining

/-- `adc_stream_total_written`: the corrected total and the tracker it leaves. -/
def adcStreamTotalWritten (lapCount remaining : ℕ) (trk : AdcDmaPos) : ℕ × AdcDmaPos :=
  let w := adcStreamWriteIndex remaining
  let total := (lapCount * adcRingSamples + w) % 2 ^ 32
  (if trk.valid ∧ lapCount = trk.laps ∧ w < trk.w then (total + adcRingSamples) % 2 ^ 32
   else total, ⟨lapCount, w, true⟩)

/-- The cast to `int32_t` of a difference of two `uint32_t`. -/
def int32Sub (a b : ℕ) : ℤ :=
  let d : ℕ := (a + 2 ^ 32 - b) % 2 ^ 32
  if d < 2 ^ 31 then d else (d : ℤ) - 2 ^ 32

/-! ### BEGIN -/

/-- The converter of each channel, `adc_channels_map[].periph`. -/
def adcChannelPeriph : ℕ → ℕ
  | 0 | 1 => 3
  | 2 | 3 => 2
  | 4 | 5 => 1
  | _ => 0

/-- `adc_full_scale_for_bits` -/
def adcFullScaleForBits : ℕ → ℕ
  | 10 => 1023
  | 8 => 255
  | 6 => 63
  | _ => 4095

/-- What `adc_stream_begin` meets: `vref_ready_check`, `adc_stream_dma_disable_confirm`,
`adc_periph_claim`, `adc_calibrate_bounded` and the cached resolution of the channel. -/
structure BeginEnv where
  vrefReady : Bool
  dmaDisabled : Bool
  periphClaimed : Bool
  calibrated : Bool
  resolutionBits : ℕ
deriving DecidableEq, Repr

/-- Some other running stream samples with the converter of `channel`. -/
def Adc.converterTaken (a : Adc) (id channel : ℕ) : Bool :=
  (List.range bridgeAdcStreamCount).any fun i =>
    i != id && (a.streams i).inUse &&
      adcChannelPeriph (a.streams i).channel == adcChannelPeriph channel

/-- The session fields as `adc_stream_begin` leaves them. -/
def AdcStream.started (s : AdcStream) (channel : ℕ) (resolutionBits : ℕ) : AdcStream :=
  { s with
    channel, fullScale := adcFullScaleForBits resolutionBits, readIdx := 0, totalRead := 0,
    dspChainId := 0, dspBound := false, procGap := false, dspCfgBad := false, dspSat := false,
    lapCount := 0, dmaErrorCount := 0, rdPos := { s.rdPos with valid := false },
    pumpPos := { s.pumpPos with valid := false }, inUse := true }

/-- `bridge_hw_adc_stream_begin` -/
def adcStreamBegin (a : Adc) (env : BeginEnv) (id channel rate : ℕ) : HwResult Adc Unit :=
  if id ≥ bridgeAdcStreamCount then ⟨a, .range, ()⟩
  else if channel ≥ adcChannelMapCount then ⟨a, .range, ()⟩
  else if rate = 0 then ⟨a, .inval, ()⟩
  else if rate > adcStreamRateMaxHz then ⟨a, .range, ()⟩
  else if ¬ env.vrefReady then ⟨a, .io, ()⟩
  else if (a.streams id).inUse then ⟨a, .inval, ()⟩
  else if a.converterTaken id channel then ⟨a, .inval, ()⟩
  else if ¬ env.dmaDisabled then ⟨a, .io, ()⟩
  else if ¬ env.periphClaimed then ⟨a, .busy, ()⟩
  else if ¬ env.calibrated then ⟨a, .io, ()⟩
  else ⟨a.setStream id ((a.streams id).started channel env.resolutionBits), .ok, ()⟩

/-! ### READ -/

/-- What `adc_stream_read` meets: the error flag of the DMA channel, `ADC_FLAG_ROVF`, the verdict
of `adc_stream_recover_rovf`, the remaining count of the DMA channel at each read of it, the ring
as each copied sample finds it, and the reference in millivolts. -/
structure ReadEnv where
  dmaErr : Bool
  rovf : Bool
  recovered : Bool
  remaining : ℕ → ℕ
  ring : ℕ → ℕ → UInt16
  vrefMv : ℕ

/-- `adc_stream_latch_dma_error` -/
def AdcStream.latchDmaError (s : AdcStream) (dmaErr : Bool) : AdcStream :=
  if dmaErr then { s with dmaErrorCount := (s.dmaErrorCount + 1) % 2 ^ 32 } else s

/-- A code clamped to full scale, in millivolts. -/
def codeMv (fullScale vrefMv : ℕ) (code : UInt16) : UInt16 :=
  .ofNat (min code.toNat fullScale * vrefMv / fullScale)

/-- The ROVF branch of `adc_stream_read`. -/
def AdcStream.reanchor (s : AdcStream) (w : ℕ) : AdcStream :=
  let total := (s.lapCount * adcRingSamples + w) % 2 ^ 32
  { s with
    rdPos := { s.rdPos with valid := false }, pumpPos := { s.pumpPos with valid := false },
    readIdx := w % adcRingSamples, totalRead := total, pumpRawRead := total }

/-- The raw copy loop: the samples from the `i`-th on and the cursor after them. -/
def copyRaw (env : ReadEnv) (fullScale : ℕ) : ℕ → ℕ → ℕ → List UInt16 × ℕ
  | 0, _, readIdx => ([], readIdx)
  | n + 1, i, readIdx =>
    let rest := copyRaw env fullScale n (i + 1) ((readIdx + 1) % adcRingSamples)
    (codeMv fullScale env.vrefMv (env.ring i readIdx) :: rest.1, rest.2)

/-- `total_written - total_read` of the raw plane. -/
def AdcStream.backlog (s : AdcStream) (env : ReadEnv) : ℤ :=
  int32Sub (adcStreamTotalWritten s.lapCount (env.remaining 0) s.rdPos).1 s.totalRead

/-- The stream after `adc_stream_total_written` has looked at the DMA counter. -/
def AdcStream.observed (s : AdcStream) (env : ReadEnv) : AdcStream :=
  { s with rdPos := (adcStreamTotalWritten s.lapCount (env.remaining 0) s.rdPos).2 }

/-- The overrun branch of the raw plane. -/
def AdcStream.resync (s : AdcStream) (env : ReadEnv) : AdcStream :=
  { s.observed env with
    readIdx := adcStreamWriteIndex (env.remaining 1) % adcRingSamples
    totalRead := (adcStreamTotalWritten s.lapCount (env.remaining 0) s.rdPos).1 }

/-- The stream after `n` samples have been copied out of the ring. -/
def AdcStream.consumed (s : AdcStream) (env : ReadEnv) (n : ℕ) : AdcStream :=
  { s.observed env with
    readIdx := (copyRaw env s.fullScale n 0 s.readIdx).2
    totalRead := (s.totalRead + n) % 2 ^ 32 }

/-- The raw plane of `adc_stream_read`. -/
def AdcStream.readRaw (s : AdcStream) (env : ReadEnv) (maxSamples : ℕ) :
    HwResult AdcStream (List UInt16) :=
  if s.backlog env ≤ 0 then ⟨s.observed env, .ok, []⟩
  else if s.backlog env ≥ adcRingSamples then ⟨s.resync env, .busy, []⟩
  else
    let emit := min (s.backlog env).toNat maxSamples
    ⟨s.consumed env emit, .ok, (copyRaw env s.fullScale emit 0 s.readIdx).1⟩

/-- The stream after `n` filtered samples have been served. -/
def AdcStream.procServed (s : AdcStream) (n : ℕ) : AdcStream :=
  { s with procRead := (s.procRead + n) % 2 ^ 32 }

/-- The filtered plane of `adc_stream_read`. -/
def AdcStream.readProc (s : AdcStream) (env : ReadEnv) (maxSamples : ℕ) :
    HwResult AdcStream (List UInt16) :=
  if s.dspTerminal = 3 then ⟨s, .notimpl, []⟩
  else if s.dspCfgBad then ⟨s, .range, []⟩
  else if s.dspSat then ⟨s, .io, []⟩
  else if s.procGap then ⟨{ s with procGap := false, procRead := s.procWrite }, .busy, []⟩
  else if int32Sub s.procWrite s.procRead ≤ 0 then ⟨s, .ok, []⟩
  else if int32Sub s.procWrite s.procRead ≥ adcRingSamples then
    ⟨{ s with procRead := s.procWrite }, .busy, []⟩
  else
    let emit := min (int32Sub s.procWrite s.procRead).toNat maxSamples
    ⟨s.procServed emit, .ok,
      (List.range emit).map fun i =>
        codeMv s.fullScale env.vrefMv (s.procRing ((s.procRead + i) % 2 ^ 32 % adcRingSamples))⟩

/-- `bridge_hw_adc_stream_read` from the check of the latched error count on. -/
def AdcStream.serve (s : AdcStream) (env : ReadEnv) (maxSamples : ℕ) :
    HwResult AdcStream (List UInt16) :=
  if s.dmaErrorCount ≠ 0 then ⟨s, .io, []⟩
  else if env.rovf then
    ⟨s.reanchor (adcStreamWriteIndex (env.remaining 0)), if env.recovered then .busy else .io, []⟩
  else if s.dspBound then s.readProc env maxSamples
  else s.readRaw env maxSamples

/-- `bridge_hw_adc_stream_read` on the stream it names. -/
def AdcStream.read (s : AdcStream) (env : ReadEnv) (maxSamples : ℕ) :
    HwResult AdcStream (List UInt16) :=
  if ¬ s.inUse then ⟨s, .inval, []⟩
  else (s.latchDmaError env.dmaErr).serve env maxSamples

/-- `bridge_hw_adc_stream_read` -/
def adcStreamRead (a : Adc) (env : ReadEnv) (id maxSamples : ℕ) : HwResult Adc (List UInt16) :=
  if id ≥ bridgeAdcStreamCount then ⟨a, .range, []⟩
  else
    match (a.streams id).read env maxSamples with
    | ⟨s, rv, out⟩ => ⟨a.setStream id s, rv, out⟩

/-! ### END -/

/-- `adc_dsp_owner_transitional` -/
def adcDspOwnerTransitional (id : ℕ) : ℤ := -2 - id

/-- `adc_dsp_owner_release`: the owner byte afterwards, and whether it was released. -/
def adcDspOwnerRelease (owner : ℤ) (id : ℕ) : ℤ × Bool :=
  if owner = id ∨ owner = adcDspOwnerTransitional id then (adcDspOwnerNone, true)
  else (owner, false)

/-- `adc_dsp_fac_release`, as far as the owner byte goes. -/
def Adc.facRelease (a : Adc) (id : ℕ) : Adc :=
  { a with facOwner := (adcDspOwnerRelease a.facOwner id).1 }

/-- `adc_dsp_fft_session_reset` -/
def Adc.fftSessionReset (a : Adc) : Adc := { a with fftFill := 0, fftSeq := 0, fftNbins := 0 }

/-- `adc_dsp_fft_release` -/
def Adc.fftRelease (a : Adc) (id : ℕ) : Adc :=
  match adcDspOwnerRelease a.fftOwner id with
  | (owner, released) =>
    if released then { a with fftOwner := owner }.fftSessionReset else { a with fftOwner := owner }

/-- `adc_dsp_chain_release` -/
def Adc.chainRelease (a : Adc) (id : ℕ) : Adc :=
  if id ≥ dspMaxChains then a
  else a.setChain id { a.chains id with bound := false, inUse := false }

/-- What `adc_stream_end` meets: `adc_stream_dma_disable_confirm`, `adc_periph_restore`. -/
structure EndEnv where
  dmaDisabled : Bool
  restored : Bool
deriving DecidableEq, Repr

/-- The fields `adc_stream_end` clears. -/
def AdcStream.ended (s : AdcStream) : AdcStream :=
  { s with inUse := false, dspBound := false, dspCfgBad := false, dspSat := false }

/-- The end of a running stream: its chain and the blocks it owned go back. -/
def Adc.endStream (a : Adc) (id : ℕ) : Adc :=
  (if (a.streams id).dspBound then
    ((a.facRelease id).fftRelease id).chainRelease (a.streams id).dspChainId
  else a).setStream id (a.streams id).ended

/-- `bridge_hw_adc_stream_end` -/
def adcStreamEnd (a : Adc) (env : EndEnv) (id : ℕ) : HwResult Adc Unit :=
  if id ≥ bridgeAdcStreamCount then ⟨a, .range, ()⟩
  else if ¬ (a.streams id).inUse then ⟨a, .ok, ()⟩
  else if ¬ env.dmaDisabled then ⟨a, .io, ()⟩
  else ⟨a.endStream id, if env.restored then .ok else .io, ()⟩

/-! ### The chain commands -/

/-- `bridge_hw_adc_dsp_chain_open` -/
def adcDspChainOpen (a : Adc) : HwResult Adc ℕ :=
  match (List.range dspMaxChains).find? fun i => !(a.chains i).inUse with
  | some i => ⟨a.setChain i ⟨true, false, fun _ => .zero⟩, .ok, i⟩
  | none => ⟨a, .notimpl, 0⟩

/-- `bridge_hw_adc_dsp_stage_push` -/
def adcDspStagePush (a : Adc) (chain stage kind offset total : ℕ) (chunk : List UInt8) :
    HwResult Adc Unit :=
  if chain ≥ dspMaxChains then ⟨a, .range, ()⟩
  else if stage ≥ dspMaxStages then ⟨a, .range, ()⟩
  else if kind > dspKindMax then ⟨a, .inval, ()⟩
  else if total = 0 then ⟨a, .inval, ()⟩
  else if total > dspMaxStageBytes then ⟨a, .range, ()⟩
  else if chunk.length = 0 then ⟨a, .inval, ()⟩
  else if offset > total then ⟨a, .range, ()⟩
  else if chunk.length > total - offset then ⟨a, .range, ()⟩
  else if ¬ (a.chains chain).inUse then ⟨a, .inval, ()⟩
  else if (a.chains chain).bound then ⟨a, .inval, ()⟩
  else
    match ((a.chains chain).stages stage).push kind offset total chunk with
    | (st, rv) =>
      ⟨a.setChain chain
        { a.chains chain with stages := Function.update (a.chains chain).stages stage st }, rv, ()⟩

/-- Some other running stream is bound to a terminal of the kind `p` asks for. -/
def Adc.terminalBusy (a : Adc) (p : ℕ → Bool) (exceptStream : ℕ) : Bool :=
  (List.range bridgeAdcStreamCount).any fun i =>
    i != exceptStream && (a.streams i).inUse && (a.streams i).dspBound &&
      p (a.streams i).dspTerminal

/-- `adc_dsp_filter_stream_busy` -/
def adcDspFilterStreamBusy (a : Adc) (exceptStream : ℕ) : Bool :=
  a.terminalBusy (fun kind => kind != 3) exceptStream

/-- `adc_dsp_fft_stream_busy` -/
def adcDspFftStreamBusy (a : Adc) (exceptStream : ℕ) : Bool :=
  a.terminalBusy (fun kind => kind == 3) exceptStream

/-- The attachment at the end of `bridge_hw_adc_dsp_chain_bind`. -/
def AdcStream.attached (s : AdcStream) (chain terminal : ℕ) : AdcStream :=
  { s with
    dspTerminal := terminal, procWrite := 0, procRead := 0, procGap := false,
    pumpRawRead := s.totalRead, dspChainId := chain, dspBound := true }

/-- `bridge_hw_adc_dsp_chain_bind` -/
def adcDspChainBind (a : Adc) (chain id : ℕ) : HwResult Adc Unit :=
  if chain ≥ dspMaxChains then ⟨a, .range, ()⟩
  else if id ≥ bridgeAdcStreamCount then ⟨a, .range, ()⟩
  else if ¬ (a.chains chain).inUse then ⟨a, .inval, ()⟩
  else if (a.chains chain).bound then ⟨a, .inval, ()⟩
  else
    match bindScan (a.chains chain).stages with
    | none => ⟨a, .inval, ()⟩
    | some last =>
      if ¬ (a.streams id).inUse then ⟨a, .inval, ()⟩
      else if (a.streams id).dspBound then ⟨a, .inval, ()⟩
      else if ¬ adcDspChainP1Capable (a.chains chain).stages then
        ⟨a.chainRelease chain, .notimpl, ()⟩
      else
        let terminal := ((a.chains chain).stages last).kind
        if (if terminal = 3 then adcDspFftStreamBusy a id else adcDspFilterStreamBusy a id) then
          ⟨a, .notimpl, ()⟩
        else
          ⟨(a.setStream id ((a.streams id).attached chain terminal)).setChain chain
            { a.chains chain with bound := true }, .ok, ()⟩

/-! ### The lap interrupt -/

/-- The lap interrupt on the stream it belongs to: the full-transfer and the error flag as the
handler finds them. -/
def AdcStream.lapped (s : AdcStream) (ftf dmaErr : Bool) : AdcStream :=
  (if ftf then { s with lapCount := (s.lapCount + 1) % 2 ^ 32 } else s).latchDmaError dmaErr

/-- `DMA0_Channel0_IRQHandler` and `DMA1_Channel0_IRQHandler`, for streams 0 and 1. -/
def adcLapIsr (a : Adc) (id : ℕ) (ftf dmaErr : Bool) : Adc :=
  a.setStream id ((a.streams id).lapped ftf dmaErr)

/-! ### Runs -/

/-- What the base-level pump writes: its side of a stream, and the owner bytes. -/
structure PumpWrites where
  pumpPos : AdcDmaPos
  procRing : ℕ → UInt16
  procWrite : ℕ
  procGap : Bool
  pumpRawRead : ℕ
  dspCfgBad : Bool
  dspSat : Bool
  facOwner : ℤ
  fftOwner : ℤ
  fftFill : ℕ
  fftSeq : ℕ
  fftNbins : ℕ

/-- The pump's fields of a stream, overwritten. -/
def AdcStream.pumped (s : AdcStream) (p : PumpWrites) : AdcStream :=
  { s with
    pumpPos := p.pumpPos, procRing := p.procRing, procWrite := p.procWrite,
    procGap := p.procGap, pumpRawRead := p.pumpRawRead, dspCfgBad := p.dspCfgBad,
    dspSat := p.dspSat }

/-- Any writes of the pump in its slice of the state. -/
def Adc.pumped (a : Adc) (id : ℕ) (p : PumpWrites) : Adc :=
  { a.setStream id ((a.streams id).pumped p) with
    facOwner := p.facOwner, fftOwner := p.fftOwner, fftFill := p.fftFill, fftSeq := p.fftSeq,
    fftNbins := p.fftNbins }

/-- What can happen to the streams and the pool: a command with what it meets, a lap interrupt, or
writes of the pump. -/
inductive AdcOp
  | chainOpen
  | stagePush (chain stage kind offset total : ℕ) (chunk : List UInt8)
  | chainBind (chain id : ℕ)
  | streamBegin (env : BeginEnv) (id channel rate : ℕ)
  | streamRead (env : ReadEnv) (id maxSamples : ℕ)
  | streamEnd (env : EndEnv) (id : ℕ)
  | lapIsr (id : ℕ) (ftf dmaErr : Bool)
  | pump (id : ℕ) (p : PumpWrites)

/-- The state after it. -/
def adcApply (a : Adc) : AdcOp → Adc
  | .chainOpen => (adcDspChainOpen a).hw
  | .stagePush chain stage kind offset total chunk =>
    (adcDspStagePush a chain stage kind offset total chunk).hw
  | .chainBind chain id => (adcDspChainBind a chain id).hw
  | .streamBegin env id channel rate => (adcStreamBegin a env id channel rate).hw
  | .streamRead env id maxSamples => (adcStreamRead a env id maxSamples).hw
  | .streamEnd env id => (adcStreamEnd a env id).hw
  | .lapIsr id ftf dmaErr => adcLapIsr a id ftf dmaErr
  | .pump id p => a.pumped id p

/-- Everything that can happen is possible in every state. -/
def adcStep (a : Adc) (op : AdcOp) : Option Adc := some (adcApply a op)

end Gd32Bridge
