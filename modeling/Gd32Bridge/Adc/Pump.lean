import Gd32Bridge.Adc.Stream

/-!
# The base-level DSP pump

`bridge_hw_dsp_pump` of `hal/gd32/adc_stream.c` with `adc_dsp_pump_stream` and
`adc_dsp_pump_fft`.  The pump runs at base level and the commands in interrupts, so it is cut at
every access to what they share: a step is one critical section, one read or one store, and a
command may land before each of them.  What the FAC computes and what the FFT block leaves in its
output buffer is handed to the steps.
-/

namespace Gd32Bridge

/-- `ADC_DSP_PUMP_LOCK_BATCH` -/
def adcDspPumpLockBatch : ℕ := 8

/-- The call of `adc_stream_total_written` the pump is in. -/
inductive TotalSite
  /-- after the FAC has been configured -/
  | live
  /-- the backlog of the pass, in the FFT pump or in the filter pump -/
  | pass (fft : Bool)
deriving DecidableEq, Repr

/-- Where the pump is.  `fft` tells `adc_dsp_pump_fft` from `adc_dsp_pump_stream`. -/
inductive PumpPc
  /-- between two visits -/
  | idle
  /-- `in_use` has been read, `dsp_bound` is next -/
  | sawInUse
  /-- `dsp_bound` has been read, `dsp_terminal` is next -/
  | sawBound
  /-- the call, before `dma_error_count` is read -/
  | entered (fft : Bool)
  /-- before the owner byte is read -/
  | checkOwner (fft : Bool)
  /-- before `adc_dsp_owner_claim_config` -/
  | claiming (fft : Bool)
  /-- in `adc_dsp_fac_config` or `adc_dsp_fft_config` -/
  | configuring (fft : Bool)
  /-- the configuration has been refused, before `adc_dsp_owner_release` -/
  | refused (fft : Bool)
  /-- before `dsp_cfg_bad` is set -/
  | marking
  /-- `adc_dsp_fft_config` before it stores `adc_dsp_fft_points` and `adc_dsp_fft_outfmt` -/
  | fftApply (points outfmt : ℕ)
  /-- before `adc_dsp_fft_session_reset` -/
  | fftReset
  /-- before `fft_deinit` and `fft_init` -/
  | fftInit
  /-- before `adc_dsp_owner_commit_config` -/
  | committing (fft : Bool)
  /-- `adc_stream_total_written` before its reads -/
  | counting (site : TotalSite)
  /-- and before each of its three stores -/
  | storeLaps (site : TotalSite) (pos : AdcDmaPos) (total : ℕ)
  | storeW (site : TotalSite) (pos : AdcDmaPos) (total : ℕ)
  | storeValid (site : TotalSite) (pos : AdcDmaPos) (total : ℕ)
  /-- the first backlog of a configured filter, before `pump_raw_read` is read -/
  | jumpCheck (live : ℕ)
  | jumping (live : ℕ)
  /-- the backlog of the pass, before `pump_raw_read` is read -/
  | weighing (fft : Bool) (total : ℕ)
  /-- a full ring behind, before the section that drops the backlog -/
  | resyncing (fft : Bool) (total : ℕ)
  /-- the filter batch: before the claim, during the FAC work, before the commit -/
  | leasing (avail : ℕ)
  | filtering (avail : ℕ)
  | publishing (avail rawRead : ℕ) (out : List UInt16) (used : ℕ) (sat stalled : Bool)
  /-- the sample loop of the FFT pump, before its two sections -/
  | sampling (avail : ℕ)
  | storing (avail : ℕ)
  /-- the calculation has been started -/
  | waiting (avail : ℕ)
  /-- the completion flag has been read -/
  | completed (avail : ℕ) (complete : Bool)
  /-- `adc_dsp_fft_prepare_bins` before its `i`-th store -/
  | reducing (avail i : ℕ)
  /-- before the section that publishes the frame -/
  | announcing (avail nbins : ℕ)
deriving DecidableEq, Repr

/-- The stream table with the FFT block, the published bins and the pump; `running` says that a
calculation has been started and the block has not raised `FFT_FLAG_CCF` for it. -/
structure Dsp (β : Type) where
  adc : Adc
  points : ℕ
  outfmt : ℕ
  out : ℕ → β
  bins : ℕ → β
  running : Bool
  pc : PumpPc
  sid : ℕ

variable {β : Type}

/-- The state at boot. -/
def Dsp.boot (zero : β) : Dsp β :=
  ⟨.boot, 0, 0, fun _ => zero, fun _ => zero, false, .idle, 0⟩

/-! ### The owner bytes -/

/-- `adc_dsp_fft_owner` or `adc_dsp_fac_owner` -/
def Adc.owner (a : Adc) (fft : Bool) : ℤ := if fft then a.fftOwner else a.facOwner

def Adc.setOwner (a : Adc) (fft : Bool) (owner : ℤ) : Adc :=
  if fft then { a with fftOwner := owner } else { a with facOwner := owner }

/-- The binding `adc_dsp_owner_live_locked` asks for. -/
def AdcStream.boundTo (s : AdcStream) (fft : Bool) : Bool :=
  s.inUse && s.dspBound && (s.dspTerminal == 3) == fft

/-- `adc_dsp_owner_live_locked` -/
def Adc.ownerLive (a : Adc) (fft : Bool) (expected : ℤ) (id : ℕ) : Bool :=
  a.owner fft == expected && (a.streams id).boundTo fft

/-- `adc_dsp_owner_claim_config` -/
def adcDspOwnerClaimConfig (a : Adc) (fft : Bool) (id : ℕ) : Adc × Bool :=
  if a.ownerLive fft adcDspOwnerNone id then (a.setOwner fft (adcDspOwnerTransitional id), true)
  else (a, false)

/-- `adc_dsp_owner_commit_config` -/
def adcDspOwnerCommitConfig (a : Adc) (fft : Bool) (id : ℕ) : Adc × Bool :=
  if a.ownerLive fft (adcDspOwnerTransitional id) id then (a.setOwner fft id, true)
  else if a.owner fft = adcDspOwnerTransitional id then (a.setOwner fft adcDspOwnerNone, false)
  else (a, false)

/-! ### The FFT block -/

/-- What `adc_dsp_fft_config` takes from the chain: the number of points and the output format. -/
def adcDspFftConfig (stages : ℕ → DspStage) : Option (ℕ × ℕ) :=
  if ¬ adcDspChainP1Capable stages then none
  else
    match fftIndex stages (List.range dspMaxStages) none with
    | none => none
    | some f =>
      let n := (stages f).nPoints
      if n < dspMinFftPoints ∨ n > dspMaxFftPoints then none
      else some (n, ((stages f).data 2).toNat)

/-- The number of bins `adc_dsp_fft_prepare_bins` returns; the formats are 0 complex, 1 magnitude,
2 one-sided magnitude. -/
def fftBinCount (points outfmt : ℕ) : ℕ :=
  if outfmt = 0 then points * 2 else if outfmt = 2 then points / 2 + 1 else points

/-- The `i`-th bin; `mag` is the square root of the sum of the two squares. -/
def fftBin (mag : β → β → β) (outfmt : ℕ) (out : ℕ → β) (i : ℕ) : β :=
  if outfmt = 0 then out i else mag (out (2 * i)) (out (2 * i + 1))

/-- What `bridge_hw_adc_spectrum_read` returns besides its code. -/
structure SpectrumReply (β : Type) where
  seq : ℕ
  total : ℕ
  bins : List β
deriving DecidableEq, Repr

/-- `bridge_hw_adc_spectrum_read`, with the error flag of the DMA channel as it finds it. -/
def Dsp.spectrumRead (x : Dsp β) (dmaErr : Bool) (id offset maxBins : ℕ) :
    HwResult Adc (Option (SpectrumReply β)) :=
  if id ≥ bridgeAdcStreamCount then ⟨x.adc, .range, none⟩
  else if ¬ (x.adc.streams id).boundTo true then ⟨x.adc, .notimpl, none⟩
  else
    let s := (x.adc.streams id).latchDmaError dmaErr
    let a := x.adc.setStream id s
    if s.dmaErrorCount ≠ 0 then ⟨a, .io, none⟩
    else if a.fftOwner ≠ id ∨ a.fftSeq = 0 then ⟨a, .busy, none⟩
    else
      let emit := min (a.fftNbins - offset) maxBins
      ⟨a, .ok, some ⟨a.fftSeq, a.fftNbins, (List.range emit).map fun i => x.bins (offset + i)⟩⟩

/-! ### What the pump writes -/

/-- The copy loop of a committed filter batch, from the `at_`-th processed sample on. -/
def writeRing (ring : ℕ → UInt16) (at_ : ℕ) : List UInt16 → ℕ → UInt16
  | [] => ring
  | c :: cs =>
    writeRing (Function.update ring (at_ % adcRingSamples) c) ((at_ + 1) % 2 ^ 32) cs

/-- The stream after the commit of a filter batch. -/
def AdcStream.published (s : AdcStream) (rawRead : ℕ) (out : List UInt16) (sat : Bool) :
    AdcStream :=
  { s with
    procRing := writeRing s.procRing s.procWrite out
    pumpRawRead := rawRead
    procWrite := (s.procWrite + out.length) % 2 ^ 32
    dspSat := s.dspSat || sat }

namespace Dsp

def goto (x : Dsp β) (pc : PumpPc) : Dsp β := { x with pc }

/-- `s`, the stream the pump works on. -/
def stream (x : Dsp β) : AdcStream := x.adc.streams x.sid

def store (x : Dsp β) (s : AdcStream) : Dsp β := { x with adc := x.adc.setStream x.sid s }

def setOwner (x : Dsp β) (fft : Bool) (owner : ℤ) : Dsp β :=
  { x with adc := x.adc.setOwner fft owner }

/-- The lease check of the pump: the stream still owns the block. -/
def live (x : Dsp β) (fft : Bool) : Bool := x.adc.ownerLive fft x.sid x.sid

/-- The same while the pump holds the transitional token. -/
def liveTransitional (x : Dsp β) (fft : Bool) : Bool :=
  x.adc.ownerLive fft (adcDspOwnerTransitional x.sid) x.sid

/-- A commit section that finds its lease gone: a token that is still there is given back. -/
def abandon (x : Dsp β) (fft : Bool) : Dsp β :=
  if x.adc.owner fft = adcDspOwnerTransitional x.sid then
    (x.setOwner fft adcDspOwnerNone).goto .idle
  else x.goto .idle

/-- `adc_stream_total_written` has returned. -/
def counted (x : Dsp β) (total : ℕ) : TotalSite → Dsp β
  | .live => x.goto (.jumpCheck total)
  | .pass fft => x.goto (.weighing fft total)

/-- The backlog has been read: nothing to do, a ring behind, or a pass over the samples. -/
def weigh (x : Dsp β) (fft : Bool) (total : ℕ) : Dsp β :=
  let avail := int32Sub total x.stream.pumpRawRead
  if avail ≤ 0 then x.goto .idle
  else if avail ≥ adcRingSamples then x.goto (.resyncing fft total)
  else x.goto (if fft then .sampling avail.toNat else .leasing avail.toNat)

/-- The section that drops the backlog. -/
def resync (x : Dsp β) (fft : Bool) (total : ℕ) : Dsp β :=
  if ¬ x.live fft then x
  else if fft then
    { x with
      adc := { x.adc.setStream x.sid { x.stream with pumpRawRead := total } with fftFill := 0 } }
  else x.store { x.stream with pumpRawRead := total, procGap := true }

/-- The second section of the sample loop. -/
def storeSample (x : Dsp β) (avail : ℕ) : Dsp β :=
  let a := x.adc.setStream x.sid
    { x.stream with pumpRawRead := (x.stream.pumpRawRead + 1) % 2 ^ 32 }
  let fill := x.adc.fftFill + 1
  if fill ≥ x.points then
    { x with adc := { a with fftFill := fill }, running := true, pc := .waiting avail }
  else { x with adc := { a with fftFill := fill }, pc := .sampling avail }

/-- The section that publishes a frame. -/
def announce (x : Dsp β) (avail nbins : ℕ) : Dsp β :=
  { x with
    adc := { x.adc with
      fftNbins := nbins, fftSeq := (x.adc.fftSeq + 1) % 2 ^ 32, fftFill := 0, fftOwner := x.sid }
    pc := .sampling avail }

end Dsp

/-! ### Its steps -/

/-- A step of the pump, with what it meets. -/
inductive PumpAct
  /-- the loop of `bridge_hw_dsp_pump` turns to a stream -/
  | visit (id : ℕ)
  | go
  /-- the verdict of the FAC part of `adc_dsp_fac_config`: the coefficients fit and the preload
  completes -/
  | config (ok : Bool)
  /-- the remaining count of the DMA channel -/
  | count (remaining : ℕ)
  /-- the FAC work on a batch: the filtered samples, how many raw ones were used, whether the FAC
  saturated, and whether its input was full -/
  | filter (out : List UInt16) (used : ℕ) (sat stalled : Bool)
deriving DecidableEq, Repr

namespace Dsp

/-- The steps that meet nothing. -/
def go (mag : β → β → β) (x : Dsp β) : Option (Dsp β) :=
  match x.pc with
  | .sawInUse => some (x.goto (if x.stream.dspBound then .sawBound else .idle))
  | .sawBound => some (x.goto (.entered (x.stream.dspTerminal == 3)))
  | .entered fft => some (x.goto (if x.stream.dmaErrorCount ≠ 0 then .idle else .checkOwner fft))
  | .checkOwner fft =>
    some (x.goto (if x.adc.owner fft = x.sid then .counting (.pass fft) else .claiming fft))
  | .claiming fft =>
    match adcDspOwnerClaimConfig x.adc fft x.sid with
    | (a, true) => some { x with adc := a, pc := .configuring fft }
    | (a, false) => some { x with adc := a, pc := .idle }
  | .configuring true =>
    match adcDspFftConfig (x.adc.chains x.stream.dspChainId).stages with
    | some (points, outfmt) => some (x.goto (.fftApply points outfmt))
    | none => some (x.goto (.refused true))
  | .refused fft =>
    some ((x.setOwner fft (adcDspOwnerRelease (x.adc.owner fft) x.sid).1).goto
      (if fft then .idle else .marking))
  | .marking => some ((x.store { x.stream with dspCfgBad := true }).goto .idle)
  | .fftApply points outfmt => some { x with points, outfmt, pc := .fftReset }
  | .fftReset => some { x with adc := x.adc.fftSessionReset, pc := .fftInit }
  | .fftInit => some { x with running := false, pc := .committing true }
  | .committing fft =>
    match adcDspOwnerCommitConfig x.adc fft x.sid with
    | (a, true) =>
      some { x with adc := a, pc := .counting (if fft then .pass true else .live) }
    | (a, false) => some { x with adc := a, pc := .idle }
  | .storeLaps site pos total =>
    some ((x.store { x.stream with pumpPos := { x.stream.pumpPos with laps := pos.laps } }).goto
      (.storeW site pos total))
  | .storeW site pos total =>
    some ((x.store { x.stream with pumpPos := { x.stream.pumpPos with w := pos.w } }).goto
      (.storeValid site pos total))
  | .storeValid site _ total =>
    some ((x.store { x.stream with pumpPos := { x.stream.pumpPos with valid := true } }).counted
      total site)
  | .jumpCheck live =>
    some (x.goto (if (live + 2 ^ 32 - x.stream.pumpRawRead) % 2 ^ 32 ≥ adcRingSamples then
      .jumping live else .counting (.pass false)))
  | .jumping live =>
    some ((if x.live false then x.store { x.stream with pumpRawRead := live } else x).goto
      (.counting (.pass false)))
  | .weighing fft total => some (x.weigh fft total)
  | .resyncing fft total => some ((x.resync fft total).goto .idle)
  | .leasing avail =>
    if x.live false then
      some ((x.setOwner false (adcDspOwnerTransitional x.sid)).goto (.filtering avail))
    else some (x.goto .idle)
  | .publishing avail rawRead out used sat stalled =>
    if x.liveTransitional false then
      some (((x.store (x.stream.published rawRead out sat)).setOwner false x.sid).goto
        (if stalled ∨ avail ≤ used then .idle else .leasing (avail - used)))
    else some (x.abandon false)
  | .sampling 0 => some (x.goto .idle)
  | .sampling (avail + 1) => some (x.goto (if x.live true then .storing avail else .idle))
  | .storing avail => some (if x.live true then x.storeSample avail else x.goto .idle)
  | .waiting avail => some (x.goto (.completed avail (!x.running)))
  | .completed avail false =>
    if x.live true then
      some { x with adc := { x.adc with fftFill := 0 }, pc := .sampling avail }
    else some (x.goto .idle)
  | .completed avail true =>
    if x.live true then
      some ((x.setOwner true (adcDspOwnerTransitional x.sid)).goto (.reducing avail 0))
    else some (x.goto .idle)
  | .reducing avail i =>
    if i < fftBinCount x.points x.outfmt then
      some { x with
        bins := Function.update x.bins i (fftBin mag x.outfmt x.out i)
        pc := .reducing avail (i + 1) }
    else some (x.goto (.announcing avail (fftBinCount x.points x.outfmt)))
  | .announcing avail nbins =>
    if x.liveTransitional true then some (x.announce avail nbins) else some (x.abandon true)
  | _ => none

/-- The steps of the pump. -/
def pumpStep (mag : β → β → β) (x : Dsp β) : PumpAct → Option (Dsp β)
  | .visit id =>
    if x.pc = .idle ∧ id < bridgeAdcStreamCount then
      some (if (x.adc.streams id).inUse then { x with pc := .sawInUse, sid := id } else x)
    else none
  | .go => x.go mag
  | .config ok =>
    if x.pc = .configuring false then
      some (x.goto (if adcDspChainP1Capable (x.adc.chains x.stream.dspChainId).stages ∧ ok then
        .committing false else .refused false))
    else none
  | .count remaining =>
    match x.pc with
    | .counting site =>
      match adcStreamTotalWritten x.stream.lapCount remaining x.stream.pumpPos with
      | (total, pos) => some (x.goto (.storeLaps site pos total))
    | _ => none
  | .filter out used sat stalled =>
    match x.pc with
    | .filtering avail =>
      if used ≤ min avail adcDspPumpLockBatch ∧ out.length ≤ adcDspPumpLockBatch ∧
          (used = 0 → stalled) then
        some (x.goto (.publishing avail ((x.stream.pumpRawRead + used) % 2 ^ 32) out used sat
          stalled))
      else none
    | _ => none

end Dsp

/-! ### The system -/

/-- What can happen: a command or a lap interrupt, a spectrum request, a step of the pump, and
the FFT block writing its output or raising its completion flag. -/
inductive DspOp (β : Type)
  | isr (op : AdcOp)
  | spectrum (dmaErr : Bool) (id offset maxBins : ℕ)
  | base (act : PumpAct)
  | fftOut (out : ℕ → β)
  | fftDone

/-- The state after it.  The pump's writes are those of its steps, and the block leaves its output
alone unless a calculation is under way. -/
def dspStep (mag : β → β → β) (x : Dsp β) : DspOp β → Option (Dsp β)
  | .isr (.pump _ _) => none
  | .isr op => some { x with adc := adcApply x.adc op }
  | .spectrum dmaErr id offset maxBins =>
    some { x with adc := (x.spectrumRead dmaErr id offset maxBins).hw }
  | .base act => x.pumpStep mag act
  | .fftOut out => if x.running then some { x with out } else none
  | .fftDone => if x.running then some { x with running := false } else none

end Gd32Bridge
