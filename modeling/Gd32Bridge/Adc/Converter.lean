import Gd32Bridge.Adc.Stream

/-!
# The converters

`hal/gd32/adc.c`: two channels share each converter, and both the single-shot read and the begin
of a stream reprogram it under a claim.  A read re-applies the format, the rank and the calibration
it needs, but takes the trigger and the DMA request lines as it finds them.
-/

namespace Gd32Bridge

/-! ### Registers -/

/-- The external trigger of the routine sequence, `EXTERNAL_TRIGGER_*`. -/
inductive AdcTrigger
  | disable
  | rising
deriving DecidableEq, Repr

/-- The registers of a converter that the driver writes after boot: `ADCON`, the trigger, `DDM` and
`DMA` of `CTL1`, the resolution in bits, the exponent of the oversampling ratio, routine rank 0
with its sample cycles, and two flags. -/
structure Converter where
  adcon : Bool
  trigger : AdcTrigger
  ddm : Bool
  dma : Bool
  resolution : ℕ
  oversample : Option ℕ
  rank0 : ℕ
  sampleCycles : ℕ
  eoc : Bool
  rovf : Bool
deriving DecidableEq, Repr

/-- The single-shot configuration: conversions start by software only, and none asks for DMA. -/
structure Converter.SingleShot (c : Converter) : Prop where
  trigger : c.trigger = .disable
  ddm : c.ddm = false
  dma : c.dma = false

/-- The caches of `bridge_hw_adc_configure` for one channel. -/
structure ConvFormat where
  sampleCycles : ℕ
  resolutionBits : ℕ
  oversampleRatio : ℕ
deriving DecidableEq, Repr

/-- `ADC_OVERSAMPLE_RATIO_MAX` -/
def adcOversampleRatioMax : ℕ := 256

/-- `adc_oversample_params`: the exponent of the largest power of two below the ratio. -/
def adcOversampleParams (ratio : ℕ) : Option ℕ :=
  if ratio ≤ 1 then none else some (Nat.log2 (min ratio adcOversampleRatioMax))

/-- `adc_effective_ratio` -/
def adcEffectiveRatio (f : ConvFormat) : ℕ :=
  match adcOversampleParams f.oversampleRatio with
  | some shift => 2 ^ shift
  | none => 1

/-- `adc_resolution_reg`: the widths `DRES` knows. -/
def adcResolutionReg (bits : ℕ) : Bool := [12, 10, 8, 6].contains bits

/-- `adc_apply_conv_format` -/
def Converter.applyConvFormat (c : Converter) (f : ConvFormat) : Converter :=
  { c with
    resolution := if adcResolutionReg f.resolutionBits then f.resolutionBits else c.resolution
    oversample := adcOversampleParams f.oversampleRatio }

/-- The input of each channel, `adc_channels_map[].channel`. -/
def adcChannelInput : ℕ → ℕ
  | 0 => 12
  | 1 => 2
  | 2 => 2
  | 3 => 13
  | 4 => 4
  | 5 => 12
  | 6 => 2
  | _ => 3

/-- The format and `adc_routine_channel_config` of a channel, with `ADCON` cleared around them. -/
def Converter.program (c : Converter) (f : ConvFormat) (channel : ℕ) : Converter :=
  { c.applyConvFormat f with
    rank0 := adcChannelInput channel, sampleCycles := f.sampleCycles, adcon := true }

/-- `adc_periph_boot_init`, without the verdict of the calibration. -/
def Converter.bootInit (c : Converter) : Converter := { c with trigger := .disable, adcon := true }

/-- `adc_periph_restore` -/
def Converter.restore (c : Converter) : Converter :=
  { c with ddm := false, dma := false, eoc := false, rovf := false }.bootInit

/-- What `adc_stream_begin` writes between `adc_disable` and the calibration. -/
def Converter.programStream (c : Converter) (f : ConvFormat) (channel : ℕ) : Converter :=
  { c.program f channel with
    trigger := .rising, ddm := true, dma := true, eoc := false, rovf := false }

/-! ### The device -/

/-- The stream table, the claim flags, the four converters and the format of each channel. -/
structure AdcDevice where
  adc : Adc
  periphBusy : ℕ → Bool
  converters : ℕ → Converter
  formats : ℕ → ConvFormat

/-- The device after the boot setup. -/
def AdcDevice.boot : AdcDevice where
  adc := .boot
  periphBusy _ := false
  converters _ := ⟨true, .disable, false, false, 12, none, 0, 240, false, false⟩
  formats _ := ⟨240, 12, 1⟩

def AdcDevice.setConverter (d : AdcDevice) (p : ℕ) (c : Converter) : AdcDevice :=
  { d with converters := Function.update d.converters p c }

/-- `adc_periph_claim` -/
def AdcDevice.periphClaim (d : AdcDevice) (p : ℕ) : Option AdcDevice :=
  if d.periphBusy p then none
  else some { d with periphBusy := Function.update d.periphBusy p true }

lemma AdcDevice.periphClaim_eq_none {d : AdcDevice} {p : ℕ} (h : d.periphClaim p = none) :
    d.periphBusy p = true := by
  by_contra hno
  simp [periphClaim, hno] at h

lemma AdcDevice.periphClaim_eq_some {d d₁ : AdcDevice} {p : ℕ} (h : d.periphClaim p = some d₁) :
    d.periphBusy p = false ∧ d₁ = { d with periphBusy := Function.update d.periphBusy p true } := by
  simp only [periphClaim] at h
  split_ifs at h with hbusy
  cases h
  exact ⟨Bool.eq_false_iff.mpr hbusy, rfl⟩

/-- `adc_periph_release` -/
def AdcDevice.periphRelease (d : AdcDevice) (p : ℕ) : AdcDevice :=
  { d with periphBusy := Function.update d.periphBusy p false }

/-! ### The single-shot read -/

/-- What a read meets: `vref_ready_check`, `adc_calibrate_bounded`, what the `i`-th software trigger
leaves in the data register of a converter programmed so, nothing if its EOC never came, and the
reference in millivolts. -/
structure SingleReadEnv where
  vrefReady : Bool
  calibrated : Bool
  convert : Converter → ℕ → Option UInt16
  vrefMv : ℕ

/-- `ADC_READ_CONV_HALF_CYCLES_12B` -/
def adcReadConvHalfCycles12b : ℕ := 25
/-- `ADC_READ_BUDGET_HALF_CYCLES` -/
def adcReadBudgetHalfCycles : ℕ := 2 * (216000000 / 6) * 1000 / 1000000

/-- The time a read may hold its interrupt, in half cycles of the converter's clock. -/
def residencyHalfCycles (f : ConvFormat) (samples : ℕ) : ℕ :=
  samples * adcEffectiveRatio f * (2 * f.sampleCycles + adcReadConvHalfCycles12b) % 2 ^ 32

/-- Some running stream samples with the converter. -/
def AdcDevice.streaming (d : AdcDevice) (p : ℕ) : Bool :=
  (List.range bridgeAdcStreamCount).any fun i =>
    (d.adc.streams i).inUse && adcChannelPeriph (d.adc.streams i).channel == p

/-- The conversions of a read, up to the first that times out. -/
def convertAll (env : SingleReadEnv) (c : Converter) (fullScale samples : ℕ) :
    Option (List UInt16) :=
  (List.range samples).mapM fun i => (env.convert c i).map (codeMv fullScale env.vrefMv)

/-- `bridge_hw_adc_read` -/
def AdcDevice.read (d : AdcDevice) (env : SingleReadEnv) (channel samples : ℕ) :
    HwResult AdcDevice (List UInt16) :=
  let p := adcChannelPeriph channel
  let f := d.formats channel
  if samples = 0 then ⟨d, .inval, []⟩
  else if channel ≥ adcChannelMapCount then ⟨d, .range, []⟩
  else if ¬ env.vrefReady then ⟨d, .io, []⟩
  else if d.streaming p then ⟨d, .busy, []⟩
  else if residencyHalfCycles f samples > adcReadBudgetHalfCycles then ⟨d, .range, []⟩
  else
    match d.periphClaim p with
    | none => ⟨d, .busy, []⟩
    | some d₁ =>
      let c := (d₁.converters p).program f channel
      if ¬ env.calibrated then ⟨(d₁.setConverter p c).periphRelease p, .io, []⟩
      else
        let c := { c with eoc := false }
        match convertAll env c (adcFullScaleForBits f.resolutionBits) samples with
        | some mv => ⟨(d₁.setConverter p c).periphRelease p, .ok, mv⟩
        | none => ⟨(d₁.setConverter p c.restore).periphRelease p, .io, []⟩

/-! ### BEGIN on the device -/

/-- What the begin of a stream meets beside the claim flag: `vref_ready_check`,
`adc_stream_dma_disable_confirm` and `adc_calibrate_bounded`. -/
structure BeginHw where
  vrefReady : Bool
  dmaDisabled : Bool
  calibrated : Bool
deriving DecidableEq, Repr

/-- `bridge_hw_adc_stream_begin` with its effects on the converter. -/
def AdcDevice.streamBegin (d : AdcDevice) (env : BeginHw) (id channel rate : ℕ) :
    HwResult AdcDevice Unit :=
  let p := adcChannelPeriph channel
  if id ≥ bridgeAdcStreamCount then ⟨d, .range, ()⟩
  else if channel ≥ adcChannelMapCount then ⟨d, .range, ()⟩
  else if rate = 0 then ⟨d, .inval, ()⟩
  else if rate > adcStreamRateMaxHz then ⟨d, .range, ()⟩
  else if ¬ env.vrefReady then ⟨d, .io, ()⟩
  else if (d.adc.streams id).inUse then ⟨d, .inval, ()⟩
  else if d.adc.converterTaken id channel then ⟨d, .inval, ()⟩
  else if ¬ env.dmaDisabled then ⟨d, .io, ()⟩
  else
    match d.periphClaim p with
    | none => ⟨d, .busy, ()⟩
    | some d₁ =>
      let d₂ := d₁.setConverter p ((d₁.converters p).programStream (d.formats channel) channel)
      if ¬ env.calibrated then ⟨d₂.periphRelease p, .io, ()⟩
      else
        ⟨{ d₂ with
            adc := d₂.adc.setStream id
              ((d₂.adc.streams id).started channel (d.formats channel).resolutionBits)
          }.periphRelease p, .ok, ()⟩

variable {d : AdcDevice} {env : BeginHw} {id channel rate : ℕ}

/-- The call passes every check, so that it reprograms the converter. -/
structure AdcDevice.Reprograms (d : AdcDevice) (env : BeginHw) (id channel rate : ℕ) : Prop where
  id_lt : id < bridgeAdcStreamCount
  channel_lt : channel < adcChannelMapCount
  rate_pos : 0 < rate
  rate_le : rate ≤ adcStreamRateMaxHz
  vref : env.vrefReady = true
  idle : (d.adc.streams id).inUse = false
  free : d.adc.converterTaken id channel = false
  dma : env.dmaDisabled = true
  unclaimed : d.periphBusy (adcChannelPeriph channel) = false

lemma AdcDevice.Reprograms.of_checks (hid : ¬ id ≥ bridgeAdcStreamCount)
    (hch : ¬ channel ≥ adcChannelMapCount) (hpos : ¬ rate = 0) (hle : ¬ rate > adcStreamRateMaxHz)
    (hvref : ¬ ¬ env.vrefReady = true) (hidle : ¬ (d.adc.streams id).inUse = true)
    (hfree : ¬ d.adc.converterTaken id channel = true) (hdma : ¬ ¬ env.dmaDisabled = true)
    (hbusy : d.periphBusy (adcChannelPeriph channel) = false) :
    d.Reprograms env id channel rate :=
  ⟨Nat.lt_of_not_le hid, Nat.lt_of_not_le hch, Nat.pos_of_ne_zero hpos, Nat.le_of_not_lt hle,
    not_not.mp hvref, Bool.eq_false_iff.mpr hidle, Bool.eq_false_iff.mpr hfree, not_not.mp hdma,
    hbusy⟩

/-- The converter of the channel programmed for the stream, and the stream table. -/
def AdcDevice.reprogrammed (d : AdcDevice) (channel : ℕ) (adc : Adc) : AdcDevice :=
  { d.setConverter (adcChannelPeriph channel)
      ((d.converters (adcChannelPeriph channel)).programStream (d.formats channel) channel)
    with adc }

/-- Everything a begin can do: it is refused before it touches anything, or it reprograms the
converter and hands the claim back, with or without a running stream. -/
inductive BeginRule (d : AdcDevice) (env : BeginHw) (id channel rate : ℕ) :
    HwResult AdcDevice Unit → Prop
  | refused {rv : HwRv} (hrv : rv ≠ .ok) (hno : ¬ d.Reprograms env id channel rate) :
      BeginRule d env id channel rate ⟨d, rv, ()⟩
  | uncalibrated {d' : AdcDevice} (hre : d.Reprograms env id channel rate)
      (hcal : env.calibrated = false) (hd : d' = d.reprogrammed channel d.adc) :
      BeginRule d env id channel rate ⟨d', .io, ()⟩
  | started {d' : AdcDevice} (hre : d.Reprograms env id channel rate)
      (hcal : env.calibrated = true)
      (hd : d' = d.reprogrammed channel (d.adc.setStream id
        ((d.adc.streams id).started channel (d.formats channel).resolutionBits))) :
      BeginRule d env id channel rate ⟨d', .ok, ()⟩

/-- Claiming a free converter and releasing it leaves the flags as they were. -/
lemma AdcDevice.release_claimed {p : ℕ} (h : d.periphBusy p = false) (adc : Adc)
    (converters : ℕ → Converter) :
    (AdcDevice.mk adc (Function.update d.periphBusy p true) converters d.formats).periphRelease p =
      ⟨adc, d.periphBusy, converters, d.formats⟩ := by
  simp only [periphRelease, Function.update_idem]
  rw [← h, Function.update_eq_self]

lemma BeginRule.of_begin (d : AdcDevice) (env : BeginHw) (id channel rate : ℕ) :
    BeginRule d env id channel rate (d.streamBegin env id channel rate) := by
  fun_cases AdcDevice.streamBegin
  case case1 h => exact .refused nofun fun hre => absurd hre.id_lt (Nat.not_lt.mpr h)
  case case2 h => exact .refused nofun fun hre => absurd hre.channel_lt (Nat.not_lt.mpr h)
  case case3 h => exact .refused nofun fun hre => absurd h (Nat.pos_iff_ne_zero.mp hre.rate_pos)
  case case4 h => exact .refused nofun fun hre => absurd hre.rate_le (Nat.not_le.mpr h)
  case case5 h => exact .refused nofun fun hre => h hre.vref
  case case6 h => exact .refused nofun fun hre => absurd (hre.idle ▸ h) Bool.noConfusion
  case case7 h => exact .refused nofun fun hre => absurd (hre.free ▸ h) Bool.noConfusion
  case case8 h => exact .refused nofun fun hre => h hre.dma
  case case9 p _ _ _ _ _ _ _ _ h =>
    have hbusy := AdcDevice.periphClaim_eq_none h
    exact .refused nofun fun hre => absurd (hre.unclaimed.symm.trans hbusy) nofun
  case case10 hid hch hpos hle hvref hidle hfree hdma d₁ hclaim _ hcal =>
    obtain ⟨hbusy, rfl⟩ := AdcDevice.periphClaim_eq_some hclaim
    have hre : d.Reprograms env id channel rate :=
      .of_checks hid hch hpos hle hvref hidle hfree hdma hbusy
    exact .uncalibrated hre (Bool.eq_false_iff.mpr hcal) (AdcDevice.release_claimed hbusy _ _)
  case case11 hid hch hpos hle hvref hidle hfree hdma d₁ hclaim _ hcal =>
    obtain ⟨hbusy, rfl⟩ := AdcDevice.periphClaim_eq_some hclaim
    have hre : d.Reprograms env id channel rate :=
      .of_checks hid hch hpos hle hvref hidle hfree hdma hbusy
    exact .started hre (not_not.mp hcal) (AdcDevice.release_claimed hbusy _ _)

/-- On the stream table this is `adc_stream_begin` with the outcomes it meets. -/
lemma AdcDevice.streamBegin_refines (d : AdcDevice) (env : BeginHw) (id channel rate : ℕ) :
    adcStreamBegin d.adc ⟨env.vrefReady, env.dmaDisabled,
        !d.periphBusy (adcChannelPeriph channel), env.calibrated,
        (d.formats channel).resolutionBits⟩ id channel rate =
      ⟨(d.streamBegin env id channel rate).hw.adc, (d.streamBegin env id channel rate).rv, ()⟩ := by
  fun_cases AdcDevice.streamBegin
  case case9 hid hch hpos hle hvref hidle hfree hdma hclaim =>
    have hbusy : d.periphBusy (adcChannelPeriph channel) = true :=
      AdcDevice.periphClaim_eq_none hclaim
    simp only [adcStreamBegin, hid, hch, hpos, hle, hvref, hidle, hfree, hdma, hbusy, if_false,
      Bool.not_true, Bool.false_eq_true, not_false_eq_true, if_true]
  case case10 hid hch hpos hle hvref hidle hfree hdma d₁ hclaim _ hcal =>
    obtain ⟨hbusy, rfl⟩ := AdcDevice.periphClaim_eq_some hclaim
    replace hbusy : d.periphBusy (adcChannelPeriph channel) = false := hbusy
    simp only [adcStreamBegin, hid, hch, hpos, hle, hvref, hidle, hfree, hdma, hbusy, hcal,
      if_false, Bool.not_false, not_true_eq_false]
    rfl
  case case11 hid hch hpos hle hvref hidle hfree hdma d₁ hclaim _ hcal =>
    obtain ⟨hbusy, rfl⟩ := AdcDevice.periphClaim_eq_some hclaim
    replace hbusy : d.periphBusy (adcChannelPeriph channel) = false := hbusy
    simp only [adcStreamBegin, hid, hch, hpos, hle, hvref, hidle, hfree, hdma, hbusy, hcal,
      if_false, Bool.not_false, not_true_eq_false]
    rfl
  all_goals simp only [adcStreamBegin, *, if_true, if_false, not_false_eq_true,
    Bool.false_eq_true]

/-! ### What a failed BEGIN leaves -/

/-- After a begin that returned an error: the slot is not in use, the claim flag is as before, the
converter is at its single-shot configuration, and a read of any of its channels answers as if the
begin had never been issued. -/
structure AdcDevice.NoTrace (d d' : AdcDevice) (id channel : ℕ) : Prop where
  slot : id < bridgeAdcStreamCount → (d'.adc.streams id).inUse = false
  claim : d'.periphBusy (adcChannelPeriph channel) = d.periphBusy (adcChannelPeriph channel)
  singleShot : channel < adcChannelMapCount →
    (d'.converters (adcChannelPeriph channel)).SingleShot
  reads : ∀ env ch samples, adcChannelPeriph ch = adcChannelPeriph channel →
    (d'.read env ch samples).rv = (d.read env ch samples).rv ∧
      (d'.read env ch samples).out = (d.read env ch samples).out

/-- The condition on the call and the state before it: a call that reprograms the converter finds
its calibration finishing, any other finds the slot idle and the converter at its single-shot
configuration. -/
def AdcDevice.Undisturbed (d : AdcDevice) (env : BeginHw) (id channel rate : ℕ) : Prop :=
  (d.Reprograms env id channel rate → env.calibrated = true) ∧
  (¬ d.Reprograms env id channel rate →
    (id < bridgeAdcStreamCount → (d.adc.streams id).inUse = false) ∧
    (channel < adcChannelMapCount → (d.converters (adcChannelPeriph channel)).SingleShot))

/-- A failed begin leaves no trace exactly when the converter it reprograms, if it gets that far,
finishes its calibration, and the slot and the converter were idle if it does not; one that fails
before it reprograms the converter changes nothing at all, a running stream included. -/
theorem failed_begin_no_trace_iff (d : AdcDevice) (env : BeginHw) (id channel rate : ℕ) :
    (((d.streamBegin env id channel rate).rv ≠ .ok →
      d.NoTrace (d.streamBegin env id channel rate).hw id channel) ↔
        d.Undisturbed env id channel rate) ∧
    ((d.streamBegin env id channel rate).rv ≠ .ok → ¬ d.Reprograms env id channel rate →
      (d.streamBegin env id channel rate).hw = d) := by
  have hrule := BeginRule.of_begin d env id channel rate
  generalize d.streamBegin env id channel rate = r at hrule
  cases hrule with
  | refused hrv hno =>
    refine ⟨⟨?_, ?_⟩, fun _ _ => rfl⟩
    · intro h
      exact ⟨fun hre => absurd hre hno, fun _ => ⟨(h hrv).slot, (h hrv).singleShot⟩⟩
    · rintro ⟨-, hidle⟩ -
      exact ⟨(hidle hno).1, rfl, (hidle hno).2, fun _ _ _ _ => ⟨rfl, rfl⟩⟩
  | uncalibrated hre hcal hd =>
    refine ⟨⟨?_, ?_⟩, fun _ hno => absurd hre hno⟩
    · intro h
      -- The trigger is still that of the stream.
      have hshot := ((h nofun).singleShot hre.channel_lt).trigger
      simp only [hd, AdcDevice.reprogrammed, AdcDevice.setConverter, Function.update_self] at hshot
      exact absurd hshot nofun
    · intro h
      exact absurd (h.1 hre) (Bool.eq_false_iff.mp hcal)
  | started hre hcal hd =>
    refine ⟨⟨fun _ => ?_, fun _ hrv => absurd rfl hrv⟩, fun _ hno => absurd hre hno⟩
    exact ⟨fun _ => hcal, fun hno => absurd hre hno⟩

/-- A converter that hears a software trigger only while no external one is enabled. -/
def softwareOnly : SingleReadEnv where
  vrefReady := true
  calibrated := true
  convert c _ := if c.trigger = .disable then some 4095 else none
  vrefMv := 1800

/-- A begin whose calibration does not finish leaves the converter to the stream that never
started, and the next read of the sibling channel waits for a conversion in vain. -/
theorem failed_begin_keeps_trigger :
    let r := AdcDevice.boot.streamBegin ⟨true, true, false⟩ 0 0 1000
    r.rv = .io ∧ (r.hw.converters 3).trigger = .rising ∧ (r.hw.converters 3).dma = true ∧
      (r.hw.converters 3).ddm = true ∧ ¬ AdcDevice.boot.NoTrace r.hw 0 0 ∧
      (r.hw.read softwareOnly 1 1).rv = .io ∧
      (AdcDevice.boot.read softwareOnly 1 1).rv = .ok := by
  refine ⟨by decide, by decide, by decide, by decide, fun h => ?_, by decide, by decide⟩
  exact absurd (h.singleShot (by decide)).trigger (by decide)

end Gd32Bridge
