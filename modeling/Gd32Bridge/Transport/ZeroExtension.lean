import Gd32Bridge.Ota.Rules
import Gd32Bridge.Protocol.ErrorMap
import Gd32Bridge.Transport.Extension

/-!
# When zeros after a frame are harmless

A surviving extension reaches `protocol_dispatch` with a longer payload.  It does no harm when the
opcode ignores its payload or turns the longer one away; the other cases are named here, and in
each of them some device serves what the host has not sent.
-/

namespace Gd32Bridge

open Endian

variable {σ : Type} {hal : Hal σ} {link : Link} {d : Device σ} {req : List UInt8}

/-! ### Requests that are turned away -/

/-- The checks a handler makes of a request that is not empty, at the capacity of a link. -/
def Opcode.serves (req : List UInt8) : Opcode → Bool
  | bootConfig => req.length = 5 && (req.getD 0 0 = 0 ||
      req.getD 0 0 = 1 && getLe32 req 1 &&& ~~~bootConfigKnownFlags = 0)
  | linkFeatures => req.length = 1
  | op => op.accepts req maxPayloadBytes

/-- The handler answers an error and touches nothing. -/
def Declines (x : Device σ × Outcome) (d : Device σ) : Prop :=
  ∃ st, st ≠ .ok ∧ x = refuse d st

lemma Declines.exactLen {n : ℕ} {h : Handler σ} {cap : ℕ}
    (hh : req.length = n → Declines (h d req cap) d) : Declines (exactLen n h d req cap) d := by
  by_cases hlen : req.length = n
  · rw [exactLen_of_length hlen]
    exact hh hlen
  · exact ⟨.inval, by decide, if_pos hlen⟩

lemma Declines.needCap {n : ℕ} {h : Handler σ} {cap : ℕ}
    (hh : n ≤ cap → Declines (h d req cap) d) : Declines (needCap n h d req cap) d := by
  by_cases hcap : n ≤ cap
  · rw [needCap_of_le hcap]
    exact hh hcap
  · exact ⟨.nomem, by decide, if_pos (Nat.not_le.mp hcap)⟩

/-- One check of a handler. -/
lemma Declines.check {p : Prop} [Decidable p] {st : Status} {x : Device σ × Outcome}
    (hst : st ≠ .ok) (hx : ¬ p → Declines x d) : Declines (if p then refuse d st else x) d := by
  by_cases hp : p
  · exact ⟨st, hst, if_pos hp⟩
  · rw [if_neg hp]
    exact hx hp

/-- A request that a handler does not serve is turned away. -/
lemma Opcode.handler_declines {op : Opcode} (hne : req ≠ []) (h : op.serves req = false) :
    Declines (op.handler hal link d req maxPayloadBytes) d := by
  have hlen : req.length ≠ 0 := fun h0 => hne (List.length_eq_zero_iff.mp h0)
  cases op <;> simp only [serves, accepts, Bool.and_eq_false_imp, decide_eq_true_eq,
    decide_eq_false_iff_not, Bool.and_eq_true] at h
  all_goals simp only [Opcode.handler, handlePing, handleGetVersion, handleGetBuildId,
    handleResetReason, handleDa9292Forward, handleAdcDspChainOpen, handleGpioRead, handlePwmGet,
    handlePwmCaptureRead, handleDacGet, handleQencRead, handleCounterRead, handleGpioWrite,
    handlePwmCaptureEnd, handleTimerSync, handleDacSet, handleQencReset, handleLinkFeatures,
    handlePwmSet, handlePwmConfigure, handlePwmCaptureBegin, handlePowerModeSet, handleSeReset,
    handlePwmSinglePulse, handleAdcConfigure, handleAdcStreamEnd, handleAdcDspChainBind,
    handleAdcStreamBegin, handleAdcRead, handleAdcStreamRead, handleAdcSpectrumRead,
    handleAdcDspStagePush, handleTrngRead, handleTmuCompute, handleBootConfig]
  case ping => exact .exactLen fun h0 => absurd h0 hlen
  case getVersion => exact .exactLen fun h0 => absurd h0 hlen
  case getBuildId => exact .exactLen fun h0 => absurd h0 hlen
  case resetReason => exact .exactLen fun h0 => absurd h0 hlen
  case da9292Forward => exact .exactLen fun h0 => absurd h0 hlen
  case adcDspChainOpen => exact .exactLen fun h0 => absurd h0 hlen
  case gpioRead | pwmGet | pwmCaptureRead | dacGet | qencRead | counterRead =>
    exact .exactLen fun hl => .needCap fun hc => absurd hc (h hl)
  case gpioWrite | pwmCaptureEnd | timerSync | dacSet | qencReset | linkFeatures =>
    exact .exactLen fun hl => absurd hl h
  case pwmSet =>
    exact .exactLen fun hl => .check (by decide) fun hp => absurd (UInt32.not_lt.mp hp) (h hl)
  case pwmConfigure | pwmCaptureBegin | powerModeSet | seReset =>
    exact .exactLen fun hl => .check (by decide) fun hp => absurd (UInt8.not_lt.mp hp) (h hl)
  case pwmSinglePulse => exact .exactLen fun hl => .check (by decide) fun hp => absurd hp (h hl)
  case adcConfigure =>
    exact .exactLen fun hl => .check (by decide) fun hp => absurd (not_not.mp hp) (h hl)
  case adcStreamEnd | adcDspChainBind =>
    exact .exactLen fun hl => .check (by decide) fun hp => absurd (UInt8.not_le.mp hp) (h hl)
  case adcStreamBegin =>
    exact .exactLen fun hl => .check (by decide) fun hid => .check (by decide) fun hr =>
      absurd hr (h ⟨hl, UInt8.not_le.mp hid⟩)
  case adcRead =>
    exact .exactLen fun hl => .check (by decide) fun h0 => .check (by decide) fun hm =>
      .check (by decide) fun hc => absurd (Nat.not_lt.mp hc) (h ⟨⟨hl, h0⟩, UInt8.not_lt.mp hm⟩)
  case adcStreamRead =>
    exact .exactLen fun hl => .check (by decide) fun hid => .check (by decide) fun h0 =>
      .check (by decide) fun hm =>
        absurd (UInt8.not_lt.mp hm) (h ⟨⟨hl, UInt8.not_le.mp hid⟩, h0⟩)
  case adcSpectrumRead =>
    exact .exactLen fun hl => .check (by decide) fun hid => .check (by decide) fun h0 =>
      .check (by decide) fun hm =>
        absurd (UInt8.not_lt.mp hm) (h ⟨⟨hl, UInt8.not_le.mp hid⟩, h0⟩)
  case adcDspStagePush =>
    exact .check (by decide) fun hl => .check (by decide) fun hk => .check (by decide) fun hf =>
      absurd (Nat.not_lt.mp hf) (h ⟨Nat.not_lt.mp hl, UInt8.not_lt.mp hk⟩)
  case trngRead =>
    exact .exactLen fun hl => .check (by decide) fun h0 => .check (by decide) fun hc =>
      absurd (Nat.not_lt.mp hc) (h ⟨⟨hl, (not_or.mp h0).1⟩, UInt8.not_lt.mp (not_or.mp h0).2⟩)
  case tmuCompute =>
    exact .exactLen fun hl => .needCap fun hc => .check (by decide) fun hfn =>
      .check (by decide) fun hfmt =>
        absurd (UInt8.not_le.mp hfmt) (h ⟨⟨hl, hc⟩, UInt8.not_le.mp hfn⟩)
  case bootConfig =>
    refine .exactLen fun hl => .needCap fun _ => .check (by decide) fun hsel => ?_
    simp only [Bool.or_eq_false_iff, decide_eq_false_iff_not, Bool.and_eq_false_imp,
      decide_eq_true_eq] at h
    have h1 : req.getD 0 0 = 1 := by
      have hle : (req.getD 0 0).toNat ≤ 1 := UInt8.le_iff_toNat_le.mp (UInt8.not_lt.mp hsel)
      have hne : (req.getD 0 0).toNat ≠ 0 := fun h0 => (h hl).1 (UInt8.toNat_inj.mp h0)
      apply UInt8.toNat_inj.mp
      show (req.getD 0 0).toNat = 1
      omega
    rw [if_pos h1]
    exact .check (by decide) fun hflags => absurd (not_not.mp hflags) ((h hl).2 h1)

/-! ### Requests that are served -/

/-- The request is answered OK. -/
def Serves (x : Device σ × Outcome) : Prop := ∃ p, x.2 = .reply .ok p

lemma Serves.exactLen {n : ℕ} {h : Handler σ} {cap : ℕ} (hl : req.length = n)
    (hh : Serves (h d req cap)) : Serves (exactLen n h d req cap) := by
  rw [exactLen_of_length hl]
  exact hh

lemma Serves.needCap {n : ℕ} {h : Handler σ} {cap : ℕ} (hc : n ≤ cap)
    (hh : Serves (h d req cap)) : Serves (needCap n h d req cap) := by
  rw [needCap_of_le hc]
  exact hh

lemma Serves.check {p : Prop} [Decidable p] {st : Status} {x : Device σ × Outcome} (hp : ¬ p)
    (hx : Serves x) : Serves (if p then refuse d st else x) := by
  rw [if_neg hp]
  exact hx

lemma Serves.hwReply {α : Type} {r : HwResult σ α} {ladder : HwRv → Status}
    {payload : α → List UInt8} (h : ladder r.rv = .ok) : Serves (hwReply d r ladder payload) := by
  rw [Gd32Bridge.hwReply, if_pos h]
  exact ⟨_, rfl⟩

/-- A backend whose shims all succeed, and that remembers the data of a STAGE_PUSH. -/
def recordHal : Hal (Option (List UInt8)) where
  init := none
  tick := id
  resetReason _ := 0
  da9292StatusCached _ := 0
  gpioRead a _ := ⟨a, .ok, 0⟩
  gpioWrite a _ _ := ⟨a, .ok, ()⟩
  pwmSet a _ _ _ := ⟨a, .ok, ()⟩
  pwmGet a _ := ⟨a, .ok, (0, 0)⟩
  pwmConfigure a _ _ _ _ := ⟨a, .ok, ()⟩
  pwmCaptureBegin a _ _ := ⟨a, .ok, ()⟩
  pwmCaptureRead a _ := ⟨a, .ok, (0, 0)⟩
  pwmCaptureEnd a _ := ⟨a, .ok, ()⟩
  pwmSinglePulse a _ _ := ⟨a, .ok, ()⟩
  timerSync a _ _ _ := ⟨a, .ok, ()⟩
  powerModeSet a _ _ _ := ⟨a, .ok, ()⟩
  adcRead a _ _ := ⟨a, .ok, fun _ => 0⟩
  adcConfigure a _ _ _ _ := ⟨a, .ok, ()⟩
  adcStreamBegin a _ _ _ := ⟨a, .ok, ()⟩
  adcStreamRead a _ _ := ⟨a, .ok, (0, fun _ => 0)⟩
  adcStreamEnd a _ := ⟨a, .ok, ()⟩
  adcSpectrumRead a _ _ _ := ⟨a, .ok, (0, 0, 0, fun _ => 0)⟩
  adcDspChainOpen a := ⟨a, .ok, 0⟩
  adcDspStagePush _ _ _ _ _ _ data := ⟨some data, .ok, ()⟩
  adcDspChainBind a _ _ := ⟨a, .ok, ()⟩
  trngRead a _ := ⟨a, .ok, fun _ => 0⟩
  tmuCompute a _ _ _ _ := ⟨a, .ok, 0⟩
  dacSet a _ _ := ⟨a, .ok, ()⟩
  dacGet a _ := ⟨a, .ok, 0⟩
  qencRead a _ := ⟨a, .ok, 0⟩
  qencReset a _ := ⟨a, .ok, ()⟩
  counterRead a _ := ⟨a, .ok, 0⟩
  seReset a _ := ⟨a, .ok, ()⟩

/-- A device at rest over it, whose boot flags are `flags`. -/
def recordDevice (flags : UInt32) : Device (Option (List UInt8)) :=
  ⟨restDevice.ota, ⟨flags, none⟩, ⟨0, 0⟩, none⟩

/-- A request that passes the checks is served by some device. -/
lemma Opcode.handler_serves {op : Opcode} (h : op.serves req = true) :
    Serves (op.handler recordHal .spi (recordDevice (getLe32 req 1)) req maxPayloadBytes) := by
  cases op <;> simp only [serves, accepts, Bool.and_eq_true, decide_eq_true_eq,
    Bool.false_eq_true] at h
  all_goals simp only [Opcode.handler, handleAdcDspChainOpen, handleGpioRead, handlePwmGet,
    handlePwmCaptureRead, handleDacGet, handleQencRead, handleCounterRead, handleGpioWrite,
    handlePwmCaptureEnd, handleTimerSync, handleDacSet, handleQencReset, handleLinkFeatures,
    handlePwmSet, handlePwmConfigure, handlePwmCaptureBegin, handlePowerModeSet, handleSeReset,
    handlePwmSinglePulse, handleAdcConfigure, handleAdcStreamEnd, handleAdcDspChainBind,
    handleAdcStreamBegin, handleAdcRead, handleAdcStreamRead, handleAdcSpectrumRead,
    handleAdcDspStagePush, handleTrngRead, handleTmuCompute, handleBootConfig]
  case gpioRead | pwmGet | pwmCaptureRead | dacGet | qencRead | counterRead | adcDspChainOpen =>
    exact .exactLen h.1 (.needCap h.2 (.hwReply rfl))
  case gpioWrite | pwmCaptureEnd | timerSync | dacSet | qencReset =>
    exact .exactLen h (.hwReply rfl)
  case linkFeatures => exact .exactLen h (.needCap (by decide) ⟨_, rfl⟩)
  case pwmSet => exact .exactLen h.1 (.check (UInt32.not_lt.mpr h.2) (.hwReply rfl))
  case pwmConfigure | pwmCaptureBegin | powerModeSet | seReset =>
    exact .exactLen h.1 (.check (UInt8.not_lt.mpr h.2) (.hwReply rfl))
  case pwmSinglePulse => exact .exactLen h.1 (.check h.2 (.hwReply rfl))
  case adcConfigure => exact .exactLen h.1 (.check (not_not.mpr h.2) (.hwReply rfl))
  case adcStreamEnd | adcDspChainBind =>
    exact .exactLen h.1 (.check (UInt8.not_le.mpr h.2) (.hwReply rfl))
  case adcStreamBegin =>
    exact .exactLen h.1.1 (.check (UInt8.not_le.mpr h.1.2) (.check h.2 (.hwReply rfl)))
  case adcRead =>
    exact .exactLen h.1.1.1 (.check h.1.1.2 (.check (UInt8.not_lt.mpr h.1.2)
      (.check (Nat.not_lt.mpr h.2) (.hwReply rfl))))
  case adcStreamRead =>
    refine .exactLen h.1.1.1 (.check (UInt8.not_le.mpr h.1.1.2) (.check h.1.2
      (.check (UInt8.not_lt.mpr h.2) (.check (not_not.mpr rfl)
        (.check (UInt8.not_lt.mpr UInt8.zero_le) (.check ?_ ⟨_, rfl⟩))))))
    have hmax : (req.getD 1 0).toNat ≤ 32 := UInt8.le_iff_toNat_le.mp h.2
    simp only [maxPayloadBytes]
    omega
  case adcSpectrumRead =>
    refine .exactLen h.1.1.1 (.check (UInt8.not_le.mpr h.1.1.2) (.check h.1.2
      (.check (UInt8.not_lt.mpr h.2) (.check (not_not.mpr rfl)
        (.check (UInt8.not_lt.mpr UInt8.zero_le) (.check ?_ ⟨_, rfl⟩))))))
    have hmax : (req.getD 3 0).toNat ≤ 14 := UInt8.le_iff_toNat_le.mp h.2
    simp only [maxPayloadBytes]
    omega
  case adcDspStagePush =>
    exact .check (Nat.not_lt.mpr h.1.1) (.check (UInt8.not_lt.mpr h.1.2)
      (.check (Nat.not_lt.mpr h.2) (.hwReply rfl)))
  case trngRead =>
    exact .exactLen h.1.1.1 (.check (not_or.mpr ⟨h.1.1.2, UInt8.not_lt.mpr h.1.2⟩)
      (.check (Nat.not_lt.mpr h.2) (.hwReply rfl)))
  case tmuCompute =>
    exact .exactLen h.1.1.1 (.needCap h.1.1.2 (.check (UInt8.not_le.mpr h.1.2)
      (.check (UInt8.not_le.mpr h.2) (.hwReply rfl))))
  case bootConfig =>
    simp only [Bool.or_eq_true, decide_eq_true_eq, Bool.and_eq_true] at h
    refine .exactLen h.1 (.needCap (by decide) (.check ?_ ?_))
    · rcases h.2 with h0 | ⟨h1, -⟩
      · rw [h0]
        decide
      · rw [h1]
        decide
    · rcases h.2 with h0 | ⟨h1, hflags⟩
      · rw [h0]
        exact ⟨_, rfl⟩
      · rw [if_pos h1]
        refine .check (not_not.mpr hflags) (.check (fun hne => hne.1 rfl)
          (.check (fun hne => hne.1 rfl) ?_))
        simp only [bootConfigRequest, recordDevice]
        exact ⟨_, rfl⟩

/-- The handlers other than STAGE_PUSH serve one length only. -/
lemma Opcode.handler_short {op : Opcode} {req' : List UInt8} {cap : ℕ}
    (hop : op ≠ .adcDspStagePush) (h : op.serves req = true) (hlen : req'.length ≠ req.length) :
    op.handler hal link d req' cap = refuse d .inval := by
  cases op <;> simp only [serves, accepts, Bool.and_eq_true, decide_eq_true_eq,
    Bool.false_eq_true] at h
  case adcDspStagePush => exact absurd rfl hop
  case gpioWrite | pwmCaptureEnd | timerSync | dacSet | qencReset | linkFeatures =>
    exact if_pos (h ▸ hlen)
  case adcRead | adcStreamRead | adcSpectrumRead | trngRead | tmuCompute =>
    exact if_pos (h.1.1.1 ▸ hlen)
  case adcStreamBegin => exact if_pos (h.1.1 ▸ hlen)
  all_goals exact if_pos (h.1 ▸ hlen)

/-- A STAGE_PUSH that passes the checks leaves its data. -/
lemma stagePush_recorded {d : Device (Option (List UInt8))}
    (h : Opcode.adcDspStagePush.serves req = true) :
    (Opcode.adcDspStagePush.handler recordHal .spi d req maxPayloadBytes).1.hw =
      some (req.drop 7) := by
  simp only [Opcode.serves, Opcode.accepts, Bool.and_eq_true, decide_eq_true_eq] at h
  simp only [Opcode.handler, handleAdcDspStagePush]
  rw [if_neg (Nat.not_lt.mpr h.1.1), if_neg (UInt8.not_lt.mpr h.1.2),
    if_neg (Nat.not_lt.mpr h.2)]
  rfl

/-! ### The OTA range -/

variable {o : Ota} {cap : ℕ}

/-- `h_begin` looks at its arguments only. -/
lemma hBegin_congr {req' : List UInt8} (h : 8 ≤ req.length) (h' : 8 ≤ req'.length)
    (hargs : BeginArgs.ofRequest req' = BeginArgs.ofRequest req) :
    hBegin o req' cap = hBegin o req cap := by
  simp only [hBegin, if_neg (Nat.not_lt.mpr h), if_neg (Nat.not_lt.mpr h'), hargs]

/-- The arguments are in range. -/
def BeginArgs.InRange (a : BeginArgs) : Prop := ¬ (a.imgLen = 0 ∨ a.imgLen > otaSlotSize)

instance (a : BeginArgs) : Decidable a.InRange := inferInstanceAs (Decidable (¬ _))

lemma hBegin_of_not_inRange (h : 8 ≤ req.length) (ha : ¬ (BeginArgs.ofRequest req).InRange) :
    hBegin o req cap = (o.sessionReject .sessionRange, .reply .outOfRange []) := by
  simp only [hBegin, if_neg (Nat.not_lt.mpr h)]
  exact if_pos (not_not.mp ha)

/-- The request of an OTA_WRITE_CHUNK whose length is consistent and that is not misaligned. -/
def WriteTakes (req : List UInt8) : Prop :=
  5 ≤ req.length ∧ (req.getD 4 0).toUInt32 ≠ 0 ∧
    (req.getD 4 0).toUInt32 = .ofNat req.length - 5 ∧
    (getLe32 req 0 > otaSlotSize ∨ (req.getD 4 0).toUInt32 > otaSlotSize - getLe32 req 0 ∨
      getLe32 req 0 % 8 = 0)

instance (req : List UInt8) : Decidable (WriteTakes req) := inferInstanceAs (Decidable (_ ∧ _))

/-- Otherwise the session is not touched. -/
lemma hWrite_of_not_takes (o : Ota) (cap : ℕ) (h : ¬ WriteTakes req) :
    ∃ st, st ≠ .ok ∧ hWrite o req cap = (o, .reply st []) := by
  simp only [hWrite]
  by_cases hready : o.sess.state = .ready
  swap
  · exact ⟨.notReady, by decide, if_pos hready⟩
  rw [if_neg (not_not.mpr hready)]
  by_cases hlen : req.length < 5
  · exact ⟨.inval, by decide, if_pos hlen⟩
  rw [if_neg hlen]
  by_cases hd : (req.getD 4 0).toUInt32 = 0 ∨ (req.getD 4 0).toUInt32 ≠ .ofNat req.length - 5
  · exact ⟨.inval, by decide, if_pos hd⟩
  rw [if_neg hd]
  rw [not_or, not_not] at hd
  have hrange : ¬ (getLe32 req 0 > otaSlotSize ∨
      (req.getD 4 0).toUInt32 > otaSlotSize - getLe32 req 0) := fun hr =>
    h ⟨Nat.not_lt.mp hlen, hd.1, hd.2, hr.elim .inl fun hr => .inr (.inl hr)⟩
  have halign : getLe32 req 0 % 8 ≠ 0 := fun ha =>
    h ⟨Nat.not_lt.mp hlen, hd.1, hd.2, .inr (.inr ha)⟩
  rw [if_neg hrange, if_pos halign]
  exact ⟨.inval, by decide, rfl⟩

/-- An OTA opcode with the longer payload does what the shorter one does not. -/
def OtaTakes (cmd : UInt8) (payload extended : List UInt8) : Prop :=
  (cmd = 0xF0 ∧ 8 ≤ extended.length ∧ (payload.length < 8 ∨
    (BeginArgs.ofRequest extended).InRange ∧
      BeginArgs.ofRequest extended ≠ BeginArgs.ofRequest payload)) ∨
  (cmd = 0xF1 ∧ WriteTakes extended)

instance (cmd : UInt8) (payload extended : List UInt8) :
    Decidable (OtaTakes cmd payload extended) :=
  inferInstanceAs (Decidable (_ ∨ _))

/-- The opcode takes the longer payload up. -/
def TakenUp (cmd : UInt8) (payload : List UInt8) (k : ℕ) : Prop :=
  match Opcode.ofByte cmd with
  | some op => op.serves (extendedPayload cmd payload k) = true
  | none => OtaTakes cmd payload (extendedPayload cmd payload k)

instance (cmd : UInt8) (payload : List UInt8) (k : ℕ) : Decidable (TakenUp cmd payload k) := by
  unfold TakenUp
  split <;> infer_instance

/-! ### The two captures -/

/-- The status and payload a request is answered with, when it is answered. -/
def Outcome.answer : Outcome → Option (Status × List UInt8)
  | reply st p => some (st, p)
  | _ => none

/-- The answer a transaction stages. -/
def SpiEvent.answer : SpiEvent → Option (Status × List UInt8)
  | replied _ _ st p => some (st, p)
  | failed => some (.io, [])
  | _ => none

/-- Feeding the frame with `k` zeros after it is rejected and changes nothing, or does what the
frame alone does. -/
def ExtensionSafe (hal : Hal σ) (inFlight : Bool) (d : Device σ) (s : SpiSlave) (cmd : UInt8)
    (payload : List UInt8) (k : ℕ) : Prop :=
  let ext := spiTransaction hal inFlight (spiEnvelope cmd payload ++ List.replicate k 0) d s
  let alone := spiTransaction hal inFlight (spiEnvelope cmd payload) d s
  (ext.1 = d ∧ ∃ st p, ext.2.2.answer = some (st, p) ∧ st ≠ .ok) ∨
    (ext.1 = alone.1 ∧ ext.2.1.tx = alone.2.1.tx ∧ ext.2.2.answer = alone.2.2.answer)

variable {inFlight : Bool} {s : SpiSlave} {cmd : UInt8} {payload : List UInt8} {k : ℕ}

/-- The request was answered with an error and nothing has changed. -/
def Rejects (x : Device σ × Outcome) (d : Device σ) : Prop :=
  x.1 = d ∧ ∃ st p, x.2.answer = some (st, p) ∧ st ≠ .ok

/-- The two requests end alike. -/
def SameEnd (x y : Device σ × Outcome) : Prop := x.1 = y.1 ∧ x.2.answer = y.2.answer

/-- A capture that decodes to a request does what the dispatcher does. -/
lemma spiTransaction_request (s : SpiSlave) {bs : List UInt8} (hfit : bs.length ≤ maxFrameBytes)
    (hdec : spiDecode bs = .request cmd payload) {x : Device σ × Outcome}
    (hx : protocolDispatch hal inFlight .spi cmd d payload maxPayloadBytes = x) :
    (spiTransaction hal inFlight bs d s).1 = x.1 ∧
      (spiTransaction hal inFlight bs d s).2.2.answer = x.2.answer ∧
      (spiTransaction hal inFlight bs d s).2.1.tx =
        (x.2.answer.elim [] fun a => (s.stageReply x.1.links.spi a.1 a.2).tx) := by
  obtain ⟨d', out⟩ := x
  rw [spiTransaction_eq]
  simp only [spiSlaveCsHigh, RxBuf.empty_feed_bytes, List.take_of_length_le hfit, hdec, hx]
  cases out <;> exact ⟨rfl, rfl, rfl⟩

/-- A capture that is not a request is rejected. -/
lemma spiTransaction_malformed {bs : List UInt8} (hfit : bs.length ≤ maxFrameBytes)
    (hdec : spiDecode bs = .malformed) :
    (spiTransaction hal inFlight bs d s).1 = d ∧
      (spiTransaction hal inFlight bs d s).2.2.answer = some (.io, []) := by
  rw [spiTransaction_eq]
  simp only [spiSlaveCsHigh, RxBuf.empty_feed_bytes, List.take_of_length_le hfit, hdec,
    SpiEvent.answer, true_and]

/-- The frame and its extension fit the receive buffer. -/
lemma extended_fits (cmd : UInt8) (hlen : payload.length + 4 + k ≤ maxFrameBytes) :
    (spiEnvelope cmd payload).length ≤ maxFrameBytes ∧
      (spiEnvelope cmd payload ++ List.replicate k 0).length ≤ maxFrameBytes := by
  rw [List.length_append, spiEnvelope_length, List.length_replicate]
  omega

/-- For a frame that survives, safety is a matter of the dispatcher. -/
lemma extensionSafe_iff (hk : 1 ≤ k) (hlen : payload.length + 4 + k ≤ maxFrameBytes)
    (hsurv : Survives cmd payload k) :
    ExtensionSafe hal inFlight d s cmd payload k ↔
      Rejects (protocolDispatch hal inFlight .spi cmd d (extendedPayload cmd payload k)
        maxPayloadBytes) d ∨
      SameEnd (protocolDispatch hal inFlight .spi cmd d (extendedPayload cmd payload k)
        maxPayloadBytes) (protocolDispatch hal inFlight .spi cmd d payload maxPayloadBytes) := by
  obtain ⟨hfit, hfit'⟩ := extended_fits cmd hlen
  have hdec : spiDecode (spiEnvelope cmd payload ++ List.replicate k 0) =
      .request cmd (extendedPayload cmd payload k) := by
    rw [spiDecode_extended hk, if_pos hsurv]
  obtain ⟨hd', ha', ht'⟩ := spiTransaction_request s hfit' hdec
    (Eq.refl (protocolDispatch hal inFlight .spi cmd d _ maxPayloadBytes))
  obtain ⟨hd₁, ha₁, ht₁⟩ := spiTransaction_request s hfit (spiDecode_eq_request.mpr rfl)
    (Eq.refl (protocolDispatch hal inFlight .spi cmd d payload maxPayloadBytes))
  simp only [ExtensionSafe, hd', ha', ht', hd₁, ha₁, ht₁, Rejects, SameEnd]
  constructor
  · rintro (h | ⟨hd, -, ha⟩)
    · exact .inl h
    · exact .inr ⟨hd, ha⟩
  · rintro (h | ⟨hd, ha⟩)
    · exact .inl h
    · exact .inr ⟨hd, by rw [hd, ha], ha⟩

/-! ### The dispatcher on a longer payload it does not take up -/

lemma Declines.rejects {x : Device σ × Outcome} (h : Declines x d) : Rejects x d := by
  obtain ⟨st, hst, rfl⟩ := h
  exact ⟨rfl, st, [], rfl, hst⟩

/-- The longer payload starts with the shorter one. -/
lemma exists_extendedPayload_eq (cmd : UInt8) (payload : List UInt8) (k : ℕ) :
    ∃ t, extendedPayload cmd payload k = payload ++ t := by
  rw [extendedPayload, List.append_assoc, List.take_length_add_append]
  exact ⟨_, rfl⟩

/-- The image length of a BEGIN is in the shorter payload. -/
lemma BeginArgs.inRange_append {p t : List UInt8} (h : 8 ≤ p.length) :
    (BeginArgs.ofRequest (p ++ t)).InRange ↔ (BeginArgs.ofRequest p).InRange := by
  have himg : getLe32 (p ++ t) 0 = getLe32 p 0 := getLe32_append_left p t 0 (by omega)
  simp only [InRange, ofRequest, himg]

/-- An OTA opcode that does not take the longer payload up refuses it or does not look. -/
lemma otaDispatch_safe (o : Ota) (cap : ℕ) {t : List UInt8} (h : ¬ OtaTakes cmd payload (payload ++ t)) :
    (∃ st, st ≠ .ok ∧ otaDispatch o cmd (payload ++ t) cap = (o, .reply st [])) ∨
      otaDispatch o cmd (payload ++ t) cap = otaDispatch o cmd payload cap := by
  by_cases h0 : cmd = 0xF0
  · subst h0
    simp only [otaDispatch, if_true]
    by_cases hshort : (payload ++ t).length < 8
    · exact .inl ⟨.inval, by decide, if_pos hshort⟩
    · have hext : 8 ≤ (payload ++ t).length := Nat.not_lt.mp hshort
      right
      -- the shorter payload has its arguments too, or the longer one would be taken up
      have hp : 8 ≤ payload.length := Nat.not_lt.mp fun hp => h (.inl ⟨rfl, hext, .inl hp⟩)
      by_cases hrange : (BeginArgs.ofRequest (payload ++ t)).InRange
      · refine hBegin_congr hp hext (not_not.mp fun hne => ?_)
        exact h (.inl ⟨rfl, hext, .inr ⟨hrange, hne⟩⟩)
      · rw [hBegin_of_not_inRange hext hrange]
        rw [BeginArgs.inRange_append hp] at hrange
        rw [hBegin_of_not_inRange hp hrange]
  by_cases h1 : cmd = 0xF1
  · subst h1
    left
    obtain ⟨st, hst, hw⟩ := hWrite_of_not_takes o cap fun hw => h (.inr ⟨rfl, hw⟩)
    refine ⟨st, hst, ?_⟩
    rw [← hw]
    rfl
  · -- the other opcodes do not look at the payload
    right
    simp only [otaDispatch, if_neg h0, if_neg h1]

/-- A longer payload that is not taken up is rejected, or ends as the shorter one. -/
lemma protocolDispatch_safe (hk : 1 ≤ k) (h : ¬ TakenUp cmd payload k) :
    Rejects (protocolDispatch hal inFlight .spi cmd d (extendedPayload cmd payload k)
        maxPayloadBytes) d ∨
      SameEnd (protocolDispatch hal inFlight .spi cmd d (extendedPayload cmd payload k)
        maxPayloadBytes) (protocolDispatch hal inFlight .spi cmd d payload maxPayloadBytes) := by
  have hne : extendedPayload cmd payload k ≠ [] := by
    rw [← List.length_pos_iff, extendedPayload_length]
    omega
  simp only [protocolDispatch]
  cases inFlight with
  | true => exact .inl (Declines.rejects ⟨.busy, by decide, rfl⟩)
  | false =>
    simp only [Bool.false_eq_true, if_false, protocolDispatchInner]
    by_cases htrial : d.ota.trial = true
    · simp only [htrial, if_true]
      exact .inr ⟨rfl, rfl⟩
    simp only [htrial, Bool.false_eq_true, if_false]
    simp only [TakenUp] at h
    cases hop : Opcode.ofByte cmd with
    | some op =>
      rw [hop] at h
      exact .inl (Opcode.handler_declines hne (Bool.eq_false_iff.mpr h)).rejects
    | none =>
      rw [hop] at h
      by_cases hrange : cmd ≥ cmdOtaBegin
      · simp only [if_pos hrange]
        obtain ⟨t, ht⟩ := exists_extendedPayload_eq cmd payload k
        rw [ht] at h ⊢
        rcases otaDispatch_safe d.ota maxPayloadBytes h with ⟨st, hst, heq⟩ | heq
        · rw [heq]
          exact .inl ⟨rfl, st, [], rfl, hst⟩
        · rw [heq]
          exact .inr ⟨rfl, rfl⟩
      · simp only [if_neg hrange]
        exact .inr ⟨rfl, rfl⟩

/-! ### The dispatcher on a longer payload it takes up -/

/-- On this device the longer payload is neither rejected nor ends as the shorter one. -/
def Harms (hal : Hal σ) (d : Device σ) (cmd : UInt8) (extended payload : List UInt8) : Prop :=
  ¬ Rejects (protocolDispatch hal false .spi cmd d extended maxPayloadBytes) d ∧
    ¬ SameEnd (protocolDispatch hal false .spi cmd d extended maxPayloadBytes)
      (protocolDispatch hal false .spi cmd d payload maxPayloadBytes)

lemma Serves.not_rejects {x : Device σ × Outcome} (h : Serves x) : ¬ Rejects x d := by
  rintro ⟨-, st, p, ha, hst⟩
  obtain ⟨q, hq⟩ := h
  rw [hq] at ha
  cases ha
  exact hst rfl

lemma Serves.not_sameEnd {x y : Device σ × Outcome} (h : Serves x) (hy : Rejects y d) :
    ¬ SameEnd x y := by
  rintro ⟨-, ha⟩
  obtain ⟨-, st, p, hy, hst⟩ := hy
  obtain ⟨q, hq⟩ := h
  rw [hq, hy] at ha
  cases ha
  exact hst rfl

/-- Outside a trial a peripheral opcode goes to its handler. -/
lemma protocolDispatch_handler {op : Opcode} (htrial : d.ota.trial = false)
    (hop : Opcode.ofByte cmd = some op) :
    protocolDispatch hal false link cmd d req cap = op.handler hal link d req cap := by
  simp only [protocolDispatch, protocolDispatchInner, hop, htrial, Bool.false_eq_true, if_false]

/-- A peripheral opcode that serves the longer payload does harm on some device. -/
lemma Opcode.harms {op : Opcode} {extended payload : List UInt8}
    (hop : Opcode.ofByte cmd = some op) (hlen : payload.length < extended.length)
    (h : op.serves extended = true) :
    Harms recordHal (recordDevice (getLe32 extended 1)) cmd extended payload := by
  have hserves := op.handler_serves h
  rw [Harms, protocolDispatch_handler rfl hop, protocolDispatch_handler rfl hop]
  refine ⟨hserves.not_rejects, ?_⟩
  by_cases hpush : op = .adcDspStagePush
  · subst hpush
    by_cases hp : Opcode.adcDspStagePush.serves payload = true
    · -- both are served, and the chunks have different lengths
      rintro ⟨hd, -⟩
      have hdata := congrArg Device.hw hd
      rw [stagePush_recorded h, stagePush_recorded hp, Option.some_inj] at hdata
      have hdrop := congrArg List.length hdata
      simp only [serves, accepts, Bool.and_eq_true, decide_eq_true_eq] at hp
      rw [List.length_drop, List.length_drop] at hdrop
      omega
    · by_cases hnil : payload = []
      · subst hnil
        exact hserves.not_sameEnd (Declines.rejects ⟨.inval, by decide, rfl⟩)
      · exact hserves.not_sameEnd (handler_declines hnil (Bool.eq_false_iff.mpr hp)).rejects
  · rw [handler_short hpush h (Nat.ne_of_lt hlen)]
    exact hserves.not_sameEnd (Declines.rejects ⟨.inval, by decide, rfl⟩)

/-- An OTA request that is served or moves the session, and ends in another way. -/
lemma harms_of_ota {extended payload : List UInt8} (htrial : d.ota.trial = false)
    (hop : Opcode.ofByte cmd = none) (hcmd : cmd ≥ cmdOtaBegin) {x y : Ota × Outcome}
    (hx : otaDispatch d.ota cmd extended maxPayloadBytes = x)
    (hy : otaDispatch d.ota cmd payload maxPayloadBytes = y)
    (hmoves : (∃ p, x.2 = .reply .ok p) ∨ x.1 ≠ d.ota)
    (hdiff : x.1 ≠ y.1 ∨ x.2.answer ≠ y.2.answer) :
    Harms hal d cmd extended payload := by
  simp only [Harms, protocolDispatch, protocolDispatchInner, hop, htrial, Bool.false_eq_true,
    if_false, if_pos hcmd, hx, hy]
  constructor
  · rintro ⟨hd, st, p, ha, hst⟩
    rcases hmoves with ⟨q, hq⟩ | hne
    · simp only [hq] at ha
      cases ha
      exact hst rfl
    · exact hne (congrArg Device.ota hd)
  · rintro ⟨hd, ha⟩
    rcases hdiff with hne | hne
    · exact hne (congrArg Device.ota hd)
    · exact hne ha

/-- On an erased device a BEGIN with arguments in range opens a session. -/
lemma hBegin_rest (h : 8 ≤ req.length) (ha : (BeginArgs.ofRequest req).InRange) :
    hBegin restDevice.ota req cap = beginArm restDevice.ota (.ofRequest req) cap := by
  have herased : metaCurrent restDevice.ota.board.flash = none := by decide +kernel
  simp only [hBegin, if_neg (Nat.not_lt.mpr h)]
  rw [if_neg (show ¬ (_ ∨ _) from ha), if_neg (by decide), herased]

/-- The session keeps the arguments of its BEGIN. -/
lemma openSession_inj {a a' : BeginArgs} (h : o.openSession a = o.openSession a') : a = a' := by
  have hs := congrArg Ota.sess h
  simp only [Ota.openSession, Session.mk.injEq] at hs
  obtain ⟨-, -, himg, -, hcrc, -, hver, -⟩ := hs
  cases a
  cases a'
  simp only [BeginArgs.mk.injEq]
  exact ⟨himg, hcrc, hver⟩

/-- BEGIN does harm on an erased device. -/
lemma begin_harms {extended payload : List UInt8} (hext : 8 ≤ extended.length)
    (h : payload.length < 8 ∨ (BeginArgs.ofRequest extended).InRange ∧
      BeginArgs.ofRequest extended ≠ BeginArgs.ofRequest payload) :
    Harms .stub restDevice 0xF0 extended payload := by
  refine harms_of_ota rfl rfl (by decide) (otaDispatch_begin _ _ _) (otaDispatch_begin _ _ _) ?_ ?_
  · by_cases hrange : (BeginArgs.ofRequest extended).InRange
    · rw [hBegin_rest hext hrange]
      exact .inl ⟨_, rfl⟩
    · -- the rejection is recorded in the session
      rw [hBegin_of_not_inRange hext hrange]
      exact .inr fun ho => absurd (congrArg (·.sess.state) ho) (by decide)
  · by_cases hp : payload.length < 8
    · right
      have halone : hBegin restDevice.ota payload maxPayloadBytes =
        (restDevice.ota, .reply .inval []) := if_pos hp
      rw [halone]
      by_cases hrange : (BeginArgs.ofRequest extended).InRange
      · rw [hBegin_rest hext hrange]
        intro ha
        cases ha
      · rw [hBegin_of_not_inRange hext hrange]
        intro ha
        cases ha
    · obtain ⟨hrange, hne⟩ := h.resolve_left hp
      rw [hBegin_rest hext hrange]
      by_cases hprange : (BeginArgs.ofRequest payload).InRange
      · -- two sessions, with different arguments
        rw [hBegin_rest (Nat.not_lt.mp hp) hprange]
        exact .inl fun ho => hne (openSession_inj ho)
      · rw [hBegin_of_not_inRange (Nat.not_lt.mp hp) hprange]
        right
        intro ha
        cases ha

/-- A device with a session all of whose image has been written. -/
def writtenDevice : Device Unit :=
  { restDevice with ota := { restDevice.ota with
    sess := { restDevice.ota.sess with state := .ready, lastOff := 0xFFFFFFFF } } }

/-- A chunk that is taken there is acknowledged or fails the session. -/
lemma hWrite_written (h : WriteTakes req) :
    (∃ p, (hWrite writtenDevice.ota req cap).2 = .reply .ok p) ∨
      (hWrite writtenDevice.ota req cap).1.sess.state = .error := by
  obtain ⟨hlen, hpos, hdlen, htake⟩ := h
  simp only [hWrite]
  have hreplay : getLe32 req 0 + (req.getD 4 0).toUInt32 ≤ writtenDevice.ota.sess.lastOff :=
    UInt32.le_iff_toNat_le.mpr (Nat.le_of_lt_succ (UInt32.toNat_lt _))
  rw [if_neg (by decide), if_neg (Nat.not_lt.mpr hlen),
    if_neg (not_or.mpr ⟨hpos, not_not.mpr hdlen⟩), if_pos hreplay]
  split_ifs with hrange halign hsame
  · exact .inr rfl
  · rcases htake with h | h | h
    · exact absurd (.inl h) hrange
    · exact absurd (.inr h) hrange
    · exact absurd h halign
  · exact .inl ⟨_, rfl⟩
  · exact .inr rfl

/-- A chunk whose length byte fits the longer payload does not fit the shorter one. -/
lemma hWrite_shorter {t : List UInt8} (h : WriteTakes (payload ++ t)) (ht : t ≠ [])
    (hsize : (payload ++ t).length ≤ maxPayloadBytes) :
    hWrite writtenDevice.ota payload cap = (writtenDevice.ota, .reply .inval []) := by
  obtain ⟨hlen, hpos, hdlen, -⟩ := h
  simp only [hWrite]
  rw [if_neg (by decide)]
  by_cases hp : payload.length < 5
  · exact if_pos hp
  rw [if_neg hp]
  refine if_pos (.inr fun heq => ?_)
  have hbyte : (payload ++ t).getD 4 0 = payload.getD 4 0 := List.getD_append _ _ _ _ (by omega)
  rw [hbyte, heq] at hdlen
  have hnat := congrArg UInt32.toNat ((UInt32.sub_left_inj _).mp hdlen)
  have htpos : 0 < t.length := List.length_pos_iff.mpr ht
  rw [List.length_append] at hnat hsize
  simp only [maxPayloadBytes] at hsize
  rw [UInt32.toNat_ofNat_of_lt' (by simp [UInt32.size]; omega),
    UInt32.toNat_ofNat_of_lt' (by simp [UInt32.size]; omega)] at hnat
  omega

/-- A chunk does harm on a device that replays it. -/
lemma write_harms {t : List UInt8} (ht : t ≠ [])
    (hsize : (payload ++ t).length ≤ maxPayloadBytes) (h : WriteTakes (payload ++ t)) :
    Harms .stub writtenDevice 0xF1 (payload ++ t) payload := by
  have halone := (otaDispatch_write writtenDevice.ota payload maxPayloadBytes).trans
    (hWrite_shorter h ht hsize)
  refine harms_of_ota rfl rfl (by decide) (otaDispatch_write _ _ _) halone ?_ ?_
  · rcases hWrite_written h with hok | herr
    · exact .inl hok
    · exact .inr fun ho => absurd (herr.symm.trans (congrArg (·.sess.state) ho)) (by decide)
  · rcases hWrite_written h with ⟨p, hp⟩ | herr
    · right
      rw [hp]
      intro ha
      cases ha
    · exact .inl fun ho => absurd (herr.symm.trans (congrArg (·.sess.state) ho)) (by decide)

/-- A longer payload that is taken up does harm on some device. -/
lemma protocolDispatch_harms (hk : 1 ≤ k) (hlen : payload.length + 4 + k ≤ maxFrameBytes)
    (h : TakenUp cmd payload k) :
    ∃ (σ : Type) (hal : Hal σ) (d : Device σ),
      Harms hal d cmd (extendedPayload cmd payload k) payload := by
  simp only [TakenUp] at h
  cases hop : Opcode.ofByte cmd with
  | some op =>
    rw [hop] at h
    exact ⟨_, _, _, Opcode.harms hop (by rw [extendedPayload_length]; omega) h⟩
  | none =>
    rw [hop] at h
    rcases h with ⟨rfl, hext, h⟩ | ⟨rfl, h⟩
    · exact ⟨_, _, _, begin_harms hext h⟩
    · obtain ⟨t, ht⟩ := exists_extendedPayload_eq 0xF1 payload k
      have htlen := congrArg List.length ht
      rw [extendedPayload_length, List.length_append, Nat.add_left_cancel_iff] at htlen
      rw [ht] at h ⊢
      refine ⟨_, _, _, write_harms (List.length_pos_iff.mp (by omega)) ?_ h⟩
      simp only [maxFrameBytes] at hlen
      rw [List.length_append]
      omega

/-! ### The extensions that are safe -/

/-- For every request frame and every run of zeros after it that fits the receive buffer: the
extended capture is, on every device, rejected without a change or as good as the frame alone, if
and only if its check fails or its opcode does not take the longer payload up. -/
theorem zero_extension_safe_iff (cmd : UInt8) (payload : List UInt8) (k : ℕ) (hk : 1 ≤ k)
    (hlen : (spiEnvelope cmd payload).length + k ≤ maxFrameBytes) :
    (∀ (σ : Type) (hal : Hal σ) (inFlight : Bool) (d : Device σ) (s : SpiSlave),
      ExtensionSafe hal inFlight d s cmd payload k) ↔
      ¬ (Survives cmd payload k ∧ TakenUp cmd payload k) := by
  rw [spiEnvelope_length] at hlen
  constructor
  · rintro hsafe ⟨hsurv, htaken⟩
    obtain ⟨σ, hal, d, hrej, hsame⟩ := protocolDispatch_harms hk hlen htaken
    rcases (extensionSafe_iff hk hlen hsurv).mp (hsafe σ hal false d .init) with h | h
    · exact hrej h
    · exact hsame h
  · intro h σ hal inFlight d s
    by_cases hsurv : Survives cmd payload k
    · exact (extensionSafe_iff hk hlen hsurv).mpr
        (protocolDispatch_safe hk fun htaken => h ⟨hsurv, htaken⟩)
    · have hdec : spiDecode (spiEnvelope cmd payload ++ List.replicate k 0) = .malformed := by
        rw [spiDecode_extended hk, if_neg hsurv]
      obtain ⟨hd, ha⟩ := spiTransaction_malformed (extended_fits cmd hlen).2 hdec
      exact .inl ⟨hd, .io, [], ha, by decide⟩

/-- An OTA_WRITE_CHUNK of eight bytes whose check bytes are equal. -/
def palindromicChunk : List UInt8 := [0, 0, 0, 0, 8, 1, 2, 3, 4, 5, 6, 0xAA, 0x01]

/-- Its extension by three zeros keeps a valid check, and the length byte turns it away. -/
theorem zero_extension_safe_chunk : Survives 0xF1 palindromicChunk 3 ∧
    ∀ (hal : Hal Unit) (inFlight : Bool) (d : Device Unit) (s : SpiSlave),
      ExtensionSafe hal inFlight d s 0xF1 palindromicChunk 3 :=
  ⟨by decide +kernel, (zero_extension_safe_iff 0xF1 palindromicChunk 3 (by decide)
    (by decide)).mpr (fun h => absurd h.2 (by decide +kernel)) Unit⟩

/-- An OTA_BEGIN without a version: 264 bytes, check value 0x44332211.  The check bytes of its
frame are equal. -/
def versionlessBegin : List UInt8 := [0x08, 0x01, 0, 0, 0x11, 0x22, 0x33, 0x44]

/-- With three zeros after it the BEGIN opens a session whose version is made of its check
bytes. -/
theorem versionless_begin_extension : ¬ ∀ (cmd : UInt8) (payload : List UInt8) (k : ℕ), 1 ≤ k →
    (spiEnvelope cmd payload).length + k ≤ maxFrameBytes →
      ∀ (hal : Hal Unit) (inFlight : Bool) (d : Device Unit) (s : SpiSlave),
        ExtensionSafe hal inFlight d s cmd payload k := by
  intro h
  have hext : extendedPayload 0xF0 versionlessBegin 3 = versionlessBegin ++ [0x91, 0x91, 0] := by
    decide +kernel
  have hharm : Harms .stub restDevice 0xF0 (extendedPayload 0xF0 versionlessBegin 3)
      versionlessBegin := by
    rw [hext]
    exact begin_harms (by decide) (.inr ⟨by decide, by decide⟩)
  have hsurv : Survives 0xF0 versionlessBegin 3 := by decide +kernel
  rcases (extensionSafe_iff (by decide) (by decide) hsurv).mp
    (h 0xF0 versionlessBegin 3 (by decide) (by decide) .stub false restDevice .init) with hr | hr
  · exact hharm.1 hr
  · exact hharm.2 hr

end Gd32Bridge
