import Gd32Bridge.Protocol.Basic

/-!
# How the handlers report a shim's error

`status_from_hw` is meant to be the one translation of the shims' error codes.  Some handlers go
through it, others keep a ladder of their own, and a code that the ladder does not name comes out as
`STATUS_IO`.
-/

namespace Gd32Bridge

open Endian

variable {σ : Type}

/-! ### What a handler asks of a request before it calls its shim -/

/-- The checks in front of the shim call; a handler without one accepts nothing. -/
def Opcode.accepts (req : List UInt8) (cap : ℕ) : Opcode → Bool
  | gpioRead => req.length = 4 && 4 ≤ cap
  | gpioWrite => req.length = 8
  | pwmSet => req.length = 10 && getLe32 req 6 ≤ getLe32 req 2
  | pwmGet => req.length = 1 && 8 ≤ cap
  | pwmConfigure => req.length = 7 && req.getD 1 0 ≤ 3
  | pwmCaptureBegin => req.length = 2 && req.getD 1 0 ≤ 2
  | pwmCaptureRead => req.length = 1 && 8 ≤ cap
  | pwmCaptureEnd => req.length = 1
  | pwmSinglePulse => req.length = 8 && getLe32 req 4 ≠ 0
  | timerSync => req.length = 3
  | powerModeSet => req.length = 10 && req.getD 0 0 ≤ 3
  | adcRead => req.length = 2 && req.getD 1 0 ≠ 0 && req.getD 1 0 ≤ adcMaxSamples &&
      1 + (req.getD 1 0).toNat * 2 ≤ cap
  | adcConfigure => req.length = 7 && req.getD 6 0 ∈ ([0, 6, 8, 10, 12, 14, 16] : List UInt8)
  | adcStreamBegin => req.length = 7 && req.getD 0 0 < adcStreamCount && getLe32 req 3 ≠ 0
  | adcStreamRead => req.length = 2 && req.getD 0 0 < adcStreamCount && req.getD 1 0 ≠ 0 &&
      req.getD 1 0 ≤ adcStreamReadMax
  | adcStreamEnd => req.length = 1 && req.getD 0 0 < adcStreamCount
  | adcDspChainOpen => req.length = 0 && 1 ≤ cap
  | adcDspStagePush => 7 ≤ req.length && req.getD 2 0 ≤ 3 &&
      (getLe16 req 3).toNat + (req.drop 7).length ≤ (getLe16 req 5).toNat
  | adcDspChainBind => req.length = 2 && req.getD 1 0 < adcStreamCount
  | adcSpectrumRead => req.length = 4 && req.getD 0 0 < adcStreamCount && req.getD 3 0 ≠ 0 &&
      req.getD 3 0 ≤ adcSpectrumReadMax
  | seReset => req.length = 1 && req.getD 0 0 ≤ 1
  | dacSet => req.length = 4
  | dacGet => req.length = 1 && 2 ≤ cap
  | qencRead => req.length = 1 && 4 ≤ cap
  | qencReset => req.length = 1
  | counterRead => req.length = 1 && 4 ≤ cap
  | trngRead => req.length = 1 && req.getD 0 0 ≠ 0 && req.getD 0 0 ≤ 32 &&
      (req.getD 0 0).toNat ≤ cap
  | tmuCompute => req.length = 12 && 4 ≤ cap && req.getD 0 0 < tmuFnCount &&
      req.getD 1 0 < tmuFmtCount
  | ping | getVersion | getBuildId | resetReason | da9292Forward | bootConfig | linkFeatures => false

/-- The return code of the shim the handler calls for a request it accepts. -/
def Opcode.shimRv (hal : Hal σ) (hw : σ) (req : List UInt8) : Opcode → HwRv
  | gpioRead => (hal.gpioRead hw (getLe32 req 0)).rv
  | gpioWrite => (hal.gpioWrite hw (getLe32 req 0) (getLe32 req 4)).rv
  | pwmSet => (hal.pwmSet hw (req.getD 0 0) (getLe32 req 2) (getLe32 req 6)).rv
  | pwmGet => (hal.pwmGet hw (req.getD 0 0)).rv
  | pwmConfigure =>
    (hal.pwmConfigure hw (req.getD 0 0) (req.getD 1 0) (getLe32 req 2) (req.getD 6 0)).rv
  | pwmCaptureBegin => (hal.pwmCaptureBegin hw (req.getD 0 0) (req.getD 1 0)).rv
  | pwmCaptureRead => (hal.pwmCaptureRead hw (req.getD 0 0)).rv
  | pwmCaptureEnd => (hal.pwmCaptureEnd hw (req.getD 0 0)).rv
  | pwmSinglePulse => (hal.pwmSinglePulse hw (req.getD 0 0) (getLe32 req 4)).rv
  | timerSync => (hal.timerSync hw (req.getD 0 0) (req.getD 1 0) (req.getD 2 0)).rv
  | powerModeSet => (hal.powerModeSet hw (req.getD 0 0) (getLe32 req 2) (getLe32 req 6)).rv
  | adcRead => (hal.adcRead hw (req.getD 0 0) (req.getD 1 0)).rv
  | adcConfigure =>
    (hal.adcConfigure hw (req.getD 0 0) (getLe16 req 2) (getLe16 req 4) (req.getD 6 0)).rv
  | adcStreamBegin => (hal.adcStreamBegin hw (req.getD 0 0) (req.getD 1 0) (getLe32 req 3)).rv
  | adcStreamRead => (hal.adcStreamRead hw (req.getD 0 0) (req.getD 1 0)).rv
  | adcStreamEnd => (hal.adcStreamEnd hw (req.getD 0 0)).rv
  | adcDspChainOpen => (hal.adcDspChainOpen hw).rv
  | adcDspStagePush => (hal.adcDspStagePush hw (req.getD 0 0) (req.getD 1 0) (req.getD 2 0)
      (getLe16 req 3) (getLe16 req 5) (req.drop 7)).rv
  | adcDspChainBind => (hal.adcDspChainBind hw (req.getD 0 0) (req.getD 1 0)).rv
  | adcSpectrumRead => (hal.adcSpectrumRead hw (req.getD 0 0) (getLe16 req 1) (req.getD 3 0)).rv
  | seReset => (hal.seReset hw (req.getD 0 0)).rv
  | dacSet => (hal.dacSet hw (req.getD 0 0) (getLe16 req 2)).rv
  | dacGet => (hal.dacGet hw (req.getD 0 0)).rv
  | qencRead => (hal.qencRead hw (req.getD 0 0)).rv
  | qencReset => (hal.qencReset hw (req.getD 0 0)).rv
  | counterRead => (hal.counterRead hw (req.getD 0 0)).rv
  | trngRead => (hal.trngRead hw (req.getD 0 0)).rv
  | tmuCompute =>
    (hal.tmuCompute hw (req.getD 0 0) (req.getD 1 0) (getLe32 req 4) (getLe32 req 8)).rv
  | ping | getVersion | getBuildId | resetReason | da9292Forward | bootConfig | linkFeatures => .ok

/-- The error codes a handler's own ladder flattens to `STATUS_IO`. -/
def Opcode.flattened : Opcode → List HwRv
  | gpioRead | gpioWrite => [.inval, .range, .notimpl, .busy, .notReady]
  | seReset | dacGet | qencRead | qencReset | counterRead => [.range, .busy, .notReady]
  | dacSet | pwmConfigure | adcConfigure | adcStreamBegin | tmuCompute => [.busy, .notReady]
  | adcStreamEnd => [.inval, .range, .busy, .notReady]
  | adcSpectrumRead => [.inval, .range, .notReady]
  | _ => []

/-- The ladder by which a handler reports an error code. -/
def Opcode.ladder : Opcode → HwRv → Status
  | gpioRead | gpioWrite => statusIo
  | seReset | dacGet | qencRead | qencReset | counterRead => statusInvalNotimpl
  | dacSet | pwmConfigure | adcConfigure | adcStreamBegin | tmuCompute => statusInvalRangeNotimpl
  | adcStreamEnd => statusNotimpl
  | adcSpectrumRead => statusNotimplBusy
  | _ => statusFromHw

/-- A ladder agrees with the table except on the codes it flattens. -/
lemma Opcode.ladder_eq_iff {op : Opcode} {rv : HwRv} (h : rv ≠ .ok) :
    op.ladder rv = statusFromHw rv ↔ rv ∉ op.flattened := by
  cases op <;> cases rv <;> first | exact absurd rfl h | decide

lemma Opcode.ladder_ne_ok {op : Opcode} {rv : HwRv} (h : rv ≠ .ok) : op.ladder rv ≠ .ok := by
  cases op <;> cases rv <;> first | exact absurd rfl h | decide

lemma exactLen_of_length {n : ℕ} {h : Handler σ} {d : Device σ} {req : List UInt8} {cap : ℕ}
    (hlen : req.length = n) : exactLen n h d req cap = h d req cap :=
  if_neg (not_not.mpr hlen)

lemma needCap_of_le {n : ℕ} {h : Handler σ} {d : Device σ} {req : List UInt8} {cap : ℕ}
    (hcap : n ≤ cap) : needCap n h d req cap = h d req cap :=
  if_neg (Nat.not_lt.mpr hcap)

lemma hwReply_error {α : Type} {d : Device σ} {r : HwResult σ α} {ladder : HwRv → Status}
    {payload : α → List UInt8} (h : ladder r.rv ≠ .ok) :
    (hwReply d r ladder payload).2 = .reply (ladder r.rv) [] := by
  rw [hwReply, if_neg h]
  rfl

/-- A request that is accepted is answered by the ladder when the shim reports an error. -/
lemma Opcode.handler_error {hal : Hal σ} {link : Link} {op : Opcode} {d : Device σ}
    {req : List UInt8} {cap : ℕ} (hacc : op.accepts req cap = true)
    (herr : op.shimRv hal d.hw req ≠ .ok) :
    (op.handler hal link d req cap).2 = .reply (op.ladder (op.shimRv hal d.hw req)) [] := by
  have hne : op.ladder (op.shimRv hal d.hw req) ≠ .ok := ladder_ne_ok herr
  cases op <;> simp only [accepts, Bool.and_eq_true, decide_eq_true_eq, Bool.false_eq_true] at hacc
  case gpioRead | pwmGet | pwmCaptureRead | adcDspChainOpen | dacGet | qencRead | counterRead =>
    refine (congrArg Prod.snd (exactLen_of_length hacc.1)).trans ?_
    refine (congrArg Prod.snd (needCap_of_le hacc.2)).trans ?_
    exact hwReply_error hne
  case gpioWrite | pwmCaptureEnd | timerSync | dacSet | qencReset =>
    refine (congrArg Prod.snd (exactLen_of_length hacc)).trans ?_
    exact hwReply_error hne
  case pwmSet =>
    refine (congrArg Prod.snd (exactLen_of_length hacc.1)).trans ?_
    refine (congrArg Prod.snd (if_neg (UInt32.not_lt.mpr hacc.2))).trans ?_
    exact hwReply_error hne
  case pwmConfigure | pwmCaptureBegin | powerModeSet | seReset =>
    refine (congrArg Prod.snd (exactLen_of_length hacc.1)).trans ?_
    refine (congrArg Prod.snd (if_neg (UInt8.not_lt.mpr hacc.2))).trans ?_
    exact hwReply_error hne
  case pwmSinglePulse =>
    refine (congrArg Prod.snd (exactLen_of_length hacc.1)).trans ?_
    refine (congrArg Prod.snd (if_neg hacc.2)).trans ?_
    exact hwReply_error hne
  case adcConfigure =>
    refine (congrArg Prod.snd (exactLen_of_length hacc.1)).trans ?_
    refine (congrArg Prod.snd (if_neg (not_not.mpr hacc.2))).trans ?_
    exact hwReply_error hne
  case adcStreamEnd | adcDspChainBind =>
    refine (congrArg Prod.snd (exactLen_of_length hacc.1)).trans ?_
    refine (congrArg Prod.snd (if_neg (UInt8.not_le.mpr hacc.2))).trans ?_
    exact hwReply_error hne
  case adcStreamBegin =>
    obtain ⟨⟨hlen, hid⟩, hrate⟩ := hacc
    refine (congrArg Prod.snd (exactLen_of_length hlen)).trans ?_
    refine (congrArg Prod.snd (if_neg (UInt8.not_le.mpr hid))).trans ?_
    refine (congrArg Prod.snd (if_neg hrate)).trans ?_
    exact hwReply_error hne
  case adcRead =>
    obtain ⟨⟨⟨hlen, hpos⟩, hmax⟩, hcap⟩ := hacc
    refine (congrArg Prod.snd (exactLen_of_length hlen)).trans ?_
    refine (congrArg Prod.snd (if_neg hpos)).trans ?_
    refine (congrArg Prod.snd (if_neg (UInt8.not_lt.mpr hmax))).trans ?_
    refine (congrArg Prod.snd (if_neg (Nat.not_lt.mpr hcap))).trans ?_
    exact hwReply_error hne
  case adcStreamRead =>
    -- the verdict of the shim comes before the remaining checks
    obtain ⟨⟨⟨hlen, hid⟩, hpos⟩, hmax⟩ := hacc
    refine (congrArg Prod.snd (exactLen_of_length hlen)).trans ?_
    refine (congrArg Prod.snd (if_neg (UInt8.not_le.mpr hid))).trans ?_
    refine (congrArg Prod.snd (if_neg hpos)).trans ?_
    refine (congrArg Prod.snd (if_neg (UInt8.not_lt.mpr hmax))).trans ?_
    exact congrArg Prod.snd (if_pos hne)
  case adcSpectrumRead =>
    obtain ⟨⟨⟨hlen, hid⟩, hpos⟩, hmax⟩ := hacc
    refine (congrArg Prod.snd (exactLen_of_length hlen)).trans ?_
    refine (congrArg Prod.snd (if_neg (UInt8.not_le.mpr hid))).trans ?_
    refine (congrArg Prod.snd (if_neg hpos)).trans ?_
    refine (congrArg Prod.snd (if_neg (UInt8.not_lt.mpr hmax))).trans ?_
    exact congrArg Prod.snd (if_pos hne)
  case adcDspStagePush =>
    obtain ⟨⟨hlen, hkind⟩, hfit⟩ := hacc
    refine (congrArg Prod.snd (if_neg (Nat.not_lt.mpr hlen))).trans ?_
    refine (congrArg Prod.snd (if_neg (UInt8.not_lt.mpr hkind))).trans ?_
    refine (congrArg Prod.snd (if_neg (Nat.not_lt.mpr hfit))).trans ?_
    exact hwReply_error hne
  case trngRead =>
    obtain ⟨⟨⟨hlen, hpos⟩, hmax⟩, hcap⟩ := hacc
    refine (congrArg Prod.snd (exactLen_of_length hlen)).trans ?_
    refine (congrArg Prod.snd (if_neg (not_or.mpr ⟨hpos, UInt8.not_lt.mpr hmax⟩))).trans ?_
    refine (congrArg Prod.snd (if_neg (Nat.not_lt.mpr hcap))).trans ?_
    exact hwReply_error hne
  case tmuCompute =>
    obtain ⟨⟨⟨hlen, hcap⟩, hfn⟩, hfmt⟩ := hacc
    refine (congrArg Prod.snd (exactLen_of_length hlen)).trans ?_
    refine (congrArg Prod.snd (needCap_of_le hcap)).trans ?_
    refine (congrArg Prod.snd (if_neg (UInt8.not_le.mpr hfn))).trans ?_
    refine (congrArg Prod.snd (if_neg (UInt8.not_le.mpr hfmt))).trans ?_
    exact hwReply_error hne

/-- For every handler with a shim, every shim, device and accepted request: an error code is
reported as `status_from_hw` reports it if and only if it is not one the handler's own ladder
flattens to `STATUS_IO`. -/
theorem error_reported_iff (hal : Hal σ) (link : Link) (op : Opcode) (d : Device σ)
    (req : List UInt8) (cap : ℕ) (hacc : op.accepts req cap = true)
    (herr : op.shimRv hal d.hw req ≠ .ok) :
    (op.handler hal link d req cap).2 = .reply (statusFromHw (op.shimRv hal d.hw req)) [] ↔
      op.shimRv hal d.hw req ∉ op.flattened := by
  rw [Opcode.handler_error hacc herr, ← Opcode.ladder_eq_iff herr]
  simp

/-- The backend without peripherals refuses PWM_GET, and the refusal reaches the wire. -/
theorem error_reported_pwm_get :
    Opcode.pwmGet.accepts [0] maxPayloadBytes = true ∧
      (Opcode.pwmGet.handler .stub .spi restDevice [0] maxPayloadBytes).2 =
        .reply (statusFromHw .notimpl) [] :=
  ⟨rfl, (error_reported_iff .stub .spi .pwmGet restDevice [0] maxPayloadBytes rfl (by decide)).mpr
    (by decide)⟩

/-- Its refusal of GPIO_READ is flattened to `STATUS_IO`. -/
theorem gpio_read_error_flattened :
    ¬ ∀ (op : Opcode) (d : Device Unit) (req : List UInt8),
      op.accepts req maxPayloadBytes = true → op.shimRv .stub d.hw req ≠ .ok →
        (op.handler .stub .spi d req maxPayloadBytes).2 =
          .reply (statusFromHw (op.shimRv .stub d.hw req)) [] := by
  intro h
  have hreply := h .gpioRead restDevice [0, 0, 0, 0x80] rfl (by decide)
  cases hreply

end Gd32Bridge
