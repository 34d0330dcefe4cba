import Mathlib.Algebra.Group.Int.Defs
import Mathlib.Algebra.Group.Nat.Defs
import Mathlib.Data.List.Basic

/-!
# The hardware shims (`hal/bridge_hw.h`)

The handler table only sees the peripherals through these functions, so they are a parameter:
each takes the peripheral state `σ` and returns the new state, the return code and what it
stores through its output pointers.
-/

namespace Gd32Bridge

/-- `BRIDGE_HW_OK` and the `BRIDGE_HW_ERR_*` codes. -/
inductive HwRv
  | ok
  | notimpl
  | inval
  | range
  | io
  | busy
  | notReady
deriving DecidableEq, Repr

/-- What a shim that yields `α` returns. -/
structure HwResult (σ α : Type) where
  hw : σ
  rv : HwRv
  out : α

structure Hal (σ : Type) where
  /-- `bridge_hw_init` -/
  init : σ
  /-- the base-level part of `bridge_hw_tick` that is not OTA or boot config -/
  tick : σ → σ
  resetReason : σ → UInt8
  da9292StatusCached : σ → UInt8
  gpioRead : σ → UInt32 → HwResult σ UInt32
  gpioWrite : σ → UInt32 → UInt32 → HwResult σ Unit
  pwmSet : σ → UInt8 → UInt32 → UInt32 → HwResult σ Unit
  pwmGet : σ → UInt8 → HwResult σ (UInt32 × UInt32)
  pwmConfigure : σ → UInt8 → UInt8 → UInt32 → UInt8 → HwResult σ Unit
  pwmCaptureBegin : σ → UInt8 → UInt8 → HwResult σ Unit
  pwmCaptureRead : σ → UInt8 → HwResult σ (UInt32 × UInt32)
  pwmCaptureEnd : σ → UInt8 → HwResult σ Unit
  pwmSinglePulse : σ → UInt8 → UInt32 → HwResult σ Unit
  timerSync : σ → UInt8 → UInt8 → UInt8 → HwResult σ Unit
  powerModeSet : σ → UInt8 → UInt32 → UInt32 → HwResult σ Unit
  adcRead : σ → UInt8 → UInt8 → HwResult σ (ℕ → UInt16)
  adcConfigure : σ → UInt8 → UInt16 → UInt16 → UInt8 → HwResult σ Unit
  adcStreamBegin : σ → UInt8 → UInt8 → UInt32 → HwResult σ Unit
  /-- samples got, and the samples -/
  adcStreamRead : σ → UInt8 → UInt8 → HwResult σ (UInt8 × (ℕ → UInt16))
  adcStreamEnd : σ → UInt8 → HwResult σ Unit
  /-- sequence number, total bins, bins got, and the bins as raw words -/
  adcSpectrumRead : σ → UInt8 → UInt16 → UInt8 →
    HwResult σ (UInt32 × UInt16 × UInt8 × (ℕ → UInt32))
  adcDspChainOpen : σ → HwResult σ UInt8
  adcDspStagePush : σ → UInt8 → UInt8 → UInt8 → UInt16 → UInt16 → List UInt8 → HwResult σ Unit
  adcDspChainBind : σ → UInt8 → UInt8 → HwResult σ Unit
  trngRead : σ → UInt8 → HwResult σ (ℕ → UInt8)
  tmuCompute : σ → UInt8 → UInt8 → UInt32 → UInt32 → HwResult σ UInt32
  dacSet : σ → UInt8 → UInt16 → HwResult σ Unit
  dacGet : σ → UInt8 → HwResult σ UInt16
  qencRead : σ → UInt8 → HwResult σ UInt32
  qencReset : σ → UInt8 → HwResult σ Unit
  counterRead : σ → UInt8 → HwResult σ UInt32
  seReset : σ → UInt8 → HwResult σ Unit

/-- A shim that is not there: the outputs are zeroed, `BRIDGE_HW_ERR_NOTIMPL` is returned. -/
def HwResult.notimpl {α : Type} (out : α) : HwResult Unit α :=
  ⟨(), .notimpl, out⟩

/-- The backend without peripherals, `hal/bridge_hw_stub.c`. -/
def Hal.stub : Hal Unit where
  init := ()
  tick := id
  resetReason _ := 0
  da9292StatusCached _ := 0xFF
  gpioRead _ _ := .notimpl 0
  gpioWrite _ _ _ := .notimpl ()
  pwmSet _ _ _ _ := .notimpl ()
  pwmGet _ _ := .notimpl (0, 0)
  pwmConfigure _ _ _ _ _ := .notimpl ()
  pwmCaptureBegin _ _ _ := .notimpl ()
  pwmCaptureRead _ _ := .notimpl (0, 0)
  pwmCaptureEnd _ _ := .notimpl ()
  pwmSinglePulse _ _ _ := .notimpl ()
  timerSync _ _ _ _ := .notimpl ()
  powerModeSet _ _ _ _ := .notimpl ()
  adcRead _ _ _ := .notimpl fun _ => 0
  adcConfigure _ _ _ _ _ := .notimpl ()
  adcStreamBegin _ _ _ _ := .notimpl ()
  adcStreamRead _ _ _ := .notimpl (0, fun _ => 0)
  adcStreamEnd _ _ := .notimpl ()
  adcSpectrumRead _ _ _ _ := .notimpl (0, 0, 0, fun _ => 0)
  adcDspChainOpen _ := .notimpl 0
  adcDspStagePush _ _ _ _ _ _ _ := .notimpl ()
  adcDspChainBind _ _ _ := .notimpl ()
  trngRead _ _ := .notimpl fun _ => 0
  tmuCompute _ _ _ _ _ := .notimpl 0
  dacSet _ _ _ := .notimpl ()
  dacGet _ _ := .notimpl 0
  qencRead _ _ := .notimpl 0
  qencReset _ _ := .notimpl ()
  counterRead _ _ := .notimpl 0
  seReset _ _ := .notimpl ()

end Gd32Bridge
