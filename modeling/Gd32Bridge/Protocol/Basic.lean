import Gd32Bridge.BootConfig
import Gd32Bridge.Ota.Basic
import Gd32Bridge.Protocol.Hal

/-!
# The command table (`src/protocol.c`)

One handler for each opcode over the shared device state.  Handlers differ in the payload length
they ask for, in what they check, in the shim they call and in how they report its error; the
common frame is `exactLen` around the first and `hwReply` around the last two.
-/

namespace Gd32Bridge

open Endian

/-- `gd32_bridge_link_t` -/
inductive Link
  | spi
  | i2c
deriving DecidableEq, Repr

/-- `link_features`, one entry per link. -/
structure LinkFeatures where
  spi : UInt8
  i2c : UInt8
deriving DecidableEq, Repr

namespace LinkFeatures

def get (f : LinkFeatures) : Link → UInt8
  | .spi => f.spi
  | .i2c => f.i2c

def set (f : LinkFeatures) (v : UInt8) : Link → LinkFeatures
  | .spi => { f with spi := v }
  | .i2c => { f with i2c := v }

end LinkFeatures

/-- Everything a request can reach. -/
structure Device (σ : Type) where
  ota : Ota
  cfg : BootConfig
  links : LinkFeatures
  hw : σ

/-- `GD32_BRIDGE_MAX_PAYLOAD_BYTES` -/
def maxPayloadBytes : ℕ := 65

def adcMaxSamples : UInt8 := 8
def adcStreamCount : UInt8 := 2
def adcStreamReadMax : UInt8 := 32
def adcSpectrumReadMax : UInt8 := 14
def tmuFnCount : UInt8 := 12
def tmuFmtCount : UInt8 := 2

/-- `PROTOCOL_VERSION_MAJOR`, `_MINOR`, `_PATCH` -/
def protocolVersion : List UInt8 := [0, 14, 1]

/-- `GD32_BRIDGE_BUILD_ID`, the placeholder of a build without the generated header:
"0000000000000000abcd" -/
def buildId : List UInt8 := List.replicate 16 0x30 ++ [0x61, 0x62, 0x63, 0x64]

/-! ### Error ladders -/

/-- `status_from_hw` -/
def statusFromHw : HwRv → Status
  | .ok => .ok
  | .inval => .inval
  | .range => .outOfRange
  | .notimpl => .nosupport
  | .busy => .busy
  | .notReady => .notReady
  | .io => .io

/-- `rv < 0` is `STATUS_IO`, whatever the code. -/
def statusIo : HwRv → Status
  | .ok => .ok
  | _ => .io

/-- The ladder INVAL, NOTIMPL, else IO. -/
def statusInvalNotimpl : HwRv → Status
  | .ok => .ok
  | .inval => .inval
  | .notimpl => .nosupport
  | _ => .io

/-- The ladder INVAL, RANGE, NOTIMPL, else IO. -/
def statusInvalRangeNotimpl : HwRv → Status
  | .ok => .ok
  | .inval => .inval
  | .range => .outOfRange
  | .notimpl => .nosupport
  | _ => .io

/-- The ladder NOTIMPL, else IO. -/
def statusNotimpl : HwRv → Status
  | .ok => .ok
  | .notimpl => .nosupport
  | _ => .io

/-- The ladder NOTIMPL, BUSY, else IO. -/
def statusNotimplBusy : HwRv → Status
  | .ok => .ok
  | .notimpl => .nosupport
  | .busy => .busy
  | _ => .io

/-! ### Handler frames -/

variable {σ : Type}

/-- A handler: the device, the payload and the reply capacity give the new device and how
the request ends. -/
abbrev Handler (σ : Type) := Device σ → List UInt8 → ℕ → Device σ × Outcome

/-- A reply that changes nothing. -/
def answer (d : Device σ) (st : Status) (payload : List UInt8) : Device σ × Outcome :=
  (d, .reply st payload)

/-- A refusal: nothing changes and the payload is empty. -/
def refuse (d : Device σ) (st : Status) : Device σ × Outcome :=
  (d, .reply st [])

/-- The handlers that accept one payload length only. -/
def exactLen (len : ℕ) (h : Handler σ) : Handler σ :=
  fun d req cap => if req.length ≠ len then refuse d .inval else h d req cap

/-- The capacity check of the handlers that answer with a payload. -/
def needCap (need : ℕ) (h : Handler σ) : Handler σ :=
  fun d req cap => if cap < need then refuse d .nomem else h d req cap

/-- Report a shim's result: its status by the handler's ladder, its output only on success. -/
def hwReply {α : Type} (d : Device σ) (r : HwResult σ α) (ladder : HwRv → Status)
    (payload : α → List UInt8) : Device σ × Outcome :=
  let d' := { d with hw := r.hw }
  if ladder r.rv = .ok then answer d' .ok (payload r.out) else refuse d' (ladder r.rv)

/-- The little-endian bytes of a half-word. -/
def le16 (v : UInt16) : List UInt8 :=
  [(v &&& 0xFF).toUInt8, (v >>> 8).toUInt8]

/-- `n` half-words of a sample buffer. -/
def sampleBytes (mv : ℕ → UInt16) (n : ℕ) : List UInt8 :=
  (List.range n).flatMap fun i => le16 (mv i)

/-! ### Handlers -/

section Handlers

variable (hal : Hal σ)

def handlePing : Handler σ :=
  exactLen 0 fun d _ _ => answer d .ok []

def handleGetVersion : Handler σ :=
  exactLen 0 <| needCap 3 fun d _ _ => answer d .ok protocolVersion

def handleGetBuildId : Handler σ :=
  exactLen 0 <| needCap 20 fun d _ _ => answer d .ok buildId

def handleResetReason : Handler σ :=
  exactLen 0 <| needCap 1 fun d _ _ => answer d .ok [hal.resetReason d.hw]

def handleGpioRead : Handler σ :=
  exactLen 4 <| needCap 4 fun d req _ =>
    hwReply d (hal.gpioRead d.hw (getLe32 req 0)) statusIo le32

def handleGpioWrite : Handler σ :=
  exactLen 8 fun d req _ =>
    hwReply d (hal.gpioWrite d.hw (getLe32 req 0) (getLe32 req 4)) statusIo fun _ => []

def handlePwmSet : Handler σ :=
  exactLen 10 fun d req _ =>
    let period := getLe32 req 2
    let duty := getLe32 req 6
    if duty > period then refuse d .inval
    else hwReply d (hal.pwmSet d.hw (req.getD 0 0) period duty) statusFromHw fun _ => []

def handlePwmGet : Handler σ :=
  exactLen 1 <| needCap 8 fun d req _ =>
    hwReply d (hal.pwmGet d.hw (req.getD 0 0)) statusFromHw fun v => le32 v.1 ++ le32 v.2

def handleAdcRead : Handler σ :=
  exactLen 2 fun d req cap =>
    let samples := req.getD 1 0
    if samples = 0 then refuse d .inval
    else if samples > adcMaxSamples then refuse d .outOfRange
    else if cap < 1 + samples.toNat * 2 then refuse d .nomem
    else
      hwReply d (hal.adcRead d.hw (req.getD 0 0) samples) statusFromHw fun mv =>
        samples :: sampleBytes mv samples.toNat

def handleDa9292Forward : Handler σ :=
  exactLen 0 <| needCap 1 fun d _ _ => answer d .ok [hal.da9292StatusCached d.hw]

def handleSeReset : Handler σ :=
  exactLen 1 fun d req _ =>
    if req.getD 0 0 > 1 then refuse d .inval
    else hwReply d (hal.seReset d.hw (req.getD 0 0)) statusInvalNotimpl fun _ => []

/-- `handle_boot_config`: a SET is queued for the base level, never stored here -/
def handleBootConfig : Handler σ :=
  exactLen 5 <| needCap 4 fun d req _ =>
    if req.getD 0 0 > 1 then refuse d .inval
    else if req.getD 0 0 = 1 then
      let flags := getLe32 req 1
      if flags &&& ~~~bootConfigKnownFlags ≠ 0 then refuse d .inval
      else if flags ≠ d.cfg.stored ∧ !otaFmcConfigWriteSafe d.ota.board d.ota.run then
        refuse d .nosupport
      else if flags ≠ d.cfg.stored ∧ (otaSessionActive d.ota || otaEraseActive d.ota) then
        refuse d .busy
      else
        match bootConfigRequest d.cfg flags with
        | (c, true) => answer { d with cfg := c } .ok (le32 c.stored)
        | (c, false) => refuse { d with cfg := c } .busy
    else answer d .ok (le32 d.cfg.stored)

def handleDacSet : Handler σ :=
  exactLen 4 fun d req _ =>
    hwReply d (hal.dacSet d.hw (req.getD 0 0) (getLe16 req 2)) statusInvalRangeNotimpl fun _ => []

def handleDacGet : Handler σ :=
  exactLen 1 <| needCap 2 fun d req _ =>
    hwReply d (hal.dacGet d.hw (req.getD 0 0)) statusInvalNotimpl le16

def handleQencRead : Handler σ :=
  exactLen 1 <| needCap 4 fun d req _ =>
    hwReply d (hal.qencRead d.hw (req.getD 0 0)) statusInvalNotimpl le32

def handleQencReset : Handler σ :=
  exactLen 1 fun d req _ =>
    hwReply d (hal.qencReset d.hw (req.getD 0 0)) statusInvalNotimpl fun _ => []

def handleCounterRead : Handler σ :=
  exactLen 1 <| needCap 4 fun d req _ =>
    hwReply d (hal.counterRead d.hw (req.getD 0 0)) statusInvalNotimpl le32

def handlePwmConfigure : Handler σ :=
  exactLen 7 fun d req _ =>
    if req.getD 1 0 > 3 then refuse d .inval
    else
      hwReply d (hal.pwmConfigure d.hw (req.getD 0 0) (req.getD 1 0) (getLe32 req 2) (req.getD 6 0))
        statusInvalRangeNotimpl fun _ => []

def handleAdcConfigure : Handler σ :=
  exactLen 7 fun d req _ =>
    if req.getD 6 0 ∉ ([0, 6, 8, 10, 12, 14, 16] : List UInt8) then refuse d .inval
    else
      hwReply d (hal.adcConfigure d.hw (req.getD 0 0) (getLe16 req 2) (getLe16 req 4) (req.getD 6 0))
        statusInvalRangeNotimpl fun _ => []

def handleAdcStreamBegin : Handler σ :=
  exactLen 7 fun d req _ =>
    if req.getD 0 0 ≥ adcStreamCount then refuse d .inval
    else if getLe32 req 3 = 0 then refuse d .inval
    else
      hwReply d (hal.adcStreamBegin d.hw (req.getD 0 0) (req.getD 1 0) (getLe32 req 3))
        statusInvalRangeNotimpl fun _ => []

/-- `handle_adc_stream_read`: the reply length is fixed by the request, missing samples are
zero -/
def handleAdcStreamRead : Handler σ :=
  exactLen 2 fun d req cap =>
    let maxSamples := req.getD 1 0
    if req.getD 0 0 ≥ adcStreamCount then refuse d .inval
    else if maxSamples = 0 then refuse d .inval
    else if maxSamples > adcStreamReadMax then refuse d .outOfRange
    else
      let r := hal.adcStreamRead d.hw (req.getD 0 0) maxSamples
      let d' := { d with hw := r.hw }
      if statusFromHw r.rv ≠ .ok then refuse d' (statusFromHw r.rv)
      else if r.out.1 > maxSamples then refuse d' .io
      else if cap < 1 + maxSamples.toNat * 2 then refuse d' .nomem
      else
        answer d' .ok (r.out.1 ::
          sampleBytes (fun i => if i < r.out.1.toNat then r.out.2 i else 0) maxSamples.toNat)

def handleAdcSpectrumRead : Handler σ :=
  exactLen 4 fun d req cap =>
    let maxBins := req.getD 3 0
    if req.getD 0 0 ≥ adcStreamCount then refuse d .inval
    else if maxBins = 0 then refuse d .inval
    else if maxBins > adcSpectrumReadMax then refuse d .outOfRange
    else
      let r := hal.adcSpectrumRead d.hw (req.getD 0 0) (getLe16 req 1) maxBins
      let d' := { d with hw := r.hw }
      let (seq, total, got, bins) := r.out
      if statusNotimplBusy r.rv ≠ .ok then refuse d' (statusNotimplBusy r.rv)
      else if got > maxBins then refuse d' .io
      else if cap < 7 + maxBins.toNat * 4 then refuse d' .nomem
      else
        answer d' .ok (le32 seq ++ le16 total ++ [got] ++
          (List.range maxBins.toNat).flatMap fun i => le32 (if i < got.toNat then bins i else 0))

def handleAdcStreamEnd : Handler σ :=
  exactLen 1 fun d req _ =>
    if req.getD 0 0 ≥ adcStreamCount then refuse d .inval
    else hwReply d (hal.adcStreamEnd d.hw (req.getD 0 0)) statusNotimpl fun _ => []

def handleTrngRead : Handler σ :=
  exactLen 1 fun d req cap =>
    let want := req.getD 0 0
    if want = 0 ∨ want > 32 then refuse d .inval
    else if cap < want.toNat then refuse d .nomem
    else
      hwReply d (hal.trngRead d.hw want) statusFromHw fun bytes => (List.range want.toNat).map bytes

def handleTmuCompute : Handler σ :=
  exactLen 12 <| needCap 4 fun d req _ =>
    if req.getD 0 0 ≥ tmuFnCount then refuse d .inval
    else if req.getD 1 0 ≥ tmuFmtCount then refuse d .inval
    else
      hwReply d (hal.tmuCompute d.hw (req.getD 0 0) (req.getD 1 0) (getLe32 req 4) (getLe32 req 8))
        statusInvalRangeNotimpl le32

def handlePwmCaptureBegin : Handler σ :=
  exactLen 2 fun d req _ =>
    if req.getD 1 0 > 2 then refuse d .inval
    else hwReply d (hal.pwmCaptureBegin d.hw (req.getD 0 0) (req.getD 1 0)) statusFromHw fun _ => []

def handlePwmCaptureRead : Handler σ :=
  exactLen 1 <| needCap 8 fun d req _ =>
    hwReply d (hal.pwmCaptureRead d.hw (req.getD 0 0)) statusFromHw fun v => le32 v.1 ++ le32 v.2

def handlePwmCaptureEnd : Handler σ :=
  exactLen 1 fun d req _ =>
    hwReply d (hal.pwmCaptureEnd d.hw (req.getD 0 0)) statusFromHw fun _ => []

def handlePwmSinglePulse : Handler σ :=
  exactLen 8 fun d req _ =>
    if getLe32 req 4 = 0 then refuse d .inval
    else hwReply d (hal.pwmSinglePulse d.hw (req.getD 0 0) (getLe32 req 4)) statusFromHw fun _ => []

def handleTimerSync : Handler σ :=
  exactLen 3 fun d req _ =>
    hwReply d (hal.timerSync d.hw (req.getD 0 0) (req.getD 1 0) (req.getD 2 0)) statusFromHw
      fun _ => []

def handlePowerModeSet : Handler σ :=
  exactLen 10 fun d req _ =>
    if req.getD 0 0 > 3 then refuse d .inval
    else
      hwReply d (hal.powerModeSet d.hw (req.getD 0 0) (getLe32 req 2) (getLe32 req 6)) statusFromHw
        fun _ => []

def handleAdcDspChainOpen : Handler σ :=
  exactLen 0 <| needCap 1 fun d _ _ =>
    hwReply d (hal.adcDspChainOpen d.hw) statusFromHw fun id => [id]

/-- `handle_adc_dsp_stage_push`: a header of seven bytes, then as much data as the frame holds -/
def handleAdcDspStagePush : Handler σ := fun d req _ =>
  if req.length < 7 then refuse d .inval
  else if req.getD 2 0 > 3 then refuse d .inval
  else
    let offset := getLe16 req 3
    let total := getLe16 req 5
    let data := req.drop 7
    if offset.toNat + data.length > total.toNat then refuse d .outOfRange
    else
      hwReply d (hal.adcDspStagePush d.hw (req.getD 0 0) (req.getD 1 0) (req.getD 2 0) offset total
        data) statusFromHw fun _ => []

def handleAdcDspChainBind : Handler σ :=
  exactLen 2 fun d req _ =>
    if req.getD 1 0 ≥ adcStreamCount then refuse d .inval
    else hwReply d (hal.adcDspChainBind d.hw (req.getD 0 0) (req.getD 1 0)) statusFromHw fun _ => []

/-- `handle_link_features`: the one handler that looks at the link -/
def handleLinkFeatures (link : Link) : Handler σ :=
  exactLen 1 <| needCap 1 fun d req _ =>
    let granted := req.getD 0 0 &&& 0x01
    answer { d with links := d.links.set granted link } .ok [granted]

end Handlers

/-! ### Dispatch -/

/-- The opcodes of the table; the OTA range is routed apart from it. -/
inductive Opcode
  | ping | getVersion | getBuildId | resetReason
  | gpioRead | gpioWrite
  | pwmSet | pwmGet | pwmConfigure | pwmCaptureBegin | pwmCaptureRead | pwmCaptureEnd
  | pwmSinglePulse | timerSync | powerModeSet
  | adcRead | adcConfigure | adcStreamBegin | adcStreamRead | adcStreamEnd
  | adcDspChainOpen | adcDspStagePush | adcDspChainBind | adcSpectrumRead
  | da9292Forward | seReset | bootConfig
  | dacSet | dacGet | qencRead | qencReset | counterRead
  | trngRead | linkFeatures | tmuCompute
deriving DecidableEq, Repr

/-- The `CMD_*` values of `protocol.h`. -/
def Opcode.ofByte (cmd : UInt8) : Option Opcode :=
  match cmd.toNat with
  | 0x00 => some .ping
  | 0x01 => some .getVersion
  | 0x02 => some .getBuildId
  | 0x03 => some .resetReason
  | 0x10 => some .gpioRead
  | 0x11 => some .gpioWrite
  | 0x20 => some .pwmSet
  | 0x21 => some .pwmGet
  | 0x22 => some .pwmConfigure
  | 0x23 => some .pwmCaptureBegin
  | 0x24 => some .pwmCaptureRead
  | 0x25 => some .pwmCaptureEnd
  | 0x26 => some .pwmSinglePulse
  | 0x27 => some .timerSync
  | 0x28 => some .powerModeSet
  | 0x30 => some .adcRead
  | 0x32 => some .adcConfigure
  | 0x33 => some .adcStreamBegin
  | 0x34 => some .adcStreamRead
  | 0x35 => some .adcStreamEnd
  | 0x37 => some .adcDspChainOpen
  | 0x38 => some .adcDspStagePush
  | 0x39 => some .adcDspChainBind
  | 0x3A => some .adcSpectrumRead
  | 0x40 => some .da9292Forward
  | 0x41 => some .seReset
  | 0x42 => some .bootConfig
  | 0x50 => some .dacSet
  | 0x51 => some .dacGet
  | 0x60 => some .qencRead
  | 0x61 => some .qencReset
  | 0x70 => some .counterRead
  | 0x80 => some .trngRead
  | 0x81 => some .linkFeatures
  | 0x90 => some .tmuCompute
  | _ => none

/-- The `switch` of `protocol_dispatch_inner`. -/
def Opcode.handler (hal : Hal σ) (link : Link) : Opcode → Handler σ
  | ping => handlePing
  | getVersion => handleGetVersion
  | getBuildId => handleGetBuildId
  | resetReason => handleResetReason hal
  | gpioRead => handleGpioRead hal
  | gpioWrite => handleGpioWrite hal
  | pwmSet => handlePwmSet hal
  | pwmGet => handlePwmGet hal
  | pwmConfigure => handlePwmConfigure hal
  | pwmCaptureBegin => handlePwmCaptureBegin hal
  | pwmCaptureRead => handlePwmCaptureRead hal
  | pwmCaptureEnd => handlePwmCaptureEnd hal
  | pwmSinglePulse => handlePwmSinglePulse hal
  | timerSync => handleTimerSync hal
  | powerModeSet => handlePowerModeSet hal
  | adcRead => handleAdcRead hal
  | adcConfigure => handleAdcConfigure hal
  | adcStreamBegin => handleAdcStreamBegin hal
  | adcStreamRead => handleAdcStreamRead hal
  | adcStreamEnd => handleAdcStreamEnd hal
  | adcDspChainOpen => handleAdcDspChainOpen hal
  | adcDspStagePush => handleAdcDspStagePush hal
  | adcDspChainBind => handleAdcDspChainBind hal
  | adcSpectrumRead => handleAdcSpectrumRead hal
  | da9292Forward => handleDa9292Forward hal
  | seReset => handleSeReset hal
  | bootConfig => handleBootConfig
  | dacSet => handleDacSet hal
  | dacGet => handleDacGet hal
  | qencRead => handleQencRead hal
  | qencReset => handleQencReset hal
  | counterRead => handleCounterRead hal
  | trngRead => handleTrngRead hal
  | linkFeatures => handleLinkFeatures link
  | tmuCompute => handleTmuCompute hal

/-- `CMD_OTA_BEGIN`, the first opcode of the reserved OTA range. -/
def cmdOtaBegin : UInt8 := 0xF0

/-- `protocol_dispatch_inner` -/
def protocolDispatchInner (hal : Hal σ) (link : Link) (cmd : UInt8) : Handler σ := fun d req cap =>
  -- the trial gate: note the frame, answer BUSY, touch nothing else
  if d.ota.trial then refuse { d with ota := { d.ota with frameSeen := true } } .busy
  else
    match Opcode.ofByte cmd with
    | some op => op.handler hal link d req cap
    | none =>
      if cmd ≥ cmdOtaBegin then
        match otaDispatch d.ota cmd req cap with
        | (o, out) => ({ d with ota := o }, out)
      else refuse d .nosupport

/-- `protocol_dispatch`: a request that pre-empts another one's handler is turned away. -/
def protocolDispatch (hal : Hal σ) (inFlight : Bool) (link : Link) (cmd : UInt8) : Handler σ :=
  fun d req cap =>
    if inFlight then refuse d .busy else protocolDispatchInner hal link cmd d req cap

/-- A device at rest in slot A, its flash erased. -/
def restDevice : Device Unit :=
  ⟨⟨.A, ⟨fun _ => .erased, false, false, [], []⟩, .initial .A, false, false⟩, ⟨0, none⟩, ⟨0, 0⟩, ()⟩

end Gd32Bridge
