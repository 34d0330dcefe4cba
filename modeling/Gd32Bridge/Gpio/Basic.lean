import Gd32Bridge.Protocol.Hal
import Mathlib.Logic.Function.Basic

/-!
# The pads (`hal/gd32/gpio.c`)

A host names pads by the bits of a 32-bit mask.  A write regroups them by port: the pins that are
not outputs yet are preloaded and switched port by port, and then every port that has a selected pin
gets one set/clear word.  The accesses to the port registers are kept in order, so that what the
pins do between two of them can be looked at.
-/

namespace Gd32Bridge

/-! ### The ports -/

inductive GpioPort
  | a | b | c | d | e | f | g
deriving DecidableEq, Repr

/-- The two `CTL` bits of a pin. -/
inductive PinMode
  | input | output | alternate | analog
deriving DecidableEq, Repr

/-- The two `PUD` bits of a pin. -/
inductive PinPull
  | none | up | down
deriving DecidableEq, Repr

/-- What the registers of its port say about a pin. -/
structure Pin where
  mode : PinMode
  pull : PinPull
  pushPull : Bool
  octl : Bool
deriving DecidableEq, Repr

def Pins := GpioPort → Fin 16 → Pin

/-- The accesses that change a port. -/
inductive GpioAccess
  /-- a write of `GPIO_BOP`: the low half sets, the high half clears -/
  | bop (port : GpioPort) (word : BitVec 32)
  /-- a write of `GPIO_BC` by `gpio_bit_reset` -/
  | bc (port : GpioPort) (pins : BitVec 32)
  /-- `gpio_output_options_set` with `GPIO_OTYPE_PP` -/
  | outputOptionsSet (port : GpioPort) (pins : BitVec 32)
  /-- `gpio_mode_set` -/
  | modeSet (port : GpioPort) (mode : PinMode) (pull : PinPull) (pins : BitVec 32)
deriving DecidableEq, Repr

def GpioAccess.port : GpioAccess → GpioPort
  | bop port _ | bc port _ | outputOptionsSet port _ | modeSet port _ _ _ => port

/-- The effect of an access on pin `n` of its port. -/
def Pin.after (p : Pin) (n : Fin 16) : GpioAccess → Pin
  | .bop _ word =>
    { p with octl := word.getLsbD n || (p.octl && !word.getLsbD (n + 16)) }
  | .bc _ pins => { p with octl := p.octl && !pins.getLsbD n }
  | .outputOptionsSet _ pins => if pins.getLsbD n then { p with pushPull := true } else p
  | .modeSet _ mode pull pins => if pins.getLsbD n then { p with mode := mode, pull := pull } else p

def Pins.access (s : Pins) (x : GpioAccess) : Pins := fun port n =>
  if port = x.port then (s port n).after n x else s port n

/-! ### The pad map -/

structure GpioPad where
  periph : GpioPort
  pinNo : Fin 16
deriving DecidableEq, Repr

/-- `GPIO_PIN_n` -/
def GpioPad.pin (pad : GpioPad) : BitVec 32 := 1#32 <<< (pad.pinNo : ℕ)

def gpioPadMap : List GpioPad := [
  ⟨.b, 10⟩, ⟨.a, 7⟩, ⟨.a, 12⟩, ⟨.b, 0⟩, ⟨.c, 1⟩, ⟨.f, 1⟩, ⟨.b, 5⟩, ⟨.c, 0⟩, ⟨.c, 14⟩, ⟨.c, 15⟩,
  ⟨.b, 11⟩, ⟨.e, 9⟩, ⟨.d, 11⟩, ⟨.d, 10⟩, ⟨.e, 12⟩, ⟨.d, 2⟩, ⟨.d, 8⟩, ⟨.d, 1⟩, ⟨.e, 14⟩, ⟨.e, 15⟩,
  ⟨.b, 13⟩]

def gpioPadMapCount : ℕ := 21

def gpioMappedPorts : List GpioPort := [.a, .b, .c, .d, .e, .f]

def gpioMappedPortCount : ℕ := 6

/-- `gpio_mapped_port_index`: the count when the port is not mapped. -/
def gpioMappedPortIndex (periph : GpioPort) : ℕ := gpioMappedPorts.idxOf periph

/-- The pads with their bits, in the order of the loops. -/
def gpioPads : List (GpioPad × ℕ) := gpioPadMap.zipIdx

/-- `(mask & (1u << i)) != 0u` -/
def selects (mask : BitVec 32) (i : ℕ) : Bool := mask &&& (1#32 <<< i) ≠ 0#32

def gpioPadUnroutedMask : BitVec 32 := 1#32 <<< 8

/-! ### State -/

structure Gpio where
  pins : Pins
  isOutput : ℕ → Bool
  inputPromoted : ℕ → Bool

/-- A result with the accesses made, in order. -/
structure GpioResult where
  gpio : Gpio
  rv : HwRv
  accesses : List GpioAccess

/-! ### Writing -/

/-- `bop_words` and `promote_pins`. -/
structure GpioWords where
  bop : ℕ → BitVec 32
  promote : ℕ → BitVec 32

/-- The first loop of `bridge_hw_gpio_write`; `none` is its `BRIDGE_HW_ERR_IO`. -/
def gpioGroup (isOutput : ℕ → Bool) (mask levels : BitVec 32) :
    List (GpioPad × ℕ) → GpioWords → Option GpioWords
  | [], w => some w
  | (pad, i) :: rest, w =>
    if ¬ selects mask i then gpioGroup isOutput mask levels rest w
    else
      let port := gpioMappedPortIndex pad.periph
      if port = gpioMappedPortCount then none
      else
        let word := if selects levels i then pad.pin else pad.pin <<< 16
        let bop := Function.update w.bop port (w.bop port ||| word)
        let promote :=
          if ¬ isOutput i then Function.update w.promote port (w.promote port ||| pad.pin)
          else w.promote
        gpioGroup isOutput mask levels rest ⟨bop, promote⟩

/-- The promotion of the new pins of a port. -/
def gpioPromote (w : GpioWords) (x : GpioPort × ℕ) : List GpioAccess :=
  if w.promote x.2 = 0#32 then []
  else
    let preloadMask := w.promote x.2 ||| w.promote x.2 <<< 16
    [.bop x.1 (w.bop x.2 &&& preloadMask), .outputOptionsSet x.1 (w.promote x.2),
      .modeSet x.1 .output .none (w.promote x.2)]

/-- The final word of a port. -/
def gpioFinal (w : GpioWords) (x : GpioPort × ℕ) : List GpioAccess :=
  if w.bop x.2 ≠ 0#32 then [.bop x.1 (w.bop x.2)] else []

/-- The ports with their indices, in the order of the loops. -/
def gpioPorts : List (GpioPort × ℕ) := gpioMappedPorts.zipIdx

def bridgeHwGpioWrite (g : Gpio) (mask levels : BitVec 32) : GpioResult :=
  if mask &&& gpioPadUnroutedMask ≠ 0#32 then ⟨g, .notimpl, []⟩
  else
    match gpioGroup g.isOutput mask levels gpioPads ⟨fun _ => 0#32, fun _ => 0#32⟩ with
    | none => ⟨g, .io, []⟩
    | some w =>
      let accesses := gpioPorts.flatMap (gpioPromote w) ++ gpioPorts.flatMap (gpioFinal w)
      let touched i := decide (i < gpioPadMapCount) && selects mask i
      ⟨{ pins := accesses.foldl Pins.access g.pins
         isOutput i := g.isOutput i || touched i
         inputPromoted i := g.inputPromoted i && !touched i }, .ok, accesses⟩

/-! ### Reading -/

/-- The first loop of `bridge_hw_gpio_read`. -/
def gpioReadPromote (mask : BitVec 32) : List (GpioPad × ℕ) → Gpio → List GpioAccess →
    Gpio × List GpioAccess
  | [], g, accesses => (g, accesses)
  | (pad, i) :: rest, g, accesses =>
    if ¬ selects mask i then gpioReadPromote mask rest g accesses
    else if g.isOutput i then gpioReadPromote mask rest g accesses
    else if g.inputPromoted i then gpioReadPromote mask rest g accesses
    else
      let access := GpioAccess.modeSet pad.periph .input .none pad.pin
      gpioReadPromote mask rest
        { g with
          pins := g.pins.access access
          inputPromoted := Function.update g.inputPromoted i true }
        (accesses ++ [access])

/-- `port_inputs` and `port_sampled`, the samples taken so far and `*levels`. -/
structure GpioSamples where
  inputs : ℕ → BitVec 16
  sampled : ℕ → Bool
  count : ℕ
  levels : BitVec 32

/-- The second loop; `istat k port` is what the `k`-th `gpio_input_port_get` of the call returns if
it reads `port`. -/
def gpioSample (istat : ℕ → GpioPort → BitVec 16) (mask : BitVec 32) :
    List (GpioPad × ℕ) → GpioSamples → Option GpioSamples
  | [], q => some q
  | (pad, i) :: rest, q =>
    if ¬ selects mask i then gpioSample istat mask rest q
    else
      let port := gpioMappedPortIndex pad.periph
      if port = gpioMappedPortCount then none
      else
        let q :=
          if ¬ q.sampled port then
            { q with
              inputs := Function.update q.inputs port (istat q.count pad.periph)
              sampled := Function.update q.sampled port true
              count := q.count + 1 }
          else q
        let q :=
          if (q.inputs port).setWidth 32 &&& pad.pin ≠ 0#32 then
            { q with levels := q.levels ||| 1#32 <<< i }
          else q
        gpioSample istat mask rest q

/-- `bridge_hw_gpio_read`, with `*levels` when it has been written in full. -/
def bridgeHwGpioRead (g : Gpio) (istat : ℕ → GpioPort → BitVec 16) (mask : BitVec 32) :
    GpioResult × Option (BitVec 32) :=
  if mask &&& gpioPadUnroutedMask ≠ 0#32 then (⟨g, .notimpl, []⟩, none)
  else
    let (g, accesses) := gpioReadPromote mask gpioPads g []
    match gpioSample istat mask gpioPads ⟨fun _ => 0#16, fun _ => false, 0, 0#32⟩ with
    | none => (⟨g, .io, accesses⟩, none)
    | some q => (⟨g, .ok, accesses⟩, some q.levels)

/-! ### Runs -/

/-- The GPIO part of `bridge_hw_init`: the two module enables low, the transceivers' standby line
high, and the stored boot configuration applied. -/
def gpioInit (pins : Pins) (sdmuxEnHigh : Bool) : Gpio :=
  let accesses : List GpioAccess := [
    .bc .e (GpioPad.pin ⟨.e, 14⟩), .outputOptionsSet .e (GpioPad.pin ⟨.e, 14⟩),
    .modeSet .e .output .none (GpioPad.pin ⟨.e, 14⟩),
    .bc .e (GpioPad.pin ⟨.e, 15⟩), .outputOptionsSet .e (GpioPad.pin ⟨.e, 15⟩),
    .modeSet .e .output .none (GpioPad.pin ⟨.e, 15⟩),
    .bop .b (GpioPad.pin ⟨.b, 13⟩), .outputOptionsSet .b (GpioPad.pin ⟨.b, 13⟩),
    .modeSet .b .output .none (GpioPad.pin ⟨.b, 13⟩)]
  let g : Gpio := ⟨accesses.foldl Pins.access pins, fun i => i = 18 || i = 19 || i = 20,
    fun _ => false⟩
  if sdmuxEnHigh then (bridgeHwGpioWrite g (1#32 <<< 12) (1#32 <<< 12)).gpio else g

/-- A call of one of the two functions. -/
inductive GpioCall
  | read (istat : ℕ → GpioPort → BitVec 16) (mask : BitVec 32)
  | write (mask levels : BitVec 32)

def gpioStep (g : Gpio) : GpioCall → Option Gpio
  | .read istat mask => some (bridgeHwGpioRead g istat mask).1.gpio
  | .write mask levels => some (bridgeHwGpioWrite g mask levels).gpio

end Gd32Bridge
