import Gd32Bridge.Transport.Once

/-!
# The I2C link on the device (`hal/transport_hw_gd32.c`)

The peripheral with its flags and data registers, the two interrupt handlers, which run at one
priority and so never inside each other, and the stuck-bus poll at base level.  The peripheral
holds the clock low while an address match is pending, while `I2C_RDATA` is full and while there
is nothing to transmit; it does not hold it for a pending STOP, so the next address match can come
on top of one.  The handlers run as late as they like.
-/

namespace Gd32Bridge

/-! ### The peripheral -/

/-- What the bus is doing with this slave. -/
inductive I2cBus
  | idle
  | write
  | read
deriving DecidableEq, Repr

/-- The error flags of `I2C_STAT` that the handler names, and those it does not: `LOSTARB`,
`PECERR` and `SMBALT`. -/
structure I2cErrors where
  berr : Bool
  ouerr : Bool
  timeout : Bool
  other : Bool
deriving DecidableEq, Repr

/-- `bridge_i2c_err_diag` and the recovery counters. -/
structure I2cCounters where
  berr : UInt32
  ouerr : UInt32
  timeout : UInt32
  stuckRelease : UInt32
  timeoutRecoveries : UInt32
  resetEscalations : UInt32
  stuckSdaEscalations : UInt32
deriving DecidableEq, Repr

/-- The firmware and I2C0. -/
structure I2cHw (σ : Type) where
  dev : Device σ
  slave : I2cSlave
  counters : I2cCounters
  /-- `i2c_sda_low_ticks` -/
  sdaLowTicks : UInt8
  /-- the stuck-bus poll has released the bus and is about to drop the reply -/
  aborting : Bool
  /-- `I2C_CTL0_I2CEN` -/
  enabled : Bool
  /-- `I2C_INT_TI` is enabled -/
  tiEnabled : Bool
  /-- `I2C_RDATA`, `I2C_TDATA` and the byte being clocked out -/
  rdata : Option UInt8
  tdata : Option UInt8
  shift : Option UInt8
  /-- `ADDSEND`, `STPDET`, `NACK` and `TR` -/
  addsend : Bool
  stpdet : Bool
  nack : Bool
  tr : Bool
  errors : I2cErrors
  bus : I2cBus

/-- `bridge_i2c_event_t` -/
inductive I2cIrqEvent
  | rbne
  | addsend
  | stpdet
  | ti
  | none
deriving DecidableEq, Repr

/-- `bridge_i2c_event_select` -/
def i2cEventSelect (rbne addsend stpdet ti : Bool) : I2cIrqEvent :=
  if rbne then .rbne
  else if stpdet then .stpdet
  else if addsend then .addsend
  else if ti then .ti
  else .none

/-- `BRIDGE_I2C_EN_CLEAR_SPIN_LIMIT` -/
def i2cEnClearSpinLimit : ℕ := 64

/-- The loop of `bridge_i2c_bus_release`: whether it runs out, after `spins` polls and with the
values of `I2CEN` still to be read back. -/
def i2cSpinExhausted (spins : ℕ) : List Bool → Bool
  | [] => false
  | en :: reads =>
    if en then
      if i2cEnClearSpinLimit ≤ spins + 1 then true else i2cSpinExhausted (spins + 1) reads
    else false

namespace I2cHw

variable {σ : Type}

/-- What clearing `I2CEN`, or the reset through the RCU, does: both lines are released and the
status goes back to its reset value. -/
def softReset (s : I2cHw σ) : I2cHw σ :=
  { s with
    rdata := none, tdata := none, shift := none
    addsend := false, stpdet := false, nack := false
    errors := ⟨false, false, false, false⟩, bus := .idle }

/-- `bridge_i2c_bus_release`, with whether it escalated; `ready` says that the clock is one
`bridge_transport_i2c_hw_init` accepts. -/
def busRelease (reads : List Bool) (ready : Bool) (s : I2cHw σ) : I2cHw σ × Bool :=
  if i2cSpinExhausted 0 reads then
    -- RCU reset and re-initialisation
    ({ s.softReset with tiEnabled := false, enabled := ready }, true)
  else (s.softReset, false)

/-- `bridge_i2c_timeout_service` -/
def timeoutService (reads : List Bool) (ready : Bool) (s : I2cHw σ) : I2cHw σ × Bool :=
  if !s.errors.timeout then (s, false)
  else
    match busRelease reads ready { s with errors := { s.errors with timeout := false } } with
    | (s, escalated) =>
      ({ s with
        counters := { s.counters with
          timeoutRecoveries := s.counters.timeoutRecoveries + 1
          resetEscalations :=
            if escalated then s.counters.resetEscalations + 1 else s.counters.resetEscalations } },
        true)

/-- The call of `i2c_slave_write_end`; `none` is a request that does not return. -/
def writeEnd (hal : Hal σ) (inFlight : Bool) (s : I2cHw σ) : Option (I2cHw σ) :=
  (i2cStep hal (s.dev, s.slave) (.writeEnd inFlight)).map fun x =>
    { s with dev := x.1, slave := x.2 }

/-- `BRIDGE_I2C_EV_HANDLER`; `ti` is the flag it reads.  A pass is one step: between the store that
clears `ADDSEND` and the flush of `I2C_TDATA` a few cycles later, no byte left over is assumed to
have moved on to be clocked out. -/
def evHandler (hal : Hal σ) (inFlight ti : Bool) (s : I2cHw σ) : Option (I2cHw σ) :=
  match i2cEventSelect s.rdata.isSome s.addsend s.stpdet ti with
  | .rbne => some { s with slave := s.slave.rxByte (s.rdata.getD 0), rdata := none }
  | .addsend =>
    if s.tr then
      -- a byte left over from an earlier read must not go out first
      (writeEnd hal inFlight { s with addsend := false, tdata := none }).map fun s =>
        { s with tiEnabled := true }
    else some { s with addsend := false, slave := s.slave.writeStart }
  | .stpdet =>
    writeEnd hal inFlight
      { s with stpdet := false, nack := false, tiEnabled := false, tdata := none }
  | .ti => some { s with slave := s.slave.txNextByte.1, tdata := some s.slave.txNextByte.2 }
  | .none => some { s with nack := false }

/-- The arms of `BRIDGE_I2C_ER_HANDLER` for `BERR` and `OUERR`. -/
def ackErrors (s : I2cHw σ) : I2cHw σ :=
  { s with
    errors := { s.errors with berr := false, ouerr := false }
    counters := { s.counters with
      berr := if s.errors.berr then s.counters.berr + 1 else s.counters.berr
      ouerr := if s.errors.ouerr then s.counters.ouerr + 1 else s.counters.ouerr } }

/-- `BRIDGE_I2C_ER_HANDLER` -/
def erHandler (reads : List Bool) (ready : Bool) (s : I2cHw σ) : I2cHw σ :=
  let snapshot := s.errors
  match timeoutService reads ready { s.ackErrors with nack := false } with
  | (s, served) =>
    -- the catch-all clears what the arms have left of the snapshot, never an address match or a
    -- STOP
    let s := { s with
      errors := { s.errors with other := s.errors.other && !snapshot.other }
      counters := { s.counters with
        timeout := if served then s.counters.timeout + 1 else s.counters.timeout } }
    if snapshot.berr || snapshot.ouerr || served then
      { s with tiEnabled := false, slave := s.slave.writeStart.txAbort }
    else s

/-- `BRIDGE_I2C_STUCK_SAMPLES` -/
def stuckSamples : ℕ := 4

/-- The burst of `bridge_transport_i2c_stuck_poll`, as levels of SDA and SCL: all low against
high. -/
def stuckCandidate (samples : List (Bool × Bool)) : Bool :=
  (samples.take stuckSamples).all fun p => !p.1 && p.2

/-- `bridge_transport_i2c_stuck_poll` up to the call of `i2c_slave_tx_abort` -/
def stuckPoll (samples : List (Bool × Bool)) (reads : List Bool) (ready : Bool) (s : I2cHw σ) :
    I2cHw σ :=
  if !stuckCandidate samples then { s with sdaLowTicks := 0 }
  else if s.sdaLowTicks + 1 < 2 then { s with sdaLowTicks := s.sdaLowTicks + 1 }
  else
    -- `bridge_i2c_force_bus_release`
    match busRelease reads ready { s with
      sdaLowTicks := 0
      counters := { s.counters with stuckRelease := s.counters.stuckRelease + 1 } } with
    | (s, escalated) =>
      { s with
        aborting := true
        counters := { s.counters with
          stuckSdaEscalations :=
            if escalated then s.counters.stuckSdaEscalations + 1
            else s.counters.stuckSdaEscalations } }

/-- The state `transport_i2c_init` leaves behind. -/
def init (d : Device σ) : I2cHw σ where
  dev := d
  slave := .init
  counters := ⟨0, 0, 0, 0, 0, 0, 0⟩
  sdaLowTicks := 0
  aborting := false
  enabled := true
  tiEnabled := false
  rdata := none
  tdata := none
  shift := none
  addsend := false
  stpdet := false
  nack := false
  tr := false
  errors := ⟨false, false, false, false⟩
  bus := .idle

end I2cHw

/-! ### Steps -/

variable {σ : Type}

inductive I2cHwLabel (σ : Type)
  /-- a START, repeated or not, with this slave's address; `read` is the direction -/
  | start (read : Bool)
  /-- a byte of an addressed write -/
  | byte (b : UInt8)
  /-- the byte in `I2C_TDATA` moves on to be clocked out -/
  | load
  /-- the host has clocked a byte in -/
  | clocked
  /-- a STOP -/
  | stop
  /-- the host gives up without a STOP the slave sees -/
  | lapse
  /-- error flags rise -/
  | raise (e : I2cErrors)
  | ev (inFlight ti : Bool)
  | er (reads : List Bool) (ready : Bool)
  | poll (samples : List (Bool × Bool)) (reads : List Bool) (ready : Bool)
  /-- the rest of a poll that has released the bus: `i2c_slave_tx_abort` at base level, whose two
  stores no interrupt is assumed to come between -/
  | pollAbort
  /-- anything else that happens to the device -/
  | other (d : Device σ)

/-- One step.  `TI` can rise only while it is enabled and `I2C_TDATA` is empty. -/
def i2cHwStep (hal : Hal σ) (s : I2cHw σ) : I2cHwLabel σ → Option (I2cHw σ)
  | .start read =>
    if s.enabled && !s.addsend then
      some { s with addsend := true, tr := read, shift := none, bus := if read then .read else .write }
    else none
  | .byte b =>
    if s.bus = .write ∧ s.addsend = false ∧ s.rdata = none then some { s with rdata := some b }
    else none
  | .load =>
    match s.tdata with
    | some b =>
      if s.bus = .read ∧ s.addsend = false ∧ s.shift = none then
        some { s with shift := some b, tdata := none }
      else none
    | none => none
  | .clocked =>
    if s.bus = .read ∧ s.addsend = false ∧ s.shift.isSome then some { s with shift := none }
    else none
  | .stop =>
    if s.bus ≠ .idle ∧ s.addsend = false then
      some { s with stpdet := true, nack := s.nack || s.bus = .read, shift := none, bus := .idle }
    else none
  | .lapse => if s.addsend then none else some { s with shift := none, bus := .idle }
  | .raise e =>
    some { s with errors :=
      ⟨s.errors.berr || e.berr, s.errors.ouerr || e.ouerr, s.errors.timeout || e.timeout,
        s.errors.other || e.other⟩ }
  | .ev inFlight ti =>
    if ti && (!s.tiEnabled || s.tdata.isSome) then none else s.evHandler hal inFlight ti
  | .er reads ready => some (s.erHandler reads ready)
  | .poll samples reads ready => if s.aborting then none else some (s.stuckPoll samples reads ready)
  | .pollAbort =>
    if s.aborting then some { s with slave := s.slave.txAbort, aborting := false } else none
  | .other d => some { s with dev := d }

end Gd32Bridge
