import Gd32Bridge.Boot.Decide
import Gd32Bridge.Lib.Transition
import Gd32Bridge.Protocol.Basic

/-!
# The whole device as a transition system

Requests arrive from the transport interrupts and run to completion; the main loop runs at base
level and can be interrupted at every step it takes.  Its two long flash users, the erase pump
and the boot-config store, are therefore cut into the steps between which a request can land:
reading the session, claiming the funnel, each physical operation, releasing the funnel,
publishing the result.  `ota_boot_init` runs before the transports are up, and
`ota_confirm_tick` only does anything while the trial gate answers every request with BUSY, so
these two are single steps.

A label carries the choices of the environment: the request, the outcome of the physical
operations, the reset cause.
-/

namespace Gd32Bridge

variable {σ : Type}

/-- What base-level code wants from the flash. -/
inductive Job
  | erase (snap : EraseSnapshot)
  | store (s : ConfigStore) (phase : StorePhase)
deriving DecidableEq, Repr

def Job.call : Job → FmcCall
  | erase snap => .erase snap.at_ otaPageSize
  | store s phase => s.call phase

/-- Where the main loop stands. -/
inductive BasePc
  /-- between two ticks -/
  | idle
  /-- about to enter the flash call of a job -/
  | call (j : Job)
  /-- owning the funnel, with these operations still to do -/
  | walk (j : Job) (o : FlashOp) (os : List FlashOp)
  /-- the walk is over, the funnel not yet released -/
  | ended (j : Job) (r : FmcResult)
  /-- the flash call has returned -/
  | returned (j : Job) (r : FmcResult)
deriving DecidableEq, Repr

/-- The device without power or in reset, or running. -/
inductive Sys (σ : Type)
  | off (b : Board)
  | on (d : Device σ) (pc : BasePc)

def Sys.board : Sys σ → Board
  | off b => b
  | on d _ => d.ota.board

def Sys.flash (s : Sys σ) : Flash :=
  s.board.flash

/-- What can happen. -/
inductive Label
  /-- a request on a link, with the outcome of the flash operations it makes -/
  | request (link : Link) (cmd : UInt8) (payload : List UInt8) (script : List PhysResult)
  /-- `ota_erase_tick` is called -/
  | eraseTick
  /-- `boot_config_tick` is called -/
  | configTick
  /-- `ota_confirm_tick` is called -/
  | confirmTick (script : List PhysResult)
  /-- the rest of `bridge_hw_tick` -/
  | halTick
  /-- base-level code takes its next step; `r` is the outcome of a physical operation -/
  | base (r : PhysResult)
  /-- a reset or a loss of power between two flash operations -/
  | powerOff
  /-- the bootloader runs, then `ota_boot_init` -/
  | boot (wdtFired : Bool) (script : List PhysResult)

/-- The board at the start of a step. -/
def Board.prepare (b : Board) (script : List PhysResult) : Board :=
  { b with script := script, log := [] }

/-- The board a boot starts from. -/
def Board.bootBoard (b : Board) (script : List PhysResult) : Board :=
  { b with owned := false, script := script, log := [] }

namespace Device

/-- Run the OTA side of a device on the board of a new step. -/
def prepare (d : Device σ) (script : List PhysResult) : Device σ :=
  { d with ota := { d.ota with board := d.ota.board.prepare script } }

def withBoard (d : Device σ) (b : Board) : Device σ :=
  { d with ota := { d.ota with board := b } }

end Device

/-- One request, run to completion. -/
def Sys.request (hal : Hal σ) (d : Device σ) (pc : BasePc) (link : Link) (cmd : UInt8)
    (payload : List UInt8) : Sys σ :=
  match protocolDispatch hal false link cmd d payload maxPayloadBytes with
  | (d', .reply _ _) => .on d' pc
  | (d', .reset) => .off d'.ota.board
  | (d', .powerLost) => .off d'.ota.board

/-- The head of `boot_config_tick`: leave the store to a later pass while OTA needs the flash. -/
def bootConfigTick (d : Device σ) : Device σ × BasePc :=
  match d.cfg.pending with
  | none => (d, .idle)
  | some flags =>
    if otaEraseActive d.ota || d.ota.board.owned then (d, .idle)
    else
      match bootConfigStorePlan d.ota.board.flash flags with
      | .inl r => ({ d with cfg := bootConfigFinish d.cfg flags r }, .idle)
      | .inr s => (d, .call (.store s .erase))

/-- Entry into the flash call of a job. -/
def baseEnter (d : Device σ) (j : Job) : Device σ × BasePc :=
  let b := d.ota.board
  if !j.call.admits d.ota.run then (d, .returned j .error)
  else if b.owned then (d, .returned j .error)
  else
    let d' := d.withBoard (b.claim d.ota.run j.call)
    match j.call.work b.dual with
    | [] => (d', .ended j .ok)
    | o :: os => (d', .walk j o os)

/-- One physical operation of a walk. -/
def baseOp (d : Device σ) (j : Job) (o : FlashOp) (os : List FlashOp) : Sys σ :=
  match d.ota.board.exec d.ota.run o with
  | (b, .ready) =>
    match os with
    | [] => .on (d.withBoard b) (.ended j .ok)
    | o' :: os' => .on (d.withBoard b) (.walk j o' os')
  | (b, .fault e) => .on (d.withBoard b) (.ended j e.result)
  | (b, .cut) => .off b

/-- What base-level code does with the result of its flash call. -/
def baseReturn (d : Device σ) (j : Job) (r : FmcResult) : Device σ × BasePc :=
  match j with
  | .erase snap => ({ d with ota := { d.ota with sess := otaErasePublish d.ota.sess snap r } }, .idle)
  | .store s phase =>
    if r ≠ .ok then ({ d with cfg := bootConfigFinish d.cfg s.flags r }, .idle)
    else
      match phase with
      | .erase => (d, .call (.store s .payload))
      | .payload => (d, .call (.store s .commit))
      | .commit =>
        ({ d with cfg := bootConfigFinish d.cfg s.flags (bootConfigReadback d.ota.board.flash s) },
          .idle)

/-- The next step of base-level code. -/
def baseStep (d : Device σ) : BasePc → Option (Sys σ)
  | .idle => none
  | .call j =>
    match baseEnter d j with
    | (d', pc) => some (.on d' pc)
  | .walk j o os => some (baseOp d j o os)
  | .ended j r => some (.on (d.withBoard d.ota.board.release) (.returned j r))
  | .returned j r =>
    match baseReturn d j r with
    | (d', pc) => some (.on d' pc)

/-- Reset vector to main loop: the bootloader picks a slot, the image in it starts up. -/
def bootUp (hal : Hal σ) (b : Board) (wdtFired : Bool) : Option (Sys σ) :=
  match bootDecideSlot b.flash wdtFired with
  | none => none
  | some dec =>
    match otaBootInit b dec.slot with
    | (o, true) => some (.on ⟨o, bootConfigLoad b.flash, ⟨0, 0⟩, hal.init⟩ .idle)
    | (o, false) => some (.off o.board)

/-- The step function of the device; `none` when the label cannot happen in the state. -/
def step (hal : Hal σ) : Sys σ → Label → Option (Sys σ)
  | .on d pc, .request link cmd payload script =>
    -- neither transport delivers more than its frame buffer holds
    if payload.length ≤ maxPayloadBytes then
      some (Sys.request hal (d.prepare script) pc link cmd payload)
    else none
  | .on d .idle, .eraseTick =>
    match otaEraseSnapshot d.ota.sess with
    | some snap => some (.on (d.prepare []) (.call (.erase snap)))
    | none => some (.on (d.prepare []) .idle)
  | .on d .idle, .configTick =>
    match bootConfigTick (d.prepare []) with
    | (d', pc) => some (.on d' pc)
  | .on d .idle, .confirmTick script =>
    match otaConfirmTick (d.prepare script).ota with
    | (o, .stay) => some (.on { d with ota := o } .idle)
    | (o, .reset) => some (.off o.board)
    | (o, .powerLost) => some (.off o.board)
  | .on d .idle, .halTick => some (.on { d.prepare [] with hw := hal.tick d.hw } .idle)
  | .on d pc, .base r => baseStep (d.prepare [r]) pc
  | .on d _, .powerOff => some (.off (d.ota.board.prepare []))
  | .off b, .boot wdtFired script => bootUp hal (b.bootBoard script) wdtFired
  | _, _ => none

/-! ### The environment -/

/-- The assumption on a metadata page that a failed or interrupted operation has touched: it
reads as before, it does not read, or it reads as the record that was being written. -/
def TornPage (before after : Board) (p : MetaPage) : Prop :=
  metaPages after.flash p = metaPages before.flash p ∨ metaPages after.flash p = none ∨
    ∃ run data, Event.call run (.program p.addr data) ∈ after.log ∧
      metaPages after.flash p = some (MetaRecord.decode data)

/-- Steps that respect the torn-page assumption. -/
def Legal (s : Sys σ) (_ : Label) (s' : Sys σ) : Prop :=
  ∀ p, TornPage s.board s'.board p

/-- Provisioned flash: one readable record, confirmed, whose image validates; the other page
does not read. -/
def ProvisionedFlash (f : Flash) : Prop :=
  ∃ p r, metaPages f p = some r ∧ metaPages f p.other = none ∧ r.trial = false ∧
    Boot.activeSlotValid f r = true

/-- A provisioned device before its first boot. -/
def Provisioned : Sys σ → Prop
  | .off b => ProvisionedFlash b.flash
  | .on _ _ => False

end Gd32Bridge
