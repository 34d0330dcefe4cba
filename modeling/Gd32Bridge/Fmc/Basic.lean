import Gd32Bridge.Layout

/-!
# The flash memory controller (`hal/fmc_ota.c`, `hal/fmc_ota_guard.h`)

Erase and program requests are turned into physical operations: the erase of one page, selected
by bank and page number, and the programming of one doubleword.  What an operation does to the
flash is decided by the environment through a script of `PhysResult`s: it completes, it is
reported as failed, or the supply fails while it runs; in the last two cases the cells it was
working on may hold anything.
-/

namespace Gd32Bridge

open Memory

/-- `fmc_state_enum` less `FMC_READY` and `FMC_BUSY`: how an operation can fail. -/
inductive FmcFault
  | wperr
  | pgerr
  | pgserr
  | pgaerr
  | rperr
  | pgmerr
  | oberr
  | toerr
deriving DecidableEq, Repr

/-- `ota_fmc_result_t` -/
inductive FmcResult
  | ok
  | error
  | timeout
deriving DecidableEq, Repr

/-- `FMC_TOERR` is the one state reported apart from the others. -/
def FmcFault.result : FmcFault → FmcResult
  | .toerr => .timeout
  | _ => .error

/-- What the hardware makes of one physical operation; `left` is the content it leaves in the
cells of the operation when it does not complete. -/
inductive PhysResult
  | ready
  | fault (e : FmcFault) (left : Flash)
  | cut (left : Flash)

/-- One physical operation. -/
inductive FlashOp
  | erasePage (bank1 : Bool) (page : UInt32)
  | programDword (addr : UInt32) (dw : List UInt8)
deriving DecidableEq, Repr

/-- A call of `ota_fmc_erase_range` or `ota_fmc_program`. -/
inductive FmcCall
  | erase (base len : UInt32)
  | program (addr : UInt32) (data : List UInt8)
deriving DecidableEq, Repr

/-- What the flash controller has been made to do, with the slot the code ran from. -/
inductive Event
  | call (run : Slot) (c : FmcCall)
  | op (run : Slot) (o : FlashOp)
deriving DecidableEq, Repr

/-- Flash and controller.  `dual` is `OBCTL.DBS`, `owned` is `s_fmc_owned`; `script` holds the
environment's choices for the next operations (an exhausted script means they complete) and
`log` what was done in the current step, latest first. -/
structure Board where
  flash : Flash
  dual : Bool
  owned : Bool
  script : List PhysResult
  log : List Event

/-! ### Physical operations -/

/-- `OTA_FMC_PAGE_SIZE_DBANK` / `OTA_FMC_PAGE_SIZE_SBANK` -/
def fmcPageSize (dual : Bool) : UInt32 :=
  if dual then 0x400 else 0x800

namespace FlashOp

/-- First address of the cells an operation works on. -/
def lo (dual : Bool) : FlashOp → ℕ
  | erasePage bank1 page =>
    (if dual && bank1 then otaFmcBank1Base else otaBootloaderBase).toNat +
      page.toNat * (fmcPageSize dual).toNat
  | programDword addr _ => addr.toNat

/-- Number of cells an operation works on. -/
def size (dual : Bool) : FlashOp → ℕ
  | erasePage _ _ => (fmcPageSize dual).toNat
  | programDword _ _ => 8

def range (dual : Bool) (o : FlashOp) : Set ℕ :=
  Set.Ico (o.lo dual) (o.lo dual + o.size dual)

/-- The cells after the operation has completed. -/
def content : FlashOp → Flash
  | erasePage _ _ => fun _ => .erased
  | programDword addr dw => fun a => ⟨dw.getD (a - addr.toNat) 0xFF, false⟩

/-- Only an erased doubleword can be programmed; any other raises `PGERR`. -/
def possible (f : Flash) : FlashOp → Bool
  | erasePage _ _ => true
  | programDword addr _ => (f.bytes addr 8).all (· == 0xFF)

end FlashOp

/-- How a physical operation ended. -/
inductive OpEnd
  | ready
  | fault (e : FmcFault)
  | cut
deriving DecidableEq, Repr

/-- `erase_one_page` / `program_one_dword` on the hardware, under the next script entry. -/
def Board.exec (b : Board) (run : Slot) (o : FlashOp) : Board × OpEnd :=
  let b' := { b with script := b.script.tail, log := .op run o :: b.log }
  let put (c : Flash) := { b' with flash := overlay b.flash (o.lo b.dual) (o.size b.dual) c }
  match b.script.headD .ready with
  | .ready => if o.possible b.flash then (put o.content, .ready) else (b', .fault .pgerr)
  | .fault e left => (put left, .fault e)
  | .cut left => (put left, .cut)

/-- The walk over a call's operations: it stops at the first one that does not complete.
`none` is the loss of power. -/
def Board.runOps (b : Board) (run : Slot) : List FlashOp → Board × Option FmcResult
  | [] => (b, some .ok)
  | o :: os =>
    match b.exec run o with
    | (b', .ready) => b'.runOps run os
    | (b', .fault e) => (b', some e.result)
    | (b', .cut) => (b', none)

/-! ### From calls to operations -/

/-- `ota_fmc_range_forbidden`, in the build that runs from slot `run` -/
def otaFmcRangeForbidden (run : Slot) (base len : UInt32) : Bool :=
  if len > 0xFFFFFFFF - base then true
  else if base < otaBootloaderBase + otaBootloaderSize ∧ otaBootloaderBase < base + len then true
  else if base < run.base + otaSlotSize ∧ run.base < base + len then true
  else false

/-- Bank and page number of `erase_one_page(addr)`. -/
def eraseOnePage (dual : Bool) (addr : UInt32) : FlashOp :=
  if dual then
    if addr ≥ otaFmcBank1Base then .erasePage true ((addr - otaFmcBank1Base) / fmcPageSize true)
    else .erasePage false ((addr - otaBootloaderBase) / fmcPageSize true)
  else .erasePage false ((addr - otaBootloaderBase) / fmcPageSize false)

/-- Doubleword `i` of `data`, its tail padded with `0xFF`. -/
def padDword (data : List UInt8) (i : ℕ) : List UInt8 :=
  (List.range 8).map fun k => data.getD (8 * i + k) 0xFF

namespace FmcCall

/-- The checks both entry points make before they claim the funnel: alignment, then the
forbidden ranges. -/
def admits (run : Slot) : FmcCall → Bool
  | erase base len =>
    base % otaPageSize == 0 && len % otaPageSize == 0 && !otaFmcRangeForbidden run base len
  | program addr data =>
    addr % 8 == 0 && !otaFmcRangeForbidden run addr (.ofNat data.length)

/-- The operations of a call, in loop order. -/
def work (dual : Bool) : FmcCall → List FlashOp
  | erase base len =>
    (List.range (len.toNat / (fmcPageSize dual).toNat)).map fun i =>
      eraseOnePage dual (base + .ofNat i * fmcPageSize dual)
  | program addr data =>
    (List.range ((data.length + 7) / 8)).map fun i =>
      .programDword (addr + .ofNat (8 * i)) (padDword data i)

end FmcCall

/-- `fmc_funnel_claim`, with the call noted in the log. -/
def Board.claim (b : Board) (run : Slot) (c : FmcCall) : Board :=
  { b with owned := true, log := .call run c :: b.log }

/-- `fmc_funnel_release` -/
def Board.release (b : Board) : Board :=
  { b with owned := false }

/-- The common shape of `ota_fmc_erase_range` and `ota_fmc_program`: refuse on the range
guards, then on funnel ownership, else walk the operations while owning the funnel. -/
def Board.fmcCall (b : Board) (run : Slot) (c : FmcCall) : Board × Option FmcResult :=
  if !c.admits run then (b, some .error)
  else if b.owned then (b, some .error)
  else
    match (b.claim run c).runOps run (c.work b.dual) with
    | (b', r) => (b'.release, r)

/-- `ota_fmc_erase_range` -/
def otaFmcEraseRange (b : Board) (run : Slot) (base len : UInt32) : Board × Option FmcResult :=
  b.fmcCall run (.erase base len)

/-- `ota_fmc_program` -/
def otaFmcProgram (b : Board) (run : Slot) (addr : UInt32) (data : List UInt8) :
    Board × Option FmcResult :=
  b.fmcCall run (.program addr data)

/-- `ota_fmc_config_write_safe` -/
def otaFmcConfigWriteSafe (b : Board) (run : Slot) : Bool :=
  b.dual && !(run.base ≥ otaFmcBank1Base)

/-- `ota_fmc_read_safe`: the bytes, unless one of them sits in an uncorrectable doubleword. -/
def otaFmcReadSafe (f : Flash) (addr : UInt32) (len : ℕ) : Option (List UInt8) :=
  if addr % 8 ≠ 0 ∨ len % 8 ≠ 0 then none
  else if (Memory.read f addr.toNat len).any Cell.bad then none
  else some (f.bytes addr len)

end Gd32Bridge
