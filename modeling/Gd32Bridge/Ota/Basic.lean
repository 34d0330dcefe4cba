import Gd32Bridge.Ota.Meta

/-!
# The OTA session (`src/ota.c`, partitioned build)

Request handlers, the background erase pump, the boot-time reconciliation and the trial confirm,
as functions on the device state.  A request ends in a reply, in the reset that follows a
successful COMMIT or ROLLBACK, or in the loss of power during one of its flash operations.
-/

namespace Gd32Bridge

open Endian

/-- `gd32_bridge_status_t` -/
inductive Status
  | ok
  | inval
  | notReady
  | busy
  | timeout
  | io
  | nosupport
  | nomem
  | outOfRange
  | noPending
deriving DecidableEq, Repr

/-- The `OTA_ST_*` states. -/
inductive OtaState
  | idle
  | ready
  | busy
  | verified
  | error
deriving DecidableEq, Repr

def OtaState.code : OtaState → UInt8
  | idle => 0
  | ready => 1
  | busy => 2
  | verified => 3
  | error => 4

/-- `gd32_bridge_ota_err_t` -/
inductive OtaErr
  | none
  | sessionRange
  | eraseFailed
  | chunkRange
  | programFailed
  | verifyCrc
  | commitFailed
  | eraseTarget
  | notTrialCapable
  | metaDemoteFailed
  | belowFloor
deriving DecidableEq, Repr

def OtaErr.code : OtaErr → UInt8
  | none => 0x00
  | sessionRange => 0x01
  | eraseFailed => 0x02
  | chunkRange => 0x03
  | programFailed => 0x04
  | verifyCrc => 0x05
  | commitFailed => 0x06
  | eraseTarget => 0x07
  | notTrialCapable => 0x08
  | metaDemoteFailed => 0x09
  | belowFloor => 0x0A

/-- The session statics of `src/ota.c`.  `s_inactive` only ever holds A or B, so it is a
`Slot` here and the fallback of `ota_inactive_base` has nothing to fall back from. -/
structure Session where
  state : OtaState
  inactive : Slot
  imgLen : UInt32
  lastOff : UInt32
  expectedCrc : UInt32
  imgCrc : UInt32
  fwVersion : UInt32
  err : OtaErr
  erasing : Bool
  eraseAt : UInt32
  eraseEnd : UInt32
  eraseEpoch : UInt32
deriving DecidableEq, Repr

/-- The statics of a build for slot `run` as the C runtime leaves them. -/
def Session.initial (run : Slot) : Session where
  state := .idle
  inactive := run.other
  imgLen := 0
  lastOff := 0
  expectedCrc := 0
  imgCrc := 0
  fwVersion := 0
  err := .none
  erasing := false
  eraseAt := 0
  eraseEnd := 0
  eraseEpoch := 0

/-- The OTA side of a running device: the build's slot, the flash and its controller, the
session, and the two flags of the trial gate. -/
structure Ota where
  run : Slot
  board : Board
  sess : Session
  trial : Bool
  frameSeen : Bool

/-- How a request ends. -/
inductive Outcome
  | reply (status : Status) (payload : List UInt8)
  | reset
  | powerLost
deriving DecidableEq, Repr

/-- `OTA_CHUNK_MAX`: the largest multiple of the program granule that fits a payload next to
the five header bytes. -/
def otaChunkMax : ℕ := (65 - 5) / 8 * 8

/-- The wire fields of BEGIN: `img_len`, `expected_crc` and the packed `fw_version`. -/
structure BeginArgs where
  imgLen : UInt32
  expectedCrc : UInt32
  fwVersion : UInt32
deriving DecidableEq, Repr

/-- A client that sends no version is recorded with version 0. -/
def BeginArgs.ofRequest (req : List UInt8) : BeginArgs where
  imgLen := getLe32 req 0
  expectedCrc := getLe32 req 4
  fwVersion :=
    if req.length ≥ 11 then
      ((req.getD 8 0).toUInt32 <<< 16) ||| ((req.getD 9 0).toUInt32 <<< 8) |||
        (req.getD 10 0).toUInt32
    else 0

namespace Ota

/-- `ota_inactive_base` -/
def inactiveBase (o : Ota) : UInt32 :=
  o.sess.inactive.base

/-- Put the session into `OTA_ST_ERROR` with a cause. -/
def fail (o : Ota) (e : OtaErr) : Ota :=
  { o with sess := { o.sess with state := .error, err := e } }

/-- `ota_session_reject` -/
def sessionReject (o : Ota) (e : OtaErr) : Ota :=
  { o with sess := { o.sess with
    eraseEpoch := o.sess.eraseEpoch + 1
    state := .error
    err := e } }

/-- The end of an accepted BEGIN: the wire fields become the session's and the erase is armed. -/
def openSession (o : Ota) (a : BeginArgs) : Ota :=
  { o with sess := { o.sess with
    eraseEpoch := o.sess.eraseEpoch + 1
    inactive := o.run.other
    lastOff := 0
    imgLen := a.imgLen
    expectedCrc := a.expectedCrc
    fwVersion := a.fwVersion
    erasing := true
    eraseAt := o.run.other.base
    eraseEnd := o.run.other.base + otaSlotSize
    state := .busy } }

end Ota

/-- `ota_session_active` -/
def otaSessionActive (o : Ota) : Bool :=
  o.sess.state != .idle && o.sess.state != .error

/-- `ota_erase_active` -/
def otaEraseActive (o : Ota) : Bool :=
  o.sess.erasing

/-! ### OTA_BEGIN -/

/-- The write that takes the erase target out of the metadata before it is erased. -/
def demoteWrite (run : Slot) (cur : MetaRecord) : MetaWrite :=
  ⟨cur.activeSlot, none, cur.flags, none, run.other.code⟩

/-- The tail of `h_begin`: arm the erase and answer `chunk_max:u16, target_slot:u8`. -/
def beginArm (o : Ota) (a : BeginArgs) (cap : ℕ) : Ota × Outcome :=
  let o' := o.openSession a
  let chunkMax : UInt16 := .ofNat otaChunkMax
  (o', .reply .ok (if cap ≥ 3 then
    [(chunkMax &&& 0xFF).toUInt8, (chunkMax >>> 8).toUInt8, o'.sess.inactive.code] else []))

/-- `h_begin` -/
def hBegin (o : Ota) (req : List UInt8) (cap : ℕ) : Ota × Outcome :=
  if req.length < 8 then (o, .reply .inval [])
  else
    let a := BeginArgs.ofRequest req
    if a.imgLen = 0 ∨ a.imgLen > otaSlotSize then
      (o.sessionReject .sessionRange, .reply .outOfRange [])
    else
      let eraseAt := o.run.other.base
      let eraseEnd := eraseAt + otaSlotSize
      -- defence in depth: the erase range and the running slot do not meet
      if eraseAt < o.run.base + otaSlotSize ∧ o.run.base < eraseEnd then
        (o.sessionReject .eraseTarget, .reply .inval [])
      else
        match metaCurrent o.board.flash with
        | none => beginArm o a cap
        | some (cur, _) =>
          if cur.counter > otaMetaBeginMaxCounter then
            (o.sessionReject .metaDemoteFailed, .reply .io [])
          else if o.board.owned then (o, .reply .busy [])
          else
            match metaCommit o.board o.run (demoteWrite o.run cur) with
            | (b, some true) => beginArm { o with board := b } a cap
            | (b, some false) =>
              (Ota.sessionReject { o with board := b } .metaDemoteFailed, .reply .io [])
            | (b, none) => ({ o with board := b }, .powerLost)

/-! ### OTA_WRITE_CHUNK -/

/-- The acknowledgement of a chunk: the high-water mark. -/
def writeAck (o : Ota) (cap : ℕ) : Ota × Outcome :=
  let o' := { o with sess := { o.sess with state := .ready } }
  (o', .reply .ok (if cap ≥ 4 then le32 o'.sess.lastOff else []))

/-- `h_write` -/
def hWrite (o : Ota) (req : List UInt8) (cap : ℕ) : Ota × Outcome :=
  if o.sess.state ≠ .ready then (o, .reply .notReady [])
  else if req.length < 5 then (o, .reply .inval [])
  else
    let off := getLe32 req 0
    let dlen : UInt32 := (req.getD 4 0).toUInt32
    if dlen = 0 ∨ dlen ≠ .ofNat req.length - 5 then (o, .reply .inval [])
    else if off > otaSlotSize ∨ dlen > otaSlotSize - off then
      (o.fail .chunkRange, .reply .outOfRange [])
    else if off % 8 ≠ 0 then (o, .reply .inval [])
    else if off + dlen ≤ o.sess.lastOff then
      -- a replay: compare with what is in flash instead of programming again
      if o.board.flash.bytes (o.inactiveBase + off) dlen.toNat = req.drop 5 then writeAck o cap
      else (o.fail .programFailed, .reply .io [])
    else
      match otaFmcProgram o.board o.run (o.inactiveBase + off) (req.drop 5) with
      | (b, none) =>
        ({ o with board := b, sess := { o.sess with state := .busy } }, .powerLost)
      | (b, some .ok) =>
        writeAck { o with
          board := b
          sess := { o.sess with
            lastOff := if off + dlen > o.sess.lastOff then off + dlen else o.sess.lastOff } } cap
      | (b, some .timeout) => (Ota.fail { o with board := b } .programFailed, .reply .timeout [])
      | (b, some .error) => (Ota.fail { o with board := b } .programFailed, .reply .io [])

/-! ### OTA_VERIFY -/

/-- The CRC-32 of the first `s_img_len` bytes of the inactive slot. -/
def inactiveCrc (o : Ota) : UInt32 :=
  otaCrc32 0 (o.board.flash.bytes o.inactiveBase o.sess.imgLen.toNat)

/-- `h_verify` -/
def hVerify (o : Ota) (cap : ℕ) : Ota × Outcome :=
  if o.sess.state ≠ .ready then (o, .reply .notReady [])
  else if o.sess.imgLen = 0 ∨ o.sess.imgLen > otaSlotSize then
    (o.fail .sessionRange, .reply .inval [])
  else
    let imgCrc := inactiveCrc o
    let ok := imgCrc == o.sess.expectedCrc
    let sess := { o.sess with
      imgCrc := imgCrc
      state := if ok then .verified else .error
      err := if ok then o.sess.err else .verifyCrc }
    ({ o with sess := sess },
      .reply .ok (if cap ≥ 5 then le32 imgCrc ++ [if ok then 1 else 0] else []))

/-! ### OTA_COMMIT -/

/-- The write that activates a verified image, on trial. -/
def commitWrite (s : Session) : MetaWrite :=
  ⟨s.inactive.code, some ⟨s.fwVersion, s.imgLen, s.imgCrc⟩, otaMetaFlagTrial, none, 0xFF⟩

/-- The floor refusal shared by COMMIT and ROLLBACK: `version` is below what `cur` confirms. -/
def belowFloor (cur : Option (MetaRecord × MetaPage)) (version : UInt32) : Bool :=
  match cur with
  | none => false
  | some (r, _) => version < otaVersionFloor r

/-- `h_commit` -/
def hCommit (o : Ota) : Ota × Outcome :=
  let img := o.board.flash.bytes o.inactiveBase o.sess.imgLen.toNat
  if o.sess.state ≠ .verified then (o, .reply .notReady [])
  else if o.sess.imgLen = 0 ∨ o.sess.imgLen > otaSlotSize then
    (o.fail .sessionRange, .reply .inval [])
  else if !otaImageBootable o.inactiveBase img o.sess.imgLen then
    (o.fail .commitFailed, .reply .inval [])
  else if !otaImageTrialCapable img o.sess.imgLen then
    (o.fail .notTrialCapable, .reply .inval [])
  else if belowFloor (metaCurrent o.board.flash) o.sess.fwVersion then
    (o.fail .belowFloor, .reply .inval [])
  else
    match metaCommit o.board o.run (commitWrite o.sess) with
    | (b, some true) => ({ o with board := b }, .reset)
    | (b, some false) => (Ota.fail { o with board := b } .commitFailed, .reply .io [])
    | (b, none) => ({ o with board := b }, .powerLost)

/-! ### OTA_ROLLBACK -/

/-- The write that flips the active slot, on trial when the image can confirm itself. -/
def rollbackWrite (other : Slot) (trialCapable : Bool) : MetaWrite :=
  ⟨other.code, none, if trialCapable then otaMetaFlagTrial else 0, none, 0xFF⟩

/-- `h_rollback` -/
def hRollback (o : Ota) : Ota × Outcome :=
  if o.sess.state ≠ .idle ∧ o.sess.state ≠ .error then (o, .reply .busy [])
  else
    match metaCurrent o.board.flash with
    | none => (o, .reply .inval [])
    | some (cur, _) =>
      match Slot.ofCode cur.activeSlot with
      | none => (o, .reply .inval [])
      | some active =>
        let other := active.other
        let len := cur.imgLen.get other
        let img := o.board.flash.bytes other.base len.toNat
        if !cur.valid other ∨ len = 0 ∨ len > otaSlotSize then (o, .reply .inval [])
        else if cur.fwVersion.get other < otaVersionFloor cur then
          (o.fail .belowFloor, .reply .inval [])
        else if otaCrc32 0 img ≠ cur.imgCrc32.get other ∨
            !otaImageBootable other.base img len then
          (o, .reply .inval [])
        else
          match metaCommit o.board o.run (rollbackWrite other (otaImageTrialCapable img len)) with
          | (b, some true) => ({ o with board := b }, .reset)
          | (b, some false) => ({ o with board := b }, .reply .io [])
          | (b, none) => ({ o with board := b }, .powerLost)

/-! ### OTA_GET_STATE and OTA_ABORT -/

/-- `h_get_state` -/
def hGetState (o : Ota) (cap : ℕ) : Ota × Outcome :=
  let gen : UInt16 := match metaCurrent o.board.flash with
    | some (cur, _) => cur.counter.toUInt16
    | none => 0
  let inProgress := o.sess.state == .ready || o.sess.state == .busy || o.sess.state == .verified
  (o, .reply .ok (if cap ≥ 6 then
    [o.sess.state.code, o.run.code, if inProgress then o.sess.inactive.code else 0xFF,
      (gen &&& 0xFF).toUInt8, (gen >>> 8).toUInt8, o.sess.err.code] else []))

/-- The `CMD_OTA_ABORT` branch of `ota_dispatch`. -/
def hAbort (o : Ota) : Ota × Outcome :=
  ({ o with sess := { o.sess with
      eraseEpoch := o.sess.eraseEpoch + 1
      erasing := false
      state := .idle
      err := .none } },
    .reply .ok [])

/-- `ota_dispatch` -/
def otaDispatch (o : Ota) (cmd : UInt8) (req : List UInt8) (cap : ℕ) : Ota × Outcome :=
  if cmd = 0xF0 then hBegin o req cap
  else if cmd = 0xF1 then hWrite o req cap
  else if cmd = 0xF2 then hVerify o cap
  else if cmd = 0xF3 then hCommit o
  else if cmd = 0xF4 then hRollback o
  else if cmd = 0xF5 then hGetState o cap
  else if cmd = 0xF6 then hAbort o
  else (o, .reply .nosupport [])

/-! ### The erase pump

`ota_erase_tick` runs at base level and can be pre-empted anywhere except in its two critical
sections, so it is modelled as those two sections with the flash call between them. -/

/-- What the first critical section of `ota_erase_tick` reads. -/
structure EraseSnapshot where
  epoch : UInt32
  at_ : UInt32
  end_ : UInt32
deriving DecidableEq, Repr

/-- First section of `ota_erase_tick`. -/
def otaEraseSnapshot (s : Session) : Option EraseSnapshot :=
  if s.erasing then some ⟨s.eraseEpoch, s.eraseAt, s.eraseEnd⟩ else none

/-- Second section of `ota_erase_tick`: publish, unless the session has moved on. -/
def otaErasePublish (s : Session) (snap : EraseSnapshot) (r : FmcResult) : Session :=
  if !s.erasing ∨ s.eraseEpoch ≠ snap.epoch then s
  else if r ≠ .ok then { s with erasing := false, state := .error, err := .eraseFailed }
  else
    let s' := { s with eraseAt := snap.at_ + otaPageSize }
    if s'.eraseAt ≥ snap.end_ then
      { s' with
        erasing := false
        state := if s'.state = .busy then .ready else s'.state }
    else s'

/-! ### Boot-time reconciliation and confirm -/

/-- The self-heal write: point the metadata at the running slot and drop the rejected one. -/
def selfHealWrite (run : Slot) (newest : MetaRecord) : MetaWrite :=
  ⟨run.code, none, 0, none, newest.activeSlot⟩

/-- The condition under which `ota_boot_init` raises the trial gate. -/
def runRecTrial (f : Flash) (run : Slot) : Bool :=
  match findRunningSlotRecord f run with
  | some (r, _) => r.trial
  | none => false

/-- `ota_boot_init` on a fresh boot; the flag tells whether the device still has power. -/
def otaBootInit (b : Board) (run : Slot) : Ota × Bool :=
  let runRecTrial := runRecTrial b.flash run
  let o : Ota := ⟨run, b, .initial run, runRecTrial, false⟩
  if runRecTrial then (o, true)
  else
    match metaCurrent b.flash with
    | none => (o, true)
    | some (newest, _) =>
      if newest.activeSlot ≠ run.code ∧ newest.trial then
        match metaCommit b run (selfHealWrite run newest) with
        | (b', some _) => ({ o with board := b' }, true)
        | (b', none) => ({ o with board := b' }, false)
      else (o, true)

/-- How a confirm tick ends. -/
inductive TickEnd
  | stay
  | reset
  | powerLost
deriving DecidableEq, Repr

/-- The confirm write: the record that names the running slot, on its own page, less TRIAL. -/
def confirmWrite (run : Slot) (which : MetaPage) : MetaWrite :=
  ⟨run.code, none, 0, some which, 0xFF⟩

/-- `ota_confirm_tick` -/
def otaConfirmTick (o : Ota) : Ota × TickEnd :=
  if !o.trial ∨ !o.frameSeen then (o, .stay)
  else
    match findRunningSlotRecord o.board.flash o.run with
    | none => (o, .stay)
    | some (_, which) =>
      match metaCommit o.board o.run (confirmWrite o.run which) with
      | (b, some true) => ({ o with board := b }, .reset)
      | (b, some false) => ({ o with board := b }, .stay)
      | (b, none) => ({ o with board := b }, .powerLost)

end Gd32Bridge
