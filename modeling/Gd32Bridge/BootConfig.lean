import Gd32Bridge.Fmc.Basic

/-!
# Persistent boot configuration (`src/boot_config.c`)

Two record pages of their own, a RAM cache of the stored flags, and a queued SET that the
base-level tick writes out in three flash calls.
-/

namespace Gd32Bridge

open Endian

def bootConfigKnownFlags : UInt32 := 0x00000001
def bootConfigMagic : UInt32 := 0x32464342
def bootConfigCounterLimit : UInt32 := 0xFFFFFFF0

/-- `OTA_CONFIG_REC0` and `OTA_CONFIG_REC1`. -/
inductive ConfigPage
  | rec0
  | rec1
deriving DecidableEq, Repr

def ConfigPage.addr : ConfigPage → UInt32
  | rec0 => otaConfigRec0
  | rec1 => otaConfigRec1

/-- `boot_config_record_t` -/
structure ConfigRecord where
  counter : UInt32
  flags : UInt32
  crc32 : UInt32
  magic : UInt32
deriving DecidableEq, Repr

namespace ConfigRecord

/-- The payload doubleword. -/
def payload (r : ConfigRecord) : List UInt8 :=
  le32 r.counter ++ le32 r.flags

/-- The commit doubleword, programmed last. -/
def commit (r : ConfigRecord) : List UInt8 :=
  le32 r.crc32 ++ le32 r.magic

end ConfigRecord

/-- `BOOT_CONFIG_COMMIT_OFF` -/
def bootConfigCommitOff : UInt32 := 8

/-- `record_crc` -/
def configRecordCrc (counter flags : UInt32) : UInt32 :=
  otaCrc32 0 (le32 counter ++ le32 flags)

/-- `boot_config_read_page` -/
def bootConfigReadPage (f : Flash) (p : ConfigPage) : Option ConfigRecord :=
  match otaFmcReadSafe f (p.addr + bootConfigCommitOff) 8 with
  | none => none
  | some commit =>
    if getLe32 commit 4 ≠ bootConfigMagic then none
    else
      match otaFmcReadSafe f p.addr 8 with
      | none => none
      | some payload =>
        let counter := getLe32 payload 0
        let flags := getLe32 payload 4
        if getLe32 commit 0 ≠ configRecordCrc counter flags then none
        else if counter = 0 ∨ counter ≥ bootConfigCounterLimit then none
        else some ⟨counter, flags, getLe32 commit 0, getLe32 commit 4⟩

/-- `newest_record`: the newest record, if any, and the page a new one goes to. -/
def configNewestRecord (f : Flash) : Option ConfigRecord × ConfigPage :=
  match bootConfigReadPage f .rec0, bootConfigReadPage f .rec1 with
  | some r0, some r1 => if r0.counter > r1.counter then (some r0, .rec1) else (some r1, .rec0)
  | some r0, none => (some r0, .rec1)
  | none, some r1 => (some r1, .rec0)
  | none, none => (none, .rec0)

/-- `s_stored`, and `s_pending` with `s_pending_flags`. -/
structure BootConfig where
  stored : UInt32
  pending : Option UInt32
deriving DecidableEq, Repr

/-- `boot_config_load` -/
def bootConfigLoad (f : Flash) : BootConfig where
  stored := match (configNewestRecord f).1 with
    | some cur => cur.flags &&& bootConfigKnownFlags
    | none => 0
  pending := none

/-- `boot_config_request`: whether the SET is accepted -/
def bootConfigRequest (c : BootConfig) (flags : UInt32) : BootConfig × Bool :=
  match c.pending with
  | some p => (c, p == flags)
  | none =>
    if flags = c.stored then (c, true)
    else ({ c with pending := some flags }, true)

/-! ### The store, call by call -/

/-- The flash calls of `boot_config_store`, in order. -/
inductive StorePhase
  | erase
  | payload
  | commit
deriving DecidableEq, Repr

/-- A store under way: the page, the record and the flags asked for. -/
structure ConfigStore where
  page : ConfigPage
  record : ConfigRecord
  flags : UInt32
deriving DecidableEq, Repr

def ConfigStore.call (s : ConfigStore) : StorePhase → FmcCall
  | .erase => .erase s.page.addr otaPageSize
  | .payload => .program s.page.addr s.record.payload
  | .commit => .program (s.page.addr + bootConfigCommitOff) s.record.commit

/-- The part of `boot_config_store` before its first flash call: a result at once, or the
store to carry out. -/
def bootConfigStorePlan (f : Flash) (flags : UInt32) : FmcResult ⊕ ConfigStore :=
  let known := flags &&& bootConfigKnownFlags
  match configNewestRecord f with
  | (some cur, target) =>
    if cur.flags = known then .inl .ok
    else if cur.counter + 1 ≥ bootConfigCounterLimit then .inl .error
    else
      .inr ⟨target,
        ⟨cur.counter + 1, known, configRecordCrc (cur.counter + 1) known, bootConfigMagic⟩, flags⟩
  | (none, target) =>
    if known = 0 then .inl .ok
    else .inr ⟨target, ⟨1, known, configRecordCrc 1 known, bootConfigMagic⟩, flags⟩

/-- The readback at the end of `boot_config_store`. -/
def bootConfigReadback (f : Flash) (s : ConfigStore) : FmcResult :=
  match bootConfigReadPage f s.page with
  | some check =>
    if check.counter = s.record.counter ∧ check.flags = s.record.flags then .ok else .error
  | none => .error

/-- The end of `boot_config_tick`. -/
def bootConfigFinish (c : BootConfig) (flags : UInt32) (r : FmcResult) : BootConfig where
  stored := if r = .ok then flags else c.stored
  pending := none

end Gd32Bridge
