import Gd32Bridge.Crc32
import Gd32Bridge.Lib.Endian
import Gd32Bridge.Lib.Memory

/-!
# Flash layout and on-flash structures (`src/ota_layout.h`)

The slot map, the A/B metadata record with its on-flash encoding, and the pure checks the
application and the bootloader share.  Addresses and lengths are the source's `uint32_t`.
-/

namespace Gd32Bridge

open Endian Memory

/-! ### Flash -/

/-- A flash byte, with the mark of an uncorrectable ECC error on its doubleword. -/
structure Cell where
  byte : UInt8
  bad : Bool
deriving DecidableEq, Repr

/-- The erased state of a cell. -/
def Cell.erased : Cell := ⟨0xFF, false⟩

abbrev Flash := ℕ → Cell

/-- The `n` bytes at `ota_fmc_flash_ptr(addr)`. -/
def Flash.bytes (f : Flash) (addr : UInt32) (n : ℕ) : List UInt8 :=
  (Memory.read f addr.toNat n).map Cell.byte

@[simp]
lemma Flash.bytes_length (f : Flash) (addr : UInt32) (n : ℕ) : (f.bytes addr n).length = n := by
  simp [Flash.bytes]

/-! ### Slot map -/

def otaPageSize : UInt32 := 0x800
def otaBootloaderBase : UInt32 := 0x08000000
def otaBootloaderSize : UInt32 := 0x8000
def otaMetaBase : UInt32 := 0x08008000
def otaMetaRec0 : UInt32 := otaMetaBase + 0 * otaPageSize
def otaMetaRec1 : UInt32 := otaMetaBase + 1 * otaPageSize
def otaSlotABase : UInt32 := 0x0800A000
def otaSlotBBase : UInt32 := 0x08040000
def otaSlotSize : UInt32 := 0x36000
def otaFmcBank1Base : UInt32 := 0x08040000
def otaConfigRec0 : UInt32 := 0x08076000
def otaConfigRec1 : UInt32 := 0x08076800

/-- The two image slots; `OTA_SLOT_A = 0`, `OTA_SLOT_B = 1`. -/
inductive Slot
  | A
  | B
deriving DecidableEq, Repr

namespace Slot

/-- The slot a build does not run from. -/
def other : Slot → Slot
  | A => B
  | B => A

def code : Slot → UInt8
  | A => 0
  | B => 1

def base : Slot → UInt32
  | A => otaSlotABase
  | B => otaSlotBBase

/-- The slot a byte of a record or of the session names, if it names one. -/
def ofCode (c : UInt8) : Option Slot :=
  if c = 0 then some A else if c = 1 then some B else none

@[simp] lemma other_other (s : Slot) : s.other.other = s := by cases s <;> rfl
@[simp] lemma other_ne (s : Slot) : s.other ≠ s := by cases s <;> decide
@[simp] lemma ne_other (s : Slot) : s ≠ s.other := by cases s <;> decide
@[simp] lemma ofCode_code (s : Slot) : ofCode s.code = some s := by cases s <;> rfl

lemma ofCode_eq_some {c : UInt8} {s : Slot} : ofCode c = some s ↔ c = s.code := by
  constructor
  · intro h
    simp only [ofCode] at h
    split_ifs at h with h₀ h₁
    · cases h
      exact h₀
    · cases h
      exact h₁
  · rintro rfl
    exact ofCode_code s

lemma code_injective {s t : Slot} (h : s.code = t.code) : s = t := by
  cases s <;> cases t <;> first | rfl | exact absurd h (by decide)

@[simp]
lemma code_inj {s t : Slot} : s.code = t.code ↔ s = t :=
  ⟨code_injective, fun h => h ▸ rfl⟩

lemma eq_or_eq_other (s t : Slot) : s = t ∨ s = t.other := by
  cases s <;> cases t <;> simp [other]

/-- The guard of BEGIN on the erase target never trips. -/
lemma not_overlap (run : Slot) : ¬ (run.other.base < run.base + otaSlotSize ∧
    run.base < run.other.base + otaSlotSize) := by
  cases run <;> decide

end Slot

/-- `ota_slot_base_checked` -/
def otaSlotBaseChecked (slot : UInt8) : Option UInt32 :=
  (Slot.ofCode slot).map Slot.base

/-- `(uint8_t)(1u << slot)`: zero once the bit falls out of the byte. -/
def slotBit (slot : UInt8) : UInt8 :=
  if slot < 8 then 1 <<< slot else 0

/-! ### Metadata records -/

/-- The `uint32_t x[2]` arrays of a record, indexed by slot. -/
structure PerSlot (α : Type*) where
  a : α
  b : α
deriving DecidableEq, Repr

namespace PerSlot

variable {α : Type*}

def get (p : PerSlot α) : Slot → α
  | .A => p.a
  | .B => p.b

/-- `x[slot] = v` for the index byte `slot`; the source only writes at 0 and 1. -/
def setByte (p : PerSlot α) (slot : UInt8) (v : α) : PerSlot α :=
  match Slot.ofCode slot with
  | some .A => { p with a := v }
  | some .B => { p with b := v }
  | none => p

@[simp]
lemma get_setByte_self (p : PerSlot α) (s : Slot) (v : α) : (p.setByte s.code v).get s = v := by
  cases s <;> rfl

@[simp]
lemma get_setByte_other (p : PerSlot α) (s : Slot) (v : α) :
    (p.setByte s.code v).get s.other = p.get s.other := by
  cases s <;> rfl

@[simp]
lemma get_setByte_other' (p : PerSlot α) (s : Slot) (v : α) :
    (p.setByte s.other.code v).get s = p.get s := by
  cases s <;> rfl

end PerSlot

def otaMetaMagic : UInt32 := 0x4F544D31
def otaMetaStructVer : UInt32 := 2
def otaMetaFlagTrial : UInt8 := 0x01
def otaMetaCounterLimit : UInt32 := 0xFFFFFFF0
def otaMetaBeginMaxCounter : UInt32 := otaMetaCounterLimit - 3

/-- `ota_meta_record_t` less its magic, struct version and CRC, which the encoding adds. -/
structure MetaRecord where
  counter : UInt32
  activeSlot : UInt8
  slotValid : UInt8
  flags : UInt8
  pad1 : UInt8
  fwVersion : PerSlot UInt32
  imgLen : PerSlot UInt32
  imgCrc32 : PerSlot UInt32
deriving DecidableEq, Repr

namespace MetaRecord

/-- The record `memset` leaves. -/
def zero : MetaRecord :=
  ⟨0, 0, 0, 0, 0, ⟨0, 0⟩, ⟨0, 0⟩, ⟨0, 0⟩⟩

/-- `flags & OTA_META_FLAG_TRIAL` -/
def trial (r : MetaRecord) : Bool :=
  r.flags &&& otaMetaFlagTrial != 0

/-- `slot_valid & (1u << slot)` -/
def valid (r : MetaRecord) (s : Slot) : Bool :=
  r.slotValid &&& slotBit s.code != 0

/-- The bytes `rec_crc32` covers: everything before it. -/
def body (r : MetaRecord) : List UInt8 :=
  le32 otaMetaMagic ++ le32 otaMetaStructVer ++ le32 r.counter ++
    [r.activeSlot, r.slotValid, r.flags, r.pad1] ++
    le32 r.fwVersion.a ++ le32 r.fwVersion.b ++ le32 r.imgLen.a ++ le32 r.imgLen.b ++
    le32 r.imgCrc32.a ++ le32 r.imgCrc32.b

/-- The 44 bytes `meta_commit` programs. -/
def encode (r : MetaRecord) : List UInt8 :=
  r.body ++ le32 (otaCrc32 0 r.body)

/-- The fields of a record read back from its 44 bytes. -/
def decode (p : List UInt8) : MetaRecord where
  counter := getLe32 p 8
  activeSlot := p.getD 12 0
  slotValid := p.getD 13 0
  flags := p.getD 14 0
  pad1 := p.getD 15 0
  fwVersion := ⟨getLe32 p 16, getLe32 p 20⟩
  imgLen := ⟨getLe32 p 24, getLe32 p 28⟩
  imgCrc32 := ⟨getLe32 p 32, getLe32 p 36⟩

@[simp] lemma body_length (r : MetaRecord) : r.body.length = 40 := by simp [body]
@[simp] lemma encode_length (r : MetaRecord) : r.encode.length = 44 := by simp [encode]

/-- The encoding loses nothing. -/
@[simp]
lemma decode_encode (r : MetaRecord) : decode r.encode = r := by
  simp [decode, encode, body, le32, getLe32]

end MetaRecord

/-- `offsetof(ota_meta_record_t, rec_crc32)` -/
def recCrcOff : ℕ := 40

/-- `sizeof(ota_meta_record_t)` -/
def recSize : ℕ := 44

/-- The acceptance test both readers apply to the 44 bytes of a record page. -/
def recordOk (p : List UInt8) : Bool :=
  getLe32 p 0 == otaMetaMagic && getLe32 p 4 == otaMetaStructVer &&
    otaCrc32 0 (p.take recCrcOff) == getLe32 p recCrcOff

@[simp]
lemma recordOk_encode (r : MetaRecord) : recordOk r.encode = true := by
  have hcrc : getLe32 r.encode recCrcOff = otaCrc32 0 r.body := by
    have h := getLe32_append_right r.body (le32 (otaCrc32 0 r.body)) 0
    rw [MetaRecord.body_length] at h
    have h' := getLe32_le32 (otaCrc32 0 r.body) []
    rw [List.append_nil] at h'
    exact h.trans h'
  have htake : r.encode.take recCrcOff = r.body := by
    rw [MetaRecord.encode, List.take_left' (by simp [recCrcOff])]
  have h₀ : getLe32 r.encode 0 = otaMetaMagic := by
    simp [MetaRecord.encode, MetaRecord.body, List.append_assoc]
  have h₄ : getLe32 r.encode 4 = otaMetaStructVer := by
    simp only [MetaRecord.encode, MetaRecord.body, List.append_assoc]
    rw [show 4 = (le32 otaMetaMagic).length + 0 from rfl, getLe32_append_right]
    simp
  simp [recordOk, hcrc, htake, h₀, h₄]

/-- `ota_version_floor` -/
def otaVersionFloor (r : MetaRecord) : UInt32 :=
  match Slot.ofCode r.activeSlot with
  | none => 0
  | some s => r.fwVersion.get (if r.trial then s.other else s)

/-! ### Boot candidate selection -/

/-- `ota_boot_candidate_ok` -/
def otaBootCandidateOk (r : MetaRecord) (wdtFired : Bool) : Bool :=
  !(r.trial && wdtFired)

/-- `ota_boot_select`: the winning candidate and whether the last-resort pass picked it.
Each candidate comes with its `active_slot_valid` verdict, newest first. -/
def otaBootSelect (cands : List (MetaRecord × Bool)) (wdtFired : Bool) :
    Option (MetaRecord × Bool) :=
  match cands.find? fun c => c.2 && otaBootCandidateOk c.1 wdtFired with
  | some c => some (c.1, false)
  | none =>
    match cands.find? fun c => c.2 && !otaBootCandidateOk c.1 wdtFired with
    | some c => some (c.1, true)
    | none => none

/-! ### Image checks -/

def otaImgMinLen : UInt32 := 8
def otaSramBase : UInt32 := 0x20000000
def otaSramEnd : UInt32 := 0x20018000

/-- `ota_image_bootable` -/
def otaImageBootable (base : UInt32) (img : List UInt8) (len : UInt32) : Bool :=
  if len < otaImgMinLen then false
  else
    let msp := getLe32 img 0
    let reset := getLe32 img 4
    if msp &&& 3 ≠ 0 then false
    else if msp < otaSramBase ∨ msp > otaSramEnd then false
    else if reset &&& 1 = 0 then false
    else
      let resetAddr := reset &&& ~~~(1 : UInt32)
      if resetAddr < base ∨ resetAddr ≥ base + len then false else true

/-- `OTA_TRIAL_MARKER_MAGIC_BYTES`, "GD32BRIDGE-TRIAL" -/
def otaTrialMarkerMagic : List UInt8 :=
  [0x47, 0x44, 0x33, 0x32, 0x42, 0x52, 0x49, 0x44,
   0x47, 0x45, 0x2D, 0x54, 0x52, 0x49, 0x41, 0x4C]

def otaTrialMarkerStructVer : UInt16 := 1
def otaTrialCapConfirm : UInt16 := 0x0001
def otaTrialScanLimit : ℕ := 2048
def otaTrialMarkerMinOffset : ℕ := 64
/-- `sizeof(ota_trial_marker_t)` -/
def otaTrialMarkerSize : ℕ := 20

/-- The offsets the marker scan visits, in order: from the core vectors on, every word at
which a whole marker still fits under `limit`. -/
def trialScanOffsets (limit : ℕ) : List ℕ :=
  (List.range limit).filter fun off =>
    otaTrialMarkerMinOffset ≤ off && off % 4 == 0 && off + otaTrialMarkerSize ≤ limit

/-- `ota_image_trial_capable`: the first marker in the window decides. -/
def otaImageTrialCapable (img : List UInt8) (len : UInt32) : Bool :=
  let limit := min len.toNat otaTrialScanLimit
  if limit < otaTrialMarkerSize then false
  else
    match (trialScanOffsets limit).find? fun off => (img.drop off).take 16 == otaTrialMarkerMagic with
    | none => false
    | some off =>
      if getLe16 img (off + 16) ≠ otaTrialMarkerStructVer then false
      else getLe16 img (off + 18) &&& otaTrialCapConfirm != 0

end Gd32Bridge
