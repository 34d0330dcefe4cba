import Gd32Bridge.Boot.Decide
import Gd32Bridge.Factory.Zlib

/-!
# The factory record (`tools/gen_ota_metadata.py`)

A Python tool packs the first metadata record of a part.  It has its own validation and its own
format string; a record it writes has to be one the bootloader boots from.
-/

namespace Gd32Bridge

open Endian

namespace Factory

/-- Why `build_record` raises. -/
inductive RecordError
  /-- "slot image is ... bytes; must be within ..." -/
  | imageSize
  /-- "slot image is ... bytes; must be at least ..." -/
  | imageHead
  /-- "initial MSP ... is not a word-aligned address in ..." -/
  | initialMsp
  /-- "reset vector ... has the Thumb bit clear" -/
  | thumbBit
  /-- "reset vector ... which is outside ..." -/
  | resetRange
  /-- `struct.error`: a value does not fit its field -/
  | fieldRange
deriving DecidableEq, Repr

/-- The format `I` of `struct.pack`, little-endian. -/
def packI (v : ℕ) : Except RecordError (List UInt8) :=
  if v < 2 ^ 32 then .ok (le32 (.ofNat v)) else .error .fieldRange

/-- The format `B` of `struct.pack`. -/
def packB (v : ℕ) : Except RecordError (List UInt8) :=
  if v < 2 ^ 8 then .ok [.ofNat v] else .error .fieldRange

/-- `SLOT_NAMES` -/
def slotIndex : Slot → ℕ
  | .A => 0
  | .B => 1

/-- `check_bootable` -/
def checkBootable (activeSlot : Slot) (img : List UInt8) : Except RecordError Unit :=
  if img.length < otaImgMinLen.toNat then .error .imageHead
  else
    let base := activeSlot.base.toNat
    let msp := (getLe32 img 0).toNat
    let reset := (getLe32 img 4).toNat
    if msp &&& 3 ≠ 0 ∨ ¬ (otaSramBase.toNat ≤ msp ∧ msp ≤ otaSramEnd.toNat) then .error .initialMsp
    else
      -- `reset & ~1`
      let resetAddr := reset - reset % 2
      if reset &&& 1 = 0 then .error .thumbBit
      else if ¬ (base ≤ resetAddr ∧ resetAddr < base + img.length) then .error .resetRange
      else .ok ()

/-- The list `[0, 0]` with one entry replaced. -/
def entry (activeSlot : Slot) (v : ℕ) : PerSlot ℕ :=
  (PerSlot.mk 0 0).setByte activeSlot.code v

/-- `build_record`; the body has the format `<III BBB x 2I 2I 2I` -/
def buildRecord (activeSlot : Slot) (counter : ℕ) (img : List UInt8) (fwVersion : ℕ) :
    Except RecordError (List UInt8) := do
  if ¬ (1 ≤ img.length ∧ img.length ≤ otaSlotSize.toNat) then throw .imageSize
  checkBootable activeSlot img
  let fwVer := entry activeSlot fwVersion
  let imgLen := entry activeSlot img.length
  let imgCrc := entry activeSlot (zlibCrc32 img).toNat
  let magic ← packI 0x4F544D31
  let structVer ← packI 2
  let count ← packI counter
  let slot ← packB (slotIndex activeSlot)
  let slotValid ← packB (1 <<< slotIndex activeSlot)
  let flags ← packB 0
  let fwVerA ← packI fwVer.a
  let fwVerB ← packI fwVer.b
  let imgLenA ← packI imgLen.a
  let imgLenB ← packI imgLen.b
  let imgCrcA ← packI imgCrc.a
  let imgCrcB ← packI imgCrc.b
  let body := magic ++ structVer ++ count ++ slot ++ slotValid ++ flags ++ [0] ++ fwVerA ++ fwVerB ++
    imgLenA ++ imgLenB ++ imgCrcA ++ imgCrcB
  let recCrc ← packI (zlibCrc32 body).toNat
  return body ++ recCrc

/-! ### The record it packs -/

/-- The record in the firmware's terms. -/
def record (activeSlot : Slot) (counter : ℕ) (img : List UInt8) (fwVersion : ℕ) : MetaRecord where
  counter := .ofNat counter
  activeSlot := activeSlot.code
  slotValid := slotBit activeSlot.code
  flags := 0
  pad1 := 0
  fwVersion := (PerSlot.mk 0 0).setByte activeSlot.code (.ofNat fwVersion)
  imgLen := (PerSlot.mk 0 0).setByte activeSlot.code (.ofNat img.length)
  imgCrc32 := (PerSlot.mk 0 0).setByte activeSlot.code (otaCrc32 0 img)

lemma packI_of_lt {v : ℕ} (h : v < 2 ^ 32) : packI v = .ok (le32 (.ofNat v)) :=
  if_pos h

lemma packI_zlibCrc32 (data : List UInt8) :
    packI (zlibCrc32 data).toNat = .ok (le32 (otaCrc32 0 data)) := by
  rw [packI_of_lt (zlibCrc32 data).isLt, zlibCrc32_eq]
  simp

/-- What the tool accepts: the rules of the firmware for an image of this length. -/
def Accepted (activeSlot : Slot) (img : List UInt8) : Prop :=
  1 ≤ img.length ∧ img.length ≤ otaSlotSize.toNat ∧
    otaImageBootable activeSlot.base img (.ofNat img.length) = true

/-- Once it has passed the checks, the tool packs the firmware's encoding. -/
lemma buildRecord_of_checks {activeSlot : Slot} {counter fwVersion : ℕ} {img : List UInt8}
    (hcount : counter < 2 ^ 32) (hver : fwVersion < 2 ^ 32)
    (hlen : 1 ≤ img.length ∧ img.length ≤ otaSlotSize.toNat)
    (hboot : checkBootable activeSlot img = .ok ()) :
    buildRecord activeSlot counter img fwVersion =
      .ok (record activeSlot counter img fwVersion).encode := by
  have hlen' : img.length < 2 ^ 32 := lt_of_le_of_lt hlen.2 (by decide)
  have h₀ : packI 0 = .ok (le32 0) := rfl
  have hmagic : packI 0x4F544D31 = .ok (le32 otaMetaMagic) := rfl
  have hstruct : packI 2 = .ok (le32 otaMetaStructVer) := rfl
  have hb₀ : packB 0 = .ok [0] := rfl
  have hslot : packB (slotIndex activeSlot) = .ok [activeSlot.code] := by cases activeSlot <;> rfl
  have hbit : packB (1 <<< slotIndex activeSlot) = .ok [slotBit activeSlot.code] := by
    cases activeSlot <;> rfl
  -- the two entries of each array, the active one first or second
  have hentry : ∀ (v : ℕ) (w : UInt32), packI v = .ok (le32 w) →
      packI (entry activeSlot v).a =
          .ok (le32 ((PerSlot.mk 0 0).setByte activeSlot.code w).a) ∧
        packI (entry activeSlot v).b =
          .ok (le32 ((PerSlot.mk 0 0).setByte activeSlot.code w).b) := by
    intro v w hv
    cases activeSlot with
    | A => exact ⟨hv, h₀⟩
    | B => exact ⟨h₀, hv⟩
  obtain ⟨hva, hvb⟩ := hentry fwVersion _ (packI_of_lt hver)
  obtain ⟨hla, hlb⟩ := hentry img.length _ (packI_of_lt hlen')
  obtain ⟨hca, hcb⟩ := hentry _ _ (packI_zlibCrc32 img)
  simp only [buildRecord, if_neg (not_not.mpr hlen), hboot, hmagic, hstruct, packI_of_lt hcount,
    hslot, hbit, hb₀, hva, hvb, hla, hlb, hca, hcb]
  simp only [bind, Except.bind, pure, Except.pure, packI_zlibCrc32]
  simp [MetaRecord.encode, MetaRecord.body, record, le32]

lemma toNat_clear_bit (v : UInt32) : (v &&& ~~~(1 : UInt32)).toNat = v.toNat - v.toNat % 2 := by
  have hshift : v &&& ~~~(1 : UInt32) = (v >>> 1) <<< 1 := by
    apply UInt32.toBitVec_inj.mp
    refine BitVec.eq_of_getLsbD_eq fun i hi => ?_
    simp only [UInt32.toBitVec_and, UInt32.toBitVec_not, UInt32.toBitVec_shiftLeft,
      UInt32.toBitVec_shiftRight]
    interval_cases i <;> simp
  have hlt := v.toNat_lt
  have hr : (v >>> 1).toNat = v.toNat / 2 := by
    rw [UInt32.toNat_shiftRight]
    exact Nat.shiftRight_eq_div_pow _ 1
  have hl : ((v >>> 1) <<< 1).toNat = (v >>> 1).toNat * 2 % 2 ^ 32 := by
    rw [UInt32.toNat_shiftLeft]
    exact congrArg (· % 2 ^ 32) (Nat.shiftLeft_eq _ 1)
  rw [hshift, hl, hr]
  omega

/-- The rules for the first two words of an image, which both sides check in their own order. -/
def HeadOk (activeSlot : Slot) (img : List UInt8) : Prop :=
  otaImgMinLen ≤ .ofNat img.length ∧
    getLe32 img 0 &&& 3 = 0 ∧ otaSramBase ≤ getLe32 img 0 ∧ getLe32 img 0 ≤ otaSramEnd ∧
    getLe32 img 4 &&& 1 ≠ 0 ∧ activeSlot.base ≤ getLe32 img 4 &&& ~~~1 ∧
    getLe32 img 4 &&& ~~~1 < activeSlot.base + .ofNat img.length

/-- The tool's checks are the firmware's. -/
lemma checkBootable_iff {activeSlot : Slot} {img : List UInt8}
    (hlen : img.length ≤ otaSlotSize.toNat) :
    checkBootable activeSlot img = .ok () ↔
      otaImageBootable activeSlot.base img (.ofNat img.length) = true := by
  have hsize : otaSlotSize.toNat = 0x36000 := rfl
  have hbase : activeSlot.base.toNat ≤ 0x08040000 := by cases activeSlot <;> decide
  have hlen' : (UInt32.ofNat img.length).toNat = img.length :=
    UInt32.toNat_ofNat_of_lt' (by rw [UInt32.size]; omega)
  have hend : (activeSlot.base + .ofNat img.length).toNat = activeSlot.base.toNat + img.length := by
    rw [UInt32.toNat_add, hlen']
    exact Nat.mod_eq_of_lt (by omega)
  have hand : ∀ v : UInt32, ∀ m : ℕ, ∀ hm : m < 2 ^ 32,
      (v.toNat &&& m = 0 ↔ v &&& .ofNat m = 0) := by
    intro v m hm
    rw [← UInt32.toNat_inj, UInt32.toNat_and, UInt32.toNat_ofNat_of_lt' hm]
    rfl
  have hpy : checkBootable activeSlot img = .ok () ↔ HeadOk activeSlot img := by
    have h₃ : (getLe32 img 0).toNat &&& 3 = 0 ↔ getLe32 img 0 &&& 3 = 0 := hand _ 3 (by decide)
    have h₁ : (getLe32 img 4).toNat &&& 1 = 0 ↔ getLe32 img 4 &&& 1 = 0 := hand _ 1 (by decide)
    simp only [checkBootable, HeadOk, UInt32.lt_iff_toNat_lt, UInt32.le_iff_toNat_le, hlen', hend,
      toNat_clear_bit]
    rw [← h₃, ne_eq (getLe32 img 4 &&& 1), ← h₁]
    split_ifs with h₁ h₂ h₃ h₄
    · simp [Nat.not_le.mpr h₁]
    · simp only [false_iff]
      rintro ⟨-, ha, hb, hc, -⟩
      exact h₂.elim (fun h => h ha) fun h => h ⟨hb, hc⟩
    · simp only [false_iff]
      rintro ⟨-, -, -, -, hthumb, -⟩
      exact hthumb h₃
    · rw [not_or, not_not, not_not] at h₂
      exact iff_of_true rfl ⟨Nat.le_of_not_lt h₁, h₂.1, h₂.2.1, h₂.2.2, h₃, h₄⟩
    · simp only [false_iff]
      rintro ⟨-, -, -, -, -, hlo, hhi⟩
      exact h₄ ⟨hlo, hhi⟩
  have hc : otaImageBootable activeSlot.base img (.ofNat img.length) = true ↔
      HeadOk activeSlot img := by
    simp only [otaImageBootable, HeadOk]
    split_ifs with h₁ h₂ h₃ h₄ h₅
    · simp [UInt32.not_le.mpr h₁]
    · simp only [false_iff]
      rintro ⟨-, ha, -⟩
      exact h₂ ha
    · simp only [false_iff]
      rintro ⟨-, -, hlo, hhi, -⟩
      exact h₃.elim (UInt32.not_lt.mpr hlo) (UInt32.not_lt.mpr hhi)
    · simp only [false_iff]
      rintro ⟨-, -, -, -, hthumb, -⟩
      exact hthumb h₄
    · simp only [false_iff]
      rintro ⟨-, -, -, -, -, hlo, hhi⟩
      exact h₅.elim (UInt32.not_lt.mpr hlo) (UInt32.not_le.mpr hhi)
    · rw [not_or] at h₃ h₅
      exact iff_of_true rfl ⟨UInt32.not_lt.mp h₁, not_not.mp h₂, UInt32.not_lt.mp h₃.1,
        UInt32.not_lt.mp h₃.2, h₄, UInt32.not_lt.mp h₅.1, UInt32.not_le.mp h₅.2⟩
  rw [hpy, hc]

/-- The tool builds the record of an image it accepts, and raises for any other. -/
lemma buildRecord_eq_ok {activeSlot : Slot} {counter fwVersion : ℕ} {img b : List UInt8}
    (hcount : counter < 2 ^ 32) (hver : fwVersion < 2 ^ 32) :
    buildRecord activeSlot counter img fwVersion = .ok b ↔
      Accepted activeSlot img ∧ b = (record activeSlot counter img fwVersion).encode := by
  by_cases hlen : 1 ≤ img.length ∧ img.length ≤ otaSlotSize.toNat
  · cases hboot : checkBootable activeSlot img with
    | ok u =>
      have hacc : Accepted activeSlot img := ⟨hlen.1, hlen.2, (checkBootable_iff hlen.2).mp hboot⟩
      rw [buildRecord_of_checks hcount hver hlen hboot, Except.ok.injEq, eq_comm]
      exact (and_iff_right hacc).symm
    | error e =>
      have hraise : buildRecord activeSlot counter img fwVersion = .error e := by
        simp only [buildRecord, if_neg (not_not.mpr hlen), hboot]
        rfl
      rw [hraise]
      simp only [reduceCtorEq, false_iff, not_and]
      intro hacc
      rw [(checkBootable_iff hlen.2).mpr hacc.2.2] at hboot
      cases hboot
  · have hraise : buildRecord activeSlot counter img fwVersion = .error .imageSize := by
      simp only [buildRecord, if_pos hlen]
      rfl
    rw [hraise]
    simp only [reduceCtorEq, false_iff, not_and]
    exact fun hacc => absurd ⟨hacc.1, hacc.2.1⟩ hlen

/-! ### What the bootloader makes of it -/

/-- The image stands at the base of its slot. -/
def Placed (f : Flash) (slot : Slot) (img : List UInt8) : Prop :=
  f.bytes slot.base img.length = img

/-- A record that names the slot, marks it valid and gives it the length and CRC of the image. -/
structure Describes (r : MetaRecord) (slot : Slot) (img : List UInt8) : Prop where
  slot_eq : r.activeSlot = slot.code
  valid : r.valid slot = true
  length : (r.imgLen.get slot).toNat = img.length
  crc : r.imgCrc32.get slot = otaCrc32 0 img

/-- The bootloader accepts such an image by the rules of the tool. -/
lemma activeSlotValid_iff_accepted {f : Flash} {r : MetaRecord} {slot : Slot} {img : List UInt8}
    (hp : Placed f slot img) (hd : Describes r slot img) :
    Boot.activeSlotValid f r = true ↔ Accepted slot img := by
  have hn : r.imgLen.get slot = .ofNat img.length := by
    rw [← hd.length, UInt32.ofNat_toNat]
  have hbytes : f.bytes slot.base (r.imgLen.get slot).toNat = img := by
    rw [hd.length]
    exact hp
  have hpos : r.imgLen.get slot ≠ 0 ↔ 1 ≤ img.length := by
    rw [← hd.length, Ne, ← UInt32.toNat_inj]
    exact Nat.pos_iff_ne_zero.symm
  have hmax : r.imgLen.get slot ≤ otaSlotSize ↔ img.length ≤ otaSlotSize.toNat := by
    rw [← hd.length, UInt32.le_iff_toNat_le]
  rw [Boot.activeSlotValid_iff]
  constructor
  · rintro ⟨s, n, hm, -, hboot⟩
    obtain ⟨hs, -, rfl, h₀, hle⟩ := Boot.mappedImage_eq_some.mp hm
    obtain rfl : slot = s := Slot.code_injective (hd.slot_eq.symm.trans hs)
    rw [hbytes, hn] at hboot
    exact ⟨hpos.mp h₀, hmax.mp hle, hboot⟩
  · rintro ⟨h₀, hle, hboot⟩
    refine ⟨slot, _, Boot.mappedImage_eq_some.mpr
      ⟨hd.slot_eq, hd.valid, rfl, hpos.mpr h₀, hmax.mpr hle⟩, ?_, ?_⟩
    · rw [hbytes, hd.crc]
    · rw [hbytes, hn]
      exact hboot

lemma record_describes {slot : Slot} {counter fwVersion : ℕ} {img : List UInt8}
    (hlen : img.length ≤ otaSlotSize.toNat) :
    Describes (record slot counter img fwVersion) slot img where
  slot_eq := rfl
  valid := by
    show (slotBit slot.code &&& slotBit slot.code != 0) = true
    cases slot <;> rfl
  length := by
    rw [record, PerSlot.get_setByte_self]
    exact UInt32.toNat_ofNat_of_lt' (lt_of_le_of_lt hlen (by decide))
  crc := by rw [record, PerSlot.get_setByte_self]

/-- A page that was never written. -/
lemma metaRead_blank {f : Flash} {addr : UInt32} (h : f.bytes addr recSize = .replicate 44 0xFF) :
    metaRead f addr = none := by
  rw [metaRead, h]
  exact if_neg (by decide +kernel)

/-- The one readable record decides, when it boots and is not on trial. -/
lemma bootDecideSlot_of_rec0 {f : Flash} {wdtFired : Bool} {r : MetaRecord} {slot : Slot}
    (h₀ : metaRead f otaMetaRec0 = some r) (h₁ : metaRead f otaMetaRec1 = none)
    (hv : Boot.activeSlotValid f r = true) (hs : r.activeSlot = slot.code)
    (ht : r.trial = false) : bootDecideSlot f wdtFired = some ⟨slot, false, false⟩ := by
  have hc : Boot.metaCandidates f = [r] := by
    simp only [Boot.metaCandidates, Boot.metaRead_eq, h₀, h₁]
  have hok : otaBootCandidateOk r wdtFired = true := by simp [otaBootCandidateOk, ht]
  have hsel : otaBootSelect [(r, true)] wdtFired = some (r, false) := by
    simp [otaBootSelect, hok]
  simp only [bootDecideSlot, hc, List.map_cons, List.map_nil, hv, hsel, hs, Slot.ofCode_code, ht]

/-- A flash that holds the image and is blank elsewhere. -/
def imageFlash (slot : Slot) (img : List UInt8) : Flash :=
  fun a => ⟨if slot.base.toNat ≤ a then img.getD (a - slot.base.toNat) 0xFF else 0xFF, false⟩

lemma imageFlash_placed (slot : Slot) (img : List UInt8) : Placed (imageFlash slot img) slot img := by
  rw [Placed, Flash.bytes]
  refine List.ext_getElem (by simp) fun i h₁ h₂ => ?_
  rw [List.getElem_map, Memory.read_getElem]
  simp [imageFlash, h₂]

/-- For every image, slot, counter and version in range: the tool builds a record if and only if the
bootloader would accept the image at the base of the slot, with its length and CRC; and with that
record on `REC0`, the image in its slot and `REC1` blank, the bootloader decides for that slot,
confirmed, whatever the reset cause, and reads back the fields that were packed. -/
theorem factory_record_boots (slot : Slot) (counter fwVersion : ℕ) (img : List UInt8)
    (hcount : counter ≤ otaMetaBeginMaxCounter.toNat) (hver : fwVersion < 2 ^ 24) :
    ((∃ b, buildRecord slot counter img fwVersion = .ok b) ↔
      ∃ f r, Placed f slot img ∧ Describes r slot img ∧ Boot.activeSlotValid f r = true) ∧
    (∀ f r, Placed f slot img → Describes r slot img →
      (Boot.activeSlotValid f r = true ↔ ∃ b, buildRecord slot counter img fwVersion = .ok b)) ∧
    ∀ b f, buildRecord slot counter img fwVersion = .ok b → f.bytes otaMetaRec0 recSize = b →
      Placed f slot img → f.bytes otaMetaRec1 recSize = .replicate 44 0xFF →
      b.length = 44 ∧ (∀ wdtFired, bootDecideSlot f wdtFired = some ⟨slot, false, false⟩) ∧
      ∃ r, metaRead f otaMetaRec0 = some r ∧ r.counter.toNat = counter ∧
        r.activeSlot = slot.code ∧ r.slotValid = 1 <<< slot.code ∧ r.flags = 0 ∧
        (r.fwVersion.get slot).toNat = fwVersion ∧ r.fwVersion.get slot.other = 0 ∧
        (r.imgLen.get slot).toNat = img.length ∧ r.imgLen.get slot.other = 0 ∧
        r.imgCrc32.get slot = otaCrc32 0 img ∧ r.imgCrc32.get slot.other = 0 := by
  have hc : counter < 2 ^ 32 := lt_of_le_of_lt hcount (by decide)
  have hv : fwVersion < 2 ^ 32 := lt_trans hver (by decide)
  have hbuilds : (∃ b, buildRecord slot counter img fwVersion = .ok b) ↔ Accepted slot img := by
    simp only [buildRecord_eq_ok hc hv]
    exact ⟨fun ⟨_, h, _⟩ => h, fun h => ⟨_, h, rfl⟩⟩
  refine ⟨?_, fun f r hp hd => ?_, fun b f hb h₀ hp h₁ => ?_⟩
  · rw [hbuilds]
    constructor
    · intro hacc
      have hp := imageFlash_placed slot img
      have hd : Describes (record slot counter img fwVersion) slot img := record_describes hacc.2.1
      exact ⟨_, _, hp, hd, (activeSlotValid_iff_accepted hp hd).mpr hacc⟩
    · rintro ⟨f, r, hp, hd, hvalid⟩
      exact (activeSlotValid_iff_accepted hp hd).mp hvalid
  · rw [hbuilds, activeSlotValid_iff_accepted hp hd]
  · obtain ⟨hacc, rfl⟩ := (buildRecord_eq_ok hc hv).mp hb
    have hread := metaRead_of_encode h₀
    have hd : Describes (record slot counter img fwVersion) slot img := record_describes hacc.2.1
    refine ⟨MetaRecord.encode_length _, fun wdtFired => ?_, _, hread, ?_, rfl, ?_, rfl, ?_, ?_,
      hd.length, ?_, hd.crc, ?_⟩
    · exact bootDecideSlot_of_rec0 hread (metaRead_blank h₁)
        ((activeSlotValid_iff_accepted hp hd).mpr hacc) rfl (by simp [MetaRecord.trial, record])
    · exact UInt32.toNat_ofNat_of_lt' hc
    · cases slot <;> rfl
    · rw [record, PerSlot.get_setByte_self]
      exact UInt32.toNat_ofNat_of_lt' hv
    · rw [record, PerSlot.get_setByte_other]
      cases slot <;> rfl
    · rw [record, PerSlot.get_setByte_other]
      cases slot <;> rfl
    · rw [record, PerSlot.get_setByte_other]
      cases slot <;> rfl

/-- The smallest image: the stack at the top of the SRAM, the reset vector at the slot base. -/
def smallestImage : List UInt8 :=
  le32 0x20018000 ++ le32 0x0800A001

/-- The tool builds its record for slot A, and the bootloader starts it after a watchdog reset. -/
theorem factory_record_smallest : ∃ b, buildRecord .A 1 smallestImage 0x000E01 = .ok b ∧
    ∀ f, f.bytes otaMetaRec0 recSize = b → Placed f .A smallestImage →
      f.bytes otaMetaRec1 recSize = .replicate 44 0xFF →
        bootDecideSlot f true = some ⟨.A, false, false⟩ := by
  obtain ⟨hbuilds, -, hboots⟩ :=
    factory_record_boots .A 1 0x000E01 smallestImage (by decide) (by decide)
  obtain ⟨b, hb⟩ := hbuilds.mpr ⟨imageFlash .A smallestImage, record .A 1 smallestImage 0x000E01,
    imageFlash_placed _ _, record_describes (by decide),
    (activeSlotValid_iff_accepted (imageFlash_placed _ _) (record_describes (by decide))).mpr
      ⟨by decide, by decide, by decide⟩⟩
  exact ⟨b, hb, fun f h₀ hp h₁ => (hboots b f hb h₀ hp h₁).2.1 true⟩

end Factory

end Gd32Bridge
