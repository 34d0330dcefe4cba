import Gd32Bridge.Factory.Zlib
import Gd32Bridge.Lib.Burst
import Gd32Bridge.Ota.Pages

/-!
# Damaged records and images

The loop of `src/crc32.c` computes the reflected CRC-32 of its data one bit at a time, and goes on
from a value it has returned.  Damage within 32 consecutive bits of what a stored CRC covers
therefore gives another CRC: the record is not read, and the image neither booted nor verified nor
rolled back to.
-/

namespace Gd32Bridge

open Endian Memory

/-! ### The table and the polynomial -/

/-- A round of the loop is a byte of the message. -/
lemma crc32Step_serial (c : UInt32) (b : UInt8) :
    (crc32Step c b).toBitVec = Crc.serial crc32Poly c.toBitVec (Crc.bitsLsb b.toBitVec) := by
  have hfit : (Crc.bitsLsb b.toBitVec).length ≤ 32 := by
    rw [Crc.bitsLsb_length]
    decide
  rw [crc32Step_toBitVec, Crc.serial_eq_shifts crc32Poly hfit, Crc.bitsLsb_length,
    Crc.pack_bitsLsb]

lemma crc32Step_foldl (data : List UInt8) (c : UInt32) :
    (data.foldl crc32Step c).toBitVec =
      Crc.serial crc32Poly c.toBitVec (Crc.bytesLsb data) := by
  rw [Crc.serial_bytesLsb]
  induction data generalizing c with
  | nil => rfl
  | cons b data ih =>
    rw [List.foldl_cons, List.foldl_cons, ← crc32Step_serial]
    exact ih _

lemma otaCrc32_toBitVec (crc : UInt32) (data : List UInt8) :
    (otaCrc32 crc data).toBitVec =
      ~~~Crc.serial crc32Poly (~~~crc.toBitVec) (Crc.bytesLsb data) := by
  have hones : (0xFFFFFFFF : UInt32).toBitVec = BitVec.allOnes 32 := rfl
  rw [otaCrc32, UInt32.toBitVec_xor, crc32Step_foldl, UInt32.toBitVec_xor, hones,
    BitVec.xor_allOnes, BitVec.xor_allOnes]

/-- The value returned for the first part is where the second part goes on. -/
lemma otaCrc32_append (crc : UInt32) (a b : List UInt8) :
    otaCrc32 (otaCrc32 crc a) b = otaCrc32 crc (a ++ b) := by
  simp only [otaCrc32, List.foldl_append, UInt32.xor_assoc, UInt32.xor_self, UInt32.xor_zero]

/-- A burst gives another value. -/
lemma otaCrc32_ne {xs ys : List UInt8} (h : Crc.Burst 32 (Crc.bytesLsb xs) (Crc.bytesLsb ys))
    (crc : UInt32) : otaCrc32 crc xs ≠ otaCrc32 crc ys := by
  intro heq
  have hbits := congrArg UInt32.toBitVec heq
  rw [otaCrc32_toBitVec, otaCrc32_toBitVec, BitVec.not_inj] at hbits
  exact Crc.serial_ne_of_burst (by decide) h _ hbits

/-! ### Records and images -/

/-- Some of the `n` bytes at `addr` are different in `f'`, within 32 consecutive bits. -/
def BurstAt (f f' : Flash) (addr : UInt32) (n : ℕ) : Prop :=
  Crc.Burst 32 (Crc.bytesLsb (f.bytes addr n)) (Crc.bytesLsb (f'.bytes addr n))

/-- The record at `addr` is damaged, its CRC is not. -/
structure RecordDamage (f f' : Flash) (addr : UInt32) : Prop where
  body : BurstAt f f' addr recCrcOff
  crc : getLe32 (f'.bytes addr recSize) recCrcOff = getLe32 (f.bytes addr recSize) recCrcOff

lemma Flash.bytes_take (f : Flash) (addr : UInt32) {m n : ℕ} (h : m ≤ n) :
    (f.bytes addr n).take m = f.bytes addr m := by
  obtain ⟨k, rfl⟩ := Nat.exists_eq_add_of_le h
  rw [bytes, bytes, read_add, List.map_append, List.take_left' (by simp)]

/-- A damaged record is not read, neither by the application nor by the bootloader. -/
lemma metaRead_of_damage {f f' : Flash} {addr : UInt32} {r : MetaRecord}
    (hread : metaRead f addr = some r) (hdamage : RecordDamage f f' addr) :
    metaRead f' addr = none ∧ Boot.metaRead f' addr = none := by
  have hok : recordOk (f.bytes addr recSize) = true := by
    simp only [metaRead] at hread
    split_ifs at hread with hok
    exact hok
  have hno : ¬ recordOk (f'.bytes addr recSize) = true := by
    intro hok'
    simp only [recordOk, Bool.and_eq_true, beq_iff_eq] at hok hok'
    have hle : recCrcOff ≤ recSize := by decide
    have hcrc := hok'.2.trans (hdamage.crc.trans hok.2.symm)
    rw [Flash.bytes_take f' addr hle, Flash.bytes_take f addr hle] at hcrc
    exact otaCrc32_ne hdamage.body 0 hcrc.symm
  have hnone : metaRead f' addr = none := if_neg hno
  exact ⟨hnone, (Boot.metaRead_eq f' addr).trans hnone⟩

/-- A damaged image does not match its CRC. -/
lemma not_crcMatches_of_damage {f f' : Flash} {r : MetaRecord} {s : Slot}
    (hcrc : CrcMatches f r s) (hdamage : BurstAt f f' s.base (r.imgLen.get s).toNat) :
    ¬ CrcMatches f' r s :=
  fun hcrc' => otaCrc32_ne hdamage 0 (hcrc.trans hcrc'.symm)

/-- Nor is it booted. -/
lemma activeSlotValid_of_not_crcMatches {f : Flash} {r : MetaRecord} {s : Slot}
    (hnames : r.Names s) (hcrc : ¬ CrcMatches f r s) : Boot.activeSlotValid f r = false := by
  rw [← Bool.not_eq_true, activeSlotValid_iff_slotOk]
  rintro ⟨t, hnames', hok⟩
  exact hcrc (hnames.unique hnames' ▸ hok.crc)

/-- Nor does OTA_VERIFY accept it. -/
lemma hVerify_of_damage {o : Ota} {image : List UInt8} (hready : o.sess.state = .ready)
    (hexpect : o.sess.expectedCrc = otaCrc32 0 image)
    (hdamage : Crc.Burst 32 (Crc.bytesLsb image)
      (Crc.bytesLsb (o.board.flash.bytes o.inactiveBase o.sess.imgLen.toNat))) (cap : ℕ) :
    (hVerify o cap).1.sess.state = .error := by
  have hne : (inactiveCrc o == o.sess.expectedCrc) = false := by
    rw [hexpect, beq_eq_false_iff_ne]
    exact (otaCrc32_ne hdamage 0).symm
  simp only [hVerify, hready, ne_eq, not_true_eq_false, if_false, hne, Bool.false_eq_true]
  split_ifs
  · rfl
  · rfl
  · rfl

/-- Nor does OTA_ROLLBACK return to it. -/
lemma hRollback_of_not_crcMatches {o : Ota} {cur : MetaRecord} {p : MetaPage} {s : Slot}
    (hcur : metaCurrent o.board.flash = some (cur, p)) (hnames : cur.Names s.other)
    (hcrc : ¬ CrcMatches o.board.flash cur s) : (hRollback o).1.board = o.board := by
  have hslot : Slot.ofCode cur.activeSlot = some s.other := Slot.ofCode_eq_some.mpr hnames
  have hother : s.other.other = s := by cases s <;> rfl
  simp only [hRollback, hcur, hslot, hother]
  split_ifs with hstate hrange hfloor hrefused
  · rfl
  · rfl
  · rfl
  · rfl
  · exact absurd (.inl hcrc) hrefused

/-- The table-driven loop computes the reflected CRC with polynomial `0xEDB88320`, inverted before
and after, the least significant bit of each byte first; the CRC of a byte string in two parts can
be taken part by part; and two strings that differ within 32 consecutive bits have different CRCs.
A record so damaged is not read, and an image so damaged neither booted nor verified nor rolled
back to. -/
theorem ota_crc32_detects_bursts :
    (∀ crc data, (otaCrc32 crc data).toBitVec =
      ~~~Crc.serial 0xEDB88320 (~~~crc.toBitVec) (Crc.bytesLsb data)) ∧
    (∀ crc a b, otaCrc32 (otaCrc32 crc a) b = otaCrc32 crc (a ++ b)) ∧
    (∀ crc a b, Crc.Burst 32 (Crc.bytesLsb a) (Crc.bytesLsb b) →
      otaCrc32 crc a ≠ otaCrc32 crc b) ∧
    (∀ f f' addr r, metaRead f addr = some r → RecordDamage f f' addr →
      metaRead f' addr = none ∧ Boot.metaRead f' addr = none) ∧
    (∀ f f' (r : MetaRecord) (s : Slot), CrcMatches f r s →
      BurstAt f f' s.base (r.imgLen.get s).toNat →
        (r.Names s → Boot.activeSlotValid f' r = false) ∧
        ∀ (o : Ota) p, o.board.flash = f' → metaCurrent f' = some (r, p) → r.Names s.other →
          (hRollback o).1.board = o.board) ∧
    ∀ (o : Ota) image cap, o.sess.state = .ready → o.sess.expectedCrc = otaCrc32 0 image →
      Crc.Burst 32 (Crc.bytesLsb image)
        (Crc.bytesLsb (o.board.flash.bytes o.inactiveBase o.sess.imgLen.toNat)) →
      (hVerify o cap).1.sess.state = .error := by
  refine ⟨otaCrc32_toBitVec, otaCrc32_append, fun crc a b h => otaCrc32_ne h crc, ?_, ?_, ?_⟩
  · exact fun f f' addr r hread hdamage => metaRead_of_damage hread hdamage
  · intro f f' r s hcrc hdamage
    have hno := not_crcMatches_of_damage hcrc hdamage
    refine ⟨fun hnames => activeSlotValid_of_not_crcMatches hnames hno, ?_⟩
    rintro o p rfl hcur hnames
    exact hRollback_of_not_crcMatches hcur hnames hno
  · exact fun o image cap hready hexpect hdamage => hVerify_of_damage hready hexpect hdamage cap

/-- The page with the empty record, its counter set to something else afterwards. -/
def recordPage (counter : UInt8) : Flash := fun a =>
  ⟨if a = 8 then counter else MetaRecord.zero.encode.getD a 0xFF, false⟩

/-- The longest burst, across five bytes, and one of a single bit in a record. -/
theorem ota_crc32_detects_bursts_sample :
    otaCrc32 0 [0x00, 0x00, 0x00, 0x00, 0x00] ≠ otaCrc32 0 [0xF0, 0xFF, 0xFF, 0xFF, 0x0F] ∧
      Boot.metaRead (recordPage 1) 0 = none := by
  constructor
  · refine ota_crc32_detects_bursts.2.2.1 0 _ _ ?_
    have hsent : Crc.bytesLsb [0x00, 0x00, 0x00, 0x00, 0x00] =
        Crc.bitsLsb 0x0#4 ++ (Crc.bitsLsb 0x00000000#32 ++ Crc.bitsLsb 0x0#4) := by decide
    have hgot : Crc.bytesLsb [0xF0, 0xFF, 0xFF, 0xFF, 0x0F] =
        Crc.bitsLsb 0x0#4 ++ (Crc.bitsLsb 0xFFFFFFFF#32 ++ Crc.bitsLsb 0x0#4) := by decide
    rw [hsent, hgot]
    exact .of_parts _ _ rfl (Nat.le_refl _) (by decide)
  · have hread : metaRead (recordPage 0) 0 = some MetaRecord.zero := by decide +kernel
    have hbytes : (recordPage 0).bytes 0 recCrcOff =
          (recordPage 0).bytes 0 8 ++ ([0] ++ (recordPage 0).bytes 9 31) ∧
        (recordPage 1).bytes 0 recCrcOff =
          (recordPage 0).bytes 0 8 ++ ([1] ++ (recordPage 0).bytes 9 31) := by
      decide +kernel
    have hburst : BurstAt (recordPage 0) (recordPage 1) 0 recCrcOff := by
      rw [BurstAt, hbytes.1, hbytes.2]
      simp only [Crc.bytesLsb_append]
      exact .of_parts _ _ rfl (by decide) (by decide)
    have hcrc : getLe32 ((recordPage 1).bytes 0 recSize) recCrcOff =
        getLe32 ((recordPage 0).bytes 0 recSize) recCrcOff := by decide +kernel
    exact (ota_crc32_detects_bursts.2.2.2.1 _ _ 0 _ hread ⟨hburst, hcrc⟩).2

end Gd32Bridge
