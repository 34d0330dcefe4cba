import Gd32Bridge.Crc32
import Gd32Bridge.Lib.Crc
import Mathlib.Tactic.IntervalCases

/-!
# `zlib.crc32`

The factory tool calls `zlib.crc32`, the reflected CRC-32 with polynomial `0xEDB88320`; the
firmware goes by its table.  They compute the same value.
-/

namespace Gd32Bridge

/-- The reflected polynomial of CRC-32. -/
def crc32Poly : BitVec 32 := 0xEDB88320

/-- `zlib.crc32(data)`, one bit at a time. -/
def zlibCrc32 (data : List UInt8) : BitVec 32 :=
  data.foldl (fun c b => Crc.shifts crc32Poly 8 (c ^^^ b.toBitVec.setWidth 32))
    (BitVec.allOnes 32) ^^^ BitVec.allOnes 32

/-- The table holds the shifts of every byte. -/
lemma crc32Table_getD (i : ℕ) (hi : i < 256) :
    (crc32Table.getD i 0).toBitVec = Crc.shifts crc32Poly 8 (BitVec.ofNat 32 i) := by
  have key : ∀ i < 256, (crc32Table.getD i 0).toBitVec =
      Crc.shifts crc32Poly 8 (BitVec.ofNat 32 i) := by
    decide +kernel
  exact key i hi

/-- A round of the table loop is eight shifts. -/
lemma crc32Step_toBitVec (c : UInt32) (b : UInt8) :
    (crc32Step c b).toBitVec =
      Crc.shifts crc32Poly 8 (c.toBitVec ^^^ b.toBitVec.setWidth 32) := by
  have hx : (c ^^^ b.toUInt32).toBitVec = c.toBitVec ^^^ b.toBitVec.setWidth 32 := by simp
  -- the index into the table is the low byte of the register
  have hlow : BitVec.ofNat 32 ((c ^^^ b.toUInt32) &&& 0xFF).toNat =
      Crc.low 8 (c ^^^ b.toUInt32).toBitVec := by
    have hand : BitVec.ofNat 32 ((c ^^^ b.toUInt32) &&& 0xFF).toNat =
        (c ^^^ b.toUInt32).toBitVec &&& 0xFF := by
      rw [← UInt32.toNat_toBitVec, BitVec.ofNat_toNat, UInt32.toBitVec_and]
      simp
    rw [hand]
    refine BitVec.eq_of_getLsbD_eq fun i hi => ?_
    rw [Crc.getLsbD_low, BitVec.getLsbD_and]
    interval_cases i <;> simp
  have hlt : ((c ^^^ b.toUInt32) &&& 0xFF).toNat < 256 := by
    rw [UInt32.toNat_and]
    exact Nat.lt_of_le_of_lt Nat.and_le_right (by decide)
  -- the byte has left the register after eight shifts
  have hhigh : (c ^^^ b.toUInt32).toBitVec >>> 8 = c.toBitVec >>> 8 := by
    rw [hx]
    refine BitVec.eq_of_getLsbD_eq fun i hi => ?_
    simp only [BitVec.getLsbD_ushiftRight, BitVec.getLsbD_xor, BitVec.getLsbD_setWidth]
    rw [BitVec.getLsbD_of_ge b.toBitVec (8 + i) (by omega)]
    simp
  rw [← hx, Crc.shifts_eq, ← hlow, ← crc32Table_getD _ hlt, hhigh, crc32Step,
    UInt32.toBitVec_xor, UInt32.toBitVec_shiftRight]
  rfl

/-- The tool and the firmware compute the same CRC. -/
theorem zlibCrc32_eq (data : List UInt8) : zlibCrc32 data = (otaCrc32 0 data).toBitVec := by
  have hfold : ∀ c : UInt32, data.foldl (fun c b =>
      Crc.shifts crc32Poly 8 (c ^^^ b.toBitVec.setWidth 32)) c.toBitVec =
        (data.foldl crc32Step c).toBitVec := by
    induction data with
    | nil => exact fun _ => rfl
    | cons b data ih =>
      intro c
      rw [List.foldl_cons, List.foldl_cons, ← crc32Step_toBitVec]
      exact ih _
  have h := hfold 0xFFFFFFFF
  rw [zlibCrc32, otaCrc32, UInt32.toBitVec_xor, UInt32.zero_xor, ← h]
  rfl

end Gd32Bridge
