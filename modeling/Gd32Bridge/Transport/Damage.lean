import Gd32Bridge.Lib.Burst
import Gd32Bridge.Transport.Grammar

/-!
# Damaged frames

The table of `src/protocol.c` holds what a byte makes of an empty register, most significant bit
first, so that the loop computes the CRC of the message one bit at a time.  Damage within 16
consecutive bits of what the check covers therefore changes the check value, and neither parser
takes the frame for a request.
-/

namespace Gd32Bridge

open Endian

variable {σ : Type}

/-! ### The table and the polynomial -/

/-- `x^16 + x^12 + x^5 + 1` -/
def crc16Poly : BitVec 16 := 0x1021

/-- The table holds the register after each byte. -/
lemma crc16Table_getD (x : BitVec 8) :
    (crc16Table.getD x.toNat 0).toBitVec = Crc.serialMsb crc16Poly 0 (Crc.bitsMsb x) := by
  have key : ∀ i < 256, (crc16Table.getD i 0).toBitVec =
      Crc.serialMsb crc16Poly 0 (Crc.bitsMsb (BitVec.ofNat 8 i)) := by
    decide +kernel
  have h := key x.toNat x.isLt
  rwa [BitVec.ofNat_toNat, BitVec.setWidth_eq] at h

/-- A round of the loop is a byte of the message. -/
lemma crc16Step_toBitVec (c : UInt16) (b : UInt8) :
    (crc16Step c b).toBitVec =
      Crc.serialMsb crc16Poly c.toBitVec (Crc.bitsMsb b.toBitVec) := by
  have hidx : (((c >>> 8) ^^^ b.toUInt16) &&& 0xFF).toNat =
      ((c.toBitVec >>> 8).setWidth 8 ^^^ b.toBitVec).toNat := by
    have hbyte : (((c >>> 8) ^^^ b.toUInt16) &&& 0xFF).toBitVec =
        ((c.toBitVec >>> 8).setWidth 8 ^^^ b.toBitVec).setWidth 16 := by
      refine BitVec.eq_of_getLsbD_eq fun i hi => ?_
      simp only [UInt16.toBitVec_and, UInt16.toBitVec_xor, UInt16.toBitVec_shiftRight,
        UInt8.toBitVec_toUInt16]
      interval_cases i <;> simp
    rw [← UInt16.toNat_toBitVec, hbyte, BitVec.toNat_setWidth]
    exact Nat.mod_eq_of_lt (Nat.lt_trans (BitVec.isLt _) (by decide))
  rw [Crc.serialMsb_bitsMsb crc16Poly (by decide) c.toBitVec b.toBitVec, ← crc16Table_getD, ← hidx,
    crc16Step, UInt16.toBitVec_xor, UInt16.toBitVec_shiftLeft, BitVec.xor_comm]
  rfl

lemma crc16Step_foldl (data : List UInt8) (c : UInt16) :
    (data.foldl crc16Step c).toBitVec =
      Crc.serialMsb crc16Poly c.toBitVec (Crc.bytesMsb data) := by
  rw [Crc.serialMsb_bytesMsb]
  induction data generalizing c with
  | nil => rfl
  | cons b data ih =>
    rw [List.foldl_cons, List.foldl_cons, ← crc16Step_toBitVec]
    exact ih _

/-- A burst changes the register, whatever has gone before. -/
lemma crc16Step_foldl_ne {xs ys : List UInt8}
    (h : Crc.Burst 16 (Crc.bytesMsb xs) (Crc.bytesMsb ys)) (c : UInt16) :
    ys.foldl crc16Step c ≠ xs.foldl crc16Step c := by
  intro heq
  have hbits := congrArg UInt16.toBitVec heq
  rw [crc16Step_foldl, crc16Step_foldl] at hbits
  exact Crc.serialMsb_ne_of_burst (by decide) h c.toBitVec hbits.symm

/-! ### Frames -/

/-- An envelope with other bytes in the place of command and payload. -/
def withCovered (env covered : List UInt8) : List UInt8 :=
  env.take 1 ++ covered ++ env.drop (1 + covered.length)

lemma withCovered_eq (lead : UInt8) (body covered check : List UInt8)
    (hlen : covered.length = body.length) :
    withCovered (lead :: body ++ check) covered = lead :: covered ++ check := by
  rw [withCovered, List.cons_append, List.take_succ_cons, List.take_zero, Nat.add_comm,
    List.drop_succ_cons, hlen, List.drop_left]
  rfl

/-- A burst on command and payload leaves a command and a payload. -/
lemma exists_covered {cmd : UInt8} {payload covered : List UInt8}
    (h : Crc.Burst 16 (Crc.bytesMsb (cmd :: payload)) (Crc.bytesMsb covered)) :
    ∃ cmd' payload', covered = cmd' :: payload' ∧ payload'.length = payload.length := by
  have hlen := h.length
  rw [Crc.bytesMsb_length, Crc.bytesMsb_length] at hlen
  obtain ⟨cmd', payload', rfl⟩ := List.exists_cons_of_length_pos (l := covered) (by
    rw [List.length_cons] at hlen
    omega)
  refine ⟨cmd', payload', rfl, ?_⟩
  rw [List.length_cons, List.length_cons] at hlen
  omega

/-- The decoder takes it for no request on SPI. -/
lemma spiDecode_withCovered {cmd : UInt8} {payload covered : List UInt8}
    (h : Crc.Burst 16 (Crc.bytesMsb (cmd :: payload)) (Crc.bytesMsb covered)) :
    spiDecode (withCovered (spiEnvelope cmd payload) covered) = .malformed := by
  obtain ⟨cmd', payload', rfl, hlen⟩ := exists_covered h
  obtain ⟨c₀, c₁, hc⟩ : ∃ c₀ c₁, crc16Bytes (crc16CcittFalse (sof :: cmd :: payload)) = [c₀, c₁] :=
    ⟨_, _, rfl⟩
  have hframe := withCovered_eq sof (cmd :: payload) (cmd' :: payload') [c₀, c₁] (by simp [hlen])
  rw [spiEnvelope, hc, hframe, spiDecode_frame, ← hc, getLe16_crc16Bytes]
  exact if_pos (crc16Step_foldl_ne h (crc16Step 0xFFFF sof)).symm

/-- Nor on I2C. -/
lemma i2cDecode_withCovered {cmd : UInt8} {payload covered : List UInt8}
    (h : Crc.Burst 16 (Crc.bytesMsb (cmd :: payload)) (Crc.bytesMsb covered)) :
    i2cDecode (withCovered (i2cEnvelope cmd payload) covered) = none := by
  obtain ⟨cmd', payload', rfl, hlen⟩ := exists_covered h
  obtain ⟨c₀, c₁, hc⟩ : ∃ c₀ c₁, crc16Bytes (crc16CcittFalse (cmd :: payload)) = [c₀, c₁] :=
    ⟨_, _, rfl⟩
  have hframe :=
    withCovered_eq i2cRegCmd (cmd :: payload) (cmd' :: payload') [c₀, c₁] (by simp [hlen])
  rw [i2cEnvelope, hc, hframe, i2cDecode_frame, ← hc, getLe16_crc16Bytes]
  exact if_pos (crc16Step_foldl_ne h 0xFFFF).symm

lemma withCovered_length {cmd : UInt8} {payload covered : List UInt8} {env : List UInt8}
    (h : Crc.Burst 16 (Crc.bytesMsb (cmd :: payload)) (Crc.bytesMsb covered))
    (henv : env.length = payload.length + 4) : (withCovered env covered).length = env.length := by
  obtain ⟨cmd', payload', rfl, hlen⟩ := exists_covered h
  simp only [withCovered, List.length_append, List.length_take, List.length_drop, List.length_cons,
    henv, hlen]
  omega

/-- The table-driven loop computes the CRC with polynomial `0x1021` and initial value `0xFFFF`, the
most significant bit of each byte first; and an envelope of either link that is damaged within 16
consecutive bits of its command and payload is rejected and not dispatched. -/
theorem frame_crc_detects_bursts (hal : Hal σ) (inFlight : Bool) (d : Device σ) (s : SpiSlave)
    (t : I2cSlave) :
    (∀ data, (crc16CcittFalse data).toBitVec =
      Crc.serialMsb 0x1021 0xFFFF (Crc.bytesMsb data)) ∧
    ∀ (cmd : UInt8) (payload covered : List UInt8), payload.length ≤ maxPayloadBytes →
      Crc.Burst 16 (Crc.bytesMsb (cmd :: payload)) (Crc.bytesMsb covered) →
      (spiTransactionCall hal inFlight (withCovered (spiEnvelope cmd payload) covered) d s = none ∧
        ∃ s', spiTransaction hal inFlight (withCovered (spiEnvelope cmd payload) covered) d s =
          (d, s', .failed)) ∧
      i2cWriteCall hal inFlight (withCovered (i2cEnvelope cmd payload) covered) d t = none ∧
        ∃ t', i2cWrite hal inFlight (withCovered (i2cEnvelope cmd payload) covered) d t =
          (d, t', none) ∧ t'.frameRejected = true := by
  refine ⟨fun data => crc16Step_foldl data 0xFFFF, fun cmd payload covered hfit h => ⟨?_, ?_⟩⟩
  · have hlen := withCovered_length h (spiEnvelope_length cmd payload)
    have hbytes : (RxBuf.empty.feed (withCovered (spiEnvelope cmd payload) covered)).bytes =
        withCovered (spiEnvelope cmd payload) covered := by
      rw [RxBuf.empty_feed_bytes, List.take_of_length_le]
      rw [hlen, spiEnvelope_length, maxFrameBytes]
      omega
    have hrun : spiTransaction hal inFlight (withCovered (spiEnvelope cmd payload) covered) d s =
        (d, SpiSlave.stageError d.links.spi
          { s with rx := RxBuf.empty.feed (withCovered (spiEnvelope cmd payload) covered) },
          .failed) := by
      rw [spiTransaction_eq]
      simp only [spiSlaveCsHigh, hbytes, spiDecode_withCovered h]
    refine ⟨?_, _, hrun⟩
    rw [spiTransactionCall, hrun]
    rfl
  · have hlen := withCovered_length h (i2cEnvelope_length cmd payload)
    have hbytes : (RxBuf.empty.feed (withCovered (i2cEnvelope cmd payload) covered)).bytes =
        withCovered (i2cEnvelope cmd payload) covered := by
      rw [RxBuf.empty_feed_bytes, List.take_of_length_le]
      rw [hlen, i2cEnvelope_length, maxFrameBytes]
      omega
    have hrun : ∃ t', i2cWrite hal inFlight (withCovered (i2cEnvelope cmd payload) covered) d t =
        (d, t', none) ∧ t'.frameRejected = true := by
      simp only [i2cWrite, i2cSlave_rxByte_foldl, i2cSlaveWriteEnd, I2cSlave.writeStart,
        Bool.or_self, Bool.false_eq_true, if_false, hbytes, i2cDecode_withCovered h]
      exact ⟨_, rfl, rfl⟩
    refine ⟨?_, hrun⟩
    obtain ⟨t', ht', -⟩ := hrun
    rw [i2cWriteCall, ht']
    rfl

/-- Sixteen bits in the middle of a frame, all of them inverted. -/
theorem frame_crc_detects_bursts_inverted :
    spiTransactionCall .stub false
        (withCovered (spiEnvelope 0x10 [0x01, 0x02, 0x03]) [0x10, 0x0E, 0xFD, 0xF3])
        restDevice .init = none ∧
      i2cWriteCall .stub false
        (withCovered (i2cEnvelope 0x10 [0x01, 0x02, 0x03]) [0x10, 0x0E, 0xFD, 0xF3])
        restDevice .init = none := by
  have hburst : Crc.Burst 16 (Crc.bytesMsb [0x10, 0x01, 0x02, 0x03])
      (Crc.bytesMsb [0x10, 0x0E, 0xFD, 0xF3]) := by
    have hsent : Crc.bytesMsb [0x10, 0x01, 0x02, 0x03] =
        Crc.bitsMsb 0x100#12 ++ (Crc.bitsMsb 0x1020#16 ++ Crc.bitsMsb 0x3#4) := by decide
    have hgot : Crc.bytesMsb [0x10, 0x0E, 0xFD, 0xF3] =
        Crc.bitsMsb 0x100#12 ++ (Crc.bitsMsb 0xEFDF#16 ++ Crc.bitsMsb 0x3#4) := by decide
    rw [hsent, hgot]
    exact .of_parts _ _ rfl (Nat.le_refl _) (by decide)
  have h := (frame_crc_detects_bursts .stub false restDevice .init .init).2 0x10 [0x01, 0x02, 0x03]
    [0x10, 0x0E, 0xFD, 0xF3] (by decide) hburst
  exact ⟨h.1.1, h.2.1⟩

end Gd32Bridge
