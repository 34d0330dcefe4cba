import Gd32Bridge.Crc16
import Gd32Bridge.Protocol.Basic

/-!
# Envelopes on the two links

What `src/transport_spi.c` and `src/transport_i2c.c` share: the receive buffer that drops what it
cannot hold, the staged reply with its cursor, and the layout of an envelope, a leading byte, a
command or status, a payload and the check bytes.  The two links differ in the leading byte and in
whether the check covers it.
-/

namespace Gd32Bridge

open Endian

/-- `GD32_BRIDGE_SOF` -/
def sof : UInt8 := 0xA5

/-- `GD32_BRIDGE_I2C_REG_CMD` -/
def i2cRegCmd : UInt8 := 0x00

/-- `SPI_MAX_FRAME_BYTES` and `I2C_MAX_WRITE_BYTES` -/
def maxFrameBytes : ℕ := 1 + 1 + maxPayloadBytes + 2

/-- The `STATUS_*` values of `protocol.h`. -/
def Status.code : Status → UInt8
  | ok => 0x00
  | inval => 0x01
  | notReady => 0x02
  | busy => 0x03
  | timeout => 0x04
  | io => 0x05
  | nosupport => 0x06
  | nomem => 0x07
  | outOfRange => 0x08
  | noPending => 0x80

/-! ### Receive buffers -/

/-- The bytes a receive buffer has retained. -/
structure RxBuf where
  bytes : List UInt8
  fits : bytes.length ≤ maxFrameBytes

namespace RxBuf

def empty : RxBuf := ⟨[], Nat.zero_le _⟩

/-- `spi_slave_rx_byte` and `i2c_slave_rx_byte`: a byte past the end is dropped. -/
def push (r : RxBuf) (b : UInt8) : RxBuf :=
  if h : r.bytes.length < maxFrameBytes then
    ⟨r.bytes ++ [b], by rw [List.length_append]; exact h⟩
  else r

/-- Feed a run of bytes. -/
def feed (r : RxBuf) (bs : List UInt8) : RxBuf :=
  bs.foldl push r

lemma push_bytes (r : RxBuf) (b : UInt8) :
    (r.push b).bytes = (r.bytes ++ [b]).take maxFrameBytes := by
  by_cases h : r.bytes.length < maxFrameBytes
  · rw [push, dif_pos h, List.take_of_length_le (by rw [List.length_append]; exact h)]
  · have hlen : r.bytes.length = maxFrameBytes := le_antisymm r.fits (Nat.le_of_not_lt h)
    rw [push, dif_neg h, ← hlen, List.take_left]

/-- The buffer retains a prefix. -/
lemma feed_bytes (r : RxBuf) (bs : List UInt8) :
    (r.feed bs).bytes = (r.bytes ++ bs).take maxFrameBytes := by
  induction bs generalizing r with
  | nil =>
    rw [List.append_nil, List.take_of_length_le r.fits]
    rfl
  | cons b bs ih =>
    have hstep : r.feed (b :: bs) = (r.push b).feed bs := rfl
    rw [hstep, ih, push_bytes, List.append_cons r.bytes b bs]
    by_cases hfull : (r.bytes ++ [b]).length ≤ maxFrameBytes
    · rw [List.take_of_length_le hfull]
    · -- already full: nothing that follows is retained
      have hlen : maxFrameBytes ≤ (r.bytes ++ [b]).length := Nat.le_of_not_le hfull
      have hlen' : maxFrameBytes ≤ ((r.bytes ++ [b]).take maxFrameBytes).length := by
        rw [List.length_take]
        omega
      rw [List.take_append_of_le_length hlen', List.take_take, Nat.min_self,
        List.take_append_of_le_length hlen]

@[simp]
lemma empty_feed_bytes (bs : List UInt8) : (empty.feed bs).bytes = bs.take maxFrameBytes :=
  feed_bytes empty bs

end RxBuf

/-! ### Check bytes -/

/-- The half-word of two bytes gives them back. -/
lemma crc16Bytes_getLe16 (b₀ b₁ : UInt8) : crc16Bytes (getLe16 [b₀, b₁] 0) = [b₀, b₁] := by
  have hlo : ((b₀.toUInt16 ||| b₁.toUInt16 <<< 8) &&& 0xFF).toUInt8 = b₀ := by
    apply UInt8.toBitVec_inj.mp
    refine BitVec.eq_of_getLsbD_eq fun i hi => ?_
    simp only [UInt16.toBitVec_toUInt8, UInt16.toBitVec_and, UInt16.toBitVec_or,
      UInt16.toBitVec_shiftLeft, UInt8.toBitVec_toUInt16]
    interval_cases i <;> simp
  have hhi : (((b₀.toUInt16 ||| b₁.toUInt16 <<< 8) >>> 8) &&& 0xFF).toUInt8 = b₁ := by
    apply UInt8.toBitVec_inj.mp
    refine BitVec.eq_of_getLsbD_eq fun i hi => ?_
    simp only [UInt16.toBitVec_toUInt8, UInt16.toBitVec_and, UInt16.toBitVec_or,
      UInt16.toBitVec_shiftLeft, UInt16.toBitVec_shiftRight, UInt8.toBitVec_toUInt16]
    interval_cases i <;> simp
  simp only [crc16Bytes, getLe16, List.getD_cons_zero, List.getD_cons_succ, hlo, hhi]

/-- The check bytes of a half-word give it back. -/
lemma getLe16_crc16Bytes (v : UInt16) : getLe16 (crc16Bytes v) 0 = v := by
  simp only [crc16Bytes, getLe16, List.getD_cons_zero, List.getD_cons_succ]
  apply UInt16.toBitVec_inj.mp
  refine BitVec.eq_of_getLsbD_eq fun i hi => ?_
  simp only [UInt16.toBitVec_or, UInt16.toBitVec_shiftLeft, UInt8.toBitVec_toUInt16,
    UInt16.toBitVec_toUInt8, UInt16.toBitVec_shiftRight, UInt16.toBitVec_and]
  interval_cases i <;> simp

lemma getLe16_append_right (p q : List UInt8) : getLe16 (p ++ q) p.length = getLe16 q 0 := by
  simp only [getLe16]
  rw [List.getD_append_right _ _ _ _ (by omega), List.getD_append_right _ _ _ _ (by omega)]
  simp

/-- A list of at least four bytes: two, the middle, and the last two. -/
lemma exists_envelope_parts {b : List UInt8} (h : 4 ≤ b.length) :
    ∃ lead cmd payload c₀ c₁, b = lead :: cmd :: payload ++ [c₀, c₁] := by
  obtain ⟨lead, b, rfl⟩ := List.exists_cons_of_length_pos (by omega : 0 < b.length)
  obtain ⟨cmd, b, rfl⟩ := List.exists_cons_of_length_pos (by simp at h; omega : 0 < b.length)
  have hlen : 2 ≤ b.length := by simpa using h
  obtain ⟨c₀, c₁, hlast⟩ : ∃ c₀ c₁, b.drop (b.length - 2) = [c₀, c₁] := by
    apply List.length_eq_two.mp
    rw [List.length_drop]
    omega
  refine ⟨lead, cmd, b.take (b.length - 2), c₀, c₁, ?_⟩
  rw [← hlast]
  simp

/-! ### Envelopes -/

/-- The envelope of a request or a reply on SPI: the check covers the leading `SOF`. -/
def spiEnvelope (cmd : UInt8) (payload : List UInt8) : List UInt8 :=
  sof :: cmd :: payload ++ crc16Bytes (crc16CcittFalse (sof :: cmd :: payload))

/-- The envelope of a write on I2C: the check does not cover the register byte. -/
def i2cEnvelope (cmd : UInt8) (payload : List UInt8) : List UInt8 :=
  i2cRegCmd :: cmd :: payload ++ crc16Bytes (crc16CcittFalse (cmd :: payload))

/-- The envelope of a reply on I2C. -/
def i2cReplyEnvelope (status : UInt8) (payload : List UInt8) : List UInt8 :=
  status :: payload ++ crc16Bytes (crc16CcittFalse (status :: payload))

@[simp]
lemma spiEnvelope_length (cmd : UInt8) (payload : List UInt8) :
    (spiEnvelope cmd payload).length = payload.length + 4 := by
  simp [spiEnvelope, crc16Bytes]

@[simp]
lemma i2cEnvelope_length (cmd : UInt8) (payload : List UInt8) :
    (i2cEnvelope cmd payload).length = payload.length + 4 := by
  simp [i2cEnvelope, crc16Bytes]

/-- The fields both decoders cut out of a buffer that holds at least four bytes: the command, the
payload and the check value. -/
def frameFields (rx : List UInt8) : UInt8 × List UInt8 × UInt16 :=
  let payloadLen := rx.length - 4
  (rx.getD 1 0, (rx.drop 2).take payloadLen, getLe16 rx (2 + payloadLen))

lemma frameFields_eq (lead cmd c₀ c₁ : UInt8) (payload : List UInt8) :
    frameFields (lead :: cmd :: payload ++ [c₀, c₁]) = (cmd, payload, getLe16 [c₀, c₁] 0) := by
  have hlen : (lead :: cmd :: payload ++ [c₀, c₁]).length - 4 = payload.length := by simp
  have hcrc : getLe16 (lead :: cmd :: payload ++ [c₀, c₁]) (2 + payload.length) =
      getLe16 [c₀, c₁] 0 := by
    rw [← getLe16_append_right (lead :: cmd :: payload) [c₀, c₁]]
    congr 1
    simp only [List.length_cons]
    omega
  simp only [frameFields, hlen, hcrc]
  simp

end Gd32Bridge
