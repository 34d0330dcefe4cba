import Gd32Bridge.Transport.Frame

/-!
# The I2C slave (`src/transport_i2c.c`)

An addressed write starts with `write_start`, brings bytes, and is followed by `write_end`, which
the interrupt handler calls on every STOP and every addressed read and therefore any number of
times.  Two flags make it decode the buffer once: one says that a reply was staged for this write,
the other that its frame was rejected.
-/

namespace Gd32Bridge

open Endian

/-- The file-scope variables of `transport_i2c.c`; `tx` is `i2c_tx_buf` up to `i2c_tx_len`. -/
structure I2cSlave where
  rx : RxBuf
  tx : List UInt8
  cursor : ℕ
  pendingReplyValid : Bool
  frameRejected : Bool

namespace I2cSlave

/-- `transport_i2c_init` -/
def init : I2cSlave := ⟨.empty, [], 0, false, false⟩

/-- The envelope of `stage_no_pending`. -/
def noPendingEnvelope : List UInt8 :=
  i2cReplyEnvelope Status.noPending.code []

/-- `stage_no_pending` -/
def stageNoPending (s : I2cSlave) : I2cSlave :=
  { s with tx := noPendingEnvelope, cursor := 0 }

/-- `stage_reply` -/
def stageReply (status : Status) (payload : List UInt8) (s : I2cSlave) : I2cSlave :=
  { s with tx := i2cReplyEnvelope status.code payload, cursor := 0 }

/-- `i2c_slave_write_start` -/
def writeStart (s : I2cSlave) : I2cSlave :=
  { s with rx := .empty, pendingReplyValid := false, frameRejected := false }

/-- `i2c_slave_tx_abort` -/
def txAbort (s : I2cSlave) : I2cSlave :=
  { s with tx := [], cursor := 0 }

/-- `i2c_slave_rx_byte` -/
def rxByte (s : I2cSlave) (b : UInt8) : I2cSlave :=
  { s with rx := s.rx.push b }

/-- `i2c_slave_tx_next_byte` -/
def txNextByte (s : I2cSlave) : I2cSlave × UInt8 :=
  let s := if !s.pendingReplyValid && s.cursor == 0 then s.stageNoPending else s
  if s.cursor < s.tx.length then ({ s with cursor := s.cursor + 1 }, s.tx.getD s.cursor 0xFF)
  else (s, 0xFF)

end I2cSlave

/-- The checks of `i2c_slave_write_end`. -/
def i2cDecode (rx : List UInt8) : Option (UInt8 × List UInt8) :=
  if rx.length < 4 ∨ rx.getD 0 0 ≠ i2cRegCmd then none
  else
    match frameFields rx with
    | (cmd, payload, gotCrc) =>
      let expectCrc := crc16CcittFalse ((rx.drop 1).take (rx.length - 3))
      if gotCrc ≠ expectCrc then none else some (cmd, payload)

/-- A call of `protocol_dispatch` and what it replied, unless it did not return. -/
structure DispatchCall where
  cmd : UInt8
  payload : List UInt8
  reply : Option (Status × List UInt8)
deriving DecidableEq, Repr

variable {σ : Type}

/-- `i2c_slave_write_end`, with the call of `protocol_dispatch` it makes.  A handler that resets
the device brings the transport back to where `transport_i2c_init` leaves it. -/
def i2cSlaveWriteEnd (hal : Hal σ) (inFlight : Bool) (d : Device σ) (s : I2cSlave) :
    Device σ × I2cSlave × Option DispatchCall :=
  if s.pendingReplyValid || s.frameRejected then
    -- already decoded for this write; a drained reply gives way to the sentinel
    (d, if s.frameRejected || decide (s.cursor ≥ s.tx.length) then s.stageNoPending else s, none)
  else
    match i2cDecode s.rx.bytes with
    | none => (d, { s with frameRejected := true }.stageNoPending, none)
    | some (cmd, payload) =>
      match protocolDispatch hal inFlight .i2c cmd d payload maxPayloadBytes with
      | (d', .reply st reply) =>
        (d', { s.stageReply st reply with pendingReplyValid := true },
          some ⟨cmd, payload, some (st, reply)⟩)
      | (d', .reset) => (d', .init, some ⟨cmd, payload, none⟩)
      | (d', .powerLost) => (d', .init, some ⟨cmd, payload, none⟩)

/-! ### Decoding -/

lemma i2cDecode_frame (cmd c₀ c₁ : UInt8) (payload : List UInt8) :
    i2cDecode (i2cRegCmd :: cmd :: payload ++ [c₀, c₁]) =
      if getLe16 [c₀, c₁] 0 ≠ crc16CcittFalse (cmd :: payload) then none
      else some (cmd, payload) := by
  have hcover : ((i2cRegCmd :: cmd :: payload ++ [c₀, c₁]).drop 1).take
      ((i2cRegCmd :: cmd :: payload ++ [c₀, c₁]).length - 3) = cmd :: payload := by
    have hlen : (i2cRegCmd :: cmd :: payload ++ [c₀, c₁]).length - 3 = (cmd :: payload).length := by
      simp
    have hdrop : (i2cRegCmd :: cmd :: payload ++ [c₀, c₁]).drop 1 = cmd :: payload ++ [c₀, c₁] := rfl
    rw [hlen, hdrop, List.take_left]
  have hgo : ¬ ((i2cRegCmd :: cmd :: payload ++ [c₀, c₁]).length < 4 ∨
      (i2cRegCmd :: cmd :: payload ++ [c₀, c₁]).getD 0 0 ≠ i2cRegCmd) := by
    rw [not_or, not_not]
    exact ⟨by simp, rfl⟩
  simp only [i2cDecode, if_neg hgo, frameFields_eq, hcover]

/-- The decoder accepts the envelopes and nothing else. -/
theorem i2cDecode_eq_some {rx : List UInt8} {cmd : UInt8} {payload : List UInt8} :
    i2cDecode rx = some (cmd, payload) ↔ rx = i2cEnvelope cmd payload := by
  constructor
  · intro h
    obtain ⟨hlen, hreg⟩ : 4 ≤ rx.length ∧ rx.getD 0 0 = i2cRegCmd := by
      simp only [i2cDecode] at h
      split_ifs at h with hgo
      rw [not_or, not_not] at hgo
      exact ⟨Nat.le_of_not_lt hgo.1, hgo.2⟩
    obtain ⟨lead, c, p, c₀, c₁, rfl⟩ := exists_envelope_parts hlen
    have hlead : lead = i2cRegCmd := hreg
    subst hlead
    rw [i2cDecode_frame] at h
    split_ifs at h with hcrc
    cases h
    rw [i2cEnvelope, ← not_not.mp hcrc, crc16Bytes_getLe16]
  · rintro rfl
    obtain ⟨c₀, c₁, hc⟩ : ∃ c₀ c₁, crc16Bytes (crc16CcittFalse (cmd :: payload)) = [c₀, c₁] :=
      ⟨_, _, rfl⟩
    rw [i2cEnvelope, hc, i2cDecode_frame, ← hc, getLe16_crc16Bytes]
    exact if_neg (not_not.mpr rfl)

end Gd32Bridge
