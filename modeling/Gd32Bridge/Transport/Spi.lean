import Gd32Bridge.Transport.Frame

/-!
# The SPI slave (`src/transport_spi.c`)

The chip select frames a transaction: `cs_low`, a run of bytes, `cs_high`.  A request is decoded
at `cs_high` and its reply staged for the next transaction; an empty or all-zero transaction is
the host reading and re-serves the staged reply.  The functions return, besides the state, what
happened to the staged reply.
-/

namespace Gd32Bridge

open Endian

/-- The file-scope variables of `transport_spi.c`; `tx` is `spi_tx_buf` up to `spi_tx_len`. -/
structure SpiSlave where
  rx : RxBuf
  tx : List UInt8
  cursor : ℕ
  drainStreak : UInt8
  seq : UInt8

namespace SpiSlave

/-- `transport_spi_init` -/
def init : SpiSlave := ⟨.empty, [], 0, 0, 0⟩

/-- `SPI_DRAIN_REWIND_BOUND` -/
def drainRewindBound : UInt8 := 12

/-- `GD32_BRIDGE_LINK_FEAT_STATUS_SEQ` -/
def featStatusSeq : UInt8 := 0x01

/-- The features say that replies carry the stamp. -/
def stamps (features : UInt8) : Bool :=
  features &&& featStatusSeq != 0

/-- `stage_reply`, with the features of the SPI link -/
def stageReply (features : UInt8) (status : Status) (payload : List UInt8) (s : SpiSlave) :
    SpiSlave :=
  let seq := if stamps features then (s.seq + 1) &&& 0x0F else s.seq
  let status := if stamps features then status.code ||| (seq <<< 4) else status.code
  { s with tx := spiEnvelope status payload, cursor := 0, drainStreak := 0, seq := seq }

/-- `stage_error_reply(STATUS_IO)` -/
def stageError (features : UInt8) (s : SpiSlave) : SpiSlave :=
  s.stageReply features .io []

/-- `spi_slave_cs_low` -/
def csLow (s : SpiSlave) : SpiSlave :=
  { s with rx := .empty }

/-- `spi_slave_rx_byte` -/
def rxByte (s : SpiSlave) (b : UInt8) : SpiSlave :=
  { s with rx := s.rx.push b }

/-- `spi_slave_transport_error` -/
def transportError (features : UInt8) (s : SpiSlave) : SpiSlave :=
  stageError features { s with rx := .empty }

/-- `spi_slave_tx_next_byte` -/
def txNextByte (s : SpiSlave) : SpiSlave × UInt8 :=
  if s.cursor < s.tx.length then ({ s with cursor := s.cursor + 1 }, s.tx.getD s.cursor 0xFF)
  else (s, 0xFF)

/-- `spi_slave_tx_pending` -/
def txPending (s : SpiSlave) : Bool :=
  s.cursor < s.tx.length

end SpiSlave

/-- What `decode_and_dispatch` makes of a captured buffer. -/
inductive SpiCapture
  /-- nothing, or zeros only: the host is reading -/
  | drain
  /-- not a request -/
  | malformed
  | request (cmd : UInt8) (payload : List UInt8)
deriving DecidableEq, Repr

/-- The checks of `decode_and_dispatch`, in order. -/
def spiDecode (rx : List UInt8) : SpiCapture :=
  if rx.length = 0 then .drain
  else if rx.getD 0 0 ≠ sof then
    if rx.any (· != 0) then .malformed else .drain
  else if rx.length < 4 then .malformed
  else
    match frameFields rx with
    | (cmd, payload, gotCrc) =>
      let expectCrc := crc16CcittFalse (rx.take (rx.length - 2))
      if gotCrc ≠ expectCrc then .malformed else .request cmd payload

/-- What a transaction did to the staged reply. -/
inductive SpiEvent
  /-- the staged reply is served again from its first byte -/
  | rewound
  /-- the `STATUS_IO` envelope was staged -/
  | failed
  /-- `protocol_dispatch` was called and its reply staged -/
  | replied (cmd : UInt8) (payload : List UInt8) (status : Status) (reply : List UInt8)
  /-- `protocol_dispatch` was called and did not return -/
  | lost (cmd : UInt8) (payload : List UInt8)
deriving DecidableEq, Repr

variable {σ : Type}

/-- The two rewind paths of `decode_and_dispatch`. -/
def SpiSlave.rewind (features : UInt8) (s : SpiSlave) : SpiSlave × SpiEvent :=
  let streak := s.drainStreak + 1
  if streak > drainRewindBound then
    ({ s with drainStreak := streak }.stageError features, .failed)
  else ({ s with drainStreak := streak, cursor := 0 }, .rewound)

/-- `spi_slave_cs_high`, that is, `decode_and_dispatch`; `inFlight` says that the request has
interrupted the handler of another one.  A handler that resets the device brings the transport
back to where `transport_spi_init` leaves it. -/
def spiSlaveCsHigh (hal : Hal σ) (inFlight : Bool) (d : Device σ) (s : SpiSlave) :
    Device σ × SpiSlave × SpiEvent :=
  match spiDecode s.rx.bytes with
  | .drain =>
    match s.rewind d.links.spi with
    | (s', ev) => (d, s', ev)
  | .malformed => (d, s.stageError d.links.spi, .failed)
  | .request cmd payload =>
    match protocolDispatch hal inFlight .spi cmd d payload maxPayloadBytes with
    | (d', .reply st reply) =>
      (d', s.stageReply d'.links.spi st reply, .replied cmd payload st reply)
    | (d', .reset) => (d', .init, .lost cmd payload)
    | (d', .powerLost) => (d', .init, .lost cmd payload)

/-- One transaction: chip select low, the bytes, chip select high. -/
def spiTransaction (hal : Hal σ) (inFlight : Bool) (bs : List UInt8) (d : Device σ)
    (s : SpiSlave) : Device σ × SpiSlave × SpiEvent :=
  spiSlaveCsHigh hal inFlight d (bs.foldl SpiSlave.rxByte s.csLow)

/-- The call of `protocol_dispatch` a transaction makes. -/
def SpiEvent.call : SpiEvent → Option (UInt8 × List UInt8)
  | replied cmd payload _ _ => some (cmd, payload)
  | lost cmd payload => some (cmd, payload)
  | _ => none

/-! ### Decoding -/

/-- A buffer that starts with `SOF` and is long enough is decided by its check bytes. -/
lemma spiDecode_frame (cmd c₀ c₁ : UInt8) (payload : List UInt8) :
    spiDecode (sof :: cmd :: payload ++ [c₀, c₁]) =
      if getLe16 [c₀, c₁] 0 ≠ crc16CcittFalse (sof :: cmd :: payload) then .malformed
      else .request cmd payload := by
  have hcover : (sof :: cmd :: payload ++ [c₀, c₁]).take
      ((sof :: cmd :: payload ++ [c₀, c₁]).length - 2) = sof :: cmd :: payload := by
    have hlen : (sof :: cmd :: payload ++ [c₀, c₁]).length - 2 = (sof :: cmd :: payload).length := by
      simp
    rw [hlen, List.take_left]
  have hsof : (sof :: cmd :: payload ++ [c₀, c₁]).getD 0 0 = sof := rfl
  have hlen : ¬ (sof :: cmd :: payload ++ [c₀, c₁]).length < 4 := by simp
  have hne : ¬ (sof :: cmd :: payload ++ [c₀, c₁]).length = 0 := by simp
  simp only [spiDecode, if_neg hne, hsof, ne_eq, not_true_eq_false, if_false, if_neg hlen,
    frameFields_eq, hcover]

/-- The decoder accepts the envelopes and nothing else. -/
theorem spiDecode_eq_request {rx : List UInt8} {cmd : UInt8} {payload : List UInt8} :
    spiDecode rx = .request cmd payload ↔ rx = spiEnvelope cmd payload := by
  constructor
  · intro h
    -- only a long enough buffer with a leading `SOF` gets as far as the check bytes
    obtain ⟨hsof, hlen⟩ : rx.getD 0 0 = sof ∧ 4 ≤ rx.length := by
      simp only [spiDecode] at h
      split_ifs at h with hne hsof hzero hlen
      exact ⟨not_not.mp hsof, Nat.le_of_not_lt hlen⟩
    obtain ⟨lead, c, p, c₀, c₁, rfl⟩ := exists_envelope_parts hlen
    have hlead : lead = sof := hsof
    subst hlead
    rw [spiDecode_frame] at h
    split_ifs at h with hcrc
    cases h
    rw [spiEnvelope, ← not_not.mp hcrc, crc16Bytes_getLe16]
  · rintro rfl
    obtain ⟨c₀, c₁, hc⟩ : ∃ c₀ c₁, crc16Bytes (crc16CcittFalse (sof :: cmd :: payload)) = [c₀, c₁] :=
      ⟨_, _, rfl⟩
    rw [spiEnvelope, hc, spiDecode_frame, ← hc, getLe16_crc16Bytes]
    exact if_neg (not_not.mpr rfl)

section

variable {hal : Hal σ} {inFlight : Bool} {d : Device σ} {s : SpiSlave}

lemma rxByte_foldl (bs : List UInt8) (s : SpiSlave) :
    bs.foldl SpiSlave.rxByte s = { s with rx := s.rx.feed bs } := by
  induction bs generalizing s with
  | nil => rfl
  | cons b bs ih => exact ih (s.rxByte b)

/-- A transaction works on what the receive buffer has retained of it. -/
lemma spiTransaction_eq (bs : List UInt8) :
    spiTransaction hal inFlight bs d s =
      spiSlaveCsHigh hal inFlight d { s with rx := RxBuf.empty.feed bs } := by
  rw [spiTransaction, rxByte_foldl]
  rfl

/-- The call a transaction makes is the request its retained bytes decode to. -/
lemma spiTransaction_call (bs : List UInt8) {cmd : UInt8} {payload : List UInt8} :
    (spiTransaction hal inFlight bs d s).2.2.call = some (cmd, payload) ↔
      bs.take maxFrameBytes = spiEnvelope cmd payload := by
  rw [spiTransaction_eq, ← spiDecode_eq_request, ← RxBuf.empty_feed_bytes]
  simp only [spiSlaveCsHigh]
  generalize spiDecode (RxBuf.empty.feed bs).bytes = c
  cases c with
  | drain =>
    simp only [SpiSlave.rewind]
    split_ifs <;> simp [SpiEvent.call]
  | malformed => simp [SpiEvent.call]
  | request cmd' payload' =>
    simp only [SpiCapture.request.injEq]
    generalize protocolDispatch hal inFlight .spi cmd' d payload' maxPayloadBytes = x
    obtain ⟨d', out⟩ := x
    cases out <;> simp [SpiEvent.call]

end

end Gd32Bridge
