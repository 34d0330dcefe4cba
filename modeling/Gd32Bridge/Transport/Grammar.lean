import Gd32Bridge.Transport.I2c
import Gd32Bridge.Transport.Spi

/-!
# What the parsers accept

Both parsers decide on the bytes their receive buffer has retained.  A run of bytes that fits is
therefore dispatched exactly when it is an envelope; of a longer one the first 69 bytes decide,
and they may be an envelope of their own.
-/

namespace Gd32Bridge

variable {σ : Type}

/-- An addressed write: `write_start`, the bytes, `write_end`. -/
def i2cWrite (hal : Hal σ) (inFlight : Bool) (bs : List UInt8) (d : Device σ) (s : I2cSlave) :
    Device σ × I2cSlave × Option DispatchCall :=
  i2cSlaveWriteEnd hal inFlight d (bs.foldl I2cSlave.rxByte s.writeStart)

/-- What an addressed write hands to `protocol_dispatch`. -/
def i2cWriteCall (hal : Hal σ) (inFlight : Bool) (bs : List UInt8) (d : Device σ)
    (s : I2cSlave) : Option (UInt8 × List UInt8) :=
  (i2cWrite hal inFlight bs d s).2.2.map fun c => (c.cmd, c.payload)

/-- What a transaction hands to `protocol_dispatch`. -/
def spiTransactionCall (hal : Hal σ) (inFlight : Bool) (bs : List UInt8) (d : Device σ)
    (s : SpiSlave) : Option (UInt8 × List UInt8) :=
  (spiTransaction hal inFlight bs d s).2.2.call

lemma i2cSlave_rxByte_foldl (bs : List UInt8) (s : I2cSlave) :
    bs.foldl I2cSlave.rxByte s = { s with rx := s.rx.feed bs } := by
  induction bs generalizing s with
  | nil => rfl
  | cons b bs ih => exact ih (s.rxByte b)

/-- The call an addressed write makes is the request its retained bytes decode to. -/
lemma i2cWriteCall_eq_some (hal : Hal σ) (inFlight : Bool) (bs : List UInt8) (d : Device σ)
    (s : I2cSlave) (cmd : UInt8) (payload : List UInt8) :
    i2cWriteCall hal inFlight bs d s = some (cmd, payload) ↔
      bs.take maxFrameBytes = i2cEnvelope cmd payload := by
  rw [← i2cDecode_eq_some, ← RxBuf.empty_feed_bytes]
  simp only [i2cWriteCall, i2cWrite, i2cSlave_rxByte_foldl, i2cSlaveWriteEnd,
    I2cSlave.writeStart, Bool.or_self, Bool.false_eq_true, if_false]
  cases i2cDecode (RxBuf.empty.feed bs).bytes with
  | none => simp
  | some frame =>
    obtain ⟨cmd', payload'⟩ := frame
    simp only
    generalize protocolDispatch hal inFlight .i2c cmd' d payload' maxPayloadBytes = x
    obtain ⟨d', out⟩ := x
    cases out <;> simp

/-- A parser that looks at the retained prefix only accepts exactly its envelopes on the inputs
that fit, and on those whose prefix is not an envelope. -/
lemma prefix_parser_exact {α : Type} {call : Option α} {env : α → List UInt8} {bs : List UInt8}
    (hcall : ∀ a, call = some a ↔ bs.take maxFrameBytes = env a) :
    (∀ a, call = some a ↔ bs.length ≤ maxFrameBytes ∧ bs = env a) ↔
      bs.length ≤ maxFrameBytes ∨ ∀ a, bs.take maxFrameBytes ≠ env a := by
  constructor
  · intro h
    by_cases hlen : bs.length ≤ maxFrameBytes
    · exact .inl hlen
    · exact .inr fun a ha => hlen ((h a).mp ((hcall a).mpr ha)).1
  · rintro (hlen | hno) a
    · rw [hcall, List.take_of_length_le hlen]
      exact ⟨fun h => ⟨hlen, h⟩, fun h => h.2⟩
    · rw [hcall]
      refine ⟨fun h => absurd h (hno a), fun ⟨hlen, h⟩ => ?_⟩
      rw [List.take_of_length_le hlen]
      exact h

/-- For every run of bytes, on each link: exactly the envelopes of at most 69 bytes are dispatched,
with their command and payload, if and only if the run is no longer than the buffer or its first
69 bytes are not an envelope of their own. -/
theorem frame_parsers_exact_iff (hal : Hal σ) (inFlight : Bool) (d : Device σ) (s : SpiSlave)
    (t : I2cSlave) (bs : List UInt8) :
    ((∀ call : UInt8 × List UInt8, spiTransactionCall hal inFlight bs d s = some call ↔
        bs.length ≤ maxFrameBytes ∧ bs = spiEnvelope call.1 call.2) ↔
      bs.length ≤ maxFrameBytes ∨
        ∀ call : UInt8 × List UInt8, bs.take maxFrameBytes ≠ spiEnvelope call.1 call.2) ∧
    ((∀ call : UInt8 × List UInt8, i2cWriteCall hal inFlight bs d t = some call ↔
        bs.length ≤ maxFrameBytes ∧ bs = i2cEnvelope call.1 call.2) ↔
      bs.length ≤ maxFrameBytes ∨
        ∀ call : UInt8 × List UInt8, bs.take maxFrameBytes ≠ i2cEnvelope call.1 call.2) :=
  ⟨prefix_parser_exact fun _ => spiTransaction_call bs,
    prefix_parser_exact fun call => i2cWriteCall_eq_some hal inFlight bs d t call.1 call.2⟩

/-- A PING with 65 payload bytes, and one byte more than the buffer holds. -/
def overlongPing : List UInt8 :=
  spiEnvelope 0x00 (List.replicate 65 0) ++ [0]

/-- The byte past the buffer is dropped and the rest is dispatched. -/
theorem overlong_dispatched :
    ¬ ∀ (bs : List UInt8) (call : UInt8 × List UInt8),
      spiTransactionCall .stub false bs restDevice .init = some call ↔
        bs.length ≤ maxFrameBytes ∧ bs = spiEnvelope call.1 call.2 := by
  intro h
  have hcall : spiTransactionCall .stub false overlongPing restDevice .init =
      some (0x00, List.replicate 65 0) := by
    refine (spiTransaction_call _).mpr ?_
    rw [overlongPing, List.take_left' (by simp [maxFrameBytes, maxPayloadBytes])]
  have hlen := ((h overlongPing _).mp hcall).1
  simp [overlongPing, maxFrameBytes, maxPayloadBytes] at hlen

end Gd32Bridge
