import Gd32Bridge.Lib.Transition
import Gd32Bridge.Transport.I2c

/-!
# One dispatch for each addressed write

The seam events of the I2C slave in any order, with anything else happening to the device in
between.  The history of a run remembers what has happened since the last `write_start`: the bytes
received, whether `write_end` has run, and the calls of `protocol_dispatch`.
-/

namespace Gd32Bridge

open Transition

variable {σ : Type}

/-- The events the interrupt handlers make of the bus. -/
inductive I2cEvent (σ : Type)
  /-- an addressed write begins -/
  | writeStart
  | rxByte (b : UInt8)
  /-- a STOP or an addressed read -/
  | writeEnd (inFlight : Bool)
  | txNextByte
  /-- the bus-error resync of `BRIDGE_I2C_ER_HANDLER` -/
  | busError
  /-- the recovery from a stuck bus -/
  | txAbort
  /-- anything else that happens to the device -/
  | other (d : Device σ)

/-- The device and the I2C slave in front of it; `none` is a handler that does not return. -/
def i2cStep (hal : Hal σ) : Device σ × I2cSlave → I2cEvent σ → Option (Device σ × I2cSlave)
  | (d, s), .writeStart => some (d, s.writeStart)
  | (d, s), .rxByte b => some (d, s.rxByte b)
  | (d, s), .writeEnd inFlight =>
    match i2cSlaveWriteEnd hal inFlight d s with
    | (_, _, some ⟨_, _, none⟩) => none
    | (d', s', _) => some (d', s')
  | (d, s), .txNextByte => some (d, s.txNextByte.1)
  | (d, s), .busError => some (d, s.writeStart.txAbort)
  | (d, s), .txAbort => some (d, s.txAbort)
  | (_, s), .other d => some (d, s)

/-- What has happened since the last `write_start`. -/
structure WriteHistory where
  received : List UInt8
  ended : Bool
  calls : List DispatchCall
deriving DecidableEq, Repr

def WriteHistory.start : WriteHistory := ⟨[], false, []⟩

def writeHistoryUpd (hal : Hal σ) (h : WriteHistory) (x : Device σ × I2cSlave) (e : I2cEvent σ)
    (_ : Device σ × I2cSlave) : WriteHistory :=
  match e with
  | .writeStart => .start
  | .busError => .start
  | .rxByte b => { h with received := h.received ++ [b] }
  | .writeEnd inFlight =>
    { h with ended := true, calls := h.calls ++ (i2cSlaveWriteEnd hal inFlight x.1 x.2).2.2.toList }
  | .txNextByte => h
  | .txAbort => h
  | .other _ => h

/-- The transport as `transport_i2c_init` leaves it, on any device. -/
def I2cStart (x : (Device σ × I2cSlave) × WriteHistory) : Prop :=
  x.1.2 = .init ∧ x.2 = .start

/-- What can be in the reply buffer once `write_end` has run: the reply to the call of this write,
the sentinel, or nothing. -/
def StagedBy (calls : List DispatchCall) (tx : List UInt8) : Prop :=
  (∃ c ∈ calls, ∃ st p, c.reply = some (st, p) ∧ tx = i2cReplyEnvelope st.code p) ∨
    tx = I2cSlave.noPendingEnvelope ∨ tx = []

/-- The flags, the buffers and the history of the write agree. -/
structure WriteOk (s : I2cSlave) (h : WriteHistory) : Prop where
  decided : (s.pendingReplyValid || s.frameRejected) = h.ended
  retained : h.ended = false → s.rx.bytes = h.received.take maxFrameBytes
  fresh : h.ended = false → h.calls = []
  once : h.calls.length ≤ 1
  staged : h.ended = true → StagedBy h.calls s.tx

namespace WriteOk

variable {s : I2cSlave} {h : WriteHistory}

lemma start (s : I2cSlave) : WriteOk s.writeStart .start where
  decided := rfl
  retained _ := rfl
  fresh _ := rfl
  once := Nat.zero_le _
  staged hend := by cases hend

lemma rxByte (ok : WriteOk s h) (b : UInt8) :
    WriteOk (s.rxByte b) { h with received := h.received ++ [b] } where
  decided := ok.decided
  retained hend := by
    show (s.rx.push b).bytes = _
    have hbytes := RxBuf.feed_bytes RxBuf.empty (h.received ++ [b])
    have hfeed : RxBuf.empty.feed (h.received ++ [b]) = (RxBuf.empty.feed h.received).push b := by
      simp only [RxBuf.feed, List.foldl_append, List.foldl_cons, List.foldl_nil]
    rw [hfeed, RxBuf.push_bytes, RxBuf.empty_feed_bytes] at hbytes
    rw [RxBuf.push_bytes, ok.retained hend]
    exact hbytes
  fresh := ok.fresh
  once := ok.once
  staged := ok.staged

/-- Changes to the reply side that keep its provenance. -/
lemma restage (ok : WriteOk s h) {tx : List UInt8} {cursor : ℕ} (htx : tx = s.tx ∨
    tx = I2cSlave.noPendingEnvelope ∨ tx = []) : WriteOk { s with tx := tx, cursor := cursor } h where
  decided := ok.decided
  retained := ok.retained
  fresh := ok.fresh
  once := ok.once
  staged hend := by
    rcases htx with rfl | htx
    · exact ok.staged hend
    · exact .inr htx

lemma txNextByte (ok : WriteOk s h) : WriteOk s.txNextByte.1 h := by
  simp only [I2cSlave.txNextByte]
  split_ifs
  · exact ok.restage (.inr (.inl rfl))
  · exact ok.restage (.inr (.inl rfl))
  · exact ok.restage (.inl rfl)
  · exact ok

end WriteOk

/-- `write_end` calls `protocol_dispatch` exactly when it runs first and the retained bytes are an
envelope. -/
lemma i2cSlaveWriteEnd_call (hal : Hal σ) (inFlight : Bool) (d : Device σ) (s : I2cSlave)
    (cmd : UInt8) (payload : List UInt8) :
    (∃ reply, (i2cSlaveWriteEnd hal inFlight d s).2.2 = some ⟨cmd, payload, reply⟩) ↔
      (s.pendingReplyValid || s.frameRejected) = false ∧
        s.rx.bytes = i2cEnvelope cmd payload := by
  rw [← i2cDecode_eq_some]
  cases hflag : s.pendingReplyValid || s.frameRejected with
  | true => simp [i2cSlaveWriteEnd, hflag]
  | false =>
    simp only [i2cSlaveWriteEnd, hflag, Bool.false_eq_true, if_false, true_and]
    cases hdec : i2cDecode s.rx.bytes with
    | none => simp
    | some frame =>
      obtain ⟨cmd', payload'⟩ := frame
      simp only [Option.some.injEq, Prod.mk.injEq]
      generalize protocolDispatch hal inFlight .i2c cmd' d payload' maxPayloadBytes = x
      obtain ⟨d', out⟩ := x
      cases out <;> simp

lemma WriteOk.writeEnd {hal : Hal σ} {inFlight : Bool} {d d' : Device σ} {s s' : I2cSlave}
    {h : WriteHistory} (ok : WriteOk s h)
    (hs : i2cStep hal (d, s) (.writeEnd inFlight) = some (d', s')) :
    WriteOk s' (writeHistoryUpd hal h (d, s) (.writeEnd inFlight) (d', s')) := by
  have hdec := ok.decided
  simp only [i2cStep, i2cSlaveWriteEnd, writeHistoryUpd] at hs ⊢
  cases hflag : s.pendingReplyValid || s.frameRejected with
  | true =>
    -- a repeat: no call, and the reply stays or gives way to the sentinel
    rw [hflag] at hdec
    have hend := hdec.symm
    simp only [hflag, if_true] at hs ⊢
    cases hs
    have hhist : WriteHistory.mk h.received true (h.calls ++ []) = h := by
      rw [List.append_nil, ← hend]
    simp only [Option.toList_none, hhist]
    split_ifs
    · exact ok.restage (.inr (.inl rfl))
    · exact ok
  | false =>
    rw [hflag] at hdec
    have hcalls := ok.fresh hdec.symm
    simp only [hflag, Bool.false_eq_true, if_false] at hs ⊢
    cases hrx : i2cDecode s.rx.bytes with
    | none =>
      simp only [hrx] at hs ⊢
      cases hs
      refine ⟨by simp [I2cSlave.stageNoPending], nofun, nofun, ?_, fun _ => .inr (.inl rfl)⟩
      simp [hcalls]
    | some frame =>
      obtain ⟨cmd, payload⟩ := frame
      simp only [hrx] at hs ⊢
      generalize protocolDispatch hal inFlight .i2c cmd d payload maxPayloadBytes = x at hs ⊢
      obtain ⟨d₁, out⟩ := x
      cases out with
      | reply st p =>
        cases hs
        refine ⟨rfl, nofun, nofun, by simp [hcalls], fun _ => .inl ?_⟩
        exact ⟨⟨cmd, payload, some (st, p)⟩, by simp [hcalls], st, p, rfl, rfl⟩
      | reset => cases hs
      | powerLost => cases hs

/-- One seam event. -/
theorem WriteOk.step {hal : Hal σ} {x x' : Device σ × I2cSlave} {e : I2cEvent σ}
    {h : WriteHistory} (ok : WriteOk x.2 h) (hs : i2cStep hal x e = some x') :
    WriteOk x'.2 (writeHistoryUpd hal h x e x') := by
  obtain ⟨d, s⟩ := x
  cases e with
  | writeStart =>
    cases hs
    exact .start s
  | rxByte b =>
    cases hs
    exact ok.rxByte b
  | writeEnd inFlight => exact ok.writeEnd hs
  | txNextByte =>
    cases hs
    exact ok.txNextByte
  | busError =>
    cases hs
    exact (WriteOk.start s).restage (.inr (.inr rfl))
  | txAbort =>
    cases hs
    exact ok.restage (.inr (.inr rfl))
  | other d' =>
    cases hs
    exact ok

/-- The byte `tx_next_byte` gives is the idle byte, or the next one of the buffer it leaves. -/
lemma I2cSlave.txNextByte_spec (s : I2cSlave) :
    s.txNextByte.2 = 0xFF ∨
      ∃ i, s.txNextByte.1.tx[i]? = some s.txNextByte.2 ∧ s.txNextByte.1.cursor = i + 1 := by
  simp only [I2cSlave.txNextByte]
  generalize (if (!s.pendingReplyValid && s.cursor == 0) = true then s.stageNoPending else s) = t
  split_ifs with hlt
  · refine .inr ⟨t.cursor, ?_, rfl⟩
    rw [List.getElem?_eq_getElem hlt, List.getD_eq_getElem _ _ hlt]
  · exact .inl rfl

/-- In every order of the seam events, an addressed write is dispatched at most once; a run of
`write_end` dispatches exactly when it is the first since `write_start` and the bytes retained by
then are an envelope, and then with its command and payload.  From then on every byte clocked out
comes from the reply to this call, from the sentinel, or is the idle byte. -/
theorem i2c_dispatch_once (hal : Hal σ) {d : Device σ} {s : I2cSlave} {h : WriteHistory}
    (hr : Reach (withHistory (i2cStep hal) (writeHistoryUpd hal)) I2cStart (fun _ _ _ => True)
      ((d, s), h)) :
    h.calls.length ≤ 1 ∧ (h.ended = false → h.calls = []) ∧
      (∀ (inFlight : Bool) (cmd : UInt8) (payload : List UInt8),
        (∃ reply, (i2cSlaveWriteEnd hal inFlight d s).2.2 = some ⟨cmd, payload, reply⟩) ↔
          h.ended = false ∧ h.received.take maxFrameBytes = i2cEnvelope cmd payload) ∧
      (h.ended = true → s.txNextByte.2 = 0xFF ∨
        ∃ env i, ((∃ c ∈ h.calls, ∃ st p, c.reply = some (st, p) ∧
            env = i2cReplyEnvelope st.code p) ∨ env = I2cSlave.noPendingEnvelope) ∧
          s.txNextByte.1.tx = env ∧ s.txNextByte.1.cursor = i + 1 ∧
          env[i]? = some s.txNextByte.2) := by
  have ok : WriteOk s h := by
    apply Reach.invariant (I := fun y : (Device σ × I2cSlave) × WriteHistory => WriteOk y.1.2 y.2)
      ?_ ?_ hr
    · rintro ⟨⟨d, s⟩, h⟩ ⟨rfl, rfl⟩
      exact .start .init
    · rintro ⟨x, h⟩ e ⟨x', h'⟩ - ok hs -
      obtain ⟨hstep, hh⟩ := withHistory_eq_some.mp hs
      simp only at hstep hh
      rw [hh]
      exact ok.step hstep
  refine ⟨ok.once, ok.fresh, fun inFlight cmd payload => ?_, fun hend => ?_⟩
  · rw [i2cSlaveWriteEnd_call, ok.decided]
    refine and_congr_right fun hend => ?_
    rw [ok.retained hend]
  · rcases s.txNextByte_spec with hidle | ⟨i, hbyte, hcur⟩
    · exact .inl hidle
    · rcases ok.txNextByte.staged hend with hcall | hsent | hnil
      · obtain ⟨c, hc, st, p, hreply, htx⟩ := hcall
        refine .inr ⟨_, i, .inl ⟨c, hc, st, p, hreply, rfl⟩, htx, hcur, ?_⟩
        rw [← htx]
        exact hbyte
      · refine .inr ⟨_, i, .inr rfl, hsent, hcur, ?_⟩
        rw [← hsent]
        exact hbyte
      · rw [hnil] at hbyte
        cases hbyte

/-- A PING, the addressed read that follows it, and the STOP at its end. -/
def pingEvents : List (I2cEvent Unit) :=
  .writeStart :: (i2cEnvelope 0x00 []).map .rxByte ++
    [.writeEnd false, .txNextByte, .txNextByte, .txNextByte, .writeEnd false]

lemma pingEvents_ends : (run (withHistory (i2cStep .stub) (writeHistoryUpd .stub))
    (fun _ _ _ => true) ((restDevice, .init), .start) pingEvents).any
    (fun y => y.2.ended && y.2.calls.length == 1) = true := by
  decide +kernel

/-- The PING is dispatched once, and the STOP at its end does not dispatch it again. -/
theorem i2c_dispatch_once_ping : ∃ (d : Device Unit) (s : I2cSlave) (h : WriteHistory),
    Reach (withHistory (i2cStep .stub) (writeHistoryUpd .stub)) I2cStart (fun _ _ _ => True)
      ((d, s), h) ∧ h.calls.length = 1 ∧
    ∀ inFlight cmd payload reply,
      (i2cSlaveWriteEnd .stub inFlight d s).2.2 ≠ some ⟨cmd, payload, reply⟩ := by
  have hinit : Reach (withHistory (i2cStep .stub) (writeHistoryUpd .stub)) I2cStart
      (fun _ _ _ => True) ((restDevice, .init), .start) := .start ⟨rfl, rfl⟩
  obtain ⟨⟨⟨d, s⟩, h⟩, hr, hq⟩ := hinit.exists_of_run _ _ _ (fun _ _ _ _ => trivial) pingEvents_ends
  simp only [Bool.and_eq_true, beq_iff_eq] at hq
  refine ⟨d, s, h, hr, hq.2, fun inFlight cmd payload reply hcall => ?_⟩
  have hfirst := ((i2c_dispatch_once .stub hr).2.2.1 inFlight cmd payload).mp ⟨reply, hcall⟩
  rw [hq.1] at hfirst
  cases hfirst.1

end Gd32Bridge
