import Gd32Bridge.Lib.Transition
import Gd32Bridge.Protocol.Properties
import Gd32Bridge.Protocol.Replies
import Gd32Bridge.Transport.Spi

/-!
# The staged SPI reply and its stamp

SPI transactions, transport errors and I2C requests in any order, with anything else happening to
the device in between.  The history of a run logs what has been staged and what has been decoded,
and counts the drains in a row.
-/

namespace Gd32Bridge

open Transition

/-! ### Serving the staged reply -/

/-- `BRIDGE_SPI_DMA_BUF_LEN` -/
def spiDmaBufLen : ℕ := 72

/-- The loop of `hal/transport_hw_gd32.c` that moves at most `n` staged bytes into the transmit
buffer of the next transaction. -/
def SpiSlave.armTx : ℕ → SpiSlave → SpiSlave × List UInt8
  | 0, s => (s, [])
  | n + 1, s =>
    if s.txPending then
      match s.txNextByte with
      | (s', b) =>
        match armTx n s' with
        | (s'', bs) => (s'', b :: bs)
    else (s, [])

/-- The loop moves the staged bytes from the cursor on. -/
lemma SpiSlave.armTx_bytes (n : ℕ) (s : SpiSlave) :
    (s.armTx n).2 = (s.tx.drop s.cursor).take n := by
  induction n generalizing s with
  | zero => rfl
  | succ n ih =>
    by_cases hlt : s.cursor < s.tx.length
    · have hnext : s.txNextByte = ({ s with cursor := s.cursor + 1 }, s.tx.getD s.cursor 0xFF) :=
        if_pos hlt
      have hpend : s.txPending = true := decide_eq_true hlt
      simp only [armTx, hpend, if_true, hnext, ih]
      rw [List.drop_eq_getElem_cons hlt, List.take_succ_cons, List.getD_eq_getElem _ _ hlt]
    · have hpend : s.txPending = false := decide_eq_false hlt
      simp only [armTx, hpend, Bool.false_eq_true, if_false]
      rw [List.drop_of_length_le (Nat.le_of_not_lt hlt), List.take_nil]

/-! ### The system -/

variable {σ : Type}

/-- What can happen at the SPI slave and to the device behind it. -/
inductive SpiSeam (σ : Type)
  | transaction (inFlight : Bool) (bs : List UInt8)
  | transportError
  | txNextByte
  | i2cRequest (inFlight : Bool) (cmd : UInt8) (payload : List UInt8)
  /-- anything else that happens to the device -/
  | other (d : Device σ)

/-- The device and the SPI slave in front of it; `none` is a handler that does not return.  Only
the handlers of LINK_FEATURES write `link_features`. -/
def spiStep (hal : Hal σ) : Device σ × SpiSlave → SpiSeam σ → Option (Device σ × SpiSlave)
  | (d, s), .transaction inFlight bs =>
    match spiTransaction hal inFlight bs d s with
    | (_, _, .lost _ _) => none
    | (d', s', _) => some (d', s')
  | (d, s), .transportError => some (d, s.transportError d.links.spi)
  | (d, s), .txNextByte => some (d, s.txNextByte.1)
  | (d, s), .i2cRequest inFlight cmd payload =>
    match protocolDispatch hal inFlight .i2c cmd d payload maxPayloadBytes with
    | (d', .reply _ _) => some (d', s)
    | _ => none
  | (d, s), .other d' => if d'.links = d.links then some (d', s) else none

/-- The capture of a transaction holds nothing or zeros only. -/
def drained (bs : List UInt8) : Bool :=
  (bs.take maxFrameBytes).all (· == 0)

/-- What the event has staged: the status and the payload of the envelope. -/
def SpiEvent.staged : SpiEvent → Option (Status × List UInt8)
  | failed => some (.io, [])
  | replied _ _ st reply => some (st, reply)
  | _ => none

/-- The log of a run. -/
structure StageHistory where
  /-- status and payload of everything staged -/
  staged : List (Status × List UInt8)
  /-- the requests decoded -/
  decoded : List (UInt8 × List UInt8)
  /-- the number of drained transactions in a row -/
  drains : ℕ

namespace StageHistory

def start : StageHistory := ⟨[], [], 0⟩

def note (h : StageHistory) (ev : SpiEvent) (drain : Bool) : StageHistory :=
  ⟨h.staged ++ ev.staged.toList, h.decoded ++ ev.call.toList, if drain then h.drains + 1 else 0⟩

end StageHistory

def stageHistoryUpd (hal : Hal σ) (h : StageHistory) (x : Device σ × SpiSlave) (l : SpiSeam σ)
    (_ : Device σ × SpiSlave) : StageHistory :=
  match l with
  | .transaction inFlight bs => h.note (spiTransaction hal inFlight bs x.1 x.2).2.2 (drained bs)
  | .transportError => h.note .failed false
  | _ => h

/-- The transport as `transport_spi_init` leaves it, on any device with no feature armed. -/
def SpiStart (x : (Device σ × SpiSlave) × StageHistory) : Prop :=
  x.1.1.links = ⟨0, 0⟩ ∧ x.1.2 = .init ∧ x.2 = .start

/-- `STATUS_SEQ` is armed on the SPI link. -/
def StampArmed (d : Device σ) : Prop :=
  SpiSlave.stamps d.links.spi = true

/-- The stamp nibble of a staged buffer. -/
def stampOf (tx : List UInt8) : ℕ :=
  (tx.getD 1 0 >>> 4).toNat

/-- A staged buffer, by what has staged it: nothing, or one envelope with its status in the low
nibble. -/
def StagedAs (tx : List UInt8) : Option (Status × List UInt8) → Prop
  | none => tx = []
  | some (st, p) => ∃ code, tx = spiEnvelope code p ∧ p.length ≤ maxPayloadBytes ∧
      code &&& 0x0F = st.code

lemma StagedAs.length_le {tx : List UInt8} {o : Option (Status × List UInt8)} (h : StagedAs tx o) :
    tx.length ≤ maxFrameBytes := by
  cases o with
  | none =>
    rw [show tx = [] from h]
    exact Nat.zero_le _
  | some a =>
    obtain ⟨st, p⟩ := a
    obtain ⟨code, rfl, hp, -⟩ := h
    rw [spiEnvelope_length]
    simp only [maxFrameBytes, maxPayloadBytes] at hp ⊢
    omega

/-! ### One step -/

/-- What a step does to the staged reply, with the features of the SPI link before and after: it
keeps the bytes and the counter, or stages an envelope. -/
inductive StageRule (s : SpiSlave) (f f' : UInt8) : Option (Status × List UInt8) → SpiSlave → Prop
  | kept {s' : SpiSlave} (htx : s'.tx = s.tx) (hseq : s'.seq = s.seq) (hf : f' = f) :
      StageRule s f f' none s'
  | staged {s₀ s' : SpiSlave} {st : Status} {p : List UInt8} (hseq : s₀.seq = s.seq)
      (hst : st ≠ .noPending) (hp : p.length ≤ maxPayloadBytes)
      (hs : s' = s₀.stageReply f' st p) : StageRule s f f' (some (st, p)) s'

/-- A request on I2C does not reach the features of the SPI link. -/
lemma protocolDispatch_i2c_spi (hal : Hal σ) (inFlight : Bool) (cmd : UInt8) (d : Device σ)
    (req : List UInt8) (cap : ℕ) :
    (protocolDispatch hal inFlight .i2c cmd d req cap).1.links.spi = d.links.spi := by
  cases inFlight with
  | true => rfl
  | false =>
    rcases (protocolDispatch_frame hal .i2c cmd d req cap).2 with hsame | ⟨v, hset⟩
    · rw [hsame]
    · rw [hset]
      rfl

/-- A buffer decodes to a drain when it holds nothing but zeros. -/
lemma spiDecode_eq_drain {rx : List UInt8} :
    spiDecode rx = .drain ↔ rx.all (· == 0) = true := by
  have hany : rx.any (· != 0) = !rx.all (· == 0) := by simp [List.not_all_eq_any_not, bne]
  cases rx with
  | nil => exact ⟨fun _ => rfl, fun _ => rfl⟩
  | cons b rx =>
    have hlen : ¬ (b :: rx).length = 0 := by simp
    have hhead : (b :: rx).getD 0 0 = b := rfl
    simp only [spiDecode, if_neg hlen, hhead]
    by_cases hb : b = sof
    · -- a leading `SOF` is no zero, and the buffer is a request or malformed
      have hall : (b :: rx).all (· == 0) = false := by
        rw [hb]
        rfl
      simp only [hb, ne_eq, not_true_eq_false, if_false]
      rw [← hb, hall]
      split_ifs <;> simp
    · simp only [ne_eq, hb, not_false_eq_true, if_true, hany]
      cases (b :: rx).all (· == 0) <;> simp

section

variable (hal : Hal σ) (inFlight : Bool) {bs : List UInt8} (d : Device σ) (s : SpiSlave)

/-- A drained transaction rewinds. -/
lemma spiTransaction_of_drained (h : drained bs = true) :
    spiTransaction hal inFlight bs d s =
      (d, { s with rx := RxBuf.empty.feed bs }.rewind d.links.spi) := by
  have hdec : spiDecode (RxBuf.empty.feed bs).bytes = .drain := by
    rw [RxBuf.empty_feed_bytes]
    exact spiDecode_eq_drain.mpr h
  rw [spiTransaction_eq]
  simp only [spiSlaveCsHigh, hdec]

/-- Any other transaction stages an envelope, unless its handler does not return. -/
lemma spiTransaction_of_not_drained (h : drained bs = false) {d' : Device σ} {s' : SpiSlave}
    {ev : SpiEvent} (htr : spiTransaction hal inFlight bs d s = (d', s', ev)) :
    (∃ (s₀ : SpiSlave) (st : Status) (p : List UInt8), s₀.seq = s.seq ∧ st ≠ .noPending ∧
      p.length ≤ maxPayloadBytes ∧ s' = s₀.stageReply d'.links.spi st p ∧
      ev.staged = some (st, p)) ∨
    ∃ cmd payload, ev = .lost cmd payload := by
  rw [spiTransaction_eq] at htr
  simp only [spiSlaveCsHigh] at htr
  split at htr
  · next hdec =>
    rw [RxBuf.empty_feed_bytes, spiDecode_eq_drain] at hdec
    rw [drained, hdec] at h
    cases h
  · cases htr
    exact .inl ⟨{ s with rx := RxBuf.empty.feed bs }, .io, [], rfl, by decide, Nat.zero_le _, rfl,
      rfl⟩
  · next cmd payload _ =>
    have hshape := protocolDispatch_shaped hal inFlight .spi cmd d payload maxPayloadBytes
    split at htr
    · next d₁ st reply heq =>
      rw [heq] at hshape
      cases htr
      exact .inl ⟨{ s with rx := RxBuf.empty.feed bs }, st, reply, rfl, hshape.1,
        hshape.length_le, rfl, rfl⟩
    · cases htr
      exact .inr ⟨_, _, rfl⟩
    · cases htr
      exact .inr ⟨_, _, rfl⟩

end

/-- The counter of drains in a row, modulo the length of a full ladder. -/
def StreakOk (s : SpiSlave) (h : StageHistory) : Prop :=
  s.drainStreak.toNat = h.drains % 13

/-- One more drain: the reply is served again, except that each thirteenth replaces it. -/
lemma spiTransaction_drain_spec (hal : Hal σ) (inFlight : Bool) {bs : List UInt8} (d : Device σ)
    {s : SpiSlave} {h : StageHistory} (hok : StreakOk s h) (hdr : drained bs = true) :
    ((h.drains + 1) % 13 ≠ 0 ∧ ∃ s', spiTransaction hal inFlight bs d s = (d, s', .rewound) ∧
      s'.tx = s.tx ∧ s'.seq = s.seq ∧ s'.cursor = 0 ∧
      s'.drainStreak.toNat = (h.drains + 1) % 13) ∨
    ((h.drains + 1) % 13 = 0 ∧ ∃ s₀ : SpiSlave, s₀.seq = s.seq ∧
      spiTransaction hal inFlight bs d s = (d, s₀.stageReply d.links.spi .io [], .failed)) := by
  have hlt : s.drainStreak.toNat < 13 := by
    rw [hok]
    exact Nat.mod_lt _ (by decide)
  have hsucc : (s.drainStreak + 1).toNat = s.drainStreak.toNat + 1 := by
    rw [UInt8.toNat_add]
    exact Nat.mod_eq_of_lt (by simp; omega)
  have hgt : s.drainStreak + 1 > SpiSlave.drainRewindBound ↔ (h.drains + 1) % 13 = 0 := by
    rw [gt_iff_lt, UInt8.lt_iff_toNat_lt, hsucc, hok,
      show SpiSlave.drainRewindBound.toNat = 12 from rfl]
    omega
  rw [spiTransaction_of_drained hal inFlight d s hdr]
  by_cases hlast : (h.drains + 1) % 13 = 0
  · refine .inr ⟨hlast, { s with rx := RxBuf.empty.feed bs, drainStreak := s.drainStreak + 1 }, rfl,
      ?_⟩
    rw [SpiSlave.rewind, if_pos (hgt.mpr hlast)]
    rfl
  · refine .inl ⟨hlast, { s with
      rx := RxBuf.empty.feed bs, drainStreak := s.drainStreak + 1, cursor := 0 }, ?_, rfl, rfl, rfl, ?_⟩
    · rw [SpiSlave.rewind, if_neg (mt hgt.mp hlast)]
    · rw [hsucc, hok]
      omega

/-- What one step does to the staged reply and to the log. -/
lemma StageRule.of_step {hal : Hal σ} {x x' : Device σ × SpiSlave} {l : SpiSeam σ}
    {h : StageHistory} (hok : StreakOk x.2 h) (hs : spiStep hal x l = some x') :
    ∃ new, StageRule x.2 x.1.links.spi x'.1.links.spi new x'.2 ∧
      (stageHistoryUpd hal h x l x').staged = h.staged ++ new.toList ∧
      (new = none → (stageHistoryUpd hal h x l x').decoded = h.decoded) ∧
      StreakOk x'.2 (stageHistoryUpd hal h x l x') := by
  obtain ⟨d, s⟩ := x
  cases l with
  | transaction inFlight bs =>
    simp only [spiStep] at hs
    cases hdr : drained bs with
    | true =>
      rcases spiTransaction_drain_spec hal inFlight d hok hdr with
        ⟨-, s', htr, htx, hseq, -, hstreak⟩ | ⟨hlast, s₀, hseq, htr⟩
      · rw [htr] at hs
        cases hs
        refine ⟨none, .kept htx hseq rfl, ?_, fun _ => ?_, ?_⟩
        · simp [stageHistoryUpd, StageHistory.note, htr, SpiEvent.staged]
        · simp [stageHistoryUpd, StageHistory.note, htr, SpiEvent.call]
        · simpa [StreakOk, stageHistoryUpd, StageHistory.note, hdr] using hstreak
      · rw [htr] at hs
        cases hs
        refine ⟨some (.io, []), .staged hseq (by decide) (Nat.zero_le _) rfl, ?_, fun hn => ?_, ?_⟩
        · simp [stageHistoryUpd, StageHistory.note, htr, SpiEvent.staged]
        · cases hn
        · simp [StreakOk, stageHistoryUpd, StageHistory.note, hdr, hlast, SpiSlave.stageReply]
    | false =>
      generalize htr : spiTransaction hal inFlight bs d s = y at hs
      obtain ⟨d', s', ev⟩ := y
      rcases spiTransaction_of_not_drained hal inFlight d s hdr htr with
        ⟨s₀, st, p, hseq, hst, hp, rfl, hev⟩ | ⟨cmd, payload, rfl⟩
      · have hx : x' = (d', s₀.stageReply d'.links.spi st p) := by
          cases ev with
          | rewound => cases hev
          | lost cmd payload => cases hev
          | failed => exact (Option.some.inj hs).symm
          | replied cmd payload st' reply => exact (Option.some.inj hs).symm
        subst hx
        refine ⟨some (st, p), .staged hseq hst hp rfl, ?_, fun hn => ?_, ?_⟩
        · simp [stageHistoryUpd, StageHistory.note, htr, hev]
        · cases hn
        · simp [StreakOk, stageHistoryUpd, StageHistory.note, hdr, SpiSlave.stageReply]
      · cases hs
  | transportError =>
    cases hs
    have hrule : StageRule s d.links.spi d.links.spi (some (.io, []))
        (s.transportError d.links.spi) :=
      @StageRule.staged s d.links.spi d.links.spi { s with rx := .empty } _ _ _ rfl (by decide)
        (Nat.zero_le _) rfl
    refine ⟨some (.io, []), hrule, rfl, fun hn => ?_, rfl⟩
    cases hn
  | txNextByte =>
    cases hs
    have hsame : s.txNextByte.1.tx = s.tx ∧ s.txNextByte.1.seq = s.seq ∧
        s.txNextByte.1.drainStreak = s.drainStreak := by
      simp only [SpiSlave.txNextByte]
      split_ifs <;> exact ⟨rfl, rfl, rfl⟩
    refine ⟨none, .kept hsame.1 hsame.2.1 rfl, (List.append_nil _).symm, fun _ => rfl, ?_⟩
    rw [StreakOk, hsame.2.2]
    exact hok
  | i2cRequest inFlight cmd payload =>
    simp only [spiStep] at hs
    split at hs
    · next d' st reply heq =>
      cases hs
      have hf := protocolDispatch_i2c_spi hal inFlight cmd d payload maxPayloadBytes
      rw [heq] at hf
      exact ⟨none, .kept rfl rfl hf, (List.append_nil _).symm, fun _ => rfl, hok⟩
    · cases hs
  | other d' =>
    simp only [spiStep] at hs
    split_ifs at hs with hl
    cases hs
    exact ⟨none, .kept rfl rfl (by rw [hl]), (List.append_nil _).symm, fun _ => rfl, hok⟩

/-! ### The status byte -/

/-- Every status but the sentinel fits the low nibble. -/
lemma Status.code_lt {st : Status} (h : st ≠ .noPending) : st.code.toNat < 16 := by
  cases st with
  | noPending => exact absurd rfl h
  | _ => decide

/-- A stamped status byte is its two nibbles. -/
lemma stamped_nibbles (c q : UInt8) (hc : c.toNat < 16) (hq : q.toNat < 16) :
    (c ||| q <<< 4) &&& 0x0F = c ∧ (c ||| q <<< 4) >>> 4 = q := by
  have key : ∀ c < 16, ∀ q < 16, ((UInt8.ofNat c ||| UInt8.ofNat q <<< 4) &&& 0x0F) = UInt8.ofNat c ∧
      ((UInt8.ofNat c ||| UInt8.ofNat q <<< 4) >>> 4) = UInt8.ofNat q := by decide +kernel
  simpa using key c.toNat hc q.toNat hq

lemma nextSeq_toNat (q : UInt8) : ((q + 1) &&& 0x0F).toNat = (q.toNat + 1) % 16 := by
  have key : ∀ q < 256, ((UInt8.ofNat q + 1) &&& 0x0F).toNat = (q + 1) % 16 := by decide +kernel
  simpa using key q.toNat q.toNat_lt

@[simp]
lemma stampOf_spiEnvelope (code : UInt8) (p : List UInt8) :
    stampOf (spiEnvelope code p) = (code >>> 4).toNat := rfl

lemma stampOf_lt (tx : List UInt8) : stampOf tx < 16 := by
  have hb := (tx.getD 1 0).toNat_lt
  have hdiv : stampOf tx = (tx.getD 1 0).toNat / 16 := by
    rw [stampOf, UInt8.toNat_shiftRight]
    exact Nat.shiftRight_eq_div_pow _ 4
  omega

namespace SpiSlave

variable (s : SpiSlave) {f : UInt8} {st : Status} {p : List UInt8}

/-- A staged reply carries its status. -/
lemma stageReply_stagedAs (hst : st ≠ .noPending) (hp : p.length ≤ maxPayloadBytes) :
    StagedAs (s.stageReply f st p).tx (some (st, p)) := by
  have hc := Status.code_lt hst
  have hq : ((s.seq + 1) &&& 0x0F).toNat < 16 := by
    rw [nextSeq_toNat]
    exact Nat.mod_lt _ (by decide)
  by_cases hf : stamps f = true
  · refine ⟨_, rfl, hp, ?_⟩
    simp only [if_pos hf]
    exact (stamped_nibbles _ _ hc hq).1
  · refine ⟨_, rfl, hp, ?_⟩
    simp only [if_neg hf]
    have h₀ := (stamped_nibbles _ 0 hc (by decide)).1
    simpa using h₀

/-- While the stamp is armed, staging advances the counter and stamps it. -/
lemma stageReply_stamp (hf : stamps f = true) (hst : st ≠ .noPending) :
    (s.stageReply f st p).seq.toNat = (s.seq.toNat + 1) % 16 ∧
      stampOf (s.stageReply f st p).tx = (s.seq.toNat + 1) % 16 := by
  have hc := Status.code_lt hst
  have hq : ((s.seq + 1) &&& 0x0F).toNat < 16 := by
    rw [nextSeq_toNat]
    exact Nat.mod_lt _ (by decide)
  refine ⟨?_, ?_⟩
  · simp only [stageReply, if_pos hf]
    exact nextSeq_toNat _
  · simp only [stageReply, if_pos hf, stampOf_spiEnvelope]
    rw [(stamped_nibbles _ _ hc hq).2]
    exact nextSeq_toNat _

end SpiSlave

/-! ### Whole runs -/

/-- The staged buffer, the counters and the log agree. -/
structure StageOk (x : Device σ × SpiSlave) (h : StageHistory) : Prop where
  staged : StagedAs x.2.tx h.staged.getLast?
  streak : StreakOk x.2 h
  stamp : StampArmed x.1 → stampOf x.2.tx = x.2.seq.toNat

lemma StageOk.start {x : Device σ × SpiSlave} {h : StageHistory} (hx : SpiStart (x, h)) :
    StageOk x h := by
  obtain ⟨d, s⟩ := x
  obtain ⟨hl, rfl, rfl⟩ := hx
  exact ⟨rfl, rfl, fun _ => by simp [stampOf, SpiSlave.init]⟩

lemma StageOk.step {hal : Hal σ} {x x' : Device σ × SpiSlave} {l : SpiSeam σ} {h : StageHistory}
    (ok : StageOk x h) (hs : spiStep hal x l = some x') :
    StageOk x' (stageHistoryUpd hal h x l x') := by
  obtain ⟨new, hrule, hlog, -, hstreak⟩ := StageRule.of_step ok.streak hs
  refine ⟨?_, hstreak, fun harm => ?_⟩
  · rw [hlog]
    cases hrule with
    | kept htx hseq hf =>
      rw [htx, Option.toList_none, List.append_nil]
      exact ok.staged
    | staged hseq hst hp hs' =>
      rw [hs', Option.toList_some, List.getLast?_concat]
      exact SpiSlave.stageReply_stagedAs _ hst hp
  · cases hrule with
    | kept htx hseq hf =>
      rw [StampArmed, hf] at harm
      rw [htx, hseq]
      exact ok.stamp harm
    | staged hseq hst hp hs' =>
      obtain ⟨hnext, hstamp⟩ := SpiSlave.stageReply_stamp _ harm hst
      rw [hs', hnext, hstamp]

/-- The system with its log. -/
abbrev stageSystem (hal : Hal σ) :=
  withHistory (spiStep hal) (stageHistoryUpd hal)

lemma StageOk.of_reach {hal : Hal σ} {y : (Device σ × SpiSlave) × StageHistory}
    (hr : Reach (stageSystem hal) SpiStart (fun _ _ _ => True) y) : StageOk y.1 y.2 := by
  apply Reach.invariant (I := fun y : (Device σ × SpiSlave) × StageHistory => StageOk y.1 y.2)
    ?_ ?_ hr
  · rintro ⟨x, h⟩ hx
    exact .start hx
  · rintro ⟨x, h⟩ l ⟨x', h'⟩ - ok hs -
    obtain ⟨hstep, hh⟩ := withHistory_eq_some.mp hs
    simp only at hstep hh
    rw [hh]
    exact ok.step hstep

/-- The stamp along a run that stays armed, from a state `x` on: it counts what was staged since. -/
structure StampedSince (x y : (Device σ × SpiSlave) × StageHistory)
    (new : List (Status × List UInt8)) : Prop where
  log : y.2.staged = x.2.staged ++ new
  stamp : stampOf y.1.2.tx = (stampOf x.1.2.tx + new.length) % 16
  quiet : new = [] → y.1.2.tx = x.1.2.tx ∧ y.2.decoded = x.2.decoded

lemma StampedSince.step {hal : Hal σ} {x y z : (Device σ × SpiSlave) × StageHistory}
    {l : SpiSeam σ} {new : List (Status × List UInt8)} (hsince : StampedSince x y new)
    (ok : StageOk y.1 y.2) (hy : StampArmed y.1.1) (hz : StampArmed z.1.1)
    (hs : stageSystem hal y l = some z) : ∃ new', StampedSince x z new' := by
  obtain ⟨hstep, hh⟩ := withHistory_eq_some.mp hs
  obtain ⟨more, hrule, hlog, hdec, -⟩ := StageRule.of_step ok.streak hstep
  rw [← hh] at hlog hdec
  refine ⟨new ++ more.toList, ?_, ?_, fun hnil => ?_⟩
  · rw [hlog, hsince.log, List.append_assoc]
  · cases hrule with
    | kept htx hseq hf =>
      rw [htx, hsince.stamp, Option.toList_none, List.append_nil]
    | staged hseq hst hp hs' =>
      rw [hs', (SpiSlave.stageReply_stamp _ hz hst).2, hseq, ← ok.stamp hy, hsince.stamp,
        Option.toList_some, List.length_append, List.length_singleton, Nat.mod_add_mod,
        Nat.add_assoc]
  · obtain ⟨hnew, hmore⟩ := List.append_eq_nil_iff.mp hnil
    have hnone : more = none := by
      cases more with
      | none => rfl
      | some a => cases hmore
    subst hnone
    have hq := hsince.quiet hnew
    cases hrule with
    | kept htx hseq hf => exact ⟨htx.trans hq.1, (hdec rfl).trans hq.2⟩

/-- From an armed state on, as long as the run stays armed. -/
lemma StampedSince.of_reach {hal : Hal σ} {x y : (Device σ × SpiSlave) × StageHistory}
    (okx : StageOk x.1 x.2) (hx : StampArmed x.1.1)
    (hr : Reach (stageSystem hal) (fun z => z = x) (fun _ _ z => StampArmed z.1.1) y) :
    ∃ new, StampedSince x y new := by
  have hall : StageOk y.1 y.2 ∧ StampArmed y.1.1 ∧ ∃ new, StampedSince x y new := by
    apply Reach.invariant (I := fun y => StageOk y.1 y.2 ∧ StampArmed y.1.1 ∧
      ∃ new, StampedSince x y new) ?_ ?_ hr
    · rintro z rfl
      refine ⟨okx, hx, [], ?_, ?_, fun _ => ⟨rfl, rfl⟩⟩
      · rw [List.append_nil]
      · exact (Nat.mod_eq_of_lt (stampOf_lt _)).symm
    · rintro y l z - ⟨ok, hy, new, hsince⟩ hs hz
      obtain ⟨hstep, hh⟩ := withHistory_eq_some.mp hs
      refine ⟨?_, hz, hsince.step ok hy hz hs⟩
      rw [hh]
      exact ok.step hstep
  exact hall.2.2

/-- In every run: the staged buffer is empty or the envelope of what was staged last; a drained
transaction serves it again from the first byte, except that the thirteenth in a row, and each
thirteenth after it, puts the `STATUS_IO` envelope in its place; while the stamp is armed it counts
the envelopes staged modulo 16, so that with fewer than 16 of them an unchanged stamp says that
nothing was staged and nothing decoded; and a request on I2C leaves the slave and the features of
the SPI link as they are. -/
theorem spi_staging (hal : Hal σ) {d : Device σ} {s : SpiSlave} {h : StageHistory}
    (hr : Reach (stageSystem hal) SpiStart (fun _ _ _ => True) ((d, s), h)) :
    StagedAs s.tx h.staged.getLast? ∧
    (∀ inFlight bs, drained bs = true → (h.drains + 1) % 13 ≠ 0 →
      ∃ s', spiTransaction hal inFlight bs d s = (d, s', .rewound) ∧ s'.tx = s.tx ∧
        s'.seq = s.seq ∧ (s'.armTx spiDmaBufLen).2 = s.tx) ∧
    (∀ inFlight bs, drained bs = true → (h.drains + 1) % 13 = 0 →
      ∃ s', spiTransaction hal inFlight bs d s = (d, s', .failed) ∧ s'.tx.length = 4 ∧
        StagedAs s'.tx (some (.io, []))) ∧
    (∀ y, StampArmed d → Reach (stageSystem hal) (fun z => z = ((d, s), h)) (fun _ _ z => StampArmed z.1.1) y →
      ∃ new, y.2.staged = h.staged ++ new ∧
        stampOf y.1.2.tx = (stampOf s.tx + new.length) % 16 ∧
        (new = [] → y.1.2.tx = s.tx ∧ y.2.decoded = h.decoded) ∧
        (new.length < 16 → stampOf y.1.2.tx = stampOf s.tx → new = [])) ∧
    (∀ inFlight cmd payload x', spiStep hal (d, s) (.i2cRequest inFlight cmd payload) = some x' →
      x'.2 = s ∧ x'.1.links.spi = d.links.spi) := by
  have ok : StageOk (d, s) h := StageOk.of_reach hr
  refine ⟨ok.staged, fun inFlight bs hdr hlast => ?_, fun inFlight bs hdr hlast => ?_,
    fun y harm hy => ?_, fun inFlight cmd payload x' hs => ?_⟩
  · rcases spiTransaction_drain_spec hal inFlight d ok.streak hdr with
      ⟨-, s', htr, htx, hseq, hcur, -⟩ | ⟨hlast', -⟩
    · refine ⟨s', htr, htx, hseq, ?_⟩
      rw [SpiSlave.armTx_bytes, hcur, htx, List.drop_zero]
      exact List.take_of_length_le (ok.staged.length_le.trans (by decide))
    · exact absurd hlast' hlast
  · rcases spiTransaction_drain_spec hal inFlight d ok.streak hdr with
      ⟨hlast', -⟩ | ⟨-, s₀, -, htr⟩
    · exact absurd hlast hlast'
    · exact ⟨_, htr, spiEnvelope_length _ _,
        SpiSlave.stageReply_stagedAs _ (by decide) (Nat.zero_le _)⟩
  · obtain ⟨new, hsince⟩ := StampedSince.of_reach ok harm hy
    refine ⟨new, hsince.log, hsince.stamp, hsince.quiet, fun hlt hsame => ?_⟩
    have hstamp := hsince.stamp
    have hbound := stampOf_lt s.tx
    rw [hsame] at hstamp
    exact List.length_eq_zero_iff.mp (by simp only at hstamp; omega)
  · simp only [spiStep] at hs
    split at hs
    · next d' st reply heq =>
      cases hs
      have hf := protocolDispatch_i2c_spi hal inFlight cmd d payload maxPayloadBytes
      rw [heq] at hf
      exact ⟨rfl, hf⟩
    · cases hs

/-- A LINK_FEATURES request that arms the stamp, and a drain. -/
def armEvents : List (SpiSeam Unit) :=
  [.transaction false (spiEnvelope 0x81 [1]), .transaction false [0, 0, 0, 0, 0]]

lemma armEvents_ends : (run (stageSystem .stub) (fun _ _ _ => true) ((restDevice, .init), .start)
    armEvents).any (fun y => SpiSlave.stamps y.1.1.links.spi && y.2.drains == 1 &&
      stampOf y.1.2.tx == 1) = true := by
  decide +kernel

/-- After the request the stamp is 1, and the next drain serves its reply again. -/
theorem spi_staging_armed : ∃ (d : Device Unit) (s : SpiSlave) (h : StageHistory),
    Reach (stageSystem .stub) SpiStart (fun _ _ _ => True) ((d, s), h) ∧ StampArmed d ∧
      stampOf s.tx = 1 ∧ ∃ s', spiTransaction .stub false [] d s = (d, s', .rewound) ∧
        (s'.armTx spiDmaBufLen).2 = s.tx := by
  have hinit : Reach (stageSystem .stub) SpiStart (fun _ _ _ => True)
      ((restDevice, .init), .start) := .start ⟨rfl, rfl, rfl⟩
  obtain ⟨⟨⟨d, s⟩, h⟩, hr, hq⟩ := hinit.exists_of_run _ _ _ (fun _ _ _ _ => trivial) armEvents_ends
  simp only [Bool.and_eq_true, beq_iff_eq] at hq
  obtain ⟨⟨harm, hdrains⟩, hstamp⟩ := hq
  obtain ⟨s', htr, -, -, hserve⟩ := (spi_staging .stub hr).2.1 false [] rfl (by rw [hdrains]; decide)
  exact ⟨d, s, h, hr, harm, hstamp, s', htr, hserve⟩

end Gd32Bridge
