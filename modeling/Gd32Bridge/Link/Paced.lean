import Gd32Bridge.Lib.Transition
import Gd32Bridge.Lib.Padded
import Gd32Bridge.Link.SpiDma

/-!
# The SPI link refines the portable transport

The host waits for each edge of the chip select to be served and the hardware is healthy: it keeps
pace with the clock and every channel stops when told to.  Then each pulse of the chip select is
one `spiTransaction` on the bytes clocked in it, and what the host reads meanwhile is the reply
staged before, followed by zeros.  A pulse longer than what the buffer and the FIFO hold is an
overrun and takes the error seam.
-/

namespace Gd32Bridge

open Transition

variable {σ : Type}

/-! ### Line 8 -/

lemma csPending_eq (pd : UInt32) : csPending pd = pd.toBitVec.getLsbD 8 := by
  have hbit : (pd &&& extiLine8).toBitVec =
      if pd.toBitVec.getLsbD 8 then BitVec.twoPow 32 8 else 0#32 := by
    rw [UInt32.toBitVec_and, show extiLine8.toBitVec = BitVec.twoPow 32 8 by decide,
      BitVec.and_twoPow]
  cases hget : pd.toBitVec.getLsbD 8 with
  | false =>
    rw [hget] at hbit
    have hz : pd &&& extiLine8 = 0 := UInt32.toBitVec_inj.mp hbit
    rw [csPending, hz]
    rfl
  | true =>
    rw [hget] at hbit
    have hset : pd &&& extiLine8 = extiLine8 := UInt32.toBitVec_inj.mp hbit
    rw [csPending, hset]
    rfl

@[simp]
lemma csPending_edge (pd : UInt32) : csPending (pd ||| extiLine8) = true := by
  rw [csPending_eq]
  simp [extiLine8]

@[simp]
lemma csPending_line (pd mask : UInt32) :
    csPending (pd ||| (mask &&& (extiGroup &&& ~~~extiLine8))) = csPending pd := by
  rw [csPending_eq, csPending_eq]
  simp [extiLine8, extiGroup]

@[simp]
lemma csPending_group (pd : UInt32) : csPending (pd &&& extiGroup) = csPending pd := by
  rw [csPending_eq, csPending_eq]
  simp [extiGroup]

@[simp]
lemma csPending_clear (pd group : UInt32) :
    csPending (pd &&& ~~~group) = (csPending pd && !csPending group) := by
  rw [csPending_eq, csPending_eq, csPending_eq]
  simp

/-! ### Transfers -/

/-- One pulse of the chip select: the bytes the host has clocked out and in, the slave before it,
the device at the decode, and what both are afterwards. -/
structure Transfer (σ : Type) where
  mosi : List UInt8
  miso : List UInt8
  before : SpiSlave
  inFlight : Bool
  dev : Device σ
  dev' : Device σ
  after : SpiSlave

/-- What RX can take in: the buffer and the FIFO. -/
def spiCaptureMax : ℕ := spiDmaBufLen + spiFifoFrames

/-- The host has read the staged reply, and the firmware has made one transaction of the bytes,
whose reply it has moved into the transmit buffer. -/
structure Transfer.Ok (hal : Hal σ) (t : Transfer σ) : Prop where
  served : t.miso = t.before.tx.takeD t.mosi.length 0
  taken : t.mosi.length ≤ spiCaptureMax →
    ∃ s ev, spiTransaction hal t.inFlight t.mosi t.dev t.before = (t.dev', s, ev) ∧
      (∀ cmd payload, ev ≠ .lost cmd payload) ∧ t.after = (s.armTx spiDmaBufLen).1
  overrun : spiCaptureMax < t.mosi.length →
    t.dev' = t.dev ∧
      t.after = ((t.before.transportError t.dev.links.spi).armTx spiDmaBufLen).1

/-- Transfers one after the other: each finds the slave as the one before has left it. -/
inductive Transfers (hal : Hal σ) (s : SpiSlave) : List (Transfer σ) → SpiSlave → Prop
  | none : Transfers hal s [] s
  | snoc {ts : List (Transfer σ)} {t : Transfer σ} (h : Transfers hal s ts t.before)
      (ok : t.Ok hal) : Transfers hal s (ts ++ [t]) t.after

/-- The transfers so far, and the one under way. -/
structure LinkHistory (σ : Type) where
  mosi : List UInt8
  miso : List UInt8
  before : SpiSlave
  done : List (Transfer σ)

/-- A falling edge that is served begins a transfer; the decode or the error seam ends it. -/
def linkUpd (h : LinkHistory σ) (s : SpiHw σ) (l : SpiHwLabel σ) (s' : SpiHw σ) : LinkHistory σ :=
  match l with
  | .clock b => { h with mosi := h.mosi ++ [b], miso := h.miso ++ [s.txFifo.headD 0] }
  | .handler _ _ inFlight =>
    match s.pc, s'.pc with
    | .selected _, _ => { h with mosi := [], miso := [], before := s.slave }
    | .decoding _, _ =>
      { h with
        done := h.done ++ [⟨h.mosi, h.miso, h.before, inFlight, s.dev, s'.dev, s'.slave⟩] }
    | .quiesced _, .failing _ _ =>
      { h with
        done := h.done ++ [⟨h.mosi, h.miso, h.before, inFlight, s.dev, s'.dev, s'.slave⟩] }
    | _, _ => h
  | _ => h

/-- `CHEN` reads back clear in time. -/
def confirms (reads : List Bool) : Bool :=
  (reads.take spiDmaDisableSpins).any (!·)

/-- The host moves the chip select and clocks bytes only while every edge has been served. -/
def HostPaced (s : SpiHw σ) : SpiHwLabel σ → Prop
  | .cs _ | .clock _ => s.pc = .idle ∧ csPending s.pd = false
  | _ => True

/-- The hardware is healthy and keeps pace: no transfer fails, a channel stops when it is told to
and not on its own later on, and at each byte the FIFOs are served as far as the channels go. -/
def HardwarePaced (s : SpiHw σ) : SpiHwLabel σ → Prop
  | .clock _ => (s.rxFifo.length < spiFifoFrames ∨ s.rx.count = 0) ∧
      (s.txFifo ≠ [] ∨ s.tx.enabled = false ∨ s.tx.count = 0)
  | .fault _ | .stops _ => False
  | .handler reads reads' _ => confirms reads = true ∧ confirms reads' = true
  | _ => True

instance (s : SpiHw σ) (l : SpiHwLabel σ) : Decidable (HostPaced s l) :=
  match l with
  | .cs _ | .clock _ => inferInstanceAs (Decidable (_ ∧ _))
  | .fault _ | .stops _ | .handler _ _ _ | .line _ | .beat _ | .dmaIrq _ | .other _ =>
    instDecidableTrue

instance (s : SpiHw σ) (l : SpiHwLabel σ) : Decidable (HardwarePaced s l) :=
  match l with
  | .clock _ | .handler _ _ _ => inferInstanceAs (Decidable (_ ∧ _))
  | .fault _ | .stops _ => instDecidableFalse
  | .cs _ | .line _ | .beat _ | .dmaIrq _ | .other _ => instDecidableTrue

/-- A host that waits for its edges to be served, on healthy hardware that keeps pace. -/
def Paced (x : SpiHw σ × LinkHistory σ) (l : SpiHwLabel σ) (_ : SpiHw σ × LinkHistory σ) : Prop :=
  HostPaced x.1 l ∧ HardwarePaced x.1 l

instance (x y : SpiHw σ × LinkHistory σ) (l : SpiHwLabel σ) : Decidable (Paced x l y) :=
  inferInstanceAs (Decidable (_ ∧ _))

/-- The link as it comes up, with the chip select released. -/
def LinkStart (x : SpiHw σ × LinkHistory σ) : Prop :=
  (∃ reads d, x.1 = .init reads true d) ∧ x.2 = ⟨[], [], .init, []⟩

/-! ### Replies -/

/-- A reply that fits is moved as a whole. -/
lemma SpiSlave.armTx_whole {s : SpiSlave} (n : ℕ) (hcur : s.cursor = 0) (hlen : s.tx.length ≤ n) :
    s.armTx n = ({ s with cursor := s.tx.length }, s.tx) := by
  have hstate : ∀ (n : ℕ) (s : SpiSlave), s.cursor ≤ s.tx.length → s.tx.length ≤ s.cursor + n →
      (s.armTx n).1 = { s with cursor := s.tx.length } := by
    intro n
    induction n with
    | zero =>
      intro s hle hge
      have hcur : s.cursor = s.tx.length := le_antisymm hle hge
      rw [← hcur]
      rfl
    | succ n ih =>
      intro s hle hge
      by_cases hlt : s.cursor < s.tx.length
      · have hnext : s.txNextByte = ({ s with cursor := s.cursor + 1 }, s.tx.getD s.cursor 0xFF) :=
          if_pos hlt
        have hpend : s.txPending = true := decide_eq_true hlt
        simp only [armTx, hpend, if_true, hnext]
        exact ih { s with cursor := s.cursor + 1 } hlt
          (show s.tx.length ≤ s.cursor + 1 + n by omega)
      · have hpend : s.txPending = false := decide_eq_false hlt
        have hcur : s.cursor = s.tx.length := le_antisymm hle (Nat.le_of_not_lt hlt)
        simp only [armTx, hpend, Bool.false_eq_true, if_false]
        rw [← hcur]
  refine Prod.ext (hstate n s (by omega) (by omega)) ?_
  show (s.armTx n).2 = s.tx
  rw [SpiSlave.armTx_bytes, hcur, List.drop_zero, List.take_of_length_le hlen]

/-- A transaction leaves a reply that fits, with the cursor at its start. -/
lemma spiTransaction_staged {hal : Hal σ} {inFlight : Bool} {bs : List UInt8} {d d' : Device σ}
    {s s' : SpiSlave} {ev : SpiEvent} (htr : spiTransaction hal inFlight bs d s = (d', s', ev))
    (hev : ∀ cmd payload, ev ≠ .lost cmd payload) (hlen : s.tx.length ≤ maxFrameBytes) :
    s'.cursor = 0 ∧ s'.tx.length ≤ maxFrameBytes := by
  have henv : ∀ (s₀ : SpiSlave) (f : UInt8) (st : Status) (p : List UInt8),
      p.length ≤ maxPayloadBytes → (s₀.stageReply f st p).tx.length ≤ maxFrameBytes := by
    intro s₀ f st p hp
    simp only [SpiSlave.stageReply, spiEnvelope_length, maxFrameBytes]
    omega
  cases hdr : drained bs with
  | true =>
    rw [spiTransaction_of_drained hal inFlight d s hdr] at htr
    simp only [SpiSlave.rewind] at htr
    split_ifs at htr
    · cases htr
      exact ⟨rfl, henv _ _ _ _ (Nat.zero_le _)⟩
    · cases htr
      exact ⟨rfl, hlen⟩
  | false =>
    rcases spiTransaction_of_not_drained hal inFlight d s hdr htr with
      ⟨s₀, st, p, -, -, hp, rfl, -⟩ | ⟨cmd, payload, hlost⟩
    · exact ⟨rfl, henv _ _ _ _ hp⟩
    · exact absurd hlost (hev cmd payload)

/-- The portable buffer sees no difference between a transaction and its capture. -/
lemma spiTransaction_capture {hal : Hal σ} {inFlight : Bool} {bs : List UInt8} {d : Device σ}
    {s : SpiSlave} :
    spiSlaveCsHigh hal inFlight d { s with rx := RxBuf.empty.feed (bs.take spiDmaBufLen) } =
      spiTransaction hal inFlight bs d s := by
  have hfeed : RxBuf.empty.feed (bs.take spiDmaBufLen) = RxBuf.empty.feed bs := by
    have hbytes : (RxBuf.empty.feed (bs.take spiDmaBufLen)).bytes = (RxBuf.empty.feed bs).bytes := by
      rw [RxBuf.empty_feed_bytes, RxBuf.empty_feed_bytes, List.take_take]
      rfl
    generalize RxBuf.empty.feed (bs.take spiDmaBufLen) = r, RxBuf.empty.feed bs = r' at hbytes
    cases r
    cases r'
    cases hbytes
    rfl
  rw [hfeed, spiTransaction_eq]

/-! ### The phases of a transfer -/

namespace SpiHw

/-- The bytes captured, in the buffer and in the FIFO. -/
def captured (s : SpiHw σ) : List UInt8 :=
  s.rxBuf.take s.rx.addr ++ s.rxFifo

/-- The bytes on their way out, in the FIFO and in the buffer. -/
def outgoing (s : SpiHw σ) : List UInt8 :=
  s.txFifo ++ if s.tx.enabled then (s.txBuf.drop s.tx.addr).take s.tx.count else []

/-- Nothing captured, and the staged reply ready to go out. -/
structure Rest (s : SpiHw σ) (base : SpiSlave) : Prop where
  slave : s.slave = base
  fifo : s.rxFifo = []
  overrun : s.overrun = false
  out : s.outgoing = base.tx

/-- A transfer under way: the bytes clocked so far are captured as far as they fit, and the reply
has moved on by as many. -/
structure Open (s : SpiHw σ) (base : SpiSlave) (h : LinkHistory σ) : Prop where
  slave : s.slave = base.csLow
  before : h.before = base
  read : h.miso = base.tx.takeD h.mosi.length 0
  bytes : s.captured = h.mosi.take spiCaptureMax
  overrun : s.overrun = decide (spiCaptureMax < h.mosi.length)

/-- The next reply is staged in `spi_tx_dma_buf`, TX not armed. -/
structure Staged (s : SpiHw σ) (base : SpiSlave) (n : ℕ) : Prop where
  slave : s.slave = base
  fifo : s.rxFifo = []
  overrun : s.overrun = false
  txFifo : s.txFifo = []
  txOff : s.tx.enabled = false
  len : n = base.tx.length
  buf : s.txBuf.take n = base.tx

/-- Between two stretches that serve no edge: with an edge unserved, the phase is the one of the
level before it. -/
def Calm (s : SpiHw σ) (base : SpiSlave) (h : LinkHistory σ) (unserved : Bool) : Prop :=
  if s.nss = unserved then s.outgoing = base.tx.drop h.mosi.length ∧ s.Open base h else s.Rest base

/-- The phase at each stretch of the handler. -/
def PhaseAt (s : SpiHw σ) (base : SpiSlave) (h : LinkHistory σ) : Prop :=
  match s.pc with
  | .idle => s.Calm base h (csPending s.pd)
  | .entered g => csPending s.pd = csPending g ∧ s.Calm base h (csPending g)
  | .selected g => csPending s.pd = csPending g ∧ s.nss = false ∧ s.Rest base
  | .released g => csPending s.pd = csPending g ∧ s.nss = true ∧ s.Open base h
  | .quiesced g => csPending s.pd = csPending g ∧ s.nss = true ∧ s.Open base h ∧
      s.rx.enabled = false ∧ s.tx.enabled = false
  | .capturing g => csPending s.pd = csPending g ∧ s.nss = true ∧ s.Open base h ∧
      s.rx.enabled = false ∧ s.tx.enabled = false ∧ h.mosi.length ≤ spiCaptureMax
  | .captured g n => csPending s.pd = csPending g ∧ s.nss = true ∧ s.tx.enabled = false ∧
      s.rx.enabled = false ∧ s.slave = base.csLow ∧ h.before = base ∧
      h.miso = base.tx.takeD h.mosi.length 0 ∧ h.mosi.length ≤ spiCaptureMax ∧
      s.rxBuf.take n = h.mosi.take spiDmaBufLen
  | .fed g | .decoding g => csPending s.pd = csPending g ∧ s.nss = true ∧ s.tx.enabled = false ∧
      s.txFifo = [] ∧ s.rxFifo = [] ∧ s.overrun = false ∧
      s.slave = { base with rx := RxBuf.empty.feed (h.mosi.take spiDmaBufLen) } ∧
      h.before = base ∧ h.miso = base.tx.takeD h.mosi.length 0 ∧ h.mosi.length ≤ spiCaptureMax
  | .failing g n | .staged g n => csPending s.pd = csPending g ∧ s.nss = true ∧ s.Staged base n
  | .leaving g => csPending s.pd = csPending g ∧ s.Calm base h false

/-- The invariant of a paced run. -/
structure Linked (hal : Hal σ) (s : SpiHw σ) (h : LinkHistory σ) : Prop where
  split : s.rx.addr + s.rx.count = spiDmaBufLen
  rxLen : s.rxBuf.length = spiDmaBufLen
  txLen : s.txBuf.length = spiDmaBufLen
  frames : s.rxFifo.length ≤ spiFifoFrames
  txFits : s.tx.enabled = true → s.tx.addr + s.tx.count ≤ spiDmaBufLen
  healthy : s.rx.err = false ∧ s.tx.err = false ∧ s.status.errorPending = false
  base : ∃ base, Transfers hal .init h.done base ∧ base.cursor = base.tx.length ∧
    base.tx.length ≤ maxFrameBytes ∧ s.PhaseAt base h

section

variable {hal : Hal σ} {s s' : SpiHw σ} {base : SpiSlave} {h : LinkHistory σ}

/-! ### Steps that move no byte across the wire -/

/-- The two states look the same to the phases. -/
structure SameView (s s' : SpiHw σ) : Prop where
  pc : s'.pc = s.pc
  pd : csPending s'.pd = csPending s.pd
  nss : s'.nss = s.nss
  slave : s'.slave = s.slave
  overrun : s'.overrun = s.overrun
  captured : s'.captured = s.captured
  out : s'.outgoing = s.outgoing
  txBuf : s'.txBuf = s.txBuf
  fifo : s.rxFifo = [] → s'.rxFifo = []
  rxOff : s.rx.enabled = false → s'.rx.enabled = false ∧ s'.rxBuf = s.rxBuf
  txOff : s.tx.enabled = false → s'.tx.enabled = false ∧ s'.txFifo = s.txFifo

lemma SameView.rest (hv : SameView s s') (hr : s.Rest base) : s'.Rest base :=
  ⟨hv.slave.trans hr.slave, hv.fifo hr.fifo, hv.overrun.trans hr.overrun, hv.out.trans hr.out⟩

lemma SameView.open (hv : SameView s s') (ho : s.Open base h) : s'.Open base h :=
  ⟨hv.slave.trans ho.slave, ho.before, ho.read, hv.captured.trans ho.bytes, hv.overrun.trans ho.overrun⟩

lemma SameView.calm (hv : SameView s s') {u : Bool} (hc : s.Calm base h u) : s'.Calm base h u := by
  simp only [Calm, hv.nss] at hc ⊢
  split_ifs at hc ⊢
  · exact ⟨hv.out.trans hc.1, hv.open hc.2⟩
  · exact hv.rest hc

lemma SameView.staged (hv : SameView s s') {n : ℕ} (hs : s.Staged base n) : s'.Staged base n where
  slave := hv.slave.trans hs.slave
  fifo := hv.fifo hs.fifo
  overrun := hv.overrun.trans hs.overrun
  txFifo := (hv.txOff hs.txOff).2.trans hs.txFifo
  txOff := (hv.txOff hs.txOff).1
  len := hs.len
  buf := hv.txBuf ▸ hs.buf

lemma SameView.phaseAt (hv : SameView s s') (hp : s.PhaseAt base h) : s'.PhaseAt base h := by
  simp only [PhaseAt, hv.pc, hv.pd] at hp ⊢
  cases hs : s.pc with
  | idle =>
    simp only [hs] at hp ⊢
    exact hv.calm hp
  | entered g =>
    simp only [hs] at hp ⊢
    exact ⟨hp.1, hv.calm hp.2⟩
  | selected g =>
    simp only [hs] at hp ⊢
    exact ⟨hp.1, hv.nss.trans hp.2.1, hv.rest hp.2.2⟩
  | released g =>
    simp only [hs] at hp ⊢
    exact ⟨hp.1, hv.nss.trans hp.2.1, hv.open hp.2.2⟩
  | quiesced g =>
    simp only [hs] at hp ⊢
    obtain ⟨hpd, hnss, ho, hrx, htx⟩ := hp
    exact ⟨hpd, hv.nss.trans hnss, hv.open ho, (hv.rxOff hrx).1, (hv.txOff htx).1⟩
  | capturing g =>
    simp only [hs] at hp ⊢
    obtain ⟨hpd, hnss, ho, hrx, htx, hle⟩ := hp
    exact ⟨hpd, hv.nss.trans hnss, hv.open ho, (hv.rxOff hrx).1, (hv.txOff htx).1, hle⟩
  | captured g n =>
    simp only [hs] at hp ⊢
    obtain ⟨hpd, hnss, htx, hrx, hslave, hbefore, hread, hle, hbuf⟩ := hp
    exact ⟨hpd, hv.nss.trans hnss, (hv.txOff htx).1, (hv.rxOff hrx).1, hv.slave.trans hslave,
      hbefore, hread, hle, (hv.rxOff hrx).2 ▸ hbuf⟩
  | fed g =>
    simp only [hs] at hp ⊢
    obtain ⟨hpd, hnss, htx, htf, hrf, hover, hslave, hrest⟩ := hp
    exact ⟨hpd, hv.nss.trans hnss, (hv.txOff htx).1, (hv.txOff htx).2.trans htf, hv.fifo hrf,
      hv.overrun.trans hover, hv.slave.trans hslave, hrest⟩
  | decoding g =>
    simp only [hs] at hp ⊢
    obtain ⟨hpd, hnss, htx, htf, hrf, hover, hslave, hrest⟩ := hp
    exact ⟨hpd, hv.nss.trans hnss, (hv.txOff htx).1, (hv.txOff htx).2.trans htf, hv.fifo hrf,
      hv.overrun.trans hover, hv.slave.trans hslave, hrest⟩
  | failing g n =>
    simp only [hs] at hp ⊢
    exact ⟨hp.1, hv.nss.trans hp.2.1, hv.staged hp.2.2⟩
  | staged g n =>
    simp only [hs] at hp ⊢
    exact ⟨hp.1, hv.nss.trans hp.2.1, hv.staged hp.2.2⟩
  | leaving g =>
    simp only [hs] at hp ⊢
    exact ⟨hp.1, hv.calm hp.2⟩

/-- An RX transfer moves a byte from the FIFO into the buffer. -/
lemma Linked.beat_rx (hl : Linked hal s h) (hs : spiHwStep hal s (.beat .rx) = some s') :
    Linked hal s' h := by
  simp only [spiHwStep] at hs
  split at hs
  · cases hs
  · next b bs hf =>
    split_ifs at hs with hgo
    obtain ⟨hen, hc⟩ := (Bool.and_eq_true _ _).mp hgo
    have hc : s.rx.count ≠ 0 := of_decide_eq_true hc
    have hsplit := hl.split
    have hlt : s.rx.addr < s.rxBuf.length := by
      rw [hl.rxLen]
      omega
    have hcapt : (s.rxBuf.set s.rx.addr b).take (s.rx.addr + 1) ++ bs = s.captured := by
      rw [take_set_append b hlt, captured, hf, List.append_assoc]
      rfl
    cases hs
    obtain ⟨base, htr, hcur, hlen, hp⟩ := hl.base
    refine ⟨?_, ?_, hl.txLen, ?_, hl.txFits, hl.healthy, base, htr, hcur, hlen, ?_⟩
    · simp only [DmaChannel.advance]
      omega
    · rw [List.length_set, hl.rxLen]
    · have := hl.frames
      rw [hf, List.length_cons] at this
      exact Nat.le_of_succ_le this
    · refine SameView.phaseAt (s := s) ⟨rfl, rfl, rfl, rfl, rfl, hcapt, rfl, rfl, ?_, ?_, ?_⟩ hp
      · rw [hf]
        rintro ⟨⟩
      · intro hoff
        rw [hoff] at hen
        cases hen
      · exact fun hoff => ⟨hoff, rfl⟩

/-- A TX transfer moves a byte from the buffer into the FIFO. -/
lemma Linked.beat_tx (hl : Linked hal s h) (hs : spiHwStep hal s (.beat .tx) = some s') :
    Linked hal s' h := by
  simp only [spiHwStep] at hs
  split_ifs at hs with hgo
  simp only [Bool.and_eq_true, decide_eq_true_eq] at hgo
  obtain ⟨⟨hen, hc⟩, -⟩ := hgo
  have hfits := hl.txFits hen
  have hlt : s.tx.addr < s.txBuf.length := by
    rw [hl.txLen]
    omega
  have hout : s.txFifo ++ [s.txBuf.getD s.tx.addr 0] ++
      (s.txBuf.drop (s.tx.addr + 1)).take (s.tx.count - 1) = s.outgoing := by
    obtain ⟨k, hk⟩ := Nat.exists_eq_succ_of_ne_zero hc
    rw [outgoing, if_pos hen, List.append_assoc, List.drop_eq_getElem_cons hlt, hk,
      List.take_succ_cons, List.getD_eq_getElem _ _ hlt]
    rfl
  cases hs
  obtain ⟨base, htr, hcur, hlen, hp⟩ := hl.base
  refine ⟨hl.split, hl.rxLen, hl.txLen, hl.frames, ?_, hl.healthy, base, htr, hcur, hlen, ?_⟩
  · intro _
    simp only [DmaChannel.advance]
    omega
  · refine SameView.phaseAt (s := s) ⟨rfl, rfl, rfl, rfl, rfl, rfl, ?_, rfl, id, ?_, ?_⟩ hp
    · rw [← hout]
      simp only [outgoing, DmaChannel.advance, hen, if_true]
    · exact fun hoff => ⟨hoff, rfl⟩
    · intro hoff
      rw [hoff] at hen
      cases hen

/-! ### The host -/

/-- An edge with none unserved before it. -/
lemma Linked.edge (hl : Linked hal s h) {high : Bool} (hpc : s.pc = .idle)
    (hserved : csPending s.pd = false) (hs : spiHwStep hal s (.cs high) = some s') :
    Linked hal s' h := by
  simp only [spiHwStep] at hs
  split_ifs at hs with hmove
  obtain ⟨base, htr, hcur, hlen, hp⟩ := hl.base
  simp only [PhaseAt, hpc, hserved] at hp
  cases hs
  refine ⟨hl.split, hl.rxLen, hl.txLen, hl.frames, hl.txFits, hl.healthy, base, htr, hcur, hlen, ?_⟩
  simp only [PhaseAt, hpc, csPending_edge]
  simp only [Calm] at hp ⊢
  -- the level has changed and the edge is unserved, so the phase is the same
  cases hnss : s.nss with
  | false =>
    rw [hnss] at hp hmove
    rw [Bool.eq_true_of_not_eq_false hmove]
    exact ⟨hp.1, hp.2.1, hp.2.2, hp.2.3, hp.2.4, hp.2.5⟩
  | true =>
    rw [hnss] at hp hmove
    rw [Bool.eq_false_of_not_eq_true hmove]
    exact ⟨hp.1, hp.2, hp.3, hp.4⟩

/-- Inside a transfer. -/
lemma Linked.opened (hl : Linked hal s h) (hpc : s.pc = .idle) (hserved : csPending s.pd = false)
    (hnss : s.nss = false) : ∃ base, Transfers hal .init h.done base ∧
      base.cursor = base.tx.length ∧ base.tx.length ≤ maxFrameBytes ∧
      s.outgoing = base.tx.drop h.mosi.length ∧ s.Open base h := by
  obtain ⟨base, htr, hcur, hlen, hp⟩ := hl.base
  simp only [PhaseAt, hpc, hserved, Calm, hnss, if_true] at hp
  exact ⟨base, htr, hcur, hlen, hp⟩

/-- A byte clocked in a transfer. -/
lemma Linked.clock (hl : Linked hal s h) {b : UInt8} (hpc : s.pc = .idle)
    (hserved : csPending s.pd = false)
    (hpace : s.rxFifo.length < spiFifoFrames ∨ s.rx.count = 0)
    (hfed : s.txFifo ≠ [] ∨ s.tx.enabled = false ∨ s.tx.count = 0)
    (hs : spiHwStep hal s (.clock b) = some s') :
    Linked hal s'
      { h with mosi := h.mosi ++ [b], miso := h.miso ++ [s.txFifo.headD 0] } := by
  simp only [spiHwStep] at hs
  by_cases hnss : s.nss = true
  · rw [if_pos hnss] at hs
    cases hs
  rw [if_neg hnss] at hs
  have hnss : s.nss = false := Bool.eq_false_iff.mpr hnss
  obtain ⟨base, htr, hcur, hlen, hout, ho⟩ := hl.opened hpc hserved hnss
  have hsplit := hl.split
  have hcaptLen : s.captured.length = s.rx.addr + s.rxFifo.length := by
    rw [captured, List.length_append, List.length_take_of_le (by rw [hl.rxLen]; omega)]
  have hmosiLen : min spiCaptureMax h.mosi.length = s.rx.addr + s.rxFifo.length := by
    rw [← hcaptLen, ho.bytes, List.length_take]
  -- the head of the FIFO is the next byte of the reply
  have hhead : s.txFifo.headD 0 = (base.tx.drop h.mosi.length).headD 0 ∧
      s.txFifo.tail ++ (if s.tx.enabled then (s.txBuf.drop s.tx.addr).take s.tx.count else []) =
        base.tx.drop (h.mosi.length + 1) := by
    rw [← List.tail_drop, ← hout, outgoing]
    cases hf : s.txFifo with
    | cons a as => exact ⟨rfl, rfl⟩
    | nil =>
      rw [hf] at hfed
      rcases hfed with hfed | hoff | hzero
      · exact absurd rfl hfed
      · rw [hoff]
        exact ⟨rfl, rfl⟩
      · rw [hzero, List.take_zero, ite_self]
        exact ⟨rfl, rfl⟩
  have hread : h.miso ++ [s.txFifo.headD 0] = base.tx.takeD (h.mosi ++ [b]).length 0 := by
    rw [List.length_append, List.length_singleton, List.takeD_succ_append, ← ho.read, hhead.1]
  have hlenB : (h.mosi ++ [b]).length = h.mosi.length + 1 := by simp
  by_cases hroom : s.rxFifo.length < spiFifoFrames
  · -- the byte fits, so nothing has been lost before it
    rw [if_pos hroom] at hs
    cases hs
    have hlt : h.mosi.length < spiCaptureMax := by
      simp only [spiCaptureMax] at hmosiLen ⊢
      omega
    refine ⟨hl.split, hl.rxLen, hl.txLen, ?_, hl.txFits, hl.healthy, base, htr, hcur, hlen, ?_⟩
    · rw [List.length_append]
      exact hroom
    simp only [PhaseAt, hpc, hserved, Calm, hnss, if_true]
    refine ⟨?_, ho.slave, ho.before, hread, ?_, ?_⟩
    · rw [hlenB, ← hhead.2]
      rfl
    · have hall : (h.mosi ++ [b]).take spiCaptureMax = h.mosi ++ [b] :=
        List.take_of_length_le (by rw [hlenB]; exact hlt)
      show s.rxBuf.take s.rx.addr ++ (s.rxFifo ++ [b]) = (h.mosi ++ [b]).take spiCaptureMax
      rw [hall, ← List.append_assoc, ← captured, ho.bytes, List.take_of_length_le hlt.le]
    · rw [hlenB, ho.overrun]
      simp only [decide_eq_decide]
      omega
  · -- FIFO and buffer are full
    rw [if_neg hroom] at hs
    cases hs
    have hfull : s.rx.count = 0 := hpace.resolve_left hroom
    have hframes := hl.frames
    have hge : spiCaptureMax ≤ h.mosi.length := by
      simp only [spiCaptureMax] at hmosiLen ⊢
      omega
    refine ⟨hl.split, hl.rxLen, hl.txLen, hl.frames, hl.txFits, hl.healthy, base, htr, hcur, hlen,
      ?_⟩
    simp only [PhaseAt, hpc, hserved, Calm, hnss, if_true]
    refine ⟨?_, ho.slave, ho.before, hread, ?_, ?_⟩
    · rw [hlenB, ← hhead.2]
      rfl
    · show s.captured = _
      rw [ho.bytes, List.take_append_of_le_length hge]
    · rw [hlenB]
      exact (decide_eq_true (by omega)).symm

/-! ### The handler -/

lemma armRx_confirmed {reads : List Bool} (hreads : confirms reads = true) (s : SpiHw σ) :
    s.armRx reads =
      { s with rx := { s.rx with enabled := true, addr := 0, count := spiDmaBufLen } } := by
  have hgo : (!s.rx.enabled || (reads.take spiDmaDisableSpins).any (!·)) = true := by
    rw [show (reads.take spiDmaDisableSpins).any (!·) = true from hreads, Bool.or_true]
  simp only [armRx, DmaChannel.disableConfirm, if_pos hgo]
  rfl

lemma armTx_confirmed {reads : List Bool} (hreads : confirms reads = true) (n : ℕ) (s : SpiHw σ) :
    s.armTx reads n = if n = 0 then { s with tx := { s.tx with enabled := false } }
      else { s with tx := { s.tx with enabled := true, addr := 0, count := n } } := by
  have hgo : (!s.tx.enabled || (reads.take spiDmaDisableSpins).any (!·)) = true := by
    rw [show (reads.take spiDmaDisableSpins).any (!·) = true from hreads, Bool.or_true]
  simp only [armTx, DmaChannel.disableConfirm, if_pos hgo]
  rfl

lemma Rest.goOn (hr : s.Rest base) (q : UInt32) (p : CsPc) :
    { s with pd := q, pc := p }.Rest base :=
  ⟨hr.slave, hr.fifo, hr.overrun, hr.out⟩

lemma Open.goOn (ho : s.Open base h) (q : UInt32) (p : CsPc) :
    { s with pd := q, pc := p }.Open base h :=
  ⟨ho.slave, ho.before, ho.read, ho.bytes, ho.overrun⟩

lemma Calm.goOn {u : Bool} (hc : s.Calm base h u) (q : UInt32) (p : CsPc) :
    { s with pd := q, pc := p }.Calm base h u := by
  simp only [Calm] at hc ⊢
  split_ifs at hc ⊢
  · exact ⟨hc.1, hc.2.goOn q p⟩
  · exact hc.goOn q p

/-- A stretch that moves the handler on and nothing else. -/
lemma Linked.goOn (hl : Linked hal s h) {p : CsPc} {q : UInt32}
    (hgo : ∀ base, s.PhaseAt base h → { s with pd := q, pc := p }.PhaseAt base h) :
    Linked hal { s with pd := q, pc := p } h := by
  obtain ⟨base, htr, hcur, hlen, hp⟩ := hl.base
  exact ⟨hl.split, hl.rxLen, hl.txLen, hl.frames, hl.txFits, hl.healthy, base, htr, hcur, hlen,
    hgo base hp⟩

/-- The reply staged in `spi_tx_dma_buf`. -/
lemma Linked.stage (hl : Linked hal s h) {x : SpiSlave} {slave : SpiSlave} {bs : List UInt8}
    (hcur : x.cursor = 0) (hlen : x.tx.length ≤ maxFrameBytes)
    (hreply : x.armTx spiDmaBufLen = (slave, bs)) :
    slave.cursor = slave.tx.length ∧ slave.tx.length ≤ maxFrameBytes ∧ bs = slave.tx ∧
      (bs ++ s.txBuf.drop bs.length).length = spiDmaBufLen := by
  have hfit : x.tx.length ≤ spiDmaBufLen := hlen.trans (by decide)
  rw [x.armTx_whole spiDmaBufLen hcur hfit] at hreply
  cases hreply
  refine ⟨rfl, hlen, rfl, ?_⟩
  rw [List.length_append, List.length_drop, hl.txLen]
  omega

/-- The error seam, entered for an overrun. -/
lemma Linked.fail {reads reads' : List Bool} {inFlight : Bool} (hl : Linked hal s h) {g : UInt32}
    {st : SpiDmaStatus} {slave : SpiSlave} {bs : List UInt8} (hpc : s.pc = .quiesced g)
    (herr : (s.rx.err || s.tx.err || s.status.errorPending || s.overrun) = true)
    (hst : st.errorPending = false)
    (hreply : (s.slave.transportError s.dev.links.spi).armTx spiDmaBufLen = (slave, bs))
    (hs' : s' = { s with
      rx := { s.rx with err := false }, tx := { s.tx with err := false }, status := st
      rxFifo := [], txFifo := [], overrun := false
      slave := slave, txBuf := bs ++ s.txBuf.drop bs.length, pc := .failing g bs.length }) :
    Linked hal s' (linkUpd h s (.handler reads reads' inFlight) s') := by
  obtain ⟨base, htr, hcur, hlen, hp⟩ := hl.base
  simp only [PhaseAt, hpc] at hp
  obtain ⟨hpd, hnss, ho, hrxOff, htxOff⟩ := hp
  rw [hl.healthy.1, hl.healthy.2.1, hl.healthy.2.2, ho.overrun, Bool.false_or, Bool.false_or,
    Bool.false_or, decide_eq_true_eq] at herr
  have hshort : (s.slave.transportError s.dev.links.spi).tx.length ≤ maxFrameBytes := by
    simp only [SpiSlave.transportError, SpiSlave.stageError, SpiSlave.stageReply, spiEnvelope_length]
    decide
  obtain ⟨hcur', hlen', hbs, hbuf⟩ := hl.stage rfl hshort hreply
  have hok : Transfer.Ok hal ⟨h.mosi, h.miso, h.before, inFlight, s.dev, s.dev, slave⟩ := by
    refine ⟨?_, fun hle => absurd herr (Nat.not_lt.mpr hle), fun _ => ⟨rfl, ?_⟩⟩
    · rw [ho.before]
      exact ho.read
    · have hsame : s.slave.transportError s.dev.links.spi =
          base.transportError s.dev.links.spi := by
        rw [ho.slave]
        rfl
      rw [ho.before, ← hsame, hreply]
  rw [← ho.before] at htr
  have hupd : linkUpd h s (.handler reads reads' inFlight) s' =
      { h with done := h.done ++ [⟨h.mosi, h.miso, h.before, inFlight, s.dev, s.dev, slave⟩] } := by
    subst hs'
    simp only [linkUpd, hpc]
  rw [hupd, hs']
  refine ⟨hl.split, hl.rxLen, hbuf, Nat.zero_le _, hl.txFits, ⟨rfl, rfl, hst⟩, slave,
    .snoc htr hok, hcur', hlen', ?_⟩
  exact ⟨hpd, hnss, rfl, rfl, rfl, rfl, htxOff, by rw [hbs], by rw [List.take_left, hbs]⟩

/-- The residue of a transfer that has not overrun. -/
lemma Linked.take (hl : Linked hal s h) {g : UInt32} {x : SpiHw σ} {n : ℕ}
    (hpc : s.pc = .capturing g)
    (htake : s.drainFifo spiFifoFrames
      (if s.rx.count ≤ spiDmaBufLen then spiDmaBufLen - s.rx.count else 0) = (x, n)) :
    Linked hal { x with pc := .captured g n } h := by
  obtain ⟨base, htr, hcur, hlen, hp⟩ := hl.base
  simp only [PhaseAt, hpc] at hp
  obtain ⟨hpd, hnss, ho, hrxOff, htxOff, hle⟩ := hp
  have hsplit := hl.split
  have hres : (if s.rx.count ≤ spiDmaBufLen then spiDmaBufLen - s.rx.count else 0) = s.rx.addr := by
    rw [if_pos (by omega)]
    omega
  obtain ⟨buf, m, heq, hm, hbuf, hbytes⟩ := s.drainFifo_spec spiFifoFrames s.rx.addr hl.rxLen
  rw [hres, heq] at htake
  cases htake
  have hm' : s.rxFifo.take m = s.rxFifo.take (spiDmaBufLen - s.rx.addr) := by
    have hframes := hl.frames
    rw [hm, List.take_eq_take_iff]
    omega
  have hcapt : s.captured.take spiDmaBufLen = s.rxBuf.take s.rx.addr ++ s.rxFifo.take m := by
    have haddr : (s.rxBuf.take s.rx.addr).length = s.rx.addr :=
      List.length_take_of_le (by rw [hl.rxLen]; omega)
    rw [captured, hm', List.take_append, haddr, List.take_of_length_le (by rw [haddr]; omega)]
  refine ⟨hl.split, hbuf, hl.txLen, ?_, hl.txFits, hl.healthy, base, htr, hcur, hlen, ?_⟩
  · show (s.rxFifo.drop m).length ≤ spiFifoFrames
    rw [List.length_drop]
    exact (Nat.sub_le _ _).trans hl.frames
  · refine ⟨hpd, hnss, htxOff, hrxOff, ho.slave, ho.before, ho.read, hle, ?_⟩
    show buf.take (s.rx.addr + m) = _
    rw [hbytes, ← hcapt, ho.bytes, List.take_take]
    rfl

/-- The decode. -/
lemma Linked.decode {reads reads' : List Bool} {inFlight : Bool} (hl : Linked hal s h) {g : UInt32}
    {d : Device σ} {slave slave' : SpiSlave} {ev : SpiEvent} {bs : List UInt8}
    (hpc : s.pc = .decoding g) (hcall : spiSlaveCsHigh hal inFlight s.dev s.slave = (d, slave, ev))
    (hev : ∀ cmd payload, ev ≠ .lost cmd payload)
    (hreply : slave.armTx spiDmaBufLen = (slave', bs))
    (hs' : s' = { s with
      dev := d, slave := slave', txBuf := bs ++ s.txBuf.drop bs.length
      pc := .staged g bs.length }) :
    Linked hal s' (linkUpd h s (.handler reads reads' inFlight) s') := by
  obtain ⟨base, htr, hcur, hlen, hp⟩ := hl.base
  simp only [PhaseAt, hpc] at hp
  obtain ⟨hpd, hnss, htxOff, htxFifo, hrxFifo, hover, hslave, hbefore, hread, hle⟩ := hp
  rw [hslave, spiTransaction_capture] at hcall
  obtain ⟨hcur₀, hlen₀⟩ := spiTransaction_staged hcall hev hlen
  obtain ⟨hcur', hlen', hbs, hbuf⟩ := hl.stage hcur₀ hlen₀ hreply
  have hok : Transfer.Ok hal ⟨h.mosi, h.miso, h.before, inFlight, s.dev, d, slave'⟩ := by
    refine ⟨?_, fun _ => ⟨slave, ev, ?_, hev, by rw [hreply]⟩,
      fun hgt => absurd hgt (Nat.not_lt.mpr hle)⟩
    · rw [hbefore]
      exact hread
    · rw [hbefore]
      exact hcall
  rw [← hbefore] at htr
  have hupd : linkUpd h s (.handler reads reads' inFlight) s' =
      { h with done := h.done ++ [⟨h.mosi, h.miso, h.before, inFlight, s.dev, d, slave'⟩] } := by
    subst hs'
    simp only [linkUpd, hpc]
  rw [hupd, hs']
  refine ⟨hl.split, hl.rxLen, hbuf, hl.frames, hl.txFits, hl.healthy, slave', .snoc htr hok, hcur',
    hlen', ?_⟩
  exact ⟨hpd, hnss, rfl, hrxFifo, hover, htxFifo, htxOff, by rw [hbs], by rw [List.take_left, hbs]⟩

/-- A stretch of the handler. -/
lemma Linked.stretch {reads reads' : List Bool} {inFlight : Bool} (hl : Linked hal s h)
    (hreads : confirms reads = true) (hreads' : confirms reads' = true)
    (hs : CsStretch hal reads reads' inFlight s s') :
    Linked hal s' (linkUpd h s (.handler reads reads' inFlight) s') := by
  cases hs with
  | enter hpc hpd =>
    simp only [linkUpd, hpc]
    refine hl.goOn fun base hp => ?_
    simp only [PhaseAt, hpc] at hp
    rw [← csPending_group] at hp
    exact ⟨(csPending_group _).symm, hp.goOn _ _⟩
  | skip hpc hg =>
    simp only [linkUpd, hpc]
    refine hl.goOn fun base hp => ?_
    simp only [PhaseAt, hpc] at hp
    rw [hg] at hp
    exact ⟨hp.1.trans hg.symm, hp.2.goOn _ _⟩
  | select hpc hg hnss =>
    simp only [linkUpd, hpc]
    refine hl.goOn fun base hp => ?_
    simp only [PhaseAt, hpc, Calm, hg, hnss, Bool.false_eq_true, if_false] at hp
    exact ⟨hp.1.trans hg.symm, hnss, hp.2.goOn _ _⟩
  | release hpc hg hnss =>
    simp only [linkUpd, hpc]
    refine hl.goOn fun base hp => ?_
    simp only [PhaseAt, hpc, Calm, hg, hnss, if_true] at hp
    exact ⟨hp.1.trans hg.symm, hnss, hp.2.2.goOn _ _⟩
  | arm hpc =>
    simp only [linkUpd, hpc]
    obtain ⟨base, htr, hcur, hlen, hp⟩ := hl.base
    simp only [PhaseAt, hpc] at hp
    obtain ⟨hpd, hnss, hr⟩ := hp
    rw [armRx_confirmed hreads]
    refine ⟨Nat.zero_add _, hl.rxLen, hl.txLen, hl.frames, hl.txFits, hl.healthy, base, htr, hcur,
      hlen, hpd, ?_⟩
    -- the level is low and its edge served: a transfer with nothing clocked yet
    simp only [Calm, hnss, if_true]
    refine ⟨hr.out, by rw [hr.slave], hr.slave, rfl, ?_, ?_⟩
    · show s.rxBuf.take 0 ++ s.rxFifo = _
      rw [hr.fifo]
      rfl
    · exact hr.overrun
  | drop hpc hout =>
    have hboth : (s.rx.disableConfirm reads).2 = true ∧ (s.tx.disableConfirm reads').2 = true := by
      simp only [confirms] at hreads hreads'
      simp only [DmaChannel.disableConfirm, hreads, hreads', Bool.or_true, if_true, and_self]
    rw [hboth.1, hboth.2] at hout
    cases hout
  | quiesce hpc hout =>
    simp only [linkUpd, hpc]
    obtain ⟨base, htr, hcur, hlen, hp⟩ := hl.base
    simp only [PhaseAt, hpc] at hp
    obtain ⟨hpd, hnss, ho⟩ := hp
    refine ⟨hl.split, hl.rxLen, hl.txLen, hl.frames, by rintro ⟨⟩, hl.healthy, base, htr, hcur,
      hlen, ?_⟩
    exact ⟨hpd, hnss, ⟨ho.slave, ho.before, ho.read, ho.bytes, ho.overrun⟩, rfl, rfl⟩
  | fail hpc herr hst hrx htx hreply =>
    subst hrx htx
    exact hl.fail hpc herr hst hreply rfl
  | clean hpc hrx htx hpend hover =>
    simp only [linkUpd, hpc]
    refine hl.goOn fun base hp => ?_
    simp only [PhaseAt, hpc] at hp
    obtain ⟨hpd, hnss, ho, hrxOff, htxOff⟩ := hp
    have hle : ¬ spiCaptureMax < h.mosi.length := by
      rw [ho.overrun] at hover
      exact of_decide_eq_false hover
    exact ⟨hpd, hnss, ⟨ho.slave, ho.before, ho.read, ho.bytes, ho.overrun⟩, hrxOff, htxOff,
      Nat.le_of_not_lt hle⟩
  | take hpc htake =>
    simp only [linkUpd, hpc]
    exact hl.take hpc htake
  | feed hpc =>
    simp only [linkUpd, hpc]
    obtain ⟨base, htr, hcur, hlen, hp⟩ := hl.base
    simp only [PhaseAt, hpc] at hp
    obtain ⟨hpd, hnss, htxOff, hrxOff, hslave, hbefore, hread, hle, hbuf⟩ := hp
    refine ⟨hl.split, hl.rxLen, hl.txLen, Nat.zero_le _, hl.txFits, hl.healthy, base, htr, hcur,
      hlen, hpd, hnss, htxOff, rfl, rfl, rfl, ?_, hbefore, hread, hle⟩
    rw [rxByte_foldl, hslave, hbuf]
    rfl
  | rearm hpc =>
    simp only [linkUpd, hpc]
    obtain ⟨base, htr, hcur, hlen, hp⟩ := hl.base
    simp only [PhaseAt, hpc] at hp
    rw [armRx_confirmed hreads]
    exact ⟨Nat.zero_add _, hl.rxLen, hl.txLen, hl.frames, hl.txFits, hl.healthy, base, htr, hcur,
      hlen, hp⟩
  | decode hpc hcall hev hreply => exact hl.decode hpc hcall hev hreply rfl
  | rearmFailed hpc =>
    simp only [linkUpd, hpc]
    obtain ⟨base, htr, hcur, hlen, hp⟩ := hl.base
    simp only [PhaseAt, hpc] at hp
    obtain ⟨hpd, hnss, hst⟩ := hp
    rw [armRx_confirmed hreads]
    exact ⟨Nat.zero_add _, hl.rxLen, hl.txLen, hl.frames, hl.txFits, hl.healthy, base, htr, hcur,
      hlen, hpd, hnss, hst.slave, hst.fifo, hst.overrun, hst.txFifo, hst.txOff, hst.len, hst.buf⟩
  | @armTx g n hpc =>
    simp only [linkUpd, hpc]
    obtain ⟨base, htr, hcur, hlen, hp⟩ := hl.base
    simp only [PhaseAt, hpc] at hp
    obtain ⟨hpd, hnss, hst⟩ := hp
    rw [armTx_confirmed hreads]
    by_cases hn : n = 0
    · rw [if_pos hn]
      have hnil : base.tx = [] := List.eq_nil_of_length_eq_zero (hst.len.symm.trans hn)
      refine ⟨hl.split, hl.rxLen, hl.txLen, hl.frames, by rintro ⟨⟩, hl.healthy, base, htr, hcur,
        hlen, hpd, ?_⟩
      simp only [Calm, hnss, Bool.true_eq_false, if_false]
      refine ⟨hst.slave, hst.fifo, hst.overrun, ?_⟩
      show s.txFifo ++ [] = _
      rw [hst.txFifo, hnil]
      rfl
    · rw [if_neg hn]
      have hfits : n ≤ spiDmaBufLen := by
        rw [hst.len]
        exact hlen.trans (by decide)
      refine ⟨hl.split, hl.rxLen, hl.txLen, hl.frames, fun _ => by simpa using hfits, hl.healthy,
        base, htr, hcur, hlen, hpd, ?_⟩
      simp only [Calm, hnss, Bool.true_eq_false, if_false]
      refine ⟨hst.slave, hst.fifo, hst.overrun, ?_⟩
      show s.txFifo ++ (s.txBuf.drop 0).take n = _
      rw [hst.txFifo, List.drop_zero, hst.buf]
      rfl
  | @leave g hpc =>
    simp only [linkUpd, hpc]
    refine hl.goOn fun base hp => ?_
    simp only [PhaseAt, hpc] at hp
    have hserved : csPending (s.pd &&& ~~~g) = false := by
      rw [csPending_clear, hp.1, Bool.and_not_self]
    simp only [PhaseAt, hserved]
    exact hp.2.goOn _ _

/-! ### Over a run -/

lemma Linked.start {s : SpiHw σ} {h : LinkHistory σ} (hs : LinkStart (s, h)) : Linked hal s h := by
  obtain ⟨⟨reads, d, rfl⟩, rfl⟩ := hs
  have hrest : (init reads true d).Rest .init := ⟨rfl, rfl, rfl, rfl⟩
  have hcalm : (init reads true d).PhaseAt .init ⟨[], [], .init, []⟩ := by
    show (init reads true d).Calm .init ⟨[], [], .init, []⟩ (csPending 0)
    rw [show csPending 0 = false by decide, Calm, if_neg (by rintro ⟨⟩)]
    exact hrest
  exact ⟨rfl, rfl, rfl, Nat.zero_le _, by rintro ⟨⟩, ⟨rfl, rfl, rfl⟩, .init, .none, rfl,
    Nat.zero_le _, hcalm⟩

/-- One paced step. -/
lemma Linked.step {l : SpiHwLabel σ} {h' : LinkHistory σ} (hl : Linked hal s h)
    (hs : spiHwStep hal s l = some s') (hpaced : Paced (s, h) l (s', h')) :
    Linked hal s' (linkUpd h s l s') := by
  obtain ⟨hhost, hhw⟩ := hpaced
  cases l with
  | cs high => exact hl.edge hhost.1 hhost.2 hs
  | clock b => exact hl.clock hhost.1 hhost.2 hhw.1 hhw.2 hs
  | line mask =>
    obtain ⟨base, htr, hcur, hlen, hp⟩ := hl.base
    cases hs
    refine ⟨hl.split, hl.rxLen, hl.txLen, hl.frames, hl.txFits, hl.healthy, base, htr, hcur, hlen, ?_⟩
    exact SameView.phaseAt (s := s) ⟨rfl, csPending_line s.pd mask, rfl, rfl, rfl, rfl, rfl, rfl, id,
      fun hoff => ⟨hoff, rfl⟩, fun hoff => ⟨hoff, rfl⟩⟩ hp
  | beat ch =>
    cases ch with
    | rx => exact hl.beat_rx hs
    | tx => exact hl.beat_tx hs
  | fault ch => exact hhw.elim
  | stops ch => exact hhw.elim
  | dmaIrq ch =>
    have hsame : s.latchError ch = s := by
      obtain ⟨hrx, htx, -⟩ := hl.healthy
      cases ch <;> simp [latchError, hrx, htx]
    simp only [spiHwStep, hsame] at hs
    split_ifs at hs
    cases hs
    exact hl
  | handler reads reads' inFlight =>
    exact hl.stretch hhw.1 hhw.2 (.of_csHandler hs)
  | other d =>
    obtain ⟨base, htr, hcur, hlen, hp⟩ := hl.base
    cases hs
    refine ⟨hl.split, hl.rxLen, hl.txLen, hl.frames, hl.txFits, hl.healthy, base, htr, hcur, hlen, ?_⟩
    exact SameView.phaseAt (s := s) ⟨rfl, rfl, rfl, rfl, rfl, rfl, rfl, rfl, id,
      fun hoff => ⟨hoff, rfl⟩, fun hoff => ⟨hoff, rfl⟩⟩ hp

lemma Linked.of_reach (hr : Reach (withHistory (spiHwStep hal) linkUpd) LinkStart Paced (s, h)) :
    Linked hal s h := by
  apply Reach.invariant (I := fun y : SpiHw σ × LinkHistory σ => Linked hal y.1 y.2) ?_ ?_ hr
  · rintro ⟨s, h⟩ hs
    exact .start hs
  · rintro ⟨s, h⟩ l ⟨s', h'⟩ - hl hs hpaced
    obtain ⟨hstep, hh⟩ := withHistory_eq_some.mp hs
    simp only at hstep hh
    rw [hh]
    exact hl.step hstep hpaced

end

end SpiHw

/-- One pulse of the chip select, each edge served, with the transfers `beats` before each byte. -/
def pulse (beats : List (SpiHwLabel Unit)) (bs : List UInt8) : List (SpiHwLabel Unit) :=
  let go := SpiHwLabel.handler [true, false] [true, false] false
  [.cs false, go, go, go, go] ++ bs.flatMap (fun b => beats ++ [.clock b, .beat .rx]) ++
    .cs true :: List.replicate 10 go

end Gd32Bridge
