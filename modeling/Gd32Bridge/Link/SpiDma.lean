import Gd32Bridge.Transport.Staging

/-!
# The SPI link on the device (`hal/transport_hw_gd32.c`)

Two DMA channels move the bytes: one from the receive FIFO of SPI1 into `spi_rx_dma_buf`, the
other from `spi_tx_dma_buf` into the transmit FIFO.  The only interrupt of the data path is the
edge of the chip select, EXTI line 8; its handler drives the seams of `transport_spi.c`.

A step is one thing that happens: the host moves the chip select or clocks a byte, a channel moves
a byte or faults, the handler goes on by one stretch.  The stretches are cut where an access to the
hardware can see something else than the access before it, so that edges, bytes and transfers fall
at any point between them.  `CsPc` says which stretch comes next.
-/

namespace Gd32Bridge

/-! ### The hardware -/

/-- A DMA channel: `CHEN`, `ERRIF`, the offset in memory of the next transfer, and `CHxCNT`, the
transfers left. -/
structure DmaChannel where
  enabled : Bool
  err : Bool
  addr : ℕ
  count : ℕ
deriving DecidableEq, Repr

/-- `BRIDGE_SPI_RX_DMA_CH` and `BRIDGE_SPI_TX_DMA_CH` -/
inductive SpiCh
  | rx
  | tx
deriving DecidableEq, Repr

/-- The fault variables of `transport_hw_gd32.c`. -/
structure SpiDmaStatus where
  rxErrorCount : UInt32
  txErrorCount : UInt32
  rxArmFailCount : UInt32
  txArmFailCount : UInt32
  errorPending : Bool
deriving DecidableEq, Repr

/-- How far `BRIDGE_SPI_CS_EXTI_HANDLER` has come, with the snapshot of `EXTI_PD0` it has taken. -/
inductive CsPc
  | idle
  | entered (group : UInt32)
  /-- the pin reads low -/
  | selected (group : UInt32)
  /-- the pin reads high -/
  | released (group : UInt32)
  /-- both channels read back disabled -/
  | quiesced (group : UInt32)
  /-- no error: about to take the residue -/
  | capturing (group : UInt32)
  | captured (group : UInt32) (received : ℕ)
  /-- the portable layer has the bytes: about to re-arm RX -/
  | fed (group : UInt32)
  | decoding (group : UInt32)
  /-- the error seam has staged its reply: about to re-arm RX -/
  | failing (group : UInt32) (replyLen : ℕ)
  /-- about to arm TX -/
  | staged (group : UInt32) (replyLen : ℕ)
  /-- at `clear_group` -/
  | leaving (group : UInt32)
deriving DecidableEq, Repr

/-- The firmware and SPI1, its two channels and EXTI. -/
structure SpiHw (σ : Type) where
  dev : Device σ
  slave : SpiSlave
  /-- `spi_rx_dma_buf` and `spi_tx_dma_buf` -/
  rxBuf : List UInt8
  txBuf : List UInt8
  status : SpiDmaStatus
  rx : DmaChannel
  tx : DmaChannel
  rxFifo : List UInt8
  txFifo : List UInt8
  /-- `SPI_STAT_RXORERR` -/
  overrun : Bool
  /-- the level of the chip select -/
  nss : Bool
  /-- `EXTI_PD0` -/
  pd : UInt32
  pc : CsPc

/-- The frames a FIFO of SPI1 holds in byte access, `BRIDGE_SPI_RX_FIFO_FRAMES` -/
def spiFifoFrames : ℕ := 4

/-- `BRIDGE_SPI_DMA_DISABLE_SPINS` -/
def spiDmaDisableSpins : ℕ := 64

/-- The lines 5 to 9 that share the vector. -/
def extiGroup : UInt32 := 0x000003E0

/-- The bit of line 8. -/
def extiLine8 : UInt32 := 0x00000100

/-- `(pd & (1u << 8)) != 0u` -/
def csPending (pd : UInt32) : Bool :=
  pd &&& extiLine8 != 0

namespace DmaChannel

/-- `dma_memory_address_config`, `dma_transfer_number_config` and `dma_channel_enable` -/
def load (n : ℕ) (c : DmaChannel) : DmaChannel :=
  { c with enabled := true, addr := 0, count := n }

/-- One transfer. -/
def advance (c : DmaChannel) : DmaChannel :=
  { c with addr := c.addr + 1, count := c.count - 1 }

/-- `spi_dma_disable_confirm`: `reads` are the values of `CHEN` the loop reads back.  A channel
that is not enabled reads clear; one that never reads clear goes on. -/
def disableConfirm (reads : List Bool) (c : DmaChannel) : DmaChannel × Bool :=
  if !c.enabled || (reads.take spiDmaDisableSpins).any (!·) then ({ c with enabled := false }, true)
  else (c, false)

end DmaChannel

namespace SpiHw

variable {σ : Type}

/-! ### The helpers of the handler -/

/-- `spi_dma_latch_error` -/
def latchError (ch : SpiCh) (s : SpiHw σ) : SpiHw σ :=
  match ch with
  | .rx =>
    if s.rx.err then
      { s with
        rx := { s.rx with err := false }
        status := { s.status with
          rxErrorCount := s.status.rxErrorCount + 1, errorPending := true } }
    else s
  | .tx =>
    if s.tx.err then
      { s with
        tx := { s.tx with err := false }
        status := { s.status with
          txErrorCount := s.status.txErrorCount + 1, errorPending := true } }
    else s

/-- `spi_dma_error_consume` -/
def errorConsume (s : SpiHw σ) : SpiHw σ × Bool :=
  let s := (s.latchError .rx).latchError .tx
  if !s.status.errorPending then (s, false)
  else ({ s with status := { s.status with errorPending := false } }, true)

/-- `spi_dma_arm_rx` -/
def armRx (reads : List Bool) (s : SpiHw σ) : SpiHw σ :=
  match s.rx.disableConfirm reads with
  | (rx, true) => { s with rx := rx.load spiDmaBufLen }
  | (rx, false) =>
    -- `spi_dma_arm_record_confirm_fail`
    { s with
      rx := rx
      status := { s.status with
        rxArmFailCount := s.status.rxArmFailCount + 1, errorPending := true } }

/-- `spi_dma_arm_tx` -/
def armTx (reads : List Bool) (len : ℕ) (s : SpiHw σ) : SpiHw σ :=
  match s.tx.disableConfirm reads with
  | (tx, true) => if len = 0 then { s with tx := tx } else { s with tx := tx.load len }
  | (tx, false) =>
    { s with
      tx := tx
      status := { s.status with
        txArmFailCount := s.status.txArmFailCount + 1, errorPending := true } }

/-- The reset of SPI1 through the RCU and `bridge_spi_periph_config`: both FIFOs are flushed. -/
def flush (s : SpiHw σ) : SpiHw σ :=
  { s with rxFifo := [], txFifo := [], overrun := false }

/-- The loop that drains the staged reply into `spi_tx_dma_buf`, with the length it ends with. -/
def drainReply (s : SpiHw σ) : SpiHw σ × ℕ :=
  match s.slave.armTx spiDmaBufLen with
  | (slave, bs) => ({ s with slave := slave, txBuf := bs ++ s.txBuf.drop bs.length }, bs.length)

/-- The loop that drains the receive FIFO into the tail of `spi_rx_dma_buf`. -/
def drainFifo : ℕ → ℕ → SpiHw σ → SpiHw σ × ℕ
  | 0, received, s => (s, received)
  | frames + 1, received, s =>
    if received < spiDmaBufLen then
      match s.rxFifo with
      | [] => (s, received)
      | b :: bs =>
        drainFifo frames (received + 1) { s with rxBuf := s.rxBuf.set received b, rxFifo := bs }
    else (s, received)

/-- `spi_slave_cs_low` and the loop over `spi_slave_rx_byte` -/
def feed (received : ℕ) (s : SpiHw σ) : SpiHw σ :=
  { s with slave := (s.rxBuf.take received).foldl SpiSlave.rxByte s.slave.csLow }

/-- The state `bridge_transport_spi_hw_init` leaves behind; `reads` is what its `spi_dma_arm_rx`
reads back, `nss` the level of the pin. -/
def init (reads : List Bool) (nss : Bool) (d : Device σ) : SpiHw σ :=
  armRx reads
    { dev := d
      slave := .init
      rxBuf := List.replicate spiDmaBufLen 0
      txBuf := List.replicate spiDmaBufLen 0
      status := ⟨0, 0, 0, 0, false⟩
      rx := ⟨false, false, 0, spiDmaBufLen⟩
      tx := ⟨false, false, 0, 0⟩
      rxFifo := []
      txFifo := []
      overrun := false
      nss := nss
      pd := 0
      pc := .idle }

end SpiHw

/-! ### Steps -/

variable {σ : Type}

inductive SpiHwLabel (σ : Type)
  /-- the host moves the chip select -/
  | cs (high : Bool)
  /-- the host clocks a byte in each direction; a byte is one step, so no reset of SPI1 falls into
  the middle of one -/
  | clock (b : UInt8)
  /-- an edge on another line of the group -/
  | line (mask : UInt32)
  /-- a channel moves a byte -/
  | beat (ch : SpiCh)
  /-- a transfer fails: `ERRIF` is set and the hardware disables the channel -/
  | fault (ch : SpiCh)
  /-- an enable bit that did not read clear in time clears -/
  | stops (ch : SpiCh)
  /-- `DMA0_Channel2_IRQHandler`, `DMA0_Channel3_IRQHandler` -/
  | dmaIrq (ch : SpiCh)
  /-- the handler of the chip select goes on; `reads` and `reads'` are what the loops of
  `spi_dma_disable_confirm` in this stretch read back -/
  | handler (reads reads' : List Bool) (inFlight : Bool)
  /-- anything else that happens to the device -/
  | other (d : Device σ)

/-- One stretch of `BRIDGE_SPI_CS_EXTI_HANDLER`; `none` when there is nothing to enter it for, and
when the request does not return. -/
def csHandler (hal : Hal σ) (reads reads' : List Bool) (inFlight : Bool) (s : SpiHw σ) :
    Option (SpiHw σ) :=
  match s.pc with
  | .idle =>
    if s.pd &&& extiGroup = 0 then none else some { s with pc := .entered (s.pd &&& extiGroup) }
  | .entered group =>
    if csPending group then
      if s.nss then some { s with pc := .released group } else some { s with pc := .selected group }
    else some { s with pc := .leaving group }
  | .selected group =>
    some { SpiHw.armRx reads { s with slave := s.slave.csLow } with pc := .leaving group }
  | .released group =>
    match s.rx.disableConfirm reads, s.tx.disableConfirm reads' with
    | (rx, rxQuiesced), (tx, txQuiesced) =>
      let s := { s with rx := rx, tx := tx }
      if !rxQuiesced || !txQuiesced then
        -- the transaction is dropped without a word; the next falling edge arms RX again
        some { s.flush with slave := s.slave.csLow, pc := .leaving group }
      else some { s with pc := .quiesced group }
  | .quiesced group =>
    let rxOverrun := s.overrun
    match s.errorConsume with
    | (s, dmaError) =>
      if dmaError || rxOverrun then
        match { s.flush with slave := s.slave.transportError s.dev.links.spi }.drainReply with
        | (s, replyLen) => some { s with pc := .failing group replyLen }
      else some { s with pc := .capturing group }
  | .capturing group =>
    let received := if s.rx.count ≤ spiDmaBufLen then spiDmaBufLen - s.rx.count else 0
    match s.drainFifo spiFifoFrames received with
    | (s, received) => some { s with pc := .captured group received }
  | .captured group received => some { s.flush.feed received with pc := .fed group }
  | .fed group => some { s.armRx reads with pc := .decoding group }
  | .decoding group =>
    match spiSlaveCsHigh hal inFlight s.dev s.slave with
    | (_, _, .lost _ _) => none
    | (d, slave, _) =>
      match { s with dev := d, slave := slave }.drainReply with
      | (s, replyLen) => some { s with pc := .staged group replyLen }
  | .failing group replyLen => some { s.armRx reads with pc := .staged group replyLen }
  | .staged group replyLen => some { s.armTx reads replyLen with pc := .leaving group }
  | .leaving group => some { s with pd := s.pd &&& ~~~group, pc := .idle }

/-- One step.  A byte the receive FIFO has no room for is lost and raises `RXORERR`; with nothing
in the transmit FIFO the host reads zeros. -/
def spiHwStep (hal : Hal σ) (s : SpiHw σ) : SpiHwLabel σ → Option (SpiHw σ)
  | .cs high => if high = s.nss then none else some { s with nss := high, pd := s.pd ||| extiLine8 }
  | .clock b =>
    if s.nss then none
    else if s.rxFifo.length < spiFifoFrames then
      some { s with rxFifo := s.rxFifo ++ [b], txFifo := s.txFifo.tail }
    else some { s with overrun := true, txFifo := s.txFifo.tail }
  | .line mask => some { s with pd := s.pd ||| (mask &&& (extiGroup &&& ~~~extiLine8)) }
  | .beat .rx =>
    match s.rxFifo with
    | [] => none
    | b :: bs =>
      if s.rx.enabled && s.rx.count ≠ 0 then
        some { s with rxBuf := s.rxBuf.set s.rx.addr b, rxFifo := bs, rx := s.rx.advance }
      else none
  | .beat .tx =>
    if s.tx.enabled && s.tx.count ≠ 0 && s.txFifo.length < spiFifoFrames then
      some { s with txFifo := s.txFifo ++ [s.txBuf.getD s.tx.addr 0], tx := s.tx.advance }
    else none
  | .fault .rx =>
    -- the byte under way does not arrive
    if s.rx.enabled then
      some { s with rxFifo := s.rxFifo.tail, rx := { s.rx with enabled := false, err := true } }
    else none
  | .fault .tx =>
    if s.tx.enabled then some { s with tx := { s.tx with enabled := false, err := true } } else none
  | .stops .rx => some { s with rx := { s.rx with enabled := false } }
  | .stops .tx => some { s with tx := { s.tx with enabled := false } }
  | .dmaIrq ch =>
    -- a lower priority than the chip select: not while its handler runs
    if s.pc = .idle then some (s.latchError ch) else none
  | .handler reads reads' inFlight => csHandler hal reads reads' inFlight s
  | .other d => some { s with dev := d }

/-! ### What the helpers do -/

/-- Quiescing a channel only ever clears its enable bit. -/
lemma DmaChannel.disableConfirm_eq (reads : List Bool) (c : DmaChannel) :
    ∃ e, (c.disableConfirm reads).1 = { c with enabled := e } ∧
      ((c.disableConfirm reads).2 = true → e = false) := by
  simp only [DmaChannel.disableConfirm]
  split_ifs
  · exact ⟨false, rfl, fun _ => rfl⟩
  · exact ⟨c.enabled, rfl, by simp⟩

namespace SpiHw

lemma take_set_append {l : List UInt8} {n : ℕ} (b : UInt8) (h : n < l.length) :
    (l.set n b).take (n + 1) = l.take n ++ [b] := by
  rw [List.set_eq_take_append_cons_drop, if_pos h]
  have hlen : n + 1 = (l.take n).length + 1 := by rw [List.length_take_of_le h.le]
  rw [hlen, List.take_length_add_append]
  rfl

/-- The loop appends the frames it takes to the residue. -/
lemma drainFifo_spec (k r : ℕ) (s : SpiHw σ) (hlen : s.rxBuf.length = spiDmaBufLen) :
    ∃ buf m, s.drainFifo k r = ({ s with rxBuf := buf, rxFifo := s.rxFifo.drop m }, r + m) ∧
      m = min k (min s.rxFifo.length (spiDmaBufLen - r)) ∧ buf.length = spiDmaBufLen ∧
      buf.take (r + m) = s.rxBuf.take r ++ s.rxFifo.take m := by
  induction k generalizing r s with
  | zero => exact ⟨s.rxBuf, 0, rfl, by simp, hlen, by simp⟩
  | succ k ih =>
    by_cases hr : r < spiDmaBufLen
    · cases hf : s.rxFifo with
      | nil =>
        refine ⟨s.rxBuf, 0, ?_, by simp, hlen, by simp⟩
        simp only [drainFifo, if_pos hr, hf, List.drop_nil, Nat.add_zero]
        rw [← hf]
      | cons b bs =>
        have hlen' : (s.rxBuf.set r b).length = spiDmaBufLen := by rw [List.length_set, hlen]
        obtain ⟨buf, m, heq, hm, hbuf, htake⟩ :=
          ih (r + 1) { s with rxBuf := s.rxBuf.set r b, rxFifo := bs } hlen'
        refine ⟨buf, m + 1, ?_, ?_, hbuf, ?_⟩
        · simp only [drainFifo, if_pos hr, hf, heq, List.drop_succ_cons]
          rw [Nat.add_right_comm, Nat.add_assoc]
        · simp only [List.length_cons] at hm ⊢
          omega
        · rw [show r + (m + 1) = r + 1 + m from Nat.add_right_comm r m 1, htake,
            take_set_append b (hlen.symm ▸ hr), List.append_assoc]
          rfl
    · refine ⟨s.rxBuf, 0, by simp only [drainFifo, if_neg hr, List.drop_zero, Nat.add_zero], ?_,
        hlen, by simp⟩
      omega

/-- The errors latched so far, and whether there is one. -/
lemma errorConsume_spec (s : SpiHw σ) :
    (s.errorConsume.2 = false ∧ s.errorConsume.1 = s ∧ s.rx.err = false ∧ s.tx.err = false ∧
      s.status.errorPending = false) ∨
    (s.errorConsume.2 = true ∧ (s.rx.err || s.tx.err || s.status.errorPending) = true ∧
      ∃ st : SpiDmaStatus, st.errorPending = false ∧ s.errorConsume.1 = { s with
        rx := { s.rx with err := false }, tx := { s.tx with err := false }, status := st }) := by
  obtain ⟨d, sl, rb, tb, ⟨re, te, rf, tf, p⟩, ⟨rn, rerr, ra, rc⟩, ⟨tn, terr, ta, tc⟩, rxf, txf, ov,
    nss, pd, pc⟩ := s
  cases rerr <;> cases terr <;> cases p
  · exact .inl ⟨rfl, rfl, rfl, rfl, rfl⟩
  all_goals exact .inr ⟨rfl, rfl, _, rfl, rfl⟩

/-- RX is loaded afresh, or left as it is with the error flagged. -/
lemma armRx_cases (reads : List Bool) (s : SpiHw σ) :
    s.armRx reads = { s with rx := { s.rx with enabled := true, addr := 0, count := spiDmaBufLen } } ∨
      ∃ st : SpiDmaStatus, st.errorPending = true ∧ s.armRx reads = { s with status := st } := by
  simp only [armRx, DmaChannel.disableConfirm]
  split_ifs
  · exact .inl rfl
  · exact .inr ⟨_, rfl, rfl⟩

lemma armTx_cases (reads : List Bool) (len : ℕ) (s : SpiHw σ) :
    ∃ tx st, s.armTx reads len = { s with tx := tx, status := st } ∧
      (st = s.status ∨ st.errorPending = true) := by
  simp only [armTx]
  generalize s.tx.disableConfirm reads = x
  obtain ⟨tx, _ | _⟩ := x
  · exact ⟨tx, _, rfl, .inr rfl⟩
  · by_cases hlen : len = 0
    · exact ⟨tx, s.status, if_pos hlen, .inl rfl⟩
    · exact ⟨tx.load len, s.status, if_neg hlen, .inl rfl⟩

end SpiHw

/-! ### What a stretch does -/

/-- The stretches of the handler, each with the state it ends in. -/
inductive CsStretch (hal : Hal σ) (reads reads' : List Bool) (inFlight : Bool) (s : SpiHw σ) :
    SpiHw σ → Prop
  | enter (hpc : s.pc = .idle) (hpd : s.pd &&& extiGroup ≠ 0) :
      CsStretch hal reads reads' inFlight s { s with pc := .entered (s.pd &&& extiGroup) }
  | skip {g : UInt32} (hpc : s.pc = .entered g) (hg : csPending g = false) :
      CsStretch hal reads reads' inFlight s { s with pc := .leaving g }
  | select {g : UInt32} (hpc : s.pc = .entered g) (hg : csPending g = true) (hnss : s.nss = false) :
      CsStretch hal reads reads' inFlight s { s with pc := .selected g }
  | release {g : UInt32} (hpc : s.pc = .entered g) (hg : csPending g = true) (hnss : s.nss = true) :
      CsStretch hal reads reads' inFlight s { s with pc := .released g }
  /-- a falling edge -/
  | arm {g : UInt32} (hpc : s.pc = .selected g) :
      CsStretch hal reads reads' inFlight s
        { SpiHw.armRx reads { s with slave := s.slave.csLow } with pc := .leaving g }
  | drop {g : UInt32} {e e' : Bool} (hpc : s.pc = .released g)
      (hout : ((s.rx.disableConfirm reads).2 && (s.tx.disableConfirm reads').2) = false) :
      CsStretch hal reads reads' inFlight s
        { s with
          rx := { s.rx with enabled := e }, tx := { s.tx with enabled := e' }
          rxFifo := [], txFifo := [], overrun := false
          slave := s.slave.csLow, pc := .leaving g }
  | quiesce {g : UInt32} (hpc : s.pc = .released g)
      (hout : ((s.rx.disableConfirm reads).2 && (s.tx.disableConfirm reads').2) = true) :
      CsStretch hal reads reads' inFlight s
        { s with
          rx := { s.rx with enabled := false }, tx := { s.tx with enabled := false }
          pc := .quiesced g }
  | fail {g : UInt32} {st : SpiDmaStatus} {slave : SpiSlave} {bs : List UInt8}
      {rx tx : DmaChannel} (hpc : s.pc = .quiesced g)
      (herr : (s.rx.err || s.tx.err || s.status.errorPending || s.overrun) = true)
      (hst : st.errorPending = false) (hrx : rx = { s.rx with err := false })
      (htx : tx = { s.tx with err := false })
      (hreply : (s.slave.transportError s.dev.links.spi).armTx spiDmaBufLen = (slave, bs)) :
      CsStretch hal reads reads' inFlight s
        { s with
          rx := rx, tx := tx, status := st, rxFifo := [], txFifo := [], overrun := false
          slave := slave, txBuf := bs ++ s.txBuf.drop bs.length, pc := .failing g bs.length }
  | clean {g : UInt32} (hpc : s.pc = .quiesced g) (hrx : s.rx.err = false) (htx : s.tx.err = false)
      (hpend : s.status.errorPending = false) (hover : s.overrun = false) :
      CsStretch hal reads reads' inFlight s { s with pc := .capturing g }
  | take {g : UInt32} {x : SpiHw σ} {n : ℕ} (hpc : s.pc = .capturing g)
      (htake : s.drainFifo spiFifoFrames
        (if s.rx.count ≤ spiDmaBufLen then spiDmaBufLen - s.rx.count else 0) = (x, n)) :
      CsStretch hal reads reads' inFlight s { x with pc := .captured g n }
  | feed {g : UInt32} {n : ℕ} (hpc : s.pc = .captured g n) :
      CsStretch hal reads reads' inFlight s
        { s with
          rxFifo := [], txFifo := [], overrun := false
          slave := (s.rxBuf.take n).foldl SpiSlave.rxByte s.slave.csLow, pc := .fed g }
  | rearm {g : UInt32} (hpc : s.pc = .fed g) :
      CsStretch hal reads reads' inFlight s { s.armRx reads with pc := .decoding g }
  | decode {g : UInt32} {d : Device σ} {slave slave' : SpiSlave} {ev : SpiEvent} {bs : List UInt8}
      (hpc : s.pc = .decoding g)
      (hcall : spiSlaveCsHigh hal inFlight s.dev s.slave = (d, slave, ev))
      (hev : ∀ cmd payload, ev ≠ .lost cmd payload)
      (hreply : slave.armTx spiDmaBufLen = (slave', bs)) :
      CsStretch hal reads reads' inFlight s
        { s with
          dev := d, slave := slave', txBuf := bs ++ s.txBuf.drop bs.length
          pc := .staged g bs.length }
  | rearmFailed {g : UInt32} {n : ℕ} (hpc : s.pc = .failing g n) :
      CsStretch hal reads reads' inFlight s { s.armRx reads with pc := .staged g n }
  | armTx {g : UInt32} {n : ℕ} (hpc : s.pc = .staged g n) :
      CsStretch hal reads reads' inFlight s { s.armTx reads n with pc := .leaving g }
  | leave {g : UInt32} (hpc : s.pc = .leaving g) :
      CsStretch hal reads reads' inFlight s { s with pd := s.pd &&& ~~~g, pc := .idle }

/-- The handler takes these stretches and no others. -/
theorem CsStretch.of_csHandler {hal : Hal σ} {reads reads' : List Bool} {inFlight : Bool}
    {s s' : SpiHw σ} (h : csHandler hal reads reads' inFlight s = some s') :
    CsStretch hal reads reads' inFlight s s' := by
  simp only [csHandler] at h
  split at h
  · next hpc =>
    split_ifs at h with hpd
    cases h
    exact .enter hpc hpd
  · next g hpc =>
    split_ifs at h with hg hnss
    · cases h
      exact .release hpc hg hnss
    · cases h
      exact .select hpc hg (Bool.eq_false_iff.mpr hnss)
    · cases h
      exact .skip hpc (Bool.eq_false_iff.mpr hg)
  · next g hpc =>
    cases h
    exact .arm hpc
  · next g hpc =>
    obtain ⟨e, hrx, he⟩ := s.rx.disableConfirm_eq reads
    obtain ⟨e', htx, he'⟩ := s.tx.disableConfirm_eq reads'
    have hdrop := @CsStretch.drop σ hal reads reads' inFlight s g e e' hpc
    have hquiesce := @CsStretch.quiesce σ hal reads reads' inFlight s g hpc
    rw [← Prod.eta (s.rx.disableConfirm reads), ← Prod.eta (s.tx.disableConfirm reads')] at h
    simp only [hrx, htx] at h
    cases hr : (s.rx.disableConfirm reads).2 with
    | false =>
      simp only [hr, Bool.not_false, Bool.true_or, if_true] at h
      cases h
      exact hdrop (by rw [hr]; rfl)
    | true =>
      cases ht : (s.tx.disableConfirm reads').2 with
      | false =>
        simp only [hr, ht, Bool.not_false, Bool.or_true, if_true] at h
        cases h
        exact hdrop (by rw [hr, ht]; rfl)
      | true =>
        simp only [hr, ht, Bool.not_true, Bool.or_false, Bool.false_eq_true, if_false, he hr,
          he' ht] at h
        cases h
        exact hquiesce (by rw [hr, ht]; rfl)
  · next g hpc =>
    rw [← Prod.eta s.errorConsume] at h
    rcases s.errorConsume_spec with ⟨hno, hsame, hrx, htx, hpend⟩ | ⟨hyes, herr, st, hst, heq⟩
    · simp only [hno, hsame, Bool.false_or] at h
      split_ifs at h with hover
      · have herr : (s.rx.err || s.tx.err || s.status.errorPending || s.overrun) = true := by
          rw [hover, Bool.or_true]
        simp only [SpiHw.drainReply, SpiHw.flush] at h
        generalize hreply : SpiSlave.armTx spiDmaBufLen _ = y at h
        obtain ⟨slave, bs⟩ := y
        cases h
        exact .fail hpc herr hpend (by rw [← hrx]) (by rw [← htx]) hreply
      · cases h
        exact .clean hpc hrx htx hpend (Bool.eq_false_iff.mpr hover)
    · simp only [hyes, heq, Bool.true_or, if_true, SpiHw.drainReply, SpiHw.flush] at h
      generalize hreply : SpiSlave.armTx spiDmaBufLen _ = y at h
      obtain ⟨slave, bs⟩ := y
      cases h
      refine .fail hpc ?_ hst rfl rfl hreply
      rw [herr, Bool.true_or]
  · next g hpc =>
    cases h
    exact .take hpc (Prod.eta _).symm
  · next g n hpc =>
    cases h
    exact .feed hpc
  · next g hpc =>
    cases h
    exact .rearm hpc
  · next g hpc =>
    split at h
    · cases h
    · next d slave ev hev hcall =>
      simp only [SpiHw.drainReply] at h
      generalize hreply : SpiSlave.armTx spiDmaBufLen _ = y at h
      obtain ⟨slave', bs⟩ := y
      cases h
      exact .decode hpc hcall (fun cmd payload he => hev cmd payload he) hreply
  · next g n hpc =>
    cases h
    exact .rearmFailed hpc
  · next g n hpc =>
    cases h
    exact .armTx hpc
  · next g hpc =>
    cases h
    exact .leave hpc

end Gd32Bridge
