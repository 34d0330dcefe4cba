import Gd32Bridge.Lib.Transition
import Gd32Bridge.Link.SpiDma

/-!
# What the SPI link decodes

Edges that coalesce, edges that fall into a running pass of the handler, channels that do not stop
in time, overruns, failed transfers: the bytes the firmware decodes are still bytes the host has
clocked, in their order and none of them twice.  As long as every quiesce is confirmed they are
also whole: a capture is a segment of the stream, with nothing missing in it and nothing from
before the capture decoded last.

The history of a run holds the stream the host has clocked and the captures decoded.
-/

namespace Gd32Bridge

open Transition

/-! ### Segments of a stream -/

/-- The captures are segments of the stream, one behind the other. -/
inductive Segments {α : Type} : List (List α) → List α → Prop
  | start (l : List α) : Segments [] l
  | next {cs : List (List α)} {l : List α} (h : Segments cs l) (gap c gap' : List α) :
      Segments (cs ++ [c]) (l ++ (gap ++ c ++ gap'))

namespace Segments

variable {α : Type} {cs : List (List α)} {l : List α}

lemma append (h : Segments cs l) (l' : List α) : Segments cs (l ++ l') := by
  induction h with
  | start l => exact .start _
  | next h gap c gap' ih =>
    rw [List.append_assoc, List.append_assoc]
    exact .next h gap c (gap' ++ l')

end Segments

/-! ### The history -/

variable {σ : Type}

structure CaptureHistory where
  /-- the bytes clocked while the slave was selected -/
  clocked : List UInt8
  /-- the captures `decode_and_dispatch` was called on -/
  decoded : List (List UInt8)
  /-- a channel did not read back disabled at the end of a transaction -/
  timedOut : Bool
deriving DecidableEq

namespace SpiHwLabel

/-- The bytes clocked in a step. -/
def clocks : SpiHwLabel σ → List UInt8
  | clock b => [b]
  | _ => []

/-- The capture decoded in a step. -/
def decodes (s : SpiHw σ) : SpiHwLabel σ → List (List UInt8)
  | handler _ _ _ =>
    match s.pc with
    | .decoding _ => [s.slave.rx.bytes]
    | _ => []
  | _ => []

/-- The step finds a channel that does not stop. -/
def timesOut (s : SpiHw σ) : SpiHwLabel σ → Bool
  | handler reads reads' _ =>
    match s.pc with
    | .released _ => !(s.rx.disableConfirm reads).2 || !(s.tx.disableConfirm reads').2
    | _ => false
  | _ => false

end SpiHwLabel

def captureUpd (h : CaptureHistory) (s : SpiHw σ) (l : SpiHwLabel σ) (_ : SpiHw σ) :
    CaptureHistory where
  clocked := h.clocked ++ l.clocks
  decoded := h.decoded ++ l.decodes s
  timedOut := h.timedOut || l.timesOut s

/-- The link as `bridge_transport_spi_hw_init` leaves it, whatever RX read back and wherever the
chip select is. -/
def CaptureStart (x : SpiHw σ × CaptureHistory) : Prop :=
  (∃ reads nss d, x.1 = .init reads nss d) ∧ x.2 = ⟨[], [], false⟩

/-! ### The bytes still to be decoded -/

/-- The stretches in which RX has read back disabled and has not been loaded again. -/
def CsPc.quiet : CsPc → Bool
  | .quiesced _ => true
  | .capturing _ => true
  | .captured _ _ => true
  | _ => false

namespace SpiHw

/-- Where RX writes, and that it does not write while its residue is taken. -/
structure Shape (s : SpiHw σ) : Prop where
  split : s.rx.addr + s.rx.count = spiDmaBufLen
  length : s.rxBuf.length = spiDmaBufLen
  quiet : s.pc.quiet = true → s.rx.enabled = false

/-- The bytes RX has written since it was loaded. -/
def window (s : SpiHw σ) : List UInt8 :=
  s.rxBuf.take s.rx.addr

/-- The bytes that precede those in the FIFO.  With an error pending the window is not going to be
decoded. -/
def front (s : SpiHw σ) : List UInt8 :=
  let settled := if s.status.errorPending then [] else s.window
  match s.pc with
  | .capturing _ => s.window
  | .captured _ received => s.rxBuf.take received
  | .fed _ => s.slave.rx.bytes
  | .decoding _ => s.slave.rx.bytes ++ settled
  | .failing _ _ => []
  | _ => settled

/-- The bytes that may still be decoded. -/
def held (s : SpiHw σ) : List UInt8 :=
  s.front ++ s.rxFifo

lemma Shape.window_beat {s : SpiHw σ} (h : s.Shape) (b : UInt8) (hc : s.rx.count ≠ 0) :
    (s.rxBuf.set s.rx.addr b).take (s.rx.addr + 1) = s.window ++ [b] := by
  have hlt : s.rx.addr < s.rxBuf.length := by
    rw [h.length, ← h.split]
    exact Nat.lt_add_of_pos_right (Nat.pos_of_ne_zero hc)
  exact take_set_append b hlt

/-! ### One step -/

section

variable {hal : Hal σ} {s s' : SpiHw σ} {l : SpiHwLabel σ}

/-- An RX transfer outside the quiet stretches. -/
lemma Shape.beat_rx (h : s.Shape) (hs : spiHwStep hal s (.beat .rx) = some s') :
    ∃ b bs, s.rxFifo = b :: bs ∧ s.pc.quiet = false ∧ s'.rxFifo = bs ∧
      s'.window = s.window ++ [b] ∧ s'.Shape ∧
      s' = { s with rxBuf := s'.rxBuf, rxFifo := bs, rx := s.rx.advance } := by
  simp only [spiHwStep] at hs
  split at hs
  · cases hs
  · next b bs hf =>
    split_ifs at hs with hgo
    obtain ⟨hen, hc⟩ := (Bool.and_eq_true _ _).mp hgo
    have hc : s.rx.count ≠ 0 := of_decide_eq_true hc
    have hquiet : s.pc.quiet = false := by
      cases hq : s.pc.quiet with
      | false => rfl
      | true =>
        rw [h.quiet hq] at hen
        cases hen
    cases hs
    refine ⟨b, bs, hf, hquiet, rfl, h.window_beat b hc, ⟨?_, ?_, ?_⟩, rfl⟩
    · have := h.split
      simp only [DmaChannel.advance]
      omega
    · rw [List.length_set, h.length]
    · intro hq
      rw [hquiet] at hq
      cases hq

/-- Loading RX starts a fresh window; failing to makes the old one void. -/
lemma armRx_spec (hsplit : s.rx.addr + s.rx.count = spiDmaBufLen) (reads : List Bool) :
    ∃ rx st, s.armRx reads = { s with rx := rx, status := st } ∧
      rx.addr + rx.count = spiDmaBufLen ∧
      (if st.errorPending then [] else s.rxBuf.take rx.addr) = [] := by
  rcases s.armRx_cases reads with heq | ⟨st, hst, heq⟩
  · exact ⟨_, s.status, heq, Nat.zero_add _, by rw [List.take_zero, ite_self]⟩
  · exact ⟨s.rx, st, heq, hsplit, by rw [hst, if_pos rfl]⟩

lemma Shape.step (h : s.Shape) (hs : spiHwStep hal s l = some s') : s'.Shape := by
  cases l with
  | cs high =>
    simp only [spiHwStep] at hs
    split_ifs at hs
    cases hs
    exact ⟨h.split, h.length, h.quiet⟩
  | clock b =>
    simp only [spiHwStep] at hs
    split_ifs at hs
    all_goals
      cases hs
      exact ⟨h.split, h.length, h.quiet⟩
  | line mask =>
    cases hs
    exact ⟨h.split, h.length, h.quiet⟩
  | beat ch =>
    cases ch with
    | rx =>
      obtain ⟨b, bs, -, -, -, -, hshape, -⟩ := h.beat_rx hs
      exact hshape
    | tx =>
      simp only [spiHwStep] at hs
      split_ifs at hs
      cases hs
      exact ⟨h.split, h.length, h.quiet⟩
  | fault ch =>
    cases ch with
    | rx =>
      simp only [spiHwStep] at hs
      split_ifs at hs
      cases hs
      exact ⟨h.split, h.length, fun _ => rfl⟩
    | tx =>
      simp only [spiHwStep] at hs
      split_ifs at hs
      cases hs
      exact ⟨h.split, h.length, h.quiet⟩
  | stops ch =>
    cases ch with
    | rx =>
      cases hs
      exact ⟨h.split, h.length, fun _ => rfl⟩
    | tx =>
      cases hs
      exact ⟨h.split, h.length, h.quiet⟩
  | dmaIrq ch =>
    simp only [spiHwStep] at hs
    split_ifs at hs
    cases hs
    cases ch with
    | rx =>
      simp only [latchError]
      split_ifs <;> exact ⟨h.split, h.length, h.quiet⟩
    | tx =>
      simp only [latchError]
      split_ifs <;> exact ⟨h.split, h.length, h.quiet⟩
  | handler reads reads' inFlight =>
    cases CsStretch.of_csHandler hs with
    | enter hpc hpd => exact ⟨h.split, h.length, by simp [CsPc.quiet]⟩
    | skip hpc hg => exact ⟨h.split, h.length, by simp [CsPc.quiet]⟩
    | select hpc hg hnss => exact ⟨h.split, h.length, by simp [CsPc.quiet]⟩
    | release hpc hg hnss => exact ⟨h.split, h.length, by simp [CsPc.quiet]⟩
    | arm hpc =>
      obtain ⟨rx, st, heq, hsplit, -⟩ := @armRx_spec _ { s with slave := s.slave.csLow } h.split
        reads
      rw [heq]
      exact ⟨hsplit, h.length, by simp [CsPc.quiet]⟩
    | drop hpc hout => exact ⟨h.split, h.length, by simp [CsPc.quiet]⟩
    | quiesce hpc hout => exact ⟨h.split, h.length, fun _ => rfl⟩
    | fail hpc herr hst hrx htx hreply =>
      rw [hrx]
      exact ⟨h.split, h.length, by simp [CsPc.quiet]⟩
    | clean hpc hrx htx hpend hover => exact ⟨h.split, h.length, fun _ => h.quiet (by rw [hpc]; rfl)⟩
    | take hpc htake =>
      obtain ⟨buf, m, heq, -, hbuf, -⟩ := s.drainFifo_spec spiFifoFrames
        (if s.rx.count ≤ spiDmaBufLen then spiDmaBufLen - s.rx.count else 0) h.length
      rw [htake] at heq
      cases heq
      exact ⟨h.split, hbuf, fun _ => h.quiet (by rw [hpc]; rfl)⟩
    | feed hpc => exact ⟨h.split, h.length, by simp [CsPc.quiet]⟩
    | rearm hpc =>
      obtain ⟨rx, st, heq, hsplit, -⟩ := armRx_spec h.split reads
      rw [heq]
      exact ⟨hsplit, h.length, by simp [CsPc.quiet]⟩
    | decode hpc hcall hev hreply => exact ⟨h.split, h.length, by simp [CsPc.quiet]⟩
    | rearmFailed hpc =>
      obtain ⟨rx, st, heq, hsplit, -⟩ := armRx_spec h.split reads
      rw [heq]
      exact ⟨hsplit, h.length, by simp [CsPc.quiet]⟩
    | @armTx g n hpc =>
      obtain ⟨tx, st, heq, -⟩ := s.armTx_cases reads n
      rw [heq]
      exact ⟨h.split, h.length, by simp [CsPc.quiet]⟩
    | leave hpc => exact ⟨h.split, h.length, by simp [CsPc.quiet]⟩
  | other d =>
    cases hs
    exact ⟨h.split, h.length, h.quiet⟩

/-- The residue the handler takes is the window. -/
lemma Shape.residue (h : s.Shape) :
    (if s.rx.count ≤ spiDmaBufLen then spiDmaBufLen - s.rx.count else 0) = s.rx.addr := by
  have hsplit := h.split
  rw [if_pos (by omega)]
  omega

/-! ### The receive side between the stretches -/

/-- The step leaves what has been received alone; errors do not go away. -/
structure SameRx (s s' : SpiHw σ) : Prop where
  pc : s'.pc = s.pc
  slave : s'.slave = s.slave
  rxBuf : s'.rxBuf = s.rxBuf
  addr : s'.rx.addr = s.rx.addr
  pending : s'.status.errorPending = false → s.status.errorPending = false
  err : s'.rx.err = false → s'.status.errorPending = false → s.rx.err = false

lemma SameRx.window (h : SameRx s s') : s'.window = s.window := by
  rw [SpiHw.window, SpiHw.window, h.rxBuf, h.addr]

/-- What happens to the bytes received outside the handler, with the byte clocked. -/
inductive RxMove (s s' : SpiHw σ) : List UInt8 → Prop
  | none (same : SameRx s s') (hfifo : s'.rxFifo = s.rxFifo) (hover : s'.overrun = s.overrun) :
      RxMove s s' []
  | stored (same : SameRx s s') (b : UInt8) (hroom : s.rxFifo.length < spiFifoFrames)
      (hfifo : s'.rxFifo = s.rxFifo ++ [b]) (hover : s'.overrun = s.overrun) : RxMove s s' [b]
  | overran (same : SameRx s s') (b : UInt8) (hfull : ¬ s.rxFifo.length < spiFifoFrames)
      (hfifo : s'.rxFifo = s.rxFifo) (hover : s'.overrun = true) : RxMove s s' [b]
  | faulted (same : SameRx s s') (hquiet : s.pc.quiet = false) (hfifo : s'.rxFifo = s.rxFifo.tail)
      (hover : s'.overrun = s.overrun) (herr : s'.rx.err = true) : RxMove s s' []
  | beat (b : UInt8) (hquiet : s.pc.quiet = false) (hpc : s'.pc = s.pc) (hslave : s'.slave = s.slave)
      (hfifo : s.rxFifo = b :: s'.rxFifo) (hwindow : s'.window = s.window ++ [b])
      (hover : s'.overrun = s.overrun) (hstatus : s'.status = s.status)
      (herr : s'.rx.err = s.rx.err) : RxMove s s' []

lemma RxMove.of_step (h : s.Shape) (hl : ∀ reads reads' inFlight, l ≠ .handler reads reads' inFlight)
    (hs : spiHwStep hal s l = some s') : RxMove s s' l.clocks := by
  cases l with
  | cs high =>
    simp only [spiHwStep] at hs
    split_ifs at hs
    cases hs
    exact .none ⟨rfl, rfl, rfl, rfl, id, fun he _ => he⟩ rfl rfl
  | clock b =>
    simp only [spiHwStep] at hs
    by_cases hnss : s.nss = true
    · rw [if_pos hnss] at hs
      cases hs
    · rw [if_neg hnss] at hs
      by_cases hroom : s.rxFifo.length < spiFifoFrames
      · rw [if_pos hroom] at hs
        cases hs
        refine .stored ?_ b hroom rfl rfl
        exact ⟨rfl, rfl, rfl, rfl, id, fun he _ => he⟩
      · rw [if_neg hroom] at hs
        cases hs
        refine .overran ?_ b hroom rfl rfl
        exact ⟨rfl, rfl, rfl, rfl, id, fun he _ => he⟩
  | line mask =>
    cases hs
    exact .none ⟨rfl, rfl, rfl, rfl, id, fun he _ => he⟩ rfl rfl
  | beat ch =>
    cases ch with
    | rx =>
      obtain ⟨b, bs, hfifo, hquiet, hfifo', hwindow, -, heq⟩ := h.beat_rx hs
      rw [← hfifo'] at hfifo
      exact .beat b hquiet (by rw [heq]) (by rw [heq]) hfifo hwindow (by rw [heq]) (by rw [heq])
        (by rw [heq]; rfl)
    | tx =>
      simp only [spiHwStep] at hs
      split_ifs at hs
      cases hs
      exact .none ⟨rfl, rfl, rfl, rfl, id, fun he _ => he⟩ rfl rfl
  | fault ch =>
    cases ch with
    | rx =>
      simp only [spiHwStep] at hs
      split_ifs at hs with hen
      have hquiet : s.pc.quiet = false := by
        cases hq : s.pc.quiet with
        | false => rfl
        | true =>
          rw [h.quiet hq] at hen
          cases hen
      cases hs
      exact .faulted ⟨rfl, rfl, rfl, rfl, id, (by cases ·)⟩ hquiet rfl rfl rfl
    | tx =>
      simp only [spiHwStep] at hs
      split_ifs at hs
      cases hs
      exact .none ⟨rfl, rfl, rfl, rfl, id, fun he _ => he⟩ rfl rfl
  | stops ch =>
    cases ch with
    | rx =>
      cases hs
      exact .none ⟨rfl, rfl, rfl, rfl, id, fun he _ => he⟩ rfl rfl
    | tx =>
      cases hs
      exact .none ⟨rfl, rfl, rfl, rfl, id, fun he _ => he⟩ rfl rfl
  | dmaIrq ch =>
    simp only [spiHwStep] at hs
    split_ifs at hs
    cases hs
    cases ch with
    | rx =>
      simp only [latchError]
      split_ifs
      · exact .none ⟨rfl, rfl, rfl, rfl, (by cases ·), fun _ => (by cases ·)⟩ rfl rfl
      · exact .none ⟨rfl, rfl, rfl, rfl, id, fun he _ => he⟩ rfl rfl
    | tx =>
      simp only [latchError]
      split_ifs
      · exact .none ⟨rfl, rfl, rfl, rfl, (by cases ·), fun _ => (by cases ·)⟩ rfl rfl
      · exact .none ⟨rfl, rfl, rfl, rfl, id, fun he _ => he⟩ rfl rfl
  | handler reads reads' inFlight => exact absurd rfl (hl reads reads' inFlight)
  | other d =>
    cases hs
    exact .none ⟨rfl, rfl, rfl, rfl, id, fun he _ => he⟩ rfl rfl

/-! ### In order and at most once -/

lemma settled_sublist (hp : s'.status.errorPending = false → s.status.errorPending = false)
    (hw : s'.window = s.window) :
    (if s'.status.errorPending then [] else s'.window).Sublist
      (if s.status.errorPending then [] else s.window) := by
  cases hpend : s'.status.errorPending with
  | true => exact List.nil_sublist _
  | false =>
    rw [hp hpend, hw]

lemma SameRx.front (h : SameRx s s') : s'.front.Sublist s.front := by
  have hwindow := h.window
  have hsettled := settled_sublist h.pending hwindow
  simp only [SpiHw.front, h.pc, h.slave, h.rxBuf, hwindow] at hsettled ⊢
  cases s.pc with
  | capturing g => exact List.Sublist.refl _
  | captured g n => exact List.Sublist.refl _
  | fed g => exact List.Sublist.refl _
  | decoding g => exact hsettled.append_left _
  | failing g n => exact List.Sublist.refl _
  | idle => exact hsettled
  | entered g => exact hsettled
  | selected g => exact hsettled
  | released g => exact hsettled
  | quiesced g => exact hsettled
  | staged g n => exact hsettled
  | leaving g => exact hsettled

/-- A transfer moves the boundary between the window and the FIFO. -/
lemma front_beat {b : UInt8} (hquiet : s.pc.quiet = false) (hpc : s'.pc = s.pc)
    (hslave : s'.slave = s.slave) (hwindow : s'.window = s.window ++ [b])
    (hstatus : s'.status = s.status) : s'.front.Sublist (s.front ++ [b]) := by
  have hsettled : (if s.status.errorPending then [] else s.window ++ [b]).Sublist
      ((if s.status.errorPending then [] else s.window) ++ [b]) := by
    split_ifs
    · exact List.nil_sublist _
    · exact List.Sublist.refl _
  simp only [SpiHw.front, hpc, hslave, hwindow, hstatus] at hsettled ⊢
  cases hs : s.pc with
  | capturing g => exact absurd hquiet (by simp [hs, CsPc.quiet])
  | captured g n => exact absurd hquiet (by simp [hs, CsPc.quiet])
  | fed g => exact List.sublist_append_left _ _
  | decoding g =>
    simp only [List.append_assoc]
    exact hsettled.append_left _
  | failing g n => exact List.nil_sublist _
  | idle => exact hsettled
  | entered g => exact hsettled
  | selected g => exact hsettled
  | released g => exact hsettled
  | quiesced g => exact hsettled
  | staged g n => exact hsettled
  | leaving g => exact hsettled

lemma RxMove.held {bs : List UInt8} (h : RxMove s s' bs) : s'.held.Sublist (s.held ++ bs) := by
  cases h with
  | none same hfifo hover =>
    rw [SpiHw.held, SpiHw.held, hfifo, List.append_nil]
    exact same.front.append_right _
  | stored same b hroom hfifo hover =>
    rw [SpiHw.held, SpiHw.held, hfifo, List.append_assoc]
    exact same.front.append_right _
  | overran same b hfull hfifo hover =>
    rw [SpiHw.held, SpiHw.held, hfifo]
    exact (same.front.append_right _).trans (List.sublist_append_left _ _)
  | faulted same hquiet hfifo hover herr =>
    rw [SpiHw.held, SpiHw.held, hfifo, List.append_nil]
    exact same.front.append (List.tail_sublist _)
  | beat b hquiet hpc hslave hfifo hwindow hover hstatus herr =>
    rw [SpiHw.held, SpiHw.held, hfifo, List.append_nil]
    have := (front_beat hquiet hpc hslave hwindow hstatus).append_right s'.rxFifo
    rwa [List.append_assoc] at this

/-- A stretch of the handler keeps the bytes held, but for those it decodes. -/
lemma held_stretch {reads reads' : List Bool} {inFlight : Bool} (h : s.Shape)
    (hs : CsStretch hal reads reads' inFlight s s') :
    (((SpiHwLabel.handler reads reads' inFlight).decodes s).flatten ++ s'.held).Sublist s.held := by
  cases hs with
  | enter hpc hpd => simp [SpiHwLabel.decodes, SpiHw.held, SpiHw.front, window, hpc]
  | skip hpc hg => simp [SpiHwLabel.decodes, SpiHw.held, SpiHw.front, window, hpc]
  | select hpc hg hnss => simp [SpiHwLabel.decodes, SpiHw.held, SpiHw.front, window, hpc]
  | release hpc hg hnss => simp [SpiHwLabel.decodes, SpiHw.held, SpiHw.front, window, hpc]
  | arm hpc =>
    obtain ⟨rx, st, heq, -, hfront⟩ := @armRx_spec _ { s with slave := s.slave.csLow } h.split reads
    rw [heq]
    simp [SpiHwLabel.decodes, SpiHw.held, SpiHw.front, window, hpc, hfront]
  | drop hpc hout =>
    simp only [SpiHwLabel.decodes, SpiHw.held, SpiHw.front, window, hpc, List.flatten_nil,
      List.nil_append, List.append_nil]
    exact List.sublist_append_left _ _
  | quiesce hpc hout => simp [SpiHwLabel.decodes, SpiHw.held, SpiHw.front, window, hpc]
  | fail hpc herr hst hrx htx hreply =>
    simp [SpiHwLabel.decodes, SpiHw.held, SpiHw.front, hpc]
  | clean hpc hrx htx hpend hover =>
    simp [SpiHwLabel.decodes, SpiHw.held, SpiHw.front, window, hpc, hpend]
  | @take g x n hpc htake =>
    obtain ⟨buf, m, heq, -, -, hbytes⟩ := s.drainFifo_spec spiFifoFrames s.rx.addr h.length
    rw [h.residue, heq] at htake
    cases htake
    simp only [SpiHwLabel.decodes, SpiHw.held, SpiHw.front, window, hpc, List.flatten_nil,
      List.nil_append, hbytes, List.append_assoc, List.take_append_drop]
    exact List.Sublist.refl _
  | @feed g n hpc =>
    simp only [SpiHwLabel.decodes, SpiHw.held, SpiHw.front, hpc, List.flatten_nil, List.nil_append,
      List.append_nil, rxByte_foldl, SpiSlave.csLow, RxBuf.empty_feed_bytes]
    exact (List.take_sublist _ _).trans (List.sublist_append_left _ _)
  | rearm hpc =>
    obtain ⟨rx, st, heq, -, hfront⟩ := armRx_spec h.split reads
    rw [heq]
    simp [SpiHwLabel.decodes, SpiHw.held, SpiHw.front, window, hpc, hfront]
  | decode hpc hcall hev hreply =>
    simp [SpiHwLabel.decodes, SpiHw.held, SpiHw.front, window, hpc]
  | rearmFailed hpc =>
    obtain ⟨rx, st, heq, -, hfront⟩ := armRx_spec h.split reads
    rw [heq]
    simp [SpiHwLabel.decodes, SpiHw.held, SpiHw.front, window, hpc, hfront]
  | @armTx g n hpc =>
    obtain ⟨tx, st, heq, hst⟩ := s.armTx_cases reads n
    rw [heq]
    simp only [SpiHwLabel.decodes, SpiHw.held, SpiHw.front, window, hpc, List.flatten_nil,
      List.nil_append]
    rcases hst with rfl | hst
    · exact List.Sublist.refl _
    · simp [hst]
  | leave hpc => simp [SpiHwLabel.decodes, SpiHw.held, SpiHw.front, window, hpc]

/-- What is decoded and still held after a step was held before it, or clocked in it. -/
lemma held_step (h : s.Shape) (hs : spiHwStep hal s l = some s') :
    ((l.decodes s).flatten ++ s'.held).Sublist (s.held ++ l.clocks) := by
  by_cases hl : ∃ reads reads' inFlight, l = .handler reads reads' inFlight
  · obtain ⟨reads, reads', inFlight, rfl⟩ := hl
    rw [SpiHwLabel.clocks, List.append_nil]
    · exact held_stretch h (.of_csHandler hs)
    · rintro b ⟨⟩
  · have hl' : ∀ reads reads' inFlight, l ≠ .handler reads reads' inFlight := by
      intro reads reads' inFlight heq
      exact hl ⟨reads, reads', inFlight, heq⟩
    have hnone : l.decodes s = [] := by
      cases l with
      | handler reads reads' inFlight => exact absurd rfl (hl' reads reads' inFlight)
      | _ => rfl
    rw [hnone]
    exact (RxMove.of_step h hl' hs).held

/-! ### Whole and apart -/

/-- The bytes of the FIFO are the last ones clocked. -/
def FifoAt (s : SpiHw σ) (rest : List UInt8) : Prop :=
  s.overrun = false → s.rxFifo <:+ rest

/-- Unless an error is on record, the window ends where the FIFO begins. -/
def Live (s : SpiHw σ) (rest : List UInt8) : Prop :=
  s.FifoAt rest ∧ (s.overrun = false → s.rx.err = false → s.status.errorPending = false →
    s.window ++ s.rxFifo <:+ rest)

/-- Where the bytes held lie in the part of the stream behind the last capture decoded. -/
def CutAt (s : SpiHw σ) (rest : List UInt8) : Prop :=
  match s.pc with
  | .capturing _ =>
    s.window ++ s.rxFifo <:+ rest ∨
      (¬ s.rxFifo.length < spiFifoFrames ∧ s.window ++ s.rxFifo <:+: rest)
  | .captured _ received => s.rxBuf.take received <:+: rest
  | .fed _ => ∃ gap rest', rest = gap ++ s.slave.rx.bytes ++ rest' ∧ s.FifoAt rest'
  | .decoding _ => ∃ gap rest', rest = gap ++ s.slave.rx.bytes ++ rest' ∧ s.Live rest'
  | .failing _ _ => s.FifoAt rest
  | _ => s.Live rest

lemma FifoAt.move {rest bs : List UInt8} (h : s.FifoAt rest) (hm : RxMove s s' bs) :
    s'.FifoAt (rest ++ bs) := by
  intro hover'
  cases hm with
  | none same hfifo hover =>
    rw [hfifo, List.append_nil]
    exact h (hover ▸ hover')
  | stored same b hroom hfifo hover =>
    rw [hfifo, List.suffix_append_self_iff]
    exact h (hover ▸ hover')
  | overran same b hfull hfifo hover =>
    rw [hover] at hover'
    cases hover'
  | faulted same hquiet hfifo hover herr =>
    rw [hfifo, List.append_nil]
    exact (List.tail_suffix _).trans (h (hover ▸ hover'))
  | beat b hquiet hpc hslave hfifo hwindow hover hstatus herr =>
    rw [List.append_nil]
    have hsuffix := h (hover ▸ hover')
    rw [hfifo] at hsuffix
    exact (List.suffix_cons _ _).trans hsuffix

lemma Live.move {rest bs : List UInt8} (h : s.Live rest) (hm : RxMove s s' bs) :
    s'.Live (rest ++ bs) := by
  refine ⟨h.1.move hm, fun hover' herr' hpend' => ?_⟩
  cases hm with
  | none same hfifo hover =>
    rw [same.window, hfifo, List.append_nil]
    exact h.2 (hover ▸ hover') (same.err herr' hpend') (same.pending hpend')
  | stored same b hroom hfifo hover =>
    rw [same.window, hfifo, ← List.append_assoc, List.suffix_append_self_iff]
    exact h.2 (hover ▸ hover') (same.err herr' hpend') (same.pending hpend')
  | overran same b hfull hfifo hover =>
    rw [hover] at hover'
    cases hover'
  | faulted same hquiet hfifo hover herr =>
    rw [herr] at herr'
    cases herr'
  | beat b hquiet hpc hslave hfifo hwindow hover hstatus herr =>
    have hsuffix := h.2 (hover ▸ hover') (herr ▸ herr') (hstatus ▸ hpend')
    rw [hfifo] at hsuffix
    rw [hwindow, List.append_nil, List.append_assoc]
    exact hsuffix

/-- A loaded channel has an empty window. -/
lemma FifoAt.armed {rest : List UInt8} (h : s.FifoAt rest) (reads : List Bool) :
    (s.armRx reads).Live rest := by
  rcases s.armRx_cases reads with heq | ⟨st, hst, heq⟩
  · rw [heq]
    refine ⟨h, fun hover _ _ => ?_⟩
    rw [SpiHw.window, List.take_zero]
    exact h hover
  · rw [heq]
    refine ⟨h, fun _ _ hpend => ?_⟩
    rw [hst] at hpend
    cases hpend

lemma CutAt.move {rest bs : List UInt8} (h : s.CutAt rest) (hm : RxMove s s' bs) :
    s'.CutAt (rest ++ bs) := by
  have hpc : s'.pc = s.pc := by
    cases hm with
    | none same => exact same.pc
    | stored same => exact same.pc
    | overran same => exact same.pc
    | faulted same => exact same.pc
    | beat b hquiet hpc => exact hpc
  have hslave : s'.slave = s.slave := by
    cases hm with
    | none same => exact same.slave
    | stored same => exact same.slave
    | overran same => exact same.slave
    | faulted same => exact same.slave
    | beat b hquiet hpc hslave => exact hslave
  simp only [CutAt, hpc, hslave] at h ⊢
  cases hs : s.pc with
  | capturing g =>
    -- RX is stopped: a byte either fits into the FIFO or is lost behind a full one
    simp only [hs] at h ⊢
    cases hm with
    | none same hfifo hover =>
      rw [same.window, hfifo, List.append_nil]
      exact h
    | stored same b hroom hfifo hover =>
      rcases h with h | ⟨hfull, -⟩
      · rw [same.window, hfifo, ← List.append_assoc, List.suffix_append_self_iff]
        exact .inl h
      · exact absurd hroom hfull
    | overran same b hfull hfifo hover =>
      rw [same.window, hfifo]
      refine .inr ⟨hfull, ?_⟩
      rcases h with h | ⟨-, h⟩
      · exact h.isInfix.trans (List.prefix_append _ _).isInfix
      · exact h.trans (List.prefix_append _ _).isInfix
    | faulted same hquiet => simp [hs, CsPc.quiet] at hquiet
    | beat b hquiet => simp [hs, CsPc.quiet] at hquiet
  | captured g n =>
    simp only [hs] at h ⊢
    have hbuf : s'.rxBuf = s.rxBuf := by
      cases hm with
      | none same => exact same.rxBuf
      | stored same => exact same.rxBuf
      | overran same => exact same.rxBuf
      | faulted same hquiet => simp [hs, CsPc.quiet] at hquiet
      | beat b hquiet => simp [hs, CsPc.quiet] at hquiet
    rw [hbuf]
    exact h.trans (List.prefix_append _ _).isInfix
  | fed g =>
    simp only [hs] at h ⊢
    obtain ⟨gap, rest', rfl, h⟩ := h
    exact ⟨gap, rest' ++ bs, List.append_assoc _ _ _, h.move hm⟩
  | decoding g =>
    simp only [hs] at h ⊢
    obtain ⟨gap, rest', rfl, h⟩ := h
    exact ⟨gap, rest' ++ bs, List.append_assoc _ _ _, h.move hm⟩
  | failing g n =>
    simp only [hs] at h ⊢
    exact h.move hm
  | idle =>
    simp only [hs] at h ⊢
    exact h.move hm
  | entered g =>
    simp only [hs] at h ⊢
    exact h.move hm
  | selected g =>
    simp only [hs] at h ⊢
    exact h.move hm
  | released g =>
    simp only [hs] at h ⊢
    exact h.move hm
  | quiesced g =>
    simp only [hs] at h ⊢
    exact h.move hm
  | staged g n =>
    simp only [hs] at h ⊢
    exact h.move hm
  | leaving g =>
    simp only [hs] at h ⊢
    exact h.move hm

/-- A stretch of the handler closes the part of the stream up to the capture it decodes. -/
lemma CutAt.stretch {reads reads' : List Bool} {inFlight : Bool} {rest : List UInt8}
    (hsh : s.Shape) (h : s.CutAt rest) (hs : CsStretch hal reads reads' inFlight s s')
    (hin : (SpiHwLabel.handler reads reads' inFlight).timesOut s = false) :
    (∃ gap rest', rest = gap ++ s.slave.rx.bytes ++ rest' ∧
      (SpiHwLabel.handler reads reads' inFlight).decodes s = [s.slave.rx.bytes] ∧
      s'.CutAt rest') ∨
    ((SpiHwLabel.handler reads reads' inFlight).decodes s = [] ∧ s'.CutAt rest) := by
  cases hs with
  | enter hpc hpd =>
    simp only [CutAt, hpc] at h
    exact .inr ⟨by simp only [SpiHwLabel.decodes, hpc], h⟩
  | skip hpc hg =>
    simp only [CutAt, hpc] at h
    exact .inr ⟨by simp only [SpiHwLabel.decodes, hpc], h⟩
  | select hpc hg hnss =>
    simp only [CutAt, hpc] at h
    exact .inr ⟨by simp only [SpiHwLabel.decodes, hpc], h⟩
  | release hpc hg hnss =>
    simp only [CutAt, hpc] at h
    exact .inr ⟨by simp only [SpiHwLabel.decodes, hpc], h⟩
  | arm hpc =>
    simp only [CutAt, hpc] at h
    refine .inr ⟨by simp only [SpiHwLabel.decodes, hpc], ?_⟩
    exact @FifoAt.armed _ { s with slave := s.slave.csLow } _ h.1 reads
  | drop hpc hout =>
    simp only [SpiHwLabel.timesOut, hpc, Bool.or_eq_false_iff, Bool.not_eq_false'] at hin
    rw [hin.1, hin.2] at hout
    cases hout
  | quiesce hpc hout =>
    simp only [CutAt, hpc] at h
    exact .inr ⟨by simp only [SpiHwLabel.decodes, hpc], h⟩
  | fail hpc herr hst hrx htx hreply =>
    exact .inr ⟨by simp only [SpiHwLabel.decodes, hpc], fun _ => List.nil_suffix⟩
  | clean hpc hrx htx hpend hover =>
    simp only [CutAt, hpc] at h
    exact .inr ⟨by simp only [SpiHwLabel.decodes, hpc], .inl (h.2 hover hrx hpend)⟩
  | @take g x n hpc htake =>
    obtain ⟨buf, m, heq, -, -, hbytes⟩ := s.drainFifo_spec spiFifoFrames s.rx.addr hsh.length
    rw [hsh.residue, heq] at htake
    cases htake
    simp only [CutAt, hpc] at h
    refine .inr ⟨by simp only [SpiHwLabel.decodes, hpc], ?_⟩
    show buf.take (s.rx.addr + m) <:+: rest
    rw [hbytes]
    have hpre : s.rxBuf.take s.rx.addr ++ s.rxFifo.take m <:+: s.window ++ s.rxFifo :=
      ((List.prefix_append_right_inj _).mpr (List.take_prefix m s.rxFifo)).isInfix
    rcases h with h | ⟨-, h⟩
    · exact hpre.trans h.isInfix
    · exact hpre.trans h
  | @feed g n hpc =>
    simp only [CutAt, hpc] at h
    refine .inr ⟨by simp only [SpiHwLabel.decodes, hpc], ?_⟩
    -- the portable buffer keeps the first bytes of the capture
    have hkeep : (s.rxBuf.take n).take maxFrameBytes <:+: rest :=
      (List.take_prefix _ _).isInfix.trans h
    obtain ⟨gap, rest', heq⟩ := hkeep
    refine ⟨gap, rest', ?_, fun _ => List.nil_suffix⟩
    rw [← heq]
    simp only [rxByte_foldl, SpiSlave.csLow, RxBuf.empty_feed_bytes]
  | rearm hpc =>
    simp only [CutAt, hpc] at h
    obtain ⟨gap, rest', rfl, h⟩ := h
    refine .inr ⟨by simp only [SpiHwLabel.decodes, hpc], gap, rest', ?_, h.armed reads⟩
    obtain ⟨rx, st, heq, -, -⟩ := armRx_spec hsh.split reads
    rw [heq]
  | decode hpc hcall hev hreply =>
    simp only [CutAt, hpc] at h
    obtain ⟨gap, rest', hrest, h⟩ := h
    exact .inl ⟨gap, rest', hrest, by simp only [SpiHwLabel.decodes, hpc], h⟩
  | rearmFailed hpc =>
    simp only [CutAt, hpc] at h
    exact .inr ⟨by simp only [SpiHwLabel.decodes, hpc], h.armed reads⟩
  | @armTx g n hpc =>
    simp only [CutAt, hpc] at h
    refine .inr ⟨by simp only [SpiHwLabel.decodes, hpc], ?_⟩
    obtain ⟨tx, st, heq, hst⟩ := s.armTx_cases reads n
    rw [heq]
    rcases hst with rfl | hst
    · exact h
    · refine ⟨h.1, fun _ _ hpend => ?_⟩
      rw [hst] at hpend
      cases hpend
  | leave hpc =>
    simp only [CutAt, hpc] at h
    exact .inr ⟨by simp only [SpiHwLabel.decodes, hpc], h⟩

end

/-! ### Over a run -/

/-- Shape, the stream in order, and the stream in segments. -/
structure Capturing (s : SpiHw σ) (h : CaptureHistory) : Prop where
  shape : s.Shape
  held : (h.decoded.flatten ++ s.held).Sublist h.clocked
  cut : h.timedOut = false → ∃ pre rest, h.clocked = pre ++ rest ∧ Segments h.decoded pre ∧
    s.CutAt rest

lemma Capturing.start {s : SpiHw σ} {h : CaptureHistory} (hs : CaptureStart (s, h)) :
    Capturing s h := by
  obtain ⟨⟨reads, nss, d, rfl⟩, rfl⟩ := hs
  exact ⟨⟨rfl, rfl, by rintro ⟨⟩⟩, List.nil_sublist _,
    fun _ => ⟨[], [], rfl, .start [], fun _ => List.suffix_rfl, fun _ _ _ => List.suffix_rfl⟩⟩

/-- One step. -/
lemma Capturing.step {hal : Hal σ} {s s' : SpiHw σ} {l : SpiHwLabel σ} {h : CaptureHistory}
    (hc : Capturing s h) (hs : spiHwStep hal s l = some s') :
    Capturing s' (captureUpd h s l s') := by
  refine ⟨hc.shape.step hs, ?_, ?_⟩
  · -- in order
    have hheld := (held_step hc.shape hs).append_left h.decoded.flatten
    simp only [captureUpd, List.flatten_append, List.append_assoc] at hheld ⊢
    refine hheld.trans ?_
    rw [← List.append_assoc]
    exact hc.held.append_right _
  · -- in segments
    intro hin
    simp only [captureUpd, Bool.or_eq_false_iff] at hin
    obtain ⟨pre, rest, hclocked, hseg, hcut⟩ := hc.cut hin.1
    by_cases hl : ∃ reads reads' inFlight, l = .handler reads reads' inFlight
    · obtain ⟨reads, reads', inFlight, rfl⟩ := hl
      simp only [captureUpd, SpiHwLabel.clocks, List.append_nil, hclocked]
      rcases hcut.stretch hc.shape (.of_csHandler hs) hin.2 with
        ⟨gap, rest', rfl, hdec, hcut'⟩ | ⟨hdec, hcut'⟩
      · rw [hdec]
        have hnext := hseg.next gap s.slave.rx.bytes []
        rw [List.append_nil] at hnext
        exact ⟨pre ++ (gap ++ s.slave.rx.bytes), rest', by simp only [List.append_assoc], hnext,
          hcut'⟩
      · rw [hdec, List.append_nil]
        exact ⟨pre, rest, rfl, hseg, hcut'⟩
    · have hl' : ∀ reads reads' inFlight, l ≠ .handler reads reads' inFlight := by
        intro reads reads' inFlight heq
        exact hl ⟨reads, reads', inFlight, heq⟩
      have hnone : l.decodes s = [] := by
        cases l with
        | handler reads reads' inFlight => exact absurd rfl (hl' reads reads' inFlight)
        | _ => rfl
      simp only [captureUpd, hnone, List.append_nil, hclocked]
      exact ⟨pre, rest ++ l.clocks, List.append_assoc _ _ _, hseg,
        hcut.move (.of_step hc.shape hl' hs)⟩

lemma Capturing.of_reach {hal : Hal σ} {s : SpiHw σ} {h : CaptureHistory}
    (hr : Reach (withHistory (spiHwStep hal) captureUpd) CaptureStart (fun _ _ _ => True) (s, h)) :
    Capturing s h := by
  apply Reach.invariant (I := fun y : SpiHw σ × CaptureHistory => Capturing y.1 y.2) ?_ ?_ hr
  · rintro ⟨s, h⟩ hs
    exact .start hs
  · rintro ⟨s, h⟩ l ⟨s', h'⟩ - hc hs -
    obtain ⟨hstep, hh⟩ := withHistory_eq_some.mp hs
    simp only at hstep hh
    rw [hh]
    exact hc.step hstep

end SpiHw

/-- In every run of the link, with edges that coalesce or fall into a running pass, channels that
do not stop, overruns and failed transfers anywhere: the captures decoded are bytes the host has
clocked, in their order and none twice.  As long as every quiesce is confirmed, each capture is
one segment of what the host has clocked, and the segments do not overlap. -/
theorem spi_captures_of_reach {hal : Hal σ} {s : SpiHw σ} {h : CaptureHistory}
    (hr : Reach (withHistory (spiHwStep hal) captureUpd) CaptureStart (fun _ _ _ => True) (s, h)) :
    h.decoded.flatten.Sublist h.clocked ∧
      (h.timedOut = false → Segments h.decoded h.clocked) := by
  have hc := SpiHw.Capturing.of_reach hr
  refine ⟨(List.sublist_append_left _ _).trans hc.held, fun hin => ?_⟩
  obtain ⟨pre, rest, hclocked, hseg, -⟩ := hc.cut hin
  rw [hclocked]
  exact hseg.append rest

/-- A PING with both its edges served, while another line of the group fires. -/
def pingWire : List (SpiHwLabel Unit) :=
  let go := SpiHwLabel.handler [false] [false] false
  [.cs false, go, go, go, .line 0x80, go] ++
    (spiEnvelope 0x00 []).flatMap (fun b => [.clock b, .beat .rx]) ++
    [.cs true, go, go, go, go, go, go, go, go, go, go]

lemma pingWire_ends : (run (withHistory (spiHwStep .stub) captureUpd) (fun _ _ _ => true)
    (.init [] true restDevice, ⟨[], [], false⟩) pingWire).any
    (fun y => decide (y.2 = ⟨spiEnvelope 0x00 [], [spiEnvelope 0x00 []], false⟩)) = true := by
  decide +kernel

/-- The PING is decoded whole. -/
theorem spi_captures_ping : ∃ (s : SpiHw Unit) (h : CaptureHistory),
    Reach (withHistory (spiHwStep .stub) captureUpd) CaptureStart (fun _ _ _ => True) (s, h) ∧
      h.decoded = [spiEnvelope 0x00 []] ∧ h.decoded.flatten.Sublist h.clocked ∧
      Segments h.decoded h.clocked := by
  have hinit : Reach (withHistory (spiHwStep .stub) captureUpd) CaptureStart (fun _ _ _ => True)
      (.init [] true restDevice, ⟨[], [], false⟩) := .start ⟨⟨[], true, restDevice, rfl⟩, rfl⟩
  obtain ⟨⟨s, h⟩, hr, hq⟩ := hinit.exists_of_run _ _ _ (fun _ _ _ _ => trivial) pingWire_ends
  have hh : h = ⟨spiEnvelope 0x00 [], [spiEnvelope 0x00 []], false⟩ := of_decide_eq_true hq
  obtain ⟨hsub, hseg⟩ := spi_captures_of_reach hr
  exact ⟨s, h, hr, by rw [hh], hsub, hseg (by rw [hh])⟩

end Gd32Bridge
