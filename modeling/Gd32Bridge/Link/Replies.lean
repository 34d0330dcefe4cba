import Gd32Bridge.Lib.Padded
import Gd32Bridge.Link.InOrder

/-!
# The host reads the reply to what it has written

A byte of the reply passes through `I2C_TDATA` and the shift register before the host has it, and
the handlers may leave one in `I2C_TDATA` at any time; the flush at the next address match keeps it
out of the next read.  So the host reads the staged reply from where the cursor stands, without a
byte from anywhere else, and that reply answers exactly the frame of the write before it.  Only the
recovery from a stuck bus, which drops the reply at base level, can come in between.
-/

namespace Gd32Bridge

open Transition

variable {σ : Type}

/-- The reply side as a served addressed read leaves it, and the write before it. -/
structure ReadStart where
  reply : List UInt8
  cursor : ℕ
  write : WriteHistory
deriving DecidableEq, Repr

structure ReadHistory where
  log : BusHistory
  write : WriteHistory
  /-- the last addressed read that has been served -/
  read : Option ReadStart
  /-- the bytes the host has clocked in since -/
  host : List UInt8
  /-- the recovery from a stuck bus has dropped the reply since -/
  aborted : Bool
deriving DecidableEq, Repr

def readUpd (hal : Hal σ) (h : ReadHistory) (s : I2cHw σ) (l : I2cHwLabel σ) (s' : I2cHw σ) :
    ReadHistory :=
  let h := { h with log := busUpd h.log s l s', write := seamUpd hal h.write s l s' }
  match l with
  | .ev _ ti =>
    if s.serves ti = some (.addressed true) then
      { h with read := some ⟨s'.slave.tx, s'.slave.cursor, h.write⟩, host := [], aborted := false }
    else h
  | .clocked => { h with host := h.host ++ s.shift.toList }
  | .pollAbort => { h with aborted := true }
  | _ => h

def ReadLinkStart (x : I2cHw σ × ReadHistory) : Prop :=
  (∃ d, x.1 = .init d) ∧ x.2 = ⟨⟨[], []⟩, .start, none, [], false⟩

/-- The reply is the one `protocol_dispatch` has given to the frame of the write, or the
sentinel. -/
def ReadStart.Answers (r : ReadStart) : Prop :=
  r.write.calls.length ≤ 1 ∧
    (r.reply = I2cSlave.noPendingEnvelope ∨
      ∃ c ∈ r.write.calls, ∃ st p, c.reply = some (st, p) ∧
        r.write.received.take maxFrameBytes = i2cEnvelope c.cmd c.payload ∧
        r.reply = i2cReplyEnvelope st.code p)

/-! ### The slave behind the seam -/

/-- `tx_next_byte` will not restage. -/
def I2cSlave.Staged (s : I2cSlave) : Prop :=
  s.pendingReplyValid = true ∨ (s.cursor = 0 → s.tx = I2cSlave.noPendingEnvelope)

lemma I2cSlave.Staged.txNextByte {s : I2cSlave} (hs : s.Staged) :
    s.txNextByte.2 = (s.tx.drop s.cursor).headD 0xFF ∧
      s.txNextByte.1.tx.drop s.txNextByte.1.cursor = s.tx.drop (s.cursor + 1) ∧
      s.txNextByte.1.Staged := by
  have hkeep : (if (!s.pendingReplyValid && s.cursor == 0) = true then s.stageNoPending else s) =
      s := by
    split_ifs with hgo
    · simp only [Bool.and_eq_true, Bool.not_eq_true', beq_iff_eq] at hgo
      rcases hs with hs | hs
      · rw [hgo.1] at hs
        cases hs
      · rw [I2cSlave.stageNoPending, ← hs hgo.2, ← hgo.2]
    · rfl
  simp only [I2cSlave.txNextByte, hkeep]
  split_ifs with hlt
  · refine ⟨?_, rfl, hs.imp_right fun _ hzero => absurd hzero (Nat.succ_ne_zero _)⟩
    rw [List.getD_eq_getElem _ _ hlt, List.headD_eq_head?_getD, List.head?_drop,
      List.getElem?_eq_getElem hlt, Option.getD_some]
  · have hnil : s.tx.drop s.cursor = [] := List.drop_eq_nil_of_le (Nat.le_of_not_lt hlt)
    refine ⟨by rw [hnil]; rfl, ?_, hs⟩
    rw [hnil, List.drop_eq_nil_of_le (by omega)]

/-- `write_end` leaves a reply to be read. -/
lemma staged_of_writeEnd {hal : Hal σ} {inFlight : Bool} {d : Device σ} {s : I2cSlave}
    {x : Device σ × I2cSlave} (hx : i2cStep hal (d, s) (.writeEnd inFlight) = some x) :
    x.2.Staged ∧ x.2.tx ≠ [] := by
  have hsent : ∀ t : I2cSlave, t.stageNoPending.Staged ∧ t.stageNoPending.tx ≠ [] := by
    intro t
    exact ⟨.inr fun _ => rfl, by rintro ⟨⟩⟩
  simp only [i2cStep, i2cSlaveWriteEnd] at hx
  cases hflag : s.pendingReplyValid || s.frameRejected with
  | true =>
    simp only [hflag, if_true] at hx
    cases hx
    split_ifs with hdrained
    · exact hsent s
    · simp only [Bool.or_eq_true, decide_eq_true_eq, not_or, not_le, Bool.not_eq_true] at hdrained
      rw [hdrained.1, Bool.or_false] at hflag
      exact ⟨.inl hflag, List.ne_nil_of_length_pos (Nat.zero_lt_of_lt hdrained.2)⟩
  | false =>
    simp only [hflag, Bool.false_eq_true, if_false] at hx
    cases hrx : i2cDecode s.rx.bytes with
    | none =>
      simp only [hrx] at hx
      cases hx
      exact hsent _
    | some frame =>
      obtain ⟨cmd, payload⟩ := frame
      simp only [hrx] at hx
      generalize protocolDispatch hal inFlight .i2c cmd d payload maxPayloadBytes = y at hx
      obtain ⟨d₁, out⟩ := y
      cases out with
      | reply st p =>
        cases hx
        exact ⟨.inl rfl, by rintro ⟨⟩⟩
      | reset => cases hx
      | powerLost => cases hx

/-- Every call was for the whole frame of the write. -/
def WriteHistory.Matched (wh : WriteHistory) : Prop :=
  ∀ c ∈ wh.calls, wh.received.take maxFrameBytes = i2cEnvelope c.cmd c.payload

/-- As long as no byte comes after `write_end`. -/
lemma WriteHistory.Matched.upd {hal : Hal σ} {x : Device σ × I2cSlave} {e : I2cEvent σ}
    {wh : WriteHistory} (m : wh.Matched) (x' : Device σ × I2cSlave) (ok : WriteOk x.2 wh)
    (hrx : ∀ b, e = .rxByte b → wh.ended = false) : (writeHistoryUpd hal wh x e x').Matched := by
  cases e with
  | writeStart => exact List.forall_mem_nil _
  | busError => exact List.forall_mem_nil _
  | rxByte b =>
    intro c hc
    have hnone : wh.calls = [] := ok.fresh (hrx b rfl)
    simp only [writeHistoryUpd, hnone, List.not_mem_nil] at hc
  | writeEnd inFlight =>
    intro c hc
    simp only [writeHistoryUpd, List.mem_append] at hc
    rcases hc with hc | hc
    · exact m c hc
    · obtain ⟨cmd, payload, reply⟩ := c
      have hcall := (i2cSlaveWriteEnd_call hal inFlight x.1 x.2 cmd payload).mp
        ⟨reply, Option.mem_toList.mp hc⟩
      rw [ok.decided] at hcall
      exact (ok.retained hcall.1).symm.trans hcall.2
  | txNextByte => exact m
  | txAbort => exact m
  | other d => exact m

/-! ### The invariant -/

namespace I2cHw

/-- The bytes taken from the reply since the read has been served. -/
def taken (s : I2cHw σ) (host : List UInt8) : List UInt8 :=
  host ++ s.shift.toList ++ s.tdata.toList

/-- What has been taken is a reading of the reply, and the slave goes on from there for as long as
it is asked. -/
structure Clocking (s : I2cHw σ) (host : List UInt8) (r : ReadStart) : Prop where
  reading : s.taken host = (r.reply.drop r.cursor).takeD (s.taken host).length 0xFF
  rest : s.tiEnabled = true → s.slave.Staged ∧
    s.slave.tx.drop s.slave.cursor = (r.reply.drop r.cursor).drop (s.taken host).length

/-- A byte that moves on has been taken already. -/
lemma Clocking.move {s s' : I2cHw σ} {host host' : List UInt8} {r : ReadStart}
    (hc : s.Clocking host r) (htaken : s'.taken host' = s.taken host)
    (hgo : s'.tiEnabled = s.tiEnabled) (hslave : s'.slave = s.slave) : s'.Clocking host' r where
  reading := by
    rw [htaken]
    exact hc.reading
  rest := by
    rw [hgo, hslave, htaken]
    exact hc.rest

/-- `TI` with an empty data register takes the next byte. -/
lemma Clocking.popped {s : I2cHw σ} {host : List UInt8} {r : ReadStart} (hc : s.Clocking host r)
    (ht : s.tdata = none) (hgo : s.tiEnabled = true) :
    ({ s with
      slave := s.slave.txNextByte.1
      tdata := some s.slave.txNextByte.2 } : I2cHw σ).Clocking host r := by
  obtain ⟨hstaged, hrest⟩ := hc.rest hgo
  obtain ⟨hbyte, hdrop, hkeep⟩ := hstaged.txNextByte
  have htaken : ({ s with
      slave := s.slave.txNextByte.1
      tdata := some s.slave.txNextByte.2 } : I2cHw σ).taken host =
      s.taken host ++ [s.slave.txNextByte.2] := by
    simp [taken, ht]
  refine ⟨?_, fun _ => ⟨hkeep, ?_⟩⟩
  · rw [htaken, List.length_append, List.length_singleton, List.takeD_succ_append, ← hc.reading,
      hbyte, hrest]
  · rw [htaken, List.length_append, List.length_singleton, hdrop, ← List.drop_drop, hrest,
      List.drop_drop]

end I2cHw

structure Answering (hal : Hal σ) (s : I2cHw σ) (h : ReadHistory) : Prop where
  inStep : InStep hal s h.log h.write
  ok : WriteOk s.slave h.write
  calls : h.write.Matched
  /-- an address match stops the clock until it is served -/
  stretched : s.addsend = true → s.shift = none ∧ s.bus = if s.tr then .read else .write
  writing : (s.bus = .write ∧ s.addsend = false) ∨ s.rdata.isSome = true → h.write.ended = false
  begun : ∀ r, h.read = some r → r.Answers ∧
    (h.aborted = false → h.host = (r.reply.drop r.cursor).takeD h.host.length 0xFF)
  reading : s.bus = .read → s.addsend = false → s.rdata = none ∧
    ∃ r, h.read = some r ∧ (h.aborted = false → s.Clocking h.host r)

namespace Answering

open I2cHw

variable {hal : Hal σ} {s s' : I2cHw σ} {h : ReadHistory}

lemma seam_ok {l : I2cHwLabel σ} (inv : Answering hal s h) (hs : i2cHwStep hal s l = some s') :
    WriteOk s'.slave (seamUpd hal h.write s l s') := by
  have hseam := seam_step hs
  simp only [seamUpd]
  cases hl : s.seam l with
  | none =>
    rw [hl] at hseam
    have heq : s.slave = s'.slave := congrArg Prod.snd (Option.some.inj hseam)
    rw [← heq]
    exact inv.ok
  | some e =>
    rw [hl] at hseam
    have hok : WriteOk (s'.dev, s'.slave).2 _ := inv.ok.step hseam
    exact hok

/-- A byte is handed over only from a full receive register. -/
lemma rdata_of_seam {l : I2cHwLabel σ} {b : UInt8} (hl : s.seam l = some (.rxByte b)) :
    s.rdata.isSome = true := by
  cases l with
  | ev inFlight ti =>
    cases hr : s.rdata with
    | some b' => rfl
    | none =>
      revert hl
      simp only [seam, serves, i2cEventSelect, hr]
      cases s.stpdet <;> cases s.addsend <;> cases s.tr <;> cases ti <;> rintro ⟨⟩
  | er reads ready =>
    simp only [seam] at hl
    split_ifs at hl
    cases hl
  | _ => cases hl

lemma seam_calls (l : I2cHwLabel σ) (inv : Answering hal s h) :
    (seamUpd hal h.write s l s').Matched := by
  simp only [seamUpd]
  cases hl : s.seam l with
  | none => exact inv.calls
  | some e =>
    refine inv.calls.upd (s'.dev, s'.slave) inv.ok ?_
    rintro b rfl
    exact inv.writing (.inr (rdata_of_seam hl))

/-- What does not go through the event handler keeps the read, up to the clock and the recovery. -/
lemma begun_of (inv : Answering hal s h) (h' : ReadHistory) (hread : h'.read = h.read)
    (hhost : h'.host = h.host) (hab : h'.aborted = false → h.aborted = false) (r : ReadStart)
    (hr : h'.read = some r) : r.Answers ∧
      (h'.aborted = false → h'.host = (r.reply.drop r.cursor).takeD h'.host.length 0xFF) := by
  rw [hread] at hr
  obtain ⟨hans, hgo⟩ := inv.begun r hr
  rw [hhost]
  exact ⟨hans, fun ha => hgo (hab ha)⟩

lemma unserved_eq_nil (hun : s.unserved = []) :
    s.rdata = none ∧ s.stpdet = false ∧ s.addsend = false := by
  simp only [unserved, List.append_eq_nil_iff, List.map_eq_nil_iff, Option.toList_eq_nil_iff,
    ite_eq_right_iff, List.cons_ne_nil, imp_false, Bool.not_eq_true] at hun
  exact ⟨hun.1.1, hun.1.2, hun.2⟩

/-- Once the bus has been released there is nothing to answer. -/
lemma released {h' : ReadHistory} (hstep : InStep hal s' h'.log h'.write)
    (hok : WriteOk s'.slave h'.write) (hcalls : h'.write.Matched) (hun : s'.unserved = [])
    (hbus : s'.bus = .idle)
    (hbegun : ∀ r, h'.read = some r → r.Answers ∧
      (h'.aborted = false → h'.host = (r.reply.drop r.cursor).takeD h'.host.length 0xFF)) :
    Answering hal s' h' := by
  obtain ⟨hr, -, ha⟩ := unserved_eq_nil hun
  refine ⟨hstep, hok, hcalls, fun hno => ?_, fun hgo => ?_, hbegun, fun hgo => ?_⟩
  · rw [ha] at hno
    cases hno
  · rw [hr, hbus] at hgo
    rcases hgo with ⟨⟨⟩, -⟩ | ⟨⟨⟩⟩
  · rw [hbus] at hgo
    cases hgo

/-- A pass of the event handler. -/
lemma ev {inFlight ti : Bool} (inv : Answering hal s h) (hti : ti = true → s.tdata = none)
    (hten : ti = true → s.tiEnabled = true) (hs : i2cHwStep hal s (.ev inFlight ti) = some s')
    (hv : EvServed hal inFlight ti s s') :
    Answering hal s' (readUpd hal h s (.ev inFlight ti) s') := by
  have hstep := inv.inStep.step hs
  have hok := inv.seam_ok hs
  have hcalls : (seamUpd hal h.write s (.ev inFlight ti) s').Matched := inv.seam_calls _
  cases hv with
  | rbne b hr =>
    have hserves : s.serves ti = some (.byte b) := by simp only [serves, i2cEventSelect, hr]; rfl
    have hne : s.serves ti ≠ some (.addressed true) := by
      rw [hserves]
      rintro ⟨⟩
    simp only [readUpd, if_neg hne]
    have hend : h.write.ended = false := inv.writing (.inr (by rw [hr]; rfl))
    refine ⟨hstep, hok, hcalls, inv.stretched, fun _ => ?_, inv.begun_of _ rfl rfl id, fun hb ha => ?_⟩
    · simp only [seamUpd, seam, hserves]
      exact hend
    · obtain ⟨hnone, -⟩ := inv.reading hb ha
      rw [hnone] at hr
      cases hr
  | stpdet x hr hp hx =>
    have hserves : s.serves ti = some .stop := by simp only [serves, i2cEventSelect, hr, hp]; rfl
    have hne : s.serves ti ≠ some (.addressed true) := by
      rw [hserves]
      rintro ⟨⟩
    simp only [readUpd, if_neg hne]
    -- the STOP has ended whatever was going on
    have hgone : s.bus ≠ .idle → s.addsend = true := by
      intro hbus
      by_contra hno
      rw [inv.inStep.orderly.stopped hbus (Bool.eq_false_iff.mpr hno)] at hp
      cases hp
    refine ⟨hstep, hok, hcalls, inv.stretched, fun hgo => ?_, inv.begun_of _ rfl rfl id,
      fun hb ha => ?_⟩
    · rcases hgo with ⟨hb, ha⟩ | hsome
      · have ha' := hgone (by rw [show s.bus = .write from hb]; rintro ⟨⟩)
        rw [show s.addsend = false from ha] at ha'
        cases ha'
      · rw [show s.rdata = none from hr] at hsome
        cases hsome
    · have ha' := hgone (by rw [show s.bus = .read from hb]; rintro ⟨⟩)
      rw [show s.addsend = false from ha] at ha'
      cases ha'
  | read x hr hp ha ht hx =>
    have hserves : s.serves ti = some (.addressed true) := by
      simp only [serves, i2cEventSelect, hr, hp, ha, ht]; rfl
    obtain ⟨hshift, hbus⟩ := inv.stretched ha
    rw [ht, if_pos rfl] at hbus
    obtain ⟨hstaged, hne⟩ := staged_of_writeEnd hx
    have hend : (seamUpd hal h.write s (.ev inFlight ti) { s with
        dev := x.1, slave := x.2, addsend := false, tiEnabled := true
        tdata := none }).ended = true := by
      simp only [seamUpd, seam, hserves]
      rfl
    simp only [readUpd, if_pos hserves]
    refine ⟨hstep, hok, hcalls, by rintro ⟨⟩, fun hgo => ?_, fun r hr => ?_, fun _ _ => ⟨hr, ?_⟩⟩
    · rw [show s.bus = .read from hbus, show s.rdata = none from hr] at hgo
      rcases hgo with ⟨⟨⟩, -⟩ | ⟨⟨⟩⟩
    · cases hr
      refine ⟨⟨hok.once, ?_⟩, fun _ => rfl⟩
      rcases hok.staged hend with ⟨c, hc, st, p, hreply, htx⟩ | hsent | hnil
      · exact .inr ⟨c, hc, st, p, hreply, hcalls c hc, htx⟩
      · exact .inl hsent
      · exact absurd hnil hne
    · refine ⟨_, rfl, fun _ => ⟨?_, fun _ => ⟨hstaged, ?_⟩⟩⟩ <;> simp [taken, hshift]
  | write hr hp ha ht =>
    have hserves : s.serves ti = some (.addressed false) := by
      simp only [serves, i2cEventSelect, hr, hp, ha, ht]; rfl
    have hne : s.serves ti ≠ some (.addressed true) := by
      rw [hserves]
      rintro ⟨⟩
    simp only [readUpd, if_neg hne]
    obtain ⟨-, hbus⟩ := inv.stretched ha
    rw [ht, if_neg Bool.false_ne_true] at hbus
    refine ⟨hstep, hok, hcalls, by rintro ⟨⟩, fun _ => ?_, inv.begun_of _ rfl rfl id, fun hb => ?_⟩
    · simp only [seamUpd, seam, hserves]
      rfl
    · rw [show s.bus = .read from hb] at hbus
      cases hbus
  | ti hr hp ha hgo =>
    subst hgo
    have hserves : s.serves true = none := by
      simp only [serves, i2cEventSelect, hr, hp, ha]; rfl
    have hne : s.serves true ≠ some (.addressed true) := by
      rw [hserves]
      rintro ⟨⟩
    simp only [readUpd, if_neg hne]
    refine ⟨hstep, hok, hcalls, inv.stretched, fun hw => ?_, inv.begun_of _ rfl rfl id,
      fun hb _ => ?_⟩
    · simp only [seamUpd, seam, hserves]
      exact inv.writing hw
    · obtain ⟨-, r, hread, hclk⟩ := inv.reading hb ha
      refine ⟨hr, r, hread, fun hab => (hclk hab).popped (hti rfl) (hten rfl)⟩
  | none hr hp ha hgo =>
    subst hgo
    have hserves : s.serves false = none := by
      simp only [serves, i2cEventSelect, hr, hp, ha]; rfl
    have hne : s.serves false ≠ some (.addressed true) := by
      rw [hserves]
      rintro ⟨⟩
    simp only [readUpd, if_neg hne]
    refine ⟨hstep, hok, hcalls, inv.stretched, fun hw => ?_, inv.begun_of _ rfl rfl id,
      fun hb _ => ?_⟩
    · simp only [seamUpd, seam, hserves]
      exact inv.writing hw
    · obtain ⟨-, r, hread, hclk⟩ := inv.reading hb ha
      exact ⟨hr, r, hread, fun hab => (hclk hab).move rfl rfl rfl⟩

theorem step {l : I2cHwLabel σ} (inv : Answering hal s h) (hs : i2cHwStep hal s l = some s') :
    Answering hal s' (readUpd hal h s l s') := by
  have hstep := inv.inStep.step hs
  have hok := inv.seam_ok hs
  have hcalls : (seamUpd hal h.write s l s').Matched := inv.seam_calls l
  cases l with
  | start read =>
    simp only [i2cHwStep] at hs
    split at hs
    · cases hs
      refine ⟨hstep, hok, hcalls, fun _ => ⟨rfl, rfl⟩, ?_, inv.begun, by rintro - ⟨⟩⟩
      rintro (⟨-, ⟨⟩⟩ | hsome)
      exact inv.writing (.inr hsome)
    · cases hs
  | byte b =>
    simp only [i2cHwStep] at hs
    split_ifs at hs with hgo
    cases hs
    obtain ⟨hbus, ha, -⟩ := hgo
    refine ⟨hstep, hok, hcalls, inv.stretched, fun _ => inv.writing (.inl ⟨hbus, ha⟩), inv.begun,
      fun hb => ?_⟩
    rw [show s.bus = .read from hb] at hbus
    cases hbus
  | load =>
    simp only [i2cHwStep] at hs
    split at hs
    · next b htd =>
      split_ifs at hs with hgo
      cases hs
      obtain ⟨hbus, ha, hshift⟩ := hgo
      refine ⟨hstep, hok, hcalls, fun hno => ?_, inv.writing, inv.begun, fun _ _ => ?_⟩
      · rw [show s.addsend = true from hno] at ha
        cases ha
      · obtain ⟨hr, r, hread, hclk⟩ := inv.reading hbus ha
        exact ⟨hr, r, hread, fun hab => (hclk hab).move (by simp [taken, readUpd, hshift, htd])
          rfl rfl⟩
    · cases hs
  | clocked =>
    simp only [i2cHwStep] at hs
    split_ifs at hs with hgo
    cases hs
    obtain ⟨hbus, ha, hshift⟩ := hgo
    obtain ⟨b, hb⟩ := Option.isSome_iff_exists.mp hshift
    obtain ⟨hr, r, hread, hclk⟩ := inv.reading hbus ha
    refine ⟨hstep, hok, hcalls, fun hno => ?_, inv.writing, fun r' hr' => ?_, fun _ _ => ?_⟩
    · rw [show s.addsend = true from hno] at ha
      cases ha
    · refine ⟨(inv.begun r' hr').1, fun hab => ?_⟩
      rw [show h.read = some r' from hr'] at hread
      cases hread
      exact List.eq_takeD_of_append_eq (hclk hab).reading
    · exact ⟨hr, r, hread, fun hab => (hclk hab).move (by simp [taken, readUpd]) rfl rfl⟩
  | stop =>
    simp only [i2cHwStep] at hs
    split_ifs at hs with hgo
    cases hs
    refine ⟨hstep, hok, hcalls, fun hno => ?_, ?_, inv.begun, by rintro ⟨⟩⟩
    · rw [show s.addsend = true from hno] at hgo
      cases hgo.2
    · rintro (⟨⟨⟩, -⟩ | hsome)
      exact inv.writing (.inr hsome)
  | lapse =>
    simp only [i2cHwStep] at hs
    split_ifs at hs with hgo
    cases hs
    refine ⟨hstep, hok, hcalls, fun hno => absurd hno hgo, ?_, inv.begun, by rintro ⟨⟩⟩
    rintro (⟨⟨⟩, -⟩ | hsome)
    exact inv.writing (.inr hsome)
  | raise e =>
    cases hs
    refine ⟨hstep, hok, hcalls, inv.stretched, inv.writing, inv.begun, fun hb ha => ?_⟩
    obtain ⟨hr, r, hread, hclk⟩ := inv.reading hb ha
    exact ⟨hr, r, hread, fun hab => (hclk hab).move rfl rfl rfl⟩
  | ev inFlight ti =>
    have hgo := hs
    simp only [i2cHwStep] at hgo
    split_ifs at hgo with hti
    simp only [Bool.and_eq_true, Bool.or_eq_true, Bool.not_eq_true', not_and, not_or,
      Bool.not_eq_false, Option.not_isSome_iff_eq_none] at hti
    exact inv.ev (fun ht => (hti ht).2) (fun ht => (hti ht).1) hs (EvServed.of_evHandler hgo)
  | er reads ready =>
    have hbegun := inv.begun_of (readUpd hal h s (.er reads ready) s') rfl rfl id
    obtain ⟨-, -, hrest⟩ := erHandler_spec reads ready s
    cases hs
    rcases hrest with ⟨-, hun, hbus⟩ | ⟨-, counters, errors, heq⟩
    · exact released hstep hok hcalls hun hbus hbegun
    · rw [heq] at hstep hok hcalls hbegun ⊢
      refine ⟨hstep, hok, hcalls, inv.stretched, fun hw => ?_, hbegun, fun hb ha => ?_⟩
      · simp only [readUpd, seamUpd, seam]
        split_ifs
        · rfl
        · exact inv.writing hw
      · obtain ⟨hr, r, hread, hclk⟩ := inv.reading hb ha
        refine ⟨hr, r, hread, fun hab => ⟨(hclk hab).reading, fun hgo => ?_⟩⟩
        -- a broken transfer is not asked for more
        cases hbr : s.errors.breaks with
        | true =>
          simp only [hbr, if_true] at hgo
          cases hgo
        | false =>
          simp only [hbr, Bool.false_eq_true, if_false] at hgo ⊢
          exact (hclk hab).rest hgo
  | poll samples reads ready =>
    have hbegun := inv.begun_of (readUpd hal h s (.poll samples reads ready) s') rfl rfl id
    simp only [i2cHwStep] at hs
    split_ifs at hs
    cases hs
    obtain ⟨-, -, ⟨-, hun, hbus⟩ | ⟨n, heq⟩⟩ := stuckPoll_spec samples reads ready s
    · exact released hstep hok hcalls hun hbus hbegun
    · rw [heq] at hstep hok hcalls hbegun ⊢
      refine ⟨hstep, hok, hcalls, inv.stretched, inv.writing, hbegun, fun hb ha => ?_⟩
      obtain ⟨hr, r, hread, hclk⟩ := inv.reading hb ha
      exact ⟨hr, r, hread, fun hab => (hclk hab).move rfl rfl rfl⟩
  | pollAbort =>
    have hbegun := inv.begun_of (readUpd hal h s .pollAbort s') rfl rfl (by rintro ⟨⟩)
    simp only [i2cHwStep] at hs
    split_ifs at hs
    cases hs
    refine ⟨hstep, hok, hcalls, inv.stretched, inv.writing, hbegun, fun hb ha => ?_⟩
    obtain ⟨hr, r, hread, -⟩ := inv.reading hb ha
    exact ⟨hr, r, hread, by rintro ⟨⟩⟩
  | other d =>
    cases hs
    refine ⟨hstep, hok, hcalls, inv.stretched, inv.writing, inv.begun, fun hb ha => ?_⟩
    obtain ⟨hr, r, hread, hclk⟩ := inv.reading hb ha
    exact ⟨hr, r, hread, fun hab => (hclk hab).move rfl rfl rfl⟩

end Answering

/-- In every run of the bus, the interrupts and the stuck-bus poll, a served read hands out the
reply `protocol_dispatch` has given to exactly the frame of the write before it, or the sentinel;
and unless the recovery from a stuck bus has dropped the reply since, what the host clocks in is
that reply from the cursor on, without a byte left over from an earlier read, padded by the idle
byte. -/
theorem i2c_reads_of_reach (hal : Hal σ) {s : I2cHw σ} {h : ReadHistory}
    (hr : Reach (withHistory (i2cHwStep hal) (readUpd hal)) ReadLinkStart (fun _ _ _ => True) (s, h))
    {r : ReadStart} (hread : h.read = some r) :
    r.Answers ∧
      (h.aborted = false → h.host = (r.reply.drop r.cursor).takeD h.host.length 0xFF) := by
  have inv : Answering hal s h := by
    apply Reach.invariant (I := fun y : I2cHw σ × ReadHistory => Answering hal y.1 y.2) ?_ ?_ hr
    · rintro ⟨s, h⟩ ⟨⟨d, rfl⟩, rfl⟩
      exact ⟨.start d, .start .init, List.forall_mem_nil _, by rintro ⟨⟩, fun _ => rfl, by rintro _ ⟨⟩,
        by rintro ⟨⟩⟩
    · rintro ⟨s, h⟩ l ⟨s', h'⟩ - inv hstep -
      obtain ⟨hs, hh⟩ := withHistory_eq_some.mp hstep
      simp only at hs hh
      subst hh
      exact inv.step hs
  exact inv.begun r hread

/-- The host reads `n` bytes. -/
def readBytes (n : ℕ) : List (I2cHwLabel Unit) :=
  (List.replicate n [.ev false true, .load, .clocked]).flatten

/-- A PING whose reply is read one byte short, with the last one left in `I2C_TDATA`, and another
one whose reply is read to its end and beyond. -/
def twoPings : List (I2cHwLabel Unit) :=
  let frame := (i2cEnvelope 0x00 []).flatMap fun b => [.byte b, .ev false false]
  [.start false, .ev false false] ++ frame ++ [.start true, .ev false false] ++ readBytes 2 ++
    [.ev false true, .stop, .start false, .ev false false, .ev false false] ++ frame ++
      [.start true, .ev false false] ++ readBytes 4

lemma twoPings_ends : (run (withHistory (i2cHwStep .stub) (readUpd .stub)) (fun _ _ _ => true)
    (.init restDevice, ⟨⟨[], []⟩, .start, none, [], false⟩) twoPings).any
    (fun y => y.2.read.any (fun r => r.cursor == 0) && !y.2.aborted && y.2.host.length == 4) =
      true := by
  decide +kernel

/-- The second reply comes out from its first byte on. -/
theorem i2c_reads_two_pings : ∃ (s : I2cHw Unit) (h : ReadHistory) (r : ReadStart),
    Reach (withHistory (i2cHwStep .stub) (readUpd .stub)) ReadLinkStart (fun _ _ _ => True) (s, h) ∧
      h.read = some r ∧ r.Answers ∧ h.host = r.reply.takeD 4 0xFF := by
  have hinit : Reach (withHistory (i2cHwStep .stub) (readUpd .stub)) ReadLinkStart
      (fun _ _ _ => True) (.init restDevice, ⟨⟨[], []⟩, .start, none, [], false⟩) :=
    .start ⟨⟨_, rfl⟩, rfl⟩
  obtain ⟨⟨s, h⟩, hr, hq⟩ := hinit.exists_of_run _ _ _ (fun _ _ _ _ => trivial) twoPings_ends
  simp only [Bool.and_eq_true, Bool.not_eq_true', Option.any_eq_true, beq_iff_eq] at hq
  obtain ⟨⟨⟨r, hread, hcur⟩, hab⟩, hlen⟩ := hq
  obtain ⟨hans, hhost⟩ := i2c_reads_of_reach .stub hr hread
  have hall := hhost hab
  rw [hlen, hcur, List.drop_zero] at hall
  exact ⟨s, h, r, hr, hread, hans, hall⟩

end Gd32Bridge
