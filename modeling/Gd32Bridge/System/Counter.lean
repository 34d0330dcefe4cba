import Gd32Bridge.System.Confined
import Gd32Bridge.System.Floor

/-!
# The metadata counter

`meta_commit` refuses to take the counter past its limit, one step earlier for a write that sets
TRIAL.  The three thresholds fit together as long as no write without TRIAL takes the last step
while it leaves a record on trial behind: then every record on trial can be confirmed or healed,
and a session that was opened by BEGIN has room for its COMMIT and the confirm after it.
-/

namespace Gd32Bridge

open Endian Memory Transition

/-- The counter guard of `meta_commit` lets the write through. -/
def MetaWrite.HasRoom (w : MetaWrite) (f : Flash) : Prop :=
  (metaSeed f).counter < w.counterCap

/-! ### The invariant -/

/-- A write without TRIAL takes the counter to its limit only if it leaves no record on trial
behind. -/
def RoomKept (c : Core) (l : Label) : Prop :=
  ∀ run w, Attempts c l run w → w.flags = 0 →
    (metaSeed c.flash).counter = otaMetaCounterLimit - 1 →
    ∀ r, metaPages c.flash (w.pageOn c.flash run).other = some r → r.trial = false

/-- The counter has not passed its limit, and has not reached it while a record is on trial. -/
structure Roomy (f : Flash) : Prop where
  bound : (metaSeed f).counter.toNat ≤ otaMetaCounterLimit.toNat
  room : ∀ p r, metaPages f p = some r → r.trial = true →
    (metaSeed f).counter.toNat < otaMetaCounterLimit.toNat

lemma le_metaSeed {f : Flash} {p : MetaPage} {r : MetaRecord} (h : metaPages f p = some r) :
    r.counter.toNat ≤ (metaSeed f).counter.toNat := by
  obtain ⟨n, q, hn⟩ := exists_metaCurrent h
  rw [metaSeed_of_current hn]
  exact metaCurrent_max hn h

lemma metaSeed_counter_le {f : Flash} {m : ℕ}
    (h : ∀ p r, metaPages f p = some r → r.counter.toNat ≤ m) : (metaSeed f).counter.toNat ≤ m := by
  cases hc : metaCurrent f with
  | none =>
    simp only [metaSeed, hc]
    exact Nat.zero_le m
  | some nq =>
    obtain ⟨n, q⟩ := nq
    rw [metaSeed_of_current hc]
    exact h q n (metaCurrent_eq_some hc).1

lemma metaSeed_congr {f f' : Flash} (h : ∀ p, metaPages f' p = metaPages f p) :
    metaSeed f' = metaSeed f := by
  simp only [metaSeed, metaCurrent_congr h]

lemma Roomy.congr {f f' : Flash} (h : Roomy f) (hp : ∀ p, metaPages f' p = metaPages f p) :
    Roomy f' where
  bound := by
    rw [metaSeed_congr hp]
    exact h.bound
  room p r hr ht := by
    rw [metaSeed_congr hp]
    exact h.room p r (by rwa [hp] at hr) ht

lemma MetaWrite.HasRoom.apply_counter {w : MetaWrite} {f : Flash} (h : w.HasRoom f) :
    (w.apply (metaSeed f)).counter.toNat = (metaSeed f).counter.toNat + 1 := by
  have hlt : (metaSeed f).counter.toNat < w.counterCap.toNat := h
  have hcap := counterCap_le w
  have h1 : (1 : UInt32).toNat = 1 := rfl
  rw [MetaWrite.apply_counter, UInt32.toNat_add]
  omega

lemma MetaWrite.counterCap_trial {w : MetaWrite} (h : w.flags ≠ 0) :
    w.counterCap.toNat = otaMetaCounterLimit.toNat - 1 := by
  rw [MetaWrite.counterCap, if_pos h]
  rfl

lemma MetaWrite.counterCap_plain {w : MetaWrite} (h : w.flags = 0) :
    w.counterCap = otaMetaCounterLimit := by
  rw [MetaWrite.counterCap, if_neg (by simp [h])]

/-- A write keeps the invariant, if it does not take the last step past a record on trial. -/
lemma Roomy.wrote {b b' : Board} {run : Slot} {w : MetaWrite} (h : Roomy b.flash)
    (hw : Wrote b b' run w)
    (hok : w.flags = 0 → (metaSeed b.flash).counter = otaMetaCounterLimit - 1 →
      ∀ r, metaPages b.flash (w.pageOn b.flash run).other = some r → r.trial = false) :
    Roomy b'.flash := by
  rcases hw.page with hp | hnone | ⟨hnew, hroom⟩
  · refine h.congr fun p => ?_
    rcases MetaPage.eq_or_eq_other p (w.pageOn b.flash run) with rfl | rfl
    · exact hp
    · exact hw.other
  · -- what is left was there before, and so was its counter
    have hold : ∀ p r, metaPages b'.flash p = some r → metaPages b.flash p = some r := by
      intro p r hr
      rcases MetaPage.eq_or_eq_other p (w.pageOn b.flash run) with rfl | rfl
      · rw [hnone] at hr
        cases hr
      · rwa [hw.other] at hr
    have hle : (metaSeed b'.flash).counter.toNat ≤ (metaSeed b.flash).counter.toNat :=
      metaSeed_counter_le fun p r hr => le_metaSeed (hold p r hr)
    exact ⟨hle.trans h.bound, fun p r hr ht => hle.trans_lt (h.room p r (hold p r hr) ht)⟩
  · have hroom : w.HasRoom b.flash := hroom
    have hcur := Landed.current ⟨hnew, hroom⟩ hw.other
    have hseed : (metaSeed b'.flash).counter.toNat = (metaSeed b.flash).counter.toNat + 1 := by
      rw [metaSeed_of_current hcur, hroom.apply_counter]
    have hlt : (metaSeed b.flash).counter.toNat < w.counterCap.toNat := hroom
    have hlimit : otaMetaCounterLimit.toNat = 0xFFFFFFF0 := rfl
    have hcap := counterCap_le w
    refine ⟨by omega, fun p r hr ht => ?_⟩
    by_cases hflags : w.flags = 0
    · -- a record on trial is on the page that was left alone
      have hleft : metaPages b.flash (w.pageOn b.flash run).other = some r := by
        rcases MetaPage.eq_or_eq_other p (w.pageOn b.flash run) with rfl | rfl
        · rw [hnew] at hr
          cases hr
          rw [MetaWrite.apply_trial, hflags] at ht
          cases ht
        · rwa [hw.other] at hr
      have hne : (metaSeed b.flash).counter ≠ otaMetaCounterLimit - 1 := by
        intro heq
        rw [hok hflags heq r hleft] at ht
        cases ht
      have hne' : (metaSeed b.flash).counter.toNat ≠ (otaMetaCounterLimit - 1).toNat :=
        fun heq => hne (UInt32.toNat_inj.mp heq)
      have hlast : (otaMetaCounterLimit - 1).toNat = 0xFFFFFFEF := rfl
      omega
    · rw [MetaWrite.counterCap_trial hflags] at hlt
      omega

/-! ### Headroom of a session -/

/-- An open session has room for its COMMIT and the confirm after it. -/
def Core.Headroom : Core → Prop
  | .off _ => True
  | .on o _ => o.sess.Open →
      (metaSeed o.board.flash).counter.toNat ≤ otaMetaCounterLimit.toNat - 2

/-- A request that leaves a session open has opened it, with headroom, or has found it open and
left the records alone. -/
lemma OtaRule.headroom {o : Ota} {cmd : UInt8} {req : List UInt8} {x : Ota × Outcome}
    (rule : OtaRule o cmd req x) {st : Status} {p : List UInt8} (hx : x.2 = .reply st p)
    (hopen : x.1.sess.Open) :
    (o.sess.Open ∧ ∀ q, metaPages x.1.board.flash q = metaPages o.board.flash q) ∨
      (metaSeed x.1.board.flash).counter.toNat ≤ otaMetaCounterLimit.toNat - 2 := by
  cases rule with
  | same => exact .inl ⟨hopen, fun _ => rfl⟩
  | reject | fail => exact absurd rfl hopen.2
  | abort => exact absurd rfl hopen.1
  | verify cap hcmd hs hlen =>
    obtain ⟨p, hv⟩ := hVerify_eq hs hlen cap
    rw [hv]
    exact .inl ⟨.of_ready hs, fun _ => rfl⟩
  | armBlank cap hcmd hlen hnone =>
    right
    have hseed : metaSeed o.board.flash = .zero := by simp only [metaSeed, hnone]
    show (metaSeed o.board.flash).counter.toNat ≤ _
    rw [hseed]
    exact Nat.zero_le _
  | demote cap cur q hcmd hd =>
    have htrue := @metaCommit_true o.board o.run (demoteWrite o.run cur)
    have hother : ∀ p, p ≠ (demoteWrite o.run cur).pageOn o.board.flash o.run → _ :=
      fun p => @metaCommit_other o.board o.run (demoteWrite o.run cur) p
    generalize metaCommit o.board o.run (demoteWrite o.run cur) = y at hx hopen htrue hother ⊢
    obtain ⟨b, _ | _ | _⟩ := y
    · cases hx
    · exact absurd rfl hopen.2
    · right
      obtain ⟨hnew, hroom⟩ := htrue rfl
      have hcur : metaCurrent b.flash = _ :=
        @Landed.current o.board b _ _ ⟨hnew, hroom⟩ (hother _ (MetaPage.other_ne _))
      have hroom : (demoteWrite o.run cur).HasRoom o.board.flash := hroom
      show (metaSeed b.flash).counter.toNat ≤ _
      rw [metaSeed_of_current hcur, hroom.apply_counter, metaSeed_of_current hd.current]
      have hmax : cur.counter.toNat ≤ otaMetaBeginMaxCounter.toNat := hd.counter
      have hb : otaMetaBeginMaxCounter.toNat = 0xFFFFFFED := rfl
      have hl : otaMetaCounterLimit.toNat = 0xFFFFFFF0 := rfl
      omega
  | replay cap hcmd hs => exact .inl ⟨.of_ready hs, fun _ => rfl⟩
  | chunk off top data cap hcmd hs hoff hdata hlen hfit =>
    refine .inl ⟨.of_ready hs, fun q => ?_⟩
    rw [chunkEnd_board]
    exact metaPages_congr ((Board.fmcCall_unchanged (chunk_inFlash _ hoff hfit)).mono
      (chunk_span_subset _ hoff hfit)) (q.region_disjoint_slot _)
  | commit =>
    generalize metaCommit o.board o.run (commitWrite o.sess) = y at hx hopen
    obtain ⟨b, _ | _ | _⟩ := y
    · cases hx
    · exact absurd rfl hopen.2
    · cases hx
  | rollback cur q active w hcmd hr =>
    generalize metaCommit o.board o.run w = y at hx hopen
    obtain ⟨b, _ | _ | _⟩ := y
    · cases hx
    · rcases hr.state with h | h
      · exact absurd h hopen.1
      · exact absurd h hopen.2
    · cases hx

/-- Every step keeps the headroom. -/
lemma Core.Headroom.step {c c' : Core} {l : Label} (hs : CoreStep c l c') (hm : Move c l c')
    (ho : c.Ordered) (h : c.Headroom) : c'.Headroom := by
  cases c' with
  | off b => trivial
  | on o' pc' =>
    intro hopen
    cases c with
    | off b =>
      rw [hs.boot_sess.1] at hopen
      exact absurd rfl hopen.1
    | on o pc =>
      -- the session was open and the records are as before
      have hkeep : o.sess.Open → (∀ p, metaPages o'.board.flash p = metaPages o.board.flash p) →
          (metaSeed o'.board.flash).counter.toNat ≤ otaMetaCounterLimit.toNat - 2 := by
        intro hopen hp
        rw [metaSeed_congr hp]
        exact h hopen
      generalize hc' : Core.on o' pc' = c' at hs hm
      cases hs with
      | gated | passive | idle | idleConfirm | snapshot | storeStart | refused | enter | release
      | storeNext =>
        cases hc'
        exact hkeep hopen fun _ => rfl
      | @request _ _ link cmd pl script x ht hx rule =>
        obtain ⟨st, p, rfl, rfl⟩ := Core.after_eq_on hc'.symm
        rcases rule.headroom rfl hopen with ⟨hopen, hp⟩ | hle
        · exact hkeep hopen hp
        · exact hle
      | confirm ht =>
        have hsess : o'.sess = o.sess := by
          rcases confirmAfter_cases _ _ _ with h | h <;> rw [h] at hc' <;> cases hc'
          rfl
        rw [hsess, (ho.gated ht).1] at hopen
        exact absurd rfl hopen.1
      | @op _ j r op os =>
        have hsess : o'.sess = o.sess := by
          rcases walkAfter_cases _ _ _ _ _ with h | ⟨_, -, h⟩ <;> rw [h] at hc' <;> cases hc'
          rfl
        rw [hsess] at hopen
        rcases hm.pages_or_attempts with hp | ⟨run, w, ha, -⟩
        · rw [← hc'] at hp
          exact hkeep hopen hp
        · cases ha
      | publish =>
        cases hc'
        exact hkeep (otaErasePublish_open hopen) fun _ => rfl
      | powerOff => cases hc'

/-! ### Every run -/

/-- A program call on a record page carries the record of a metadata write. -/
lemma Calls.of_record {c : Core} {l : Label} {run : Slot} {p : MetaPage} {data : List UInt8}
    (h : Calls c l run (.program p.addr data)) : ∃ w : MetaWrite, w.HasRoom c.flash ∧
      data = (w.apply (metaSeed c.flash)).encode := by
  generalize hcall : FmcCall.program p.addr data = call at h
  cases h with
  | metaErase => cases hcall
  | @metaProgram _ _ _ w ha hc =>
    injection hcall with _ hdata
    exact ⟨w, hc, hdata⟩
  | @chunk o _ _ _ _ off data' hs hoff hfit =>
    -- the record pages lie below the slots
    injection hcall with haddr
    have hlow : p.addr.toNat < o.run.other.base.toNat := by cases p <;> cases o.run <;> decide
    rw [haddr, chunk_toNat o.run.other hfit] at hlow
    omega
  | @job o pc j r hj =>
    cases j with
    | erase snap => cases hcall
    | store st ph =>
      obtain ⟨q, rec, flags⟩ := st
      cases ph with
      | erase => cases hcall
      | payload =>
        injection hcall with haddr
        have hne : p.addr ≠ q.addr := by cases p <;> cases q <;> decide
        exact absurd haddr hne
      | commit =>
        injection hcall with haddr
        have hne : p.addr ≠ q.addr + bootConfigCommitOff := by cases p <;> cases q <;> decide
        exact absurd haddr hne

section

variable {σ : Type} {hal : Hal σ}

/-- A device before its first boot whose records leave a BEGIN its headroom. -/
def InitialCounters : Sys σ → Prop
  | .off b => ∀ p r, metaPages b.flash p = some r → r.counter ≤ otaMetaBeginMaxCounter
  | .on _ _ => False

/-- Legal steps that do not take the counter to its limit past a record on trial. -/
def CounterLegal (s : Sys σ) (l : Label) (s' : Sys σ) : Prop :=
  Legal s l s' ∧ RoomKept s.core l

lemma InitialCounters.unpowered {s : Sys σ} (h : InitialCounters s) : s.Unpowered := by
  cases s with
  | off b => trivial
  | on d pc => cases h

lemma InitialCounters.roomy {s : Sys σ} (h : InitialCounters s) : Roomy s.core.flash := by
  cases s with
  | on d pc => cases h
  | off b =>
    have hle : (metaSeed b.flash).counter.toNat ≤ otaMetaBeginMaxCounter.toNat :=
      metaSeed_counter_le h
    have hlt : otaMetaBeginMaxCounter.toNat < otaMetaCounterLimit.toNat := by decide
    exact ⟨(hle.trans_lt hlt).le, fun _ _ _ _ => hle.trans_lt hlt⟩

lemma reach_roomy {s : Sys σ} (h : Reach (step hal) InitialCounters CounterLegal s) :
    Roomy s.core.flash ∧ s.core.Headroom := by
  apply Reach.invariant (I := fun s : Sys σ => Roomy s.core.flash ∧ s.core.Headroom) ?_ ?_ h
  · intro s hs
    refine ⟨hs.roomy, ?_⟩
    cases s with
    | off b => trivial
    | on d pc => cases hs
  · intro s l s' hr hi hs hok
    have ho : s.core.Ordered :=
      reach_ordered (hr.mono (fun _ => InitialCounters.unpowered) fun _ _ _ h => h)
    have hc : CoreStep s.core l s'.core := .of_step hs
    have hm : Move s.core l s'.core := by
      refine .of_step hc ho fun p => ?_
      rw [Sys.core_board, Sys.core_board]
      exact hok.1 p
    refine ⟨?_, hi.2.step hc hm ho⟩
    rcases hm.pages_or_attempts with hp | ⟨run, w, ha, hw⟩
    · exact hi.1.congr hp
    · exact hi.1.wrote hw (hok.2 run w ha)

/-- In every run from records with headroom in which no write without TRIAL takes the counter to
its limit past a record on trial:
every record `meta_commit` programs is newer than every record on the flash and within the limit;
a record on trial is below the limit, and neither its confirm nor the self-heal that drops it is
refused by the counter guard; and neither is the COMMIT of a session. -/
theorem counter_roomy_of_reach {s : Sys σ}
    (h : Reach (step hal) InitialCounters CounterLegal s) :
    (∀ l s' run (p : MetaPage) data, step hal s l = some s' →
      Event.call run (.program p.addr data) ∈ s'.board.log →
      (MetaRecord.decode data).counter ≤ otaMetaCounterLimit ∧
        ∀ q r, metaPages s.flash q = some r → r.counter < (MetaRecord.decode data).counter) ∧
    (∀ p r, metaPages s.flash p = some r → r.trial = true →
      r.counter ≤ otaMetaCounterLimit - 1) ∧
    (∀ d pc r p, s = .on d pc → findRunningSlotRecord d.ota.board.flash d.ota.run = some (r, p) →
      r.trial = true → (confirmWrite d.ota.run p).HasRoom d.ota.board.flash) ∧
    (∀ b wdt dec n q, s = .off b → bootDecideSlot b.flash wdt = some dec →
      metaCurrent b.flash = some (n, q) → ¬ n.Names dec.slot → n.trial = true →
      (selfHealWrite dec.slot n).HasRoom b.flash) ∧
    (∀ d pc, s = .on d pc → d.ota.sess.state = .verified →
      (commitWrite d.ota.sess).HasRoom d.ota.board.flash) := by
  obtain ⟨hroomy, hhead⟩ := reach_roomy h
  have hlimit : otaMetaCounterLimit.toNat = 0xFFFFFFF0 := rfl
  have hlast : (otaMetaCounterLimit - 1).toNat = 0xFFFFFFEF := rfl
  have hflash : s.core.flash = s.flash := by rw [Core.flash, Sys.core_board, Sys.flash]
  -- a write without TRIAL has room while a record is on trial
  have hplain : ∀ {p : MetaPage} {r : MetaRecord} {w : MetaWrite}, metaPages s.flash p = some r →
      r.trial = true → w.flags = 0 → w.HasRoom s.flash := by
    intro p r w hr ht hf
    rw [← hflash] at hr ⊢
    rw [MetaWrite.HasRoom, MetaWrite.counterCap_plain hf]
    exact hroomy.room p r hr ht
  refine ⟨?_, ?_, ?_, ?_, ?_⟩
  · intro l s' run p data hs he
    have ho : s.core.Ordered :=
      reach_ordered (h.mono (fun _ => InitialCounters.unpowered) fun _ _ _ h => h)
    rw [← Sys.core_board] at he
    obtain ⟨run', call, hcall, hev⟩ := CoreStep.calls (.of_step hs) ho he
    rcases hev with hev | ⟨o, -, hev⟩
    · cases hev
      obtain ⟨w, hroom, rfl⟩ := hcall.of_record
      rw [MetaRecord.decode_encode]
      refine ⟨?_, fun q r hr => ?_⟩
      · have hlt : (metaSeed s.core.flash).counter.toNat < w.counterCap.toNat := hroom
        have hcap := counterCap_le w
        rw [UInt32.le_iff_toNat_le, hroom.apply_counter]
        omega
      · rw [← hflash] at hr
        exact apply_counter_gt hroom hr
    · cases hev
  · intro p r hr ht
    rw [← hflash] at hr
    have hlt := hroomy.room p r hr ht
    have hle := le_metaSeed hr
    rw [UInt32.le_iff_toNat_le]
    omega
  · rintro d pc r p rfl hr ht
    exact hplain (findRunningSlotRecord_eq_some hr).1 ht rfl
  · rintro b wdt dec n q rfl - hn - ht
    exact hplain (metaCurrent_eq_some hn).1 ht rfl
  · rintro d pc rfl hv
    have hle : (metaSeed d.ota.board.flash).counter.toNat ≤ otaMetaCounterLimit.toNat - 2 :=
      hhead ⟨by simp [hv], by simp [hv]⟩
    have hcap : (commitWrite d.ota.sess).counterCap.toNat = otaMetaCounterLimit.toNat - 1 :=
      MetaWrite.counterCap_trial (show otaMetaFlagTrial ≠ 0 by decide)
    rw [MetaWrite.HasRoom, UInt32.lt_iff_toNat_lt]
    omega

end

/-! ### Runs -/

/-- `InitialCounters` as a test. -/
def initialCountersCheck (f : Flash) : Bool :=
  (metaPages f .rec0).all (fun r => Nat.ble r.counter.toNat otaMetaBeginMaxCounter.toNat) &&
    (metaPages f .rec1).all (fun r => Nat.ble r.counter.toNat otaMetaBeginMaxCounter.toNat)

lemma InitialCounters.of_check {b : Board} (h : initialCountersCheck b.flash = true) :
    InitialCounters (.off b : Sys Unit) := by
  rw [initialCountersCheck, Bool.and_eq_true] at h
  intro p r hr
  have hall : Nat.ble r.counter.toNat otaMetaBeginMaxCounter.toNat = true := by
    cases p with
    | rec0 => simpa [hr] using h.1
    | rec1 => simpa [hr] using h.2
  exact Nat.le_of_ble_eq_true hall

/-- The sample device at the last counter a BEGIN accepts. -/
def lateDevice : Sys Unit :=
  .off { sampleBoard with
    flash := sampleFlash.put otaMetaRec0
      { sampleRecord with counter := otaMetaBeginMaxCounter }.encode }

/-- A running device whose own record is on trial. -/
def onTrial : Sys Unit → Bool
  | .on d _ => runRecTrial d.ota.board.flash d.ota.run
  | .off _ => false

lemma onTrial_spec {s : Sys Unit} (h : onTrial s = true) : ∃ d pc r p, s = .on d pc ∧
    findRunningSlotRecord d.ota.board.flash d.ota.run = some (r, p) ∧ r.trial = true := by
  cases s with
  | off b => cases h
  | on d pc =>
    simp only [onTrial, runRecTrial] at h
    split at h
    · next r p hr => exact ⟨d, pc, r, p, rfl, hr, h⟩
    · cases h

set_option maxRecDepth 20000 in
/-- A ROLLBACK from the last counter a BEGIN accepts: slot B is on trial and its confirm has
room. -/
theorem counter_roomy_late_rollback :
    ∃ (d : Device Unit) (pc : BasePc) (r : MetaRecord) (p : MetaPage),
      Reach (step .stub) InitialCounters CounterLegal (.on d pc) ∧
      findRunningSlotRecord d.ota.board.flash d.ota.run = some (r, p) ∧ r.trial = true ∧
      (confirmWrite d.ota.run p).HasRoom d.ota.board.flash := by
  have hinit : Reach (step .stub) InitialCounters CounterLegal lateDevice :=
    .start (InitialCounters.of_check (by decide +kernel))
  obtain ⟨s, hs, hq⟩ := hinit.exists_of_run
    (fun s l s' => legalCheck s l s' &&
      !Nat.beq (metaSeed s.core.flash).counter.toNat (otaMetaCounterLimit - 1).toNat) onTrial
    [.boot false [], .request .spi 0xF4 [] [], .boot false []]
    (fun s l s' h => by
      rw [Bool.and_eq_true] at h
      refine ⟨.of_check h.1, fun _ _ _ _ heq => ?_⟩
      rw [heq] at h
      exact absurd h.2 (by decide))
    (by decide +kernel)
  obtain ⟨d, pc, r, p, rfl, hr, ht⟩ := onTrial_spec hq
  exact ⟨d, pc, r, p, hs, hr, ht, (counter_roomy_of_reach hs).2.2.1 d pc r p rfl hr ht⟩

/-- The image of slot A without the marker: it can boot and not confirm itself. -/
def plainImage : List UInt8 :=
  le32 0x20018000 ++ le32 (Slot.A.base + 9) ++ List.replicate 56 0

/-- A record of the device with that image. -/
def nearRecord (counter : UInt32) (activeSlot flags : UInt8) : MetaRecord where
  counter := counter
  activeSlot := activeSlot
  slotValid := 3
  flags := flags
  pad1 := 0
  fwVersion := ⟨0, 0⟩
  imgLen := ⟨64, 84⟩
  imgCrc32 := ⟨otaCrc32 0 plainImage, otaCrc32 0 (sampleImage .B)⟩

/-- Slot B confirmed, slot A on trial, five and four steps before the limit. -/
def nearDevice : Sys Unit :=
  .off { sampleBoard with
    flash := (((Flash.blank.put otaSlotABase plainImage).put otaSlotBBase (sampleImage .B)).put
      otaMetaRec0 (nearRecord (otaMetaCounterLimit - 5) 1 0).encode).put
      otaMetaRec1 (nearRecord (otaMetaCounterLimit - 4) 0 1).encode }

/-- A ROLLBACK whose record lands although its last doubleword is reported as failed. -/
def landedRollback (addr : UInt32) (r : MetaRecord) : Label :=
  .request .spi 0xF4 [] [.ready, .ready, .ready, .ready, .ready, .ready,
    .fault .pgerr (Flash.blank.put addr r.encode)]

/-- The watchdog reverts the trial of A and the self-heal fails.  A BEGIN arms the erase of A, and
a second one loses the demotion record, so that N vouches for A again.  Five ROLLBACKs land without
the reset; the last one takes the counter to its limit while B is on trial on the other page.  The
erase then breaks A, and the device comes up in B. -/
def strandRun : List Label :=
  [.boot true [.fault .toerr (Flash.blank.put otaMetaRec1
      (nearRecord (otaMetaCounterLimit - 4) 0 1).encode)],
    .request .spi 0xF0 beginPayload [],
    .request .spi 0xF0 beginPayload [.ready, .fault .pgerr .blank],
    landedRollback otaMetaRec1 (nearRecord (otaMetaCounterLimit - 4) 0 0),
    landedRollback otaMetaRec1 (nearRecord (otaMetaCounterLimit - 3) 1 1),
    landedRollback otaMetaRec0 (nearRecord (otaMetaCounterLimit - 2) 0 0),
    landedRollback otaMetaRec0 (nearRecord (otaMetaCounterLimit - 1) 1 1),
    landedRollback otaMetaRec1 (nearRecord otaMetaCounterLimit 0 0),
    .eraseTick, .base .ready, .base .ready, .powerOff, .boot false [],
    .request .spi 0x00 [] []]

/-- A running device whose own record is on trial, with a frame seen, and whose counter stands at
the limit. -/
def strandedCheck (s : Sys Unit) : Bool :=
  match s with
  | .on d .idle => d.ota.trial && d.ota.frameSeen && onTrial s &&
    Nat.beq (metaSeed d.ota.board.flash).counter.toNat otaMetaCounterLimit.toNat
  | _ => false

set_option maxRecDepth 20000 in
/-- A device on trial that has seen a frame, and whose confirm the counter guard refuses. -/
theorem counter_strands_trial :
    ∃ (d : Device Unit) (r : MetaRecord) (p : MetaPage),
      Reach (step .stub) InitialCounters Legal (.on d .idle) ∧ d.ota.trial = true ∧
      d.ota.frameSeen = true ∧
      findRunningSlotRecord d.ota.board.flash d.ota.run = some (r, p) ∧ r.trial = true ∧
      ¬ (confirmWrite d.ota.run p).HasRoom d.ota.board.flash := by
  have hinit : Reach (step .stub) InitialCounters Legal nearDevice :=
    .start (InitialCounters.of_check (by decide +kernel))
  obtain ⟨s, hs, hq⟩ := hinit.exists_of_run legalCheck strandedCheck strandRun
    (fun _ _ _ h => .of_check h) (by decide +kernel)
  match s, hs, hq with
  | .on d .idle, hs, hq =>
    simp only [strandedCheck, Bool.and_eq_true, Nat.beq_eq, UInt32.toNat_inj] at hq
    obtain ⟨⟨⟨ht, hf⟩, htrial⟩, hcnt⟩ := hq
    obtain ⟨d', pc, r, p, hd, hr, hrt⟩ := onTrial_spec htrial
    cases hd
    refine ⟨d, r, p, hs, ht, hf, hr, hrt, ?_⟩
    rw [MetaWrite.HasRoom, MetaWrite.counterCap_plain rfl, hcnt]
    exact UInt32.lt_irrefl _

end Gd32Bridge
