import Gd32Bridge.System.Session
import Gd32Bridge.System.Walk

/-!
# COMMIT, end to end

What the bootloader makes of the flash a successful COMMIT leaves: without a watchdog reset it
boots the committed slot on trial; after one it falls back to the slot that was running, provided
that slot's own record was confirmed.
-/

namespace Gd32Bridge

open Endian Memory Transition

/-! ### The committed record -/

lemma commitWrite_trial (s : Session) (r : MetaRecord) : ((commitWrite s).apply r).trial = true := by
  simp [MetaRecord.trial, commitWrite, otaMetaFlagTrial]

/-- The record of a COMMIT vouches for an intact image. -/
lemma CommitChecked.slotOk {o : Ota} (h : CommitChecked o) (hcrc : inactiveCrc o = o.sess.imgCrc)
    {f : Flash} (hs : SameSlot o.board.flash f o.sess.inactive) (r : MetaRecord) :
    SlotOk f ((commitWrite o.sess).apply r) o.sess.inactive := by
  obtain ⟨hl, hc⟩ := MetaWrite.apply_entry (w := commitWrite o.sess) (r := r) rfl rfl
  have hsame : f.bytes o.sess.inactive.base o.sess.imgLen.toNat =
      o.board.flash.bytes o.sess.inactive.base o.sess.imgLen.toNat := hs _ h.len.2
  constructor
  · refine ⟨?_, by rw [hl]; exact h.len.1⟩
    exact (MetaWrite.apply_valid _ _ _).mpr ⟨slotCode_ne_ff _, .inr rfl⟩
  · rw [hl]
    exact h.len.2
  · rw [CrcMatches, hl, hc, hsame]
    exact hcrc
  · rw [hl, hsame]
    exact h.bootable

/-- The bootloader's verdict on the flash after a successful COMMIT. -/
theorem bootDecideSlot_of_commit {o : Ota} {b : Board} (ha : Anchored o.board.flash o.run)
    (hin : o.sess.inactive = o.run.other) (hc : CommitChecked o)
    (hcrc : inactiveCrc o = o.sess.imgCrc) (hw : Wrote o.board b o.run (commitWrite o.sess))
    (hl : Landed o.board b o.run (commitWrite o.sess)) :
    bootDecideSlot b.flash false = some ⟨o.sess.inactive, true, false⟩ ∧
      ((∃ lr, bootDecideSlot b.flash true = some ⟨o.run, false, lr⟩) ↔
        runRecTrial o.board.flash o.run = false) := by
  obtain ⟨r, hrp, hrn, hrok, hfind⟩ := ha.spared (commitWrite_ranked hin)
  have hcur := hl.current hw.other
  have hr' : metaPages b.flash ((commitWrite o.sess).pageOn o.board.flash o.run).other = some r := by
    rw [hw.other, hrp]
  have hnames : ((commitWrite o.sess).apply (metaSeed o.board.flash)).Names o.sess.inactive := by
    simp [MetaRecord.Names, commitWrite]
  have hvalid : Boot.activeSlotValid b.flash
      ((commitWrite o.sess).apply (metaSeed o.board.flash)) = true :=
    activeSlotValid_iff_slotOk.mpr ⟨_, hnames, hc.slotOk hcrc (hw.slots _) _⟩
  have hrvalid : Boot.activeSlotValid b.flash r = true :=
    activeSlotValid_iff_slotOk.mpr ⟨_, hrn, hrok.of_same (hw.slots _)⟩
  have htrial := commitWrite_trial o.sess (metaSeed o.board.flash)
  have hflag : runRecTrial o.board.flash o.run = r.trial := by simp [runRecTrial, hfind]
  refine ⟨?_, ?_⟩
  · rw [bootDecideSlot_newest hcur hr' hnames hvalid, htrial]
  · rw [hflag]
    cases hrt : r.trial with
    | false =>
      refine ⟨fun _ => rfl, fun _ => ⟨false, ?_⟩⟩
      exact bootDecideSlot_fallback hcur hr' htrial hrn hrvalid hrt
    | true =>
      refine ⟨?_, by rintro ⟨⟩⟩
      rintro ⟨lr, hdec⟩
      rw [bootDecideSlot_lastResort hcur hr' htrial hnames hvalid hrt] at hdec
      simp at hdec

/-! ### Every reachable state -/

section

variable {σ : Type} {hal : Hal σ}

/-- The history that remembers what the last accepted BEGIN declared. -/
def declareUpd (a : BeginArgs) (s : Sys σ) (l : Label) (_ : Sys σ) : BeginArgs :=
  declareAfter a s.core l

lemma reach_declared {x : Sys σ × BeginArgs}
    (h : Reach (withHistory (step hal) declareUpd) (fun x => Provisioned x.1)
      (fun x l y => Legal x.1 l y.1) x) : x.1.core.Declared x.2 := by
  apply Reach.invariant (I := fun x : Sys σ × BeginArgs => x.1.core.Declared x.2) ?_ ?_ h
  · rintro ⟨s, a⟩ hp
    cases s with
    | off b => trivial
    | on d pc => cases hp
  · intro x l y _ hi hs _
    obtain ⟨hstep, hupd⟩ := withHistory_eq_some.mp hs
    rw [hupd]
    exact hi.step (.of_step hstep)

/-- In every reachable state of every legal run in which the session is VERIFIED: its length is
in range, the image in the inactive slot has the CRC the BEGIN declared, and if COMMIT is
dispatched here and succeeds, the bootloader takes the committed slot on trial; after a watchdog
reset it takes the slot that was running, confirmed, exactly when the record that named that
slot did not itself carry TRIAL. -/
theorem commit_sound_of_reach {x : Sys σ × BeginArgs} {d : Device σ} {pc : BasePc}
    (h : Reach (withHistory (step hal) declareUpd) (fun x => Provisioned x.1)
      (fun x l y => Legal x.1 l y.1) x)
    (hx : x.1 = .on d pc) (hv : d.ota.sess.state = .verified) :
    (1 ≤ d.ota.sess.imgLen.toNat ∧ d.ota.sess.imgLen ≤ otaSlotSize ∧
      d.ota.sess.inactive = d.ota.run.other ∧
      otaCrc32 0 (d.ota.board.flash.bytes d.ota.sess.inactive.base d.ota.sess.imgLen.toNat) =
        x.2.expectedCrc) ∧
    ∀ (link : Link) (payload : List UInt8) (script : List PhysResult) (d' : Device σ),
      payload.length ≤ maxPayloadBytes →
      protocolDispatch hal false link 0xF3 (d.prepare script) payload maxPayloadBytes =
        (d', .reset) →
      bootDecideSlot d'.ota.board.flash false = some ⟨d.ota.sess.inactive, true, false⟩ ∧
        ((∃ lastResort,
          bootDecideSlot d'.ota.board.flash true = some ⟨d.ota.run, false, lastResort⟩) ↔
          runRecTrial d.ota.board.flash d.ota.run = false) := by
  have hlegal : AtLeastLegal (@Legal σ) := fun _ _ _ h => h
  have hr := h.forget fun _ hx => hx
  have htidy := reach_tidy hr
  have hsafe := reach_safe hlegal hr
  have hver := reach_verified hlegal hr
  have hdecl := reach_declared h
  rw [hx] at htidy hsafe hver hdecl
  have htidy : Tidy d.ota pc := htidy
  obtain ⟨hcrc, himg⟩ := hver hv
  have hopen : d.ota.sess.Open := ⟨by simp [hv], by simp [hv]⟩
  have hlen := htidy.len (by simp [hv]) (by simp [hv])
  have hg : d.ota.trial = false := by
    by_contra hg
    have := (htidy.gated (by simpa using hg)).1
    rw [this] at hv
    cases hv
  refine ⟨⟨?_, hlen.2, htidy.inactive, ?_⟩, ?_⟩
  · have hne : d.ota.sess.imgLen.toNat ≠ 0 := fun h0 => hlen.1 (UInt32.toNat_inj.mp h0)
    omega
  · exact hcrc.trans (himg.trans (hdecl hopen).2.1)
  · intro link payload script d' hsize hdis
    have hrule := DispatchRule.of_dispatch hal link 0xF3 (d.prepare script) payload maxPayloadBytes
    rw [hdis] at hrule
    generalize hy : ((d', Outcome.reset) : Device σ × Outcome) = y at hrule
    cases hrule with
    | gated => cases hy
    | passive => cases hy
    | ota =>
      obtain ⟨hd', hout⟩ := Prod.mk.inj hy
      have rule := OtaRule.of_otaDispatch (d.ota.prepare script) 0xF3 payload maxPayloadBytes hsize
      obtain ⟨w, htrue, hboard, ⟨-, rfl, hc⟩ | ⟨hcmd, -⟩⟩ := rule.of_reset hout.symm
      swap
      · exact absurd hcmd (by decide)
      have hc : CommitChecked d.ota := ⟨hc.state, hc.len, hc.bootable, hc.capable, hc.floor⟩
      have hw := Wrote.of_success d.ota.board (d.ota.prepare script).board rfl rfl htrue
      have hl := Landed.of_metaCommit d.ota.board (d.ota.prepare script).board _ _ rfl htrue
      have hb : d'.ota.board = (metaCommit (d.ota.prepare script).board (d.ota.prepare script).run
          (commitWrite (d.ota.prepare script).sess)).1 := by
        rw [hd']
        exact hboard
      rw [hb]
      exact bootDecideSlot_of_commit (hsafe.2 hg).1 htidy.inactive hc hcrc hw hl

end

/-! ### Runs -/

/-- The chunks of the sample image for slot B, then VERIFY. -/
def sampleSession : List Label :=
  [.request .spi 0xF1 (le32 0 ++ [56] ++ (sampleImage .B).take 56) [],
    .request .spi 0xF1 (le32 56 ++ [28] ++ (sampleImage .B).drop 56) [],
    .request .spi 0xF2 [] []]

/-- BEGIN for the sample image of slot B. -/
def sampleBegin : Label :=
  .request .spi 0xF0 (le32 84 ++ le32 (otaCrc32 0 (sampleImage .B))) []

/-- The state is VERIFIED, COMMIT succeeds here, and a watchdog reset then gives `dec`. -/
def commitGives (dec : BootDecision) : Sys Unit → Bool
  | .on d _ =>
    d.ota.sess.state == .verified &&
      match protocolDispatch .stub false .spi 0xF3 (d.prepare []) [] maxPayloadBytes with
      | (d', .reset) =>
        (bootDecideSlot d'.ota.board.flash true).any fun x =>
          x.slot == dec.slot && x.trial == dec.trial && x.lastResort == dec.lastResort
      | _ => false
  | .off _ => false

lemma commitGives_spec {dec : BootDecision} {s : Sys Unit} (h : commitGives dec s = true) :
    ∃ d pc d', s = .on d pc ∧ d.ota.sess.state = .verified ∧
      protocolDispatch .stub false .spi 0xF3 (d.prepare []) [] maxPayloadBytes = (d', .reset) ∧
      bootDecideSlot d'.ota.board.flash true = some dec := by
  match s, h with
  | .on d pc, h =>
    simp only [commitGives, Bool.and_eq_true, beq_iff_eq] at h
    obtain ⟨hv, h⟩ := h
    split at h
    · next d' hd' =>
      simp only [Option.any_eq_true, Bool.and_eq_true, beq_iff_eq] at h
      obtain ⟨x, hx, ⟨h₁, h₂⟩, h₃⟩ := h
      refine ⟨d, pc, d', rfl, hv, hd', ?_⟩
      rw [hx]
      obtain ⟨a, b, c⟩ := x
      obtain ⟨a', b', c'⟩ := dec
      simp only at h₁ h₂ h₃
      rw [h₁, h₂, h₃]
    · cases h

set_option maxRecDepth 20000 in
/-- An undisturbed update of slot B is sound. -/
theorem commit_sound_sample :
    ∃ (x : Sys Unit × BeginArgs) (d d' : Device Unit) (pc : BasePc),
      Reach (withHistory (step .stub) declareUpd) (fun x => Provisioned x.1)
        (fun x l y => Legal x.1 l y.1) x ∧ x.1 = .on d pc ∧ d.ota.sess.state = .verified ∧
      otaCrc32 0 (d.ota.board.flash.bytes d.ota.sess.inactive.base d.ota.sess.imgLen.toNat) =
        x.2.expectedCrc ∧
      protocolDispatch .stub false .spi 0xF3 (d.prepare []) [] maxPayloadBytes = (d', .reset) ∧
      bootDecideSlot d'.ota.board.flash false = some ⟨d.ota.sess.inactive, true, false⟩ := by
  obtain ⟨s, hs, hq⟩ := exists_reach_of_session [.boot false [], sampleBegin] sampleSession
    (commitGives ⟨.A, false, false⟩) (by decide +kernel)
  obtain ⟨d, pc, d', rfl, hv, hd', -⟩ := commitGives_spec hq
  obtain ⟨a, ha⟩ := hs.remember declareUpd (fun x => Provisioned x.1)
    fun _ hp => ⟨⟨0, 0, 0⟩, hp⟩
  have key := commit_sound_of_reach ha rfl hv
  exact ⟨_, d, d', pc, ha, rfl, hv, key.1.2.2.2, hd', (key.2 _ _ _ _ (by simp [maxPayloadBytes]) hd').1⟩

/-- The page a ROLLBACK to the running slot leaves although it is reported as failed. -/
def sampleBackPage : Flash :=
  Flash.blank.put otaMetaRec1 { sampleTrialRecord with counter := 3, activeSlot := 0 }.encode

/-- In a fallback boot of A a ROLLBACK names A itself, on trial; it is written but reported as
failed, so the device goes on and takes an update. -/
def trialRun : List Label :=
  [.boot false [], .request .spi 0xF4 [] [], .boot true [.fault .toerr sampleTrialPage],
    .request .spi 0xF4 [] [.ready, .ready, .ready, .ready, .ready, .ready,
      .fault .pgerr sampleBackPage], sampleBegin]

set_option maxRecDepth 20000 in
/-- Then a watchdog reset after COMMIT does not lead back to the slot that was running. -/
theorem commit_fallback_fails :
    ∃ (x : Sys Unit × BeginArgs) (d d' : Device Unit) (pc : BasePc),
      Reach (withHistory (step .stub) declareUpd) (fun x => Provisioned x.1)
        (fun x l y => Legal x.1 l y.1) x ∧ x.1 = .on d pc ∧ d.ota.trial = false ∧
      d.ota.sess.state = .verified ∧
      protocolDispatch .stub false .spi 0xF3 (d.prepare []) [] maxPayloadBytes = (d', .reset) ∧
      ¬ ∃ lastResort, bootDecideSlot d'.ota.board.flash true = some ⟨d.ota.run, false, lastResort⟩ := by
  obtain ⟨s, hs, hq⟩ := exists_reach_of_session trialRun sampleSession
    (commitGives ⟨.B, true, true⟩) (by decide +kernel)
  obtain ⟨d, pc, d', rfl, hv, hd', hdec⟩ := commitGives_spec hq
  obtain ⟨a, ha⟩ := hs.remember declareUpd (fun x => Provisioned x.1)
    fun _ hp => ⟨⟨0, 0, 0⟩, hp⟩
  have hg : d.ota.trial = false := by
    by_contra hg
    have := ((reach_tidy hs).gated (by simpa using hg)).1
    rw [this] at hv
    cases hv
  refine ⟨_, d, d', pc, ha, rfl, hg, hv, hd', ?_⟩
  rintro ⟨lr, h⟩
  rw [hdec] at h
  simp at h

end Gd32Bridge
