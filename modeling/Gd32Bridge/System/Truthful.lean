import Gd32Bridge.System.Demote
import Gd32Bridge.System.Session

/-!
# The newest record tells the truth

A record that `meta_commit` makes carries the descriptors of the newest one, so the newest record
describes the images as they are.  The older record on the other page does not: it may still vouch
for a slot that has been erased since.  As long as the page of the newest record is not given up
while the older one is stale, what `meta_current` returns can be believed.
-/

namespace Gd32Bridge

open Memory Transition

/-! ### Records -/

/-- Each slot the record vouches for is as the record describes it. -/
def Truthful (f : Flash) (r : MetaRecord) : Prop :=
  ∀ s, r.Vouches s → r.imgLen.get s ≤ otaSlotSize ∧ CrcMatches f r s

/-- The lengths of a record fit, and its active slot is marked valid unless it is blank. -/
structure WellFormed (r : MetaRecord) : Prop where
  fits : ∀ s, r.Vouches s → r.imgLen.get s ≤ otaSlotSize
  named : ∀ s, r.Names s → r.imgLen.get s ≠ 0 → r.valid s = true

lemma CrcMatches.of_same {f f' : Flash} {r : MetaRecord} {s : Slot} (h : CrcMatches f r s)
    (hlen : r.imgLen.get s ≤ otaSlotSize) (hs : SameSlot f f' s) : CrcMatches f' r s := by
  have hbytes : f'.bytes s.base (r.imgLen.get s).toNat = f.bytes s.base (r.imgLen.get s).toNat :=
    hs _ hlen
  rw [CrcMatches, hbytes]
  exact h

lemma Truthful.of_same {f f' : Flash} {r : MetaRecord} (h : Truthful f r)
    (hs : ∀ s, SameSlot f f' s) : Truthful f' r := by
  intro s hv
  obtain ⟨hlen, hcrc⟩ := h s hv
  exact ⟨hlen, hcrc.of_same hlen (hs s)⟩

/-- Work on a slot the record does not vouch for. -/
lemma Truthful.of_touch {b b' : Board} {r : MetaRecord} {s : Slot} (h : Truthful b.flash r)
    (ht : Touch b b' s) (hv : ¬ r.Vouches s) : Truthful b'.flash r := by
  intro x hx
  obtain ⟨hlen, hcrc⟩ := h x hx
  refine ⟨hlen, hcrc.of_same hlen ?_⟩
  rcases Slot.eq_or_eq_other x s with rfl | rfl
  · exact absurd hx hv
  · exact ht.slots

/-! ### What a write makes of the newest record -/

/-- The write sets a valid bit only where `n` has it already, or has no image. -/
def MetaWrite.Backed (w : MetaWrite) (n : MetaRecord) : Prop :=
  ∀ s : Slot, w.activeSlot = s.code → n.imgLen.get s ≠ 0 → n.valid s = true

section

variable {w : MetaWrite} {n : MetaRecord} {s : Slot}

/-- What a record written without a new descriptor vouches for, its predecessor vouched for. -/
lemma MetaWrite.Backed.vouches (hw : w.Backed n) (hent : w.entry = none)
    (hv : (w.apply n).Vouches s) : n.Vouches s ∧
      (w.apply n).imgLen.get s = n.imgLen.get s ∧ (w.apply n).imgCrc32.get s = n.imgCrc32.get s := by
  obtain ⟨hinv, hbit⟩ := (w.apply_valid n s).mp hv.1
  obtain ⟨hl, hc⟩ := w.apply_carries n hinv (.inl hent)
  have hlen : n.imgLen.get s ≠ 0 := hl ▸ hv.2
  refine ⟨⟨?_, hlen⟩, hl, hc⟩
  rcases hbit with h | h
  · exact h
  · exact hw s h hlen

lemma Truthful.apply {f : Flash} (h : Truthful f n) (hw : w.Backed n) (hent : w.entry = none) :
    Truthful f (w.apply n) := by
  intro s hv
  obtain ⟨hn, hl, hc⟩ := hw.vouches hent hv
  obtain ⟨hlen, hcrc⟩ := h s hn
  rw [CrcMatches, hl, hc]
  exact ⟨hlen, hcrc⟩

/-- The record of a COMMIT: its own descriptor is the verified one, the other is carried. -/
lemma Truthful.commit {f : Flash} {x : Session} (h : Truthful f n) (hlen : x.imgLen ≤ otaSlotSize)
    (hcrc : otaCrc32 0 (f.bytes x.inactive.base x.imgLen.toNat) = x.imgCrc) :
    Truthful f ((commitWrite x).apply n) := by
  intro s hv
  by_cases hs : s = x.inactive
  · subst hs
    obtain ⟨hl, hc⟩ := (commitWrite x).apply_entry n rfl rfl
    rw [CrcMatches, hl, hc]
    exact ⟨hlen, hcrc⟩
  · have hact : (commitWrite x).activeSlot ≠ s.code := fun h => hs (Slot.code_injective h).symm
    have hinv : (commitWrite x).invalidate ≠ s.code := slotCode_ne_ff s
    obtain ⟨hl, hc⟩ := (commitWrite x).apply_carries n hinv (.inr hact)
    have hbit := ((commitWrite x).apply_valid n s).mp hv.1
    obtain ⟨hlen, hcrc⟩ := h s ⟨hbit.2.resolve_right hact, hl ▸ hv.2⟩
    rw [CrcMatches, hl, hc]
    exact ⟨hlen, hcrc⟩

/-- Every record that is written is well formed, given that its descriptors fit. -/
lemma WellFormed.of_truthful {f : Flash} (h : Truthful f (w.apply n))
    (hinv : ∀ s : Slot, w.invalidate = s.code → w.entry = none) : WellFormed (w.apply n) where
  fits s hv := (h s hv).1
  named s hn hlen := by
    have hact : w.activeSlot = s.code := by simpa [MetaRecord.Names] using hn
    refine (w.apply_valid n s).mpr ⟨fun hs => hlen ?_, .inr hact⟩
    exact w.apply_invalidates n hs (hinv s hs)

end

/-! ### The condition -/

/-- The label makes the core call `meta_commit` with `w`. -/
inductive Attempts : Core → Label → Slot → MetaWrite → Prop
  | demote {o : Ota} {pc : BasePc} {link : Link} {pl : List UInt8} {script : List PhysResult}
      {cur : MetaRecord} {p : MetaPage} (ht : o.trial = false) (hd : DemoteChecked o pl cur p) :
      Attempts (.on o pc) (.request link 0xF0 pl script) o.run (demoteWrite o.run cur)
  | commit {o : Ota} {pc : BasePc} {link : Link} {pl : List UInt8} {script : List PhysResult}
      (ht : o.trial = false) (hc : CommitChecked o) :
      Attempts (.on o pc) (.request link 0xF3 pl script) o.run (commitWrite o.sess)
  | rollback {o : Ota} {pc : BasePc} {link : Link} {pl : List UInt8} {script : List PhysResult}
      {cur : MetaRecord} {p : MetaPage} {active : Slot} {w : MetaWrite} (ht : o.trial = false)
      (hr : RollbackChecked o cur p active)
      (heq : w = rollbackWrite active.other (otaImageTrialCapable
        (o.board.flash.bytes active.other.base (cur.imgLen.get active.other).toNat)
        (cur.imgLen.get active.other))) :
      Attempts (.on o pc) (.request link 0xF4 pl script) o.run w
  | confirm {o : Ota} {script : List PhysResult} {r : MetaRecord} {p : MetaPage}
      (ht : o.trial = true) (hf : o.frameSeen = true)
      (hr : findRunningSlotRecord o.board.flash o.run = some (r, p)) :
      Attempts (.on o .idle) (.confirmTick script) o.run (confirmWrite o.run p)
  | heal {b : Board} {wdt : Bool} {script : List PhysResult} {dec : BootDecision} {n : MetaRecord}
      {p : MetaPage} (hd : bootDecideSlot b.flash wdt = some dec)
      (hr : runRecTrial b.flash dec.slot = false) (hn : metaCurrent b.flash = some (n, p))
      (hne : ¬ n.Names dec.slot) (ht : n.trial = true) :
      Attempts (.off b) (.boot wdt script) dec.slot (selfHealWrite dec.slot n)

/-- The erase pump is armed or in flight. -/
def Core.Pumps : Core → Prop
  | off _ => False
  | on o pc => Pumping o pc

/-- A metadata write gives up the page of the newest record only while the record on the other
page vouches for intact images and for none the erase pump is working on. -/
def FallbackTruthful (c : Core) (l : Label) : Prop :=
  ∀ run w, Attempts c l run w → ∀ n q r, metaCurrent c.flash = some (n, q) →
    w.pageOn c.flash run = q → metaPages c.flash q.other = some r →
      (∀ s, r.Vouches s → CrcMatches c.flash r s) ∧ (c.Pumps → ¬ r.Vouches run.other)

/-! ### The invariant -/

structure Honest (c : Core) : Prop where
  formed : ∀ p r, metaPages c.flash p = some r → WellFormed r
  newest : ∀ n q, metaCurrent c.flash = some (n, q) → Truthful c.flash n
  working : ∀ o pc, c = .on o pc → Working o pc →
    ∀ n q, metaCurrent c.flash = some (n, q) → ¬ n.Vouches o.run.other
  gated : ∀ o pc, c = .on o pc → o.trial = true →
    ∀ r p, findRunningSlotRecord c.flash o.run = some (r, p) →
      ∀ n q, metaCurrent c.flash = some (n, q) → n.imgLen.get o.run ≠ 0 → n.valid o.run = true

/-- After a write the newest record is the old one, the new one, or the one on the spared page. -/
lemma Wrote.newest {b b' : Board} {run : Slot} {w : MetaWrite} (hw : Wrote b b' run w)
    {n' : MetaRecord} {q' : MetaPage} (hc : metaCurrent b'.flash = some (n', q')) :
    (∃ q, metaCurrent b.flash = some (n', q)) ∨ n' = w.apply (metaSeed b.flash) ∨
      ∃ n, metaCurrent b.flash = some (n, w.pageOn b.flash run) ∧
        metaPages b.flash (w.pageOn b.flash run).other = some n' ∧
        metaPages b'.flash (w.pageOn b.flash run) = none := by
  cases hw.cases with
  | kept hp =>
    rw [metaCurrent_congr hp] at hc
    exact .inl ⟨q', hc⟩
  | torn hnone ho =>
    have hq : q' = (w.pageOn b.flash run).other := by
      refine (MetaPage.eq_or_eq_other q' (w.pageOn b.flash run)).resolve_left ?_
      rintro rfl
      rw [(metaCurrent_eq_some hc).1] at hnone
      cases hnone
    have hn' : metaPages b.flash (w.pageOn b.flash run).other = some n' := by
      rw [← ho, ← hq]
      exact (metaCurrent_eq_some hc).1
    obtain ⟨n, q, hn⟩ := exists_metaCurrent hn'
    rcases MetaPage.eq_or_eq_other q (w.pageOn b.flash run) with rfl | rfl
    · exact .inr (.inr ⟨n, hn, hn', hnone⟩)
    · rw [(metaCurrent_eq_some hn).1] at hn'
      cases hn'
      exact .inl ⟨_, hn⟩
  | landed hcur =>
    rw [hcur] at hc
    cases hc
    exact .inr (.inl rfl)

/-- The records alone: what a write makes of them. -/
lemma Honest.records {c : Core} {b' : Board} {l : Label} {run : Slot} {w : MetaWrite}
    (h : Honest c) (hw : Wrote c.board b' run w) (ha : Attempts c l run w)
    (hok : FallbackTruthful c l) (hnew : Truthful c.flash (w.apply (metaSeed c.flash)))
    (hinv : ∀ s : Slot, w.invalidate = s.code → w.entry = none) :
    (∀ p r, metaPages b'.flash p = some r → WellFormed r) ∧
      ∀ n q, metaCurrent b'.flash = some (n, q) → Truthful b'.flash n := by
  refine ⟨fun p r hr => ?_, fun n' q' hc => ?_⟩
  · rcases hw.page_cases hr with hr | ⟨-, rfl, -⟩
    · exact h.formed p r hr
    · exact .of_truthful hnew hinv
  · refine Truthful.of_same (f := c.flash) ?_ hw.slots
    rcases hw.newest hc with ⟨q, hn⟩ | rfl | ⟨n, hn, hn', -⟩
    · exact h.newest n' q hn
    · exact hnew
    · -- the newest record is lost: the condition speaks about the one that takes its place
      have hcrc := (hok run w ha n _ n' hn rfl hn').1
      exact fun s hv => ⟨(h.formed _ n' hn').fits s hv, hcrc s hv⟩

/-- While the pump is on, a write leaves no newest record that vouches for the pumped slot. -/
lemma Honest.pumped {o : Ota} {pc : BasePc} {b' : Board} {l : Label} {w : MetaWrite}
    (h : Honest (.on o pc)) (hw : Wrote o.board b' o.run w) (ha : Attempts (.on o pc) l o.run w)
    (hok : FallbackTruthful (.on o pc) l) (hp : Pumping o pc)
    (hnew : ¬ (w.apply (metaSeed o.board.flash)).Vouches o.run.other) {n' : MetaRecord}
    {q' : MetaPage} (hc : metaCurrent b'.flash = some (n', q')) : ¬ n'.Vouches o.run.other := by
  rcases hw.newest hc with ⟨q, hn⟩ | rfl | ⟨n, hn, hn', -⟩
  · exact h.working o pc rfl hp.working n' q hn
  · exact hnew
  · exact (hok o.run w ha n _ n' hn rfl hn').2 hp

lemma WellFormed.backed {w : MetaWrite} {n : MetaRecord} (h : WellFormed n)
    (hw : w.activeSlot = n.activeSlot) : w.Backed n :=
  fun s hs => h.named s (hw.symm.trans hs)

lemma MetaWrite.Backed.of_vouches {w : MetaWrite} {n : MetaRecord} {s : Slot} (h : n.Vouches s)
    (hw : w.activeSlot = s.code) : w.Backed n := by
  intro x hx _
  obtain rfl : x = s := Slot.code_injective (hx.symm.trans hw)
  exact h.1

/-- A write of a boot that is not on trial. -/
lemma Honest.of_records {o : Ota} {c : Core} (hfol : c.Follows o) (ht : o.trial = false)
    (hrec : (∀ p r, metaPages c.flash p = some r → WellFormed r) ∧
      ∀ n q, metaCurrent c.flash = some (n, q) → Truthful c.flash n)
    (hwork : c.AtWork → ∀ n q, metaCurrent c.flash = some (n, q) → ¬ n.Vouches o.run.other) :
    Honest c where
  formed := hrec.1
  newest := hrec.2
  working := by
    rintro o' pc' rfl hw
    rw [hfol.1]
    exact hwork hw
  gated := by
    rintro o' pc' rfl hg
    rw [hfol.2, ht] at hg
    cases hg

/-- Every move keeps the invariant, as long as the condition is met. -/
theorem Honest.move {c c' : Core} {l : Label} (hm : Move c l c') (ho : c.Ordered) (hsafe : c.Safe)
    (hver : c.Verified) (hok : FallbackTruthful c l) (h : Honest c) : Honest c' := by
  cases hm with
  | @still o pc _ _ hst hfol hwork =>
    refine ⟨fun p r hr => h.formed p r (hst.pages p ▸ hr), fun n q hc => ?_, ?_, ?_⟩
    · rw [Core.flash, metaCurrent_congr hst.pages] at hc
      exact (h.newest n q hc).of_same hst.slots
    · rintro o' pc' rfl hw n q hc
      rw [Core.flash, metaCurrent_congr hst.pages] at hc
      rw [hfol.1]
      exact h.working o pc rfl (hwork hw) n q hc
    · rintro o' pc' rfl hg r p hr n q hc
      rw [Core.flash, metaCurrent_congr hst.pages] at hc
      rw [hfol.1, Core.flash, findRunningSlotRecord_congr hst.pages] at hr
      rw [hfol.1]
      exact h.gated o pc rfl (hfol.2 ▸ hg) r p hr n q hc
  | @touch o pc _ _ ht hw hst hfol =>
    have hno := h.working o pc rfl hw
    refine .of_records hfol ht ⟨fun p r hr => h.formed p r (hst.pages p ▸ hr), fun n q hc => ?_⟩ ?_
    · rw [Core.flash, metaCurrent_congr hst.pages] at hc
      exact (h.newest n q hc).of_touch hst (hno n q hc)
    · intro _ n q hc
      rw [Core.flash, metaCurrent_congr hst.pages] at hc
      exact hno n q hc
  | blank ht hnone => exact absurd hnone (hsafe.2 ht).1.not_blank
  | @demote o pc link pl script cur p _ ht hd hw hfol hend =>
    have ha : Attempts (.on o pc) (.request link 0xF0 pl script) o.run _ := .demote ht hd
    have hseed : metaSeed o.board.flash = cur := metaSeed_of_current hd.current
    have hcur : Truthful o.board.flash cur := h.newest cur p hd.current
    have hnew : Truthful o.board.flash ((demoteWrite o.run cur).apply (metaSeed o.board.flash)) := by
      rw [hseed]
      exact hcur.apply ((h.formed p cur (metaCurrent_eq_some hd.current).1).backed rfl) rfl
    refine .of_records hfol ht (h.records hw ha hok hnew fun _ _ => rfl) ?_
    intro hwork n' q' hc
    rcases hend with hl | hp
    · rw [Core.flash, hl.current hw.other] at hc
      cases hc
      exact demoteWrite_not_vouches _ _ _
    · exact h.pumped hw ha hok (hp hwork) (demoteWrite_not_vouches _ _ _) hc
  | @commit o pc link pl script _ ht hc hw hfol hwork =>
    have ha : Attempts (.on o pc) (.request link 0xF3 pl script) o.run _ := .commit ht hc
    obtain ⟨⟨n, q⟩, hn⟩ := Option.ne_none_iff_exists'.mp (hsafe.2 ht).1.not_blank
    have hnew : Truthful o.board.flash ((commitWrite o.sess).apply (metaSeed o.board.flash)) := by
      rw [metaSeed_of_current hn]
      exact (h.newest n q hn).commit hc.len.2 (hver hc.state).1
    refine .of_records hfol ht (h.records hw ha hok hnew ?_) fun hw => absurd hw hwork
    intro s hs
    exact absurd hs (slotCode_ne_ff s)
  | @rollback o pc link pl script cur p active w _ ht hr heq hw hfol hwork =>
    have ha : Attempts (.on o pc) (.request link 0xF4 pl script) o.run _ := .rollback ht hr heq
    have hseed : metaSeed o.board.flash = cur := metaSeed_of_current hr.current
    have hback : w.Backed cur := .of_vouches hr.ok.vouches (by rw [heq]; rfl)
    have hent : w.entry = none := by rw [heq]; rfl
    have hnew : Truthful o.board.flash (w.apply (metaSeed o.board.flash)) := by
      rw [hseed]
      exact (h.newest cur p hr.current).apply hback hent
    refine .of_records hfol ht (h.records hw ha hok hnew fun _ _ => hent) ?_
    intro hwork' n' q' hc
    refine h.pumped hw ha hok (hwork hwork') ?_ hc
    rw [hseed]
    intro hv
    exact h.working o pc rfl (hwork hwork').working cur p hr.current (hback.vouches hent hv).1
  | @confirm o script r p _ ht hf hr hw hfol hwork =>
    have ha : Attempts (.on o .idle) (.confirmTick script) o.run _ := .confirm ht hf hr
    obtain ⟨hrp, hrn, -⟩ := findRunningSlotRecord_eq_some hr
    obtain ⟨n, q, hn⟩ := exists_metaCurrent hrp
    have hnew : Truthful o.board.flash
        ((confirmWrite o.run p).apply (metaSeed o.board.flash)) := by
      rw [metaSeed_of_current hn]
      refine (h.newest n q hn).apply (fun s hs => ?_) rfl
      obtain rfl : o.run = s := Slot.code_injective hs
      exact h.gated o .idle rfl ht r p hr n q hn
    have hrec := h.records hw ha hok hnew fun _ _ => rfl
    refine ⟨hrec.1, hrec.2, ?_, ?_⟩
    · rintro o' pc' rfl hw'
      exact absurd hw' hwork
    · rintro o' pc' rfl hg r' p' hr' n' q' hc
      obtain ⟨hrp', hrn', -⟩ := findRunningSlotRecord_eq_some hr'
      have hform := hrec.1 q' n' (metaCurrent_eq_some hc).1
      rw [hfol.1] at hrn' ⊢
      rcases hw.newest hc with ⟨q, hn⟩ | rfl | ⟨n, hn, hn', hnone⟩
      · exact h.gated o .idle rfl ht r p hr n' q hn
      · exact hform.named o.run (by simp [MetaRecord.Names, confirmWrite])
      · -- the record found is the one on the spared page
        obtain rfl := metaPages_unique hnone hrp' (metaCurrent_eq_some hc).1
        exact hform.named o.run hrn'
  | @boot b wdt script dec o hd hst hrun ht hwork =>
    refine ⟨fun p r hr => h.formed p r (hst.pages p ▸ hr), fun n q hc => ?_, ?_, ?_⟩
    · exact (h.newest n q ((metaCurrent_congr hst.pages).symm.trans hc)).of_same hst.slots
    · intro o' pc' hc hw
      cases hc
      exact absurd hw hwork
    · intro o' pc' hc hg r p hr n q hn
      cases hc
      have hn : metaCurrent b.flash = some (n, q) := (metaCurrent_congr hst.pages).symm.trans hn
      rw [hrun]
      exact fun _ => ((Anchored.of_boot hsafe hd).newest n q hn).vouches.1
  | @heal b wdt script dec n p _ hd hr hn hne ht hw hon =>
    have ha : Attempts (.off b) (.boot wdt script) dec.slot _ := .heal hd hr hn hne ht
    have hvou := ((Anchored.of_boot hsafe hd).newest n p hn).vouches
    have hnew : Truthful b.flash ((selfHealWrite dec.slot n).apply (metaSeed b.flash)) := by
      rw [metaSeed_of_current hn]
      exact (h.newest n p hn).apply (.of_vouches hvou rfl) rfl
    have hrec := h.records hw ha hok hnew fun _ _ => rfl
    refine ⟨hrec.1, hrec.2, ?_, ?_⟩
    · intro o' pc' hc hw'
      exact absurd hw' (hon o' pc' hc).2.2
    · intro o' pc' hc hg
      rw [(hon o' pc' hc).2.1] at hg
      cases hg

/-! ### Every reachable state -/

section

variable {σ : Type} {hal : Hal σ}

/-- A provisioned device whose record describes both slots truthfully. -/
def ProvisionedTruthful (s : Sys σ) : Prop :=
  Provisioned s ∧ ∀ p r, metaPages s.flash p = some r → Truthful s.flash r

lemma Honest.of_provisioned {s : Sys σ} (h : ProvisionedTruthful s) : Honest s.core := by
  cases s with
  | on d pc => cases h.1
  | off b =>
    obtain ⟨⟨p, r, hr, hnone, -, hv⟩, htrue⟩ := h
    obtain ⟨s, hs, hok⟩ := activeSlotValid_iff_slotOk.mp hv
    constructor
    case formed =>
      intro p' r' hr'
      refine ⟨fun x hx => (htrue p' r' hr' x hx).1, fun x hx _ => ?_⟩
      obtain rfl := metaPages_unique hnone hr' hr
      obtain rfl := hs.unique hx
      exact hok.vouches.1
    case newest => exact fun n q hn => htrue q n (metaCurrent_eq_some hn).1
    case working =>
      intro o pc hc
      cases hc
    case gated =>
      intro o pc hc
      cases hc

/-- In every run from a truthfully provisioned flash in which no metadata write gives up the page
of the newest record for a stale one: whatever slot the newest record marks valid, with a length,
has the recorded CRC in flash.  In particular ROLLBACK does not run its CRC over a slot that is
being erased or programmed. -/
theorem newest_truthful_of_reach {s : Sys σ}
    (h : Reach (step hal) ProvisionedTruthful
      (fun s l s' => Legal s l s' ∧ FallbackTruthful s.core l) s)
    {n : MetaRecord} {q : MetaPage} (hn : metaCurrent s.flash = some (n, q)) (x : Slot)
    (hv : n.valid x = true) (hlen : n.imgLen.get x ≠ 0) :
    otaCrc32 0 (s.flash.bytes x.base (n.imgLen.get x).toNat) = n.imgCrc32.get x ∧
      ∀ d pc, s = .on d pc → Working d.ota pc → x ≠ d.ota.run.other := by
  have hlegal : AtLeastLegal (fun (s : Sys σ) l s' => Legal s l s' ∧ FallbackTruthful s.core l) :=
    fun _ _ _ h => h.1
  have key : Honest s.core := by
    apply Reach.invariant (I := fun s : Sys σ => Honest s.core) ?_ ?_ h
    · intro s hp
      exact .of_provisioned hp
    · intro s l s' hr hi hs hok
      have hr' : Reach (step hal) Provisioned _ _ := hr.mono (fun _ hp => hp.1) (fun _ _ _ h => h)
      have hm := reach_move hlegal hr' hs hok
      exact hi.move hm (reach_tidy hr') (reach_safe hlegal hr') (reach_verified hlegal hr') hok.2
  rw [Sys.flash, ← Sys.core_board] at hn ⊢
  refine ⟨(key.newest n q hn x ⟨hv, hlen⟩).2, ?_⟩
  rintro d pc rfl hw rfl
  exact key.working d.ota pc rfl hw n q hn ⟨hv, hlen⟩

end

/-! ### Runs -/

/-- `Truthful` as a test. -/
def truthfulCheck (f : Flash) (r : MetaRecord) : Bool :=
  [Slot.A, Slot.B].all fun s => !r.valid s || Nat.beq (r.imgLen.get s).toNat 0 ||
    (decide ((r.imgLen.get s).toNat ≤ otaSlotSize.toNat) &&
      Nat.beq (otaCrc32 0 (f.bytes s.base (r.imgLen.get s).toNat)).toNat (r.imgCrc32.get s).toNat)

lemma Truthful.of_check {f : Flash} {r : MetaRecord} (h : truthfulCheck f r = true) :
    Truthful f r := by
  intro s hv
  have hs : s ∈ [Slot.A, Slot.B] := by cases s <;> simp
  have h := List.all_eq_true.mp h s hs
  simp only [Bool.or_eq_true, Bool.not_eq_true', Bool.and_eq_true, Nat.beq_eq, decide_eq_true_eq,
    UInt32.toNat_inj] at h
  rcases h with (h | h) | h
  · rw [hv.1] at h
    cases h
  · exact absurd (UInt32.toNat_inj.mp h) hv.2
  · exact h

/-- The older record, if there is one, is truthful. -/
def olderCheck (f : Flash) : Bool :=
  match metaCurrent f with
  | some (_, q) => (metaPages f q.other).all (truthfulCheck f)
  | none => true

/-- The erase pump is at rest. -/
def restCheck : Core → Bool
  | .on o .idle => !o.sess.erasing
  | .on _ _ => false
  | .off _ => true

/-- A test that is enough for `FallbackTruthful`: whatever label may write a record meets a
truthful older record and an erase pump at rest. -/
def fallbackCheck (c : Core) : Label → Bool
  | .request _ _ _ _ | .confirmTick _ | .boot _ _ => olderCheck c.flash && restCheck c
  | _ => true

lemma FallbackTruthful.of_check {c : Core} {l : Label} (h : fallbackCheck c l = true) :
    FallbackTruthful c l := by
  intro run w ha n q r hn hq hr
  have h : olderCheck c.flash = true ∧ restCheck c = true := by
    cases ha <;> simpa [fallbackCheck] using h
  obtain ⟨hold, hrest⟩ := h
  constructor
  · simp only [olderCheck, hn, hr, Option.all_some] at hold
    exact fun s hv => (Truthful.of_check hold s hv).2
  · intro hp
    exfalso
    match c, hp, hrest with
    | .on o .idle, hp, hrest =>
      rcases hp with he | ⟨snap, he⟩
      · simp [restCheck, he] at hrest
      · cases he

set_option maxRecDepth 20000 in
lemma sampleDevice_truthful : ProvisionedTruthful sampleDevice := by
  refine ⟨sampleDevice_provisioned, fun p r hr => .of_check ?_⟩
  have hall : ∀ p, (metaPages sampleFlash p).all (truthfulCheck sampleFlash) = true := by
    intro p
    cases p <;> decide +kernel
  have := hall p
  rw [show metaPages sampleFlash p = some r from hr] at this
  exact this

/-- Slot A is described truthfully, and B, which is half erased, is not vouched for. -/
def halfErasedCheck (s : Sys Unit) : Bool :=
  s.board.hits .B && (metaCurrent s.flash).any fun n => n.1.valid .A &&
    !Nat.beq n.1.imgLen.a.toNat 0

/-- BEGIN and the first erase step of slot B. -/
def halfEraseRun : List Label :=
  [.boot false [], .request .spi 0xF0 beginPayload [], .eraseTick, .base .ready, .base .ready]

set_option maxRecDepth 20000 in
/-- With slot B half erased the newest record is still right about slot A. -/
theorem newest_truthful_half_erased :
    ∃ s : Sys Unit, Reach (step .stub) ProvisionedTruthful
        (fun s l s' => Legal s l s' ∧ FallbackTruthful s.core l) s ∧ s.board.hits .B = true ∧
      ∃ n q, metaCurrent s.flash = some (n, q) ∧ n.valid .A = true ∧ n.imgLen.get .A ≠ 0 ∧
        otaCrc32 0 (s.flash.bytes Slot.A.base (n.imgLen.get .A).toNat) = n.imgCrc32.get .A := by
  have hinit : Reach (step .stub) ProvisionedTruthful
      (fun (s : Sys Unit) l s' => Legal s l s' ∧ FallbackTruthful s.core l) sampleDevice :=
    .start sampleDevice_truthful
  obtain ⟨s, hs, hq⟩ := hinit.exists_of_run
    (fun s l s' => legalCheck s l s' && fallbackCheck s.core l) halfErasedCheck halfEraseRun
    (fun s l s' h => by
      rw [Bool.and_eq_true] at h
      exact ⟨.of_check h.1, .of_check h.2⟩) (by decide +kernel)
  simp only [halfErasedCheck, Bool.and_eq_true, Option.any_eq_true, Bool.not_eq_true'] at hq
  obtain ⟨hh, ⟨n, q⟩, hn, hv, hl⟩ := hq
  have hlen : n.imgLen.get .A ≠ 0 := by
    intro h0
    rw [show n.imgLen.a = 0 from h0] at hl
    cases hl
  exact ⟨s, hs, hh, n, q, hn, hv, hlen, (newest_truthful_of_reach hs hn .A hv hlen).1⟩

/-- A failed self-heal leaves the trial record of B beside the record of A.  BEGIN demotes B in
the newer one and its erase walk begins; after the next reset the self-heal writes to the page of
that newer record and fails, so the record of A, which still vouches for B, is the newest. -/
def resurrectRun : List Label :=
  [.boot false [], .request .spi 0xF4 [] [], .boot true [.fault .toerr sampleTrialPage],
    .request .spi 0xF0 beginPayload [], .eraseTick, .base .ready, .base .ready, .powerOff,
    .boot false [.ready, .fault .pgerr .blank]]

/-- The newest record vouches for slot B and its CRC is not that of B. -/
def untruthfulCheck (s : Sys Unit) : Bool :=
  (metaCurrent s.flash).any fun n => n.1.valid .B && !Nat.beq n.1.imgLen.b.toNat 0 &&
    !Nat.beq (otaCrc32 0 (s.flash.bytes Slot.B.base n.1.imgLen.b.toNat)).toNat
      n.1.imgCrc32.b.toNat

set_option maxRecDepth 20000 in
/-- Without the condition the newest record can vouch for a slot that is half erased. -/
theorem newest_untruthful_after_heal :
    ∃ s : Sys Unit, Reach (step .stub) ProvisionedTruthful Legal s ∧
      ∃ n q, metaCurrent s.flash = some (n, q) ∧ n.valid .B = true ∧ n.imgLen.get .B ≠ 0 ∧
        otaCrc32 0 (s.flash.bytes Slot.B.base (n.imgLen.get .B).toNat) ≠ n.imgCrc32.get .B := by
  have hinit : Reach (step .stub) ProvisionedTruthful Legal sampleDevice :=
    .start sampleDevice_truthful
  obtain ⟨s, hs, hq⟩ := hinit.exists_of_run legalCheck untruthfulCheck resurrectRun
    (fun _ _ _ h => .of_check h) (by decide +kernel)
  simp only [untruthfulCheck, Option.any_eq_true, Bool.and_eq_true, Bool.not_eq_true'] at hq
  obtain ⟨⟨n, q⟩, hn, ⟨hv, hl⟩, hc⟩ := hq
  refine ⟨s, hs, n, q, hn, hv, ?_, ?_⟩
  · intro h0
    rw [show n.imgLen.b = 0 from h0] at hl
    cases hl
  · intro heq
    rw [show otaCrc32 0 (s.flash.bytes Slot.B.base n.imgLen.b.toNat) = n.imgCrc32.b from heq,
      Nat.beq_refl] at hc
    cases hc

end Gd32Bridge
