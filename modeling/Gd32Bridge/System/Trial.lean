import Gd32Bridge.System.Runs

/-!
# The trial gate

A boot whose record is on trial answers every request with BUSY until the next reset.  And a slot
on trial leaves it in one way only: the confirm tick of a boot of that slot.  The writer that
needs care is ROLLBACK, which decides on the flag by looking at the image: a trial record that is
not the newest one must be about an image that can confirm itself.
-/

namespace Gd32Bridge

open Memory Transition

/-! ### Records on trial -/

/-- The image of `len` bytes in slot `s` can confirm itself. -/
def Capable (f : Flash) (s : Slot) (len : UInt32) : Prop :=
  otaImageTrialCapable (f.bytes s.base len.toNat) len = true

lemma Capable.of_same {f f' : Flash} {s : Slot} {len : UInt32} (h : Capable f s len)
    (hlen : len ≤ otaSlotSize) (hs : SameSlot f f' s) : Capable f' s len := by
  have hbytes : f'.bytes s.base len.toNat = f.bytes s.base len.toNat := hs _ hlen
  rw [Capable, hbytes]
  exact h

/-- Two records of which only one names `s` are on different pages. -/
lemma metaPages_eq_other {f : Flash} {p q : MetaPage} {r n : MetaRecord} {s : Slot}
    (hr : metaPages f p = some r) (hn : metaPages f q = some n) (hrs : r.Names s)
    (hns : ¬ n.Names s) : p = q.other := by
  refine (MetaPage.eq_or_eq_other p q).resolve_left ?_
  rintro rfl
  rw [hn] at hr
  cases hr
  exact hns hrs

/-- A trial record that the newest one has left behind names an image that can confirm itself,
as far as the newest one still describes it. -/
def OlderTrial (f : Flash) : Prop :=
  ∀ n q r s, metaCurrent f = some (n, q) → metaPages f q.other = some r → r.trial = true →
    r.Names s → ¬ n.Names s → SlotOk f n s → Capable f s (n.imgLen.get s)

lemma OlderTrial.congr {f f' : Flash} (h : OlderTrial f) (hp : ∀ p, metaPages f' p = metaPages f p)
    (hs : ∀ s, SameSlot f f' s) : OlderTrial f' := by
  intro n q r s hn hr ht hrs hns hok
  rw [metaCurrent_congr hp] at hn
  rw [hp] at hr
  exact (h n q r s hn hr ht hrs hns (hok.of_same (hs s).symm)).of_same hok.le_size (hs s)

lemma OlderTrial.of_single {f : Flash} {q : MetaPage} (h : metaPages f q = none) :
    OlderTrial f := by
  intro n q' r s hn hr _ hrs hns
  obtain rfl := metaPages_unique h hr (metaCurrent_eq_some hn).1
  exact absurd hrs hns

/-- If the record of the running slot is on trial, the image can confirm itself. -/
def RunTrial (f : Flash) (run : Slot) : Prop :=
  ∀ r p, findRunningSlotRecord f run = some (r, p) → r.trial = true →
    Capable f run (r.imgLen.get run) ∧
      ∀ n q, metaCurrent f = some (n, q) → Capable f run (n.imgLen.get run)

lemma RunTrial.congr {f f' : Flash} {run : Slot} (h : RunTrial f run) (ha : Anchored f run)
    (hp : ∀ p, metaPages f' p = metaPages f p) (hs : SameSlot f f' run) : RunTrial f' run := by
  intro r p hr ht
  rw [findRunningSlotRecord_congr hp] at hr
  obtain ⟨hcap, hnew⟩ := h r p hr ht
  obtain ⟨r', p', hr', hok⟩ := ha.found
  rw [hr] at hr'
  cases hr'
  refine ⟨hcap.of_same hok.le_size hs, fun n q hn => ?_⟩
  rw [metaCurrent_congr hp] at hn
  exact (hnew n q hn).of_same (ha.newest n q hn).le_size hs

lemma RunTrial.of_settled {f : Flash} {run : Slot} (h : runRecTrial f run = false) :
    RunTrial f run := by
  intro r p hr ht
  simp only [runRecTrial, hr, ht] at h
  cases h

/-- A ranked write keeps both, provided its own record puts the running slot on trial only when
the image can confirm itself. -/
lemma RunTrial.wrote {b b' : Board} {run : Slot} {w : MetaWrite} (hrun : RunTrial b.flash run)
    (hold : OlderTrial b.flash) (ha : Anchored b.flash run) (hr : w.Ranked run)
    (hw : Wrote b b' run w)
    (hnew : (w.apply (metaSeed b.flash)).Names run → (w.apply (metaSeed b.flash)).trial = true →
      Capable b.flash run ((metaSeed b.flash).imgLen.get run)) :
    OlderTrial b'.flash ∧ RunTrial b'.flash run := by
  obtain ⟨r, hrp, hrn, hrok, hfind⟩ := ha.spared hr
  obtain ⟨n, q, hn⟩ := exists_metaCurrent hrp
  have hrp' : metaPages b'.flash (w.pageOn b.flash run).other = some r := by rw [hw.other, hrp]
  have hsame := hw.slots run
  cases hw.cases with
  | kept hp => exact ⟨hold.congr hp hw.slots, hrun.congr ha hp hsame⟩
  | torn hnone =>
    -- the record of the running slot is all that is left
    have hcur := metaCurrent_of_torn hnone hrp'
    refine ⟨.of_single hnone, fun r' p' hr' ht => ?_⟩
    rw [findRunningSlotRecord_of_current hcur hrn] at hr'
    cases hr'
    have hcap := (hrun r _ hfind ht).1.of_same hrok.le_size hsame
    refine ⟨hcap, fun n' q' hn' => ?_⟩
    rw [hcur] at hn'
    cases hn'
    exact hcap
  | landed hcur =>
    have hlen : (w.apply (metaSeed b.flash)).imgLen.get run = n.imgLen.get run := by
      rw [metaSeed_of_current hn]
      exact (w.apply_carries n hr.carries.1 hr.carries.2).1
    have hle := (ha.newest n q hn).le_size
    rw [metaSeed_of_current hn] at hnew
    constructor
    · intro n' q' r' s hn' hr' ht hrs hns hok
      rw [hcur] at hn'
      cases hn'
      rw [hrp'] at hr'
      cases hr'
      obtain rfl := hrs.unique hrn
      rw [hlen]
      exact ((hrun r _ hfind ht).2 n q hn).of_same hle hsame
    · intro r' p' hr' ht
      have hcap : Capable b.flash run (n.imgLen.get run) ∧
          (r'.imgLen.get run = n.imgLen.get run ∨ Capable b'.flash run (r'.imgLen.get run)) := by
        by_cases hnames : (w.apply (metaSeed b.flash)).Names run
        · rw [findRunningSlotRecord_of_current hcur hnames] at hr'
          cases hr'
          rw [metaSeed_of_current hn] at hnames ht
          exact ⟨hnew hnames ht, .inl hlen⟩
        · have hfind' : findRunningSlotRecord b'.flash run =
              some (r, (w.pageOn b.flash run).other) := by
            refine findRunningSlotRecord_of_gt hrp' hrn fun r'' hr'' hn'' => ?_
            rw [MetaPage.other_other, (metaCurrent_eq_some hcur).1] at hr''
            cases hr''
            exact absurd hn'' hnames
          rw [hfind'] at hr'
          cases hr'
          obtain ⟨h₁, h₂⟩ := hrun r _ hfind ht
          exact ⟨h₂ n q hn, .inr (h₁.of_same hrok.le_size hsame)⟩
      have hnew' := hcap.1.of_same hle hsame
      refine ⟨?_, fun n' q' hn' => ?_⟩
      · rcases hcap.2 with h | h
        · rw [h]
          exact hnew'
        · exact h
      · rw [hcur] at hn'
        cases hn'
        rw [hlen]
        exact hnew'

/-! ### The invariant -/

/-- A boot on trial whose slot is not the newest record's was chosen because that one does not
validate. -/
lemma bootDecideSlot_gated {f : Flash} {wdt : Bool} {dec : BootDecision}
    (hd : bootDecideSlot f wdt = some dec) (ht : runRecTrial f dec.slot = true) {n : MetaRecord}
    {q : MetaPage} (hn : metaCurrent f = some (n, q)) (hnames : n.Names dec.slot.other) :
    ¬ SlotOk f n dec.slot.other := by
  intro hok
  have hv : Boot.activeSlotValid f n = true := activeSlotValid_iff_slotOk.mpr ⟨_, hnames, hok⟩
  simp only [runRecTrial] at ht
  split at ht
  · next r p hr =>
    obtain ⟨hrp, hrn, -⟩ := findRunningSlotRecord_eq_some hr
    obtain rfl := metaPages_eq_other hrp (metaCurrent_eq_some hn).1 hrn
      fun h => h.not_other hnames
    -- with both records on trial, or without a watchdog reset, the newest is taken
    have hslot : dec.slot = dec.slot.other := by
      cases wdt with
      | false =>
        rw [bootDecideSlot_newest hn hrp hnames hv] at hd
        exact (congrArg BootDecision.slot (Option.some.inj hd)).symm
      | true =>
        cases htn : n.trial with
        | true =>
          rw [bootDecideSlot_lastResort hn hrp htn hnames hv ht] at hd
          exact (congrArg BootDecision.slot (Option.some.inj hd)).symm
        | false =>
          rw [bootDecideSlot_confirmed hn hrp hnames hv htn] at hd
          exact (congrArg BootDecision.slot (Option.some.inj hd)).symm
    exact Slot.ne_other _ hslot
  · cases ht

structure TrialKept (c : Core) : Prop where
  older : OlderTrial c.flash
  running : ∀ o pc, c = .on o pc → o.trial = false → RunTrial c.flash o.run
  gated : ∀ o pc, c = .on o pc → o.trial = true →
    ∀ r p, findRunningSlotRecord c.flash o.run = some (r, p) →
      ∀ n q, metaCurrent c.flash = some (n, q) → n.Names o.run.other →
        ¬ SlotOk c.flash n o.run.other

/-- In a boot that is not on trial there is nothing to show about the gate. -/
lemma TrialKept.of_ungated {o : Ota} {c : Core} (hfol : c.Follows o) (ht : o.trial = false)
    (h : OlderTrial c.flash ∧ RunTrial c.flash o.run) : TrialKept c where
  older := h.1
  running := by
    rintro o' pc' rfl _
    rw [hfol.1]
    exact h.2
  gated := by
    rintro o' pc' rfl hg
    rw [hfol.2, ht] at hg
    cases hg

/-- The confirm tick leaves the other page alone, so what it leaves behind was left behind
before, or does not validate. -/
lemma OlderTrial.confirm {b b' : Board} {run : Slot} {r : MetaRecord} {p : MetaPage}
    (h : OlderTrial b.flash) (hr : findRunningSlotRecord b.flash run = some (r, p))
    (hw : Wrote b b' run (confirmWrite run p))
    (hg : ∀ n q, metaCurrent b.flash = some (n, q) → n.Names run.other →
      ¬ SlotOk b.flash n run.other) : OlderTrial b'.flash := by
  have hpage : (confirmWrite run p).pageOn b.flash run = p := MetaWrite.pageOn_of_target rfl
  obtain ⟨hrp, hrn, -⟩ := findRunningSlotRecord_eq_some hr
  obtain ⟨n, q, hn⟩ := exists_metaCurrent hrp
  cases hw.cases with
  | kept hp => exact h.congr hp hw.slots
  | torn hnone => exact .of_single hnone
  | landed hcur ho =>
    rw [hpage, metaSeed_of_current hn] at hcur
    rw [hpage] at ho
    intro n' q' r' s hn' hr' ht hrs hns hok
    rw [hcur] at hn'
    cases hn'
    rw [ho] at hr'
    have hs : s = run.other := by
      refine (Slot.eq_or_eq_other s run).resolve_left ?_
      rintro rfl
      exact hns (by simp [MetaRecord.Names, confirmWrite])
    subst hs
    -- the new record describes the other slot as the newest one did
    have hok' : SlotOk b.flash n run.other := by
      obtain ⟨hl, hc⟩ := (confirmWrite run p).apply_carries n (confirmWrite_carries run _ p).1
        (confirmWrite_carries run _ p).2
      refine hok.congr (hw.slots _).symm ?_ hl.symm hc.symm
      rw [hok.vouches.1]
      have hbit := ((confirmWrite run p).apply_valid n _).mp hok.vouches.1
      refine hbit.2.resolve_right fun hact => ?_
      exact Slot.ne_other run (Slot.code_injective hact)
    have hlen : ((confirmWrite run p).apply n).imgLen.get run.other = n.imgLen.get run.other :=
      ((confirmWrite run p).apply_carries n (confirmWrite_carries run _ p).1
        (confirmWrite_carries run _ p).2).1
    rw [hlen]
    rcases MetaPage.eq_or_eq_other q p with rfl | rfl
    · rw [(metaCurrent_eq_some hn).1] at hrp
      cases hrp
      exact (h _ _ r' _ hn hr' ht hrs hrn.not_other hok').of_same hok'.le_size (hw.slots _)
    · rw [(metaCurrent_eq_some hn).1] at hr'
      cases hr'
      exact absurd hok' (hg _ _ hn hrs)

/-- Every move keeps the invariant. -/
theorem TrialKept.move {c c' : Core} {l : Label} (hm : Move c l c') (ho : c.Ordered)
    (hsafe : c.Safe) (h : TrialKept c) : TrialKept c' := by
  cases hm with
  | @still o pc _ _ hst hfol hwork =>
    refine ⟨h.older.congr hst.pages hst.slots, ?_, ?_⟩
    · rintro o' pc' rfl hg
      rw [hfol.2] at hg
      rw [hfol.1]
      exact (h.running o pc rfl hg).congr (hsafe.2 hg).1 hst.pages (hst.slots _)
    · rintro o' pc' rfl hg r p hr n q hn hnames hok
      rw [hfol.1] at hr hnames hok
      rw [hfol.2] at hg
      have hr : findRunningSlotRecord o.board.flash o.run = some (r, p) :=
        (findRunningSlotRecord_congr hst.pages _).symm.trans hr
      have hn : metaCurrent o.board.flash = some (n, q) :=
        (metaCurrent_congr hst.pages).symm.trans hn
      exact h.gated o pc rfl hg r p hr n q hn hnames (hok.of_same (hst.slots _).symm)
  | @touch o pc _ _ ht hw hst hfol =>
    obtain ⟨ha, hq⟩ := hsafe.2 ht
    have hsame : SameSlot o.board.flash c'.board.flash o.run := by simpa using hst.slots
    refine .of_ungated hfol ht ⟨?_, (h.running o pc rfl ht).congr ha hst.pages hsame⟩
    intro n q r s hn hr htr hrs hns hok
    have hn : metaCurrent o.board.flash = some (n, q) :=
      (metaCurrent_congr hst.pages).symm.trans hn
    have hr : metaPages o.board.flash q.other = some r := (hst.pages _).symm.trans hr
    rcases Slot.eq_or_eq_other s o.run with rfl | rfl
    · have hcap := h.older n q r _ hn hr htr hrs hns (hok.of_same hsame.symm)
      exact hcap.of_same hok.le_size hsame
    · -- only the newest record can name the slot that is being worked on
      have hc := hq hw q.other r hr hrs
      rw [hn] at hc
      exact absurd (Prod.mk.inj (Option.some.inj hc)).2 (MetaPage.ne_other q)
  | blank ht hnone => exact absurd hnone (hsafe.2 ht).1.not_blank
  | @demote o pc _ _ _ cur p _ ht hd hw hfol =>
    have hrun : RunTrial o.board.flash o.run := h.running o pc rfl ht
    refine .of_ungated hfol ht
      (hrun.wrote h.older (hsafe.2 ht).1 (demoteWrite_ranked _ _) hw fun hnames htr => ?_)
    rw [metaSeed_of_current hd.current] at hnames ⊢
    -- the flag is carried from the newest record, which names the same slot
    have hcur : cur.Names o.run := by simpa [MetaRecord.Names, demoteWrite] using hnames
    have htr : cur.trial = true := by
      rw [MetaWrite.apply_trial] at htr
      exact htr
    exact (hrun cur p (findRunningSlotRecord_of_current hd.current hcur) htr).2 cur p hd.current
  | @commit o pc _ _ _ _ ht hc hw hfol =>
    have hrun : RunTrial o.board.flash o.run := h.running o pc rfl ht
    refine .of_ungated hfol ht
      (hrun.wrote h.older (hsafe.2 ht).1 (commitWrite_ranked ho.inactive) hw fun hnames _ => ?_)
    have hact : (commitWrite o.sess).activeSlot = o.run.code := by
      simpa [MetaRecord.Names] using hnames
    rw [commitWrite, ho.inactive] at hact
    exact absurd (Slot.code_injective hact).symm (Slot.ne_other o.run)
  | @rollback o pc _ _ _ cur p active w _ ht hr heq hw hfol =>
    have hrun : RunTrial o.board.flash o.run := h.running o pc rfl ht
    have hrank : w.Ranked o.run := by
      rw [heq]
      exact rollbackWrite_ranked _ _ _
    refine .of_ungated hfol ht (hrun.wrote h.older (hsafe.2 ht).1 hrank hw fun hnames htr => ?_)
    rw [metaSeed_of_current hr.current]
    have hact : active.other = o.run := by
      refine Slot.code_injective ?_
      simpa [MetaRecord.Names, heq, rollbackWrite] using hnames
    rw [MetaWrite.apply_trial, heq, hact] at htr
    rw [Capable]
    by_contra hcap
    rw [Bool.not_eq_true] at hcap
    simp [rollbackWrite, hcap] at htr
  | @confirm o script r p _ ht hf hr hw hfol =>
    have hg := h.gated o .idle rfl ht r p hr
    refine ⟨h.older.confirm hr hw hg, ?_, ?_⟩
    · rintro o' pc' rfl hg'
      rw [hfol.2, ht] at hg'
      cases hg'
    · rintro o' pc' rfl _ r' p' hr' n' q' hn' hnames hok
      rw [hfol.1] at hr' hnames hok
      cases hw.cases with
      | kept hp =>
        have hn : metaCurrent o.board.flash = some (n', q') :=
          (metaCurrent_congr hp).symm.trans hn'
        exact hg n' q' hn hnames (hok.of_same (hw.slots _).symm)
      | torn hnone =>
        -- one record is left, and it names the running slot
        obtain ⟨hp', hrn', -⟩ := findRunningSlotRecord_eq_some hr'
        obtain rfl := metaPages_unique hnone hp' (metaCurrent_eq_some hn').1
        exact hrn'.not_other hnames
      | landed hcur =>
        rw [show metaCurrent (Core.on o' pc').flash = _ from hcur] at hn'
        cases hn'
        have hrun : ((confirmWrite o.run p).apply (metaSeed o.board.flash)).Names o.run := by
          simp [MetaRecord.Names, confirmWrite]
        exact hrun.not_other hnames
  | @boot b wdt script dec o hd hst hrun ht hwork =>
    refine ⟨h.older.congr hst.pages hst.slots, ?_, ?_⟩
    · intro o' pc' hc hg
      cases hc
      rw [hrun]
      rw [ht] at hg
      exact (RunTrial.of_settled hg).congr (Anchored.of_boot hsafe hd) hst.pages (hst.slots _)
    · intro o' pc' hc hg r p hr n q hn hnames hok
      cases hc
      rw [hrun] at hnames hok
      rw [ht] at hg
      have hn : metaCurrent b.flash = some (n, q) := (metaCurrent_congr hst.pages).symm.trans hn
      exact bootDecideSlot_gated hd hg hn hnames (hok.of_same (hst.slots _).symm)
  | @heal b wdt script dec n p _ hd hr hn hne ht hw hon =>
    have hkept := (RunTrial.of_settled hr).wrote h.older (Anchored.of_boot hsafe hd)
      (selfHealWrite_ranked hne) hw fun _ htr => by
        simp [MetaWrite.apply_trial, selfHealWrite] at htr
    refine ⟨hkept.1, ?_, ?_⟩
    · intro o' pc' hc _
      rw [(hon o' pc' hc).1]
      exact hkept.2
    · intro o' pc' hc hg
      rw [(hon o' pc' hc).2.1] at hg
      cases hg

/-! ### Who clears the flag -/

/-- A new record that names a slot on trial and is not on trial itself is that of the confirm
tick. -/
theorem Move.clears {c c' : Core} {l : Label} (hm : Move c l c') (h : TrialKept c) {S : Slot}
    {r r' : MetaRecord} {p p' : MetaPage} (hr : findRunningSlotRecord c.flash S = some (r, p))
    (ht : r.trial = true) (hr' : metaPages c'.flash p' = some r')
    (hnew : metaPages c.flash p' ≠ some r') (hn : r'.Names S) (hc : r'.trial = false) :
    ∃ o script, c = .on o .idle ∧ l = .confirmTick script ∧ o.run = S ∧ o.trial = true ∧
      o.frameSeen = true := by
  -- the record is the one that was written
  have hrec : ∀ {b b' : Board} {run : Slot} {w : MetaWrite}, Wrote b b' run w →
      metaPages b'.flash p' = some r' → metaPages b.flash p' ≠ some r' →
      r' = w.apply (metaSeed b.flash) := by
    intro b b' run w hw h₁ h₂
    rcases hw.page_cases h₁ with h | ⟨-, h, -⟩
    · exact absurd h h₂
    · exact h
  obtain ⟨hrp, hrn, -⟩ := findRunningSlotRecord_eq_some hr
  cases hm with
  | still hst => exact absurd ((hst.pages p').symm.trans hr') hnew
  | touch _ _ hst => exact absurd ((hst.pages p').symm.trans hr') hnew
  | blank _ _ hst => exact absurd ((hst.pages p').symm.trans hr') hnew
  | boot _ hst => exact absurd ((hst.pages p').symm.trans hr') hnew
  | @demote o pc _ _ _ cur q _ _ hd hw =>
    -- the demotion carries slot and flags of the newest record
    obtain rfl := hrec hw hr' hnew
    rw [metaSeed_of_current hd.current] at hn hc
    have hcur : cur.Names S := by simpa [MetaRecord.Names, demoteWrite] using hn
    have hr : findRunningSlotRecord o.board.flash S = some (r, p) := hr
    rw [findRunningSlotRecord_of_current hd.current hcur] at hr
    cases hr
    rw [MetaWrite.apply_trial] at hc
    exact absurd ht (by simpa [MetaRecord.trial, demoteWrite] using hc)
  | commit _ _ hw =>
    obtain rfl := hrec hw hr' hnew
    simp [MetaWrite.apply_trial, commitWrite, otaMetaFlagTrial] at hc
  | @rollback o pc _ _ _ cur q active w _ _ hrb heq hw =>
    obtain rfl := hrec hw hr' hnew
    have hS : active.other = S := by
      refine Slot.code_injective ?_
      simpa [MetaRecord.Names, heq, rollbackWrite] using hn
    subst hS
    have hne : ¬ cur.Names active.other := hrb.names.not_other
    rw [metaPages_eq_other hrp (metaCurrent_eq_some hrb.current).1 hrn hne] at hrp
    have hcap : Capable o.board.flash active.other (cur.imgLen.get active.other) :=
      h.older cur q r _ hrb.current hrp ht hrn hne hrb.ok
    rw [Capable] at hcap
    simp [MetaWrite.apply_trial, heq, hcap, rollbackWrite, otaMetaFlagTrial] at hc
  | @confirm o script r₀ q _ htr hf hr₀ hw =>
    obtain rfl := hrec hw hr' hnew
    have hS : o.run = S := by
      refine Slot.code_injective ?_
      simpa [MetaRecord.Names, confirmWrite] using hn
    exact ⟨o, script, rfl, rfl, hS, htr, hf⟩
  | @heal b wdt script dec n q _ hd hset hnc hne htr hw =>
    -- the self-heal is for a running slot that is not on trial
    obtain rfl := hrec hw hr' hnew
    have hS : dec.slot = S := by
      refine Slot.code_injective ?_
      simpa [MetaRecord.Names, selfHealWrite] using hn
    subst hS
    have hr : findRunningSlotRecord b.flash dec.slot = some (r, p) := hr
    rw [runRecTrial, hr] at hset
    exact absurd ht (by simp [hset])

/-! ### The gate -/

/-- Not a boot. -/
def Label.staysUp : Label → Bool
  | boot _ _ => false
  | _ => true

/-- The device is off or behind the gate. -/
def Core.Gated : Core → Prop
  | off _ => True
  | on o _ => o.trial = true

lemma CoreStep.gated_stays {o : Ota} {pc : BasePc} {l : Label} {c : Core}
    (h : CoreStep (.on o pc) l c) (ht : o.trial = true) : c.Gated := by
  cases h with
  | gated => exact ht
  | passive hf => cases hf.symm.trans ht
  | request hf => cases hf.symm.trans ht
  | idle => exact ht
  | idleConfirm => exact ht
  | snapshot => exact ht
  | storeStart => exact ht
  | confirm =>
    rcases confirmAfter_cases _ _ _ with h | h <;> rw [h]
    · trivial
    · exact ht
  | refused => exact ht
  | enter => exact ht
  | op =>
    rcases walkAfter_cases _ _ _ _ _ with h | ⟨_, -, h⟩ <;> rw [h]
    · trivial
    · exact ht
  | release => exact ht
  | publish => exact ht
  | storeNext => exact ht
  | powerOff => trivial

lemma CoreStep.boot_gated {b : Board} {wdt : Bool} {script : List PhysResult} {dec : BootDecision}
    {c : Core} (h : CoreStep (.off b) (.boot wdt script) c)
    (hd : bootDecideSlot b.flash wdt = some dec) (ht : runRecTrial b.flash dec.slot = true) :
    c.Gated := by
  cases h with
  | boot hd' rule =>
    rw [hd] at hd'
    cases hd'
    simp only [runRecTrial] at ht
    split at ht
    · next r p hr =>
      cases rule with
      | trial => rfl
      | settled hset => exact absurd ht (by rw [hset r p hr]; decide)
      | heal n q hset => exact absurd ht (by rw [hset r p hr]; decide)
    · cases ht

section

variable {σ : Type} {hal : Hal σ}

/-- Until the next boot the gate stays up. -/
theorem reach_gated {b : Board} {wdt : Bool} {script : List PhysResult} {dec : BootDecision}
    {s : Sys σ} (hd : bootDecideSlot b.flash wdt = some dec)
    (ht : runRecTrial b.flash dec.slot = true)
    (h : Reach (step hal) (fun s => step hal (.off b) (.boot wdt script) = some s)
      (fun _ l _ => l.staysUp = true) s) : s.core.Gated := by
  apply Reach.invariant (I := fun s : Sys σ => s.core.Gated) ?_ ?_ h
  · intro s hs
    exact (CoreStep.of_step hs).boot_gated hd ht
  · intro s l s' _ hi hs hl
    have hc := CoreStep.of_step hs
    cases s with
    | on d pc => exact hc.gated_stays hi
    | off b =>
      -- without power nothing but a boot happens
      cases l with
      | boot => cases hl
      | request | eraseTick | configTick | confirmTick | halTick | base | powerOff => cases hs

/-- Behind the gate a request is answered BUSY and at most noted. -/
lemma protocolDispatch_gated {d : Device σ} (ht : d.ota.trial = true) (inFlight : Bool)
    (link : Link) (cmd : UInt8) (req : List UInt8) (cap : ℕ) :
    ∃ seen, protocolDispatch hal inFlight link cmd d req cap =
      ({ d with ota := { d.ota with frameSeen := seen } }, .reply .busy []) := by
  cases inFlight with
  | true => exact ⟨d.ota.frameSeen, rfl⟩
  | false =>
    refine ⟨true, ?_⟩
    simp only [protocolDispatch, protocolDispatchInner, Bool.false_eq_true, if_false, ht, if_true]
    rfl

/-- The invariant holds in every state a legal run reaches. -/
theorem reach_trialKept {ok : Sys σ → Label → Sys σ → Prop} (hok : AtLeastLegal ok) {s : Sys σ}
    (h : Reach (step hal) Provisioned ok s) : TrialKept s.core := by
  apply Reach.invariant (I := fun s : Sys σ => TrialKept s.core) ?_ ?_ h
  · intro s hp
    cases s with
    | on d pc => cases hp
    | off b =>
      obtain ⟨p, r, -, hnone, -⟩ := hp
      constructor
      case older => exact .of_single hnone
      case running =>
        intro o pc hc
        cases hc
      case gated =>
        intro o pc hc
        cases hc
  · intro s l s' hr hi hs hl
    exact hi.move (reach_move hok hr hs hl) (reach_tidy hr) (reach_safe hok hr)

/-! ### Frames since the boot -/

/-- The number of requests since the last boot. -/
def frameUpd (n : ℕ) (_ : Sys σ) (l : Label) (_ : Sys σ) : ℕ :=
  match l with
  | .boot _ _ => 0
  | .request _ _ _ _ => n + 1
  | _ => n

def Core.frameSeen : Core → Bool
  | off _ => false
  | on o _ => o.frameSeen

/-- `s_frame_seen` is set only once a request has been dispatched. -/
lemma CoreStep.frameSeen {c c' : Core} {l : Label} {n : ℕ} (hs : CoreStep c l c')
    (h : c.frameSeen = true → 0 < n) (hl : ∀ link cmd pl script, l ≠ .request link cmd pl script)
    (hb : ∀ wdt script, l ≠ .boot wdt script) : c'.frameSeen = true → 0 < n := by
  cases hs with
  | gated | passive | request => exact absurd rfl (hl _ _ _ _)
  | boot => exact absurd rfl (hb _ _)
  | idle | idleConfirm | snapshot | storeStart | refused | enter | release | publish | storeNext =>
    exact h
  | powerOff => exact nofun
  | confirm =>
    rcases confirmAfter_cases _ _ _ with hc | hc <;> rw [hc]
    · rintro ⟨⟩
    · exact h
  | op =>
    rcases walkAfter_cases _ _ _ _ _ with hc | ⟨_, -, hc⟩ <;> rw [hc]
    · rintro ⟨⟩
    · exact h

lemma CoreStep.boot_frameSeen {b : Board} {wdt : Bool} {script : List PhysResult} {c : Core}
    (h : CoreStep (.off b) (.boot wdt script) c) : c.frameSeen = false := by
  cases h with
  | boot hd rule =>
    cases rule with
    | trial => rfl
    | settled => rfl
    | heal n p =>
      generalize metaCommit (b.bootBoard script) _ (selfHealWrite _ n) = y
      match y with
      | (b', some v) => rfl
      | (b', none) => rfl

/-- A provisioned device that has not seen a request. -/
def ProvisionedQuiet (x : Sys σ × ℕ) : Prop :=
  Provisioned x.1 ∧ x.2 = 0

lemma reach_frames {ok : Sys σ × ℕ → Label → Sys σ × ℕ → Prop} {x : Sys σ × ℕ}
    (h : Reach (withHistory (step hal) frameUpd) ProvisionedQuiet ok x) :
    x.1.core.frameSeen = true → 0 < x.2 := by
  apply Reach.invariant (I := fun x : Sys σ × ℕ => x.1.core.frameSeen = true → 0 < x.2) ?_ ?_ h
  · rintro ⟨s, n⟩ ⟨hp, -⟩ hf
    cases s with
    | off b => cases hf
    | on d pc => cases hp
  · intro x l y _ hi hs _
    obtain ⟨hs, hupd⟩ := withHistory_eq_some.mp hs
    have hc := CoreStep.of_step hs
    rw [hupd]
    cases l with
    | request => exact fun _ => Nat.succ_pos _
    | boot =>
      intro hf
      obtain ⟨s, n⟩ := x
      cases s with
      | on d pc => cases pc <;> cases hs
      | off b =>
        rw [hc.boot_frameSeen] at hf
        cases hf
    | eraseTick | configTick | confirmTick | halTick | base | powerOff =>
      exact hc.frameSeen hi nofun nofun

/-! ### The theorem -/

/-- If the record of the booted slot is on trial, then until the next boot every request, on
either link and at any moment, is answered BUSY with an empty payload and changes nothing but
`s_frame_seen`.  And in every run from a provisioned flash: while the highest record naming a
slot is on trial, a new record that names it and is not on trial can only come from the confirm
tick of a boot of that slot in which a request was dispatched. -/
theorem trial_gate_and_confirm (hal : Hal σ) :
    (∀ b wdt script dec s, bootDecideSlot b.flash wdt = some dec →
      runRecTrial b.flash dec.slot = true →
      Reach (step hal) (fun s => step hal (.off b) (.boot wdt script) = some s)
        (fun _ l _ => l.staysUp = true) s →
      ∀ d pc, s = .on d pc → ∀ inFlight link cmd req cap, ∃ seen,
        protocolDispatch hal inFlight link cmd d req cap =
          ({ d with ota := { d.ota with frameSeen := seen } }, .reply .busy [])) ∧
    (∀ x l y, Reach (withHistory (step hal) frameUpd) ProvisionedQuiet
        (fun x l y => Legal x.1 l y.1) x →
      withHistory (step hal) frameUpd x l = some y → Legal x.1 l y.1 →
      ∀ S r p, findRunningSlotRecord x.1.flash S = some (r, p) → r.trial = true →
      ∀ r' p', metaPages y.1.flash p' = some r' → metaPages x.1.flash p' ≠ some r' →
        r'.activeSlot = S.code → r'.trial = false →
        ∃ d script, x.1 = .on d .idle ∧ l = .confirmTick script ∧ d.ota.run = S ∧
          d.ota.trial = true ∧ 0 < x.2) := by
  constructor
  · rintro b wdt script dec s hd ht h d pc rfl inFlight link cmd req cap
    exact protocolDispatch_gated (reach_gated hd ht h) inFlight link cmd req cap
  · intro x l y h hs hl S r p hr ht r' p' hr' hnew hn hc
    have h' : Reach (step hal) Provisioned Legal x.1 := h.forget fun _ hx => hx.1
    have hstep := (withHistory_eq_some.mp hs).1
    have hlegal : AtLeastLegal (@Legal σ) := fun _ _ _ h => h
    have hm := reach_move hlegal h' hstep hl
    rw [Sys.flash, ← Sys.core_board] at hr hr' hnew
    obtain ⟨o, scr, hcore, hlab, hrun, htr, hf⟩ :=
      hm.clears (reach_trialKept hlegal h') hr ht hr' hnew hn hc
    have hframes := reach_frames h (by rw [hcore]; exact hf)
    obtain ⟨s, n⟩ := x
    cases s with
    | off b => cases hcore
    | on d pc =>
      cases hcore
      exact ⟨d, scr, rfl, hlab, hrun, htr, hframes⟩

end

/-! ### Runs -/

/-- The device rolls back to slot B. -/
def switchRun : List Label :=
  [.boot false [], .request .spi 0xF4 [] []]

def Sys.isOn {σ : Type} : Sys σ → Bool
  | .on _ _ => true
  | .off _ => false

/-- The next boot of a device that is off is on trial. -/
def trialBootCheck (s : Sys Unit) : Bool :=
  !s.isOn && (bootDecideSlot s.flash false).any (fun dec => runRecTrial s.flash dec.slot) &&
    (step .stub s (.boot false [])).any Sys.isOn

/-- The confirm tick goes through: slot B is on trial before it and confirmed after it. -/
def confirmsCheck (x : Sys Unit × ℕ) : Bool :=
  (findRunningSlotRecord x.1.flash .B).any (·.1.trial) &&
    (metaPages x.1.flash .rec1).any (·.trial) &&
    (withHistory (step .stub) frameUpd x (.confirmTick [])).any fun y =>
      legalCheck x.1 (.confirmTick []) y.1 && (metaPages y.1.flash .rec1).any fun r =>
        Nat.beq r.activeSlot.toNat 1 && !r.trial

set_option maxRecDepth 20000 in
/-- After the switch the flash boots on trial. -/
lemma exists_trialBoot : ∃ b dec d pc, bootDecideSlot b.flash false = some dec ∧
    runRecTrial b.flash dec.slot = true ∧
    step .stub (.off b) (.boot false []) = some (Sys.on d pc) := by
  obtain ⟨s, -, hq⟩ := exists_reach_of_sample Legal legalCheck trialBootCheck switchRun
    (fun _ _ _ h => .of_check h) (by decide +kernel)
  simp only [trialBootCheck, Bool.and_eq_true, Option.any_eq_true, Bool.not_eq_true'] at hq
  obtain ⟨⟨hoff, dec, hd, ht⟩, s', hs', hon⟩ := hq
  cases s with
  | on d pc => cases hoff
  | off b =>
    cases s' with
    | on d pc => exact ⟨b, dec, d, pc, hd, ht, hs'⟩
    | off b' => cases hon

set_option maxRecDepth 20000 in
/-- A request behind the gate, then the confirm tick clears the flag. -/
lemma exists_confirm : ∃ (x y : Sys Unit × ℕ) (r r' : MetaRecord) (p : MetaPage),
    Reach (withHistory (step .stub) frameUpd) ProvisionedQuiet (fun x l y => Legal x.1 l y.1) x ∧
      withHistory (step .stub) frameUpd x (.confirmTick []) = some y ∧
      Legal x.1 (.confirmTick []) y.1 ∧ findRunningSlotRecord x.1.flash .B = some (r, p) ∧
      r.trial = true ∧ metaPages y.1.flash .rec1 = some r' ∧
      metaPages x.1.flash .rec1 ≠ some r' ∧ r'.activeSlot = Slot.B.code ∧ r'.trial = false := by
  have hinit : Reach (withHistory (step .stub) frameUpd) ProvisionedQuiet
      (fun (x : Sys Unit × ℕ) l y => Legal x.1 l y.1) (sampleDevice, 0) :=
    .start ⟨sampleDevice_provisioned, rfl⟩
  obtain ⟨x, hx, hq⟩ := hinit.exists_of_run (fun x l y => legalCheck x.1 l y.1) confirmsCheck
    (switchRun ++ [.boot false [], .request .spi 0x00 [] []]) (fun _ _ _ h => .of_check h)
    (by decide +kernel)
  simp only [confirmsCheck, Bool.and_eq_true, Option.any_eq_true, Nat.beq_eq,
    Bool.not_eq_true'] at hq
  obtain ⟨⟨⟨⟨r, p⟩, hr, ht⟩, r₁, hr₁, ht₁⟩, y, hy, hl, r', hr', hn', ht'⟩ := hq
  have hne : metaPages x.1.flash .rec1 ≠ some r' := by
    intro h
    rw [hr₁] at h
    cases h
    rw [ht₁] at ht'
    cases ht'
  exact ⟨x, y, r, r', p, hx, hy, .of_check hl, hr, ht, hr', hne, UInt8.toNat_inj.mp hn', ht'⟩

/-- A trial of slot B: its boot is behind the gate, and its confirm tick clears the flag. -/
theorem trial_gate_and_confirm_sample :
    (∃ b dec d pc, bootDecideSlot b.flash false = some dec ∧
      runRecTrial b.flash dec.slot = true ∧
      step .stub (.off b) (.boot false []) = some (Sys.on d pc) ∧
      ∀ inFlight link cmd req cap, ∃ seen, protocolDispatch .stub inFlight link cmd d req cap =
        ({ d with ota := { d.ota with frameSeen := seen } }, .reply .busy [])) ∧
    ∃ (x : Sys Unit × ℕ) (d : Device Unit) (r : MetaRecord) (p : MetaPage),
      findRunningSlotRecord x.1.flash .B = some (r, p) ∧ r.trial = true ∧
      x.1 = .on d .idle ∧ d.ota.run = .B ∧ d.ota.trial = true ∧ 0 < x.2 := by
  constructor
  · obtain ⟨b, dec, d, pc, hd, ht, hs⟩ := exists_trialBoot
    exact ⟨b, dec, d, pc, hd, ht, hs,
      (trial_gate_and_confirm Hal.stub).1 b false [] dec _ hd ht (.start hs) d pc rfl⟩
  · obtain ⟨x, y, r, r', p, hx, hy, hl, hr, ht, hr', hne, hn', ht'⟩ := exists_confirm
    obtain ⟨d, script, hxd, -, hrun, htr, hpos⟩ :=
      (trial_gate_and_confirm Hal.stub).2 x _ y hx hy hl .B r p hr ht r' .rec1 hr' hne hn' ht'
    exact ⟨x, d, r, p, hr, ht, hxd, hrun, htr, hpos⟩

end Gd32Bridge
