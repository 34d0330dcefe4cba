import Gd32Bridge.System.Moves

/-!
# The record of the running slot survives

The invariant behind the metadata claims.  `Sound`: whatever slot a record can boot, the newest
record describes just as well.  `Anchored`: a running image that is not on trial is named by a
record that can boot it, and the rank rule never erases that record's page.  `Quiet`: while the
other slot is being worked on, only the newest record can name it.
-/

namespace Gd32Bridge

open Memory Transition

/-! ### After a write -/

lemma counterCap_le (w : MetaWrite) : w.counterCap.toNat ≤ 0xFFFFFFF0 := by
  simp only [MetaWrite.counterCap]
  split_ifs <;> decide

/-- A new record outranks everything that was on the pages. -/
lemma apply_counter_gt {f : Flash} {w : MetaWrite} {r : MetaRecord} {p : MetaPage}
    (hc : (metaSeed f).counter < w.counterCap) (hr : metaPages f p = some r) :
    r.counter < (w.apply (metaSeed f)).counter := by
  obtain ⟨n, q, hn⟩ := exists_metaCurrent hr
  have hle : r.counter.toNat ≤ n.counter.toNat := metaCurrent_max hn hr
  have hcap := counterCap_le w
  rw [metaSeed_of_current hn] at hc ⊢
  have hc' : n.counter.toNat < w.counterCap.toNat := hc
  rw [MetaWrite.apply_counter, UInt32.lt_iff_toNat_lt, UInt32.toNat_add]
  have h1 : (1 : UInt32).toNat = 1 := rfl
  omega

/-- The pages after a write to page `q` of the record `r'`. -/
inductive WroteCase (f f' : Flash) (q : MetaPage) (r' : MetaRecord) : Prop
  | kept (h : ∀ p, metaPages f' p = metaPages f p)
  | torn (h : metaPages f' q = none) (ho : metaPages f' q.other = metaPages f q.other)
  | landed (h : metaCurrent f' = some (r', q)) (ho : metaPages f' q.other = metaPages f q.other)

lemma Landed.current {b b' : Board} {run : Slot} {w : MetaWrite} (h : Landed b b' run w)
    (ho : metaPages b'.flash (w.pageOn b.flash run).other =
      metaPages b.flash (w.pageOn b.flash run).other) :
    metaCurrent b'.flash = some (w.apply (metaSeed b.flash), w.pageOn b.flash run) := by
  refine metaCurrent_of_gt h.1 fun r hr => ?_
  rw [ho] at hr
  exact apply_counter_gt h.2 hr

lemma Wrote.cases {b b' : Board} {run : Slot} {w : MetaWrite} (h : Wrote b b' run w) :
    WroteCase b.flash b'.flash (w.pageOn b.flash run) (w.apply (metaSeed b.flash)) := by
  rcases h.page with hp | hp | hp
  · refine .kept fun p => ?_
    rcases MetaPage.eq_or_eq_other p (w.pageOn b.flash run) with rfl | rfl
    · exact hp
    · exact h.other
  · exact .torn hp h.other
  · exact .landed (Landed.current hp h.other) h.other

/-- A record found after a write was there before, or is the one that was written. -/
lemma Wrote.page_cases {b b' : Board} {run : Slot} {w : MetaWrite} (h : Wrote b b' run w)
    {p : MetaPage} {r : MetaRecord} (hr : metaPages b'.flash p = some r) :
    metaPages b.flash p = some r ∨
      p = w.pageOn b.flash run ∧ r = w.apply (metaSeed b.flash) ∧ Landed b b' run w := by
  rcases MetaPage.eq_or_eq_other p (w.pageOn b.flash run) with rfl | rfl
  · rcases h.page with hp | hp | hp
    · exact .inl (hp ▸ hr)
    · rw [hp] at hr
      cases hr
    · refine .inr ⟨rfl, ?_, hp⟩
      rw [hp.1] at hr
      cases hr
      rfl
  · exact .inl (h.other ▸ hr)

/-- With one page unreadable there is at most one record. -/
lemma metaPages_unique {f : Flash} {q p p' : MetaPage} {r r' : MetaRecord}
    (h : metaPages f q = none) (hr : metaPages f p = some r) (hr' : metaPages f p' = some r') :
    r = r' := by
  have hpage : ∀ {p r}, metaPages f p = some r → p = q.other := by
    intro p r hr
    refine (MetaPage.eq_or_eq_other p q).resolve_left ?_
    rintro rfl
    rw [h] at hr
    cases hr
  rw [hpage hr] at hr
  rw [hpage hr', hr] at hr'
  cases hr'
  rfl

/-- After a torn write the record on the other page is the newest. -/
lemma metaCurrent_of_torn {f : Flash} {q : MetaPage} {r : MetaRecord} (h : metaPages f q = none)
    (hr : metaPages f q.other = some r) : metaCurrent f = some (r, q.other) :=
  metaCurrent_of_gt hr fun r' hr' => by
    rw [MetaPage.other_other, h] at hr'
    cases hr'

/-! ### Sound -/

/-- Whatever slot a record names and can boot, the newest record can boot too. -/
def Sound (f : Flash) : Prop :=
  ∀ p r s, metaPages f p = some r → r.Names s → SlotOk f r s →
    ∀ n q, metaCurrent f = some (n, q) → SlotOk f n s

lemma Sound.congr {f f' : Flash} (h : Sound f) (hp : ∀ p, metaPages f' p = metaPages f p)
    (hs : ∀ s, SameSlot f f' s) : Sound f' := by
  intro p r s hr hn hok n q hc
  rw [hp] at hr
  rw [metaCurrent_congr hp] at hc
  exact (h p r s hr hn (hok.of_same (hs s).symm) n q hc).of_same (hs s)

/-- With a single readable page there is nothing to compare. -/
lemma Sound.of_single {f : Flash} {q : MetaPage} (h : metaPages f q = none) : Sound f := by
  intro p r s hr _ hok n q' hc
  obtain rfl := metaPages_unique h hr (metaCurrent_eq_some hc).1
  exact hok

/-- A write that carries the descriptors of a slot keeps the slot bootable. -/
lemma SlotOk.apply {f f' : Flash} {n : MetaRecord} {w : MetaWrite} {s : Slot} (h : SlotOk f n s)
    (hs : SameSlot f f' s) (hinv : w.invalidate ≠ s.code)
    (hent : w.entry = none ∨ w.activeSlot ≠ s.code) : SlotOk f' (w.apply n) s := by
  obtain ⟨hl, hc⟩ := w.apply_carries n hinv hent
  refine h.congr hs ?_ hl hc
  rw [h.vouches.1]
  exact (w.apply_valid n s).mpr ⟨hinv, .inl h.vouches.1⟩

/-- The write does not drop or replace the descriptor of slot `s`. -/
def MetaWrite.Carries (w : MetaWrite) (s : Slot) : Prop :=
  w.invalidate ≠ s.code ∧ (w.entry = none ∨ w.activeSlot ≠ s.code)

/-- A write keeps `Sound` when it carries the slot named on the page it spares. -/
lemma Sound.wrote {b b' : Board} {run : Slot} {w : MetaWrite} (h : Sound b.flash)
    (hw : Wrote b b' run w)
    (hcar : ∀ r s, metaPages b.flash (w.pageOn b.flash run).other = some r → r.Names s →
      SlotOk b.flash r s → w.Carries s) : Sound b'.flash := by
  cases hw.cases with
  | kept hp => exact h.congr hp hw.slots
  | torn hnone => exact .of_single hnone
  | landed hcur ho =>
    intro p r s hr hn hok n q hc
    rw [hcur] at hc
    cases hc
    rcases MetaPage.eq_or_eq_other p (w.pageOn b.flash run) with rfl | rfl
    · rw [(metaCurrent_eq_some hcur).1] at hr
      cases hr
      exact hok
    · rw [ho] at hr
      have hok' : SlotOk b.flash r s := hok.of_same (hw.slots s).symm
      obtain ⟨n, q, hn'⟩ := exists_metaCurrent hr
      have hnok := h _ r s hr hn hok' n q hn'
      have hc := hcar r s hr hn hok'
      rw [metaSeed_of_current hn']
      exact hnok.apply (hw.slots s) hc.1 hc.2

/-! ### Anchored -/

/-- The running slot is named by a record that can boot it, and the newest record agrees. -/
structure Anchored (f : Flash) (run : Slot) : Prop where
  sound : Sound f
  found : ∃ r p, findRunningSlotRecord f run = some (r, p) ∧ SlotOk f r run
  newest : ∀ n q, metaCurrent f = some (n, q) → SlotOk f n run

lemma findRunningSlotRecord_congr {f f' : Flash} (h : ∀ p, metaPages f' p = metaPages f p)
    (run : Slot) : findRunningSlotRecord f' run = findRunningSlotRecord f run := by
  simp only [findRunningSlotRecord, h]

lemma Anchored.congr {f f' : Flash} {run : Slot} (h : Anchored f run)
    (hp : ∀ p, metaPages f' p = metaPages f p) (hs : SameSlot f f' run) (hsound : Sound f') :
    Anchored f' run where
  sound := hsound
  found := by
    obtain ⟨r, p, hr, hok⟩ := h.found
    exact ⟨r, p, by rw [findRunningSlotRecord_congr hp, hr], hok.of_same hs⟩
  newest n q hc := by
    rw [metaCurrent_congr hp] at hc
    exact (h.newest n q hc).of_same hs

/-- A write that leaves the page choice to the rank rule and carries the running slot. -/
structure MetaWrite.Ranked (w : MetaWrite) (run : Slot) : Prop where
  target : w.target = none
  carries : w.Carries run

/-- Ranked writes go to the page that does not hold the record of the running slot. -/
lemma Anchored.spared {f : Flash} {run : Slot} {w : MetaWrite} (h : Anchored f run)
    (hw : w.Ranked run) : ∃ r, metaPages f (w.pageOn f run).other = some r ∧ r.Names run ∧
      SlotOk f r run ∧ findRunningSlotRecord f run = some (r, (w.pageOn f run).other) := by
  obtain ⟨r, p, hr, hok⟩ := h.found
  have hpage := MetaWrite.pageOn_of_rank hw.target hr
  obtain ⟨hp, hn, -⟩ := findRunningSlotRecord_eq_some hr
  rw [hpage, MetaPage.other_other]
  exact ⟨r, hp, hn, hok, hr⟩

/-- A ranked write keeps the anchor, wherever it is interrupted. -/
theorem Anchored.wrote {b b' : Board} {run : Slot} {w : MetaWrite} (h : Anchored b.flash run)
    (hr : w.Ranked run) (hw : Wrote b b' run w) : Anchored b'.flash run := by
  obtain ⟨r, hrp, hrn, hrok, hfind⟩ := h.spared hr
  have hsound : Sound b'.flash := by
    refine h.sound.wrote hw fun r' s hr' hn' _ => ?_
    rw [hrp] at hr'
    cases hr'
    obtain rfl := hrn.unique hn'
    exact hr.carries
  have hrok' : SlotOk b'.flash r run := hrok.of_same (hw.slots run)
  cases hw.cases with
  | kept hp => exact h.congr hp (hw.slots run) hsound
  | torn hnone ho =>
    have hr' : metaPages b'.flash (w.pageOn b.flash run).other = some r := by rw [ho, hrp]
    refine ⟨hsound, ⟨r, _, findRunningSlotRecord_of_gt hr' hrn ?_, hrok'⟩, ?_⟩
    · intro r' hr'' _
      rw [MetaPage.other_other, hnone] at hr''
      cases hr''
    · intro n q hc
      rw [metaCurrent_of_torn hnone hr'] at hc
      cases hc
      exact hrok'
  | landed hcur ho =>
    have hr' : metaPages b'.flash (w.pageOn b.flash run).other = some r := by rw [ho, hrp]
    obtain ⟨n, q, hn⟩ := exists_metaCurrent hrp
    have hnew : SlotOk b'.flash (w.apply (metaSeed b.flash)) run := by
      rw [metaSeed_of_current hn]
      exact (h.newest n q hn).apply (hw.slots run) hr.carries.1 hr.carries.2
    refine ⟨hsound, ?_, ?_⟩
    · by_cases hnames : (w.apply (metaSeed b.flash)).Names run
      · exact ⟨_, _, findRunningSlotRecord_of_current hcur hnames, hnew⟩
      · refine ⟨r, _, findRunningSlotRecord_of_gt hr' hrn ?_, hrok'⟩
        intro r' hr'' hn'
        rw [MetaPage.other_other, (metaCurrent_eq_some hcur).1] at hr''
        cases hr''
        exact absurd hn' hnames
    · intro n' q' hc
      rw [hcur] at hc
      cases hc
      exact hnew

/-- Booting a record that validates anchors its slot. -/
theorem Anchored.of_boot {f : Flash} {wdt : Bool} {dec : BootDecision} (h : Sound f)
    (hd : bootDecideSlot f wdt = some dec) : Anchored f dec.slot := by
  obtain ⟨p, r, hr, hv, hslot, -⟩ := bootDecideSlot_eq_some hd
  obtain ⟨s, hs, hok⟩ := activeSlotValid_iff_slotOk.mp hv
  obtain rfl : s = dec.slot := hs.unique hslot
  have hnew := h p r _ hr hs hok
  refine ⟨h, ?_, hnew⟩
  obtain ⟨r', p', hfind⟩ := exists_findRunningSlotRecord hr hs
  obtain ⟨hp', hn', hmax⟩ := findRunningSlotRecord_eq_some hfind
  refine ⟨r', p', hfind, ?_⟩
  -- either the record that was booted is the one found, or both pages name the slot
  rcases MetaPage.eq_or_eq_other p p' with rfl | rfl
  · rw [hr] at hp'
    cases hp'
    exact hok
  · obtain ⟨n, q, hc⟩ := exists_metaCurrent hr
    obtain ⟨hn, -⟩ := metaCurrent_eq_some hc
    have hnames : n.Names dec.slot := by
      rcases MetaPage.eq_or_eq_other q p' with rfl | rfl
      · rw [hp'] at hn
        cases hn
        exact hn'
      · rw [hr] at hn
        cases hn
        exact hs
    rw [findRunningSlotRecord_of_current hc hnames] at hfind
    cases hfind
    exact hnew _ _ hc

/-! ### Quiet -/

/-- Only the newest record can name the slot that is not running. -/
def Quiet (f : Flash) (run : Slot) : Prop :=
  ∀ p r, metaPages f p = some r → r.Names run.other → metaCurrent f = some (r, p)

lemma Quiet.congr {f f' : Flash} {run : Slot} (h : Quiet f run)
    (hp : ∀ p, metaPages f' p = metaPages f p) : Quiet f' run := by
  intro p r hr hn
  rw [hp] at hr
  rw [metaCurrent_congr hp]
  exact h p r hr hn

/-- A ranked write that is not simply without effect leaves things quiet. -/
lemma Quiet.wrote {b b' : Board} {run : Slot} {w : MetaWrite} (ha : Anchored b.flash run)
    (hr : w.Ranked run) (hw : Wrote b b' run w)
    (h : Quiet b.flash run ∨ Landed b b' run w) : Quiet b'.flash run := by
  obtain ⟨r, hrp, hrn, -⟩ := ha.spared hr
  -- the spared page names the running slot, so only the written page matters
  have hspared : ∀ r', metaPages b'.flash (w.pageOn b.flash run).other = some r' →
      ¬ r'.Names run.other := by
    intro r' hr'
    rw [hw.other, hrp] at hr'
    cases hr'
    exact hrn.not_other
  intro p r' hr' hn'
  rcases MetaPage.eq_or_eq_other p (w.pageOn b.flash run) with rfl | rfl
  · cases hw.cases with
    | kept hp =>
      rcases h with h | h
      · exact h.congr hp _ r' hr' hn'
      · have hc := h.current hw.other
        rw [(metaCurrent_eq_some hc).1] at hr'
        cases hr'
        exact hc
    | torn hnone =>
      rw [hnone] at hr'
      cases hr'
    | landed hcur =>
      rw [(metaCurrent_eq_some hcur).1] at hr'
      cases hr'
      exact hcur
  · exact absurd hn' (hspared r' hr')

/-- Working on the other slot under `Quiet` keeps the anchor. -/
lemma Anchored.touch {b b' : Board} {run : Slot} (h : Anchored b.flash run)
    (hq : Quiet b.flash run) (ht : Touch b b' run.other) : Anchored b'.flash run := by
  have hrun : SameSlot b.flash b'.flash run := by simpa using ht.slots
  refine h.congr ht.pages hrun ?_
  intro p r s hr hn hok n q hc
  rw [ht.pages] at hr
  rw [metaCurrent_congr ht.pages] at hc
  rcases Slot.eq_or_eq_other s run with rfl | rfl
  · exact (h.sound p r _ hr hn (hok.of_same hrun.symm) n q hc).of_same hrun
  · rw [hq p r hr hn] at hc
    cases hc
    exact hok

/-! ### The writes are ranked -/

lemma demoteWrite_ranked (run : Slot) (cur : MetaRecord) : (demoteWrite run cur).Ranked run :=
  ⟨rfl, by simp [demoteWrite], .inl rfl⟩

lemma slotCode_ne_ff (s : Slot) : (0xFF : UInt8) ≠ s.code := by cases s <;> decide

lemma commitWrite_ranked {run : Slot} {s : Session} (h : s.inactive = run.other) :
    (commitWrite s).Ranked run :=
  ⟨rfl, slotCode_ne_ff run, .inr (by simp [commitWrite, h])⟩

lemma rollbackWrite_ranked (run other : Slot) (t : Bool) : (rollbackWrite other t).Ranked run :=
  ⟨rfl, slotCode_ne_ff run, .inl rfl⟩

lemma selfHealWrite_ranked {run : Slot} {n : MetaRecord} (h : ¬ n.Names run) :
    (selfHealWrite run n).Ranked run :=
  ⟨rfl, h, .inl rfl⟩

lemma confirmWrite_carries (run s : Slot) (p : MetaPage) : (confirmWrite run p).Carries s :=
  ⟨slotCode_ne_ff s, .inl rfl⟩

/-! ### Every step -/

/-- The invariant: `Sound` throughout, and more in a boot that is not on trial. -/
def Core.Safe : Core → Prop
  | off b => Sound b.flash
  | on o pc => Sound o.board.flash ∧
      (o.trial = false → Anchored o.board.flash o.run ∧ (Working o pc → Quiet o.board.flash o.run))

lemma Core.Safe.sound {c : Core} (h : c.Safe) : Sound c.flash := by
  cases c with
  | off b => exact h
  | on o pc => exact h.1

/-- In an anchored boot there is a record, so BEGIN never takes the blank path. -/
lemma Anchored.not_blank {f : Flash} {run : Slot} (h : Anchored f run) : metaCurrent f ≠ none := by
  obtain ⟨r, p, hr, -⟩ := h.found
  intro hnone
  have := (findRunningSlotRecord_eq_some hr).1
  rw [metaCurrent_eq_none.mp hnone] at this
  cases this

/-- In a boot that is not on trial every move keeps the anchor. -/
theorem Anchored.move {o : Ota} {pc : BasePc} {l : Label} {c : Core} (hm : Move (.on o pc) l c)
    (ht : Tidy o pc) (hg : o.trial = false) (ha : Anchored o.board.flash o.run)
    (hq : Working o pc → Quiet o.board.flash o.run) :
    Anchored c.board.flash o.run ∧ (c.AtWork → Quiet c.board.flash o.run) := by
  cases hm with
  | still hst hfol hwork =>
    have hsound := ha.sound.congr hst.pages hst.slots
    exact ⟨ha.congr hst.pages (hst.slots _) hsound, fun hw => (hq (hwork hw)).congr hst.pages⟩
  | touch _ hw hst => exact ⟨ha.touch (hq hw) hst, fun _ => (hq hw).congr hst.pages⟩
  | blank _ hnone => exact absurd hnone ha.not_blank
  | demote _ hd hw hfol hend =>
    refine ⟨ha.wrote (demoteWrite_ranked _ _) hw, fun hwork => ?_⟩
    refine Quiet.wrote ha (demoteWrite_ranked _ _) hw ?_
    rcases hend with hl | hp
    · exact .inr hl
    · exact .inl (hq (hp hwork).working)
  | commit _ hc hw hfol hwork =>
    exact ⟨ha.wrote (commitWrite_ranked ht.inactive) hw, fun h => absurd h hwork⟩
  | rollback _ hr heq hw hfol hwork =>
    subst heq
    refine ⟨ha.wrote (rollbackWrite_ranked _ _ _) hw, fun hwork' => ?_⟩
    exact Quiet.wrote ha (rollbackWrite_ranked _ _ _) hw (.inl (hq (hwork hwork').working))
  | confirm hg' =>
    rw [hg] at hg'
    cases hg'

/-- A boot anchors the slot it starts, whether or not its self-heal goes through. -/
theorem Anchored.move_off {b : Board} {l : Label} {c : Core} (hm : Move (.off b) l c)
    (h : Sound b.flash) :
    ∃ run, Anchored c.board.flash run ∧ ∀ o pc, c = .on o pc → o.run = run ∧ ¬ Working o pc := by
  cases hm with
  | boot hd hst hrun htr hwork =>
    refine ⟨_, (Anchored.of_boot h hd).congr hst.pages (hst.slots _)
      (h.congr hst.pages hst.slots), ?_⟩
    intro o pc hc
    cases hc
    exact ⟨hrun, hwork⟩
  | heal hd hr hn hne htr hw hon =>
    refine ⟨_, (Anchored.of_boot h hd).wrote (selfHealWrite_ranked hne) hw, ?_⟩
    intro o pc hc
    obtain ⟨hrun, -, hwork⟩ := hon o pc hc
    exact ⟨hrun, hwork⟩

/-- Every move keeps the invariant. -/
theorem Core.Safe.move {c c' : Core} {l : Label} (hm : Move c l c') (ht : c.Ordered) (h : c.Safe) :
    c'.Safe := by
  cases c with
  | off b =>
    obtain ⟨run, ha, hon⟩ := Anchored.move_off hm h
    cases c' with
    | off b' => exact ha.sound
    | on o' pc' =>
      obtain ⟨hrun, hwork⟩ := hon o' pc' rfl
      rw [← hrun] at ha
      exact ⟨ha.sound, fun _ => ⟨ha, fun hw => absurd hw hwork⟩⟩
  | on o pc =>
    have hfol : c'.Follows o := hm.follows
    cases hg : o.trial with
    | false =>
      obtain ⟨ha, hq⟩ := h.2 hg
      obtain ⟨ha', hq'⟩ := Anchored.move hm ht hg ha hq
      cases c' with
      | off b' => exact ha'.sound
      | on o' pc' =>
        rw [← hfol.1] at ha' hq'
        exact ⟨ha'.sound, fun _ => ⟨ha', hq'⟩⟩
    | true =>
      have hsound : Sound c'.board.flash := by
        rcases hm.of_gated hg with hst | ⟨script, r, p, -, -, -, -, hw⟩
        · exact h.1.congr hst.pages hst.slots
        · exact h.1.wrote hw fun _ s _ _ _ => confirmWrite_carries _ s _
      cases c' with
      | off b' => exact hsound
      | on o' pc' =>
        refine ⟨hsound, fun hg' => ?_⟩
        rw [hfol.2, hg] at hg'
        cases hg'

/-! ### Every reachable state -/

section

variable {σ : Type} {hal : Hal σ} {ok : Sys σ → Label → Sys σ → Prop} {s s' : Sys σ} {l : Label}

/-- Side conditions under which the torn-page assumption holds. -/
def AtLeastLegal (ok : Sys σ → Label → Sys σ → Prop) : Prop :=
  ∀ s l s', ok s l s' → Legal s l s'

lemma Provisioned.sound (h : Provisioned s) : Sound s.flash := by
  cases s with
  | off b =>
    obtain ⟨p, r, -, hnone, -⟩ := h
    exact .of_single hnone
  | on d pc => cases h

/-- A device that has not been booted. -/
def Sys.Unpowered : Sys σ → Prop
  | .off _ => True
  | .on _ _ => False

lemma Provisioned.unpowered (h : Provisioned s) : s.Unpowered := by
  cases s with
  | off b => trivial
  | on d pc => cases h

/-- The bookkeeping holds in every state of every run. -/
theorem reach_ordered (h : Reach (step hal) Sys.Unpowered ok s) : s.core.Ordered := by
  apply Reach.invariant (I := fun s : Sys σ => s.core.Ordered) ?_ ?_ h
  · intro s hs
    cases s with
    | off b => trivial
    | on d pc => cases hs
  · intro s l s' _ hi hs _
    exact Core.Ordered.step (.of_step hs) hi

lemma reach_tidy (h : Reach (step hal) Provisioned ok s) : s.core.Ordered :=
  reach_ordered (h.mono (fun _ => Provisioned.unpowered) fun _ _ _ h => h)

/-- Every allowed step from a reachable state is a move of its core. -/
lemma reach_move (hok : AtLeastLegal ok) (h : Reach (step hal) Provisioned ok s)
    (hs : step hal s l = some s') (hl : ok s l s') : Move s.core l s'.core := by
  refine Move.of_step (.of_step hs) (reach_tidy h) fun p => ?_
  rw [Sys.core_board, Sys.core_board]
  exact hok s l s' hl p

/-- The invariant holds in every state a legal run reaches. -/
theorem reach_safe (hok : AtLeastLegal ok) (h : Reach (step hal) Provisioned ok s) :
    s.core.Safe := by
  refine h.invariant (I := fun s => s.core.Safe) ?_ ?_
  · intro s hp
    cases s with
    | off b => exact hp.sound
    | on d pc => cases hp
  · intro s l s' hr hi hs hl
    exact hi.move (reach_move hok hr hs hl) (reach_tidy hr)

end

end Gd32Bridge
