import Gd32Bridge.System.Runs

/-!
# Demote before erase

A history variable remembers, for each slot, whether an operation has worked on it since a
COMMIT or a ROLLBACK last named it.  No record names such a slot and vouches for it, so the
bootloader never looks at its bytes; unless a ROLLBACK is accepted while the erase pump is armed,
which re-activates the slot the pump is about to erase.
-/

namespace Gd32Bridge

open Memory Transition

/-! ### The history variable -/

/-- The step is a COMMIT or a ROLLBACK whose record, now the newest, names `s`. -/
def commits (b : Board) (l : Label) (b' : Board) (s : Slot) : Bool :=
  match l with
  | .request _ cmd _ _ =>
    (cmd == 0xF3 || cmd == 0xF4) &&
      match metaCurrent b.flash, metaCurrent b'.flash with
      | some (n, _), some (n', _) => n'.activeSlot == s.code && decide (n.counter < n'.counter)
      | none, some (n', _) => n'.activeSlot == s.code
      | _, none => false
  | _ => false

/-- Slots that were worked on since they were last committed. -/
def touchUpd {σ : Type} (t : Slot → Bool) (s : Sys σ) (l : Label) (s' : Sys σ) : Slot → Bool :=
  fun x => s'.board.hits x || (t x && !commits s.board l s'.board x)

/-- A landed COMMIT or ROLLBACK commits the slot it names. -/
lemma commits_of_landed {b b' : Board} {run s : Slot} {w : MetaWrite} {link : Link} {cmd : UInt8}
    {pl : List UInt8} {script : List PhysResult} (hcmd : cmd = 0xF3 ∨ cmd = 0xF4)
    (hw : Wrote b b' run w) (hl : Landed b b' run w) (hs : w.activeSlot = s.code) :
    commits b (.request link cmd pl script) b' s = true := by
  have hc : (cmd == 0xF3 || cmd == 0xF4) = true := by simpa using hcmd
  have hcur := hl.current hw.other
  simp only [commits, hc, Bool.true_and, hcur]
  cases hb : metaCurrent b.flash with
  | none => simp [hs]
  | some nq =>
    have hgt := apply_counter_gt hl.2 (metaCurrent_eq_some hb).1
    simpa [hs] using hgt

/-! ### The invariant -/

/-- No record names `s` and vouches for it. -/
def Unvouched (f : Flash) (s : Slot) : Prop :=
  ∀ p r, metaPages f p = some r → r.Names s → ¬ r.Vouches s

lemma Unvouched.congr {f f' : Flash} {s : Slot} (h : Unvouched f s)
    (hp : ∀ p, metaPages f' p = metaPages f p) : Unvouched f' s := by
  intro p r hr
  rw [hp] at hr
  exact h p r hr

/-- A write keeps `Unvouched`, provided its own record complies. -/
lemma Unvouched.wrote {b b' : Board} {run s : Slot} {w : MetaWrite} (h : Unvouched b.flash s)
    (hw : Wrote b b' run w)
    (hnew : Landed b b' run w → (w.apply (metaSeed b.flash)).Names s →
      ¬ (w.apply (metaSeed b.flash)).Vouches s) : Unvouched b'.flash s := by
  intro p r hr hn
  rcases hw.page_cases hr with hr | ⟨-, rfl, hl⟩
  · exact h p r hr hn
  · exact hnew hl hn

/-- The record of a demotion does not vouch for the slot that is about to be erased. -/
lemma demoteWrite_not_vouches (run : Slot) (cur r : MetaRecord) :
    ¬ ((demoteWrite run cur).apply r).Vouches run.other := fun h =>
  h.2 (MetaWrite.apply_invalidates _ _ rfl rfl)

lemma selfHealWrite_names (run : Slot) (n r : MetaRecord) : ((selfHealWrite run n).apply r).Names run := by
  simp [MetaRecord.Names, selfHealWrite]

structure Demoted (c : Core) (t : Slot → Bool) : Prop where
  touched : ∀ s, t s = true → Unvouched c.flash s
  running : ∀ o pc, c = .on o pc → t o.run = false
  working : ∀ o pc, c = .on o pc → Working o pc → Unvouched c.flash o.run.other

/-- `h_rollback` gets past its checks: the request is not behind the trial gate, the session is at
rest, and the newest record describes an intact image in the slot it does not name. -/
def RollbackAccepted (o : Ota) : Prop :=
  o.trial = false ∧ ∃ cur p active, RollbackChecked o cur p active

/-- No ROLLBACK is accepted while the erase pump is armed or in flight. -/
def RollbackAtRest : Core → Label → Prop
  | .on o pc, .request _ cmd _ _ => cmd = 0xF4 → RollbackAccepted o → ¬ Pumping o pc
  | _, _ => True

/-- The history after a step at the level of the core. -/
def touchAfter (t : Slot → Bool) (c : Core) (l : Label) (c' : Core) : Slot → Bool :=
  fun x => c'.board.hits x || (t x && !commits c.board l c'.board x)

lemma touchUpd_eq {σ : Type} (t : Slot → Bool) (s : Sys σ) (l : Label) (s' : Sys σ) :
    touchUpd t s l s' = touchAfter t s.core l s'.core := by
  funext x
  simp only [touchUpd, touchAfter, Sys.core_board]

lemma touchAfter_still {t : Slot → Bool} {c c' : Core} {l : Label} {x : Slot}
    (h : touchAfter t c l c' x = true) (hh : c'.board.hits x = false) :
    t x = true ∧ commits c.board l c'.board x = false := by
  simpa [touchAfter, hh] using h

lemma touchAfter_eq_false {t : Slot → Bool} {c c' : Core} {l : Label} {x : Slot}
    (hh : c'.board.hits x = false) (h : t x = false) : touchAfter t c l c' x = false := by
  simp [touchAfter, hh, h]

/-- Every move keeps the invariant, as long as no accepted ROLLBACK meets the erase pump. -/
theorem Demoted.move {c c' : Core} {l : Label} {t : Slot → Bool} (hm : Move c l c')
    (ho : c.Ordered) (hsafe : c.Safe) (hok : RollbackAtRest c l) (h : Demoted c t) :
    Demoted c' (touchAfter t c l c') := by
  cases c with
  | off b =>
    -- the slot that is booted is vouched for, so it was not worked on
    have hrun : ∀ {wdt dec}, bootDecideSlot b.flash wdt = some dec → t dec.slot = false := by
      intro wdt dec hd
      by_contra ht
      obtain ⟨p, r, hr, hv, hn, -⟩ := bootDecideSlot_eq_some hd
      obtain ⟨s, hs, hok⟩ := activeSlotValid_iff_slotOk.mp hv
      obtain rfl := hs.unique hn
      exact h.touched _ (by simpa using ht) p r hr hn hok.vouches
    cases hm with
    | boot hd hst hrun' htr hwork =>
      refine ⟨fun s hs => ?_, ?_, ?_⟩
      · exact (h.touched s (touchAfter_still hs (hst.hits s)).1).congr hst.pages
      · intro o pc hc
        cases hc
        exact touchAfter_eq_false (hst.hits _) (hrun' ▸ hrun hd)
      · intro o pc hc hw
        cases hc
        exact absurd hw hwork
    | heal hd hr hn hne htr hw hon =>
      refine ⟨fun s hs => ?_, ?_, ?_⟩
      · have ht := (touchAfter_still hs (hw.hits s)).1
        refine (h.touched s ht).wrote hw fun _ hnames => ?_
        obtain rfl := (selfHealWrite_names _ _ _).unique hnames
        rw [hrun hd] at ht
        cases ht
      · intro o pc hc
        exact touchAfter_eq_false (hw.hits _) ((hon o pc hc).1 ▸ hrun hd)
      · intro o pc hc hw'
        exact absurd hw' (hon o pc hc).2.2
  | on o pc =>
    have hrun := h.running o pc rfl
    have hfol := hm.follows
    -- after the step, the running slot is still not worked on
    have hrun' : c'.board.hits o.run = false → ∀ o' pc', c' = .on o' pc' →
        touchAfter t (.on o pc) l c' o'.run = false := by
      rintro hh o' pc' rfl
      rw [hfol.1]
      exact touchAfter_eq_false hh hrun
    -- a slot that counts as worked on is the other one
    have hother : ∀ {s}, t s = true → s = o.run.other := by
      intro s hs
      refine (Slot.eq_or_eq_other s o.run).resolve_left ?_
      rintro rfl
      rw [hrun] at hs
      cases hs
    cases hm with
    | still hst _ hwork =>
      refine ⟨fun s hs => ?_, hrun' (hst.hits _), ?_⟩
      · exact (h.touched s (touchAfter_still hs (hst.hits s)).1).congr hst.pages
      · rintro o' pc' rfl hw
        rw [hfol.1]
        exact (h.working o pc rfl (hwork hw)).congr hst.pages
    | touch hg hw hst =>
      have hpages := (h.working o pc rfl hw).congr hst.pages
      have hhit : c'.board.hits o.run = false := by simpa using hst.hits
      refine ⟨fun s hs => ?_, hrun' hhit, ?_⟩
      · rcases Slot.eq_or_eq_other s o.run with rfl | rfl
        · rw [touchAfter_eq_false hhit hrun] at hs
          cases hs
        · exact hpages
      · rintro o' pc' rfl _
        rw [hfol.1]
        exact hpages
    | blank hg hnone => exact absurd hnone (hsafe.2 hg).1.not_blank
    | @demote _ _ _ _ _ cur _ _ hg hd hw _ hend =>
      have hdem := demoteWrite_not_vouches o.run
      refine ⟨fun s hs => ?_, hrun' (hw.hits _), ?_⟩
      · have ht := (touchAfter_still hs (hw.hits s)).1
        obtain rfl := hother ht
        exact (h.touched _ ht).wrote hw fun _ _ => hdem _ _
      · rintro o' pc' rfl hw'
        rw [hfol.1]
        rcases hend with hl | hp
        · -- the other page is the one that names the running slot
          obtain ⟨r, hr, hn, -⟩ := (hsafe.2 hg).1.spared (demoteWrite_ranked o.run cur)
          intro p r' hr' hn'
          rcases MetaPage.eq_or_eq_other p ((demoteWrite o.run cur).pageOn o.board.flash o.run)
            with rfl | rfl
          · rw [Core.flash, hl.1] at hr'
            cases hr'
            exact hdem _ _
          · rw [Core.flash, hw.other, hr] at hr'
            cases hr'
            exact absurd hn' hn.not_other
        · exact (h.working o pc rfl (hp hw').working).wrote hw fun _ _ => hdem _ _
    | commit hg hc hw _ hwork =>
      refine ⟨fun s hs => ?_, hrun' (hw.hits _), fun o' pc' hc' hw' => ?_⟩
      · obtain ⟨ht, hno⟩ := touchAfter_still hs (hw.hits s)
        obtain rfl := hother ht
        refine (h.touched _ ht).wrote hw fun hl _ => ?_
        have hin : (commitWrite o.sess).activeSlot = o.run.other.code := by
          simp [commitWrite, ho.inactive]
        cases (commits_of_landed (.inl rfl) hw hl hin).symm.trans hno
      · subst hc'
        exact absurd hw' hwork
    | @rollback _ _ _ _ _ _ _ _ w _ hg hr heq hw _ hwork =>
      have hrest : ¬ Pumping o pc := hok rfl ⟨hg, _, _, _, hr⟩
      refine ⟨fun s hs => ?_, hrun' (hw.hits _), fun o' pc' hc' hw' => ?_⟩
      · obtain ⟨ht, hno⟩ := touchAfter_still hs (hw.hits s)
        refine (h.touched _ ht).wrote hw fun hl hn => ?_
        have hact : w.activeSlot = s.code := by simpa [MetaRecord.Names] using hn
        cases (commits_of_landed (.inr rfl) hw hl hact).symm.trans hno
      · subst hc'
        exact absurd (hwork hw') hrest
    | confirm hg hf hr hw _ hwork =>
      refine ⟨fun s hs => ?_, hrun' (hw.hits _), fun o' pc' hc' hw' => ?_⟩
      · have ht := (touchAfter_still hs (hw.hits s)).1
        obtain rfl := hother ht
        refine (h.touched _ ht).wrote hw fun _ hn => ?_
        simp [MetaRecord.Names, confirmWrite] at hn
      · subst hc'
        exact absurd hw' hwork

/-! ### Every reachable state -/

section

variable {σ : Type} {hal : Hal σ}

/-- A provisioned device on which no slot has been worked on yet. -/
def ProvisionedUntouched (x : Sys σ × (Slot → Bool)) : Prop :=
  Provisioned x.1 ∧ x.2 = fun _ => false

lemma Demoted.of_provisioned {x : Sys σ × (Slot → Bool)} (h : ProvisionedUntouched x) :
    Demoted x.1.core x.2 := by
  obtain ⟨s, t⟩ := x
  obtain ⟨hp, rfl⟩ := h
  refine ⟨nofun, ?_, ?_⟩
  · intro o pc _
    rfl
  · intro o pc hc
    cases s with
    | off b => cases hc
    | on d pc => cases hp

/-- In every run from a provisioned flash in which no ROLLBACK is accepted while the erase pump
is armed or in flight: once a slot has been erased or programmed since it was last
committed, no record names it and vouches for it, and the bootloader maps no byte of it. -/
theorem touched_unvouched_of_reach {x : Sys σ × (Slot → Bool)}
    (h : Reach (withHistory (step hal) touchUpd) ProvisionedUntouched
      (fun x l y => Legal x.1 l y.1 ∧ RollbackAtRest x.1.core l) x)
    (s : Slot) (ht : x.2 s = true) :
    (∀ p r, metaPages x.1.flash p = some r →
      ¬ (r.activeSlot = s.code ∧ r.valid s = true ∧ r.imgLen.get s ≠ 0)) ∧
      ∀ r ∈ Boot.metaCandidates x.1.flash, ∀ n, Boot.mappedImage r ≠ some (s, n) := by
  have hlegal : AtLeastLegal (fun (s : Sys σ) l s' => Legal s l s' ∧ RollbackAtRest s.core l) :=
    fun _ _ _ h => h.1
  have key : Demoted x.1.core x.2 := by
    apply Reach.invariant (I := fun x : Sys σ × (Slot → Bool) => Demoted x.1.core x.2) ?_ ?_ h
    · intro x hx
      exact Demoted.of_provisioned hx
    · intro x l y hr hi hs hok
      have hr' : Reach (step hal) Provisioned
          (fun s l s' => Legal s l s' ∧ RollbackAtRest s.core l) x.1 := hr.forget fun _ hx => hx.1
      obtain ⟨hstep, hupd⟩ := withHistory_eq_some.mp hs
      have hm := reach_move hlegal hr' hstep hok
      have hnext := hi.move hm (reach_tidy hr') (reach_safe hlegal hr') hok.2
      rw [hupd, touchUpd_eq]
      exact hnext
  have hun := key.touched s ht
  rw [Core.flash, Sys.core_board] at hun
  refine ⟨fun p r hr hbad => hun p r hr hbad.1 hbad.2, ?_⟩
  intro r hr n hmap
  obtain ⟨p, hp⟩ := Boot.mem_metaCandidates.mp hr
  obtain ⟨hn, hv, rfl, h₀, -⟩ := Boot.mappedImage_eq_some.mp hmap
  exact hun p r hp hn ⟨hv, h₀⟩

end

/-! ### Runs -/

/-- A test for `RollbackAtRest` that looks at the session only. -/
def rollbackAtRestCheck : Core → Label → Bool
  | .on o pc, .request _ cmd _ _ =>
    !(Nat.beq cmd.toNat 0xF4 && (o.sess.state == .idle || o.sess.state == .error) &&
      (o.sess.erasing ||
        match pc.job with
        | some (.erase _) => true
        | _ => false))
  | _, _ => true

lemma RollbackAtRest.of_check {c : Core} {l : Label} (h : rollbackAtRestCheck c l = true) :
    RollbackAtRest c l := by
  cases c with
  | off b => trivial
  | on o pc =>
    cases l with
    | request link cmd pl script =>
      rintro rfl ⟨-, cur, p, active, hr⟩ hpump
      have hst : (o.sess.state == .idle || o.sess.state == .error) = true := by
        simpa using hr.state
      rcases hpump with he | ⟨snap, he⟩
      · simp [rollbackAtRestCheck, hst, he] at h
      · simp [rollbackAtRestCheck, hst, he] at h
    | _ => trivial

/-- The sample device with its history. -/
def sampleUntouched : Sys Unit × (Slot → Bool) := (sampleDevice, fun _ => false)

lemma sampleUntouched_provisioned : ProvisionedUntouched sampleUntouched :=
  ⟨sampleDevice_provisioned, rfl⟩

/-- A BEGIN for an image of 84 bytes. -/
def beginPayload : List UInt8 := [84, 0, 0, 0, 0, 0, 0, 0]

/-- BEGIN, a ROLLBACK that is refused because the session is busy, then the first erase step of
slot B is cut. -/
def eraseRun : List Label :=
  [.boot false [], .request .spi 0xF0 beginPayload [], .request .spi 0xF4 [] [], .eraseTick,
    .base .ready, .base (.cut .blank)]

set_option maxRecDepth 20000 in
/-- With slot B half erased, no record names it and vouches for it. -/
theorem touched_unvouched_after_cut :
    ∃ x : Sys Unit × (Slot → Bool),
      Reach (withHistory (step .stub) touchUpd) ProvisionedUntouched
        (fun x l y => Legal x.1 l y.1 ∧ RollbackAtRest x.1.core l) x ∧ x.2 .B = true ∧
      ∀ p r, metaPages x.1.flash p = some r →
        ¬ (r.activeSlot = Slot.B.code ∧ r.valid .B = true ∧ r.imgLen.get .B ≠ 0) := by
  have hinit : Reach (withHistory (step .stub) touchUpd) ProvisionedUntouched
      (fun (x : Sys Unit × (Slot → Bool)) l y => Legal x.1 l y.1 ∧ RollbackAtRest x.1.core l) _ :=
    .start sampleUntouched_provisioned
  obtain ⟨x, hx, hq⟩ := hinit.exists_of_run
    (fun x l y => legalCheck x.1 l y.1 && rollbackAtRestCheck x.1.core l) (fun x => x.2 .B) eraseRun
    (fun x l y h => by
      rw [Bool.and_eq_true] at h
      exact ⟨.of_check h.1, .of_check h.2⟩) (by decide +kernel)
  exact ⟨x, hx, hq, (touched_unvouched_of_reach hx .B hq).1⟩

/-- A failed self-heal leaves the trial record of B on flash.  BEGIN demotes it, a second BEGIN
loses it to a failed write and leaves the erase armed; the ROLLBACK that follows writes it anew,
although its last doubleword is reported as failed, and the pump erases the first page of B. -/
def rollbackRun : List Label :=
  [.boot false [], .request .spi 0xF4 [] [], .boot true [.fault .toerr sampleTrialPage],
    .request .spi 0xF0 beginPayload [],
    .request .spi 0xF0 beginPayload [.ready, .fault .pgerr .blank],
    .request .spi 0xF4 [] [.ready, .ready, .ready, .ready, .ready, .ready,
      .fault .pgerr sampleTrialPage],
    .eraseTick, .base .ready, .base .ready]

/-- Slot B was worked on, and the record on page 1 names it and vouches for it. -/
def vouchedCheck (x : Sys Unit × (Slot → Bool)) : Bool :=
  x.2 .B && (metaPages x.1.flash .rec1).any fun r =>
    Nat.beq r.activeSlot.toNat Slot.B.code.toNat && r.valid .B && !Nat.beq r.imgLen.b.toNat 0

set_option maxRecDepth 20000 in
/-- Without the condition a record can name a slot that is being erased and vouch for it. -/
theorem touched_vouched_after_rollback :
    ∃ x : Sys Unit × (Slot → Bool),
      Reach (withHistory (step .stub) touchUpd) ProvisionedUntouched
        (fun x l y => Legal x.1 l y.1) x ∧ x.2 .B = true ∧
      ∃ p r, metaPages x.1.flash p = some r ∧
        r.activeSlot = Slot.B.code ∧ r.valid .B = true ∧ r.imgLen.get .B ≠ 0 := by
  have hinit : Reach (withHistory (step .stub) touchUpd) ProvisionedUntouched
      (fun (x : Sys Unit × (Slot → Bool)) l y => Legal x.1 l y.1) _ :=
    .start sampleUntouched_provisioned
  obtain ⟨x, hx, hq⟩ := hinit.exists_of_run (fun x l y => legalCheck x.1 l y.1) vouchedCheck
    rollbackRun (fun _ _ _ h => .of_check h) (by decide +kernel)
  simp only [vouchedCheck, Bool.and_eq_true, Option.any_eq_true, Nat.beq_eq,
    UInt8.toNat_inj] at hq
  obtain ⟨ht, r, hr, ⟨hn, hv⟩, hl⟩ := hq
  refine ⟨x, hx, ht, .rec1, r, hr, hn, hv, ?_⟩
  intro h0
  rw [show r.imgLen.b = 0 from h0] at hl
  cases hl

end Gd32Bridge
