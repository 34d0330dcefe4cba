import Gd32Bridge.Part.Deadline
import Gd32Bridge.System.Update

/-!
# An image that hangs is given up

The other end of an update: the image passes VERIFY and COMMIT, and then never gets anywhere.  The
window of its trial runs out, the bootloader learns of the watchdog reset and takes the slot that
was running before, and `ota_boot_init` there drops the record of the failed image.  Nobody has to
step in.
-/

namespace Gd32Bridge

open Transition

variable {σ : Type} (hal : Hal σ)

/-! ### The flags are cleared -/

/-- The bootloader has cleared the flags. -/
def Stage.cleared : Stage → Bool
  | decide _ | arm _ _ | jump _ | start _ | init _ | app _ _ _ | halted (some _) => true
  | _ => false

lemma PartReach.cleared {hal : Hal σ} {p : Part σ} {h : PartHistory} (hr : PartReach hal p h)
    (hst : p.stage.cleared = true) : p.rstsck = 0 := by
  refine PartReach.invariant (I := fun p _ => p.stage.cleared = true → p.rstsck = 0) ?_ ?_ hr hst
  · rintro p h ⟨-, hread, -⟩ hst
    rw [hread] at hst
    cases hst
  · intro p h l q hr inv hm _
    cases hm with
    | read hst | stash hst | parks dog hst hd | reset r dogRuns backup dog hr =>
      intro hst
      cases hst
    | stops hst hup hs | bootCut hst hsys ho | restarts t x debugger hst hcount =>
      intro hst
      cases hst
    | clear hst | latch hst hb =>
      intro _
      rfl
    | decides dog hst hd | jump hst | snapshot hst hb | config u hst hdog | boots hst hsys ho
    | transports ok hst | arms u u' hst hsys hg =>
      intro _
      exact inv (by rw [hst]; rfl)
    | halts t x debugger hst =>
      -- an image was running if the halt knows of a decision
      intro hhalted
      apply inv
      cases hp : p.stage with
      | start dec | init dec | app dec up armed => rfl
      | _ =>
        simp [hp, Stage.launched, Stage.cleared, Stage.running] at hst hhalted
    | runs hst hup hs => exact inv
    | park hst => exact inv
    | gated hfeeds hst hsys hg => exact inv
    | feeds hfeeds hst hsys hg => exact inv
    | clock hdog => exact inv

/-! ### Runs of the part -/

/-- Every request of the device is served. -/
def partServed (p : Part σ) (l : PartLabel) (q : Part σ) : Bool :=
  match l with
  | .device l => served hal p.sys l q.sys
  | _ => true

/-- The step is not a boot. -/
def Label.running : Label → Bool
  | .boot _ _ => false
  | _ => true

lemma step_off {b : Board} {l : Label} (hl : l.running = true) : step hal (.off b) l = none := by
  cases l with
  | boot wdt script => cases hl
  | _ => rfl

/-- What the device does while an image runs, the part does. -/
lemma run_device {p : Part σ} {dec : BootDecision} {armed : Bool} {d d' : Device σ}
    {pc pc' : BasePc} {ls : List Label} (hst : p.stage = .app dec true armed)
    (hsys : p.sys = .on d pc) (hls : ∀ l ∈ ls, l.running = true)
    (h : run (step hal) (served hal) (.on d pc) ls = some (.on d' pc')) :
    run (Part.step hal) (partServed hal) p (ls.map .device) = some { p with sys := .on d' pc' } := by
  induction ls generalizing p d pc with
  | nil =>
    cases h
    rw [← hsys]
    rfl
  | cons l ls ih =>
    obtain ⟨s', hs, hserved, hrest⟩ := run_cons_eq_some h
    cases s' with
    | off b =>
      -- without a boot nothing can follow
      cases ls with
      | nil => cases hrest
      | cons l' ls =>
        obtain ⟨s'', hs', -⟩ := run_cons_eq_some hrest
        rw [step_off hal (hls l' (by simp))] at hs'
        cases hs'
    | on d₁ pc₁ =>
      have hstep : Part.step hal p (.device l) = some { p with sys := .on d₁ pc₁ } := by
        simp only [Part.step, Part.device, hst, Bool.not_true, Bool.and_false, hsys, hs]
        rfl
      refine run_cons hstep ?_ (ih hst rfl (fun l' hl' => hls l' (List.mem_cons_of_mem _ hl')) hrest)
      simp only [partServed, hsys]
      exact hserved

/-- The last thing the device does. -/
lemma run_device_stop {p : Part σ} {dec : BootDecision} {armed : Bool} {d : Device σ} {pc : BasePc}
    {l : Label} {b : Board} (hst : p.stage = .app dec true armed) (hsys : p.sys = .on d pc)
    (h : run (step hal) (served hal) (.on d pc) [l] = some (.off b)) :
    ∃ q, run (Part.step hal) (partServed hal) p [.device l] = some q ∧ q.sys = .off b ∧
      q.rstsck = p.rstsck := by
  obtain ⟨s', hs, hserved, hrest⟩ := run_cons_eq_some h
  cases hrest
  obtain ⟨q, hq, hoff, hflags⟩ : ∃ q, Part.step hal p (.device l) = some q ∧ q.sys = .off b ∧
      q.rstsck = p.rstsck := by
    simp only [Part.step, Part.device, hst, Bool.not_true, Bool.and_false, hsys, hs]
    exact ⟨_, rfl, rfl, rfl⟩
  refine ⟨q, run_cons hq ?_ (run_nil _ _), hoff, hflags⟩
  simp only [partServed, hsys, hoff]
  exact hserved

/-- A reset that the watchdog has nothing to do with. -/
lemma run_reset_soft {p : Part σ} {b : Board} (hsys : p.sys = .off b) (dogRuns : Bool) :
    ∃ q, run (Part.step hal) (partServed hal) p [.reset ⟨.software, false⟩ dogRuns true] = some q ∧
      q.sys = .off b ∧ q.stage = .read ∧ q.rstsck = p.rstsck ||| ResetCause.software.flag := by
  have hdown : p.sys.down = .off b := by rw [hsys]; rfl
  refine ⟨_, run_cons rfl rfl (run_nil _ _), hdown, rfl, ?_⟩
  simp [Reset.latch]

/-- A watchdog that has run out resets the part. -/
lemma run_reset_dog {p : Part σ} {b : Board} (hsys : p.sys = .off b)
    (hdog : p.dog.expired = true) (pin : Bool) :
    ∃ q, run (Part.step hal) (partServed hal) p [.reset ⟨.watchdog, pin⟩ false true] = some q ∧
      q.sys = .off b ∧ q.stage = .read ∧
      q.rstsck = Reset.latch ⟨.watchdog, pin⟩ p.rstsck := by
  have hdown : p.sys.down = .off b := by rw [hsys]; rfl
  obtain ⟨q, hq, hsys', hst, hrst⟩ : ∃ q, p.reset ⟨.watchdog, pin⟩ false true = some q ∧
      q.sys = p.sys.down ∧ q.stage = .read ∧ q.rstsck = Reset.latch ⟨.watchdog, pin⟩ p.rstsck := by
    rw [Part.reset, hdog, if_neg (by simp)]
    exact ⟨_, rfl, rfl, rfl, rfl⟩
  exact ⟨q, run_cons hq rfl (run_nil _ _), hsys'.trans hdown, hst, hrst⟩

/-- The bootloader up to its decision. -/
def decideRun : List PartLabel := [.go, .go, .go, .go]

lemma run_decide {p : Part σ} {b : Board} {dec : BootDecision} (hst : p.stage = .read)
    (hsys : p.sys = .off b)
    (hd : bootDecideSlot b.flash (ResetCause.watchdog.isSet p.rstsck) = some dec) :
    ∃ q, run (Part.step hal) (partServed hal) p decideRun = some q ∧
      q.sys = .off b ∧ q.stage = (if dec.trial then .arm dec false else .jump dec) ∧
      q.rstsck = 0 ∧ q.bkp.bkp8 = p.rstsck := by
  obtain ⟨sys, stage, rstsck, bkp, dog, snapshot⟩ := p
  simp only at hst hsys hd
  subst hst hsys
  obtain ⟨q, hq, hres⟩ : ∃ q, Part.go ⟨.off b, .decide (ResetCause.watchdog.isSet rstsck), 0,
      { bkp with bkp8 := rstsck }, dog, snapshot⟩ = some q ∧ q.sys = .off b ∧
      q.stage = (if dec.trial then .arm dec false else .jump dec) ∧ q.rstsck = 0 ∧
      q.bkp.bkp8 = rstsck := by
    simp only [Part.go, Sys.flash, Sys.board, hd]
    exact ⟨_, rfl, rfl, rfl, rfl, rfl⟩
  exact ⟨q, run_cons rfl rfl (run_cons rfl rfl (run_cons rfl rfl (run_cons hq rfl (run_nil _ _)))),
    hres⟩

/-- The watchdog is armed and the image on trial is started. -/
lemma run_arm {p : Part σ} {dec : BootDecision} (hst : p.stage = .arm dec false) :
    run (Part.step hal) (partServed hal) p [.config .done, .go] =
      some { p with
        dog := ⟨true, .div256, otaTrialFwdgtReload, otaTrialFwdgtReload⟩, stage := .start dec } := by
  obtain ⟨sys, stage, rstsck, bkp, dog, snapshot⟩ := p
  simp only at hst
  subst hst
  rfl

/-- The image makes no progress, but the watchdog counts. -/
lemma run_clock {p : Part σ} (hon : p.dog.started = true) {k : ℕ} (hk : k ≤ p.dog.count) :
    ∃ dog, run (Part.step hal) (partServed hal) p (List.replicate k .clock) =
        some { p with dog := dog } ∧
      dog.started = true ∧ (dog.count : ℕ) = p.dog.count - k := by
  induction k generalizing p with
  | zero => exact ⟨p.dog, rfl, hon, rfl⟩
  | succ k ih =>
    have hne : p.dog.count ≠ 0 := by
      rw [ne_eq, Fin.ext_iff]
      exact Nat.pos_iff_ne_zero.mp ((Nat.succ_pos k).trans_le hk)
    have htick : p.dog.tick = some { p.dog with count := ⟨p.dog.count - 1, by omega⟩ } := by
      simp only [Fwdgt.tick, hon, Bool.true_and, bne_iff_ne, ne_eq, hne, not_false_eq_true, if_true]
    have hstep : Part.step hal p .clock =
        some { p with dog := { p.dog with count := ⟨p.dog.count - 1, by omega⟩ } } := by
      simp only [Part.step, htick, Option.map_some]
    obtain ⟨dog, hrun, hd, hc⟩ :=
      ih (p := { p with dog := { p.dog with count := ⟨p.dog.count - 1, by omega⟩ } }) hon
        (Nat.le_sub_of_add_le hk)
    refine ⟨dog, run_cons hstep rfl hrun, hd, ?_⟩
    rw [hc]
    simp only
    omega

/-- The start of an image that is not on trial, up to its main loop. -/
def startRun : List PartLabel := [.go, .go, .bootInit [], .transports true]

lemma run_start {p : Part σ} {b : Board} {dec : BootDecision} {o : Ota} (hst : p.stage = .jump dec)
    (hsys : p.sys = .off b) (hb : p.bkp.bkp8 ≠ 0)
    (ho : otaBootInit (b.bootBoard []) dec.slot = (o, true)) :
    ∃ q, run (Part.step hal) (partServed hal) p startRun = some q ∧
      q.sys = .on ⟨o, bootConfigLoad b.flash, ⟨0, 0⟩, hal.init⟩ .idle ∧
      q.stage = .app dec true false ∧ q.snapshot = p.bkp.bkp8 := by
  obtain ⟨sys, stage, rstsck, bkp, dog, snapshot⟩ := p
  simp only at hst hsys hb
  subst hst hsys
  have hstart : Part.go ⟨.off b, .start dec, rstsck, bkp, fwdgtCounterReload dog, snapshot⟩ =
      some (⟨.off b, .init dec, rstsck, { bkp with bkp8 := 0 }, fwdgtCounterReload dog,
        bkp.bkp8⟩ : Part σ) := by
    simp only [Part.go, if_pos hb]
  obtain ⟨q, hq, hsys, hst, hsnap⟩ : ∃ q, Part.bootInit hal ⟨.off b, .init dec, rstsck,
      { bkp with bkp8 := 0 }, fwdgtCounterReload dog, bkp.bkp8⟩ [] = some q ∧
      q.sys = .on ⟨o, bootConfigLoad b.flash, ⟨0, 0⟩, hal.init⟩ .idle ∧
      q.stage = .app dec false false ∧ q.snapshot = bkp.bkp8 := by
    simp only [Part.bootInit, ho]
    exact ⟨_, rfl, rfl, rfl, rfl⟩
  have hup : q.transports true =
      some { q with bkp := Part.clearFaults q.bkp true, stage := .app dec true false } := by
    rw [Part.transports, hst]
  exact ⟨_, run_cons rfl rfl (run_cons hstart rfl (run_cons hq rfl
    (run_cons hup rfl (run_nil _ _)))), hsys, rfl, hsnap⟩

/-! ### The boot after the failed trial -/

variable {s : Slot} {n : MetaRecord} {q : MetaPage}

lemma Backed.runRecTrial {f : Flash} (hb : Backed s f q) (hn : metaCurrent f = some (n, q))
    (hnames : n.Names s.other) : runRecTrial f s = false := by
  obtain ⟨r, hr, hrn, -, ht⟩ := hb
  have hfind := findRunningSlotRecord_of_gt hr hrn fun r' hr' hn' => by
    rw [MetaPage.other_other, (metaCurrent_eq_some hn).1] at hr'
    cases hr'
    exact absurd hnames hn'.not_other
  rw [Gd32Bridge.runRecTrial, hfind]
  exact ht

/-- The image that was running before drops the record of the failed one. -/
lemma heal_failed {b : Board} (h : OnTrial s.other b.flash n q) (hb : Backed s b.flash q) :
    ∃ o, otaBootInit (b.bootBoard []) s = (o, true) ∧ o.run = s ∧ o.trial = false ∧
      (∃ q', metaCurrent o.board.flash = some ((selfHealWrite s n).apply n, q')) ∧
      ∀ t, SameSlot b.flash o.board.flash t := by
  have hflag : runRecTrial (b.bootBoard []).flash s = false := hb.runRecTrial h.current h.names
  have hn : metaCurrent (b.bootBoard []).flash = some (n, q) := h.current
  have hact : n.activeSlot ≠ s.code ∧ n.trial = true :=
    ⟨fun hc => MetaRecord.Names.not_other hc h.names, h.trial⟩
  have htrue : (metaCommit (b.bootBoard []) s (selfHealWrite s n)).2 = some true := by
    refine metaCommit_nominal rfl rfl ?_
    rw [metaSeed_of_current hn]
    exact h.counter
  have hw := Wrote.of_success (b.bootBoard []) (b.bootBoard []) rfl rfl htrue
  have hland := Landed.of_metaCommit (b.bootBoard []) (b.bootBoard []) _ _ rfl htrue
  have hcur := hland.current hw.other
  rw [metaSeed_of_current hn] at hcur
  generalize hx : metaCommit (b.bootBoard []) s (selfHealWrite s n) = x at htrue hw hland hcur
  obtain ⟨b', res⟩ := x
  cases htrue
  refine ⟨{ Ota.fresh s b' false with board := b' }, ?_, rfl, rfl, ⟨_, hcur⟩, hw.slots⟩
  simp only [otaBootInit, hflag, Bool.false_eq_true, if_false, hn, if_pos hact, hx]
  rfl

/-! ### The whole fallback -/

lemma prepareRun_running (link : Link) (dual : Bool) (r : Release) (cut : ImageCut r.image)
    (is : List ℕ) : ∀ l ∈ prepareRun link dual r cut is, l.running = true := by
  intro l hl
  simp only [prepareRun, eraseRound, List.mem_append, List.mem_flatten, List.mem_map,
    List.mem_cons, List.mem_replicate, List.not_mem_nil, or_false] at hl
  rcases hl with ((rfl | ⟨ls, ⟨-, rfl⟩, hl⟩) | ⟨i, -, rfl⟩) | rfl
  · rfl
  · simp only [List.mem_append, List.mem_cons, List.mem_replicate, List.not_mem_nil,
      or_false] at hl
    rcases hl with ((rfl | rfl) | ⟨-, rfl⟩) | rfl | rfl <;> rfl
  · rfl
  · rfl

/-- The update up to its COMMIT, the boot on trial of an image that hangs, the whole window of the
watchdog, and the boot after that. -/
def fallbackRun (link : Link) (dual : Bool) (r : Release) (cut : ImageCut r.image) (is : List ℕ)
    (dogRuns pin : Bool) : List PartLabel :=
  (prepareRun link dual r cut is).map .device ++ [.device (.request link 0xF3 [] [])] ++
    [.reset ⟨.software, false⟩ dogRuns true] ++ decideRun ++ [.config .done, .go] ++
    List.replicate otaTrialFwdgtReload.val .clock ++ [.reset ⟨.watchdog, pin⟩ false true] ++
    decideRun ++ startRun

/-- On healthy hardware an update to an image that hangs undoes itself: from every reachable state
of a boot that is not on trial and whose own record is settled, with the main loop between two
ticks, the update is taken as far as its COMMIT, the part is reset when the window of the trial has
passed, and then runs the image it was running before, off trial and untouched, under a settled
record of its own; the host can see that the watchdog was the cause. -/
theorem fallback_of_reach {p : Part σ} {h : PartHistory} (hr : PartReach hal p h)
    {dec : BootDecision} {armed : Bool} {d : Device σ} (hst : p.stage = .app dec true armed)
    (hsys : p.sys = .on d .idle) (hg : d.ota.trial = false)
    (hsettled : runRecTrial d.ota.board.flash d.ota.run = false) {n : MetaRecord} {q : MetaPage}
    (hn : metaCurrent d.ota.board.flash = some (n, q)) (hc : n.counter ≤ otaMetaBeginMaxCounter)
    {r : Release} (hri : r.Installable d.ota.run.other) (hv : otaVersionFloor n ≤ r.version)
    (cut : ImageCut r.image) {is : List ℕ} (his : Delivers cut.count 0 is) (link : Link)
    (dogRuns pin : Bool) :
    ∃ p' dec' d' n' q', run (Part.step hal) (partServed hal) p
        (fallbackRun link d.ota.board.dual r cut is dogRuns pin) = some p' ∧
      p'.stage = .app dec' true false ∧ p'.sys = .on d' .idle ∧ p'.resetReason = 4 ∧
      d'.ota.run = d.ota.run ∧ d'.ota.trial = false ∧
      SameSlot d.ota.board.flash d'.ota.board.flash d.ota.run ∧
      metaCurrent d'.ota.board.flash = some (n', q') ∧ n'.Names d.ota.run ∧ n'.trial = false := by
  have hdev := hr.device
  rw [hsys] at hdev
  -- the update
  obtain ⟨d₁, hprepare, hseal, hslots₁, hkept⟩ := run_prepare hal hdev hg hn hc hri hv cut his link
  have hrun₁ := run_device hal hst hsys (prepareRun_running _ _ _ _ _) hprepare
  obtain ⟨b, m, pg, hcommit, htrial, -, -, hslots₂, hbacked⟩ :=
    run_commit hal link hseal hri (succ_le_beginMax hc)
  have hback := hbacked (hkept hsettled)
  obtain ⟨p₂, hrun₂, hsys₂, hrst₂⟩ :=
    run_device_stop hal (p := { p with sys := .on d₁ .idle }) hst rfl hcommit
  -- the trial
  obtain ⟨p₃, hrun₃, hsys₃, hst₃, hrst₃⟩ := run_reset_soft hal hsys₂ dogRuns
  obtain ⟨x, hx⟩ := htrial.other
  have hvalid := activeSlotValid_iff_slotOk.mpr ⟨_, htrial.names, htrial.ok⟩
  have hcold : ResetCause.watchdog.isSet p₃.rstsck = false := by
    have hzero : p.rstsck = 0 := hr.cleared (by rw [hst]; rfl)
    rw [hrst₃, hrst₂, hzero]
    rfl
  have hdec : bootDecideSlot b.flash (ResetCause.watchdog.isSet p₃.rstsck) =
      some ⟨d.ota.run.other, true, false⟩ := by
    rw [hcold, bootDecideSlot_newest htrial.current hx htrial.names hvalid, htrial.trial]
  obtain ⟨p₄, hrun₄, hsys₄, hst₄, hrst₄, -⟩ := run_decide hal hst₃ hsys₃ hdec
  have hrun₅ := run_arm hal hst₄
  obtain ⟨dog, hrun₆, hon, hcount⟩ := run_clock hal (k := otaTrialFwdgtReload.val)
    (p := { p₄ with
      dog := ⟨true, .div256, otaTrialFwdgtReload, otaTrialFwdgtReload⟩
      stage := .start ⟨d.ota.run.other, true, false⟩ }) rfl le_rfl
  have hexp : dog.expired = true := by
    have hzero : dog.count = 0 := Fin.ext (hcount.trans (Nat.sub_self _))
    simp only [Fwdgt.expired, hon, hzero, beq_self_eq_true, Bool.and_self]
  -- the boot after it
  obtain ⟨p₇, hrun₇, hsys₇, hst₇, hrst₇⟩ := run_reset_dog hal (p := { p₄ with
      dog := dog, stage := .start ⟨d.ota.run.other, true, false⟩ }) hsys₄ hexp pin
  rw [hrst₄] at hrst₇
  have hfired : ResetCause.watchdog.isSet p₇.rstsck = true := by
    rw [hrst₇]
    cases pin <;> rfl
  obtain ⟨r', hr', hrn', hrok', hrt'⟩ := hback
  have hdec' : bootDecideSlot b.flash (ResetCause.watchdog.isSet p₇.rstsck) =
      some ⟨d.ota.run, false, false⟩ := by
    rw [hfired]
    exact bootDecideSlot_fallback htrial.current hr' htrial.trial hrn'
      (activeSlotValid_iff_slotOk.mpr ⟨_, hrn', hrok'⟩) hrt'
  obtain ⟨p₈, hrun₈, hsys₈, hst₈, -, hb₈⟩ := run_decide hal hst₇ hsys₇ hdec'
  obtain ⟨o, hinit, hrun, hgate, ⟨q', hcur⟩, hslots₃⟩ := heal_failed htrial ⟨r', hr', hrn', hrok', hrt'⟩
  have hne : p₈.bkp.bkp8 ≠ 0 := by
    rw [hb₈, hrst₇]
    cases pin <;> decide
  obtain ⟨p', hrun₉, hsys', hst', hsnap⟩ := run_start hal hst₈ hsys₈ hne hinit
  refine ⟨p', _, _, _, q', run_trans (run_trans (run_trans (run_trans (run_trans (run_trans
    (run_trans (run_trans hrun₁ hrun₂) hrun₃) hrun₄) hrun₅) hrun₆) hrun₇) hrun₈) hrun₉,
    hst', hsys', ?_, hrun, hgate, hslots₁.trans ((hslots₂ _).trans (hslots₃ _)), hcur, ?_, ?_⟩
  · rw [Part.resetReason, hsnap, hb₈, hrst₇]
    cases pin <;> rfl
  · rw [MetaRecord.Names, MetaWrite.apply_activeSlot]
    rfl
  · simp [MetaRecord.trial, selfHealWrite]

/-- The sample device in its main loop, as an update finds it. -/
def fallbackStart : Part Unit × PartHistory → Bool
  | (p, _) =>
    (match p.stage with
    | .app _ up _ => up
    | _ => false) &&
      updatableCheck p.sys && !runRecTrial p.sys.flash .A

set_option maxRecDepth 20000 in
/-- The sample device is sent the sample release, which hangs, and is back in slot A in the end. -/
theorem fallback_sample : ∃ p p' d', (∃ h, PartReach (.stub : Hal Unit) p h) ∧
    run (Part.step .stub) (partServed .stub) p
      (fallbackRun .spi p.sys.board.dual sampleRelease sampleCut [0, 0, 1] false true) = some p' ∧
      p'.sys = .on d' .idle ∧ d'.ota.run = .A ∧ d'.ota.trial = false ∧ p'.resetReason = 4 := by
  obtain ⟨p, h, hr, hq⟩ := exists_partReach_of_sample fallbackStart bootRun (by decide +kernel)
  simp only [fallbackStart, Bool.and_eq_true, Bool.not_eq_true'] at hq
  obtain ⟨⟨hst, hup⟩, hset⟩ := hq
  split at hst
  · next dec up armed hs =>
    subst hst
    obtain ⟨d, hsys, hg, hrun, n, q, hn, hcnt, hfloor⟩ := updatable_of_check hup
    rw [hsys] at hset
    have hinst : sampleRelease.Installable d.ota.run.other := by
      rw [hrun]
      exact sampleRelease_installable
    have hdel : Delivers sampleCut.count 0 [0, 0, 1] :=
      .first (by decide) (.replay (by decide) (.first (by decide) .nil))
    obtain ⟨p', dec', d', n', q', hfall, -, hsys', hreason, hrun', hg', -⟩ :=
      fallback_of_reach .stub hr hs hsys hg (by rw [hrun]; exact hset) hn hcnt hinst hfloor
        sampleCut hdel .spi false true
    rw [show d.ota.board.dual = p.sys.board.dual by rw [hsys]; rfl] at hfall
    exact ⟨p, p', d', ⟨h, hr⟩, hfall, hsys', hrun'.trans hrun, hg', hreason⟩
  · cases hst

end Gd32Bridge
