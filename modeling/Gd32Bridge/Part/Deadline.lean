import Gd32Bridge.Part.Causes
import Gd32Bridge.System.Safe

/-!
# A trial has a deadline

The bootloader arms the watchdog before it jumps to a slot on trial, and the application finds the
same flag in the flash and keeps its own hands off the watchdog for as long as the boot lasts.  So
an image on trial has at most the one window to confirm itself, whatever it does with it: hang,
sleep, serve requests, or end up in a fault handler.
-/

namespace Gd32Bridge

open Transition

variable {σ : Type} {hal : Hal σ}

/-! ### The device inside the part -/

/-- The bootloader's decision and `ota_boot_init` make up one boot of the device. -/
lemma step_boot (hal : Hal σ) {b : Board} {wdt : Bool} (script : List PhysResult)
    {dec : BootDecision} (hd : bootDecideSlot b.flash wdt = some dec) :
    step hal (.off b) (.boot wdt script) =
      match otaBootInit (b.bootBoard script) dec.slot with
      | (o, true) => some (.on ⟨o, bootConfigLoad b.flash, ⟨0, 0⟩, hal.init⟩ .idle)
      | (o, false) => some (.off o.board) := by
  have hd' : bootDecideSlot (b.bootBoard script).flash wdt = some dec := hd
  simp only [step, bootUp, hd']
  rfl

lemma FlagsInv.decided {p : Part σ} {h : PartHistory} {dec : BootDecision} {b : Board}
    (inv : FlagsInv p h) (hst : p.stage = .init dec) (hsys : p.sys = .off b) :
    bootDecideSlot b.flash (decide (DogFired h.told)) = some dec := by
  have hk := inv.knows
  rw [hst] at hk
  obtain ⟨-, -, hd⟩ := hk
  rw [Decided, hsys] at hd
  exact hd

/-- What the device does in a run of the part is a run of the device. -/
lemma PartReach.device {p : Part σ} {h : PartHistory} (hr : PartReach hal p h) :
    Reach (step hal) Provisioned Legal p.sys := by
  refine PartReach.invariant (I := fun p _ => Reach (step hal) Provisioned Legal p.sys)
    (fun p h hi => .start hi.1) ?_ hr
  intro p h l q hr hi hm hok
  have hdown : PartLegal p l { p with sys := p.sys.down } →
      Reach (step hal) Provisioned Legal p.sys.down := by
    intro hok
    cases hs : p.sys with
    | off b =>
      rw [hs] at hi
      exact hi
    | on d pc =>
      have hok : ∀ pg, TornPage p.sys.board p.sys.down.board pg := hok
      rw [hs] at hi hok
      exact .next .powerOff hi rfl hok
  cases hm with
  | runs hst hup hs => exact .next _ hi hs hok
  | stops hst hup hs => exact .next _ hi hs hok
  | @boots dec b script o hst hsys ho =>
    have hs := step_boot hal script (hr.flags.decided hst hsys)
    rw [ho] at hs
    have hok : ∀ pg, TornPage p.sys.board o.board pg := hok
    rw [hsys] at hi hok
    exact .next _ hi hs hok
  | @bootCut dec b script o hst hsys ho =>
    have hs := step_boot hal script (hr.flags.decided hst hsys)
    rw [ho] at hs
    have hok : ∀ pg, TornPage p.sys.board o.board pg := hok
    rw [hsys] at hi hok
    exact .next _ hi hs hok
  | restarts t x debugger hst hcount => exact hdown hok
  | reset r dogRuns backup dog hr => exact hdown hok
  | _ => exact hi

/-! ### The gate -/

/-- The application finds the flag the bootloader has decided on. -/
lemma runRecTrial_of_decided {f : Flash} {wdt : Bool} {dec : BootDecision} (h : Sound f)
    (hd : bootDecideSlot f wdt = some dec) (ht : dec.trial = true) :
    runRecTrial f dec.slot = true := by
  obtain ⟨p, r, hr, hvalid, hslot, htr⟩ := bootDecideSlot_eq_some hd
  have hnames : r.Names dec.slot := hslot
  obtain ⟨r', p', hfind⟩ := exists_findRunningSlotRecord hr hnames
  obtain ⟨hr', hnames', -⟩ := findRunningSlotRecord_eq_some hfind
  simp only [runRecTrial, hfind]
  rcases MetaPage.eq_or_eq_other p p' with rfl | rfl
  · rw [hr] at hr'
    cases hr'
    rw [← htr, ht]
  · -- both records name the slot, so the newest is the one that is found and the one that is booted
    obtain ⟨n, q, hn⟩ := exists_metaCurrent hr
    have hboth : ∀ pg, ∃ x, metaPages f pg = some x ∧ x.Names dec.slot := by
      intro pg
      rcases MetaPage.eq_or_eq_other pg p' with rfl | rfl
      · exact ⟨r', hr', hnames'⟩
      · exact ⟨r, hr, hnames⟩
    obtain ⟨x, hx, -⟩ := hboth q.other
    have hnn : n.Names dec.slot := by
      obtain ⟨y, hy, hyn⟩ := hboth q
      rw [(metaCurrent_eq_some hn).1] at hy
      cases hy
      exact hyn
    have hv : Boot.activeSlotValid f n = true := by
      obtain ⟨s, hs, hok⟩ := activeSlotValid_iff_slotOk.mp hvalid
      exact activeSlotValid_iff_slotOk.mpr ⟨s, hs.unique hnames ▸ hnn, h _ r s hr hs hok n q hn⟩
    rw [findRunningSlotRecord_of_current hn hnn] at hfind
    cases hfind
    cases wdt with
    | false =>
      rw [bootDecideSlot_newest hn hx hnn hv] at hd
      exact (congrArg BootDecision.trial (Option.some.inj hd)).trans ht
    | true =>
      by_contra hc
      rw [bootDecideSlot_confirmed hn hx hnn hv (Bool.eq_false_iff.mpr hc)] at hd
      have hfalse := (congrArg BootDecision.trial (Option.some.inj hd)).trans ht
      cases hfalse

lemma otaBootInit_trial (b : Board) (run : Slot) :
    (otaBootInit b run).1.trial = runRecTrial b.flash run := by
  simp only [otaBootInit]
  split
  · rfl
  · split
    · rfl
    · split
      · split <;> rfl
      · rfl

/-- A boot on trial keeps the gate of the application up. -/
def Gated (p : Part σ) (dec : BootDecision) : Prop :=
  dec.trial = true → ∀ d pc, p.sys = .on d pc → d.ota.trial = true

/-- The gate is up in every boot on trial. -/
lemma PartReach.gated {p : Part σ} {h : PartHistory} (hr : PartReach hal p h) {dec : BootDecision}
    (hst : p.stage.launched = some dec) : Gated p dec := by
  refine PartReach.invariant (I := fun p _ => ∀ dec, p.stage.launched = some dec → Gated p dec)
    ?_ ?_ hr dec hst
  · rintro p h ⟨-, hread, -⟩ dec hst
    rw [hread] at hst
    cases hst
  · intro p h l q hr inv hm hok
    have hsafe := reach_safe (fun _ _ _ h => h) hr.device
    cases hm with
    | @runs dec up armed l d pc hst hup hs =>
      intro dec' hst' ht d' pc' hd'
      cases hd'
      have hmove := reach_move (fun _ _ _ h => h) hr.device hs hok
      have hk := hr.flags.knows
      rw [hst] at hk
      have hon : ¬ p.sys.IsOff := hk.1
      cases hsys : p.sys with
      | off b =>
        rw [hsys] at hon
        exact absurd trivial hon
      | on d₀ pc₀ =>
        rw [hsys] at hmove
        have hfol := hmove.follows
        exact hfol.2.trans (inv dec' hst' ht d₀ pc₀ hsys)
    | @boots dec b script o hst hsys ho =>
      intro dec' hst' ht d' pc' hd'
      cases hst'
      cases hd'
      rw [hsys] at hsafe
      have htrial := otaBootInit_trial (b.bootBoard script) dec.slot
      rw [ho] at htrial
      have hd := hr.flags.decided hst hsys
      exact htrial.trans (runRecTrial_of_decided hsafe.sound hd ht)
    | snapshot hst hb =>
      intro dec' hst' ht
      cases hst'
      exact inv _ (by rw [hst]; rfl) ht
    | latch hst hb =>
      intro dec' hst' ht
      cases hst'
      exact inv _ (by rw [hst]; rfl) ht
    | jump hst =>
      -- the device is still off
      intro dec' hst' ht d pc hd
      have hk := hr.flags.knows
      rw [hst] at hk
      simp only at hd
      have hoff : p.sys.IsOff := hk.1
      rw [hd] at hoff
      cases hoff
    | transports ok hst =>
      intro dec' hst' ht
      cases hst'
      exact inv _ (by rw [hst]; rfl) ht
    | arms u u' hst hsys hg =>
      intro dec' hst' ht
      cases hst'
      exact inv _ (by rw [hst]; rfl) ht
    | halts t x debugger hst => exact inv
    | decides dog hst hd =>
      intro dec' hst'
      simp only at hst'
      split_ifs at hst' <;> cases hst'
    | config u hst hdog =>
      intro dec' hst'
      simp only at hst'
      split_ifs at hst' <;> cases hst'
    | gated hfeeds hst hsys hg => exact inv
    | feeds hfeeds hst hsys hg => exact inv
    | clock hdog => exact inv
    | park hst => exact inv
    | _ =>
      intro dec' hst'
      cases hst'

/-! ### The window -/

def PartHistory.elapsedAfter (h : PartHistory) (p : Part σ) : PartLabel → ℕ
  | .go => (h.go p.stage).elapsed
  | .clock => h.elapsed + p.dog.psc.periods
  | _ => h.elapsed

lemma partUpd_elapsed (h : PartHistory) (p q : Part σ) (l : PartLabel) :
    (partUpd h p l q).elapsed = h.elapsedAfter p l := by
  simp only [partUpd]
  split_ifs <;> cases l <;> rfl

/-- The watchdog is running before the jump to a slot on trial, and what it has left is within the
window ever after. -/
structure DogInv (p : Part σ) (h : PartHistory) : Prop where
  armed : ∀ dec, p.stage = .arm dec true → p.dog.started = true
  ready : ∀ dec, p.stage = .jump dec → dec.trial = true → p.dog.started = true
  window : ∀ dec, p.stage.launched = some dec → dec.trial = true →
    p.dog.started = true ∧ h.elapsed + p.dog.left ≤ fwdgtLongest

namespace DogInv

variable {p q : Part σ} {h h' : PartHistory} {l : PartLabel}

/-- Nothing to show before the decision. -/
lemma of_early (ha : ∀ dec, q.stage ≠ .arm dec true) (hj : ∀ dec, q.stage ≠ .jump dec)
    (hl : q.stage.launched = none) : DogInv q h' where
  armed dec hst := absurd hst (ha dec)
  ready dec hst := absurd hst (hj dec)
  window dec hst := by
    rw [hl] at hst
    cases hst

/-- The watchdog is left alone. -/
lemma keep (inv : DogInv p h) (hdog : q.dog = p.dog) (he : h'.elapsed = h.elapsed)
    (hst : q.stage.launched = p.stage.launched) (ha : ∀ dec, q.stage ≠ .arm dec true)
    (hj : ∀ dec, q.stage ≠ .jump dec) : DogInv q h' where
  armed dec hst := absurd hst (ha dec)
  ready dec hst := absurd hst (hj dec)
  window dec hl ht := by
    rw [hdog, he]
    exact inv.window dec (hst ▸ hl) ht

/-- Every move keeps the invariant: the application feeds only in a boot off trial. -/
lemma move (inv : DogInv p h) (hg : ∀ dec, p.stage.launched = some dec → Gated p dec)
    (hm : PartMove hal p l q) (he : h'.elapsed = h.elapsedAfter p l) : DogInv q h' := by
  cases hm with
  | runs hst hup hs => exact inv.keep rfl he rfl (by simp [hst]) (by simp [hst])
  | jump hst =>
    rw [PartHistory.elapsedAfter, hst] at he
    have he : h'.elapsed = 0 := he
    refine ⟨by simp, by simp, fun dec hst' ht => ?_⟩
    cases hst'
    refine ⟨inv.ready _ hst ht, ?_⟩
    rw [he, Nat.zero_add]
    exact Fwdgt.left_le _
  | decides dog hst hd =>
    refine ⟨fun dec hst' => ?_, fun dec hst' ht => ?_, fun dec hst' => ?_⟩
    · simp only at hst'
      split_ifs at hst'
      cases hst'
    · simp only at hst'
      split_ifs at hst' with hd
      cases hst'
      exact absurd ht hd
    · simp only at hst'
      split_ifs at hst' <;> cases hst'
  | @config dec again u dog ok hst hdog =>
    have hon : dog.started = true := by
      have hon := fwdgtConfig_started p.dog otaTrialFwdgtReload .div256 u
      rwa [hdog] at hon
    refine ⟨fun _ _ => hon, fun _ _ _ => hon, fun dec hst' => ?_⟩
    simp only at hst'
    split_ifs at hst' <;> cases hst'
  | snapshot hst hb =>
    rw [PartHistory.elapsedAfter, hst] at he
    exact inv.keep rfl he (by rw [hst]; rfl) (by simp) (by simp)
  | latch hst hb =>
    rw [PartHistory.elapsedAfter, hst] at he
    exact inv.keep rfl he (by rw [hst]; rfl) (by simp) (by simp)
  | boots hst hsys ho => exact inv.keep rfl he (by rw [hst]; rfl) (by simp) (by simp)
  | transports ok hst => exact inv.keep rfl he (by rw [hst]; rfl) (by simp) (by simp)
  | halts t x debugger hst => exact inv.keep rfl he rfl (by simp) (by simp)
  | gated hfeeds hst hsys hg =>
    cases l with
    | feed u u' => exact inv.keep rfl he rfl (by simp [hst]) (by simp [hst])
    | settle => exact inv.keep rfl he rfl (by simp [hst]) (by simp [hst])
    | _ => cases hfeeds
  | arms u u' hst hsys hoff =>
    refine ⟨by simp, by simp, fun dec hst' ht => ?_⟩
    have hon := hg dec (by rw [hst]; exact hst') ht _ _ hsys
    rw [hoff] at hon
    cases hon
  | feeds hfeeds hst hsys hoff =>
    refine ⟨by simp [hst], by simp [hst], fun dec hst' ht => ?_⟩
    have hon := hg dec hst' ht _ _ hsys
    rw [hoff] at hon
    cases hon
  | park hst => exact .of_early (by simp [hst]) (by simp [hst]) (by simp [hst, Stage.launched])
  | clock hdog =>
    obtain ⟨hon, -, hleft⟩ := Fwdgt.left_of_tick hdog
    refine ⟨fun _ _ => hon, fun _ _ _ => hon, fun dec hst ht => ⟨hon, ?_⟩⟩
    have hwin := (inv.window dec hst ht).2
    have he : h'.elapsed = h.elapsed + p.dog.psc.periods := he
    rw [he]
    simp only
    omega
  | _ => exact .of_early (by simp) (by simp) rfl

end DogInv

/-- In every run, as long as an image is running that the bootloader has put on trial, the watchdog
is running too, with what it has counted since the jump and what it has left within the longest
window: the part is reset before that has passed, whatever the image does.  The gate of the
application is up all the while; and if the bootloader had been told of a watchdog reset, the boot
was the last resort. -/
theorem trial_deadline_of_reach {p : Part σ} {h : PartHistory} (hr : PartReach hal p h)
    {dec : BootDecision} (hst : p.stage.launched = some dec) (ht : dec.trial = true) :
    p.dog.started = true ∧ h.elapsed + p.dog.left ≤ fwdgtLongest ∧
      (∀ d pc, p.sys = .on d pc → d.ota.trial = true) ∧ (DogFired h.told → dec.lastResort = true) := by
  have inv : DogInv p h := by
    refine PartReach.invariant ?_ ?_ hr
    · rintro p h ⟨-, hread, -⟩
      simp only at hread
      exact .of_early (by simp [hread]) (by simp [hread]) (by simp [hread, Stage.launched])
    · intro p h l q hr inv hm _
      exact inv.move (fun _ => hr.gated) hm (partUpd_elapsed h p q l)
  obtain ⟨hon, hwin⟩ := inv.window dec hst ht
  exact ⟨hon, hwin, hr.gated hst ht, hr.flags.knows.warned hst ht⟩

/-- The device rolls back to slot B, whose image starts on trial, counts once, and gets into its
main loop, where the watchdog line leaves the watchdog alone. -/
def trialWindow : List PartLabel :=
  bootRun ++ [.device (.request .spi 0xF4 [] []), .reset ⟨.software, false⟩ false true] ++
    [.go, .go, .go, .go, .config .done, .go, .clock, .go, .bootInit [], .transports true,
      .feed .done .done]

def trialWindowEnds : Part Unit × PartHistory → Bool
  | (p, h) => Nat.beq h.elapsed 256 && Nat.beq p.dog.left (4094 * 256) &&
      match p.stage with
      | .app dec _ _ => dec.trial
      | _ => false

set_option maxRecDepth 20000 in
theorem trial_deadline_rollback : ∃ p h, PartReach (.stub : Hal Unit) p h ∧
    p.dog.started = true ∧ h.elapsed = 256 ∧ p.dog.left = 4094 * 256 ∧
      ∀ d pc, p.sys = .on d pc → d.ota.trial = true := by
  obtain ⟨p, h, hr, hq⟩ := exists_partReach_of_sample trialWindowEnds trialWindow (by decide +kernel)
  simp only [trialWindowEnds, Bool.and_eq_true, Nat.beq_eq] at hq
  obtain ⟨⟨helapsed, hleft⟩, hst⟩ := hq
  split at hst
  · next dec up armed hs =>
    have hlaunched : p.stage.launched = some dec := by rw [hs]; rfl
    obtain ⟨hon, -, hgate, -⟩ := trial_deadline_of_reach hr hlaunched hst
    exact ⟨p, h, hr, hon, helapsed, hleft, hgate⟩
  · cases hst

end Gd32Bridge
