import Gd32Bridge.System.Runs

/-!
# The device can always boot

A boot that is not on trial leaves the record of its own slot alone, so something can be booted
whatever happens.  The confirm tick is the exception: it erases the very page that names the
running slot, and is safe only while the other page could be booted instead.
-/

namespace Gd32Bridge

open Memory Transition

/-- Some readable record names a slot that validates. -/
def Bootable (f : Flash) : Prop :=
  ∃ p r, metaPages f p = some r ∧ Boot.activeSlotValid f r = true

lemma Anchored.bootable {f : Flash} {run : Slot} (h : Anchored f run) : Bootable f := by
  obtain ⟨r, p, hr, hok⟩ := h.found
  obtain ⟨hp, hn, -⟩ := findRunningSlotRecord_eq_some hr
  exact ⟨p, r, hp, activeSlotValid_iff_slotOk.mpr ⟨run, hn, hok⟩⟩

lemma Bootable.of_same {f f' : Flash} {p : MetaPage} {r : MetaRecord} (hr : metaPages f' p = some r)
    (hs : ∀ s, SameSlot f f' s) (hv : Boot.activeSlotValid f r = true) : Bootable f' := by
  obtain ⟨s, hn, hok⟩ := activeSlotValid_iff_slotOk.mp hv
  exact ⟨p, r, hr, activeSlotValid_iff_slotOk.mpr ⟨s, hn, hok.of_same (hs s)⟩⟩

lemma Bootable.congr {f f' : Flash} (h : Bootable f) (hp : ∀ p, metaPages f' p = metaPages f p)
    (hs : ∀ s, SameSlot f f' s) : Bootable f' := by
  obtain ⟨p, r, hr, hv⟩ := h
  exact .of_same ((hp p).trans hr) hs hv

/-- A confirm tick that writes has a bootable record on the page it does not write. -/
def ConfirmBacked : Core → Label → Prop
  | .on o _, .confirmTick _ =>
    o.trial = true → o.frameSeen = true →
      ∀ r p, findRunningSlotRecord o.board.flash o.run = some (r, p) →
        ∃ r', metaPages o.board.flash p.other = some r' ∧
          Boot.activeSlotValid o.board.flash r' = true
  | _, _ => True

/-- Moves keep the device bootable as long as the confirm tick is backed. -/
lemma Bootable.move {c c' : Core} {l : Label} (hm : Move c l c') (ht : c.Ordered) (hs : c.Safe)
    (hc : ConfirmBacked c l) (h : Bootable c.flash) : Bootable c'.flash := by
  cases c with
  | off b =>
    obtain ⟨run, ha, -⟩ := Anchored.move_off hm hs
    exact ha.bootable
  | on o pc =>
    cases hg : o.trial with
    | false =>
      obtain ⟨ha, hq⟩ := hs.2 hg
      exact (Anchored.move hm ht hg ha hq).1.bootable
    | true =>
      rcases hm.of_gated hg with hst | ⟨script, r, p, rfl, rfl, hf, hr, hw⟩
      · exact h.congr hst.pages hst.slots
      · obtain ⟨r', hr', hv⟩ := hc hg hf r p hr
        exact .of_same (hw.other.trans hr') hw.slots hv

section

variable {σ : Type} {hal : Hal σ}

lemma Provisioned.bootable {s : Sys σ} (h : Provisioned s) : Bootable s.flash := by
  cases s with
  | off b =>
    obtain ⟨p, r, hr, -, -, hv⟩ := h
    exact ⟨p, r, hr, hv⟩
  | on d pc => cases h

/-- In every run from a provisioned flash in which each confirm write is backed by a bootable
record on the other page, `boot_decide_slot` finds a slot in every state that is reached,
whatever flash operations failed or were cut. -/
theorem bootDecideSlot_isSome_of_reach {s : Sys σ}
    (h : Reach (step hal) Provisioned (fun s l s' => Legal s l s' ∧ ConfirmBacked s.core l) s)
    (wdtFired : Bool) : (bootDecideSlot s.flash wdtFired).isSome := by
  have hlegal : AtLeastLegal (fun (s : Sys σ) l s' => Legal s l s' ∧ ConfirmBacked s.core l) :=
    fun _ _ _ h => h.1
  have key : Bootable s.core.flash := by
    apply Reach.invariant (I := fun s : Sys σ => Bootable s.core.flash) ?_ ?_ h
    · intro s hp
      rw [Core.flash, Sys.core_board]
      exact hp.bootable
    · intro s l s' hr hb hs hok
      have hm := reach_move hlegal hr hs hok
      exact Bootable.move hm (reach_tidy hr) (reach_safe hlegal hr) hok.2 hb
  rw [Core.flash, Sys.core_board] at key
  exact bootDecideSlot_isSome_iff.mpr key

end

/-! ### Runs -/

/-- `ConfirmBacked` as a test. -/
def confirmBackedCheck : Core → Label → Bool
  | .on o _, .confirmTick _ =>
    match findRunningSlotRecord o.board.flash o.run with
    | none => true
    | some (_, p) => (metaPages o.board.flash p.other).any (Boot.activeSlotValid o.board.flash)
  | _, _ => true

lemma ConfirmBacked.of_check {c : Core} {l : Label} (h : confirmBackedCheck c l = true) :
    ConfirmBacked c l := by
  cases c with
  | off b => trivial
  | on o pc =>
    cases l with
    | confirmTick script =>
      intro _ _ r p hr
      simp only [confirmBackedCheck, hr, Option.any_eq_true] at h
      exact h
    | _ => trivial

/-- The device rolls back to slot B, whose image confirms itself. -/
def confirmRun : List Label :=
  [.boot false [], .request .spi 0xF4 [] [], .boot false [], .request .spi 0x00 [] [],
    .confirmTick []]

set_option maxRecDepth 20000 in
/-- After an undisturbed trial and confirm there is something to boot. -/
theorem bootDecideSlot_isSome_after_confirm :
    ∃ s : Sys Unit,
      Reach (step .stub) Provisioned (fun s l s' => Legal s l s' ∧ ConfirmBacked s.core l) s ∧
        (metaCurrent s.flash).any (fun n => n.1.activeSlot == 1 && !n.1.trial) = true ∧
        (bootDecideSlot s.flash true).isSome := by
  obtain ⟨s, hs, hq⟩ := exists_reach_of_sample
    (fun s l s' => Legal s l s' ∧ ConfirmBacked s.core l)
    (fun s l s' => legalCheck s l s' && confirmBackedCheck s.core l)
    (fun s => (metaCurrent s.flash).any fun n => n.1.activeSlot == 1 && !n.1.trial) confirmRun
    (fun s l s' h => by
      rw [Bool.and_eq_true] at h
      exact ⟨.of_check h.1, .of_check h.2⟩) (by decide +kernel)
  exact ⟨s, hs, hq, bootDecideSlot_isSome_of_reach hs true⟩

/-- The self-heal after a failed trial of B fails, so a second ROLLBACK names A itself, on trial;
the first confirm write fails between erase and program, which leaves only the confirmed record
of A, and the second one is cut after it has erased that. -/
def brickRun : List Label :=
  [.boot false [], .request .spi 0xF4 [] [],
    .boot true [.fault .toerr sampleTrialPage],
    .request .spi 0xF4 [] [], .boot false [], .request .spi 0x00 [] [],
    .confirmTick [.ready, .fault .pgerr .blank], .confirmTick [.cut .blank]]

set_option maxRecDepth 20000 in
/-- A power cut in an unbacked confirm write leaves nothing to boot. -/
theorem bootDecideSlot_none_of_cut_confirm :
    ∃ s : Sys Unit, Reach (step .stub) Provisioned Legal s ∧ bootDecideSlot s.flash false = none := by
  obtain ⟨s, hs, hq⟩ := exists_reach_of_sample Legal legalCheck
    (fun s => (bootDecideSlot s.flash false).isNone) brickRun (fun _ _ _ h => .of_check h)
    (by decide +kernel)
  exact ⟨s, hs, by simpa using hq⟩

end Gd32Bridge
