import Gd32Bridge.System.Runs

/-!
# The erase walk on healthy hardware

From an accepted BEGIN, the erase pump of a single-bank part reaches READY in 108 rounds, each
of five base-level steps, with the slot that is not running erased and nothing else changed.
-/

namespace Gd32Bridge

open Memory Transition

section

variable {σ : Type} {hal : Hal σ} {d : Device σ}

/-- What a round of the pump leaves. -/
def regionDone (d : Device σ) : Device σ :=
  { d with ota := { d.ota with
      board := { d.ota.board with
        flash := overlay d.ota.board.flash d.ota.sess.eraseAt.toNat 2048 fun _ => .erased
        owned := false
        script := [.ready]
        log := [] }
      sess := otaErasePublish d.ota.sess
        ⟨d.ota.sess.eraseEpoch, d.ota.sess.eraseAt, d.ota.sess.eraseEnd⟩ .ok } }

/-- The single operation of a region in single-bank mode. -/
lemma erase_work_single (at_ : UInt32) :
    (FmcCall.erase at_ otaPageSize).work false = [eraseOnePage false at_] := by
  have h1 : otaPageSize.toNat / (fmcPageSize false).toNat = 1 := rfl
  simp [FmcCall.work, h1]

/-- The page erase on healthy hardware. -/
lemma exec_erase_single {b : Board} {run : Slot} {at_ end_ : UInt32} (hat : WalkAt run at_ end_)
    (hd : b.dual = false) (hs : b.script = [.ready]) :
    b.exec run (eraseOnePage false at_) =
      ({ b with
        flash := overlay b.flash at_.toNat 2048 fun _ => .erased
        script := []
        log := .op run (eraseOnePage false at_) :: b.log }, .ready) := by
  have hlo : (eraseOnePage false at_).lo false = at_.toNat :=
    eraseOnePage_lo hat.inFlash.1 hat.inFlash.2.2.1
  have hsize := eraseOnePage_size false at_
  have hp : (eraseOnePage false at_).possible b.flash = true := rfl
  have hc : (eraseOnePage false at_).content = fun _ => .erased := rfl
  simp only [Board.exec, hs, List.headD_cons, List.tail_cons, hp, if_true, hd, hlo, hsize, hc]
  rfl

variable {init : Sys σ → Prop}

/-- A step that leaves the record pages alone is legal. -/
lemma reach_next {s s' : Sys σ} {l : Label} (h : Reach (step hal) init Legal s)
    (hs : step hal s l = some s') (hp : ∀ p, metaPages s'.flash p = metaPages s.flash p) :
    Reach (step hal) init Legal s' :=
  .next l h hs fun p => .inl (hp p)

/-- One round: the tick, the claim, the page erase, the release, the publication. -/
lemma reach_region (h : Reach (step hal) init Legal (.on d .idle))
    (he : d.ota.sess.erasing = true) (hat : WalkAt d.ota.run d.ota.sess.eraseAt d.ota.sess.eraseEnd)
    (hd : d.ota.board.dual = false) (ho : d.ota.board.owned = false) :
    Reach (step hal) init Legal (.on (regionDone d) .idle) := by
  let j := Job.erase ⟨d.ota.sess.eraseEpoch, d.ota.sess.eraseAt, d.ota.sess.eraseEnd⟩
  let op := eraseOnePage false d.ota.sess.eraseAt
  let claimed := (d.ota.board.prepare [.ready]).claim d.ota.run j.call
  let erased := { d.ota.board with
    flash := overlay d.ota.board.flash d.ota.sess.eraseAt.toNat 2048 fun _ => .erased
    owned := true, script := [], log := [.op d.ota.run op] }
  have hpages : ∀ p, metaPages erased.flash p = metaPages d.ota.board.flash p := fun p =>
    metaPages_congr ((overlay_unchanged _ _ _ _).mono hat.span_subset)
      (p.region_disjoint_slot d.ota.run.other)
  have h₁ : Reach (step hal) init Legal (.on (d.prepare []) (.call j)) := by
    refine reach_next (l := .eraseTick) h ?_ fun _ => rfl
    simp only [step, otaEraseSnapshot, he, if_true, j]
  have h₂ : Reach (step hal) init Legal (.on (d.withBoard claimed) (.walk j op [])) := by
    refine reach_next (l := .base .ready) h₁ ?_ fun _ => rfl
    have hadm : j.call.admits d.ota.run = true := hat.admits
    have hwork : j.call.work d.ota.board.dual = [op] := by
      rw [hd]
      exact erase_work_single _
    simp only [step, baseStep, baseEnter, Device.prepare, Board.prepare, hadm, ho, hwork,
      Bool.not_true, Bool.false_eq_true, if_false]
    rfl
  have h₃ : Reach (step hal) init Legal (.on (d.withBoard erased) (.ended j .ok)) := by
    refine reach_next (l := .base .ready) h₂ ?_ hpages
    have hx := exec_erase_single (b := claimed.prepare [.ready]) hat hd rfl
    simp only [step, baseStep, baseOp]
    rw [show ((d.withBoard claimed).prepare [.ready]).ota.board = claimed.prepare [.ready] from rfl,
      show ((d.withBoard claimed).prepare [.ready]).ota.run = d.ota.run from rfl, hx]
    rfl
  have h₄ : Reach (step hal) init Legal
      (.on (d.withBoard (erased.prepare [.ready]).release) (.returned j .ok)) :=
    reach_next (l := .base .ready) h₃ rfl fun _ => rfl
  exact reach_next (l := .base .ready) h₄ rfl fun _ => rfl

/-! ### The whole walk -/

/-- The device after `k` rounds. -/
def walked (d : Device σ) (k : ℕ) : Device σ :=
  { d with ota := { d.ota with
      board := { d.ota.board with
        flash := overlay d.ota.board.flash d.ota.run.other.base.toNat (2048 * k) fun _ => .erased
        owned := false
        script := [.ready]
        log := [] }
      sess := { d.ota.sess with eraseAt := d.ota.run.other.base + .ofNat (2048 * k) } } }

/-- The device at the end of the walk: READY. -/
def walkDone (d : Device σ) : Device σ :=
  { d with ota := { d.ota with
      board := { d.ota.board with
        flash := overlay d.ota.board.flash d.ota.run.other.base.toNat otaSlotSize.toNat
          fun _ => .erased
        owned := false
        script := [.ready]
        log := [] }
      sess := { d.ota.sess with
        erasing := false
        eraseAt := d.ota.run.other.base + otaSlotSize
        state := .ready } } }

/-- A window and the one right after it make one. -/
lemma overlay_append {α : Type*} (m c : ℕ → α) (lo n k : ℕ) :
    overlay (overlay m lo n c) (lo + n) k c = overlay m lo (n + k) c := by
  funext a
  simp only [overlay]
  by_cases h : lo ≤ a ∧ a < lo + (n + k)
  · rw [if_pos h]
    by_cases h' : lo + n ≤ a ∧ a < lo + n + k
    · rw [if_pos h']
    · rw [if_neg h', if_pos (by omega)]
  · rw [if_neg h, if_neg (by omega), if_neg (by omega)]

lemma walked_toNat (s : Slot) {k : ℕ} (hk : k ≤ slotRegions) :
    (s.base + .ofNat (2048 * k)).toNat = s.base.toNat + 2048 * k := by
  have hhi : s.base.toNat ≤ 0x08040000 := by cases s <;> decide
  simp only [slotRegions] at hk
  have h : (UInt32.ofNat (2048 * k)).toNat = 2048 * k := by
    rw [UInt32.toNat_ofNat', Nat.mod_eq_of_lt (by omega)]
  rw [UInt32.toNat_add, h, Nat.mod_eq_of_lt (by omega)]

lemma walked_walkAt {k : ℕ} (hend : d.ota.sess.eraseEnd = d.ota.run.other.base + otaSlotSize)
    (hk : k < slotRegions) :
    WalkAt (walked d k).ota.run (walked d k).ota.sess.eraseAt (walked d k).ota.sess.eraseEnd :=
  ⟨hend, k, hk, by
    rw [Nat.mul_comm]
    exact walked_toNat _ hk.le⟩

/-- What the publication of a round compares. -/
lemma walked_next (s : Slot) {k : ℕ} (hk : k < slotRegions) :
    s.base + .ofNat (2048 * k) + otaPageSize = s.base + .ofNat (2048 * (k + 1)) := by
  have hhi : s.base.toNat ≤ 0x08040000 := by cases s <;> decide
  have hps : otaPageSize.toNat = 2048 := rfl
  apply UInt32.toNat_inj.mp
  rw [UInt32.toNat_add, walked_toNat s hk.le, walked_toNat s hk, hps]
  simp only [slotRegions] at hk
  omega

/-- The publication of a round that was not the last. -/
lemma otaErasePublish_more {s : Session} (he : s.erasing = true)
    (hlt : ¬ s.eraseAt + otaPageSize ≥ s.eraseEnd) :
    otaErasePublish s ⟨s.eraseEpoch, s.eraseAt, s.eraseEnd⟩ .ok =
      { s with eraseAt := s.eraseAt + otaPageSize } := by
  simp only [otaErasePublish, he, Bool.not_true, Bool.false_eq_true, ne_eq, not_true_eq_false,
    or_self, if_false, if_neg hlt]

/-- The publication of the last round. -/
lemma otaErasePublish_last {s : Session} (he : s.erasing = true) (hb : s.state = .busy)
    (hge : s.eraseAt + otaPageSize ≥ s.eraseEnd) :
    otaErasePublish s ⟨s.eraseEpoch, s.eraseAt, s.eraseEnd⟩ .ok =
      { s with eraseAt := s.eraseAt + otaPageSize, erasing := false, state := .ready } := by
  simp only [otaErasePublish, he, Bool.not_true, Bool.false_eq_true, ne_eq, not_true_eq_false,
    or_self, if_false, if_pos hge, hb, if_true]

lemma regionDone_walked (he : d.ota.sess.erasing = true)
    (hend : d.ota.sess.eraseEnd = d.ota.run.other.base + otaSlotSize) {k : ℕ}
    (hk : k + 1 < slotRegions) : regionDone (walked d k) = walked d (k + 1) := by
  have hsz : (d.ota.run.other.base + otaSlotSize).toNat =
      d.ota.run.other.base.toNat + 2048 * slotRegions := by cases d.ota.run <;> decide
  have hnext := walked_next d.ota.run.other (show k < slotRegions by omega)
  have hmore : ¬ (walked d k).ota.sess.eraseAt + otaPageSize ≥ (walked d k).ota.sess.eraseEnd := by
    simp only [walked]
    rw [hnext, hend, ge_iff_le, UInt32.not_le, UInt32.lt_iff_toNat_lt, hsz, walked_toNat _ hk.le]
    omega
  have hpub := otaErasePublish_more (s := (walked d k).ota.sess) he hmore
  have hflash := overlay_append d.ota.board.flash (fun _ => .erased)
    d.ota.run.other.base.toNat (2048 * k) 2048
  rw [regionDone, hpub]
  simp only [walked, walked_toNat _ (show k ≤ slotRegions by omega), hflash, hnext, Nat.mul_succ]

lemma regionDone_last (he : d.ota.sess.erasing = true) (hb : d.ota.sess.state = .busy)
    (hend : d.ota.sess.eraseEnd = d.ota.run.other.base + otaSlotSize) {k : ℕ}
    (hk : k + 1 = slotRegions) : regionDone (walked d k) = walkDone d := by
  have hsz : 2048 * slotRegions = otaSlotSize.toNat := rfl
  have hnext := walked_next d.ota.run.other (show k < slotRegions by omega)
  rw [hk, hsz, UInt32.ofNat_toNat] at hnext
  have hge : (walked d k).ota.sess.eraseAt + otaPageSize ≥ (walked d k).ota.sess.eraseEnd := by
    simp only [walked]
    rw [hnext, hend]
    exact UInt32.le_refl _
  have hpub := otaErasePublish_last (s := (walked d k).ota.sess) he hb hge
  have hflash := overlay_append d.ota.board.flash (fun _ => .erased)
    d.ota.run.other.base.toNat (2048 * k) 2048
  rw [← Nat.mul_add_one, hk, hsz] at hflash
  rw [regionDone, hpub]
  simp only [walked, walkDone, walked_toNat _ (show k ≤ slotRegions by omega), hflash, hnext]

/-- On healthy hardware an accepted BEGIN gets to READY. -/
theorem reach_walkDone (h : Reach (step hal) init Legal (.on d .idle))
    (he : d.ota.sess.erasing = true) (hb : d.ota.sess.state = .busy)
    (hat : d.ota.sess.eraseAt = d.ota.run.other.base)
    (hend : d.ota.sess.eraseEnd = d.ota.run.other.base + otaSlotSize)
    (hd : d.ota.board.dual = false) (ho : d.ota.board.owned = false) :
    Reach (step hal) init Legal (.on (walkDone d) .idle) := by
  have hround : ∀ k < slotRegions, Reach (step hal) init Legal (.on (regionDone (walked d k)) .idle) := by
    intro k hk
    induction k with
    | zero =>
      have h₀ : regionDone (walked d 0) = regionDone d := by
        have hnil : overlay d.ota.board.flash d.ota.run.other.base.toNat 0 (fun _ => Cell.erased) =
            d.ota.board.flash := by
          funext a
          exact if_neg (by omega)
        have hz : d.ota.run.other.base + .ofNat (2048 * 0) = d.ota.sess.eraseAt := by
          rw [hat]
          simp
        simp only [regionDone, walked, Nat.mul_zero, hnil] at hz ⊢
        rw [hz]
      rw [h₀]
      exact reach_region h he ⟨hend, 0, by decide, by simp [hat]⟩ hd ho
    | succ k ih =>
      have hr := ih (by omega)
      rw [regionDone_walked he hend hk] at hr
      have hat' := walked_walkAt (d := d) hend hk
      have he' : (walked d (k + 1)).ota.sess.erasing = true := by simp only [walked, he]
      exact reach_region hr he' hat' hd rfl
  obtain ⟨k, hk⟩ : ∃ k, k + 1 = slotRegions := ⟨107, rfl⟩
  rw [← regionDone_last he hb hend hk]
  exact hround k (by omega)

end

/-! ### Sessions of the sample device -/

/-- An erase walk is armed at the start of the slot that is not running, on a free single-bank
board. -/
def armedCheck (d : Device Unit) : Bool :=
  d.ota.sess.erasing && d.ota.sess.state == .busy &&
    Nat.beq d.ota.sess.eraseAt.toNat d.ota.run.other.base.toNat &&
    Nat.beq d.ota.sess.eraseEnd.toNat (d.ota.run.other.base + otaSlotSize).toNat &&
    !d.ota.board.dual && !d.ota.board.owned

/-- The state has an armed walk, and after it the labels `ls` lead to a state with `q`. -/
def sessionCheck (ls : List Label) (q : Sys Unit → Bool) : Sys Unit → Bool
  | .on d .idle =>
    armedCheck d && (run (step .stub) legalCheck (.on (walkDone d) .idle) ls).any q
  | _ => false

/-- Labels up to BEGIN, the whole erase walk, labels after it. -/
lemma exists_reach_of_session (ls ls' : List Label) (q : Sys Unit → Bool)
    (h : (run (step .stub) legalCheck sampleDevice ls).any (sessionCheck ls' q) = true) :
    ∃ s, Reach (step .stub) Provisioned Legal s ∧ q s = true := by
  obtain ⟨s, hs, hq⟩ := exists_reach_of_sample Legal legalCheck _ ls
    (fun _ _ _ h => .of_check h) h
  match s, hs, hq with
  | .on d .idle, hs, hq =>
    simp only [sessionCheck, armedCheck, Bool.and_eq_true, beq_iff_eq, Nat.beq_eq,
      UInt32.toNat_inj, Bool.not_eq_true'] at hq
    obtain ⟨⟨⟨⟨⟨⟨he, hb⟩, hat⟩, hend⟩, hd⟩, ho⟩, hrun⟩ := hq
    have hdone := reach_walkDone hs he hb hat hend hd ho
    exact hdone.exists_of_run _ _ _ (fun _ _ _ h => Legal.of_check h) hrun

end Gd32Bridge
