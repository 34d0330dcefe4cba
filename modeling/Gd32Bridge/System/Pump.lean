import Gd32Bridge.System.Delivery

/-!
# The erase pump on healthy hardware

The pump erases the slot region by region, each region in the steps between which a request can
land.  Undisturbed, and in either bank mode, the steps of a region come to the flash call made in
one go, and the rounds of a whole walk to an erased slot.
-/

namespace Gd32Bridge

open Endian Memory Transition

variable {σ : Type} (hal : Hal σ)

/-! ### The log does not matter -/

section

variable (b : Board) (run : Slot) (log : List Event)

lemma Board.exec_relog (o : FlashOp) : Board.exec { b with log := log } run o =
    ({ (b.exec run o).1 with log := .op run o :: log }, (b.exec run o).2) := by
  simp only [Board.exec]
  split
  · split_ifs <;> rfl
  · rfl
  · rfl

lemma Board.runOps_relog (os : List FlashOp) : ∃ log',
    Board.runOps { b with log := log } run os =
      ({ (b.runOps run os).1 with log := log' }, (b.runOps run os).2) := by
  induction os generalizing b log with
  | nil => exact ⟨log, rfl⟩
  | cons o os ih =>
    simp only [Board.runOps, Board.exec_relog]
    generalize b.exec run o = x
    obtain ⟨b', e⟩ := x
    cases e with
    | ready => exact ih b' _
    | fault e => exact ⟨_, rfl⟩
    | cut => exact ⟨_, rfl⟩

lemma Board.fmcCall_relog (c : FmcCall) : ∃ log',
    Board.fmcCall { b with log := log } run c =
      ({ (b.fmcCall run c).1 with log := log' }, (b.fmcCall run c).2) := by
  simp only [Board.fmcCall]
  split_ifs
  · exact ⟨log, rfl⟩
  · exact ⟨log, rfl⟩
  · obtain ⟨log', h⟩ := (b.claim run c).runOps_relog run (.call run c :: log) (c.work b.dual)
    refine ⟨log', ?_⟩
    have hclaim : Board.claim { b with log := log } run c =
        { b.claim run c with log := .call run c :: log } := rfl
    simp only [hclaim, h]
    rfl

/-- A chunk that gets to its flash call. -/
lemma hWrite_relog {o : Ota} {req : List UInt8} (hc : WriteChecked o req) (cap : ℕ) : ∃ log',
    hWrite { o with board := { o.board with log := log } } req cap =
      ({ (hWrite o req cap).1 with board := { (hWrite o req cap).1.board with log := log' } },
        (hWrite o req cap).2) := by
  have hc' : WriteChecked { o with board := { o.board with log := log } } req :=
    ⟨hc.state, hc.size, hc.dlen, hc.range, hc.align, hc.fresh⟩
  obtain ⟨log', h⟩ := o.board.fmcCall_relog o.run log (chunkCall o req)
  refine ⟨log', ?_⟩
  have hcall : chunkCall { o with board := { o.board with log := log } } req = chunkCall o req :=
    rfl
  rw [hWrite_of_checked hc, hWrite_of_checked hc', hcall, h]
  generalize o.board.fmcCall o.run (chunkCall o req) = x
  obtain ⟨b', r⟩ := x
  rcases r with _ | _ | _ | _ <;> rfl

end

/-! ### Served requests -/

/-- A request is answered OK, or BUSY behind the trial gate, or ends in the reset it asks for. -/
def served (hal : Hal σ) : Sys σ → Label → Sys σ → Bool
  | .on d _, .request link cmd pl script, _ =>
    match (protocolDispatch hal false link cmd (d.prepare script) pl maxPayloadBytes).2 with
    | .reply st _ => st == if d.ota.trial then .busy else .ok
    | .reset => true
    | .powerLost => false
  | _, _, _ => true

/-- The round of the erase pump that erases one region. -/
def eraseRound (dual : Bool) : List Label :=
  [.eraseTick, .base .ready] ++ List.replicate (if dual then 2 else 1) (.base .ready) ++
    [.base .ready, .base .ready]

/-! ### The erase walk -/

section

variable {d : Device σ}

/-- The board after an operation on healthy hardware. -/
def Board.done (b : Board) (run : Slot) (o : FlashOp) : Board :=
  { b with
    flash := overlay b.flash (o.lo b.dual) (o.size b.dual) o.content
    script := []
    log := [.op run o] }

lemma exec_done {b : Board} {run : Slot} {o : FlashOp} (hp : ∀ f, o.possible f = true) :
    Board.exec { b with script := [] } run o =
      ({ b.done run o with log := .op run o :: b.log }, .ready) := by
  have hposs := hp b.flash
  simp only [Board.exec, Board.done, List.headD_nil, hposs, if_true, List.tail_nil]

lemma runOps_done {b : Board} {run : Slot} {o : FlashOp} (os : List FlashOp)
    (hp : ∀ f, o.possible f = true) : Board.runOps { b with script := [] } run (o :: os) =
      Board.runOps { b.done run o with log := .op run o :: b.log } run os := by
  rw [Board.runOps, exec_done hp]

lemma step_walk {j : Job} {o : FlashOp} (os : List FlashOp) (hp : ∀ f, o.possible f = true) :
    step hal (.on d (.walk j o os)) (.base .ready) =
      some (.on (d.withBoard (d.ota.board.done d.ota.run o)) (match os with
        | [] => .ended j .ok
        | o' :: os' => .walk j o' os')) := by
  have hx : (d.prepare [.ready]).ota.board.exec d.ota.run o =
      (d.ota.board.done d.ota.run o, .ready) := by
    have hposs := hp d.ota.board.flash
    simp only [Device.prepare, Board.prepare, Board.exec, Board.done, List.headD_cons, hposs,
      if_true, List.tail_cons]
  simp only [step, baseStep, baseOp]
  rw [show (d.prepare [.ready]).ota.run = d.ota.run from rfl, hx]
  cases os <;> rfl

/-- Operation by operation the pump does what the call would have done in one go. -/
lemma run_walk (j : Job) (o : FlashOp) (os : List FlashOp)
    (hp : ∀ o' ∈ o :: os, ∀ f, o'.possible f = true) : ∃ b : Board,
      run (step hal) (served hal) (.on d (.walk j o os))
        (List.replicate (os.length + 1) (.base .ready)) =
          some (.on (d.withBoard b) (.ended j .ok)) ∧
      b.dual = d.ota.board.dual ∧
      b.flash = (Board.runOps { d.ota.board with script := [] } d.ota.run (o :: os)).1.flash := by
  induction os generalizing d o with
  | nil =>
    refine ⟨d.ota.board.done d.ota.run o,
      run_cons (step_walk hal [] (hp o List.mem_cons_self)) rfl (run_nil _ _), rfl, ?_⟩
    rw [runOps_done [] (hp o List.mem_cons_self)]
    rfl
  | cons o' os ih =>
    obtain ⟨b, hrun, hdual, hflash⟩ := ih (d := d.withBoard (d.ota.board.done d.ota.run o)) o'
      fun x hx => hp x (List.mem_cons_of_mem _ hx)
    refine ⟨b, run_cons (step_walk hal (o' :: os) (hp o List.mem_cons_self)) rfl hrun, hdual, ?_⟩
    obtain ⟨log', hlog⟩ := (d.ota.board.done d.ota.run o).runOps_relog d.ota.run
      (.op d.ota.run o :: d.ota.board.log) (o' :: os)
    rw [hflash, runOps_done _ (hp o List.mem_cons_self), hlog]
    rfl

/-- The operations of a region. -/
lemma erase_work_cons (dual : Bool) (at_ : UInt32) : ∃ o os,
    (FmcCall.erase at_ otaPageSize).work dual = o :: os ∧
      os.length + 1 = (if dual then 2 else 1) ∧ ∀ o' ∈ o :: os, ∀ f, o'.possible f = true := by
  have hposs : ∀ o' ∈ (FmcCall.erase at_ otaPageSize).work dual, ∀ f, o'.possible f = true := by
    intro o' ho' f
    obtain ⟨i, -, rfl⟩ := List.mem_map.mp ho'
    simp only [eraseOnePage]
    split_ifs <;> rfl
  have hlen : ((FmcCall.erase at_ otaPageSize).work dual).length = if dual then 2 else 1 := by
    rw [FmcCall.work, List.length_map, List.length_range]
    cases dual <;> rfl
  cases hwork : (FmcCall.erase at_ otaPageSize).work dual with
  | nil =>
    rw [hwork] at hlen
    cases dual <;> cases hlen
  | cons o os =>
    rw [hwork] at hposs hlen
    exact ⟨o, os, rfl, hlen, hposs⟩

/-- One round: the tick, the claim, the page erases, the release, the publication. -/
lemma run_region (he : d.ota.sess.erasing = true)
    (hat : WalkAt d.ota.run d.ota.sess.eraseAt d.ota.sess.eraseEnd)
    (ho : d.ota.board.owned = false) : ∃ b : Board,
      run (step hal) (served hal) (.on d .idle) (eraseRound d.ota.board.dual) =
        some (.on { d with ota := { d.ota with
          board := b
          sess := otaErasePublish d.ota.sess
            ⟨d.ota.sess.eraseEpoch, d.ota.sess.eraseAt, d.ota.sess.eraseEnd⟩ .ok } } .idle) ∧
      b.dual = d.ota.board.dual ∧ b.owned = false ∧
      b.flash = ((d.ota.board.prepare []).fmcCall d.ota.run
        (.erase d.ota.sess.eraseAt otaPageSize)).1.flash := by
  let j := Job.erase ⟨d.ota.sess.eraseEpoch, d.ota.sess.eraseAt, d.ota.sess.eraseEnd⟩
  let claimed := (d.ota.board.prepare [.ready]).claim d.ota.run j.call
  obtain ⟨o, os, hwork, hlen, hposs⟩ := erase_work_cons d.ota.board.dual d.ota.sess.eraseAt
  have hadm : j.call.admits d.ota.run = true := hat.admits
  have h₁ : step hal (.on d .idle) .eraseTick = some (.on (d.prepare []) (.call j)) := by
    simp only [step, otaEraseSnapshot, he, if_true, j]
  have h₂ : step hal (.on (d.prepare []) (.call j)) (.base .ready) =
      some (.on (d.withBoard claimed) (.walk j o os)) := by
    have hwork' : j.call.work d.ota.board.dual = o :: os := hwork
    simp only [step, baseStep, baseEnter, Device.prepare, Board.prepare, hadm, ho, hwork',
      Bool.not_true, Bool.false_eq_true, if_false]
    rfl
  obtain ⟨b, h₃, hdual, hflash⟩ := run_walk hal (d := d.withBoard claimed) j o os hposs
  refine ⟨(b.prepare [.ready]).release.prepare [.ready], ?_, hdual, rfl, ?_⟩
  · rw [eraseRound, ← hlen]
    refine run_trans (run_trans (run_cons h₁ rfl (run_cons h₂ rfl (run_nil _ _))) h₃) ?_
    exact run_cons rfl rfl (run_cons rfl rfl (run_nil _ _))
  · -- the same cells as those of the call in one go
    obtain ⟨log', hlog⟩ := ((d.ota.board.prepare []).claim d.ota.run j.call).runOps_relog d.ota.run
      claimed.log (o :: os)
    have hcall : (d.ota.board.prepare []).fmcCall d.ota.run
        (.erase d.ota.sess.eraseAt otaPageSize) =
        ((((d.ota.board.prepare []).claim d.ota.run j.call).runOps d.ota.run (o :: os)).1.release,
          (((d.ota.board.prepare []).claim d.ota.run j.call).runOps d.ota.run (o :: os)).2) := by
      have hadm' : (FmcCall.erase d.ota.sess.eraseAt otaPageSize).admits d.ota.run = true := hadm
      have ho' : (d.ota.board.prepare []).owned = false := ho
      have hwork' : (FmcCall.erase d.ota.sess.eraseAt otaPageSize).work
          (d.ota.board.prepare []).dual = o :: os := hwork
      simp only [Board.fmcCall, hadm', ho', hwork', Bool.not_true, Bool.false_eq_true, if_false]
      rfl
    rw [hcall]
    refine hflash.trans ?_
    have hboard : { (d.withBoard claimed).ota.board with script := [] } =
        { (d.ota.board.prepare []).claim d.ota.run j.call with log := claimed.log } := rfl
    rw [hboard]
    exact congrArg (fun x => x.1.flash) hlog

/-- Where the walk stands after `k` rounds. -/
def walkSession (s : Session) (base : UInt32) (k : ℕ) : Session :=
  if k < slotRegions then { s with eraseAt := base + .ofNat (2048 * k) }
  else { s with erasing := false, eraseAt := base + .ofNat (2048 * k), state := .ready }

/-- The device after `k` rounds. -/
structure ErasedTo (d : Device σ) (k : ℕ) (d' : Device σ) : Prop where
  run_eq : d'.ota.run = d.ota.run
  gate : d'.ota.trial = d.ota.trial
  dual : d'.ota.board.dual = d.ota.board.dual
  free : d'.ota.board.owned = false
  sess : d'.ota.sess = walkSession d.ota.sess d.ota.run.other.base k
  rest : Unchanged d.ota.run.other.region d.ota.board.flash d'.ota.board.flash
  erased : ∀ a, d.ota.run.other.base.toNat ≤ a → a < d.ota.run.other.base.toNat + 2048 * k →
    d'.ota.board.flash a = .erased

/-- An accepted BEGIN has armed the walk. -/
structure WalkArmed (d : Device σ) : Prop where
  erasing : d.ota.sess.erasing = true
  busy : d.ota.sess.state = .busy
  eraseAt : d.ota.sess.eraseAt = d.ota.run.other.base
  eraseEnd : d.ota.sess.eraseEnd = d.ota.run.other.base + otaSlotSize
  free : d.ota.board.owned = false

lemma ErasedTo.round {d d' : Device σ} {k : ℕ} (ha : WalkArmed d) (h : ErasedTo d k d')
    (hk : k < slotRegions) : ∃ d'', run (step hal) (served hal) (.on d' .idle)
      (eraseRound d.ota.board.dual) = some (.on d'' .idle) ∧ ErasedTo d (k + 1) d'' := by
  have hto := walked_toNat d.ota.run.other hk.le
  have hsess := h.sess
  rw [walkSession, if_pos hk] at hsess
  have hat : WalkAt d'.ota.run d'.ota.sess.eraseAt d'.ota.sess.eraseEnd := by
    rw [hsess, h.run_eq]
    exact ⟨ha.eraseEnd, k, hk, hto.trans (by rw [Nat.mul_comm])⟩
  obtain ⟨b, hrun, hdual, hfree, hflash⟩ := run_region hal (d := d')
    (by rw [hsess]; exact ha.erasing) hat h.free
  rw [h.dual] at hrun hdual
  have hok : ((d'.ota.board.prepare []).fmcCall d'.ota.run
      (.erase d'.ota.sess.eraseAt otaPageSize)).2 = some .ok :=
    Board.fmcCall_erase_nominal rfl h.free hat.admits hat.inFlash
  have hspan : (FmcCall.erase d'.ota.sess.eraseAt otaPageSize).span =
      Set.Ico (d.ota.run.other.base.toNat + 2048 * k)
        (d.ota.run.other.base.toNat + 2048 * k + 2048) := by
    simp only [FmcCall.span, hsess, hto]
    rfl
  have hsame : Unchanged (FmcCall.erase d'.ota.sess.eraseAt otaPageSize).span d'.ota.board.flash
      ((d'.ota.board.prepare []).fmcCall d'.ota.run
        (.erase d'.ota.sess.eraseAt otaPageSize)).1.flash :=
    Board.fmcCall_unchanged hat.inFlash
  refine ⟨_, hrun, h.run_eq, h.gate, hdual, hfree, ?_, ?_, ?_⟩
  · -- the publication moves the walk on, or ends it
    have hnext := walked_next d.ota.run.other hk
    have hend : (d.ota.run.other.base + otaSlotSize).toNat =
        d.ota.run.other.base.toNat + 2048 * slotRegions := by cases d.ota.run <;> decide
    have he : d'.ota.sess.erasing = true := by rw [hsess]; exact ha.erasing
    have hb : d'.ota.sess.state = .busy := by rw [hsess]; exact ha.busy
    by_cases hlast : k + 1 < slotRegions
    · have hmore : ¬ d'.ota.sess.eraseAt + otaPageSize ≥ d'.ota.sess.eraseEnd := by
        rw [hsess]
        simp only [hnext, ha.eraseEnd, ge_iff_le, UInt32.not_le, UInt32.lt_iff_toNat_lt, hend,
          walked_toNat _ (show k + 1 ≤ slotRegions by omega)]
        omega
      simp only [otaErasePublish_more he hmore, walkSession, if_pos hlast]
      rw [hsess]
      simp only [hnext]
    · have hge : d'.ota.sess.eraseAt + otaPageSize ≥ d'.ota.sess.eraseEnd := by
        rw [hsess]
        simp only [hnext, ha.eraseEnd, ge_iff_le, UInt32.le_iff_toNat_le, hend,
          walked_toNat _ (show k + 1 ≤ slotRegions by omega)]
        omega
      simp only [otaErasePublish_last he hb hge, walkSession, if_neg hlast]
      rw [hsess]
      simp only [hnext]
  · have hsub := hat.span_subset
    rw [h.run_eq] at hsub
    simp only [hflash]
    exact h.rest.trans (hsame.mono hsub)
  · intro a hlo hhi
    simp only [hflash]
    by_cases hold : a < d.ota.run.other.base.toNat + 2048 * k
    · refine (hsame.apply ?_).trans (h.erased a hlo hold)
      rw [hspan, Set.mem_Ico]
      omega
    · refine Board.fmcCall_ok hat.inFlash hok ?_
      rw [hspan, Set.mem_Ico]
      omega

/-- The whole walk. -/
lemma run_erase {d : Device σ} (ha : WalkArmed d) : ∃ d', run (step hal) (served hal) (.on d .idle)
      (List.replicate slotRegions (eraseRound d.ota.board.dual)).flatten = some (.on d' .idle) ∧
    ErasedTo d slotRegions d' := by
  have hrounds : ∀ k ≤ slotRegions, ∃ d', run (step hal) (served hal) (.on d .idle)
      (List.replicate k (eraseRound d.ota.board.dual)).flatten = some (.on d' .idle) ∧
        ErasedTo d k d' := by
    intro k hk
    induction k with
    | zero =>
      refine ⟨d, rfl, rfl, rfl, rfl, ha.free, ?_, Unchanged.refl _ _, fun a hlo hhi => ?_⟩
      · have hzero : d.ota.run.other.base + .ofNat (2048 * 0) = d.ota.sess.eraseAt := by
          rw [ha.eraseAt]
          simp
        rw [walkSession, if_pos (by decide), hzero]
      · omega
    | succ k ih =>
      obtain ⟨d', hrun, h⟩ := ih (Nat.le_of_succ_le hk)
      obtain ⟨d'', hround, h'⟩ := h.round hal ha hk
      refine ⟨d'', ?_, h'⟩
      rw [List.replicate_succ', List.flatten_append, List.flatten_singleton]
      exact run_trans hrun hround
  exact hrounds slotRegions le_rfl

end

end Gd32Bridge
