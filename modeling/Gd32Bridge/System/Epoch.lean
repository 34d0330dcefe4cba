import Gd32Bridge.System.Runs
import Gd32Bridge.System.Session

/-!
# The erase epoch

A request can land between the two critical sections of `ota_erase_tick` and cancel, restart or
poison the walk the tick is part of.  A history variable remembers which cells a completed page
erase has cleared since the last accepted BEGIN; the epoch decides whether a tick still belongs to
the session it publishes into.  READY is then reached only by a walk that has cleared the slot.
-/

namespace Gd32Bridge

open Memory Transition

/-! ### The history -/

/-- An operation of the step worked on cell `a`. -/
def Board.touches (b : Board) (a : ℕ) : Bool :=
  b.log.any fun
    | .op _ o => decide (o.lo b.dual ≤ a) && decide (a < o.lo b.dual + o.size b.dual)
    | .call _ _ => false

lemma Board.not_touches {b : Board} {s : Slot} {a : ℕ} (h : b.hits s = false) (ha : a ∈ s.region) :
    b.touches a = false := by
  simp only [Board.hits, List.any_eq_false] at h
  simp only [Board.touches, List.any_eq_false]
  intro e he
  match e, he with
  | .call _ _, _ => simp
  | .op run o, he =>
    have h := h _ he
    obtain ⟨h₁, h₂⟩ := ha
    simp only [FlashOp.hits, Bool.and_eq_true, decide_eq_true_eq, not_and, Nat.not_lt] at h ⊢
    omega

namespace Core

/-- The step is an accepted BEGIN. -/
def accepts : Core → Label → Bool
  | off _, _ => false
  | on o _, l => beginAccepted o l

/-- The step is an ABORT or a rejected BEGIN. -/
def cancels : Core → Label → Bool
  | off _, _ => false
  | on o _, l => sessionCancelled o l

/-- An `ota_erase_tick` is between its snapshot and its publication. -/
def ticking : Core → Bool
  | off _ => false
  | on _ pc =>
    match pc.job with
    | some (.erase _) => true
    | _ => false

/-- The step completes the erase of a page. -/
def completesErase : Core → Label → Bool
  | on _ (.walk _ (.erasePage _ _) _), .base .ready => true
  | _, _ => false

lemma completesErase_on {o : Ota} {pc : BasePc} {l : Label}
    (h : (on o pc).completesErase l = true) :
    ∃ j bank page os, pc = .walk j (.erasePage bank page) os ∧ l = .base .ready := by
  unfold completesErase at h
  split at h
  · rename_i e
    cases e
    exact ⟨_, _, _, _, rfl, rfl⟩
  · cases h

end Core

/-- What the run is watched for. -/
structure EraseHistory where
  /-- cells that a completed page erase has cleared since the last accepted BEGIN, and that
  nothing has worked on since -/
  clean : ℕ → Bool
  /-- epoch bumps since the snapshot of the tick in flight -/
  bumps : ℕ
  /-- a BEGIN has been accepted since the boot, and no ABORT or rejected BEGIN has followed -/
  live : Bool

/-- The history after a step. -/
def eraseAfter (h : EraseHistory) (c : Core) (l : Label) (c' : Core) : EraseHistory where
  clean a := !c.accepts l && if c'.board.touches a then c.completesErase l else h.clean a
  bumps := if c.ticking then h.bumps + (if c.accepts l || c.cancels l then 1 else 0) else 0
  live :=
    match c with
    | .off _ => false
    | .on _ _ => c.accepts l || h.live && !c.cancels l

def eraseUpd {σ : Type} (h : EraseHistory) (s : Sys σ) (l : Label) (s' : Sys σ) : EraseHistory :=
  eraseAfter h s.core l s'.core

/-! ### The invariant -/

/-- What the tick in flight has cleared already. -/
def Progress (dual : Bool) (clean : ℕ → Bool) : BasePc → Prop
  | .walk (.erase snap) op os => ∀ done, (Job.erase snap).call.work dual = done ++ op :: os →
      ∀ o ∈ done, ∀ a ∈ o.range dual, clean a = true
  | .ended (.erase snap) .ok => ∀ a ∈ (Job.erase snap).call.span, clean a = true
  | .returned (.erase snap) .ok => ∀ a ∈ (Job.erase snap).call.span, clean a = true
  | _ => True

structure Walked (o : Ota) (pc : BasePc) (h : EraseHistory) : Prop where
  /-- the walk has cleared what lies behind it -/
  cleared : o.sess.erasing = true → ∀ a, o.run.other.base.toNat ≤ a → a < o.sess.eraseAt.toNat →
    h.clean a = true
  epoch : ∀ snap, pc.job = some (.erase snap) → o.sess.eraseEpoch = snap.epoch + .ofNat h.bumps
  /-- a tick without bumps belongs to the session -/
  current : ∀ snap, pc.job = some (.erase snap) → h.bumps = 0 →
    o.sess.erasing = true ∧ o.sess.eraseAt = snap.at_
  /-- a stale tick works ahead of the walk -/
  ahead : ∀ snap, pc.job = some (.erase snap) → o.sess.erasing = true →
    o.sess.eraseAt.toNat ≤ snap.at_.toNat
  progress : h.bumps = 0 → Progress o.board.dual h.clean pc
  live : o.sess.state = .busy ∨ o.sess.state = .ready ∨ o.sess.state = .verified → h.live = true

def Core.Walked (h : EraseHistory) : Core → Prop
  | off _ => True
  | on o pc => Gd32Bridge.Walked o pc h

/-- Cells of the slot may be cleared further, but none is lost. -/
lemma Progress.mono {dual : Bool} {clean clean' : ℕ → Bool} {pc : BasePc} {run : Slot}
    (h : Progress dual clean pc)
    (hjob : ∀ snap, pc.job = some (.erase snap) → WalkAt run snap.at_ snap.end_)
    (hc : ∀ a ∈ run.other.region, clean a = true → clean' a = true) : Progress dual clean' pc := by
  cases pc with
  | idle => trivial
  | call j => trivial
  | walk j op os =>
    cases j with
    | store => trivial
    | erase snap =>
      intro done hdone o ho a ha
      have hat := hjob snap rfl
      have hmem : o ∈ (Job.erase snap).call.work dual := by simp [hdone, ho]
      refine hc a ?_ (h done hdone o ho a ha)
      exact hat.span_subset (FmcCall.work_subset hat.inFlash hmem ha)
  | ended j r =>
    cases j with
    | store => trivial
    | erase snap =>
      cases r with
      | ok => exact fun a ha => hc a ((hjob snap rfl).span_subset ha) (h a ha)
      | error => trivial
      | timeout => trivial
  | returned j r =>
    cases j with
    | store => trivial
    | erase snap =>
      cases r with
      | ok => exact fun a ha => hc a ((hjob snap rfl).span_subset ha) (h a ha)
      | error => trivial
      | timeout => trivial

section

variable {o o' : Ota} {pc pc' : BasePc} {h h' : EraseHistory}

/-- What lies behind the walk is in the slot. -/
lemma Tidy.behind (ht : Tidy o pc) (he : o.sess.erasing = true) {a : ℕ}
    (h₁ : o.run.other.base.toNat ≤ a) (h₂ : a < o.sess.eraseAt.toNat) : a ∈ o.run.other.region := by
  obtain ⟨-, k, hk, hat⟩ := ht.walk he
  simp only [slotRegions] at hk
  simp only [Slot.region_eq, Set.mem_Ico]
  omega

lemma Progress.of_not_erasing {dual : Bool} {clean : ℕ → Bool} (hj : ¬ pc.Erasing) :
    Progress dual clean pc := by
  rw [BasePc.Erasing, not_exists] at hj
  cases pc with
  | idle => trivial
  | call j => trivial
  | walk j op os =>
    cases j with
    | store => trivial
    | erase snap => exact absurd rfl (hj snap)
  | ended j r =>
    cases j with
    | store => trivial
    | erase snap => exact absurd rfl (hj snap)
  | returned j r =>
    cases j with
    | store => trivial
    | erase snap => exact absurd rfl (hj snap)

/-- Steps that leave the walk where it is. -/
lemma Walked.keep (hw : Walked o pc h) (ht : Tidy o pc) (hrun : o'.run = o.run)
    (he : o'.sess.erasing = o.sess.erasing) (hat : o'.sess.eraseAt = o.sess.eraseAt)
    (hep : o'.sess.eraseEpoch = o.sess.eraseEpoch)
    (hjob : ∀ snap, pc'.job = some (.erase snap) → pc.job = some (.erase snap))
    (hclean : o.sess.erasing = true → ∀ a ∈ o.run.other.region, a < o.sess.eraseAt.toNat →
      h.clean a = true → h'.clean a = true)
    (hbumps : pc'.Erasing → h'.bumps = h.bumps)
    (hprog : h'.bumps = 0 → Progress o'.board.dual h'.clean pc')
    (hlive : o'.sess.state = .busy ∨ o'.sess.state = .ready ∨ o'.sess.state = .verified →
      h'.live = true) : Walked o' pc' h' where
  cleared he' a h₁ h₂ := by
    rw [hrun] at h₁
    rw [hat] at h₂
    rw [he] at he'
    exact hclean he' a (ht.behind he' h₁ h₂) h₂ (hw.cleared he' a h₁ h₂)
  epoch snap hj := by
    rw [hep, hbumps ⟨snap, hj⟩]
    exact hw.epoch snap (hjob snap hj)
  current snap hj hb := by
    rw [he, hat]
    exact hw.current snap (hjob snap hj) (hbumps ⟨snap, hj⟩ ▸ hb)
  ahead snap hj he' := by
    rw [he] at he'
    rw [hat]
    exact hw.ahead snap (hjob snap hj) he'
  progress := hprog
  live := hlive

/-- Steps that bump the epoch: a tick in flight is stale from here on. -/
lemma Walked.bump (hw : Walked o pc h) (hep : o'.sess.eraseEpoch = o.sess.eraseEpoch + 1)
    (hb : pc.Erasing → h'.bumps = h.bumps + 1)
    (hclear : o'.sess.erasing = true → ∀ a, o'.run.other.base.toNat ≤ a →
      a < o'.sess.eraseAt.toNat → h'.clean a = true)
    (hahead : ∀ snap, pc.job = some (.erase snap) → o'.sess.erasing = true →
      o'.sess.eraseAt.toNat ≤ snap.at_.toNat)
    (hlive : o'.sess.state = .busy ∨ o'.sess.state = .ready ∨ o'.sess.state = .verified →
      h'.live = true) : Walked o' pc h' where
  cleared := hclear
  epoch snap hj := by
    rw [hep, hw.epoch snap hj, hb ⟨snap, hj⟩, UInt32.ofNat_add, UInt32.add_assoc]
    rfl
  current snap hj h0 := by
    rw [hb ⟨snap, hj⟩] at h0
    cases h0
  ahead := hahead
  progress h0 := by
    refine .of_not_erasing fun hj => ?_
    rw [hb hj] at h0
    cases h0
  live := hlive

/-! ### Requests -/

lemma OtaRule.run_eq {cmd : UInt8} {req : List UInt8} {x : Ota × Outcome}
    (rule : OtaRule o cmd req x) : x.1.run = o.run ∧ x.1.board.dual = o.board.dual := by
  cases rule with
  | same | reject | fail | abort | armBlank => exact ⟨rfl, rfl⟩
  | verify cap hcmd hs hlen =>
    obtain ⟨p, hv⟩ := hVerify_eq hs hlen cap
    rw [hv]
    exact ⟨rfl, rfl⟩
  | replay => exact ⟨rfl, rfl⟩
  | chunk =>
    refine ⟨chunkEnd_run .., ?_⟩
    rw [chunkEnd_board]
    exact Board.fmcCall_dual
  | demote => exact ⟨demoteEnd_run .., by rw [demoteEnd_board, metaCommit_dual]⟩
  | commit => exact ⟨commitEnd_run .., by rw [commitEnd_board, metaCommit_dual]⟩
  | rollback => exact ⟨rollbackEnd_run .., by rw [rollbackEnd_board, metaCommit_dual]⟩

/-- Only a chunk works on a slot. -/
lemma OtaRule.hits {cmd : UInt8} {req : List UInt8} {x : Ota × Outcome} (rule : OtaRule o cmd req x)
    (hlog : o.board.log = []) (hs : o.sess.state ≠ .ready) (s : Slot) :
    x.1.board.hits s = false := by
  have hquiet : o.board.hits s = false := by simp [Board.hits, hlog]
  cases rule with
  | same | reject | fail | abort | armBlank => exact hquiet
  | verify _ _ hr => exact absurd hr hs
  | replay _ _ hr => exact absurd hr hs
  | chunk _ _ _ _ _ hr => exact absurd hr hs
  | demote =>
    rw [demoteEnd_board]
    exact metaCommit_hits _ _ _ hlog s
  | commit =>
    rw [commitEnd_board]
    exact metaCommit_hits _ _ _ hlog s
  | rollback =>
    rw [rollbackEnd_board]
    exact metaCommit_hits _ _ _ hlog s

/-- The history after a request that bumps the epoch only if it says so. -/
lemma eraseAfter_request {link : Link} {cmd : UInt8} {pl : List UInt8} {script : List PhysResult}
    (h : EraseHistory) (c' : Core) (hhit : Pumping o pc → c'.board.hits o.run.other = false)
    (ha : beginAccepted o (.request link cmd pl script) = false) :
    Pumping o pc → ∀ a ∈ o.run.other.region, h.clean a = true →
      (eraseAfter h (.on o pc) (.request link cmd pl script) c').clean a = true := by
  intro hp a ha' hc
  simp [eraseAfter, Core.accepts, ha, Board.not_touches (hhit hp) ha', hc]

lemma ticking_of_erasing (hj : pc.Erasing) : (Core.on o pc).ticking = true := by
  obtain ⟨snap, hj⟩ := hj
  simp [Core.ticking, hj]

/-- A request keeps the invariant, whatever it does to the session. -/
theorem Walked.request {link : Link} {cmd : UInt8} {pl : List UInt8} {script : List PhysResult}
    {out : Outcome} (hw : Walked o pc h) (ht : Tidy o pc) (hg : o.trial = false)
    (hout : out = (otaDispatch (o.prepare script) cmd pl maxPayloadBytes).2)
    (rule : SessionRule o cmd pl out o'.sess) (hrun : o'.run = o.run)
    (hdual : o'.board.dual = o.board.dual)
    (hhit : Pumping o pc → o'.board.hits o.run.other = false) :
    Walked o' pc (eraseAfter h (.on o pc) (.request link cmd pl script) (.on o' pc)) := by
  set l : Label := .request link cmd pl script with hl
  have hacc : beginAccepted o l = acceptsBegin cmd out := by simp [beginAccepted, hl, hg, hout]
  have hcan : sessionCancelled o l = (cmd == 0xF6 || rejectsBegin cmd pl out) := by
    simp [sessionCancelled, hl, hg, hout]
  have hno : cmd ≠ 0xF0 → acceptsBegin cmd out = false ∧ rejectsBegin cmd pl out = false := by
    intro hc
    cases out <;> simp [acceptsBegin, rejectsBegin, hc]
  have hbump : pc.Erasing → (eraseAfter h (.on o pc) l (.on o' pc)).bumps =
      h.bumps + if acceptsBegin cmd out || (cmd == 0xF6 || rejectsBegin cmd pl out) then 1 else 0 := by
    intro hj
    simp only [eraseAfter, ticking_of_erasing hj, if_true, Core.accepts, Core.cancels, hacc, hcan]
  have hlive : (eraseAfter h (.on o pc) l (.on o' pc)).live =
      (acceptsBegin cmd out || h.live && !(cmd == 0xF6 || rejectsBegin cmd pl out)) := by
    simp only [eraseAfter, Core.accepts, Core.cancels, hacc, hcan]
  -- the requests that do not bump the epoch
  have hkeep : acceptsBegin cmd out = false → (cmd == 0xF6 || rejectsBegin cmd pl out) = false →
      o'.sess.erasing = o.sess.erasing → o'.sess.eraseAt = o.sess.eraseAt →
      o'.sess.eraseEpoch = o.sess.eraseEpoch →
      (o'.sess.state = .busy ∨ o'.sess.state = .ready ∨ o'.sess.state = .verified →
        o.sess.state = .busy ∨ o.sess.state = .ready ∨ o.sess.state = .verified) →
      Walked o' pc (eraseAfter h (.on o pc) l (.on o' pc)) := by
    intro ha hc he hat hep hst
    have hclean := eraseAfter_request h (.on o' pc) hhit (hacc.trans ha)
    have hb : pc.Erasing → (eraseAfter h (.on o pc) l (.on o' pc)).bumps = h.bumps := by
      intro hj
      rw [hbump hj, ha, hc]
      rfl
    refine hw.keep ht hrun he hat hep (fun _ hj => hj)
      (fun he a ha' _ => hclean (.inl he) a ha') hb ?_ ?_
    · intro h0
      rw [hdual]
      by_cases hj : pc.Erasing
      · rw [hb hj] at h0
        exact (hw.progress h0).mono ht.job (hclean (.inr hj))
      · exact .of_not_erasing hj
    · intro h'
      rw [hlive, ha, hc, hw.live (hst h')]
      rfl
  generalize hs' : o'.sess = s' at rule
  cases rule with
  | keep ha hr hcmd =>
    exact hkeep ha (by simp [hr, hcmd]) (by rw [hs']) (by rw [hs']) (by rw [hs']) (by rw [hs']; exact id)
  | fail e hs hb ha =>
    obtain ⟨h₁, h₂⟩ := hno hb
    exact hkeep h₁ (by simp [h₂, ha]) (by rw [hs']; rfl) (by rw [hs']; rfl) (by rw [hs']; rfl)
      (by rw [hs']; simp [Ota.fail])
  | acked lastOff hs hcmd =>
    obtain ⟨h₁, h₂⟩ := hno (by simp [hcmd])
    exact hkeep h₁ (by rw [h₂, hcmd]; rfl) (by rw [hs']) (by rw [hs']) (by rw [hs']) (by simp [hs])
  | verified hs hcmd =>
    obtain ⟨h₁, h₂⟩ := hno (by simp [hcmd])
    exact hkeep h₁ (by rw [h₂, hcmd]; rfl) (by rw [hs']; rfl) (by rw [hs']; rfl) (by rw [hs']; rfl)
      (by simp [hs])
  | reject e ha hr =>
    have hclean := eraseAfter_request h (.on o' pc) hhit (hacc.trans ha)
    have hb : pc.Erasing → (eraseAfter h (.on o pc) l (.on o' pc)).bumps = h.bumps + 1 := by
      intro hj
      rw [hbump hj, hr]
      simp
    refine hw.bump (by rw [hs']; rfl) hb ?_ (by rw [hs']; exact hw.ahead)
      (by rw [hs']; simp [Ota.sessionReject])
    rw [hs', hrun]
    exact fun he a h₁ h₂ => hclean (.inl he) a (ht.behind he h₁ h₂) (hw.cleared he a h₁ h₂)
  | abort hcmd =>
    refine hw.bump (by rw [hs']; rfl) ?_ (by rw [hs']; rintro ⟨⟩) (by rw [hs']; rintro _ _ ⟨⟩)
      (by rw [hs']; simp [hAbort])
    intro hj
    rw [hbump hj, hcmd]
    simp
  | opened ha hr =>
    refine hw.bump (by rw [hs']; rfl) ?_ ?_ ?_ ?_
    · intro hj
      rw [hbump hj, ha]
      simp
    · -- the walk starts over, with nothing behind it
      rw [hs', hrun]
      intro _ a h₁ h₂
      exact absurd h₂ (Nat.not_lt.mpr h₁)
    · rw [hs']
      intro snap hj _
      obtain ⟨-, k, -, hat⟩ := ht.job snap hj
      rw [hat]
      exact Nat.le_add_right _ _
    · intro _
      rw [hlive, ha]
      rfl

/-! ### Steps -/

/-- Steps of base-level code and of the environment leave BEGIN and ABORT alone. -/
lemma eraseAfter_base {r : PhysResult} {c' : Core} (a : ℕ) :
    (eraseAfter h (.on o pc) (.base r) c').clean a =
      if c'.board.touches a then (Core.on o pc).completesErase (.base r) else h.clean a := by
  simp [eraseAfter, Core.accepts, beginAccepted]

/-- The history after a step without requests: bumps are kept while a tick is in flight, and the
session stays as live as it was. -/
lemma eraseAfter_quiet (h : EraseHistory) (pc : BasePc) {l : Label} (c' : Core) (ha : beginAccepted o l = false)
    (hc : sessionCancelled o l = false) :
    (pc.Erasing → (eraseAfter h (.on o pc) l c').bumps = h.bumps) ∧
      (eraseAfter h (.on o pc) l c').live = h.live := by
  constructor
  · intro hj
    simp [eraseAfter, ticking_of_erasing hj, Core.accepts, Core.cancels, ha, hc]
  · simp [eraseAfter, Core.accepts, Core.cancels, ha, hc]

/-- A step that changes neither the session nor a cell of the slot. -/
lemma Walked.quiet {l : Label} (hw : Walked o pc h) (ht : Tidy o pc) (hrun : o'.run = o.run)
    (hsess : o'.sess = o.sess) (ha : beginAccepted o l = false) (hc : sessionCancelled o l = false)
    (hhit : o'.board.hits o.run.other = false)
    (hjob : ∀ snap, pc'.job = some (.erase snap) → pc.job = some (.erase snap))
    (hprog : pc'.Erasing → h.bumps = 0 → Progress o'.board.dual h.clean pc') :
    Walked o' pc' (eraseAfter h (.on o pc) l (.on o' pc')) := by
  obtain ⟨hb, hl⟩ := eraseAfter_quiet h pc (.on o' pc') ha hc
  have hclean : ∀ a ∈ o.run.other.region, h.clean a = true →
      (eraseAfter h (.on o pc) l (.on o' pc')).clean a = true := by
    intro a ha' hcl
    simp [eraseAfter, Core.accepts, ha, Board.not_touches (b := (Core.on o' pc').board) hhit ha', hcl]
  have hb' : pc'.Erasing → (eraseAfter h (.on o pc) l (.on o' pc')).bumps = h.bumps := by
    rintro ⟨snap, hj⟩
    exact hb ⟨snap, hjob snap hj⟩
  refine hw.keep ht hrun (by rw [hsess]) (by rw [hsess]) (by rw [hsess]) hjob
    (fun _ a ha' _ => hclean a ha') hb' ?_ ?_
  · intro h0
    by_cases hj : pc'.Erasing
    · rw [hb' hj] at h0
      exact (hprog hj h0).mono (fun snap hs => ht.job snap (hjob snap hs)) hclean
    · exact .of_not_erasing hj
  · intro hst
    rw [hl]
    exact hw.live (by rwa [hsess] at hst)

/-- The snapshot of a tick: from here on its bumps are counted. -/
lemma Walked.snapshot (hw : Walked o .idle h) (he : o.sess.erasing = true) :
    Walked (o.prepare []) (.call (.erase ⟨o.sess.eraseEpoch, o.sess.eraseAt, o.sess.eraseEnd⟩))
      (eraseAfter h (.on o .idle) .eraseTick (.on (o.prepare [])
        (.call (.erase ⟨o.sess.eraseEpoch, o.sess.eraseAt, o.sess.eraseEnd⟩)))) where
  cleared _ a h₁ h₂ := by
    have hcl := hw.cleared he a h₁ h₂
    simpa [eraseAfter, Core.accepts, beginAccepted, Board.touches, Core.board] using hcl
  epoch snap hj := by
    cases hj
    simp [eraseAfter, Core.ticking, BasePc.job]
  current snap hj _ := by
    cases hj
    exact ⟨he, rfl⟩
  ahead snap hj _ := by
    cases hj
    exact Nat.le_refl _
  progress _ := trivial
  live hst := by
    rw [(eraseAfter_quiet h _ _ rfl rfl).2]
    exact hw.live hst

/-- The one operation of a step is all the step touches. -/
lemma touches_exec (b : Board) (run : Slot) (op : FlashOp) (hlog : b.log = []) (a : ℕ) :
    (b.exec run op).1.touches a = true ↔ a ∈ op.range b.dual := by
  simp [Board.touches, Board.exec_log, hlog, FlashOp.range]

/-- An operation of the erase pump clears cells ahead of the walk, or fails to. -/
lemma Walked.eraseOp {snap : EraseSnapshot} {r : PhysResult} {op : FlashOp} {os : List FlashOp}
    {b : Board} {res : OpEnd} (hw : Walked o (.walk (.erase snap) op os) h)
    (ht : Tidy o (.walk (.erase snap) op os))
    (hx : (o.board.prepare [r]).exec o.run op = (b, res)) :
    (walkAfter o (.erase snap) os b res).Walked
      (eraseAfter h (.on o (.walk (.erase snap) op os)) (.base r)
        (walkAfter o (.erase snap) os b res)) := by
  have hat := ht.job snap rfl
  obtain ⟨done, hdone⟩ := ht.ops (.erase snap) op os rfl
  have hmem : op ∈ (Job.erase snap).call.work o.board.dual := by simp [← hdone]
  have hsub := FmcCall.work_subset hat.inFlash hmem
  have hdual : b.dual = o.board.dual := by
    have := Board.exec_dual (o.board.prepare [r]) o.run op
    rw [hx] at this
    exact this
  have htouch : ∀ a, b.touches a = true ↔ a ∈ op.range o.board.dual := by
    intro a
    have := touches_exec (o.board.prepare [r]) o.run op rfl a
    rw [hx] at this
    exact this
  obtain ⟨hb, hl⟩ := eraseAfter_quiet (o := o) (l := .base r) h (.walk (.erase snap) op os)
    (walkAfter o (.erase snap) os b res) rfl rfl
  have hb := hb ⟨snap, rfl⟩
  -- cells behind the walk are not among those of the operation
  have hbehind : o.sess.erasing = true → ∀ a, a < o.sess.eraseAt.toNat → b.touches a = false := by
    intro he a ha
    rw [Bool.eq_false_iff, Ne, htouch]
    intro hin
    have h₁ : snap.at_.toNat ≤ a := (hsub hin).1
    have h₂ := hw.ahead snap rfl he
    omega
  have hkeep : ∀ {o' : Ota} {pc' : BasePc}, walkAfter o (.erase snap) os b res = .on o' pc' →
      o' = o.withBoard b → pc'.job = some (.erase snap) →
      (h.bumps = 0 → Progress o.board.dual
        (eraseAfter h (.on o (.walk (.erase snap) op os)) (.base r) (.on o' pc')).clean pc') →
      Walked o' pc' (eraseAfter h (.on o (.walk (.erase snap) op os)) (.base r) (.on o' pc')) := by
    rintro o' pc' hc rfl hj hprog
    rw [hc] at hb hl
    refine hw.keep ht rfl rfl rfl rfl (fun snap' hj' => hj.symm.trans hj') ?_ (fun _ => hb) ?_ ?_
    · intro he a _ ha hcl
      rw [eraseAfter_base]
      simp [Core.board, Ota.withBoard, hbehind he a ha, hcl]
    · rw [hb]
      simpa [Ota.withBoard, hdual] using hprog
    · intro hst
      rw [hl]
      exact hw.live hst
  cases res with
  | cut => trivial
  | fault e =>
    refine hkeep rfl rfl rfl fun _ => ?_
    cases e <;> trivial
  | ready =>
    -- the operation has completed: its cells are clear, and no cell is lost
    have hready : r = .ready := by
      cases r with
      | ready => rfl
      | fault e left => cases hx
      | cut left => cases hx
    have herase : ∃ bk pg, op = .erasePage bk pg := by
      obtain ⟨i, -, rfl⟩ := List.mem_map.mp hmem
      simp only [eraseOnePage]
      split_ifs <;> exact ⟨_, _, rfl⟩
    obtain ⟨bk, pg, rfl⟩ := herase
    subst hready
    have hclean : ∀ {pc' : BasePc} (a : ℕ), h.clean a = true ∨ a ∈ FlashOp.range o.board.dual (.erasePage bk pg) →
        (eraseAfter h (.on o (.walk (.erase snap) (.erasePage bk pg) os)) (.base .ready)
          (.on (o.withBoard b) pc')).clean a = true := by
      intro pc' a ha
      rw [eraseAfter_base]
      by_cases ht' : b.touches a = true
      · simp [Core.board, Ota.withBoard, ht', Core.completesErase]
      · have hcl := ha.resolve_right fun hin => ht' ((htouch a).mpr hin)
        simp [Core.board, Ota.withBoard, ht', hcl]
    have hdoneClean : h.bumps = 0 → ∀ o' ∈ done ++ [.erasePage bk pg], ∀ a ∈ o'.range o.board.dual,
        h.clean a = true ∨ a ∈ FlashOp.range o.board.dual (.erasePage bk pg) := by
      intro h0 o' ho' a ha
      rcases List.mem_append.mp ho' with ho' | ho'
      · exact .inl (hw.progress h0 done hdone.symm o' ho' a ha)
      · obtain rfl := List.mem_singleton.mp ho'
        exact .inr ha
    cases os with
    | nil =>
      refine hkeep rfl rfl rfl fun h0 a ha => hclean a ?_
      obtain ⟨o', ho', ha'⟩ := FmcCall.work_covers hat.inFlash ha
      refine hdoneClean h0 o' ?_ a ha'
      rw [hdone]
      exact ho'
    | cons op' os' =>
      refine hkeep rfl rfl rfl fun h0 done' hdone' o' ho' a ha => hclean a ?_
      refine hdoneClean h0 o' ?_ a ha
      have heq : done' ++ op' :: os' = (done ++ [.erasePage bk pg]) ++ op' :: os' := by
        rw [← hdone', ← hdone]
        simp
      rw [← List.append_cancel_right heq]
      exact ho'

/-- One operation of base-level code. -/
lemma Walked.op {j : Job} {r : PhysResult} {op : FlashOp} {os : List FlashOp}
    (hw : Walked o (.walk j op os) h) (ht : Tidy o (.walk j op os)) :
    (walkAfter o j os ((o.board.prepare [r]).exec o.run op).1
      ((o.board.prepare [r]).exec o.run op).2).Walked
      (eraseAfter h (.on o (.walk j op os)) (.base r)
        (walkAfter o j os ((o.board.prepare [r]).exec o.run op).1
          ((o.board.prepare [r]).exec o.run op).2)) := by
  cases j with
  | erase snap => exact hw.eraseOp ht rfl
  | store st ph =>
    have hmem : op ∈ (Job.store st ph).call.work o.board.dual :=
      (ht.ops (.store st ph) op os rfl).mem (by simp)
    have hsub := (FmcCall.work_subset (st.call_inFlash ph) hmem).trans (st.call_span_subset ph)
    have hhit : ((o.board.prepare [r]).exec o.run op).1.hits o.run.other = false := by
      refine Board.not_hits fun run' op' hop => ?_
      rw [Board.exec_log] at hop
      obtain hop := List.mem_singleton.mp hop
      cases hop
      rw [Board.exec_dual]
      exact FlashOp.not_hits hsub (st.page.region_disjoint_slot _)
    have hquiet : ∀ {o' : Ota} {pc' : BasePc}, o'.run = o.run → o'.sess = o.sess →
        o'.board.hits o.run.other = false → pc'.job = some (.store st ph) →
        Walked o' pc' (eraseAfter h (.on o (.walk (.store st ph) op os)) (.base r) (.on o' pc')) := by
      intro o' pc' hrun hsess hh hj
      refine hw.quiet ht hrun hsess rfl rfl hh ?_ ?_
      · intro snap hj'
        rw [hj] at hj'
        cases hj'
      · rintro ⟨snap, hj'⟩
        rw [hj] at hj'
        cases hj'
    rcases walkAfter_cases o (.store st ph) os ((o.board.prepare [r]).exec o.run op).1
      ((o.board.prepare [r]).exec o.run op).2 with hc | ⟨pc', hj, hc⟩ <;> rw [hc]
    · trivial
    · exact hquiet rfl rfl hhit hj

/-- A tick whose epoch is still the session's saw no bump. -/
lemma bumps_eq_zero {e : UInt32} {n : ℕ} (h : e + .ofNat n = e) (hn : n < 2 ^ 32) : n = 0 := by
  have h0 : UInt32.ofNat n = 0 := by
    have := congrArg (· - e) h
    simpa [UInt32.add_comm e] using this
  have := congrArg UInt32.toNat h0
  rw [UInt32.toNat_ofNat', Nat.mod_eq_of_lt hn] at this
  exact this

/-- A tick that may publish has cleared everything up to the end of its region. -/
lemma Walked.published {snap : EraseSnapshot} (hw : Walked o (.returned (.erase snap) .ok) h)
    (ht : Tidy o (.returned (.erase snap) .ok)) (hb : h.bumps < 2 ^ 32)
    (he : o.sess.erasing = true) (hep : o.sess.eraseEpoch = snap.epoch) {a : ℕ}
    (h₁ : o.run.other.base.toNat ≤ a) (h₂ : a < (snap.at_ + otaPageSize).toNat) :
    h.clean a = true := by
  have h0 : h.bumps = 0 := bumps_eq_zero ((hw.epoch snap rfl).symm.trans hep) hb
  obtain ⟨-, hat⟩ := hw.current snap rfl h0
  have hprog := hw.progress h0
  obtain ⟨-, k, hk, hk'⟩ := ht.job snap rfl
  have hhi : o.run.other.base.toNat ≤ 0x08040000 := by cases o.run <;> decide
  have hps : otaPageSize.toNat = 2048 := rfl
  simp only [slotRegions] at hk
  rw [UInt32.toNat_add, hps, Nat.mod_eq_of_lt (by omega)] at h₂
  by_cases hlt : a < snap.at_.toNat
  · exact hw.cleared he a h₁ (by rw [hat]; exact hlt)
  · refine hprog a ?_
    simp only [Job.call, FmcCall.span, Set.mem_Ico, hps]
    omega

/-- The publication of a tick. -/
lemma Walked.publish {snap : EraseSnapshot} {r : PhysResult} {res : FmcResult}
    (hw : Walked o (.returned (.erase snap) res) h) (ht : Tidy o (.returned (.erase snap) res))
    (hb : h.bumps < 2 ^ 32) :
    Walked { o.prepare [r] with sess := otaErasePublish o.sess snap res } .idle
      (eraseAfter h (.on o (.returned (.erase snap) res)) (.base r)
        (.on { o.prepare [r] with sess := otaErasePublish o.sess snap res } .idle)) := by
  have hl := (eraseAfter_quiet (o := o) (l := .base r) h (.returned (.erase snap) res)
    (.on { o.prepare [r] with sess := otaErasePublish o.sess snap res } .idle) rfl rfl).2
  have hclean : ∀ a, (eraseAfter h (.on o (.returned (.erase snap) res)) (.base r)
      (.on { o.prepare [r] with sess := otaErasePublish o.sess snap res } .idle)).clean a =
      h.clean a := by
    intro a
    rw [eraseAfter_base]
    rfl
  refine ⟨?_, nofun, nofun, nofun, fun _ => trivial, ?_⟩
  · intro he a h₁ h₂
    rw [hclean]
    simp only [otaErasePublish] at he h₂
    split_ifs at he h₂ with hstale hres hend
    · exact hw.cleared he a h₁ h₂
    · -- one region further
      rw [not_or, not_not] at hstale
      rw [not_not] at hres
      subst hres
      exact hw.published ht hb he hstale.2 h₁ h₂
  · rw [hl]
    intro hst
    apply hw.live
    simp only [otaErasePublish] at hst
    split_ifs at hst with hstale hres hend hbusy
    · exact hst
    · simp at hst
    · exact .inl hbusy
    · exact hst
    · exact hst

end

/-- Every step keeps the invariant. -/
theorem Core.Walked.step {c c' : Core} {l : Label} {h : EraseHistory} (hs : CoreStep c l c')
    (ho : c.Ordered) (hb : h.bumps < 2 ^ 32) (hw : c.Walked h) :
    c'.Walked (eraseAfter h c l c') := by
  cases hs with
  | gated ht =>
    exact hw.quiet ho rfl rfl (by simp [beginAccepted, ht]) (by simp [sessionCancelled, ht]) rfl
      (fun _ hj => hj) fun _ => hw.progress
  | passive ht hcmd =>
    exact hw.quiet ho rfl rfl (not_ota_of_lt hcmd).1 (not_ota_of_lt hcmd).2 rfl
      (fun _ hj => hj) fun _ => hw.progress
  | @request o pc link cmd pl script x ht hx rule =>
    obtain ⟨o', out⟩ := x
    cases out with
    | reset => trivial
    | powerLost => trivial
    | reply st p =>
      refine hw.request ho ht (by rw [← hx]) (SessionRule.of_rule rule rfl).of_prepare
        rule.run_eq.1 rule.run_eq.2 fun hp => rule.hits rfl ?_ _
      intro hr
      rcases hp with he | he
      · rw [ho.not_erasing_of_ready hr] at he
        cases he
      · exact (ho.settled he).1 hr
  | idle hl =>
    rcases hl with rfl | rfl | rfl
    all_goals exact hw.quiet ho rfl rfl rfl rfl rfl (fun _ hj => hj) fun hj => absurd hj (by simp)
  | idleConfirm =>
    exact hw.quiet ho rfl rfl rfl rfl rfl (fun _ hj => hj) fun hj => absurd hj (by simp)
  | snapshot he => exact hw.snapshot he
  | storeStart =>
    exact hw.quiet ho rfl rfl rfl rfl rfl (by rintro _ ⟨⟩) (by rintro ⟨snap, hj⟩; cases hj)
  | @confirm o script r p =>
    have hm := metaCommit_hits (o.board.prepare script) o.run (confirmWrite o.run p) rfl
      o.run.other
    generalize metaCommit (o.board.prepare script) o.run (confirmWrite o.run p) = y at hm ⊢
    obtain ⟨b, _ | _ | _⟩ := y
    · trivial
    · exact hw.quiet ho rfl rfl rfl rfl hm (fun _ hj => hj) fun hj => absurd hj (by simp)
    · trivial
  | @refused o j =>
    refine hw.quiet ho rfl rfl rfl rfl rfl (fun _ hj => hj) fun _ _ => ?_
    cases j <;> trivial
  | @enter o j r pc ha hown hpc =>
    have hjob : pc.job = some j := by
      rcases hpc with ⟨op, os, -, rfl⟩ | ⟨-, rfl⟩ <;> rfl
    refine hw.quiet ho rfl rfl rfl rfl rfl (fun snap hj => hjob.symm.trans hj) fun hj h0 => ?_
    obtain ⟨snap, hj⟩ := hj
    rw [hjob] at hj
    cases hj
    rcases hpc with ⟨op, os, hwork, rfl⟩ | ⟨hwork, rfl⟩
    · -- nothing is done yet
      intro done hdone
      have hwork : (Job.erase snap).call.work o.board.dual = op :: os := hwork
      have hnil : done = [] := by
        have := congrArg List.length (hwork.symm.trans hdone)
        simpa using this
      simp [hnil]
    · intro a ha'
      obtain ⟨op, hop, -⟩ := FmcCall.work_covers (ho.job snap rfl).inFlash ha'
      rw [show (FmcCall.erase snap.at_ otaPageSize).work o.board.dual = [] from hwork] at hop
      cases hop
  | op => exact hw.op ho
  | @release o j r res =>
    refine hw.quiet ho rfl rfl rfl rfl rfl (fun _ hj => hj) fun _ h0 => ?_
    have hp := hw.progress h0
    cases j with
    | store => trivial
    | erase snap =>
      cases res with
      | ok => exact hp
      | error => trivial
      | timeout => trivial
  | publish => exact hw.publish ho hb
  | storeNext hpc =>
    rcases hpc with rfl | ⟨ph, rfl⟩
    · exact hw.quiet ho rfl rfl rfl rfl rfl (by rintro _ ⟨⟩) (by rintro ⟨snap, hj⟩; cases hj)
    · exact hw.quiet ho rfl rfl rfl rfl rfl (by rintro _ ⟨⟩) (by rintro ⟨snap, hj⟩; cases hj)
  | powerOff => trivial
  | @boot b wdt script dec x hd rule =>
    have hboot := CoreStep.boot hd rule
    generalize bootAfter x = c' at hboot ⊢
    cases c' with
    | off b' => trivial
    | on o' pc' =>
      obtain ⟨hsess, rfl⟩ := hboot.boot_sess
      refine ⟨?_, (by rintro _ ⟨⟩), (by rintro _ ⟨⟩), (by rintro _ ⟨⟩), fun _ => trivial, ?_⟩
      · rw [hsess]
        rintro ⟨⟩
      · rw [hsess]
        simp [Session.initial]

/-! ### Every run -/

/-- Nothing has happened yet. -/
def EraseHistory.none : EraseHistory :=
  ⟨fun _ => false, 0, false⟩

section

variable {σ : Type} {hal : Hal σ}

/-- A device that has not been booted, and nothing remembered. -/
def UnpoweredFresh (x : Sys σ × EraseHistory) : Prop :=
  x.1.Unpowered ∧ x.2 = .none

/-- Fewer than 2^32 epoch bumps inside one tick. -/
def FewBumps (_ : Sys σ × EraseHistory) (_ : Label) (y : Sys σ × EraseHistory) : Prop :=
  y.2.bumps < 2 ^ 32

/-- The invariant holds in every state of every run. -/
theorem reach_walked {x : Sys σ × EraseHistory}
    (h : Reach (withHistory (step hal) eraseUpd) UnpoweredFresh FewBumps x) :
    x.1.core.Ordered ∧ x.2.bumps < 2 ^ 32 ∧ x.1.core.Walked x.2 := by
  apply Reach.invariant (I := fun x : Sys σ × EraseHistory =>
    x.1.core.Ordered ∧ x.2.bumps < 2 ^ 32 ∧ x.1.core.Walked x.2) ?_ ?_ h
  · rintro ⟨s, e⟩ ⟨hs, rfl⟩
    cases s with
    | off b => exact ⟨trivial, by simp [EraseHistory.none], trivial⟩
    | on d pc => cases hs
  · intro x l y _ hi hs hok
    obtain ⟨ho, hb, hw⟩ := hi
    obtain ⟨hstep, hupd⟩ := withHistory_eq_some.mp hs
    have hc := CoreStep.of_step hstep
    refine ⟨ho.step hc, hok, ?_⟩
    rw [hupd]
    exact hw.step hc ho hb

lemma otaErasePublish_inactive (s : Session) (snap : EraseSnapshot) (res : FmcResult) :
    (otaErasePublish s snap res).inactive = s.inactive := by
  simp only [otaErasePublish]
  split_ifs <;> rfl

/-- What base-level code does after a flash call makes no further one. -/
lemma CoreStep.returned_log {o : Ota} {j : Job} {res : FmcResult} {r : PhysResult} {c : Core}
    (h : CoreStep (.on o (.returned j res)) (.base r) c) : c.board.log = [] := by
  cases h <;> rfl

/-- Whenever the session becomes READY, this is the publication of an erase step, every cell of
the inactive slot has been cleared since the BEGIN that opened the session was accepted and not
been worked on since, and no ABORT or rejected BEGIN has followed that BEGIN. -/
theorem ready_of_whole_walk {x y : Sys σ × EraseHistory} {l : Label}
    (h : Reach (withHistory (step hal) eraseUpd) UnpoweredFresh FewBumps x)
    (hs : withHistory (step hal) eraseUpd x l = some y) (hok : FewBumps x l y)
    {d d' : Device σ} {pc pc' : BasePc} (hx : x.1 = .on d pc) (hy : y.1 = .on d' pc')
    (hwas : d.ota.sess.state ≠ .ready) (hready : d'.ota.sess.state = .ready) :
    (∃ snap r, pc = .returned (.erase snap) .ok ∧ l = .base r) ∧
      (∀ a, d'.ota.inactiveBase.toNat ≤ a → a < d'.ota.inactiveBase.toNat + otaSlotSize.toNat →
        y.2.clean a = true) ∧ y.2.live = true := by
  obtain ⟨ho', -, hw'⟩ := reach_walked (h.next l hs hok)
  obtain ⟨ho, hb, hw⟩ := reach_walked h
  obtain ⟨hstep, hupd⟩ := withHistory_eq_some.mp hs
  have hc := CoreStep.of_step hstep
  rw [eraseUpd] at hupd
  obtain ⟨s, e⟩ := x
  obtain ⟨s', e'⟩ := y
  simp only at hx hy hstep hc hupd
  subst hx hy
  have hlive : e'.live = true := hw'.live (.inr (.inl hready))
  cases SessionStep.of_step hc with
  | keep hsess =>
    rw [hsess] at hready
    exact absurd hready hwas
  | request ht hout rule =>
    generalize hs' : d'.ota.sess = s' at rule hready
    cases rule with
    | keep => exact absurd hready hwas
    | fail => cases hready
    | reject => cases hready
    | abort => cases hready
    | opened => cases hready
    | acked _ hs => exact absurd hs hwas
    | verified hs => exact absurd hs hwas
  | @publish snap res r _ hpc hsess =>
    subst hpc
    rw [hsess] at hready
    simp only [otaErasePublish] at hready
    split_ifs at hready with hstale hres hend hbusy
    · exact absurd hready hwas
    · rw [not_or, not_not, Bool.not_eq_true', Bool.not_eq_false] at hstale
      rw [not_not] at hres
      subst hres
      refine ⟨⟨snap, r, rfl, rfl⟩, fun a h₁ h₂ => ?_, hlive⟩
      have hbase : d'.ota.inactiveBase = d.ota.run.other.base := by
        rw [Ota.inactiveBase, hsess, otaErasePublish_inactive, ho.inactive]
      rw [hbase] at h₁ h₂
      have hlog : (Core.on d'.ota pc').board.log = [] := hc.returned_log
      have hsz : (d.ota.run.other.base + otaSlotSize).toNat =
          d.ota.run.other.base.toNat + otaSlotSize.toNat := by cases d.ota.run <;> decide
      have hend : (d.ota.run.other.base + otaSlotSize).toNat ≤ (snap.at_ + otaPageSize).toNat := by
        rw [← (ho.job snap rfl).1]
        exact hend
      rw [hupd, Sys.core, eraseAfter_base, Board.touches, Sys.core, hlog]
      exact hw.published ho hb hstale.1 hstale.2 h₁ (by omega)
    · exact absurd hready hwas
    · exact absurd hready hwas

end

/-! ### A whole walk -/

/-- One round of the pump on a single-bank part. -/
def walkRound : List Label :=
  [.eraseTick, .base .ready, .base .ready, .base .ready, .base .ready]

/-- BEGIN, a first round that is overtaken by another BEGIN between its flash call and its
publication, and the whole walk of the second session but its last publication. -/
def wholeWalkRun : List Label :=
  [.boot false [], .request .spi 0xF0 [84, 0, 0, 0, 0, 0, 0, 0] [],
    .eraseTick, .base .ready, .base .ready, .base .ready,
    .request .spi 0xF0 [96, 0, 0, 0, 0, 0, 0, 0] [], .base .ready] ++
    (List.replicate 107 walkRound).flatten ++
    [.eraseTick, .base .ready, .base .ready, .base .ready]

/-- The session for 96 bytes is not READY yet, the next step of base-level code makes it so. -/
def readiesCheck (x : Sys Unit × EraseHistory) : Bool :=
  match x.1, withHistory (step .stub) eraseUpd x (.base .ready) with
  | .on d _, some (.on d' _, h) =>
    d.ota.sess.state != .ready && d'.ota.sess.state == .ready && d'.ota.sess.imgLen == 96 &&
      decide (h.bumps < 2 ^ 32)
  | _, _ => false

lemma readiesCheck_eq_true {x : Sys Unit × EraseHistory} (h : readiesCheck x = true) :
    ∃ y d d' pc pc', withHistory (step .stub) eraseUpd x (.base .ready) = some y ∧
      FewBumps x (.base .ready) y ∧ x.1 = .on d pc ∧ y.1 = .on d' pc' ∧
      d.ota.sess.state ≠ .ready ∧ d'.ota.sess.state = .ready ∧ d'.ota.sess.imgLen = 96 := by
  simp only [readiesCheck] at h
  split at h
  · next d pc d' pc' e hx hy =>
    simp only [Bool.and_eq_true, bne_iff_ne, beq_iff_eq, decide_eq_true_eq] at h
    obtain ⟨⟨⟨hwas, hready⟩, hlen⟩, hbumps⟩ := h
    exact ⟨_, d, d', pc, pc', hy, hbumps, hx, rfl, hwas, hready, hlen⟩
  · cases h

set_option maxRecDepth 20000 in
/-- A walk over the whole slot ends in READY, with the slot clear, after the stale publication of a
tick of the session before. -/
theorem ready_of_whole_walk_sample :
    ∃ (x y : Sys Unit × EraseHistory) (d' : Device Unit) (pc' : BasePc),
      Reach (withHistory (step .stub) eraseUpd) UnpoweredFresh FewBumps x ∧
      withHistory (step .stub) eraseUpd x (.base .ready) = some y ∧ y.1 = .on d' pc' ∧
      d'.ota.sess.state = .ready ∧ d'.ota.sess.imgLen = 96 ∧ y.2.live = true ∧
      ∀ a, d'.ota.inactiveBase.toNat ≤ a → a < d'.ota.inactiveBase.toNat + otaSlotSize.toNat →
        y.2.clean a = true := by
  have hinit : Reach (withHistory (step Hal.stub) eraseUpd) UnpoweredFresh FewBumps
      (sampleDevice, .none) := .start ⟨trivial, rfl⟩
  obtain ⟨x, hx, hq⟩ := hinit.exists_of_run (fun _ _ y => decide (y.2.bumps < 2 ^ 32))
    readiesCheck wholeWalkRun (fun _ _ _ h => by simpa [FewBumps] using h) (by decide +kernel)
  obtain ⟨y, d, d', pc, pc', hy, hok, hxd, hyd, hwas, hready, hlen⟩ := readiesCheck_eq_true hq
  obtain ⟨-, hclean, hlive⟩ := ready_of_whole_walk hx hy hok hxd hyd hwas hready
  exact ⟨x, y, d', pc', hx, hy, hyd, hready, hlen, hlive, hclean⟩

end Gd32Bridge
