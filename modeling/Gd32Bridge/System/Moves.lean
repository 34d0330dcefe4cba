import Gd32Bridge.System.Tidy

/-!
# What a step does to the flash

For the metadata invariants a step of the core is one of few things: it leaves the records and
the images alone, it works on the slot that is not running, or it is one of the five metadata
writes.  `Move` lists them with what is known about each, and `Move.of_step` shows that a legal
step is a move.
-/

namespace Gd32Bridge

open Memory

/-! ### Effects -/

/-- The operation works on cells of slot `s`. -/
def FlashOp.hits (dual : Bool) (o : FlashOp) (s : Slot) : Bool :=
  decide (s.base.toNat < o.lo dual + o.size dual) &&
    decide (o.lo dual < s.base.toNat + otaSlotSize.toNat)

/-- The log has a physical operation in slot `s`. -/
def Board.hits (b : Board) (s : Slot) : Bool :=
  b.log.any fun
    | .op _ o => o.hits b.dual s
    | .call _ _ => false

lemma FlashOp.not_hits {dual : Bool} {o : FlashOp} {s : Slot} {R : Set ℕ} (hR : o.range dual ⊆ R)
    (hd : Disjoint s.region R) : o.hits dual s = false := by
  have hpos : 0 < o.size dual := by
    cases o with
    | erasePage => exact fmcPageSize_pos dual
    | programDword => exact Nat.succ_pos 7
  have hsz : otaSlotSize.toNat = 0x36000 := rfl
  simp only [hits, Bool.and_eq_false_iff, decide_eq_false_iff_not, Nat.not_lt]
  by_contra hno
  rw [not_or, Nat.not_le, Nat.not_le] at hno
  -- the larger of the two lower ends is in both ranges
  have hin : max s.base.toNat (o.lo dual) ∈ s.region := by
    simp only [Slot.region, Set.mem_Ico]
    omega
  refine Set.disjoint_left.mp (hd.mono_right hR) hin ?_
  simp only [FlashOp.range, Set.mem_Ico]
  omega

lemma Board.not_hits {b : Board} {s : Slot}
    (h : ∀ run o, Event.op run o ∈ b.log → o.hits b.dual s = false) : b.hits s = false := by
  rw [Board.hits, List.any_eq_false]
  intro e he
  match e, he with
  | .op run o, he => simpa using h run o he
  | .call _ _, _ => simp

/-- Records and images are as before. -/
structure Still (b b' : Board) : Prop where
  pages : ∀ p, metaPages b'.flash p = metaPages b.flash p
  slots : ∀ s, SameSlot b.flash b'.flash s
  hits : ∀ s, b'.hits s = false

/-- Nothing but slot `s` was worked on. -/
structure Touch (b b' : Board) (s : Slot) : Prop where
  pages : ∀ p, metaPages b'.flash p = metaPages b.flash p
  slots : SameSlot b.flash b'.flash s.other
  hits : b'.hits s.other = false

/-- A metadata write was attempted: its page reads as before, does not read, or reads as the
new record. -/
structure Wrote (b b' : Board) (run : Slot) (w : MetaWrite) : Prop where
  other : metaPages b'.flash (w.pageOn b.flash run).other =
    metaPages b.flash (w.pageOn b.flash run).other
  page : metaPages b'.flash (w.pageOn b.flash run) = metaPages b.flash (w.pageOn b.flash run) ∨
    metaPages b'.flash (w.pageOn b.flash run) = none ∨
    metaPages b'.flash (w.pageOn b.flash run) = some (w.apply (metaSeed b.flash)) ∧
      (metaSeed b.flash).counter < w.counterCap
  slots : ∀ s, SameSlot b.flash b'.flash s
  hits : ∀ s, b'.hits s = false

/-- The record of the write is on its page. -/
def Landed (b b' : Board) (run : Slot) (w : MetaWrite) : Prop :=
  metaPages b'.flash (w.pageOn b.flash run) = some (w.apply (metaSeed b.flash)) ∧
    (metaSeed b.flash).counter < w.counterCap

lemma Still.of_quiet {b b' : Board} (hf : b'.flash = b.flash)
    (hl : ∀ run o, Event.op run o ∉ b'.log) : Still b b' where
  pages p := by rw [hf]
  slots s := by
    rw [hf]
    exact SameSlot.refl _ _
  hits _ := Board.not_hits fun run o ho => absurd ho (hl run o)

/-- A board on which only `R` was worked on, `R` away from pages and slots, is still. -/
lemma Still.of_unchanged {b b' : Board} {R : Set ℕ} (hf : Unchanged R b.flash b'.flash)
    (hp : ∀ p : MetaPage, Disjoint p.region R) (hs : ∀ s : Slot, Disjoint s.region R)
    (hl : ∀ run o, Event.op run o ∈ b'.log → o.range b'.dual ⊆ R) : Still b b' where
  pages p := metaPages_congr hf (hp p)
  slots s := .of_unchanged hf (hs s)
  hits s := Board.not_hits fun run o ho => FlashOp.not_hits (hl run o ho) (hs s)

lemma Touch.of_unchanged {b b' : Board} {s : Slot} (hf : Unchanged s.region b.flash b'.flash)
    (hl : ∀ run o, Event.op run o ∈ b'.log → o.range b'.dual ⊆ s.region) : Touch b b' s where
  pages p := metaPages_congr hf (p.region_disjoint_slot s)
  slots := .of_unchanged hf s.region_disjoint.symm
  hits := Board.not_hits fun run o ho => FlashOp.not_hits (hl run o ho) s.region_disjoint.symm

/-- On a fresh log a metadata write shows no operation outside its page. -/
lemma metaCommit_hits (b : Board) (run : Slot) (w : MetaWrite) (hlog : b.log = []) (s : Slot) :
    (metaCommit b run w).1.hits s = false := by
  refine Board.not_hits fun run' o ho => ?_
  obtain ⟨c, hc, he⟩ := (metaCommit_log b run w ho).resolve_left (by simp [hlog])
  refine FlashOp.not_hits ?_ (MetaPage.region_disjoint_slot (w.pageOn b.flash run) s).symm
  have hwork : o ∈ c.work b.dual := by
    rcases he with he | ⟨o', ho', he⟩
    · cases he
    · cases he
      exact ho'
  rw [metaCommit_dual]
  rcases hc with rfl | rfl
  · exact FmcCall.work_subset (MetaPage.erase_inFlash _) hwork
  · exact (FmcCall.work_subset (MetaPage.program_inFlash _ _) hwork).trans
      (MetaPage.program_span_subset _ _)

lemma metaCommit_slots (b : Board) (run : Slot) (w : MetaWrite) (s : Slot) :
    SameSlot b.flash (metaCommit b run w).1.flash s :=
  .of_unchanged (metaCommit_unchanged b run w) (MetaPage.region_disjoint_slot _ s).symm

/-- A metadata write on a fresh log, under the torn-page assumption. -/
lemma Wrote.of_metaCommit (b₀ b : Board) (run : Slot) (w : MetaWrite) (hf : b.flash = b₀.flash)
    (hlog : b.log = []) (hl : ∀ p, TornPage b₀ (metaCommit b run w).1 p) :
    Wrote b₀ (metaCommit b run w).1 run w := by
  constructor
  case other =>
    rw [← hf]
    exact metaCommit_other (MetaPage.other_ne _)
  case slots => exact hf ▸ metaCommit_slots b run w
  case hits => exact metaCommit_hits b run w hlog
  case page =>
    rw [← hf]
    rcases hl (w.pageOn b.flash run) with h | h | ⟨run', data, hcall, h⟩
    · exact .inl (by rw [h, hf])
    · exact .inr (.inl h)
    · -- the only program call is the one of the record
      obtain ⟨c, hc, he⟩ := (metaCommit_log b run w hcall).resolve_left (by simp [hlog])
      have hprog : data = (w.apply (metaSeed b.flash)).encode := by
        rcases he with he | ⟨o', -, he⟩
        · rcases hc with rfl | rfl
          · cases he
          · cases he
            rfl
        · cases he
      have hcnt : (metaSeed b.flash).counter < w.counterCap := by
        by_contra hge
        have hge : (metaSeed b.flash).counter ≥ w.counterCap := UInt32.not_lt.mp hge
        have hnop : (metaCommit b run w).1 = b := by simp [metaCommit, hge]
        rw [hnop, hlog] at hcall
        cases hcall
      rw [hprog, MetaRecord.decode_encode] at h
      exact .inr (.inr ⟨h, hcnt⟩)

/-- A metadata write that succeeded needs no assumption. -/
lemma Wrote.of_success (b₀ b : Board) {run : Slot} {w : MetaWrite} (hf : b.flash = b₀.flash)
    (hlog : b.log = []) (h : (metaCommit b run w).2 = some true) :
    Wrote b₀ (metaCommit b run w).1 run w where
  other := hf ▸ metaCommit_other (MetaPage.other_ne _)
  page := hf ▸ .inr (.inr (metaCommit_true h))
  slots := hf ▸ metaCommit_slots b run w
  hits := metaCommit_hits b run w hlog

lemma Landed.of_metaCommit (b₀ b : Board) (run : Slot) (w : MetaWrite) (hf : b.flash = b₀.flash)
    (h : (metaCommit b run w).2 = some true) : Landed b₀ (metaCommit b run w).1 run w := by
  have := metaCommit_true h
  rwa [Landed, ← hf]

/-! ### Moves -/

/-- From here the slot that is not running can still be erased or programmed without a further
BEGIN. -/
def Working (o : Ota) (pc : BasePc) : Prop :=
  o.sess.erasing = true ∨ pc.Erasing ∨ o.sess.state = .ready

/-- The erase pump is armed or in flight. -/
def Pumping (o : Ota) (pc : BasePc) : Prop :=
  o.sess.erasing = true ∨ pc.Erasing

lemma Pumping.working {o : Ota} {pc : BasePc} (h : Pumping o pc) : Working o pc :=
  h.imp_right .inl

def Core.AtWork : Core → Prop
  | off _ => False
  | on o pc => Working o pc

/-- The same boot as `o`, or no power. -/
def Core.Follows (o : Ota) : Core → Prop
  | off _ => True
  | on o' _ => o'.run = o.run ∧ o'.trial = o.trial

/-- What a legal step is, as far as records and images go. -/
inductive Move : Core → Label → Core → Prop
  | still {o : Ota} {pc : BasePc} {l : Label} {c : Core} (hst : Still o.board c.board)
      (hfol : c.Follows o) (hwork : c.AtWork → Working o pc) : Move (.on o pc) l c
  | touch {o : Ota} {pc : BasePc} {l : Label} {c : Core} (ht : o.trial = false)
      (hw : Working o pc) (hst : Touch o.board c.board o.run.other) (hfol : c.Follows o) :
      Move (.on o pc) l c
  /-- a BEGIN that found no record at all -/
  | blank {o : Ota} {pc : BasePc} {l : Label} {c : Core} (ht : o.trial = false)
      (hnone : metaCurrent o.board.flash = none) (hst : Still o.board c.board)
      (hfol : c.Follows o) : Move (.on o pc) l c
  | demote {o : Ota} {pc : BasePc} {link : Link} {pl : List UInt8} {script : List PhysResult}
      {cur : MetaRecord} {p : MetaPage} {c : Core} (ht : o.trial = false)
      (hd : DemoteChecked o pl cur p) (hw : Wrote o.board c.board o.run (demoteWrite o.run cur))
      (hfol : c.Follows o)
      (hend : Landed o.board c.board o.run (demoteWrite o.run cur) ∨
        (c.AtWork → Pumping o pc)) :
      Move (.on o pc) (.request link 0xF0 pl script) c
  | commit {o : Ota} {pc : BasePc} {link : Link} {pl : List UInt8} {script : List PhysResult}
      {c : Core} (ht : o.trial = false) (hc : CommitChecked o)
      (hw : Wrote o.board c.board o.run (commitWrite o.sess)) (hfol : c.Follows o)
      (hwork : ¬ c.AtWork) : Move (.on o pc) (.request link 0xF3 pl script) c
  | rollback {o : Ota} {pc : BasePc} {link : Link} {pl : List UInt8} {script : List PhysResult}
      {cur : MetaRecord} {p : MetaPage} {active : Slot} {w : MetaWrite} {c : Core}
      (ht : o.trial = false) (hr : RollbackChecked o cur p active)
      (heq : w = rollbackWrite active.other (otaImageTrialCapable
        (o.board.flash.bytes active.other.base (cur.imgLen.get active.other).toNat)
        (cur.imgLen.get active.other)))
      (hw : Wrote o.board c.board o.run w) (hfol : c.Follows o)
      (hwork : c.AtWork → Pumping o pc) : Move (.on o pc) (.request link 0xF4 pl script) c
  | confirm {o : Ota} {script : List PhysResult} {r : MetaRecord} {p : MetaPage} {c : Core}
      (ht : o.trial = true) (hf : o.frameSeen = true)
      (hr : findRunningSlotRecord o.board.flash o.run = some (r, p))
      (hw : Wrote o.board c.board o.run (confirmWrite o.run p)) (hfol : c.Follows o)
      (hwork : ¬ c.AtWork) : Move (.on o .idle) (.confirmTick script) c
  | boot {b : Board} {wdt : Bool} {script : List PhysResult} {dec : BootDecision} {o : Ota}
      (hd : bootDecideSlot b.flash wdt = some dec) (hst : Still b o.board)
      (hrun : o.run = dec.slot) (ht : o.trial = runRecTrial b.flash dec.slot)
      (hwork : ¬ Working o .idle) : Move (.off b) (.boot wdt script) (.on o .idle)
  | heal {b : Board} {wdt : Bool} {script : List PhysResult} {dec : BootDecision}
      {n : MetaRecord} {p : MetaPage} {c : Core} (hd : bootDecideSlot b.flash wdt = some dec)
      (hr : runRecTrial b.flash dec.slot = false) (hn : metaCurrent b.flash = some (n, p))
      (hne : ¬ n.Names dec.slot) (ht : n.trial = true)
      (hw : Wrote b c.board dec.slot (selfHealWrite dec.slot n))
      (hon : ∀ o pc, c = .on o pc → o.run = dec.slot ∧ o.trial = false ∧ ¬ Working o pc) :
      Move (.off b) (.boot wdt script) c

namespace Move

variable {o : Ota} {pc : BasePc} {l : Label} {c : Core}

/-- A running device stays in its boot or loses power. -/
lemma follows (h : Move (.on o pc) l c) : c.Follows o := by
  cases h <;> assumption

/-- Behind the trial gate nothing but the confirm tick writes a record. -/
lemma of_gated (h : Move (.on o pc) l c) (hg : o.trial = true) :
    Still o.board c.board ∨ ∃ script r p, pc = .idle ∧ l = .confirmTick script ∧
      o.frameSeen = true ∧ findRunningSlotRecord o.board.flash o.run = some (r, p) ∧
      Wrote o.board c.board o.run (confirmWrite o.run p) := by
  cases h with
  | still hst => exact .inl hst
  | touch ht | blank ht | demote ht | commit ht | rollback ht =>
    rw [hg] at ht
    cases ht
  | confirm ht hf hr hw => exact .inr ⟨_, _, _, rfl, rfl, hf, hr, hw⟩

end Move

/-! ### Steps are moves -/

lemma Still.refl_of_log {b b' : Board} (hf : b'.flash = b.flash) (hl : b'.log = []) : Still b b' :=
  .of_quiet hf (by simp [hl])

/-- The state a request leaves without a flash call. -/
lemma Move.of_reply {o o' : Ota} {pc : BasePc} {l : Label} {script : List PhysResult}
    (hb : o'.board = (o.prepare script).board) (hrun : o'.run = o.run) (ht : o'.trial = o.trial)
    (hwork : Working o' pc → Working o pc) : Move (.on o pc) l (.on o' pc) := by
  refine .still (.refl_of_log ?_ ?_) ⟨hrun, ht⟩ hwork
  · exact (congrArg Board.flash hb).trans rfl
  · exact congrArg Board.log hb

/-- A chunk works on the slot that is not running. -/
lemma Touch.of_chunk {b₀ b : Board} {run s : Slot} {off : UInt32} {data : List UInt8}
    (hf : b.flash = b₀.flash) (hlog : b.log = []) (hoff : off.toNat % 8 = 0)
    (hfit : off.toNat + data.length ≤ otaSlotSize.toNat) :
    Touch b₀ (otaFmcProgram b run (s.base + off) data).1 s := by
  have hin := chunk_inFlash s hoff hfit
  have hsub := chunk_span_subset s hoff hfit
  refine .of_unchanged ?_ ?_
  · rw [← hf]
    exact (Board.fmcCall_unchanged hin).mono hsub
  · intro run' o ho
    rcases Board.fmcCall_log ho with ho | ⟨-, ho⟩
    · rw [hlog] at ho
      cases ho
    · rcases ho with ho | ⟨o', ho', he⟩
      · cases ho
      · cases he
        rw [otaFmcProgram, Board.fmcCall_dual]
        exact (FmcCall.work_subset hin ho').trans hsub

/-- A request that follows the rules is a move. -/
lemma Move.of_rule {o : Ota} {pc : BasePc} {link : Link} {cmd : UInt8} {pl : List UInt8}
    {script : List PhysResult} {x : Ota × Outcome} (h : Tidy o pc) (ht : o.trial = false)
    (rule : OtaRule (o.prepare script) cmd pl x)
    (hl : ∀ p, TornPage o.board (Core.after pc x).board p) :
    Move (.on o pc) (.request link cmd pl script) (.after pc x) := by
  cases rule with
  | same st p => exact .of_reply rfl rfl rfl id
  | reject e st =>
    exact .of_reply rfl rfl rfl (fun hw => hw.imp_right (Or.imp_right (by rintro ⟨⟩)))
  | fail e st =>
    exact .of_reply rfl rfl rfl (fun hw => hw.imp_right (Or.imp_right (by rintro ⟨⟩)))
  | abort =>
    refine .of_reply rfl rfl rfl ?_
    rintro (hw | hw | hw)
    · cases hw
    · exact .inr (.inl hw)
    · cases hw
  | verify cap hcmd hs hlen =>
    obtain ⟨p, hv⟩ := hVerify_eq hs hlen cap
    rw [hv]
    exact .of_reply rfl rfl rfl (fun _ => .inr (.inr hs))
  | armBlank cap hcmd hlen hnone =>
    exact .blank ht hnone (.refl_of_log rfl rfl) ⟨rfl, rfl⟩
  | replay cap hcmd hs => exact .of_reply rfl rfl rfl (fun _ => .inr (.inr hs))
  | chunk off top data cap hcmd hs hoff hdata hlen hfit htop hnew =>
    have hN : (o.prepare script).inactiveBase = o.run.other.base := by
      rw [Ota.inactiveBase, Ota.prepare_sess, h.inactive]
    have htouch : Touch o.board (otaFmcProgram (o.prepare script).board (o.prepare script).run
        ((o.prepare script).inactiveBase + off) data).1 o.run.other := by
      rw [hN]
      exact .of_chunk rfl rfl hoff hfit
    have hwork : Working o pc := .inr (.inr hs)
    generalize otaFmcProgram (o.prepare script).board (o.prepare script).run
      ((o.prepare script).inactiveBase + off) data = y at htouch ⊢
    obtain ⟨b, _ | _ | _ | _⟩ := y
    · exact .touch ht hwork htouch trivial
    · exact .touch ht hwork htouch ⟨rfl, rfl⟩
    · exact .touch ht hwork htouch ⟨rfl, rfl⟩
    · exact .touch ht hwork htouch ⟨rfl, rfl⟩
  | demote cap cur p hcmd hd =>
    subst hcmd
    have hd : DemoteChecked o pl cur p := ⟨hd.size, hd.len, hd.current, hd.counter, hd.free⟩
    have hland := Landed.of_metaCommit o.board (o.prepare script).board o.run
      (demoteWrite o.run cur) rfl
    have hwrote := Wrote.of_metaCommit o.board (o.prepare script).board o.run
      (demoteWrite o.run cur) rfl rfl
    simp only [Ota.prepare_run] at hl ⊢
    generalize metaCommit (o.prepare script).board o.run (demoteWrite o.run cur) = y
      at hland hwrote hl ⊢
    obtain ⟨b, _ | _ | _⟩ := y
    · exact .demote ht hd (hwrote hl) trivial (.inr (by rintro ⟨⟩))
    · refine .demote ht hd (hwrote hl) ⟨rfl, rfl⟩ (.inr ?_)
      exact fun hw => hw.imp_right (fun hw => hw.elim id (by rintro ⟨⟩))
    · exact .demote ht hd (hwrote hl) ⟨rfl, rfl⟩ (.inl (hland rfl))
  | commit hcmd hc =>
    subst hcmd
    have hc : CommitChecked o := ⟨hc.state, hc.len, hc.bootable, hc.capable, hc.floor⟩
    have hwrote := Wrote.of_metaCommit o.board (o.prepare script).board o.run
      (commitWrite o.sess) rfl rfl
    simp only [Ota.prepare_run, Ota.prepare_sess] at hl ⊢
    generalize metaCommit (o.prepare script).board o.run (commitWrite o.sess) = y at hwrote hl ⊢
    obtain ⟨b, _ | _ | _⟩ := y
    · exact .commit ht hc (hwrote hl) trivial (by rintro ⟨⟩)
    · refine .commit ht hc (hwrote hl) ⟨rfl, rfl⟩ ?_
      rintro (he | he | he)
      · have := h.not_erasing_of_verified hc.state
        simp only [Ota.fail, Ota.prepare_sess, this] at he
        cases he
      · exact (h.settled he).2 hc.state
      · cases he
    · exact .commit ht hc (hwrote hl) trivial (by rintro ⟨⟩)
  | rollback cur p active w hcmd hr heq =>
    subst hcmd
    have hr : RollbackChecked o cur p active := ⟨hr.state, hr.current, hr.names, hr.floor, hr.ok⟩
    have hwrote := Wrote.of_metaCommit o.board (o.prepare script).board o.run
      w rfl rfl
    simp only [Ota.prepare_run] at hl ⊢
    generalize metaCommit (o.prepare script).board o.run w = y at hwrote hl ⊢
    obtain ⟨b, _ | _ | _⟩ := y
    · exact .rollback ht hr heq (hwrote hl) trivial (by rintro ⟨⟩)
    · refine .rollback ht hr heq (hwrote hl) ⟨rfl, rfl⟩ ?_
      rintro (he | he | he)
      · exact .inl he
      · exact .inr he
      · rcases hr.state with h' | h' <;> rw [show o.sess.state = _ from he] at h' <;> cases h'
    · exact .rollback ht hr heq (hwrote hl) trivial (by rintro ⟨⟩)

/-- A metadata write of the self-heal is a move. -/
lemma Move.of_boot {b : Board} {wdt : Bool} {script : List PhysResult} {dec : BootDecision}
    {x : Ota × Bool} (hd : bootDecideSlot b.flash wdt = some dec)
    (rule : BootRule (b.bootBoard script) dec.slot x)
    (hl : ∀ p, TornPage b (bootAfter x).board p) :
    Move (.off b) (.boot wdt script) (bootAfter x) := by
  have hidle : ∀ {b' t}, ¬ Working (.fresh dec.slot b' t) .idle := by
    rintro b' t (h | h | h)
    · cases h
    · exact BasePc.not_erasing_idle h
    · cases h
  have hflag : (∀ r p, findRunningSlotRecord b.flash dec.slot = some (r, p) → r.trial = false) →
      runRecTrial b.flash dec.slot = false := by
    intro h
    simp only [runRecTrial]
    split
    · next r p hr => exact h r p hr
    · rfl
  cases rule with
  | trial r p hr ht =>
    refine .boot hd (.refl_of_log rfl rfl) rfl ?_ hidle
    have hr : findRunningSlotRecord b.flash dec.slot = some (r, p) := hr
    simp only [runRecTrial, hr, ht]
    rfl
  | settled hr hn =>
    have hf := hflag hr
    exact .boot hd (.refl_of_log rfl rfl) rfl hf.symm hidle
  | heal n p hr hn hne ht =>
    have hwrote := Wrote.of_metaCommit b (b.bootBoard script) dec.slot
      (selfHealWrite dec.slot n) rfl rfl
    generalize metaCommit (b.bootBoard script) dec.slot (selfHealWrite dec.slot n) = y
      at hwrote hl ⊢
    obtain ⟨b', _ | v⟩ := y
    · refine .heal hd (hflag hr) hn hne ht (hwrote hl) ?_
      intro o pc hc
      cases hc
    · refine .heal hd (hflag hr) hn hne ht (hwrote hl) ?_
      intro o pc hc
      cases hc
      exact ⟨rfl, rfl, hidle⟩

/-- One physical operation of base-level code works on the slot that is not running, or on a
boot-config page. -/
lemma Move.of_op {o : Ota} {j : Job} {r : PhysResult} {op : FlashOp} {os : List FlashOp} {c : Core}
    (h : Tidy o (.walk j op os)) (hb : c.board = ((o.board.prepare [r]).exec o.run op).1)
    (hfol : c.Follows o) (hwork : c.AtWork → Working o (.walk j op os)) :
    Move (.on o (.walk j op os)) (.base r) c := by
  have hmem : op ∈ j.call.work o.board.dual := (h.ops j op os rfl).mem (by simp)
  have hun : Unchanged (op.range o.board.dual) o.board.flash c.board.flash := by
    rw [hb]
    exact Board.exec_unchanged (o.board.prepare [r]) o.run op
  have hlog : ∀ run o', Event.op run o' ∈ c.board.log → o'.range c.board.dual =
      op.range o.board.dual := by
    intro run o' ho'
    rw [hb, Board.exec_log] at ho'
    rw [hb, Board.exec_dual]
    rcases List.mem_cons.mp ho' with he | he
    · cases he
      rfl
    · cases he
  cases j with
  | erase snap =>
    have hat := h.job snap rfl
    have hsub := (FmcCall.work_subset hat.inFlash hmem).trans hat.span_subset
    have hgate : o.trial = false := by
      by_contra ht
      exact (h.gated (by simpa using ht)).2 ⟨snap, rfl⟩
    refine .touch hgate (.inr (.inl ⟨snap, rfl⟩)) (.of_unchanged (hun.mono hsub) ?_) hfol
    intro run o' ho'
    rw [hlog run o' ho']
    exact hsub
  | store s ph =>
    have hsub := (FmcCall.work_subset (s.call_inFlash ph) hmem).trans (s.call_span_subset ph)
    refine .still (.of_unchanged (hun.mono hsub) (s.page.region_disjoint_meta)
      (s.page.region_disjoint_slot) ?_) hfol hwork
    intro run o' ho'
    rw [hlog run o' ho']
    exact hsub

/-- A publication out of an erase walk. -/
lemma working_publish {o : Ota} {snap : EraseSnapshot} {res : FmcResult} :
    Working o (.returned (.erase snap) res) :=
  .inr (.inl ⟨snap, rfl⟩)

/-- Legal steps of a tidy core are moves. -/
theorem Move.of_step {c c' : Core} {l : Label} (hs : CoreStep c l c') (h : c.Ordered)
    (hl : ∀ p, TornPage c.board c'.board p) : Move c l c' := by
  have hjob : ∀ {o o' : Ota} {pc pc' : BasePc}, o'.sess = o.sess → pc'.job = pc.job →
      Working o' pc' → Working o pc := by
    intro o o' pc pc' hsess hpc hw
    rw [Working, BasePc.Erasing, hsess, hpc] at hw
    exact hw
  cases hs with
  | gated => exact .still (.refl_of_log rfl rfl) ⟨rfl, rfl⟩ id
  | passive => exact .still (.refl_of_log rfl rfl) ⟨rfl, rfl⟩ id
  | request ht hx rule => exact .of_rule h ht rule hl
  | idle => exact .still (.refl_of_log rfl rfl) ⟨rfl, rfl⟩ id
  | idleConfirm => exact .still (.refl_of_log rfl rfl) ⟨rfl, rfl⟩ id
  | snapshot he => exact .still (.refl_of_log rfl rfl) ⟨rfl, rfl⟩ fun _ => .inl he
  | storeStart he =>
    refine .still (.refl_of_log rfl rfl) ⟨rfl, rfl⟩ ?_
    rintro (hw | ⟨snap, hw⟩ | hw)
    · exact .inl hw
    · cases hw
    · exact .inr (.inr hw)
  | @confirm o script r p ht hf hr =>
    have hwrote := Wrote.of_metaCommit o.board (o.board.prepare script) o.run
      (confirmWrite o.run p) rfl rfl
    have hidle : ∀ b, ¬ Working ((o.prepare script).withBoard b) .idle := by
      rintro b (hw | hw | hw)
      · have hw : o.sess.erasing = true := hw
        rw [(h.gated ht).1] at hw
        cases hw
      · exact BasePc.not_erasing_idle hw
      · have hw : o.sess.state = .ready := hw
        rw [(h.gated ht).1] at hw
        cases hw
    generalize metaCommit (o.board.prepare script) o.run (confirmWrite o.run p) = y at hwrote hl ⊢
    obtain ⟨b, _ | _ | _⟩ := y
    · exact .confirm ht hf hr (hwrote hl) trivial (by rintro ⟨⟩)
    · exact .confirm ht hf hr (hwrote hl) ⟨rfl, rfl⟩ (hidle b)
    · exact .confirm ht hf hr (hwrote hl) trivial (by rintro ⟨⟩)
  | refused => exact .still (.refl_of_log rfl rfl) ⟨rfl, rfl⟩ (hjob rfl rfl)
  | @enter o j r pc ha hw hpc =>
    have hst : Still o.board ((o.board.prepare [r]).claim o.run j.call) := by
      refine .of_quiet rfl fun run op hop => ?_
      rcases List.mem_cons.mp hop with he | he <;> cases he
    rcases hpc with ⟨op, os, hwork, rfl⟩ | ⟨-, rfl⟩
    · exact .still hst ⟨rfl, rfl⟩ (hjob rfl rfl)
    · exact .still hst ⟨rfl, rfl⟩ (hjob rfl rfl)
  | @op o j r op os =>
    have key : ∀ {c : Core}, c.board = ((o.board.prepare [r]).exec o.run op).1 → c.Follows o →
        (c.AtWork → Working o (.walk j op os)) → Move (.on o (.walk j op os)) (.base r) c :=
      fun hb => Move.of_op h hb
    rcases walkAfter_cases o j os ((o.board.prepare [r]).exec o.run op).1
      ((o.board.prepare [r]).exec o.run op).2 with hc | ⟨pc', hj, hc⟩ <;> rw [hc]
    · exact key rfl trivial (by rintro ⟨⟩)
    · exact key rfl ⟨rfl, rfl⟩ (hjob rfl hj)
  | release => exact .still (.refl_of_log rfl rfl) ⟨rfl, rfl⟩ (hjob rfl rfl)
  | publish => exact .still (.refl_of_log rfl rfl) ⟨rfl, rfl⟩ fun _ => working_publish
  | @storeNext o s ph r res pc hpc =>
    refine .still (.refl_of_log rfl rfl) ⟨rfl, rfl⟩ ?_
    have hno : ¬ pc.Erasing := by
      rcases hpc with rfl | ⟨ph', rfl⟩ <;> simp [BasePc.Erasing, BasePc.job]
    rintro (hw | hw | hw)
    · exact .inl hw
    · exact absurd hw hno
    · exact .inr (.inr hw)
  | powerOff => exact .still (.refl_of_log rfl rfl) trivial (by rintro ⟨⟩)
  | boot hd rule => exact .of_boot hd rule hl

end Gd32Bridge
