import Gd32Bridge.System.Epoch
import Gd32Bridge.System.Truthful

/-!
# Where the flash is written

`Calls` lists the flash calls a step can make, and `CoreStep.calls` shows that the log of a step
holds these and their operations only.  Every operation therefore stays in the slot that is not
running, in a metadata page or in a boot-config page, and a walk that is complete has erased the
pages of its slot and no others.
-/

namespace Gd32Bridge

open Memory Transition

/-! ### The flash calls of a step -/

/-- The flash calls a step can make, with the slot the code runs from. -/
inductive Calls : Core → Label → Slot → FmcCall → Prop
  | metaErase {c : Core} {l : Label} {run : Slot} {w : MetaWrite} (ha : Attempts c l run w) :
      Calls c l run (.erase (w.pageOn c.flash run).addr otaPageSize)
  | metaProgram {c : Core} {l : Label} {run : Slot} {w : MetaWrite} (ha : Attempts c l run w)
      (hc : (metaSeed c.flash).counter < w.counterCap) :
      Calls c l run (.program (w.pageOn c.flash run).addr (w.apply (metaSeed c.flash)).encode)
  | chunk {o : Ota} {pc : BasePc} {link : Link} {pl : List UInt8} {script : List PhysResult}
      {off : UInt32} {data : List UInt8} (hs : o.sess.state = .ready) (hoff : off.toNat % 8 = 0)
      (hfit : off.toNat + data.length ≤ otaSlotSize.toNat) :
      Calls (.on o pc) (.request link 0xF1 pl script) o.run (.program (o.run.other.base + off) data)
  | job {o : Ota} {pc : BasePc} {j : Job} {r : PhysResult} (hj : pc.job = some j) :
      Calls (.on o pc) (.base r) o.run j.call

/-- The event is the call, or one of its operations. -/
def Event.OfCall (e : Event) (dual : Bool) (run : Slot) (call : FmcCall) : Prop :=
  e = .call run call ∨ ∃ o ∈ call.work dual, e = .op run o

lemma Calls.of_metaCommit (b : Board) {c : Core} {l : Label} {run : Slot} {w : MetaWrite}
    {e : Event} (ha : Attempts c l run w) (hf : b.flash = c.flash) (hd : b.dual = c.board.dual)
    (hlog : b.log = []) (he : e ∈ (metaCommit b run w).1.log) :
    ∃ run call, Calls c l run call ∧ e.OfCall c.board.dual run call := by
  have hcnt : (metaSeed c.flash).counter < w.counterCap := by
    by_contra hge
    have hge : (metaSeed b.flash).counter ≥ w.counterCap := by
      rw [hf]
      exact UInt32.not_lt.mp hge
    simp only [metaCommit, if_pos hge, hlog] at he
    cases he
  obtain ⟨call, hcall, hev⟩ := (metaCommit_log b run w he).resolve_left (by simp [hlog])
  rw [hf] at hcall
  rw [hd] at hev
  rcases hcall with rfl | rfl
  · exact ⟨run, _, .metaErase ha, hev⟩
  · exact ⟨run, _, .metaProgram ha hcnt, hev⟩

/-- The calls of a request. -/
lemma OtaRule.calls {o : Ota} {pc : BasePc} {link : Link} {cmd : UInt8} {pl : List UInt8}
    {script : List PhysResult} {x : Ota × Outcome} {e : Event} (h : Tidy o pc)
    (ht : o.trial = false) (rule : OtaRule (o.prepare script) cmd pl x) (he : e ∈ x.1.board.log) :
    ∃ run call, Calls (.on o pc) (.request link cmd pl script) run call ∧
      e.OfCall o.board.dual run call := by
  cases rule with
  | same | reject | fail | abort | armBlank | replay => cases he
  | verify cap hcmd hs hlen =>
    obtain ⟨p, hv⟩ := hVerify_eq hs hlen cap
    rw [hv] at he
    cases he
  | demote cap cur p hcmd hd =>
    subst hcmd
    rw [demoteEnd_board] at he
    exact Calls.of_metaCommit (o.prepare script).board
      (.demote ht ⟨hd.size, hd.len, hd.current, hd.counter, hd.free⟩) rfl rfl rfl he
  | chunk off top data cap hcmd hs hoff hdata hlen hfit =>
    subst hcmd
    rw [chunkEnd_board] at he
    obtain ⟨-, hev⟩ := (Board.fmcCall_log he).resolve_left (by simp)
    rw [Ota.inactiveBase, Ota.prepare_sess, h.inactive] at hev
    exact ⟨o.run, _, .chunk hs hoff hfit, hev⟩
  | commit hcmd hc =>
    subst hcmd
    rw [commitEnd_board] at he
    exact Calls.of_metaCommit (o.prepare script).board
      (.commit ht ⟨hc.state, hc.len, hc.bootable, hc.capable, hc.floor⟩) rfl rfl rfl he
  | rollback cur p active w hcmd hr hw =>
    subst hcmd
    rw [rollbackEnd_board] at he
    exact Calls.of_metaCommit (o.prepare script).board
      (.rollback ht ⟨hr.state, hr.current, hr.names, hr.floor, hr.ok⟩ hw) rfl rfl rfl he

/-- The log of a step holds its calls and their operations. -/
theorem CoreStep.calls {c c' : Core} {l : Label} {e : Event} (hs : CoreStep c l c')
    (h : c.Ordered) (he : e ∈ c'.board.log) :
    ∃ run call, Calls c l run call ∧ e.OfCall c.board.dual run call := by
  cases hs with
  | gated | passive | idle | idleConfirm | snapshot | storeStart | refused | release | publish
  | storeNext | powerOff => cases he
  | request ht hx rule =>
    rw [Core.after_board] at he
    exact rule.calls h ht he
  | @confirm o script r p ht hf hr =>
    rw [confirmAfter_board] at he
    exact Calls.of_metaCommit (o.board.prepare script) (.confirm ht hf hr) rfl rfl rfl he
  | enter ha hw hpc =>
    refine ⟨_, _, .job rfl, .inl ?_⟩
    exact List.mem_singleton.mp he
  | @op o j r op os =>
    rw [walkAfter_board, Board.exec_log] at he
    have hmem : op ∈ j.call.work o.board.dual := (Tidy.ops h j op os rfl).mem (by simp)
    exact ⟨_, _, .job rfl, .inr ⟨op, hmem, List.mem_singleton.mp he⟩⟩
  | @boot b wdt script dec x hd rule =>
    rw [bootAfter_board] at he
    cases rule with
    | trial | settled => cases he
    | heal n p hr hn hne ht =>
      have hflag : runRecTrial b.flash dec.slot = false := by
        simp only [runRecTrial]
        split
        · next r q hfind => exact hr r q hfind
        · rfl
      exact Calls.of_metaCommit (b.bootBoard script) (.heal hd hflag hn hne ht) rfl rfl rfl he

/-! ### Confinement -/

/-- The cells of the bootloader. -/
def bootloaderRegion : Set ℕ :=
  Set.Ico otaBootloaderBase.toNat (otaBootloaderBase.toNat + otaBootloaderSize.toNat)

/-- Cells that code running from `run` may work on. -/
inductive Confined (run : Slot) (R : Set ℕ) : Prop
  | slot (h : R ⊆ run.other.region)
  | record (p : MetaPage) (h : R ⊆ p.region)
  | config (p : ConfigPage) (h : R ⊆ p.region)

namespace Confined

variable {run : Slot} {R R' : Set ℕ}

lemma mono (h : Confined run R) (hsub : R' ⊆ R) : Confined run R' := by
  cases h with
  | slot h => exact .slot (hsub.trans h)
  | record p h => exact .record p (hsub.trans h)
  | config p h => exact .config p (hsub.trans h)

lemma disjoint_running (h : Confined run R) : Disjoint R run.region := by
  cases h with
  | slot h => exact run.region_disjoint.symm.mono_left h
  | record p h => exact (p.region_disjoint_slot run).mono_left h
  | config p h => exact (p.region_disjoint_slot run).symm.mono_left h

lemma disjoint_bootloader (h : Confined run R) : Disjoint R bootloaderRegion := by
  -- everything above the bootloader is
  have hlow : ∀ {lo n : ℕ}, 0x08008000 ≤ lo → Disjoint (Set.Ico lo (lo + n)) bootloaderRegion := by
    intro lo n hlo
    have hend : otaBootloaderBase.toNat + otaBootloaderSize.toNat = 0x08008000 := rfl
    rw [Set.disjoint_left, bootloaderRegion, hend]
    rintro a ⟨h₁, -⟩ ⟨-, h₂⟩
    omega
  cases h with
  | slot h => exact (hlow (by cases run <;> decide)).mono_left h
  | record p h => exact (hlow (by cases p <;> decide)).mono_left h
  | config p h => exact (hlow (by cases p <;> decide)).mono_left h

end Confined

/-- Every call a step makes stays in the flash and in the cells the running code may work on. -/
lemma Calls.confined {c : Core} {l : Label} {run : Slot} {call : FmcCall} (h : Calls c l run call)
    (ho : c.Ordered) : call.InFlash ∧ Confined run call.span := by
  cases h with
  | metaErase => exact ⟨MetaPage.erase_inFlash _, .record _ subset_rfl⟩
  | metaProgram =>
    exact ⟨MetaPage.program_inFlash _ _, .record _ (MetaPage.program_span_subset _ _)⟩
  | chunk hs hoff hfit =>
    exact ⟨chunk_inFlash _ hoff hfit, .slot (chunk_span_subset _ hoff hfit)⟩
  | @job o pc j r hj =>
    cases j with
    | erase snap =>
      have hat := Tidy.job ho snap hj
      exact ⟨hat.inFlash, .slot hat.span_subset⟩
    | store st ph => exact ⟨st.call_inFlash ph, .config st.page (st.call_span_subset ph)⟩

/-- The slot the code of a step runs from. -/
def Core.Runs : Core → Label → Slot → Prop
  | .on o _, _, run => o.run = run
  | .off b, .boot wdt _, run => ∃ dec, bootDecideSlot b.flash wdt = some dec ∧ dec.slot = run
  | .off _, _, _ => False

lemma Calls.runs {c : Core} {l : Label} {run : Slot} {call : FmcCall} (h : Calls c l run call) :
    c.Runs l run := by
  have hatt : ∀ {c : Core} {l : Label} {run : Slot} {w : MetaWrite}, Attempts c l run w →
      c.Runs l run := by
    intro c l run w ha
    cases ha with
    | demote | commit | rollback | confirm => exact rfl
    | heal hd => exact ⟨_, hd, rfl⟩
  cases h with
  | metaErase ha => exact hatt ha
  | metaProgram ha => exact hatt ha
  | chunk | job => exact rfl

/-- No step changes the bank mode. -/
lemma CoreStep.dual {c c' : Core} {l : Label} (hs : CoreStep c l c') :
    c'.board.dual = c.board.dual := by
  cases hs with
  | gated | passive | idle | idleConfirm | snapshot | storeStart | refused | enter | release
  | publish | storeNext | powerOff => rfl
  | request ht hx rule =>
    rw [Core.after_board]
    exact rule.run_eq.2
  | confirm => rw [confirmAfter_board, metaCommit_dual]; rfl
  | op => rw [walkAfter_board, Board.exec_dual]; rfl
  | boot hd rule =>
    rw [bootAfter_board]
    cases rule with
    | trial | settled => rfl
    | heal n p => exact (metaCommit_dual _ _ _).trans rfl

/-! ### Physical pages -/

/-- The operation erases a page the part has: 256 pages of 2 KB, or two banks of 256 pages of
1 KB. -/
def FlashOp.IsPage (dual : Bool) : FlashOp → Prop
  | erasePage bank1 page => page.toNat < 256 ∧ (bank1 = true → dual = true)
  | programDword _ _ => False

lemma FlashOp.IsPage.eq {dual : Bool} {o o' : FlashOp} (h : o.IsPage dual) (h' : o'.IsPage dual)
    {a : ℕ} (ha : a ∈ o.range dual) (ha' : a ∈ o'.range dual) : o = o' := by
  have hboot : otaBootloaderBase.toNat = 0x08000000 := rfl
  have hbank : otaFmcBank1Base.toNat = 0x08040000 := rfl
  have hs : (fmcPageSize false).toNat = 2048 := rfl
  have hd : (fmcPageSize true).toNat = 1024 := rfl
  match o, o', h, h' with
  | .erasePage bank page, .erasePage bank' page', h, h' =>
    obtain ⟨hp, hb⟩ := h
    obtain ⟨hp', hb'⟩ := h'
    simp only [FlashOp.range, FlashOp.lo, FlashOp.size, Set.mem_Ico] at ha ha'
    -- the bank is the half of the flash, the page the place in it
    have key : bank = bank' ∧ page.toNat = page'.toNat := by
      cases dual <;> cases bank <;> cases bank' <;>
        simp_all only [Bool.and_true, Bool.and_false, if_true, if_false,
          Bool.false_eq_true, true_and, reduceCtorEq, false_and, imp_false, not_true_eq_false] <;>
        omega
    rw [key.1, UInt32.toNat_inj.mp key.2]

/-- `erase_one_page` selects a page the part has. -/
lemma eraseOnePage_isPage {dual : Bool} {addr : UInt32} (hlo : otaBootloaderBase.toNat ≤ addr.toNat)
    (hhi : addr.toNat < flashEnd) : (eraseOnePage dual addr).IsPage dual := by
  have hboot : otaBootloaderBase.toNat = 0x08000000 := rfl
  have hbank : otaFmcBank1Base.toNat = 0x08040000 := rfl
  have hs : (fmcPageSize false).toNat = 2048 := rfl
  have hd : (fmcPageSize true).toNat = 1024 := rfl
  have hsub : (addr - otaBootloaderBase).toNat = addr.toNat - 0x08000000 :=
    UInt32.toNat_sub_of_le _ _ hlo
  simp only [flashEnd] at hhi
  cases dual with
  | false =>
    simp only [eraseOnePage, Bool.false_eq_true, if_false, FlashOp.IsPage, UInt32.toNat_div, hsub, hs]
    exact ⟨by omega, by rintro ⟨⟩⟩
  | true =>
    simp only [eraseOnePage, if_true]
    split_ifs with hb
    · have hb' : otaFmcBank1Base.toNat ≤ addr.toNat := hb
      have hsub' : (addr - otaFmcBank1Base).toNat = addr.toNat - 0x08040000 :=
        UInt32.toNat_sub_of_le _ _ hb
      simp only [FlashOp.IsPage, UInt32.toNat_div, hsub', hd]
      exact ⟨by omega, fun h => h⟩
    · have hb' : addr.toNat < otaFmcBank1Base.toNat := UInt32.not_le.mp hb
      simp only [FlashOp.IsPage, UInt32.toNat_div, hsub, hd]
      exact ⟨by omega, by rintro ⟨⟩⟩

lemma WalkAt.isPage {run : Slot} {at_ end_ : UInt32} (h : WalkAt run at_ end_) {dual : Bool}
    {o : FlashOp} (ho : o ∈ (FmcCall.erase at_ otaPageSize).work dual) : o.IsPage dual := by
  obtain ⟨i, hi, rfl⟩ := List.mem_map.mp ho
  obtain ⟨hlo, hhi, -, -⟩ := h.inFlash
  have hi := List.mem_range.mp hi
  have hstep : i * (fmcPageSize dual).toNat < otaPageSize.toNat :=
    (Nat.mul_lt_mul_of_pos_right hi (fmcPageSize_pos dual)).trans_le (Nat.div_mul_le_self _ _)
  have haddr : (at_ + .ofNat i * fmcPageSize dual).toNat =
      at_.toNat + i * (fmcPageSize dual).toNat := by
    apply walk_toNat
    simp only [flashEnd] at hhi
    omega
  apply eraseOnePage_isPage
  · omega
  · omega

/-! ### A complete walk -/

/-- The page erases the pump has completed so far in this boot. -/
def pumpedAfter (ps : List FlashOp) : Core → Label → List FlashOp
  | .off _, _ => []
  | .on _ (.walk (.erase _) op _), .base .ready => op :: ps
  | _, _ => ps

def pumpedUpd {σ : Type} (ps : List FlashOp) (s : Sys σ) (l : Label) (_ : Sys σ) : List FlashOp :=
  pumpedAfter ps s.core l

/-- The pump adds the page it has just erased. -/
lemma pumpedAfter_cases (ps : List FlashOp) (o : Ota) (pc : BasePc) (l : Label) :
    (∃ snap op os, pc = .walk (.erase snap) op os ∧ l = .base .ready ∧
      pumpedAfter ps (.on o pc) l = op :: ps) ∨ pumpedAfter ps (.on o pc) l = ps := by
  generalize hc : Core.on o pc = c
  simp only [pumpedAfter]
  split
  · cases hc
  · cases hc
    exact .inl ⟨_, _, _, rfl, rfl, rfl⟩
  · exact .inr rfl

lemma mem_pumpedAfter {ps : List FlashOp} (o : Ota) (pc : BasePc) (l : Label) {op : FlashOp}
    (h : op ∈ ps) : op ∈ pumpedAfter ps (.on o pc) l := by
  rcases pumpedAfter_cases ps o pc l with ⟨-, op', -, -, -, heq⟩ | heq
  · rw [heq]
    exact List.mem_cons_of_mem _ h
  · rwa [heq]

/-- A BEGIN has just been accepted: its walk stands at the base of the slot.  A tick of an earlier
walk may still be in flight. -/
structure Armed (o : Ota) (pc : BasePc) : Prop where
  tidy : Tidy o pc
  erasing : o.sess.erasing = true
  busy : o.sess.state = .busy
  at_base : o.sess.eraseAt = o.run.other.base
  stale : ∀ snap, pc.job = some (.erase snap) → snap.epoch ≠ o.sess.eraseEpoch

/-- The pages of the slot that is not running, as far as the walk is concerned. -/
structure Pumped (o : Ota) (ps : List FlashOp) (h : EraseHistory) : Prop where
  sound : ∀ op ∈ ps, op.IsPage o.board.dual ∧ op.range o.board.dual ⊆ o.run.other.region
  clean : o.sess.erasing = true → ∀ a ∈ o.run.other.region, h.clean a = true →
    ∃ op ∈ ps, a ∈ op.range o.board.dual
  complete : o.sess.state = .ready ∨ o.sess.state = .verified →
    ∀ op : FlashOp, op.IsPage o.board.dual → op.range o.board.dual ⊆ o.run.other.region → op ∈ ps

/-- What has cleared the cells of a slot has erased its pages. -/
lemma Pumped.all {o : Ota} {ps : List FlashOp} {h : EraseHistory} (hp : Pumped o ps h)
    (he : o.sess.erasing = true) (hall : ∀ a ∈ o.run.other.region, h.clean a = true) {op : FlashOp}
    (hpage : op.IsPage o.board.dual) (hsub : op.range o.board.dual ⊆ o.run.other.region) :
    op ∈ ps := by
  have hlo : op.lo o.board.dual ∈ op.range o.board.dual := by
    have hpos : 0 < op.size o.board.dual := by
      cases op with
      | erasePage => exact fmcPageSize_pos _
      | programDword => cases hpage
    simp only [FlashOp.range, Set.mem_Ico]
    omega
  obtain ⟨op', hmem, ha⟩ := hp.clean he _ (hsub hlo) (hall _ (hsub hlo))
  rwa [hpage.eq (hp.sound op' hmem).1 hlo ha]

lemma CoreStep.run_eq {o o' : Ota} {pc pc' : BasePc} {l : Label}
    (hs : CoreStep (.on o pc) l (.on o' pc')) : o'.run = o.run := by
  generalize hc' : Core.on o' pc' = c' at hs
  cases hs with
  | gated | passive | idle | idleConfirm | snapshot | storeStart | refused | enter | release
  | publish | storeNext =>
    cases hc'
    rfl
  | @request _ _ link cmd pl script x ht hx rule =>
    obtain ⟨st, p, rfl, rfl⟩ := Core.after_eq_on hc'.symm
    exact rule.run_eq.1
  | confirm =>
    rcases confirmAfter_cases _ _ _ with h | h <;> rw [h] at hc' <;> cases hc'
    rfl
  | op =>
    rcases walkAfter_cases _ _ _ _ _ with h | ⟨_, -, h⟩ <;> rw [h] at hc' <;> cases hc'
    rfl
  | powerOff => cases hc'

/-- Without an accepted BEGIN no walk is armed. -/
lemma SessionStep.erasing {o o' : Ota} {pc : BasePc} {l : Label} (h : SessionStep o pc l o')
    (ha : beginAccepted o l = false) (he : o'.sess.erasing = true) : o.sess.erasing = true := by
  cases h with
  | keep hsess => rwa [hsess] at he
  | request ht hout rule =>
    simp only [beginAccepted, ht, ← hout, Bool.not_false, Bool.true_and] at ha
    generalize o'.sess = s' at rule he
    cases rule with
    | keep | fail | reject | acked | verified => exact he
    | abort => cases he
    | opened ha' =>
      rw [ha] at ha'
      cases ha'
  | publish hpc hsess =>
    rw [hsess] at he
    simp only [otaErasePublish] at he
    split_ifs at he <;> exact he

section

variable {o o' : Ota} {pc pc' : BasePc} {l : Label} {ps : List FlashOp} {h : EraseHistory}

/-- Cells the step has cleared lie in a page the pump has erased. -/
lemma Pumped.clean_step (hs : CoreStep (.on o pc) l (.on o' pc')) (ht : Tidy o pc)
    (hp : Pumped o ps h) (he : o.sess.erasing = true) {a : ℕ} (ha : a ∈ o.run.other.region)
    (hc : (eraseAfter h (.on o pc) l (.on o' pc')).clean a = true) :
    ∃ op ∈ pumpedAfter ps (.on o pc) l, a ∈ op.range o.board.dual := by
  simp only [eraseAfter, Bool.and_eq_true] at hc
  obtain ⟨-, hc⟩ := hc
  split_ifs at hc with htouch
  · -- the step is the completed erase of a page that holds the cell
    obtain ⟨j, bank, page, os, rfl, rfl⟩ := Core.completesErase_on hc
    set op := FlashOp.erasePage bank page
    have hboard : (Core.on o' pc').board = ((o.board.prepare [.ready]).exec o.run op).1 := by
      generalize hc' : Core.on o' pc' = c' at hs
      cases hs with
      | op => rw [walkAfter_board]
    rw [hboard, touches_exec _ _ _ rfl] at htouch
    have hmem : op ∈ j.call.work o.board.dual := (ht.ops j op os rfl).mem (by simp)
    cases j with
    | erase snap => exact ⟨op, List.mem_cons_self .., htouch⟩
    | store st ph =>
      have hsub := (FmcCall.work_subset (st.call_inFlash ph) hmem).trans (st.call_span_subset ph)
      exact absurd (hsub htouch)
        (Set.disjoint_left.mp (st.page.region_disjoint_slot o.run.other) ha)
  · obtain ⟨op, hmem, hop⟩ := hp.clean he a ha hc
    exact ⟨op, mem_pumpedAfter o pc l hmem, hop⟩

/-- Without an accepted BEGIN the session becomes READY by completing its walk only. -/
lemma Pumped.complete_step (hs : CoreStep (.on o pc) l (.on o' pc')) (ht : Tidy o pc)
    (hb : h.bumps < 2 ^ 32) (hw : Walked o pc h) (hacc : beginAccepted o l = false)
    (hp : Pumped o ps h) (hst : o'.sess.state = .ready ∨ o'.sess.state = .verified) {op : FlashOp}
    (hpage : op.IsPage o.board.dual) (hsub : op.range o.board.dual ⊆ o.run.other.region) :
    op ∈ ps := by
  cases SessionStep.of_step hs with
  | keep hsess =>
    rw [hsess] at hst
    exact hp.complete hst op hpage hsub
  | request hg hout rule =>
    simp only [beginAccepted, hg, ← hout, Bool.not_false, Bool.true_and] at hacc
    generalize o'.sess = s' at rule hst
    cases rule with
    | keep => exact hp.complete hst op hpage hsub
    | fail | reject | abort => rcases hst with hst | hst <;> cases hst
    | opened ha =>
      rw [hacc] at ha
      cases ha
    | acked _ hs' => exact hp.complete (.inl hs') op hpage hsub
    | verified hs' => exact hp.complete (.inl hs') op hpage hsub
  | @publish snap res r _ hpc hsess =>
    subst hpc
    rw [hsess] at hst
    simp only [otaErasePublish] at hst
    split_ifs at hst with hstale hres hend hbusy
    · exact hp.complete hst op hpage hsub
    · rcases hst with hst | hst <;> cases hst
    · rw [not_or, not_not, Bool.not_eq_true', Bool.not_eq_false] at hstale
      rw [not_not] at hres
      subst hres
      refine hp.all hstale.1 (fun a ha => ?_) hpage hsub
      refine hw.published ht hb hstale.1 hstale.2 ha.1 ?_
      have hsz : (o.run.other.base + otaSlotSize).toNat =
          o.run.other.base.toNat + otaSlotSize.toNat := by cases o.run <;> decide
      have hend : (o.run.other.base + otaSlotSize).toNat ≤ (snap.at_ + otaPageSize).toNat := by
        rw [← (ht.job snap rfl).1]
        exact hend
      have := ha.2
      omega
    · exact hp.complete hst op hpage hsub
    · exact hp.complete hst op hpage hsub

theorem Pumped.step (hs : CoreStep (.on o pc) l (.on o' pc')) (ht : Tidy o pc)
    (hb : h.bumps < 2 ^ 32) (hw : Walked o pc h) (hacc : beginAccepted o l = false)
    (hp : Pumped o ps h) :
    Pumped o' (pumpedAfter ps (.on o pc) l) (eraseAfter h (.on o pc) l (.on o' pc')) := by
  have hdual : o'.board.dual = o.board.dual := hs.dual
  have hrun := hs.run_eq
  constructor
  · intro op hop
    rw [hdual, hrun]
    rcases pumpedAfter_cases ps o pc l with ⟨snap, op', os, rfl, -, heq⟩ | heq
    · rw [heq, List.mem_cons] at hop
      rcases hop with rfl | hop
      · have hat := ht.job snap rfl
        have hmem := (ht.ops _ op os rfl).mem (List.mem_cons_self ..)
        exact ⟨hat.isPage hmem, (FmcCall.work_subset hat.inFlash hmem).trans hat.span_subset⟩
      · exact hp.sound op hop
    · rw [heq] at hop
      exact hp.sound op hop
  · intro he a ha hc
    rw [hrun] at ha
    rw [hdual]
    exact hp.clean_step hs ht ((SessionStep.of_step hs).erasing hacc he) ha hc
  · intro hst op hpage hsub
    rw [hdual] at hpage
    rw [hdual, hrun] at hsub
    exact mem_pumpedAfter o pc l (hp.complete_step hs ht hb hw hacc hst hpage hsub)

end

/-! ### The start of a walk -/

/-- An erase tick in flight belongs to an earlier walk. -/
def Core.Stale : Core → Prop
  | .off _ => True
  | .on o pc => ∀ snap, pc.job = some (.erase snap) → snap.epoch ≠ o.sess.eraseEpoch

lemma acceptsBegin_eq_true {cmd : UInt8} {out : Outcome} (h : acceptsBegin cmd out = true) :
    cmd = 0xF0 := by
  cases out with
  | reply st p =>
    simp only [acceptsBegin, Bool.and_eq_true, beq_iff_eq] at h
    exact h.1
  | reset | powerLost => cases h

/-- An accepted BEGIN arms the walk at the base of the slot. -/
lemma Armed.of_accepted {o o' : Ota} {pc pc' : BasePc} {l : Label}
    (hs : CoreStep (.on o pc) l (.on o' pc')) (ht : Tidy o' pc') (ha : beginAccepted o l = true)
    (hstale : (Core.on o' pc').Stale) : Armed o' pc' := by
  have hrun := hs.run_eq
  cases SessionStep.of_step hs with
  | keep _ hno =>
    rw [ha] at hno
    cases hno
  | request hg hout rule =>
    simp only [beginAccepted, hg, ← hout, Bool.not_false, Bool.true_and] at ha
    have hcmd := acceptsBegin_eq_true ha
    generalize hsess : o'.sess = s' at rule
    cases rule with
    | keep hno =>
      rw [ha] at hno
      cases hno
    | fail _ _ hb => exact absurd hcmd hb
    | reject _ hno =>
      rw [ha] at hno
      cases hno
    | abort hab => exact absurd (hcmd.symm.trans hab) (by decide)
    | opened =>
      refine ⟨ht, ?_, ?_, ?_, hstale⟩
      · rw [hsess]
        rfl
      · rw [hsess]
        rfl
      · rw [hsess, hrun]
        rfl
    | acked _ _ hw => exact absurd (hcmd.symm.trans hw) (by decide)
    | verified _ hv => exact absurd (hcmd.symm.trans hv) (by decide)
  | publish => cases ha

/-- The history at the start of a walk: a tick in flight has seen the bumps since its snapshot. -/
def armedHistory (o : Ota) (pc : BasePc) : EraseHistory where
  clean _ := false
  bumps := match pc.job with
    | some (.erase snap) => (o.sess.eraseEpoch - snap.epoch).toNat
    | _ => 0
  live := true

def Core.startHistory : Core → EraseHistory
  | .off _ => .none
  | .on o pc => armedHistory o pc

lemma Armed.walked {o : Ota} {pc : BasePc} (h : Armed o pc) : Walked o pc (armedHistory o pc) := by
  have hbumps : ∀ snap, pc.job = some (.erase snap) →
      (armedHistory o pc).bumps = (o.sess.eraseEpoch - snap.epoch).toNat := by
    intro snap hj
    simp only [armedHistory, hj]
  have hne : ∀ snap, pc.job = some (.erase snap) → (armedHistory o pc).bumps ≠ 0 := by
    intro snap hj h0
    rw [hbumps snap hj] at h0
    have hzero : o.sess.eraseEpoch - snap.epoch = 0 := UInt32.toNat_inj.mp h0
    refine h.stale snap hj ?_
    rw [← UInt32.sub_add_cancel o.sess.eraseEpoch snap.epoch, hzero, UInt32.zero_add]
  constructor
  case cleared =>
    intro _ a h₁ h₂
    rw [h.at_base] at h₂
    omega
  case epoch =>
    intro snap hj
    rw [hbumps snap hj, UInt32.ofNat_toNat, UInt32.add_comm, UInt32.sub_add_cancel]
  case current => exact fun snap hj h0 => absurd h0 (hne snap hj)
  case ahead =>
    intro snap hj _
    obtain ⟨-, k, -, hk⟩ := h.tidy.job snap hj
    rw [h.at_base, hk]
    exact Nat.le_add_right _ _
  case progress =>
    intro h0
    cases pc with
    | idle | call => trivial
    | walk j | ended j | returned j =>
      cases j with
      | erase snap => exact absurd h0 (hne snap rfl)
      | store => trivial
  case live => exact fun _ => rfl

lemma Armed.pumped {o : Ota} {pc : BasePc} (h : Armed o pc) : Pumped o [] (armedHistory o pc) where
  sound := nofun
  clean _ _ _ hc := by cases hc
  complete hst := by rcases hst with hst | hst <;> rw [h.busy] at hst <;> cases hst

/-! ### Every run -/

section

variable {σ : Type} {hal : Hal σ}

/-- A BEGIN has just been accepted in some state of some run. -/
def Begun (hal : Hal σ) (x : Sys σ × List FlashOp) : Prop :=
  x.2 = [] ∧ ∃ s l, Reach (step hal) Sys.Unpowered (fun _ _ _ => True) s ∧
    step hal s l = some x.1 ∧ s.core.accepts l = true ∧ x.1.core.Stale

/-- No further BEGIN is accepted, and none of them or an ABORT cancels the session. -/
def SameSession (x : Sys σ × List FlashOp) (l : Label) (_ : Sys σ × List FlashOp) : Prop :=
  x.1.core.accepts l = false ∧ x.1.core.cancels l = false

/-- What is known along a walk. -/
def Core.Walking (ps : List FlashOp) (h : EraseHistory) : Core → Prop
  | .off _ => True
  | .on o pc => Gd32Bridge.Walked o pc h ∧ Pumped o ps h

lemma bumps_of_quiet {h : EraseHistory} {c c' : Core} {l : Label} (ha : c.accepts l = false)
    (hc : c.cancels l = false) : (eraseAfter h c l c').bumps ≤ h.bumps := by
  simp only [eraseAfter, ha, hc, Bool.or_self, Bool.false_eq_true, if_false]
  split_ifs <;> omega

lemma Pumped.of_boot {b : Board} {o : Ota} {pc : BasePc} {l : Label}
    (hs : CoreStep (.off b) l (.on o pc)) (h : EraseHistory) : Pumped o [] h := by
  obtain ⟨hsess, -⟩ := hs.boot_sess
  constructor
  · exact nofun
  · intro he
    rw [hsess] at he
    cases he
  · intro hst
    rw [hsess] at hst
    rcases hst with hst | hst <;> cases hst

/-- The history can be followed along every walk. -/
lemma reach_walking {x : (Sys σ × List FlashOp) × EraseHistory}
    (h : Reach (withHistory (withHistory (step hal) pumpedUpd)
        fun e p l q => eraseUpd e p.1 l q.1)
      (fun x => Begun hal x.1 ∧ x.2 = x.1.1.core.startHistory)
      (fun x l y => SameSession x.1 l y.1) x) :
    x.2.bumps < 2 ^ 32 ∧ x.1.1.core.Ordered ∧ x.1.1.core.Walking x.1.2 x.2 := by
  apply Reach.invariant (I := fun x : (Sys σ × List FlashOp) × EraseHistory =>
    x.2.bumps < 2 ^ 32 ∧ x.1.1.core.Ordered ∧ x.1.1.core.Walking x.1.2 x.2) ?_ ?_ h
  · rintro ⟨⟨s, ps⟩, e⟩ ⟨⟨hps, s₀, l, hr, hstep, hacc, hstale⟩, he⟩
    simp only at hps he hstep hstale
    subst hps he
    have hc : CoreStep s₀.core l s.core := .of_step hstep
    have ho := (reach_ordered hr).step hc
    cases s with
    | off b => exact ⟨Nat.two_pow_pos 32, ho, trivial⟩
    | on d pc =>
      cases s₀ with
      | off b => cases hacc
      | on d₀ pc₀ =>
        have harm := Armed.of_accepted hc ho hacc hstale
        refine ⟨?_, ho, harm.walked, harm.pumped⟩
        simp only [Sys.core, Core.startHistory, armedHistory]
        split
        · exact UInt32.toNat_lt _
        · exact Nat.two_pow_pos 32
  · rintro ⟨⟨s, ps⟩, e⟩ l ⟨⟨s', ps'⟩, e'⟩ - ⟨hb, ho, hw⟩ hs ⟨hacc, hcan⟩
    obtain ⟨hp, he⟩ := withHistory_eq_some.mp hs
    obtain ⟨hstep, hps⟩ := withHistory_eq_some.mp hp
    simp only at hb ho hw hstep he hps hacc hcan ⊢
    subst he hps
    have hc : CoreStep s.core l s'.core := .of_step hstep
    have ho' := ho.step hc
    refine ⟨(bumps_of_quiet hacc hcan).trans_lt hb, ho', ?_⟩
    cases s' with
    | off b => trivial
    | on d' pc' =>
      cases s with
      | off b =>
        have hw' := Core.Walked.step (h := e) hc ho hb trivial
        exact ⟨hw', .of_boot hc _⟩
      | on d pc =>
        obtain ⟨hwalk, hp⟩ := hw
        have hw' := Core.Walked.step (h := e) hc ho hb hwalk
        exact ⟨hw', hp.step hc ho hb hwalk hacc⟩

/-- In every run, whatever requests, ticks, faults and boots it is made of, every page erased and
every doubleword programmed lies in the slot that is not running, in a metadata page or in a
boot-config page, and so outside the bootloader and the running slot.  A walk that brings the
session of its BEGIN to READY has erased the pages of the slot and no others, in either bank
mode. -/
theorem flash_confined (hal : Hal σ) :
    (∀ (s s' : Sys σ) (l : Label) (run : Slot) (o : FlashOp),
      Reach (step hal) Sys.Unpowered (fun _ _ _ => True) s → step hal s l = some s' →
      Event.op run o ∈ s'.board.log →
      s.core.Runs l run ∧ Confined run (o.range s'.board.dual) ∧
        Disjoint (o.range s'.board.dual) bootloaderRegion ∧
        Disjoint (o.range s'.board.dual) run.region) ∧
    (∀ (x : Sys σ × List FlashOp) (d : Device σ) (pc : BasePc),
      Reach (withHistory (step hal) pumpedUpd) (Begun hal) SameSession x → x.1 = .on d pc →
      d.ota.sess.state = .ready → ∀ op : FlashOp,
      op ∈ x.2 ↔ op.IsPage d.ota.board.dual ∧
        op.range d.ota.board.dual ⊆ d.ota.run.other.region) := by
  constructor
  · intro s s' l run o hr hs he
    have hc : CoreStep s.core l s'.core := .of_step hs
    have ho := reach_ordered hr
    rw [← Sys.core_board] at he
    obtain ⟨run', call, hcall, hev⟩ := hc.calls ho he
    obtain ⟨hin, hconf⟩ := hcall.confined ho
    rcases hev with hev | ⟨o', ho', hev⟩
    · cases hev
    · cases hev
      rw [← Sys.core_board s', hc.dual]
      have hconf := hconf.mono (FmcCall.work_subset hin ho')
      exact ⟨hcall.runs, hconf, hconf.disjoint_bootloader, hconf.disjoint_running⟩
  · intro x d pc hr hx hready op
    obtain ⟨e, he⟩ := hr.remember (fun e p l q => eraseUpd e p.1 l q.1)
      (fun x => Begun hal x.1 ∧ x.2 = x.1.1.core.startHistory) fun x hb =>
        ⟨x.1.core.startHistory, hb, rfl⟩
    obtain ⟨-, -, hw⟩ := reach_walking he
    rw [hx] at hw
    obtain ⟨-, hp⟩ := hw
    exact ⟨hp.sound op, fun h => hp.complete (.inl hready) op h.1 h.2⟩

end

/-! ### A walk in dual-bank mode -/

/-- The sample device in dual-bank mode, and the request that opens a session on it. -/
def dualDevice : Sys Unit := .off { sampleBoard with dual := true }

def dualBegin : Label :=
  .request .spi 0xF0 [84, 0, 0, 0, 0, 0, 0, 0] []

/-- The ticks of a whole walk, two pages each. -/
def dualWalk : List Label :=
  (List.replicate slotRegions (.eraseTick :: List.replicate 5 (.base .ready))).flatten

/-- `SameSession` as a test. -/
def sameSessionCheck (x : Sys Unit × List FlashOp) (l : Label) (_ : Sys Unit × List FlashOp) :
    Bool :=
  !x.1.core.accepts l && !x.1.core.cancels l

/-- The session is READY. -/
def readyCheck (x : Sys Unit × List FlashOp) : Bool :=
  match x.1 with
  | .on d _ => d.ota.board.dual && d.ota.sess.state == .ready
  | .off _ => false

/-- The BEGIN is accepted here while the main loop is idle, and the walk ends in READY. -/
def dualWalkCheck (s : Sys Unit) : Bool :=
  match step .stub s dualBegin with
  | some (.on d .idle) => s.core.accepts dualBegin &&
    (run (withHistory (step .stub) pumpedUpd) sameSessionCheck (.on d .idle, []) dualWalk).any readyCheck
  | _ => false

set_option maxRecDepth 20000 in
lemma dualWalkCheck_sample : (run (step .stub) (fun _ _ _ => true) dualDevice
    [.boot false []]).any dualWalkCheck = true := by
  decide +kernel

/-- The walk of the sample device in dual-bank mode is complete, and has erased the pages of
slot B. -/
theorem flash_confined_dual_walk :
    ∃ (x : Sys Unit × List FlashOp) (d : Device Unit) (pc : BasePc),
      Reach (withHistory (step .stub) pumpedUpd) (Begun .stub) SameSession x ∧ x.1 = .on d pc ∧
      d.ota.board.dual = true ∧ d.ota.sess.state = .ready ∧
      ∀ op : FlashOp, op ∈ x.2 ↔ op.IsPage true ∧ op.range true ⊆ d.ota.run.other.region := by
  have hoff : Reach (step .stub) Sys.Unpowered (fun _ _ _ => True) dualDevice := .start trivial
  obtain ⟨s, hr, hcheck⟩ := hoff.exists_of_run (fun _ _ _ => true) dualWalkCheck [.boot false []]
    (fun _ _ _ _ => trivial) dualWalkCheck_sample
  simp only [dualWalkCheck] at hcheck
  split at hcheck
  · next d hd =>
    rw [Bool.and_eq_true] at hcheck
    have hinit : Reach (withHistory (step .stub) pumpedUpd) (Begun .stub) SameSession
        (.on d .idle, []) := .start ⟨rfl, s, dualBegin, hr, hd, hcheck.1, nofun⟩
    obtain ⟨x, hx, hq⟩ := hinit.exists_of_run sameSessionCheck readyCheck dualWalk
      (fun x l y h => by simpa [sameSessionCheck, SameSession] using h) hcheck.2
    obtain ⟨s', ps⟩ := x
    cases s' with
    | off b => cases hq
    | on d' pc' =>
      simp only [readyCheck, Bool.and_eq_true, beq_iff_eq] at hq
      have hpages := (flash_confined .stub).2 _ d' pc' hx rfl hq.2
      rw [hq.1] at hpages
      exact ⟨_, d', pc', hx, rfl, hq.1, hq.2, hpages⟩
  · cases hcheck

end Gd32Bridge
