import Gd32Bridge.BootConfig.Pages
import Gd32Bridge.System.Confined

/-!
# The cached boot configuration

While no SET is queued, the flags in RAM are the flags a boot would load.  The queue is filled by
requests and emptied by the store; nothing but a store works on the boot-config pages.  The cache
is updated only by a store that reports success, so the two part when the last program operation
of a store reports a failure although its doubleword has landed.
-/

namespace Gd32Bridge

open Memory Transition

variable {σ : Type}

/-! ### Who works on the pages -/

/-- The boot-config pages are as before. -/
def SameConfig (f f' : Flash) : Prop :=
  ∀ p : ConfigPage, ∀ a ∈ p.region, f' a = f a

namespace SameConfig

variable {f f' : Flash}

lemma refl (f : Flash) : SameConfig f f := fun _ _ _ => rfl

lemma of_unchanged {R : Set ℕ} (h : Unchanged R f f') (hd : ∀ p : ConfigPage, Disjoint R p.region) :
    SameConfig f f' :=
  fun p _ ha => h.apply (Set.disjoint_right.mp (hd p) ha)

lemma unchanged (h : SameConfig f f') (p : ConfigPage) : Unchanged p.regionᶜ f f' := by
  intro a ha
  rw [compl_compl] at ha
  exact h p a ha

lemma readPage (h : SameConfig f f') (p : ConfigPage) :
    bootConfigReadPage f' p = bootConfigReadPage f p :=
  bootConfigReadPage_unchanged (h.unchanged p) disjoint_compl_right

lemma newest (h : SameConfig f f') : configNewestRecord f' = configNewestRecord f := by
  simp only [configNewestRecord, h.readPage]

lemma payloadAt (h : SameConfig f f') (p : ConfigPage) : p.payloadAt f' = p.payloadAt f := by
  refine ConfigPage.payloadAt_congr (h.unchanged p) (disjoint_compl_right.mono_left ?_)
  rw [p.region_eq]
  exact Set.Ico_subset_Ico_right (by omega)

lemma commitAt (h : SameConfig f f') (p : ConfigPage) : p.commitAt f' = p.commitAt f := by
  refine ConfigPage.commitAt_congr (h.unchanged p) (disjoint_compl_right.mono_left ?_)
  rw [p.region_eq]
  exact Set.Ico_subset_Ico (by omega) (by omega)

lemma found (h : SameConfig f f') {s : ConfigStore} {ph : StorePhase} (hf : ph.Found s f) :
    ph.Found s f' := by
  cases ph with
  | erase => trivial
  | payload => exact ⟨(h.payloadAt _).trans hf.1, (h.commitAt _).trans hf.2⟩
  | commit => exact ⟨(h.payloadAt _).trans hf.1, (h.commitAt _).trans hf.2⟩

lemma of_metaCommit (b : Board) (run : Slot) (w : MetaWrite) :
    SameConfig b.flash (metaCommit b run w).1.flash :=
  .of_unchanged (metaCommit_unchanged b run w) fun p => p.region_disjoint_meta _

end SameConfig

/-- A load depends on the newest record only. -/
lemma bootConfigLoad_congr {f f' : Flash} (h : configNewestRecord f' = configNewestRecord f) :
    bootConfigLoad f' = bootConfigLoad f := by
  simp only [bootConfigLoad, h]

/-- An OTA request keeps out of the pages. -/
lemma OtaRule.sameConfig {o : Ota} {pc : BasePc} {cmd : UInt8} {pl : List UInt8}
    {script : List PhysResult} {x : Ota × Outcome} (h : Tidy o pc)
    (rule : OtaRule (o.prepare script) cmd pl x) : SameConfig o.board.flash x.1.board.flash := by
  cases rule with
  | same | reject | fail | abort | armBlank | replay => exact .refl _
  | verify cap hcmd hs hlen =>
    obtain ⟨p, hv⟩ := hVerify_eq hs hlen cap
    rw [hv]
    exact .refl _
  | demote =>
    rw [demoteEnd_board]
    exact .of_metaCommit (o.prepare script).board _ _
  | chunk off top data cap hcmd hs hoff hdata hlen hfit =>
    rw [chunkEnd_board, otaFmcProgram, Ota.inactiveBase, Ota.prepare_sess, h.inactive]
    refine .of_unchanged (Board.fmcCall_unchanged (chunk_inFlash _ hoff hfit)) fun p => ?_
    exact (p.region_disjoint_slot _).mono_left (chunk_span_subset _ hoff hfit)
  | commit =>
    rw [commitEnd_board]
    exact .of_metaCommit (o.prepare script).board _ _
  | rollback =>
    rw [rollbackEnd_board]
    exact .of_metaCommit (o.prepare script).board _ _

/-- Base-level code is about to make a physical operation of a store. -/
def Core.Storing : Core → Prop
  | .on _ (.walk (.store _ _) _ _) => True
  | _ => False

/-- Nothing but the operations of a store works on the pages. -/
theorem CoreStep.sameConfig {c c' : Core} {l : Label} (hs : CoreStep c l c') (ho : c.Ordered)
    (hw : ∀ r, l = .base r → ¬ c.Storing) : SameConfig c.flash c'.flash := by
  cases hs with
  | gated | passive | idle | idleConfirm | snapshot | storeStart | refused | enter | release
  | publish | storeNext | powerOff => exact .refl _
  | request ht hx rule =>
    simp only [Core.flash, Core.after_board]
    exact rule.sameConfig ho
  | @confirm o script r p =>
    simp only [Core.flash, confirmAfter_board]
    exact .of_metaCommit (o.board.prepare script) _ _
  | @op o j r op os =>
    simp only [Core.flash, walkAfter_board]
    cases j with
    | store st ph => exact absurd trivial (hw r rfl)
    | erase snap =>
      have hat := Tidy.job ho snap rfl
      have hmem : op ∈ (FmcCall.erase snap.at_ otaPageSize).work o.board.dual :=
        (Tidy.ops ho _ op os rfl).mem (List.mem_cons_self ..)
      have hsub := (FmcCall.work_subset hat.inFlash hmem).trans hat.span_subset
      exact .of_unchanged (Board.exec_unchanged (o.board.prepare [r]) o.run op) fun p =>
        (p.region_disjoint_slot _).mono_left hsub
  | @boot b wdt script dec x hd rule =>
    simp only [Core.flash, bootAfter_board]
    cases rule with
    | trial | settled => exact .refl _
    | heal => exact .of_metaCommit (b.bootBoard script) _ _

/-! ### The invariant -/

/-- The cache holds what a boot would load. -/
def Coherent (f : Flash) (c : BootConfig) : Prop :=
  c.stored = (bootConfigLoad f).stored

/-- A store is about to make the call of a phase. -/
structure StoreReady (f : Flash) (c : BootConfig) (s : ConfigStore) (ph : StorePhase) : Prop where
  queued : c.pending = some s.flags
  coherent : Coherent f c
  planned : Planned f s
  found : ph.Found s f

/-- The call of a phase has succeeded. -/
def StoreDone (f : Flash) (c : BootConfig) (s : ConfigStore) : StorePhase → Prop
  | .erase => StoreReady f c s .payload
  | .payload => StoreReady f c s .commit
  | .commit => c.pending = some s.flags ∧ s.record.flags = s.flags &&& bootConfigKnownFlags ∧
    s.Landed f

/-- What holds when the flash call of a job ends. -/
def JobEnd (f : Flash) (c : BootConfig) : Job → FmcResult → Prop
  | .store s ph, .ok => StoreDone f c s ph
  | _, _ => Coherent f c

/-- A store in the middle of a call: the operations already made have put their part of the
content in place. -/
structure StoreWalk (f : Flash) (dual : Bool) (c : BootConfig) (s : ConfigStore) (ph : StorePhase)
    (o : FlashOp) (os : List FlashOp) : Prop where
  ready : StoreReady f c s ph
  single : ph = .erase ∨ os = []
  progress : ∀ a ∈ (s.call ph).span, (∀ o' ∈ o :: os, a ∉ o'.range dual) →
    f a = (s.call ph).content a

/-- The cache against the flash, wherever the main loop stands. -/
def CacheAt (f : Flash) (dual : Bool) (c : BootConfig) : BasePc → Prop
  | .idle => Coherent f c
  | .call (.store s ph) => StoreReady f c s ph
  | .call (.erase _) => Coherent f c
  | .walk (.store s ph) o os => StoreWalk f dual c s ph o os
  | .walk (.erase _) _ _ => Coherent f c
  | .ended j r => JobEnd f c j r
  | .returned j r => JobEnd f c j r

/-- The invariant of a running device. -/
structure CacheOk (d : Device σ) (pc : BasePc) : Prop where
  at_ : CacheAt d.ota.board.flash d.ota.board.dual d.cfg pc
  known : ∀ flags, d.cfg.pending = some flags → flags &&& ~~~bootConfigKnownFlags = 0

section

variable {f f' : Flash} {c c' : BootConfig} {s : ConfigStore} {ph : StorePhase}

lemma Coherent.congr (h : Coherent f c) (hf : configNewestRecord f' = configNewestRecord f) :
    Coherent f' c := by
  rw [Coherent, bootConfigLoad_congr hf]
  exact h

lemma SameConfig.storeReady (h : SameConfig f f') (hr : StoreReady f c s ph) :
    StoreReady f' c s ph where
  queued := hr.queued
  coherent := hr.coherent.congr h.newest
  planned := hr.planned.congr h.newest
  found := h.found hr.found

lemma SameConfig.jobEnd (h : SameConfig f f') {j : Job} {r : FmcResult} (hj : JobEnd f c j r) :
    JobEnd f' c j r := by
  cases j with
  | erase snap => exact Coherent.congr hj h.newest
  | store s ph =>
    cases r with
    | error => exact Coherent.congr hj h.newest
    | timeout => exact Coherent.congr hj h.newest
    | ok =>
      cases ph with
      | erase => exact h.storeReady hj
      | payload => exact h.storeReady hj
      | commit =>
        obtain ⟨hq, hfl, hread, hnew⟩ := hj
        exact ⟨hq, hfl, (h.readPage _).trans hread, h.newest.trans hnew⟩

/-- What leaves the pages alone leaves the invariant alone. -/
lemma SameConfig.cacheAt (h : SameConfig f f') {dual : Bool} {pc : BasePc}
    (hc : CacheAt f dual c pc) : CacheAt f' dual c pc := by
  cases pc with
  | idle => exact Coherent.congr hc h.newest
  | call j =>
    cases j with
    | erase snap => exact Coherent.congr hc h.newest
    | store s ph => exact h.storeReady hc
  | walk j o os =>
    cases j with
    | erase snap => exact Coherent.congr hc h.newest
    | store s ph =>
      refine ⟨h.storeReady hc.ready, hc.single, fun a ha hout => ?_⟩
      rw [h s.page a (s.call_span_subset ph ha)]
      exact hc.progress a ha hout
  | ended j r => exact h.jobEnd hc
  | returned j r => exact h.jobEnd hc

/-- A store under way has its own SET in the queue. -/
lemma StoreReady.not_empty (h : StoreReady f c s ph) : c.pending ≠ none := by
  rw [h.queued]
  exact nofun

lemma JobEnd.coherent {j : Job} {r : FmcResult} (h : JobEnd f c j r) (hp : c.pending = none) :
    Coherent f c ∧ ∀ c', Coherent f c' → JobEnd f c' j r := by
  cases j with
  | erase snap => exact ⟨h, fun _ h' => h'⟩
  | store s ph =>
    cases r with
    | error => exact ⟨h, fun _ h' => h'⟩
    | timeout => exact ⟨h, fun _ h' => h'⟩
    | ok =>
      cases ph with
      | erase => exact absurd hp (StoreReady.not_empty h)
      | payload => exact absurd hp (StoreReady.not_empty h)
      | commit =>
        have hq := h.1
        rw [hp] at hq
        cases hq

/-- With an empty queue the invariant says that the cache is coherent, and no more. -/
lemma CacheAt.coherent {dual : Bool} {pc : BasePc} (h : CacheAt f dual c pc)
    (hp : c.pending = none) : Coherent f c ∧ ∀ c', Coherent f c' → CacheAt f dual c' pc := by
  cases pc with
  | idle => exact ⟨h, fun _ h' => h'⟩
  | call j =>
    cases j with
    | erase snap => exact ⟨h, fun _ h' => h'⟩
    | store s ph => exact absurd hp (StoreReady.not_empty h)
  | walk j o os =>
    cases j with
    | erase snap => exact ⟨h, fun _ h' => h'⟩
    | store s ph => exact absurd hp h.ready.not_empty
  | ended j r => exact JobEnd.coherent h hp
  | returned j r => exact JobEnd.coherent h hp

end

/-! ### One step -/

section

variable {hal : Hal σ} {d d' : Device σ} {pc pc' : BasePc}

/-- A step that leaves the pages and the main loop where they are. -/
lemma CacheOk.frame (h : CacheOk d pc)
    (hsame : SameConfig d.ota.board.flash d'.ota.board.flash)
    (hdual : d'.ota.board.dual = d.ota.board.dual) (hcfg : CfgRule d.cfg d'.cfg) :
    CacheOk d' pc := by
  have hat := hsame.cacheAt h.at_
  rw [← hdual] at hat
  generalize hc : d'.cfg = c at hcfg
  cases hcfg with
  | same =>
    refine ⟨by rw [hc]; exact hat, ?_⟩
    rw [hc]
    exact h.known
  | queued flags hp hne hk =>
    obtain ⟨hco, hother⟩ := hat.coherent hp
    refine ⟨by rw [hc]; exact hother _ hco, fun fl hfl => ?_⟩
    rw [hc] at hfl
    cases hfl
    exact hk

lemma CacheOk.request {link : Link} {cmd : UInt8} {pl : List UInt8} {script : List PhysResult}
    (ho : Tidy d.ota pc) (h : CacheOk d pc)
    (hs : step hal (.on d pc) (.request link cmd pl script) = some (.on d' pc')) :
    CacheOk d' pc' := by
  have hcore : CoreStep (.on d.ota pc) _ (.on d'.ota pc') := .of_step hs
  have hsame : SameConfig d.ota.board.flash d'.ota.board.flash := hcore.sameConfig ho (by rintro _ ⟨⟩)
  have hrule := (protocolDispatch_frame hal link cmd (d.prepare script) pl maxPayloadBytes).1
  simp only [step] at hs
  split_ifs at hs
  simp only [Sys.request] at hs
  generalize protocolDispatch hal false link cmd (d.prepare script) pl maxPayloadBytes = x
    at hs hrule
  obtain ⟨d₁, out⟩ := x
  cases out with
  | reply st p =>
    cases hs
    exact h.frame hsame hcore.dual hrule
  | reset => cases hs
  | powerLost => cases hs

/-- The flags of a queued SET are known ones. -/
lemma and_known_of_known {flags : UInt32} (h : flags &&& ~~~bootConfigKnownFlags = 0) :
    flags &&& bootConfigKnownFlags = flags := by
  apply UInt32.toBitVec_inj.mp
  refine BitVec.eq_of_getLsbD_eq fun i hi => ?_
  have hbit := congrArg (fun v : UInt32 => v.toBitVec.getLsbD i) h
  simp only [UInt32.toBitVec_and, UInt32.toBitVec_not, BitVec.getLsbD_and, BitVec.getLsbD_not, hi,
    decide_true, Bool.true_and] at hbit ⊢
  rw [show (0 : UInt32).toBitVec.getLsbD i = false from BitVec.getLsbD_zero] at hbit
  revert hbit
  cases flags.toBitVec.getLsbD i <;> cases bootConfigKnownFlags.toBitVec.getLsbD i <;> decide

lemma CacheOk.finish {f : Flash} {c : BootConfig} {flags : UInt32} {r : FmcResult}
    (hc : r ≠ .ok → Coherent f c) (hok : r = .ok → (bootConfigLoad f).stored = flags) :
    Coherent f (bootConfigFinish c flags r) := by
  by_cases hr : r = .ok
  · simp only [Coherent, bootConfigFinish, if_pos hr]
    exact (hok hr).symm
  · simp only [Coherent, bootConfigFinish, if_neg hr]
    exact hc hr

lemma CacheOk.configTick (h : CacheOk d .idle) :
    CacheOk (bootConfigTick (d.prepare [])).1 (bootConfigTick (d.prepare [])).2 := by
  have hpre : CacheOk (d.prepare []) .idle := ⟨h.at_, h.known⟩
  simp only [bootConfigTick]
  split
  · exact hpre
  next flags hflags =>
  split
  · exact hpre
  have hknown := and_known_of_known (h.known flags hflags)
  split
  · next r hplan =>
    refine ⟨CacheOk.finish (fun _ => h.at_) fun hr => ?_, by rintro _ ⟨⟩⟩
    subst hr
    exact (bootConfigStorePlan_ok hplan).trans hknown
  · next s hplan =>
    obtain ⟨hs, hp⟩ := Planned.of_plan hplan
    subst hs
    exact ⟨⟨hflags, h.at_, hp, trivial⟩, h.known⟩

/-- A completed phase in terms of the cache. -/
lemma StoreReady.done {f f' : Flash} {c : BootConfig} {s : ConfigStore} {ph : StorePhase}
    (h : StoreReady f c s ph) (hd : ph.Done s f f') : StoreDone f' c s ph := by
  cases ph with
  | erase => exact ⟨h.queued, h.coherent.congr hd.1, h.planned.congr hd.1, hd.2⟩
  | payload => exact ⟨h.queued, h.coherent.congr hd.1, h.planned.congr hd.1, hd.2⟩
  | commit => exact ⟨h.queued, h.planned.flags, hd⟩

/-- A store enters one of its calls. -/
lemma CacheOk.enter {s : ConfigStore} {ph : StorePhase} {f : Flash} {dual : Bool}
    {c : BootConfig} {pc : BasePc} (h : StoreReady f c s ph)
    (hpc : (∃ op os, (s.call ph).work dual = op :: os ∧ pc = .walk (.store s ph) op os) ∨
      (s.call ph).work dual = [] ∧ pc = .ended (.store s ph) .ok) : CacheAt f dual c pc := by
  have hcov : ∀ a ∈ (s.call ph).span, ∃ o ∈ (s.call ph).work dual, a ∈ o.range dual :=
    fun a ha => FmcCall.work_covers (s.call_inFlash ph) ha
  rcases hpc with ⟨op, os, hwork, rfl⟩ | ⟨hwork, rfl⟩
  · rw [hwork] at hcov
    refine ⟨h, ?_, fun a ha hout => ?_⟩
    · -- a program call of eight bytes is one operation
      have hlen := congrArg List.length hwork
      cases ph with
      | erase => exact .inl rfl
      | payload =>
        simp only [ConfigStore.call, FmcCall.work, ConfigStore.payload_length, List.length_map,
          List.length_range, List.length_cons] at hlen
        exact .inr (List.eq_nil_of_length_eq_zero (by omega))
      | commit =>
        simp only [ConfigStore.call, FmcCall.work, ConfigStore.commit_length, List.length_map,
          List.length_range, List.length_cons] at hlen
        exact .inr (List.eq_nil_of_length_eq_zero (by omega))
    · obtain ⟨o', ho', hin⟩ := hcov a ha
      exact absurd hin (hout o' ho')
  · rw [hwork] at hcov
    refine h.done (h.planned.done h.found (Unchanged.refl _ _) fun a ha => ?_)
    obtain ⟨o', ho', -⟩ := hcov a ha
    cases ho'

/-- The assumption on the operations of a store: they tear doublewords at most. -/
def TornStores (s : Sys σ) (l : Label) (s' : Sys σ) : Prop :=
  match s, l with
  | .on _ (.walk (.store st ph) _ _), .base _ =>
    st.page.Torn (st.call ph).content s.flash s'.flash
  | _, _ => True

/-- A commit doubleword whose programming is reported as failed has not landed. -/
def HonestCommit (s : Sys σ) (l : Label) : Prop :=
  match s, l with
  | .on _ (.walk (.store st .commit) _ _), .base (.fault _ left) =>
    st.page.commitAt left ≠ some st.record.commit
  | _, _ => True

/-- One physical operation of a store. -/
lemma StoreWalk.op {b : Board} {run : Slot} {c : BootConfig} {s : ConfigStore} {ph : StorePhase}
    {o : FlashOp} {os : List FlashOp} (h : StoreWalk b.flash b.dual c s ph o os)
    (hmem : (o :: os) <:+ (s.call ph).work b.dual)
    (ht : s.page.Torn (s.call ph).content b.flash (b.exec run o).1.flash)
    (hland : ∀ e, (b.exec run o).2 = .fault e →
      s.page.commitAt (b.exec run o).1.flash = some s.record.commit → ph ≠ .commit) :
    match (b.exec run o).2, os with
    | .ready, [] => StoreDone (b.exec run o).1.flash c s ph
    | .ready, o' :: os' => StoreWalk (b.exec run o).1.flash b.dual c s ph o' os'
    | .fault _, _ => Coherent (b.exec run o).1.flash c
    | .cut, _ => True := by
  have hin := s.call_inFlash ph
  have hopmem : o ∈ (s.call ph).work b.dual := hmem.mem (List.mem_cons_self ..)
  have hop := Board.exec_unchanged b run o
  have hu : Unchanged (s.call ph).span b.flash (b.exec run o).1.flash :=
    hop.mono (FmcCall.work_subset hin hopmem)
  have hready := h.ready
  -- the cells of the operation and of those before it
  have hcell : (b.exec run o).2 = .ready → ∀ a ∈ (s.call ph).span,
      (∀ o' ∈ os, a ∉ o'.range b.dual) →
      (b.exec run o).1.flash a = (s.call ph).content a := by
    intro hrd a ha hout
    by_cases hao : a ∈ o.range b.dual
    · rw [Board.exec_ready hrd, overlay_of_mem hao]
      exact FmcCall.work_content hin hopmem hao
    · rw [hop.apply hao]
      refine h.progress a ha fun o' ho' => ?_
      rcases List.mem_cons.mp ho' with rfl | ho'
      · exact hao
      · exact hout o' ho'
  cases hend : (b.exec run o).2 with
  | ready =>
    cases os with
    | nil =>
      refine hready.done (hready.planned.done hready.found hu fun a ha => ?_)
      exact hcell hend a ha nofun
    | cons o' os' =>
      have hph : ph = .erase := h.single.resolve_right nofun
      subst hph
      have hkeep := (hready.planned.torn hready.found hu ht).resolve_right nofun
      refine ⟨⟨hready.queued, hready.coherent.congr hkeep, hready.planned.congr hkeep, trivial⟩,
        .inl rfl, hcell hend⟩
  | fault e =>
    rcases hready.planned.torn hready.found hu ht with hkeep | ⟨hph, hc, -⟩
    · exact hready.coherent.congr hkeep
    · exact absurd hph (hland e hend hc)
  | cut => trivial

/-- An operation that the hardware does not even start changes nothing. -/
lemma exec_refused {b : Board} {run : Slot} {o : FlashOp} {e : FmcFault}
    (hscript : b.script.headD .ready = .ready) (he : (b.exec run o).2 = .fault e) :
    (b.exec run o).1.flash = b.flash := by
  simp only [Board.exec, hscript] at he ⊢
  by_cases hp : o.possible b.flash = true
  · rw [if_pos hp] at he
    cases he
  · rw [if_neg hp]

/-- A failed program of the commit doubleword leaves what the hardware says it leaves. -/
lemma exec_commit_left (b : Board) (run : Slot) {s : ConfigStore} {o : FlashOp} {e : FmcFault}
    {left : Flash} {rest : List PhysResult} (hscript : b.script = .fault e left :: rest)
    (ho : o ∈ (s.call .commit).work b.dual) :
    s.page.commitAt (b.exec run o).1.flash = s.page.commitAt left := by
  have hop : o = .programDword (s.page.addr + bootConfigCommitOff) (padDword s.record.commit 0) := by
    simpa [ConfigStore.call, FmcCall.work, ConfigStore.commit_length] using ho
  have hflash : (b.exec run o).1.flash = overlay b.flash (o.lo b.dual) (o.size b.dual) left := by
    simp only [Board.exec, hscript, List.headD_cons]
  rw [hflash, hop]
  refine Flash.dword_congr (R := (Set.Ico (s.page.addr + bootConfigCommitOff).toNat
    ((s.page.addr + bootConfigCommitOff).toNat + 8))ᶜ) ?_ disjoint_compl_right
  intro a ha
  rw [compl_compl] at ha
  exact overlay_of_mem ha

lemma CacheOk.walk {s : ConfigStore} {ph : StorePhase} {o : FlashOp} {os : List FlashOp}
    {r : PhysResult} (ho : Tidy d.ota (.walk (.store s ph) o os))
    (h : CacheOk d (.walk (.store s ph) o os))
    (hs : baseOp (d.prepare [r]) (.store s ph) o os = .on d' pc')
    (ht : s.page.Torn (s.call ph).content d.ota.board.flash d'.ota.board.flash)
    (hh : HonestCommit (.on d (.walk (.store s ph) o os)) (.base r)) : CacheOk d' pc' := by
  have hat : StoreWalk d.ota.board.flash d.ota.board.dual d.cfg s ph o os := h.at_
  have hmem := ho.ops _ o os rfl
  -- the board the operation leaves is the board of the new device
  have hboard : d'.ota.board = ((d.ota.board.prepare [r]).exec d.ota.run o).1 := by
    simp only [baseOp] at hs
    have hb : (d.prepare [r]).ota.board = d.ota.board.prepare [r] := rfl
    have hr : (d.prepare [r]).ota.run = d.ota.run := rfl
    rw [hb, hr] at hs
    generalize (d.ota.board.prepare [r]).exec d.ota.run o = x at hs ⊢
    obtain ⟨b, e⟩ := x
    cases e with
    | ready => cases os <;> cases hs <;> rfl
    | fault e =>
      cases hs
      rfl
    | cut => cases hs
  have hland : ∀ e, ((d.ota.board.prepare [r]).exec d.ota.run o).2 = .fault e →
      s.page.commitAt ((d.ota.board.prepare [r]).exec d.ota.run o).1.flash = some s.record.commit →
      ph ≠ .commit := by
    rintro e he hc rfl
    have hopmem : o ∈ (s.call .commit).work d.ota.board.dual := hmem.mem (List.mem_cons_self ..)
    cases r with
    | ready =>
      -- refused before it started: the doubleword is still erased
      rw [exec_refused rfl he] at hc
      have hc := hat.ready.found.2.symm.trans hc
      have hne : s.record.magic ≠ 0xFFFFFFFF := by
        rw [hat.ready.planned.good.magic]
        decide
      have hlast := congrArg (Endian.getLe32 · 4) (Option.some.inj hc)
      have hmagic : Endian.getLe32 s.record.commit 4 = s.record.magic :=
        (Endian.getLe32_append_right (Endian.le32 s.record.crc32) (Endian.le32 s.record.magic) 0).trans
          (Endian.getLe32_le32 s.record.magic [])
      exact hne (hmagic.symm.trans hlast.symm)
    | fault e' left =>
      have hleft := exec_commit_left (d.ota.board.prepare [.fault e' left]) d.ota.run rfl hopmem
      exact hh (hleft.symm.trans hc)
    | cut left =>
      simp only [Board.exec, Board.prepare, List.headD_cons] at he
      cases he
  rw [hboard] at ht
  have hop := StoreWalk.op (b := d.ota.board.prepare [r]) hat hmem ht hland
  simp only [baseOp] at hs
  have hb : (d.prepare [r]).ota.board = d.ota.board.prepare [r] := rfl
  have hr : (d.prepare [r]).ota.run = d.ota.run := rfl
  have hdual := Board.exec_dual (d.ota.board.prepare [r]) d.ota.run o
  rw [hb, hr] at hs
  generalize (d.ota.board.prepare [r]).exec d.ota.run o = x at hs hop hdual
  obtain ⟨b, e⟩ := x
  cases e with
  | ready =>
    cases os with
    | nil =>
      cases hs
      exact ⟨hop, h.known⟩
    | cons o' os' =>
      cases hs
      refine ⟨?_, h.known⟩
      show StoreWalk b.flash b.dual d.cfg s ph o' os'
      rw [hdual]
      exact hop
  | fault e =>
    cases hs
    refine ⟨?_, h.known⟩
    show JobEnd b.flash d.cfg (.store s ph) e.result
    cases e <;> exact hop
  | cut => cases hs

/-- What base-level code does with the result of a call. -/
lemma CacheOk.returned {j : Job} {res : FmcResult} (h : CacheOk d (.returned j res)) :
    CacheOk (baseReturn d j res).1 (baseReturn d j res).2 := by
  cases j with
  | erase snap => exact ⟨h.at_, h.known⟩
  | store s ph =>
    simp only [baseReturn]
    by_cases hres : res = .ok
    · subst hres
      simp only [ne_eq, not_true_eq_false, if_false]
      cases ph with
      | erase => exact ⟨h.at_, h.known⟩
      | payload => exact ⟨h.at_, h.known⟩
      | commit =>
        obtain ⟨hq, hfl, hread, hnew⟩ : StoreDone d.ota.board.flash d.cfg s .commit := h.at_
        have hback : bootConfigReadback d.ota.board.flash s = .ok := by
          simp only [bootConfigReadback, hread, and_self, if_true]
        have hload : (bootConfigLoad d.ota.board.flash).stored = s.flags := by
          simp only [bootConfigLoad, hnew, hfl, UInt32.and_assoc, UInt32.and_self]
          exact and_known_of_known (h.known _ hq)
        rw [hback]
        exact ⟨CacheOk.finish (fun hne => absurd rfl hne) fun _ => hload, by rintro _ ⟨⟩⟩
    · simp only [ne_eq, hres, not_false_eq_true, if_true]
      have hco : Coherent d.ota.board.flash d.cfg := by
        have hat : JobEnd d.ota.board.flash d.cfg (.store s ph) res := h.at_
        cases res with
        | ok => exact absurd rfl hres
        | error => exact hat
        | timeout => exact hat
      exact ⟨CacheOk.finish (fun _ => hco) fun hok => absurd hok hres, by rintro _ ⟨⟩⟩

lemma CacheOk.base {r : PhysResult} (ho : Tidy d.ota pc) (h : CacheOk d pc)
    (hs : step hal (.on d pc) (.base r) = some (.on d' pc'))
    (ht : TornStores (.on d pc) (.base r) (.on d' pc'))
    (hh : HonestCommit (.on d pc) (.base r)) : CacheOk d' pc' := by
  have hcore : CoreStep (.on d.ota pc) _ (.on d'.ota pc') := .of_step hs
  simp only [step] at hs
  cases pc with
  | idle => simp [baseStep] at hs
  | call j =>
    have hpre : CacheAt (d.prepare [r]).ota.board.flash (d.prepare [r]).ota.board.dual d.cfg
      (.call j) := h.at_
    have hco : JobEnd d.ota.board.flash d.cfg j .error := by
      cases j with
      | erase snap => exact hpre
      | store s ph => exact StoreReady.coherent hpre
    simp only [baseStep, baseEnter] at hs
    split_ifs at hs
    · cases hs
      exact ⟨hco, h.known⟩
    · cases hs
      exact ⟨hco, h.known⟩
    cases hwork : j.call.work (d.prepare [r]).ota.board.dual with
    | nil =>
      simp only [hwork] at hs
      cases hs
      refine ⟨?_, h.known⟩
      cases j with
      | erase snap => exact hpre
      | store s ph => exact CacheOk.enter hpre (.inr ⟨hwork, rfl⟩)
    | cons op os =>
      simp only [hwork] at hs
      cases hs
      refine ⟨?_, h.known⟩
      cases j with
      | erase snap => exact hpre
      | store s ph => exact CacheOk.enter hpre (.inl ⟨op, os, hwork, rfl⟩)
  | walk j o os =>
    simp only [baseStep, Option.some.injEq] at hs
    cases j with
    | store s ph => exact h.walk ho hs ht hh
    | erase snap =>
      have hsame : SameConfig d.ota.board.flash d'.ota.board.flash :=
        hcore.sameConfig ho fun _ _ => id
      have hco : Coherent d'.ota.board.flash d.cfg := Coherent.congr h.at_ hsame.newest
      simp only [baseOp] at hs
      generalize (d.prepare [r]).ota.board.exec (d.prepare [r]).ota.run o = x at hs
      obtain ⟨b, e⟩ := x
      cases e with
      | ready =>
        cases os <;>
        · cases hs
          exact ⟨hco, h.known⟩
      | fault e =>
        cases hs
        exact ⟨hco, h.known⟩
      | cut => cases hs
  | ended j res =>
    simp only [baseStep] at hs
    cases hs
    exact ⟨h.at_, h.known⟩
  | returned j res =>
    have hpre : CacheOk (d.prepare [r]) (.returned j res) := ⟨h.at_, h.known⟩
    have hret := hpre.returned
    simp only [baseStep] at hs
    generalize baseReturn (d.prepare [r]) j res = x at hs hret
    obtain ⟨d₁, pc₁⟩ := x
    cases hs
    exact hret

/-- The invariant of the whole system. -/
def Sys.CacheOk : Sys σ → Prop
  | .off _ => True
  | .on d pc => Gd32Bridge.CacheOk d pc

lemma CacheOk.boot {b : Board} {wdt : Bool} {script : List PhysResult}
    (hs : step hal (.off b) (.boot wdt script) = some (.on d pc)) : CacheOk d pc := by
  have hcore : CoreStep (.off b) _ (.on d.ota pc) := .of_step hs
  have hsame : SameConfig b.flash d.ota.board.flash := hcore.sameConfig trivial (by rintro _ ⟨⟩)
  simp only [step, bootUp] at hs
  split at hs
  · cases hs
  · generalize otaBootInit (b.bootBoard script) _ = x at hs
    obtain ⟨o, v⟩ := x
    cases v with
    | false => cases hs
    | true =>
      cases hs
      exact ⟨congrArg BootConfig.stored (bootConfigLoad_congr hsame.newest).symm, by rintro _ ⟨⟩⟩

theorem Sys.CacheOk.step {s s' : Sys σ} {l : Label} (ho : s.core.Ordered) (h : s.CacheOk)
    (hs : Gd32Bridge.step hal s l = some s') (ht : TornStores s l s') (hh : HonestCommit s l) :
    s'.CacheOk := by
  cases s' with
  | off b => trivial
  | on d' pc' =>
    cases s with
    | off b =>
      cases l with
      | boot wdt script => exact CacheOk.boot hs
      | request | eraseTick | configTick | confirmTick | halTick | base | powerOff =>
        simp [Gd32Bridge.step] at hs
    | on d pc =>
      have hcore : CoreStep (.on d.ota pc) l (.on d'.ota pc') := .of_step hs
      cases l with
      | request => exact Gd32Bridge.CacheOk.request ho h hs
      | base r => exact Gd32Bridge.CacheOk.base ho h hs ht hh
      | powerOff => simp [Gd32Bridge.step] at hs
      | boot => cases pc <;> simp [Gd32Bridge.step] at hs
      | eraseTick =>
        cases pc with
        | idle =>
          simp only [Gd32Bridge.step] at hs
          split at hs
          · cases hs
            exact ⟨h.at_, h.known⟩
          · cases hs
            exact ⟨h.at_, h.known⟩
        | call | walk | ended | returned => simp [Gd32Bridge.step] at hs
      | configTick =>
        cases pc with
        | idle =>
          have htick := Gd32Bridge.CacheOk.configTick h
          simp only [Gd32Bridge.step] at hs
          generalize bootConfigTick (d.prepare []) = x at hs htick
          obtain ⟨d₁, pc₁⟩ := x
          cases hs
          exact htick
        | call | walk | ended | returned => simp [Gd32Bridge.step] at hs
      | confirmTick script =>
        cases pc with
        | idle =>
          have hsame : SameConfig d.ota.board.flash d'.ota.board.flash :=
            hcore.sameConfig ho (by rintro _ ⟨⟩)
          simp only [Gd32Bridge.step] at hs
          generalize otaConfirmTick (d.prepare script).ota = x at hs
          obtain ⟨o, out⟩ := x
          cases out with
          | stay =>
            cases hs
            exact Gd32Bridge.CacheOk.frame h hsame hcore.dual .same
          | reset => cases hs
          | powerLost => cases hs
        | call | walk | ended | returned => simp [Gd32Bridge.step] at hs
      | halTick =>
        cases pc with
        | idle =>
          simp only [Gd32Bridge.step] at hs
          cases hs
          exact ⟨h.at_, h.known⟩
        | call | walk | ended | returned => simp [Gd32Bridge.step] at hs

/-- A SET that is acknowledged and queues nothing asks for the flags in the cache. -/
lemma noop_set {link : Link} {flags : UInt32} {p : List UInt8}
    (hs : protocolDispatch hal false link 0x42 d (1 :: Endian.le32 flags) maxPayloadBytes =
      (d', .reply .ok p)) (hp : d'.cfg.pending = none) : d' = d ∧ flags = d.cfg.stored := by
  have hget : Endian.getLe32 (1 :: Endian.le32 flags) 1 = flags :=
    (Endian.getLe32_append_right [1] (Endian.le32 flags) 0).trans (Endian.getLe32_le32 flags [])
  have hop : Opcode.ofByte 0x42 = some .bootConfig := rfl
  have hlen : (1 :: Endian.le32 flags).length = 5 := rfl
  have hcap : ¬ maxPayloadBytes < 4 := by decide
  have hset : (1 :: Endian.le32 flags).getD 0 0 = 1 := rfl
  simp only [protocolDispatch, protocolDispatchInner, Bool.false_eq_true, if_false, hop,
    Opcode.handler, handleBootConfig, exactLen, needCap, hlen, hcap, hset, hget] at hs
  split at hs
  · cases hs
  rw [if_neg (by decide), if_neg (by decide), if_pos trivial] at hs
  split_ifs at hs
  · cases hs
  · cases hs
  · cases hs
  simp only [bootConfigRequest] at hs
  cases hpend : d.cfg.pending with
  | some q =>
    simp only [hpend] at hs
    cases hq : q == flags with
    | false =>
      simp only [hq] at hs
      cases hs
    | true =>
      simp only [hq] at hs
      cases hs
      have hsome : d.cfg.pending = none := hp
      rw [hpend] at hsome
      cases hsome
  | none =>
    simp only [hpend] at hs
    by_cases hst : flags = d.cfg.stored
    · rw [if_pos hst] at hs
      cases hs
      exact ⟨rfl, hst⟩
    · rw [if_neg hst] at hs
      cases hs
      cases hp

/-- In every run whose failed commit programs have not landed, the cache holds what a boot would
load whenever no SET is queued; so after a SET that is acknowledged without being queued the next
boot has the flags asked for. -/
theorem cache_coherent (h : Reach (step hal) Sys.Unpowered
      (fun s l s' => TornStores s l s' ∧ HonestCommit s l) (.on d pc))
    (hp : d.cfg.pending = none) :
    d.cfg.stored = (bootConfigLoad d.ota.board.flash).stored ∧
      ∀ (link : Link) (flags : UInt32) (d₁ : Device σ) (p : List UInt8),
        protocolDispatch hal false link 0x42 d (1 :: Endian.le32 flags) maxPayloadBytes =
          (d₁, .reply .ok p) → d₁.cfg.pending = none →
        ∀ wdt script d₂ pc₂, step hal (.off d₁.ota.board) (.boot wdt script) = some (.on d₂ pc₂) →
          d₂.cfg.stored = flags := by
  have hok : (Sys.on d pc).CacheOk := by
    apply Reach.invariant (I := fun s : Sys σ => s.CacheOk) ?_ ?_ h
    · intro s hs
      cases s with
      | off b => trivial
      | on d pc => cases hs
    · exact fun s l s' hr hi hs hl => hi.step (reach_ordered hr) hs hl.1 hl.2
  have hco := (hok.at_.coherent hp).1
  refine ⟨hco, fun link flags d₁ p hs hp₁ wdt script d₂ pc₂ hb => ?_⟩
  obtain ⟨rfl, rfl⟩ := noop_set hs hp₁
  have hboot : d₂.cfg = bootConfigLoad d₁.ota.board.flash := by
    simp only [step, bootUp] at hb
    split at hb
    · cases hb
    · split at hb
      · cases hb
        rfl
      · cases hb
  rw [hboot]
  exact hco.symm

end

/-! ### A commit that lands and is reported as failed -/

/-- `TornStores` and `HonestCommit` as tests. -/
def tornStoresCheck (s : Sys Unit) (l : Label) (s' : Sys Unit) : Bool :=
  match s, l with
  | .on _ (.walk (.store st ph) _ _), .base _ =>
    decide (st.page.Torn (st.call ph).content s.flash s'.flash)
  | _, _ => true

def honestCommitCheck (s : Sys Unit) (l : Label) : Bool :=
  match s, l with
  | .on _ (.walk (.store st .commit) _ _), .base (.fault _ left) =>
    st.page.commitAt left != some st.record.commit
  | _, _ => true

lemma tornStores_of_check {s s' : Sys Unit} {l : Label} (h : tornStoresCheck s l s' = true) :
    TornStores s l s' := by
  rw [tornStoresCheck.eq_def] at h
  rw [TornStores.eq_def]
  split at h
  · exact of_decide_eq_true h
  · next hno =>
    split
    · exact (hno _ _ _ _ _ _ rfl rfl).elim
    · trivial

lemma honestCommit_of_check {s : Sys Unit} {l : Label} (h : honestCommitCheck s l = true) :
    HonestCommit s l := by
  rw [honestCommitCheck.eq_def] at h
  rw [HonestCommit.eq_def]
  split at h
  · exact bne_iff_ne.mp h
  · next hno =>
    split
    · exact (hno _ _ _ _ _ _ rfl rfl).elim
    · trivial

/-- The record of the first store on a blank page: flag 0, counter 1. -/
def firstStore : ConfigStore := ⟨.rec0, ⟨1, 1, configRecordCrc 1 1, bootConfigMagic⟩, 1⟩

/-- SET to 1, the tick that takes it up, and the store up to its last program operation. -/
def setStoreRun : List Label :=
  [.boot false [], .request .spi 0x42 [1, 1, 0, 0, 0] [], .configTick] ++
    List.replicate 10 (.base .ready)

/-- The program operation of the commit doubleword times out and has landed. -/
def lateTimeout : Label :=
  .base (.fault .toerr (firstStore.call .commit).content)

/-- The device is idle with an empty queue. -/
def restingCheck (q : Device Unit → Bool) : Sys Unit → Bool
  | .on d .idle => d.cfg.pending == none && q d
  | _ => false

set_option maxRecDepth 20000 in
lemma lateTimeout_stale : (run (step .stub) tornStoresCheck dualDevice
    (setStoreRun ++ [lateTimeout, .base .ready, .base .ready])).any
    (restingCheck fun d => d.cfg.stored == 0 &&
      (bootConfigLoad d.ota.board.flash).stored == 1) = true := by
  decide +kernel

/-- After the late timeout the cache says 0 and a boot would load 1. -/
theorem cache_stale_after_timeout :
    ¬ ∀ (d : Device Unit) (pc : BasePc),
      Reach (step .stub) Sys.Unpowered (fun s l s' => TornStores s l s') (.on d pc) →
      d.cfg.pending = none → d.cfg.stored = (bootConfigLoad d.ota.board.flash).stored := by
  intro hall
  have hinit : Reach (step .stub) Sys.Unpowered (fun s l s' => TornStores s l s') dualDevice :=
    .start trivial
  obtain ⟨s, hr, hq⟩ := hinit.exists_of_run tornStoresCheck _ _
    (fun _ _ _ => tornStores_of_check) lateTimeout_stale
  match s, hq with
  | .on d .idle, hq =>
    simp only [restingCheck, Bool.and_eq_true, beq_iff_eq] at hq
    obtain ⟨hp, hst, hload⟩ := hq
    have heq := hall d .idle hr hp
    rw [hst, hload] at heq
    exact absurd heq (by decide)

/-- The same, but the doubleword is still erased when the operation times out. -/
def honestTimeout : Label :=
  .base (.fault .toerr fun _ => .erased)

set_option maxRecDepth 20000 in
lemma honestTimeout_rests : (run (step .stub)
    (fun s l s' => tornStoresCheck s l s' && honestCommitCheck s l) dualDevice
    (setStoreRun ++ [honestTimeout, .base .ready, .base .ready])).any
    (restingCheck fun d => d.cfg.stored == 0) = true := by
  decide +kernel

/-- After the honest timeout the cache and the flash agree on 0. -/
theorem cache_coherent_after_timeout : ∃ (d : Device Unit) (pc : BasePc),
    Reach (step .stub) Sys.Unpowered (fun s l s' => TornStores s l s' ∧ HonestCommit s l)
      (.on d pc) ∧ d.cfg.pending = none ∧ d.cfg.stored = 0 ∧
    (bootConfigLoad d.ota.board.flash).stored = 0 := by
  have hinit : Reach (step .stub) Sys.Unpowered
      (fun s l s' => TornStores s l s' ∧ HonestCommit s l) dualDevice := .start trivial
  obtain ⟨s, hr, hq⟩ := hinit.exists_of_run _ _ _ (fun s l s' h => by
    rw [Bool.and_eq_true] at h
    exact ⟨tornStores_of_check h.1, honestCommit_of_check h.2⟩) honestTimeout_rests
  match s, hq with
  | .on d .idle, hq =>
    simp only [restingCheck, Bool.and_eq_true, beq_iff_eq] at hq
    obtain ⟨hp, hst⟩ := hq
    exact ⟨d, .idle, hr, hp, hst, (cache_coherent hr hp).1.symm.trans hst⟩

end Gd32Bridge
