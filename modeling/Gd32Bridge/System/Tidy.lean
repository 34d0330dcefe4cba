import Gd32Bridge.System.Core
import Gd32Bridge.System.Regions

/-!
# The bookkeeping invariant

Facts about the session and the main loop that hold in every state of every run and mention no
flash content: the session works on the slot that is not running, an armed erase stands on a
region of it, a session that is READY or VERIFIED has no erase in sight, and the funnel is owned
exactly while the main loop is inside a flash call.
-/

namespace Gd32Bridge

namespace BasePc

/-- The job base-level code is on. -/
def job : BasePc → Option Job
  | idle => none
  | call j => some j
  | walk j _ _ => some j
  | ended j _ => some j
  | returned j _ => some j

/-- Base-level code owns the funnel here. -/
def owns : BasePc → Bool
  | walk _ _ _ => true
  | ended _ _ => true
  | _ => false

/-- A step of the erase pump is under way. -/
def Erasing (pc : BasePc) : Prop :=
  ∃ snap, pc.job = some (.erase snap)

@[simp] lemma not_erasing_idle : ¬ Erasing .idle := by simp [Erasing, job]

end BasePc

/-- A physical operation ends with the device off, or with the same job in flight. -/
lemma walkAfter_cases (o : Ota) (j : Job) (os : List FlashOp) (b : Board) (e : OpEnd) :
    walkAfter o j os b e = .off b ∨
      ∃ pc, pc.job = some j ∧ walkAfter o j os b e = .on (o.withBoard b) pc := by
  cases e with
  | ready =>
    cases os with
    | nil => exact .inr ⟨_, rfl, rfl⟩
    | cons o' os' => exact .inr ⟨_, rfl, rfl⟩
  | fault e => exact .inr ⟨_, rfl, rfl⟩
  | cut => exact .inl rfl

structure Tidy (o : Ota) (pc : BasePc) : Prop where
  inactive : o.sess.inactive = o.run.other
  walk : o.sess.erasing = true → WalkAt o.run o.sess.eraseAt o.sess.eraseEnd
  armed : o.sess.erasing = true → o.sess.state = .busy ∨ o.sess.state = .error
  busy : o.sess.state = .busy → o.sess.erasing = true
  len : o.sess.state ≠ .idle → o.sess.state ≠ .error → LenOk o.sess.imgLen
  settled : pc.Erasing → o.sess.state ≠ .ready ∧ o.sess.state ≠ .verified
  job : ∀ snap, pc.job = some (.erase snap) → WalkAt o.run snap.at_ snap.end_
  ops : ∀ j op os, pc = .walk j op os → (op :: os) <:+ j.call.work o.board.dual
  owned : o.board.owned = pc.owns
  gated : o.trial = true → o.sess = .initial o.run ∧ ¬ pc.Erasing

namespace Tidy

variable {o : Ota} {pc : BasePc}

/-- The invariant looks at the board only through bank mode and funnel ownership. -/
lemma withBoard (h : Tidy o pc) {b : Board} (hd : b.dual = o.board.dual)
    (hw : b.owned = o.board.owned) : Tidy { o with board := b } pc where
  inactive := h.inactive
  walk := h.walk
  armed := h.armed
  busy := h.busy
  len := h.len
  settled := h.settled
  job := h.job
  ops j op os hpc := by rw [hd]; exact h.ops j op os hpc
  owned := by rw [hw]; exact h.owned
  gated := h.gated

lemma prepare (h : Tidy o pc) (script : List PhysResult) : Tidy (o.prepare script) pc :=
  h.withBoard rfl rfl

/-- A session that is READY has no erase walk armed. -/
lemma not_erasing_of_ready (h : Tidy o pc) (hs : o.sess.state = .ready) :
    o.sess.erasing = false := by
  by_contra he
  rcases h.armed (by simpa using he) with h' | h' <;> rw [hs] at h' <;> cases h'

lemma not_erasing_of_verified (h : Tidy o pc) (hs : o.sess.state = .verified) :
    o.sess.erasing = false := by
  by_contra he
  rcases h.armed (by simpa using he) with h' | h' <;> rw [hs] at h' <;> cases h'

/-- Going to `OTA_ST_ERROR` keeps the bookkeeping. -/
lemma fail (h : Tidy o pc) (ht : o.trial = false) (e : OtaErr) : Tidy (o.fail e) pc where
  inactive := h.inactive
  walk := h.walk
  armed _ := .inr rfl
  busy hb := by cases hb
  len _ hne := absurd rfl hne
  settled _ := ⟨by simp [Ota.fail], by simp [Ota.fail]⟩
  job := h.job
  ops := h.ops
  owned := h.owned
  gated hg := by
    rw [show (o.fail e).trial = o.trial from rfl, ht] at hg
    cases hg

lemma sessionReject (h : Tidy o pc) (ht : o.trial = false) (e : OtaErr) :
    Tidy (o.sessionReject e) pc where
  inactive := h.inactive
  walk := h.walk
  armed _ := .inr rfl
  busy hb := by cases hb
  len _ hne := absurd rfl hne
  settled _ := ⟨by simp [Ota.sessionReject], by simp [Ota.sessionReject]⟩
  job := h.job
  ops := h.ops
  owned := h.owned
  gated hg := by
    rw [show (o.sessionReject e).trial = o.trial from rfl, ht] at hg
    cases hg

lemma openSession (h : Tidy o pc) (ht : o.trial = false) {a : BeginArgs} (hlen : LenOk a.imgLen) :
    Tidy (o.openSession a) pc where
  inactive := rfl
  walk _ := ⟨rfl, 0, by simp [slotRegions], by simp [Ota.openSession]⟩
  armed _ := .inl rfl
  busy _ := rfl
  len _ _ := hlen
  settled _ := ⟨by simp [Ota.openSession], by simp [Ota.openSession]⟩
  job := h.job
  ops := h.ops
  owned := h.owned
  gated hg := by
    rw [show (o.openSession a).trial = o.trial from rfl, ht] at hg
    cases hg

/-- The acknowledgement of a chunk moves the high-water mark only. -/
lemma writeAck (h : Tidy o pc) (hs : o.sess.state = .ready) (lastOff : UInt32) (cap : ℕ) :
    Tidy (writeAck { o with sess := { o.sess with lastOff := lastOff } } cap).1 pc where
  inactive := h.inactive
  walk := h.walk
  armed he := by
    have he : o.sess.erasing = true := he
    rw [h.not_erasing_of_ready hs] at he
    cases he
  busy hb := by cases hb
  len _ _ := h.len (by simp [hs]) (by simp [hs])
  settled he := absurd hs (h.settled he).1
  job := h.job
  ops := h.ops
  owned := h.owned
  gated hg := by
    have hi := (h.gated hg).1
    rw [hi] at hs
    cases hs

lemma abort (h : Tidy o pc) (ht : o.trial = false) : Tidy (hAbort o).1 pc where
  inactive := h.inactive
  walk he := by cases he
  armed he := by cases he
  busy hb := by cases hb
  len hne := absurd rfl hne
  settled _ := ⟨by simp [hAbort], by simp [hAbort]⟩
  job := h.job
  ops := h.ops
  owned := h.owned
  gated hg := by
    rw [show (hAbort o).1.trial = o.trial from rfl, ht] at hg
    cases hg

/-- A VERIFY that came to its CRC ends in VERIFIED or in `OTA_ST_ERROR`. -/
lemma verify (h : Tidy o pc) (hs : o.sess.state = .ready) (hlen : LenOk o.sess.imgLen) (cap : ℕ) :
    Tidy (hVerify o cap).1 pc := by
  obtain ⟨p, hv⟩ := hVerify_eq hs hlen cap
  have hquiet : ¬ pc.Erasing := fun he => (h.settled he).1 hs
  have hoff := h.not_erasing_of_ready hs
  rw [hv]
  constructor
  case inactive => exact h.inactive
  case walk => exact h.walk
  case armed =>
    intro he
    simp only [verifiedSession, hoff] at he
    cases he
  case busy =>
    intro hb
    simp only [verifiedSession] at hb
    split_ifs at hb
  case len => exact fun _ _ => hlen
  case settled => exact fun he => absurd he hquiet
  case job => exact h.job
  case ops => exact h.ops
  case owned => exact h.owned
  case gated =>
    intro hg
    have hi := (h.gated hg).1
    rw [hi] at hs
    cases hs

/-- Every request that is answered keeps the bookkeeping. -/
theorem of_rule (h : Tidy o pc) (ht : o.trial = false) {cmd : UInt8} {req : List UInt8}
    {x : Ota × Outcome} (rule : OtaRule o cmd req x) {st : Status} {p : List UInt8} (hx : x.2 = .reply st p) : Tidy x.1 pc := by
  cases rule with
  | same => exact h
  | reject e => exact h.sessionReject ht e
  | fail e => exact h.fail ht e
  | abort => exact h.abort ht
  | verify cap hcmd hs hlen => exact h.verify hs hlen cap
  | armBlank cap hcmd hlen => exact h.openSession ht hlen
  | demote cap cur q hcmd hc =>
    have hb := h.withBoard (metaCommit_dual o.board o.run (demoteWrite o.run cur))
      (metaCommit_owned o.board o.run (demoteWrite o.run cur))
    generalize metaCommit o.board o.run (demoteWrite o.run cur) = y at hb hx ⊢
    match y, hx with
    | (b, some true), _ => exact hb.openSession ht hc.len
    | (b, some false), _ => exact hb.sessionReject ht _
  | replay cap hcmd hs => exact h.writeAck hs o.sess.lastOff cap
  | chunk off top data cap hcmd hs =>
    have hb : Tidy { o with board := (otaFmcProgram o.board o.run (o.inactiveBase + off) data).1 }
        pc := h.withBoard Board.fmcCall_dual Board.fmcCall_owned
    generalize otaFmcProgram o.board o.run (o.inactiveBase + off) data = y at hb hx ⊢
    match y, hx with
    | (b, some .ok), _ => exact hb.writeAck hs _ cap
    | (b, some .timeout), _ => exact hb.fail ht _
    | (b, some .error), _ => exact hb.fail ht _
  | commit =>
    have hb := h.withBoard (metaCommit_dual o.board o.run (commitWrite o.sess))
      (metaCommit_owned o.board o.run (commitWrite o.sess))
    generalize metaCommit o.board o.run (commitWrite o.sess) = y at hb hx ⊢
    match y, hx with
    | (b, some false), _ => exact hb.fail ht _
  | rollback cur q active w =>
    have hb := h.withBoard (metaCommit_dual o.board o.run w) (metaCommit_owned o.board o.run w)
    generalize metaCommit o.board o.run w = y at hb hx ⊢
    match y, hx with
    | (b, some false), _ => exact hb

/-! ### Base level -/

/-- The main loop moves to a step that is not part of an erase and holds no funnel. -/
lemma atRest (h : Tidy o pc) {pc' : BasePc} (hjob : ∀ snap, pc'.job ≠ some (.erase snap))
    (hwalk : ∀ j op os, pc' ≠ .walk j op os) (howns : pc'.owns = pc.owns) : Tidy o pc' where
  inactive := h.inactive
  walk := h.walk
  armed := h.armed
  busy := h.busy
  len := h.len
  settled he := absurd he.choose_spec (hjob _)
  job snap hs := absurd hs (hjob snap)
  ops j op os hpc := absurd hpc (hwalk j op os)
  owned := h.owned.trans howns.symm
  gated ht := ⟨(h.gated ht).1, fun he => hjob _ he.choose_spec⟩

/-- The main loop moves on within its job. -/
lemma sameJob (h : Tidy o pc) {pc' : BasePc} {b : Board} (hd : b.dual = o.board.dual)
    (hjob : pc'.job = pc.job) (hw : b.owned = pc'.owns)
    (hops : ∀ j op os, pc' = .walk j op os → (op :: os) <:+ j.call.work o.board.dual) :
    Tidy (o.withBoard b) pc' where
  inactive := h.inactive
  walk := h.walk
  armed := h.armed
  busy := h.busy
  len := h.len
  settled he := h.settled (by rwa [BasePc.Erasing, ← hjob])
  job snap hs := h.job snap (hjob ▸ hs)
  ops j op os hpc := by
    rw [show (o.withBoard b).board.dual = o.board.dual from hd]
    exact hops j op os hpc
  owned := hw
  gated ht := by
    refine ⟨(h.gated ht).1, ?_⟩
    rw [BasePc.Erasing, hjob]
    exact (h.gated ht).2

/-- Publishing the result of an erase step keeps the bookkeeping. -/
lemma publish {snap : EraseSnapshot} {res : FmcResult}
    (h : Tidy o (.returned (.erase snap) res)) (res' : FmcResult) :
    Tidy { o with sess := otaErasePublish o.sess snap res' } .idle := by
  have hrest := h.settled ⟨snap, rfl⟩
  have hat := h.job snap rfl
  have hgate : o.trial ≠ true := fun ht => (h.gated ht).2 ⟨snap, rfl⟩
  have hidle : Tidy o .idle := h.atRest (by simp [BasePc.job]) (by simp) rfl
  simp only [otaErasePublish]
  split
  · exact hidle
  next hlive =>
  split
  · -- the erase failed
    constructor
    case inactive => exact h.inactive
    case walk => exact nofun
    case armed => exact nofun
    case busy => exact nofun
    case len => exact fun _ hne => absurd rfl hne
    case settled => simp
    case job => simp [BasePc.job]
    case ops => simp
    case owned => exact h.owned
    case gated => exact fun ht => absurd ht hgate
  split
  · -- the walk is complete
    constructor
    case inactive => exact h.inactive
    case walk => exact nofun
    case armed => exact nofun
    case busy =>
      intro hb
      simp only at hb
      split_ifs at hb with h'
      exact absurd hb h'
    case len =>
      intro h₁ h₂
      simp only [ne_eq] at h₁ h₂
      split_ifs at h₁ h₂ with h'
      · exact h.len (by simp [h']) (by simp [h'])
      · exact h.len h₁ h₂
    case settled => simp
    case job => simp [BasePc.job]
    case ops => simp
    case owned => exact h.owned
    case gated => exact fun ht => absurd ht hgate
  · next hmore =>
    have hon : o.sess.erasing = true := by
      rw [not_or] at hlive
      simpa using hlive.1
    constructor
    case inactive => exact h.inactive
    case walk =>
      intro _
      have hend : o.sess.eraseEnd = snap.end_ := (h.walk hon).1.trans hat.1.symm
      simp only [hend]
      exact hat.next hmore
    case armed => exact h.armed
    case busy => exact h.busy
    case len => exact h.len
    case settled => simp
    case job => simp [BasePc.job]
    case ops => simp
    case owned => exact h.owned
    case gated => exact fun ht => absurd ht hgate

end Tidy

/-! ### Every step -/

/-- The bookkeeping of a running device; without power there is none. -/
def Core.Ordered : Core → Prop
  | off _ => True
  | on o pc => Tidy o pc

lemma Tidy.fresh (run : Slot) {b : Board} (hw : b.owned = false) (t : Bool) :
    Tidy (.fresh run b t) .idle where
  inactive := rfl
  walk := nofun
  armed := nofun
  busy := nofun
  len hne := absurd rfl hne
  settled := by simp
  job := by simp [BasePc.job]
  ops := by simp
  owned := hw
  gated _ := ⟨rfl, by simp⟩

lemma Core.Ordered.bootAfter {b : Board} (hw : b.owned = false) {run : Slot} {x : Ota × Bool}
    (rule : BootRule b run x) : (bootAfter x).Ordered := by
  cases rule with
  | trial => exact Tidy.fresh run hw true
  | settled => exact Tidy.fresh run hw false
  | heal n p =>
    have h := Tidy.fresh (b := (metaCommit b run (selfHealWrite run n)).1) run
      (by simp [hw]) false
    generalize metaCommit b run (selfHealWrite run n) = y at h ⊢
    match y with
    | (b', some _) => exact h
    | (b', none) => trivial

/-- A suffix of a call's operations stays one when the first of them is done. -/
lemma suffix_tail {op : FlashOp} {os work : List FlashOp} (h : (op :: os) <:+ work) : os <:+ work :=
  (List.suffix_cons op os).trans h

/-- Every step keeps the bookkeeping. -/
theorem Core.Ordered.step {c c' : Core} {l : Label} (hs : CoreStep c l c') (h : c.Ordered) : c'.Ordered := by
  cases hs with
  | @gated o pc link cmd pl script ht =>
    have h := Tidy.prepare h script
    exact { h with }
  | passive => exact Tidy.prepare h _
  | @request o pc link cmd pl script x ht hx rule =>
    obtain ⟨o', out⟩ := x
    cases out with
    | reply st p => exact (Tidy.prepare h script).of_rule ht rule rfl
    | reset => trivial
    | powerLost => trivial
  | idle => exact Tidy.prepare h _
  | idleConfirm => exact Tidy.prepare h _
  | @snapshot o he =>
    have h := Tidy.prepare h []
    have hgate : o.trial ≠ true := by
      intro ht
      have := (h.gated ht).1
      rw [Ota.prepare_sess] at this
      rw [this] at he
      cases he
    refine { h with settled := ?_, job := ?_, ops := ?_, owned := ?_, gated := ?_ }
    · intro _
      rcases h.armed he with h' | h' <;> rw [h'] <;> simp
    · intro snap hs
      cases hs
      exact h.walk he
    · intro _ _ _ hpc
      cases hpc
    · exact h.owned
    · exact fun ht => absurd ht hgate
  | storeStart =>
    exact (Tidy.prepare h []).atRest (by simp [BasePc.job]) (by simp) rfl
  | @confirm o script r p ht hf hr =>
    have hb := (Tidy.prepare h script).withBoard
      (metaCommit_dual (o.board.prepare script) o.run (confirmWrite o.run p))
      (metaCommit_owned (o.board.prepare script) o.run (confirmWrite o.run p))
    rcases confirmAfter_cases (o.prepare script) (metaCommit (o.board.prepare script) o.run
      (confirmWrite o.run p)).1 (metaCommit (o.board.prepare script) o.run
      (confirmWrite o.run p)).2 with hc | hc <;> rw [hc]
    · trivial
    · exact hb
  | @refused o j r href =>
    have hw : o.board.owned = false := h.owned
    exact Tidy.sameJob (b := o.board.prepare [r]) h rfl rfl hw (by simp)
  | @enter o j r pc ha hw hpc =>
    have h := Tidy.prepare h [r]
    rcases hpc with ⟨op, os, hwork, rfl⟩ | ⟨-, rfl⟩
    · refine h.sameJob rfl rfl rfl ?_
      intro j' op' os' hpc
      cases hpc
      exact hwork ▸ List.suffix_refl _
    · exact h.sameJob rfl rfl rfl (by simp)
  | @op o j r op os =>
    have hops : os <:+ j.call.work o.board.dual := suffix_tail (h.ops j op os rfl)
    have hd := Board.exec_dual (o.board.prepare [r]) o.run op
    have hw : ((o.board.prepare [r]).exec o.run op).1.owned = true := by
      rw [Board.exec_owned]
      exact h.owned
    generalize (o.board.prepare [r]).exec o.run op = y at hd hw ⊢
    match y, os with
    | (b, .ready), [] => exact h.sameJob hd rfl hw (by simp)
    | (b, .ready), o' :: os' =>
      refine h.sameJob hd rfl hw ?_
      intro j' op' os'' hpc
      cases hpc
      exact hops
    | (b, .fault e), _ => exact h.sameJob hd rfl hw (by simp)
    | (b, .cut), _ => trivial
  | release => exact h.sameJob rfl rfl rfl (by simp)
  | publish => exact (Tidy.prepare h _).publish _
  | @storeNext o s ph r res pc hpc =>
    have h := Tidy.prepare h [r]
    rcases hpc with rfl | ⟨ph', rfl⟩
    · exact h.atRest (by simp [BasePc.job]) (by simp) rfl
    · exact h.atRest (by simp [BasePc.job]) (by simp) rfl
  | powerOff => trivial
  | boot hd rule => exact Core.Ordered.bootAfter rfl rule

end Gd32Bridge
