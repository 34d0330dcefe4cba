import Gd32Bridge.System.Session
import Gd32Bridge.System.Runs

/-!
# The error byte of OTA_GET_STATE

`s_err` attributes a session that is in `OTA_ST_ERROR`.  Every failure writes it together with the
state, and ABORT clears it; an accepted BEGIN moves the session out of `OTA_ST_ERROR` and leaves
it, so the byte tells the truth as long as no BEGIN is accepted there.

`failureOf` says what went wrong from the answer of a request and the state it met, in the words of
`gd32_bridge_ota_err_t` and without a look at `s_err`.
-/

namespace Gd32Bridge

open Transition

/-! ### What went wrong -/

/-- Why COMMIT refused an image. -/
def commitRefusal (o : Ota) : OtaErr :=
  let img := o.board.flash.bytes o.inactiveBase o.sess.imgLen.toNat
  if o.sess.imgLen = 0 ∨ o.sess.imgLen > otaSlotSize then .sessionRange
  else if !otaImageBootable o.inactiveBase img o.sess.imgLen then .commitFailed
  else if !otaImageTrialCapable img o.sess.imgLen then .notTrialCapable
  else .belowFloor

/-- The image a ROLLBACK would go back to is described, but below the floor. -/
def rollbackBelowFloor (o : Ota) : Bool :=
  match metaCurrent o.board.flash with
  | none => false
  | some (cur, _) =>
    match Slot.ofCode cur.activeSlot with
    | none => false
    | some active =>
      cur.valid active.other && decide (cur.imgLen.get active.other ≠ 0) &&
        decide (cur.imgLen.get active.other ≤ otaSlotSize) &&
        decide (cur.fwVersion.get active.other < otaVersionFloor cur)

def beginFailure (req : List UInt8) : Status → Option OtaErr
  | .outOfRange => some .sessionRange
  | .inval => if 8 ≤ req.length then some .eraseTarget else none
  | .io => some .metaDemoteFailed
  | _ => none

def writeFailure : Status → Option OtaErr
  | .outOfRange => some .chunkRange
  | .io => some .programFailed
  | .timeout => some .programFailed
  | _ => none

def verifyFailure (o : Ota) : Status → Option OtaErr
  | .inval => some .sessionRange
  | .ok => if inactiveCrc o = o.sess.expectedCrc then none else some .verifyCrc
  | _ => none

def commitFailure (o : Ota) : Status → Option OtaErr
  | .inval => some (commitRefusal o)
  | .io => some .commitFailed
  | _ => none

def rollbackFailure (o : Ota) : Status → Option OtaErr
  | .inval => if rollbackBelowFloor o then some .belowFloor else none
  | _ => none

/-- The failure that an answered request has put on the session, if any. -/
def failureOf (o : Ota) (cmd : UInt8) (req : List UInt8) (st : Status) : Option OtaErr :=
  if cmd = 0xF0 then beginFailure req st
  else if cmd = 0xF1 then writeFailure st
  else if cmd = 0xF2 then verifyFailure o st
  else if cmd = 0xF3 then commitFailure o st
  else if cmd = 0xF4 then rollbackFailure o st
  else none

/-- The failure that the end of an erase step puts on the session. -/
def publishFailure (s : Session) (snap : EraseSnapshot) (res : FmcResult) : Option OtaErr :=
  if s.erasing ∧ s.eraseEpoch = snap.epoch ∧ res ≠ .ok then some .eraseFailed else none

/-- How a step may change state and error, given the failure it put on the session. -/
inductive Attributes (s s' : Session) (accepted : Bool) : Option OtaErr → Prop
  | failed (e : OtaErr) (he : e ≠ .none) (hs : s'.state = .error) (herr : s'.err = e) :
      Attributes s s' accepted (some e)
  | kept (ha : accepted = false) (hs : s'.state = .error ↔ s.state = .error)
      (herr : s'.err = s.err) : Attributes s s' accepted none
  | opened (ha : accepted = true) (hs : s'.state = .busy) (herr : s'.err = s.err) :
      Attributes s s' accepted none
  | cleared (ha : accepted = false) (hs : s'.state = .idle) (herr : s'.err = .none) :
      Attributes s s' accepted none

/-- The answer of a request accounts for what it did to state and error. -/
def Attributed (o : Ota) (cmd : UInt8) (failure : Status → Option OtaErr) : Ota × Outcome → Prop
  | (o', .reply st p) => Attributes o.sess o'.sess (acceptsBegin cmd (.reply st p)) (failure st)
  | (_, _) => True

section

variable (o : Ota) (req : List UInt8) (cap : ℕ)

lemma Attributed.same {cmd : UInt8} {st : Status} {p : List UInt8} {f : Status → Option OtaErr}
    (ha : acceptsBegin cmd (.reply st p) = false) (hf : f st = none) :
    Attributed o cmd f (o, .reply st p) := by
  rw [Attributed, hf]
  exact .kept ha Iff.rfl rfl

lemma Attributed.fail {cmd : UInt8} {st : Status} {p : List UInt8} {f : Status → Option OtaErr}
    {o' : Ota} {e : OtaErr} (he : e ≠ .none) (hf : f st = some e) (hs : o'.sess.state = .error)
    (herr : o'.sess.err = e) : Attributed o cmd f (o', .reply st p) := by
  rw [Attributed, hf]
  exact .failed e he hs herr

lemma Attributed.of_hBegin : Attributed o 0xF0 (beginFailure req) (hBegin o req cap) := by
  have harm : ∀ b, Attributed o 0xF0 (beginFailure req)
      (beginArm { o with board := b } (.ofRequest req) cap) := fun b => .opened rfl rfl rfl
  simp only [hBegin, if_neg o.run.not_overlap]
  split
  · next hshort =>
    refine .same o rfl ?_
    rw [beginFailure, if_neg (Nat.not_le.mpr hshort)]
  split
  · exact .fail o (e := .sessionRange) (by decide) rfl rfl rfl
  cases metaCurrent o.board.flash with
  | none => exact harm o.board
  | some x =>
  dsimp only
  split
  · exact .fail o (e := .metaDemoteFailed) (by decide) rfl rfl rfl
  split
  · exact .same o rfl rfl
  generalize metaCommit o.board o.run (demoteWrite o.run x.1) = y
  obtain ⟨b, _ | _ | _⟩ := y
  · trivial
  · exact .fail o (e := .metaDemoteFailed) (by decide) rfl rfl rfl
  · exact harm b

lemma Attributed.of_hWrite : Attributed o 0xF1 writeFailure (hWrite o req cap) := by
  have hack : o.sess.state = .ready → ∀ b lastOff, Attributed o 0xF1 writeFailure
      (writeAck { o with board := b, sess := { o.sess with lastOff := lastOff } } cap) :=
    fun hs b lastOff => .kept rfl (by simp [hs]) rfl
  simp only [hWrite]
  split
  · exact .same o rfl rfl
  next hst =>
  have hst := not_not.mp hst
  split
  · exact .same o rfl rfl
  split
  · exact .same o rfl rfl
  split
  · exact .fail o (e := .chunkRange) (by decide) rfl rfl rfl
  split
  · exact .same o rfl rfl
  split
  · split
    · exact hack hst o.board o.sess.lastOff
    · exact .fail o (e := .programFailed) (by decide) rfl rfl rfl
  generalize otaFmcProgram o.board o.run _ _ = y
  obtain ⟨b, _ | _ | _ | _⟩ := y
  · trivial
  · exact hack hst b _
  · exact .fail o (e := .programFailed) (by decide) rfl rfl rfl
  · exact .fail o (e := .programFailed) (by decide) rfl rfl rfl

lemma Attributed.of_hVerify : Attributed o 0xF2 (verifyFailure o) (hVerify o cap) := by
  simp only [hVerify]
  split
  · exact .same o rfl rfl
  next hst =>
  have hst := not_not.mp hst
  split
  · exact .fail o (e := .sessionRange) (by decide) rfl rfl rfl
  by_cases hcrc : inactiveCrc o = o.sess.expectedCrc
  · have hf : verifyFailure o .ok = none := by rw [verifyFailure, if_pos hcrc]
    rw [Attributed, hf]
    exact .kept rfl (by simp [hcrc, hst]) (by simp [hcrc])
  · have hf : verifyFailure o .ok = some .verifyCrc := by rw [verifyFailure, if_neg hcrc]
    exact .fail o (by decide) hf (by simp [hcrc]) (by simp [hcrc])

lemma Attributed.of_hCommit : Attributed o 0xF3 (commitFailure o) (hCommit o) := by
  simp only [hCommit]
  split
  · exact .same o rfl rfl
  split
  · next hlen =>
    refine .fail o (e := .sessionRange) (by decide) ?_ rfl rfl
    simp only [commitFailure, commitRefusal, if_pos hlen]
  next hlen =>
  split
  · next hboot =>
    refine .fail o (e := .commitFailed) (by decide) ?_ rfl rfl
    simp only [commitFailure, commitRefusal, if_neg hlen, if_pos hboot]
  next hboot =>
  split
  · next hcap =>
    refine .fail o (e := .notTrialCapable) (by decide) ?_ rfl rfl
    simp only [commitFailure, commitRefusal, if_neg hlen, if_neg hboot, if_pos hcap]
  next hcap =>
  split
  · refine .fail o (e := .belowFloor) (by decide) ?_ rfl rfl
    simp only [commitFailure, commitRefusal, if_neg hlen, if_neg hboot, if_neg hcap]
  generalize metaCommit o.board o.run (commitWrite o.sess) = y
  obtain ⟨b, _ | _ | _⟩ := y
  · trivial
  · exact .fail o (e := .commitFailed) (by decide) rfl rfl rfl
  · trivial

lemma Attributed.of_hRollback : Attributed o 0xF4 (rollbackFailure o) (hRollback o) := by
  have hno : rollbackBelowFloor o = false → rollbackFailure o .inval = none := by
    intro h
    rw [rollbackFailure, h]
    rfl
  simp only [hRollback]
  split
  · exact .same o rfl rfl
  split
  · next hcur => exact .same o rfl (hno (by simp [rollbackBelowFloor, hcur]))
  next cur p hcur =>
  split
  · next hact => exact .same o rfl (hno (by simp [rollbackBelowFloor, hcur, hact]))
  next active hact =>
  split
  · next hdesc =>
    refine .same o rfl (hno ?_)
    rcases hdesc with h | h | h
    · simp [rollbackBelowFloor, hcur, hact, show cur.valid active.other = false by simpa using h]
    · simp [rollbackBelowFloor, hcur, hact, h]
    · simp [rollbackBelowFloor, hcur, hact, UInt32.not_le.mpr h]
  next hdesc =>
  rw [not_or, not_or] at hdesc
  split
  · next hfloor =>
    refine .fail o (e := .belowFloor) (by decide) ?_ rfl rfl
    have hv : cur.valid active.other = true := by simpa using hdesc.1
    simp [rollbackFailure, rollbackBelowFloor, hcur, hact, hv, hdesc.2.1,
      UInt32.not_lt.mp hdesc.2.2, hfloor]
  next hfloor =>
  split
  · exact .same o rfl (hno (by simp [rollbackBelowFloor, hcur, hact, hfloor]))
  generalize metaCommit o.board o.run _ = y
  obtain ⟨b, _ | _ | _⟩ := y
  · trivial
  · exact .kept rfl Iff.rfl rfl
  · trivial

/-- Every OTA request accounts for its failure. -/
theorem Attributed.of_otaDispatch (cmd : UInt8) :
    Attributed o cmd (failureOf o cmd req) (otaDispatch o cmd req cap) := by
  by_cases h₀ : cmd = 0xF0
  · have hf : failureOf o cmd req = beginFailure req := by
      funext st
      rw [failureOf, if_pos h₀]
    rw [hf, otaDispatch, if_pos h₀, h₀]
    exact .of_hBegin o req cap
  by_cases h₁ : cmd = 0xF1
  · have hf : failureOf o cmd req = writeFailure := by
      funext st
      rw [failureOf, if_neg h₀, if_pos h₁]
    rw [hf, otaDispatch, if_neg h₀, if_pos h₁, h₁]
    exact .of_hWrite o req cap
  by_cases h₂ : cmd = 0xF2
  · have hf : failureOf o cmd req = verifyFailure o := by
      funext st
      rw [failureOf, if_neg h₀, if_neg h₁, if_pos h₂]
    rw [hf, otaDispatch, if_neg h₀, if_neg h₁, if_pos h₂, h₂]
    exact .of_hVerify o cap
  by_cases h₃ : cmd = 0xF3
  · have hf : failureOf o cmd req = commitFailure o := by
      funext st
      rw [failureOf, if_neg h₀, if_neg h₁, if_neg h₂, if_pos h₃]
    rw [hf, otaDispatch, if_neg h₀, if_neg h₁, if_neg h₂, if_pos h₃, h₃]
    exact .of_hCommit o
  by_cases h₄ : cmd = 0xF4
  · have hf : failureOf o cmd req = rollbackFailure o := by
      funext st
      rw [failureOf, if_neg h₀, if_neg h₁, if_neg h₂, if_neg h₃, if_pos h₄]
    rw [hf, otaDispatch, if_neg h₀, if_neg h₁, if_neg h₂, if_neg h₃, if_pos h₄, h₄]
    exact .of_hRollback o
  have hf : ∀ st, failureOf o cmd req st = none := fun st => by
    rw [failureOf, if_neg h₀, if_neg h₁, if_neg h₂, if_neg h₃, if_neg h₄]
  have ha : ∀ st p, acceptsBegin cmd (.reply st p) = false := fun st p => by
    simp [acceptsBegin, h₀]
  rw [otaDispatch, if_neg h₀, if_neg h₁, if_neg h₂, if_neg h₃, if_neg h₄]
  split
  · exact .same o (ha _ _) (hf _)
  split
  · rw [hAbort, Attributed, hf]
    exact .cleared (ha _ _) rfl rfl
  · exact .same o (ha _ _) (hf _)

end

lemma Attributes.of_publish (s : Session) (snap : EraseSnapshot) (res : FmcResult) :
    Attributes s (otaErasePublish s snap res) false (publishFailure s snap res) := by
  simp only [otaErasePublish, publishFailure]
  by_cases hlive : (!s.erasing) = true ∨ s.eraseEpoch ≠ snap.epoch
  · have hno : ¬ (s.erasing = true ∧ s.eraseEpoch = snap.epoch ∧ res ≠ .ok) := by
      rintro ⟨he, hep, -⟩
      rcases hlive with h | h
      · simp [he] at h
      · exact h hep
    simp only [if_pos hlive, if_neg hno]
    exact .kept rfl Iff.rfl rfl
  simp only [if_neg hlive]
  rw [not_or, not_not] at hlive
  by_cases hres : res = .ok
  · have hno : ¬ (s.erasing = true ∧ s.eraseEpoch = snap.epoch ∧ res ≠ .ok) :=
      fun h => h.2.2 hres
    simp only [if_neg (not_not.mpr hres), if_neg hno]
    split
    · refine .kept rfl ?_ rfl
      dsimp only
      split
      · next hb => simp [hb]
      · exact Iff.rfl
    · exact .kept rfl Iff.rfl rfl
  · have hyes : s.erasing = true ∧ s.eraseEpoch = snap.epoch ∧ res ≠ .ok :=
      ⟨by simpa using hlive.1, hlive.2, hres⟩
    simp only [if_pos hres, if_pos hyes]
    exact .failed _ (by decide) rfl rfl

/-! ### Over a run -/

/-- The status of an answered request. -/
def Outcome.status : Outcome → Option Status
  | .reply st _ => some st
  | _ => none

/-- The failure a step puts on the session. -/
def stepFailure : Core → Label → Option OtaErr
  | .on o _, .request _ cmd pl script =>
    if o.trial then none
    else
      (otaDispatch (o.prepare script) cmd pl maxPayloadBytes).2.status.bind
        (failureOf (o.prepare script) cmd pl)
  | .on o (.returned (.erase snap) res), .base _ => publishFailure o.sess snap res
  | _, _ => none

/-- The cause of the last failure, kept beside the run. -/
def causeUpd {σ : Type} (cause : OtaErr) (s : Sys σ) (l : Label) (_ : Sys σ) : OtaErr :=
  (stepFailure s.core l).getD cause

/-- No BEGIN is accepted while the session is in `OTA_ST_ERROR`. -/
def ClearedFirst : Core → Label → Prop
  | .on o _, l => beginAccepted o l = true → o.sess.state ≠ .error
  | .off _, _ => True

/-- The error is set exactly in `OTA_ST_ERROR`, and then it is the cause of the last failure. -/
def Session.Accounted (s : Session) (cause : OtaErr) : Prop :=
  (s.err ≠ .none ↔ s.state = .error) ∧ (s.state = .error → s.err = cause)

def Core.Accounted (cause : OtaErr) : Core → Prop
  | .off _ => True
  | .on o _ => o.sess.Accounted cause

/-- One step lemma for every way the error can change. -/
lemma Attributes.accounted {s s' : Session} {accepted : Bool} {f : Option OtaErr} {cause : OtaErr}
    (h : Attributes s s' accepted f) (hok : accepted = true → s.state ≠ .error)
    (hs : s.Accounted cause) : s'.Accounted (f.getD cause) := by
  obtain ⟨hiff, hcause⟩ := hs
  cases h with
  | failed e he hs' herr =>
    refine ⟨iff_of_true (by rwa [herr]) hs', fun _ => ?_⟩
    rw [herr]
    rfl
  | kept _ hs' herr =>
    refine ⟨?_, fun h => ?_⟩
    · rw [herr, hs']
      exact hiff
    · rw [herr]
      exact hcause (hs'.mp h)
  | opened ha hs' herr =>
    have hnone : s.err = .none := not_not.mp (mt hiff.mp (hok ha))
    refine ⟨iff_of_false (by rw [herr, hnone]; simp) (by rw [hs']; simp), fun h => ?_⟩
    rw [hs'] at h
    cases h
  | cleared _ hs' herr =>
    refine ⟨iff_of_false (by rw [herr]; simp) (by rw [hs']; simp), fun h => ?_⟩
    rw [hs'] at h
    cases h

/-- A step of a running device accounts for its failure. -/
lemma Attributes.of_step {o o' : Ota} {pc pc' : BasePc} {l : Label}
    (hs : CoreStep (.on o pc) l (.on o' pc')) :
    Attributes o.sess o'.sess (beginAccepted o l) (stepFailure (.on o pc) l) := by
  -- the steps that are neither an OTA request nor the end of an erase step
  have hkeep : ∀ {l}, beginAccepted o l = false → stepFailure (.on o pc) l = none →
      o'.sess = o.sess → Attributes o.sess o'.sess (beginAccepted o l) (stepFailure (.on o pc) l) := by
    intro l ha hf hsess
    rw [hf, ha, hsess]
    exact .kept rfl Iff.rfl rfl
  generalize hc' : Core.on o' pc' = c' at hs
  cases hs with
  | gated ht =>
    cases hc'
    exact hkeep (by simp [beginAccepted, ht]) (by simp [stepFailure, ht]) rfl
  | @passive _ _ link cmd pl script ht hcmd =>
    cases hc'
    refine hkeep (not_ota_of_lt hcmd).1 ?_ rfl
    have hlt : cmd.toNat < 240 := hcmd
    have hf : ∀ st, failureOf (o.prepare script) cmd pl st = none := fun st => by
      have hne : ∀ c : UInt8, 240 ≤ c.toNat → cmd ≠ c := by
        rintro c hc rfl
        omega
      rw [failureOf, if_neg (hne _ (by decide)), if_neg (hne _ (by decide)),
        if_neg (hne _ (by decide)), if_neg (hne _ (by decide)), if_neg (hne _ (by decide))]
    simp [stepFailure, hf]
  | @request _ _ link cmd pl script x ht hx =>
    have hattr := Attributed.of_otaDispatch (o.prepare script) pl maxPayloadBytes cmd
    simp only [beginAccepted, stepFailure, ht, Bool.not_false, Bool.true_and, Bool.false_eq_true,
      if_false]
    rw [← hx] at hattr ⊢
    obtain ⟨st, p, rfl, rfl⟩ := Core.after_eq_on hc'.symm
    exact hattr
  | idle hl =>
    cases hc'
    rcases hl with rfl | rfl | rfl <;> exact hkeep rfl rfl rfl
  | idleConfirm | snapshot | storeStart | refused | enter | release | storeNext =>
    cases hc'
    exact hkeep rfl rfl rfl
  | confirm =>
    rcases confirmAfter_cases _ _ _ with h | h <;> rw [h] at hc' <;> cases hc'
    exact hkeep rfl rfl rfl
  | op =>
    rcases walkAfter_cases _ _ _ _ _ with h | ⟨_, -, h⟩ <;> rw [h] at hc' <;> cases hc'
    exact hkeep rfl rfl rfl
  | publish =>
    cases hc'
    exact .of_publish _ _ _
  | powerOff => cases hc'

/-- One step keeps the error accounted for. -/
theorem Core.Accounted.step {c c' : Core} {l : Label} {cause : OtaErr} (hs : CoreStep c l c')
    (hok : ClearedFirst c l) (h : c.Accounted cause) :
    c'.Accounted ((stepFailure c l).getD cause) := by
  cases c' with
  | off b => trivial
  | on o' pc' =>
    cases c with
    | off b =>
      have hinit := hs.boot_sess.1
      refine ⟨?_, ?_⟩
      · rw [hinit]
        exact iff_of_false (not_not.mpr rfl) nofun
      · rw [hinit]
        exact nofun
    | on o pc => exact (Attributes.of_step hs).accounted hok h

section

variable {σ : Type} {hal : Hal σ}

/-- What OTA_GET_STATE answers once the gate is down. -/
lemma protocolDispatch_getState {d : Device σ} (hg : d.ota.trial = false) (link : Link)
    (req : List UInt8) : ∃ act pend lo hi,
      (protocolDispatch hal false link 0xF5 d req maxPayloadBytes).2 =
        .reply .ok [d.ota.sess.state.code, act, pend, lo, hi, d.ota.sess.err.code] := by
  simp only [protocolDispatch, protocolDispatchInner, hg, Bool.false_eq_true, if_false]
  exact ⟨_, _, _, _, rfl⟩

/-- In every run in which no BEGIN is accepted in `OTA_ST_ERROR`, OTA_GET_STATE answers with an
error byte that is non-zero exactly when the state byte is `OTA_ST_ERROR`, and is then the cause of
the failure that put the session there. -/
theorem getState_accounted_of_reach {x : Sys σ × OtaErr}
    (h : Reach (withHistory (step hal) causeUpd) (fun x => x.1.Unpowered)
      (fun x l _ => ClearedFirst x.1.core l) x)
    {d : Device σ} {pc : BasePc} (hx : x.1 = .on d pc) (hgate : d.ota.trial = false) (link : Link)
    (req : List UInt8) :
    ∃ st act pend lo hi err,
      (protocolDispatch hal false link 0xF5 d req maxPayloadBytes).2 =
        .reply .ok [st, act, pend, lo, hi, err] ∧
      (err ≠ 0 ↔ st = OtaState.error.code) ∧ (st = OtaState.error.code → err = x.2.code) := by
  have key : x.1.core.Accounted x.2 := by
    apply Reach.invariant (I := fun x : Sys σ × OtaErr => x.1.core.Accounted x.2) ?_ ?_ h
    · rintro ⟨s, e⟩ hs
      cases s with
      | off b => trivial
      | on d pc => cases hs
    · intro x l y _ hi hs hok
      obtain ⟨hstep, hupd⟩ := withHistory_eq_some.mp hs
      rw [hupd]
      exact Core.Accounted.step (.of_step hstep) hok hi
  rw [hx] at key
  have key : d.ota.sess.Accounted x.2 := key
  have hcode : ∀ e : OtaErr, e.code ≠ 0 ↔ e ≠ .none := by
    intro e
    cases e <;> decide
  have hstate : ∀ s : OtaState, s.code = OtaState.error.code ↔ s = .error := by
    intro s
    cases s <;> decide
  obtain ⟨act, pend, lo, hi, hreply⟩ := protocolDispatch_getState hgate link req
  refine ⟨_, act, pend, lo, hi, _, hreply, ?_, ?_⟩
  · rw [hcode, hstate]
    exact key.1
  · intro hs
    rw [key.2 ((hstate _).mp hs)]

end

/-! ### Runs -/

/-- A BEGIN of an empty image, rejected. -/
def emptyBegin : Label :=
  .request .spi 0xF0 (List.replicate 8 0) []

/-- A BEGIN that is accepted. -/
def goodBegin : Label :=
  .request .spi 0xF0 (84 :: List.replicate 7 0) []

/-- The session is in state `st` with error `e`, and the gate is down. -/
def sessionIs (st : OtaState) (e : OtaErr) (x : Sys Unit × OtaErr) : Bool :=
  match x.1 with
  | .on d _ => !d.ota.trial && d.ota.sess.state == st && d.ota.sess.err == e && x.2 == e
  | .off _ => false

lemma sessionIs_eq_true {st : OtaState} {e : OtaErr} {x : Sys Unit × OtaErr}
    (h : sessionIs st e x = true) : ∃ d pc, x.1 = .on d pc ∧ d.ota.trial = false ∧
      d.ota.sess.state = st ∧ d.ota.sess.err = e ∧ x.2 = e := by
  obtain ⟨s, c⟩ := x
  cases s with
  | off b => cases h
  | on d pc =>
    simp only [sessionIs, Bool.and_eq_true, Bool.not_eq_true', beq_iff_eq] at h
    exact ⟨d, pc, rfl, h.1.1.1, h.1.1.2, h.1.2, h.2⟩

/-- `ClearedFirst` as a test. -/
def clearedCheck : Core → Label → Bool
  | .on o _, l => !(beginAccepted o l && o.sess.state == .error)
  | .off _, _ => true

lemma ClearedFirst.of_check {c : Core} {l : Label} (h : clearedCheck c l = true) :
    ClearedFirst c l := by
  cases c with
  | off b => trivial
  | on o pc =>
    intro ha he
    simp [clearedCheck, ha, he] at h

set_option maxRecDepth 20000 in
/-- After a rejected BEGIN the error byte is the cause of the rejection. -/
theorem getState_accounted_after_reject :
    ∃ (d : Device Unit) (act pend lo hi err : UInt8), d.ota.sess.state = .error ∧
      (protocolDispatch .stub false .spi 0xF5 d [] maxPayloadBytes).2 =
        .reply .ok [OtaState.error.code, act, pend, lo, hi, err] ∧
      err = OtaErr.sessionRange.code := by
  have hinit : Reach (withHistory (step .stub) causeUpd) (fun x => x.1.Unpowered)
      (fun x l _ => ClearedFirst x.1.core l) (sampleDevice, .none) := .start trivial
  obtain ⟨x, hx, hq⟩ := hinit.exists_of_run (fun x l _ => clearedCheck x.1.core l)
    (sessionIs .error .sessionRange) [.boot false [], emptyBegin] (fun _ _ _ h => .of_check h)
    (by decide +kernel)
  obtain ⟨d, pc, hd, hg, hs, -, hc⟩ := sessionIs_eq_true hq
  obtain ⟨st, act, pend, lo, hi, err, hr, -, hcause⟩ :=
    getState_accounted_of_reach hx hd hg .spi []
  have hst : st = OtaState.error.code := by
    obtain ⟨_, _, _, _, hreply⟩ := protocolDispatch_getState hg .spi []
    rw [hreply, Outcome.reply.injEq, List.cons.injEq] at hr
    rw [← hr.2.1, hs]
  refine ⟨d, act, pend, lo, hi, err, hs, ?_, ?_⟩
  · rw [hr, hst]
  · rw [hcause hst, hc]

set_option maxRecDepth 20000 in
/-- A BEGIN accepted after a rejected one: the state byte is BUSY and the error byte still tells of
the rejection. -/
theorem getState_stale_after_begin :
    ∃ (d : Device Unit) (pc : BasePc) (act pend lo hi err : UInt8),
      Reach (step .stub) Sys.Unpowered (fun _ _ _ => True) (.on d pc) ∧
      (protocolDispatch .stub false .spi 0xF5 d [] maxPayloadBytes).2 =
        .reply .ok [OtaState.busy.code, act, pend, lo, hi, err] ∧
      err = OtaErr.sessionRange.code := by
  have hinit : Reach (withHistory (step .stub) causeUpd) (fun x => x.1.Unpowered)
      (fun _ _ _ => True) (sampleDevice, .none) := .start trivial
  obtain ⟨x, hx, hq⟩ := hinit.exists_of_run (fun _ _ _ => true)
    (sessionIs .busy .sessionRange) [.boot false [], emptyBegin, goodBegin]
    (fun _ _ _ _ => trivial) (by decide +kernel)
  obtain ⟨d, pc, hd, hg, hs, he, -⟩ := sessionIs_eq_true hq
  have hreach : Reach (step .stub) Sys.Unpowered (fun _ _ _ => True) x.1 := hx.forget fun _ h => h
  rw [hd] at hreach
  obtain ⟨act, pend, lo, hi, hreply⟩ := protocolDispatch_getState hg .spi []
  rw [hs, he] at hreply
  exact ⟨d, pc, act, pend, lo, hi, _, hreach, hreply, rfl⟩

end Gd32Bridge
