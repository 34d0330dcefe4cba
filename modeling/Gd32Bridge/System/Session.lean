import Gd32Bridge.System.Safe

/-!
# The session

How a request changes the session, by cases (`SessionRule`), and what a session that is VERIFIED
stands for: the bytes of the inactive slot have the CRC that the BEGIN which opened the session
declared, now and not only when VERIFY looked at them.
-/

namespace Gd32Bridge

open Memory Transition

/-! ### What a request does to the session -/

/-- The session after a request that was answered with `out`. -/
inductive SessionRule (o : Ota) (cmd : UInt8) (req : List UInt8) (out : Outcome) : Session → Prop
  | keep (ha : acceptsBegin cmd out = false) (hr : rejectsBegin cmd req out = false)
      (hcmd : cmd ≠ 0xF6) : SessionRule o cmd req out o.sess
  | fail (e : OtaErr) (hs : o.sess.state ≠ .busy) (hb : cmd ≠ 0xF0) (ha : cmd ≠ 0xF6) :
      SessionRule o cmd req out (o.fail e).sess
  | reject (e : OtaErr) (ha : acceptsBegin cmd out = false)
      (hr : rejectsBegin cmd req out = true) : SessionRule o cmd req out (o.sessionReject e).sess
  | abort (hcmd : cmd = 0xF6) : SessionRule o cmd req out (hAbort o).1.sess
  | opened (ha : acceptsBegin cmd out = true) (hr : rejectsBegin cmd req out = false) :
      SessionRule o cmd req out (o.openSession (.ofRequest req)).sess
  | acked (lastOff : UInt32) (hs : o.sess.state = .ready) (hcmd : cmd = 0xF1) :
      SessionRule o cmd req out { o.sess with lastOff := lastOff, state := .ready }
  | verified (hs : o.sess.state = .ready) (hcmd : cmd = 0xF2) :
      SessionRule o cmd req out (verifiedSession o)

lemma acceptsBegin_reply {p : List UInt8} : acceptsBegin 0xF0 (.reply .ok p) = true := by
  simp [acceptsBegin]

lemma rejectsBegin_ok {cmd : UInt8} {req p : List UInt8} :
    rejectsBegin cmd req (.reply .ok p) = false := by
  simp [rejectsBegin]

lemma acceptsBegin_of_rejects {cmd : UInt8} {req : List UInt8} {st : Status} {p : List UInt8}
    (h : rejectsBegin cmd req (.reply st p) = true) : acceptsBegin cmd (.reply st p) = false := by
  simp only [rejectsBegin, Bool.and_eq_true, bne_iff_ne] at h
  simp [acceptsBegin, h.1.2]

/-- Every answered request changes the session by one of the cases. -/
theorem SessionRule.of_rule {o : Ota} {cmd : UInt8} {req : List UInt8} {x : Ota × Outcome}
    (rule : OtaRule o cmd req x) {st : Status} {p : List UInt8} (hx : x.2 = .reply st p) :
    SessionRule o cmd req x.2 x.1.sess := by
  cases rule with
  | same st p ha hr hcmd => exact .keep ha hr hcmd
  | reject e st hcmd hr => exact .reject e (acceptsBegin_of_rejects hr) hr
  | fail e st hs hb ha => exact .fail e hs hb ha
  | abort hcmd => exact .abort hcmd
  | verify cap hcmd hs hlen =>
    obtain ⟨q, hv⟩ := hVerify_eq hs hlen cap
    rw [hv]
    exact .verified hs hcmd
  | armBlank cap hcmd hlen hnone =>
    subst hcmd
    exact .opened acceptsBegin_reply rejectsBegin_ok
  | demote cap cur q hcmd hd =>
    subst hcmd
    generalize metaCommit o.board o.run (demoteWrite o.run cur) = y at hx ⊢
    obtain ⟨b, _ | _ | _⟩ := y
    · cases hx
    · have hr : rejectsBegin 0xF0 req (.reply .io []) = true := by simp [rejectsBegin, hd.size]
      exact .reject .metaDemoteFailed (acceptsBegin_of_rejects hr) hr
    · exact .opened acceptsBegin_reply rejectsBegin_ok
  | replay cap hcmd hs => exact .acked o.sess.lastOff hs hcmd
  | chunk off top data cap hcmd hs =>
    have hne : o.sess.state ≠ .busy := by simp [hs]
    generalize otaFmcProgram o.board o.run (o.inactiveBase + off) data = y at hx ⊢
    obtain ⟨b, _ | _ | _ | _⟩ := y
    · cases hx
    · exact .acked _ hs hcmd
    · exact .fail _ hne (by simp [hcmd]) (by simp [hcmd])
    · exact .fail _ hne (by simp [hcmd]) (by simp [hcmd])
  | commit hcmd hc =>
    generalize metaCommit o.board o.run (commitWrite o.sess) = y at hx ⊢
    obtain ⟨b, _ | _ | _⟩ := y
    · cases hx
    · exact .fail _ (by simp [hc.state]) (by simp [hcmd]) (by simp [hcmd])
    · cases hx
  | rollback cur q active w hcmd =>
    subst hcmd
    generalize metaCommit o.board o.run w = y at hx ⊢
    obtain ⟨b, _ | _ | _⟩ := y
    · cases hx
    · exact .keep rfl rfl (by decide)
    · cases hx

/-! ### What a step does to the session -/

/-- The request is an accepted BEGIN. -/
def beginAccepted (o : Ota) : Label → Bool
  | .request _ cmd pl script =>
    !o.trial && acceptsBegin cmd (otaDispatch (o.prepare script) cmd pl maxPayloadBytes).2
  | _ => false

/-- The request cancels the session: an ABORT, or a rejected BEGIN. -/
def sessionCancelled (o : Ota) : Label → Bool
  | .request _ cmd pl script =>
    !o.trial && (cmd == 0xF6 ||
      rejectsBegin cmd pl (otaDispatch (o.prepare script) cmd pl maxPayloadBytes).2)
  | _ => false

/-- VERIFY leaves the board alone. -/
lemma OtaRule.board_of_verify {o : Ota} {req : List UInt8} {x : Ota × Outcome}
    (rule : OtaRule o 0xF2 req x) : x.1.board = o.board := by
  cases rule with
  | same | fail => rfl
  | verify cap hcmd hs hlen =>
    obtain ⟨p, hv⟩ := hVerify_eq hs hlen cap
    rw [hv]
  | reject _ _ hcmd | abort hcmd | armBlank _ hcmd | demote _ _ _ hcmd | replay _ hcmd
  | chunk _ _ _ _ hcmd | commit hcmd | rollback _ _ _ _ hcmd => exact absurd hcmd (by decide)

/-- The session after a step that leaves the device running. -/
inductive SessionStep (o : Ota) (pc : BasePc) : Label → Ota → Prop
  | keep {l : Label} {o' : Ota} (h : o'.sess = o.sess) (ha : beginAccepted o l = false)
      (hc : sessionCancelled o l = false) : SessionStep o pc l o'
  | request {link : Link} {cmd : UInt8} {pl : List UInt8} {script : List PhysResult} {out : Outcome}
      {o' : Ota} (ht : o.trial = false)
      (hout : out = (otaDispatch (o.prepare script) cmd pl maxPayloadBytes).2)
      (rule : SessionRule o cmd pl out o'.sess)
      (hv : cmd = 0xF2 → o'.board.flash = o.board.flash) :
      SessionStep o pc (.request link cmd pl script) o'
  | publish {snap : EraseSnapshot} {res : FmcResult} {r : PhysResult} {o' : Ota}
      (hpc : pc = .returned (.erase snap) res) (h : o'.sess = otaErasePublish o.sess snap res) :
      SessionStep o pc (.base r) o'

/-- Table requests are none of the session's business. -/
lemma not_ota_of_lt {o : Ota} {link : Link} {cmd : UInt8} {pl : List UInt8}
    {script : List PhysResult} (hcmd : cmd < cmdOtaBegin) :
    beginAccepted o (.request link cmd pl script) = false ∧
      sessionCancelled o (.request link cmd pl script) = false := by
  have h₀ : (cmd == 0xF0) = false := by
    rw [beq_eq_false_iff_ne]
    rintro rfl
    exact absurd hcmd (by decide)
  have h₆ : (cmd == 0xF6) = false := by
    rw [beq_eq_false_iff_ne]
    rintro rfl
    exact absurd hcmd (by decide)
  simp only [beginAccepted, sessionCancelled, acceptsBegin, rejectsBegin, h₀, h₆]
  constructor <;> split <;> simp

lemma SessionRule.of_prepare {o : Ota} {script : List PhysResult} {cmd : UInt8} {req : List UInt8}
    {out : Outcome} {s' : Session} (h : SessionRule (o.prepare script) cmd req out s') :
    SessionRule o cmd req out s' := by
  cases h with
  | keep ha hr hcmd => exact .keep ha hr hcmd
  | fail e hs hb ha => exact .fail e hs hb ha
  | reject e ha hr => exact .reject e ha hr
  | abort hcmd => exact .abort hcmd
  | opened ha hr => exact .opened ha hr
  | acked lastOff hs hcmd => exact .acked lastOff hs hcmd
  | verified hs hcmd => exact .verified hs hcmd

/-- Every step of a running device is one of the cases for its session. -/
theorem SessionStep.of_step {o o' : Ota} {pc pc' : BasePc} {l : Label}
    (hs : CoreStep (.on o pc) l (.on o' pc')) : SessionStep o pc l o' := by
  generalize hc' : Core.on o' pc' = c' at hs
  cases hs with
  | gated ht =>
    cases hc'
    exact .keep rfl (by simp [beginAccepted, ht]) (by simp [sessionCancelled, ht])
  | passive ht hcmd =>
    cases hc'
    exact .keep rfl (not_ota_of_lt hcmd).1 (not_ota_of_lt hcmd).2
  | @request _ _ link cmd pl script x ht hx rule =>
    obtain ⟨st, p, rfl, rfl⟩ := Core.after_eq_on hc'.symm
    refine .request ht (by rw [← hx]) (SessionRule.of_rule rule rfl).of_prepare ?_
    rintro rfl
    exact (congrArg Board.flash rule.board_of_verify).trans rfl
  | idle hl =>
    cases hc'
    rcases hl with rfl | rfl | rfl <;> exact .keep rfl rfl rfl
  | idleConfirm | snapshot | storeStart | refused | enter | release | storeNext =>
    cases hc'
    exact .keep rfl rfl rfl
  | confirm =>
    rcases confirmAfter_cases _ _ _ with h | h <;> rw [h] at hc' <;> cases hc'
    exact .keep rfl rfl rfl
  | op =>
    rcases walkAfter_cases _ _ _ _ _ with h | ⟨_, -, h⟩ <;> rw [h] at hc' <;> cases hc'
    exact .keep rfl rfl rfl
  | publish =>
    cases hc'
    exact .publish rfl rfl
  | powerOff => cases hc'

/-- A boot starts with the initial session. -/
lemma CoreStep.boot_sess {b : Board} {o' : Ota} {pc' : BasePc} {l : Label}
    (hs : CoreStep (.off b) l (.on o' pc')) : o'.sess = .initial o'.run ∧ pc' = .idle := by
  generalize hc' : Core.on o' pc' = c' at hs
  cases hs with
  | @boot _ wdt script dec x hd rule =>
    cases rule with
    | trial | settled =>
      cases hc'
      exact ⟨rfl, rfl⟩
    | heal n p =>
      generalize metaCommit (b.bootBoard script) dec.slot (selfHealWrite dec.slot n) = y at hc'
      match y, hc' with
      | (b', some _), hc' =>
        cases hc'
        exact ⟨rfl, rfl⟩

/-! ### What BEGIN declared -/

/-- The arguments of the last accepted BEGIN. -/
def declareAfter (a : BeginArgs) (c : Core) (l : Label) : BeginArgs :=
  match c, l with
  | .on o _, .request _ _ pl _ => if beginAccepted o l then .ofRequest pl else a
  | _, _ => a

/-- The session has been opened and not ended. -/
def Session.Open (s : Session) : Prop :=
  s.state ≠ .idle ∧ s.state ≠ .error

/-- An open session works with what the BEGIN that opened it declared. -/
def Core.Declared (a : BeginArgs) : Core → Prop
  | .off _ => True
  | .on o _ => o.sess.Open →
      o.sess.imgLen = a.imgLen ∧ o.sess.expectedCrc = a.expectedCrc ∧ o.sess.fwVersion = a.fwVersion

/-- The publication of an erase step opens no session and leaves its arguments. -/
lemma otaErasePublish_open {s : Session} {snap : EraseSnapshot} {res : FmcResult}
    (h : (otaErasePublish s snap res).Open) : s.Open := by
  simp only [otaErasePublish, Session.Open] at h
  split_ifs at h with h₁ h₂ h₃ h₄
  · exact h
  · exact absurd rfl h.2
  · exact ⟨by simp [h₄], by simp [h₄]⟩
  · exact h
  · exact h

lemma otaErasePublish_args (s : Session) (snap : EraseSnapshot) (res : FmcResult) :
    (otaErasePublish s snap res).imgLen = s.imgLen ∧
      (otaErasePublish s snap res).expectedCrc = s.expectedCrc ∧
      (otaErasePublish s snap res).fwVersion = s.fwVersion := by
  simp only [otaErasePublish]
  split_ifs <;> exact ⟨rfl, rfl, rfl⟩

lemma Session.Open.of_ready {s : Session} (h : s.state = .ready) : s.Open :=
  ⟨by simp [h], by simp [h]⟩

theorem Core.Declared.step {c c' : Core} {l : Label} {a : BeginArgs} (hs : CoreStep c l c')
    (h : c.Declared a) : c'.Declared (declareAfter a c l) := by
  cases c' with
  | off b => trivial
  | on o' pc' =>
    cases c with
    | off b =>
      intro hopen
      rw [hs.boot_sess.1] at hopen
      exact absurd rfl hopen.1
    | on o pc =>
      intro hopen
      cases SessionStep.of_step hs with
      | keep hsess ha =>
        have hdecl : declareAfter a (.on o pc) l = a := by
          cases l <;> simp [declareAfter, ha]
        rw [hsess] at hopen ⊢
        rw [hdecl]
        exact h hopen
      | request ht hout rule =>
        subst hout
        simp only [declareAfter, beginAccepted, ht, Bool.not_false, Bool.true_and]
        generalize o'.sess = s' at rule hopen ⊢
        cases rule with
        | keep ha => simpa [ha] using h hopen
        | fail => exact absurd rfl hopen.2
        | reject => exact absurd rfl hopen.2
        | abort => exact absurd rfl hopen.1
        | opened ha => simp [ha, Ota.openSession]
        | acked lastOff hs hcmd =>
          have hno : acceptsBegin 0xF1 = fun _ => false := by
            funext out
            cases out <;> rfl
          simpa [hcmd, hno] using h (.of_ready hs)
        | verified hs hcmd =>
          have hno : acceptsBegin 0xF2 = fun _ => false := by
            funext out
            cases out <;> rfl
          simpa [hcmd, hno, verifiedSession] using h (.of_ready hs)
      | @publish snap res _ _ hpc hsess =>
        obtain ⟨h₁, h₂, h₃⟩ := otaErasePublish_args o.sess snap res
        rw [hsess] at hopen ⊢
        rw [h₁, h₂, h₃]
        exact h (otaErasePublish_open hopen)

/-! ### VERIFIED -/

/-- In VERIFIED the bytes of the inactive slot have the CRC that was declared. -/
def Core.Verified : Core → Prop
  | .off _ => True
  | .on o _ => o.sess.state = .verified →
      inactiveCrc o = o.sess.imgCrc ∧ o.sess.imgCrc = o.sess.expectedCrc

lemma Tidy.not_working_of_verified {o : Ota} {pc : BasePc} (h : Tidy o pc)
    (hs : o.sess.state = .verified) : ¬ Working o pc := by
  rintro (he | he | he)
  · rw [h.not_erasing_of_verified hs] at he
    cases he
  · exact (h.settled he).2 hs
  · rw [hs] at he
    cases he

/-- Unless the other slot is being worked on, a move leaves the images alone. -/
lemma Move.slots {o : Ota} {pc : BasePc} {l : Label} {c : Core} (hm : Move (.on o pc) l c)
    (hw : ¬ Working o pc) (s : Slot) : SameSlot o.board.flash c.board.flash s := by
  cases hm with
  | still hst => exact hst.slots s
  | touch _ hw' => exact absurd hw' hw
  | blank _ _ hst => exact hst.slots s
  | demote _ _ hwr => exact hwr.slots s
  | commit _ _ hwr => exact hwr.slots s
  | rollback _ _ _ hwr => exact hwr.slots s
  | confirm _ _ _ hwr => exact hwr.slots s

/-- VERIFIED keeps its meaning until the session is left. -/
theorem Core.Verified.step {c c' : Core} {l : Label} (hs : CoreStep c l c') (hm : Move c l c')
    (ho : c.Ordered) (h : c.Verified) : c'.Verified := by
  cases c' with
  | off b => trivial
  | on o' pc' =>
    cases c with
    | off b =>
      intro hv
      rw [hs.boot_sess.1] at hv
      cases hv
    | on o pc =>
      -- while the session stays as it is, so does the image
      have hstay : o'.sess = o.sess → o.sess.state = .verified →
          inactiveCrc o' = o'.sess.imgCrc ∧ o'.sess.imgCrc = o'.sess.expectedCrc := by
        intro hsess hv
        have hlen := (ho.len (by simp [hv]) (by simp [hv])).2
        have hsame : o'.board.flash.bytes o.inactiveBase o.sess.imgLen.toNat =
            o.board.flash.bytes o.inactiveBase o.sess.imgLen.toNat :=
          hm.slots (ho.not_working_of_verified hv) o.sess.inactive _ hlen
        have hcrc : inactiveCrc o' = inactiveCrc o := by
          rw [inactiveCrc, Ota.inactiveBase, hsess]
          exact congrArg (otaCrc32 0) hsame
        rw [hcrc, hsess]
        exact h hv
      intro hv
      cases SessionStep.of_step hs with
      | keep hsess => exact hstay hsess (hsess ▸ hv)
      | request ht hout rule hflash =>
        generalize hs' : o'.sess = s' at rule hv
        cases rule with
        | keep => exact hs' ▸ hstay hs' hv
        | fail => cases hv
        | reject => cases hv
        | abort => cases hv
        | opened => cases hv
        | acked => cases hv
        | verified hs hcmd =>
          have hcrc : inactiveCrc o' = inactiveCrc o := by
            rw [inactiveCrc, Ota.inactiveBase, hs', hflash hcmd]
            rfl
          have heq : inactiveCrc o = o.sess.expectedCrc := by
            by_contra hne
            simp [verifiedSession, hne] at hv
          exact ⟨hcrc, heq⟩
      | @publish snap res _ _ hpc hsess =>
        have hrest := ho.settled ⟨snap, by rw [hpc]; rfl⟩
        rw [hsess] at hv
        simp only [otaErasePublish] at hv
        split_ifs at hv
        · exact absurd hv hrest.2
        · exact absurd hv hrest.2
        · exact absurd hv hrest.2

section

variable {σ : Type} {hal : Hal σ} {ok : Sys σ → Label → Sys σ → Prop} {s : Sys σ}

/-- The meaning of VERIFIED holds in every state a legal run reaches. -/
theorem reach_verified (hok : AtLeastLegal ok) (h : Reach (step hal) Provisioned ok s) :
    s.core.Verified := by
  apply Reach.invariant (I := fun s : Sys σ => s.core.Verified) ?_ ?_ h
  · intro s hp
    cases s with
    | off b => trivial
    | on d pc => cases hp
  · intro s l s' hr hi hs hl
    exact Core.Verified.step (.of_step hs) (reach_move hok hr hs hl) (reach_tidy hr) hi

end

end Gd32Bridge
