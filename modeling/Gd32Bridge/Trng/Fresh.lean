import Gd32Bridge.Trng.Rules

/-!
# Which words reach a host

A word is served when the unit has put out another, different one since it was last started.  Calls
that stop half-way, see a fault or see a repeated word keep the comparison going or reset the unit;
one path of `trng_poll_ready` does neither.
-/

namespace Gd32Bridge

open Endian Transition

variable {log : List TrngAccess} {u u' : Trng}

/-! ### What is remembered -/

/-- An OK reply: its bytes, and the positions in the log from the first of its words on. -/
structure TrngReply where
  len : ℕ
  bytes : List UInt8
  first : ℕ
  stop : ℕ
deriving DecidableEq, Repr

/-- A call that saw a fault or a repeated word: whether it left the unit demoted, and where it
ended. -/
structure TrngAlarm where
  demoted : Bool
  stop : ℕ
deriving DecidableEq, Repr

structure TrngHistory where
  replies : List TrngReply
  alarms : List TrngAlarm
deriving DecidableEq, Repr

/-- The reply of a call. -/
def TrngCall.reply (c : TrngCall) (u u' : Trng) : TrngReply :=
  ⟨c.len, (bridgeHwTrngRead u c.env c.len).2.2, u'.log.length - (c.len + 3) / 4, u'.log.length⟩

def TrngHistory.note (g : TrngHistory) (u : Trng) (c : TrngCall) (u' : Trng) : TrngHistory where
  replies :=
    if (bridgeHwTrngRead u c.env c.len).2.1 = .ok then c.reply u u' :: g.replies else g.replies
  alarms :=
    if observes u.log (u'.log.drop u.log.length) then
      ⟨!u'.started && !u'.ready && !u'.prevValid, u'.log.length⟩ :: g.alarms
    else g.alarms

/-- The reply is made of consecutive words of the log, of which none is the first since a start or
equal to the one before it. -/
def TrngReply.Fresh (r : TrngReply) (log : List TrngAccess) : Prop :=
  ∃ pre ws post, log = pre ++ ws.map .data ++ post ∧ pre.length = r.first ∧
    ws.length = (r.len + 3) / 4 ∧ r.stop = r.first + ws.length ∧ FreshRun pre ws ∧
    r.bytes = (ws.flatMap le32).take r.len

/-- Every reply is fresh, no word is in two replies, every alarm demotes the unit, and between an
alarm and a later reply the unit has been started and has put out a word. -/
structure TrngFresh (x : Trng × TrngHistory) : Prop where
  served : ∀ r ∈ x.2.replies, r.Fresh x.1.log
  disjoint : x.2.replies.Pairwise fun later earlier => earlier.stop ≤ later.first
  demoted : ∀ a ∈ x.2.alarms, a.demoted = true
  renewed : ∀ a ∈ x.2.alarms, ∀ r ∈ x.2.replies, a.stop < r.stop →
    Renewed (x.1.log.take r.first) a.stop

/-! ### Runs -/

/-- The boot-time rounds keep the variables sound. -/
lemma trngRounds_sound (env : ℕ → PollEnv) (n : ℕ) (h : u.Sound) : (trngRounds env n u).Sound := by
  induction n generalizing u with
  | zero => exact h
  | succ n ih =>
    rw [trngRounds]
    split_ifs with hpoll
    swap
    · exact h
    simp only [Bool.and_eq_true, Bool.not_eq_true'] at hpoll
    apply ih
    have hprimed (w : UInt32) : Trng.Sound { u.keep w with ready := true } :=
      TrngPrimed.sound h hpoll.1 (.inr ⟨hpoll.2, w, rfl⟩)
    simp only [trngPollReady]
    split_ifs
    · exact .demote _
    · exact .demote _
    · exact ⟨lastOutput_fault.trans h.last, h.ready, h.started⟩
    · exact hprimed _
    · exact .demote _
    · exact h

/-- The invariant of a run. -/
structure TrngInv (x : Trng × TrngHistory) : Prop extends TrngFresh x where
  sound : x.1.Sound
  stops : ∀ r ∈ x.2.replies, r.stop ≤ x.1.log.length
  ends : ∀ a ∈ x.2.alarms, a.stop ≤ x.1.log.length
  since : ∀ a ∈ x.2.alarms, x.1.Since a.stop

lemma TrngReply.Fresh.mono {r : TrngReply} {log' : List TrngAccess} (h : r.Fresh log)
    (hp : log <+: log') : r.Fresh log' := by
  obtain ⟨pre, ws, post, rfl, hrest⟩ := h
  obtain ⟨new, rfl⟩ := hp
  exact ⟨pre, ws, post ++ new, by simp, hrest⟩

lemma TrngReply.Fresh.first_le {r : TrngReply} (h : r.Fresh log) : r.first ≤ log.length := by
  obtain ⟨pre, ws, post, rfl, hpre, -⟩ := h
  simp only [List.length_append]
  omega

/-- What an OK reply consists of. -/
lemma TrngRule.served {c : TrngCall} {x : Trng × HwRv × List UInt8} (h : u.Sound)
    (hrule : TrngRule u c x) (hok : x.2.1 = .ok) :
    ∃ (u₂ : Trng) (ws : List UInt32), x.1.log = u₂.log ++ ws.map .data ∧ u.log <+: u₂.log ∧
      FreshRun u₂.log ws ∧ ws.length = (c.len + 3) / 4 ∧ x.2.2 = (ws.flatMap le32).take c.len ∧
      ∀ e, u.Since e → e ≤ u.log.length → Renewed u₂.log e := by
  cases hrule with
  | same hrv => exact absurd hok hrv
  | unready => cases hok
  | slipped => cases hok
  | dead => cases hok
  | @filled u₁ u₂ x hbegun hprimed hfill =>
    cases hfill with
    | done ws hfresh hcount =>
      refine ⟨u₂, ws, u₂.keepAll_log ws, ?_, hfresh, hcount, rfl, fun e hsince he => ?_⟩
      · exact (hbegun.quiet.trans (hprimed.quiet (hbegun.sound h))).grows
      · exact (hprimed.since hbegun.started (hbegun.since h hsince he)).renewed hprimed.ready
    | busy => cases hok
    | fault => cases hok
    | repeated => cases hok

/-- A quiet call raises no alarm. -/
lemma TrngQuiet.observes_drop {v : Trng} (h : TrngQuiet u v) :
    observes u.log (v.log.drop u.log.length) = false := by
  obtain ⟨new, hlog, hq⟩ := h
  rwa [hlog, List.drop_left]

lemma TrngInv.step {x y : Trng × TrngHistory} {c : TrngCall} (h : TrngInv x)
    (hs : withHistory trngStep TrngHistory.note x c = some y) (hslip : ¬ TrngSlip x.1 c) :
    TrngInv y := by
  obtain ⟨u, g⟩ := x
  obtain ⟨u', g'⟩ := y
  obtain ⟨hstep, hnote⟩ := withHistory_eq_some.mp hs
  simp only [trngStep, Option.some.injEq] at hstep hnote
  subst hnote
  have hsound : u.Sound := h.sound
  have hrule : TrngRule u c (bridgeHwTrngRead u c.env c.len) := .of_read hsound
  have hgrows := hrule.grows hsound
  have hsince (e : ℕ) := hrule.since (e := e) hsound
  have hquiet := hrule.quiet_or_demoted hsound hslip
  have hnew := hrule.sound hsound
  have hserved := hrule.served hsound
  rw [hstep] at hgrows hsince hquiet hnew hserved
  have hlen : u.log.length ≤ u'.log.length := hgrows.length_le
  have hfresh (hok : (bridgeHwTrngRead u c.env c.len).2.1 = .ok) :
      (c.reply u u').Fresh u'.log ∧ u.log.length ≤ (c.reply u u').first ∧
        ∀ e, u.Since e → e ≤ u.log.length → Renewed (u'.log.take (c.reply u u').first) e := by
    obtain ⟨u₂, ws, hlog, hpre, hfresh, hcount, hbytes, hrenew⟩ := hserved hok
    have hfirst : (c.reply u u').first = u₂.log.length := by
      show u'.log.length - (c.len + 3) / 4 = u₂.log.length
      rw [hlog, List.length_append, List.length_map, hcount, Nat.add_sub_cancel]
    refine ⟨⟨u₂.log, ws, [], ?_, hfirst.symm, hcount, ?_, hfresh, hbytes⟩, ?_, ?_⟩
    · rw [List.append_nil, hlog]
    · show u'.log.length = _
      rw [hfirst, hlog, List.length_append, List.length_map]
    · rw [hfirst]
      exact hpre.length_le
    · intro e he hle
      rw [hfirst, hlog, List.take_left]
      exact hrenew e he hle
  have hreply (r : TrngReply) (hr : r ∈ (g.note u c u').replies) :
      r ∈ g.replies ∨ (bridgeHwTrngRead u c.env c.len).2.1 = .ok ∧ r = c.reply u u' := by
    simp only [TrngHistory.note] at hr
    split_ifs at hr with hok
    · exact (List.mem_cons.mp hr).symm.imp_right fun heq => ⟨hok, heq⟩
    · exact .inl hr
  have halarm (a : TrngAlarm) (ha : a ∈ (g.note u c u').alarms) : a ∈ g.alarms ∨
      (a.demoted = true ∧ a.stop = u'.log.length ∧ u'.Demoted) := by
    simp only [TrngHistory.note] at ha
    split_ifs at ha with hobs
    swap
    · exact .inl ha
    rcases List.mem_cons.mp ha with rfl | ha
    swap
    · exact .inl ha
    rcases hquiet with hq | hd
    · rw [hq.observes_drop] at hobs
      cases hobs
    · refine .inr ⟨?_, rfl, hd⟩
      simp [hd.1, hd.2.1, hd.2.2]
  have htake (r : TrngReply) (hr : r ∈ g.replies) : u'.log.take r.first = u.log.take r.first := by
    obtain ⟨new, hnew⟩ := hgrows
    have hle : r.first ≤ u.log.length := (h.served r hr).first_le
    rw [← hnew, List.take_append_of_le_length hle]
  refine ⟨⟨fun r hr => ?_, ?_, fun a ha => ?_, fun a ha r hr hlt => ?_⟩, hnew, fun r hr => ?_,
    fun a ha => ?_, fun a ha => ?_⟩
  · rcases hreply r hr with hr | ⟨hok, rfl⟩
    · exact (h.served r hr).mono hgrows
    · exact (hfresh hok).1
  · simp only [TrngHistory.note]
    split_ifs with hok
    · exact List.pairwise_cons.mpr
        ⟨fun r hr => (h.stops r hr).trans (hfresh hok).2.1, h.disjoint⟩
    · exact h.disjoint
  · rcases halarm a ha with ha | ha
    · exact h.demoted a ha
    · exact ha.1
  · rcases halarm a ha with ha | ⟨-, hstop, -⟩
    · rcases hreply r hr with hr | ⟨hok, rfl⟩
      · show Renewed (u'.log.take r.first) a.stop
        rw [htake r hr]
        exact h.renewed a ha r hr hlt
      · exact (hfresh hok).2.2 a.stop (h.since a ha) (h.ends a ha)
    · -- no reply comes after an alarm of the same call
      rcases hreply r hr with hr | ⟨-, rfl⟩
      · have hle : r.stop ≤ u.log.length := h.stops r hr
        omega
      · exact absurd hlt (by rw [hstop]; exact Nat.lt_irrefl _)
  · rcases hreply r hr with hr | ⟨-, rfl⟩
    · exact (h.stops r hr).trans hlen
    · exact Nat.le_refl _
  · rcases halarm a ha with ha | ⟨-, hstop, -⟩
    · exact (h.ends a ha).trans hlen
    · exact hstop.le
  · rcases halarm a ha with ha | ⟨-, -, hd⟩
    · exact hsince a.stop (h.since a ha) (h.ends a ha)
    · exact hd.since a.stop

/-- After `bridge_hw_init` nothing has been served. -/
def TrngHistory.Init (x : Trng × TrngHistory) : Prop :=
  (∃ pll env, x.1 = trngInit pll env) ∧ x.2 = ⟨[], []⟩

lemma TrngHistory.Init.inv {x : Trng × TrngHistory} (h : TrngHistory.Init x) : TrngInv x := by
  obtain ⟨u, g⟩ := x
  obtain ⟨⟨pll, env, rfl⟩, rfl⟩ := h
  have hsound : (trngInit pll env).Sound :=
    trngRounds_sound env 8 (Trng.sound_boot.start rfl pll)
  refine ⟨⟨?_, List.Pairwise.nil, ?_, ?_⟩, hsound, ?_, ?_, ?_⟩
  all_goals
    intro a ha
    exact absurd ha List.not_mem_nil

/-- The words of the replies are fresh in every run in which no call slips. -/
theorem trng_replies_fresh (x : Trng × TrngHistory)
    (h : Reach (withHistory trngStep TrngHistory.note) TrngHistory.Init
      (fun x c _ => ¬ TrngSlip x.1 c) x) : TrngFresh x := by
  have hinv : TrngInv x := by
    refine h.invariant (fun s hs => hs.inv) ?_
    intro s c s' _ hi hs hslip
    exact hi.step hs hslip
  exact hinv.toTrngFresh

/-- A unit that is ready at the first poll and shows the words 0, 1, 2, … -/
def countingEnv : TrngReadEnv where
  pll := true
  poll := ⟨.clear, fun _ => true, .clear, .clear, 0⟩
  pull i := ⟨.clear, fun _ => true, true, .clear, .ofNat (i + 1)⟩

/-- The same unit, which shows nothing but the word 2 once it is asked for more. -/
def stuckEnv : TrngReadEnv where
  pll := true
  poll := countingEnv.poll
  pull _ := ⟨.clear, fun _ => true, true, .clear, 2⟩

/-- Without a fault after the ready flag a call does not slip. -/
lemma not_trngSlip_of_clear {u : Trng} {c : TrngCall} (h : c.env.poll.fault₁.faulted = false) :
    ¬ TrngSlip u c := by
  rintro ⟨-, -, -, -, -, hfault, -⟩
  rw [h] at hfault
  cases hfault

/-- Six bytes of a unit that has been started by the call; a call that sees the last word again and
demotes the unit; and one that starts it anew. -/
theorem trng_replies_fresh_renewed :
    ∃ x, Reach (withHistory trngStep TrngHistory.note) TrngHistory.Init
        (fun x c _ => ¬ TrngSlip x.1 c) x ∧
      x.2.replies.map (·.bytes) = [[1, 0, 0, 0], [1, 0, 0, 0, 2, 0]] ∧
      x.2.alarms.map (·.demoted) = [true] ∧ TrngFresh x := by
  have hinit : Reach (withHistory trngStep TrngHistory.note) TrngHistory.Init
      (fun x c _ => ¬ TrngSlip x.1 c) (trngInit false fun _ => countingEnv.poll, ⟨[], []⟩) :=
    .start ⟨⟨false, fun _ => countingEnv.poll, rfl⟩, rfl⟩
  obtain ⟨x, hx, hq⟩ := hinit.exists_of_run (fun _ c _ => !c.env.poll.fault₁.faulted)
    (fun x => x.2.replies.map (·.bytes) == [[1, 0, 0, 0], [1, 0, 0, 0, 2, 0]] &&
      x.2.alarms.map (·.demoted) == [true])
    [⟨countingEnv, 6⟩, ⟨stuckEnv, 4⟩, ⟨countingEnv, 4⟩]
    (fun _ _ _ h => not_trngSlip_of_clear (Bool.not_eq_true' _ ▸ h)) (by decide +kernel)
  simp only [Bool.and_eq_true, beq_iff_eq] at hq
  exact ⟨x, hx, hq.1, hq.2, trng_replies_fresh x hx⟩

/-- The fault is seen after the ready flag and is gone at the second look. -/
def flickerEnv : TrngReadEnv where
  pll := true
  poll := ⟨.clear, fun _ => true, ⟨false, false, false, false, true⟩, .clear, 0⟩
  pull i := ⟨.clear, fun _ => true, true, .clear, .ofNat (i + 1)⟩

/-- A call that sees a fault leaves the unit running. -/
theorem trng_flicker_not_demoted :
    ¬ ∀ x, Reach (withHistory trngStep TrngHistory.note) TrngHistory.Init (fun _ _ _ => True) x →
      TrngFresh x := by
  intro h
  have hinit : Reach (withHistory trngStep TrngHistory.note) TrngHistory.Init (fun _ _ _ => True)
      (trngInit false fun _ => flickerEnv.poll, ⟨[], []⟩) :=
    .start ⟨⟨false, fun _ => flickerEnv.poll, rfl⟩, rfl⟩
  obtain ⟨x, hx, halarm⟩ := hinit.exists_of_run (fun _ _ _ => true)
    (fun x => x.2.alarms.any fun a => !a.demoted) [⟨flickerEnv, 4⟩] (fun _ _ _ _ => trivial)
    (by decide +kernel)
  obtain ⟨a, ha, hnot⟩ := List.any_eq_true.mp halarm
  rw [(h x hx).demoted a ha] at hnot
  exact absurd hnot (by decide)

end Gd32Bridge
