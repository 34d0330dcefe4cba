import Gd32Bridge.Adc.Lease
import Gd32Bridge.Adc.Filtered

/-!
# The filtered plane as a queue

The base-level pump commits batches of outputs, the reads of a transport interrupt take them in
order or are told that some were dropped.  The history of a run keeps, for each stream, the outputs
committed since its filter was bound and the answers given since then.
-/

namespace Gd32Bridge

open Transition

variable {β : Type} {mag : β → β → β}

/-! ### A queue with reported gaps -/

/-- What a read was answered, apart from errors; a served one with the number of outputs that had
been committed by then. -/
inductive Answer
  | served (committed vrefMv : ℕ) (mv : List UInt16)
  | busy
deriving DecidableEq, Repr

/-- The answers, the newest first, serve the outputs of the log in order and each at most once, and
skip some only at a BUSY; the next one to be served is the `n`-th.  What is served has been
committed, and its slots have not been taken by later outputs; an answer without samples says
nothing about the ring. -/
inductive FifoWithGaps (log : List UInt16) (fullScale : ℕ) : List Answer → ℕ → Prop
  | start : FifoWithGaps log fullScale [] 0
  | served {as : List Answer} {n k committed vrefMv : ℕ} (h : FifoWithGaps log fullScale as n)
      (hk : n + k ≤ committed) (hring : 0 < k → committed ≤ n + adcRingSamples)
      (hlog : committed ≤ log.length) :
      FifoWithGaps log fullScale
        (.served committed vrefMv (outputsFrom log fullScale vrefMv n k) :: as) (n + k)
  | busy {as : List Answer} {n m : ℕ} (h : FifoWithGaps log fullScale as n) (hm : n ≤ m) :
      FifoWithGaps log fullScale (.busy :: as) m

lemma outputsFrom_append (log out : List UInt16) (fullScale vrefMv : ℕ) {n k : ℕ}
    (hk : n + k ≤ log.length) :
    outputsFrom (log ++ out) fullScale vrefMv n k = outputsFrom log fullScale vrefMv n k := by
  refine List.map_congr_left fun m hm => ?_
  have hlt : m < log.length := by
    have := List.mem_range'_1.mp hm
    omega
  simp only [List.getD_eq_getElem?_getD, List.getElem?_append_left hlt]

/-- More outputs change nothing of what was served. -/
lemma FifoWithGaps.append {log : List UInt16} {fullScale : ℕ} {as : List Answer} {n : ℕ}
    (h : FifoWithGaps log fullScale as n) (out : List UInt16) :
    FifoWithGaps (log ++ out) fullScale as n := by
  induction h with
  | start => exact .start
  | @served as n k committed vrefMv _ hk hring hlog ih =>
    rw [← outputsFrom_append log out fullScale vrefMv (Nat.le_trans hk hlog)]
    refine .served ih hk hring ?_
    rw [List.length_append]
    omega
  | busy _ hm ih => exact .busy ih hm

/-! ### A read of a filter-bound stream -/

variable {s : AdcStream} {log : List UInt16} {n : ℕ}

lemma AdcStream.Filtered.congr {s' : AdcStream} (h : s.Filtered log n)
    (hwrite : s'.procWrite = s.procWrite) (hread : s'.procRead = s.procRead)
    (hring : s'.procRing = s.procRing) : s'.Filtered log n :=
  ⟨hwrite.trans h.write, hread.trans h.read, h.le, hring ▸ h.ring⟩

/-- A read of the stream gets as far as the backlog of its filtered plane: no error and no overflow
of the converter is reported, and nothing is wrong with the plane. -/
structure AdcStream.Reaches (s : AdcStream) (env : ReadEnv) : Prop where
  bound : s.boundTo false = true
  errors : (s.latchDmaError env.dmaErr).dmaErrorCount = 0
  rovf : env.rovf = false
  sound : s.Sound

lemma AdcStream.Sound.of_latch {dmaErr : Bool} (h : (s.latchDmaError dmaErr).Sound) : s.Sound := by
  cases dmaErr
  · exact h
  · exact ⟨h.terminal, h.cfgBad, h.sat, h.gap⟩

/-- What a read of a filter-bound stream can do, as long as a backlog of more than a ring does not
pass for a smaller one: it is an error, it is BUSY and drops what is unread, or leaves it after an
overflow of the converter, or it serves some outputs, or none. -/
inductive FilterRead (log : List UInt16) (n : ℕ) (s : AdcStream) (env : ReadEnv) :
    HwResult AdcStream (List UInt16) → Prop
  | error {r : HwResult AdcStream (List UInt16)} (hok : r.rv ≠ .ok) (hbusy : r.rv ≠ .busy)
      (hf : r.hw.Filtered log n) : FilterRead log n s env r
  | busy {r : HwResult AdcStream (List UInt16)} (hrv : r.rv = .busy)
      (hf : r.hw.Filtered log (if env.rovf then n else log.length)) : FilterRead log n s env r
  | served {r : HwResult AdcStream (List UInt16)} {k : ℕ} (hrv : r.rv = .ok)
      (hout : r.out = outputsFrom log s.fullScale env.vrefMv n k) (hk : n + k ≤ log.length)
      (hring : 0 < k → log.length ≤ n + adcRingSamples) (hf : r.hw.Filtered log (n + k)) :
      FilterRead log n s env r

lemma FilterRead.of_readProc (h : s.Filtered log n) (hterm : s.dspTerminal ≠ 3) {env : ReadEnv}
    (hrovf : env.rovf = false) {maxSamples : ℕ}
    (htold : s.Sound → BacklogTold (log.length - n) maxSamples) :
    FilterRead log n s env (s.readProc env maxSamples) := by
  have hdrop {t : AdcStream} (ht : t.Filtered log log.length) :
      t.Filtered log (if env.rovf then n else log.length) := by
    rwa [hrovf, if_neg Bool.false_ne_true]
  by_cases hcfg : s.dspCfgBad = true
  · simp only [AdcStream.readProc, if_neg hterm, if_pos hcfg]
    exact .error (by rintro ⟨⟩) (by rintro ⟨⟩) h
  by_cases hsat : s.dspSat = true
  · simp only [AdcStream.readProc, if_neg hterm, if_neg hcfg, if_pos hsat]
    exact .error (by rintro ⟨⟩) (by rintro ⟨⟩) h
  by_cases hgap : s.procGap = true
  · simp only [AdcStream.readProc, if_neg hterm, if_neg hcfg, if_neg hsat, if_pos hgap]
    exact .busy rfl (hdrop (h.resync.congr rfl rfl rfl))
  have hsound : s.Sound := ⟨hterm, Bool.eq_false_iff.mpr hcfg, Bool.eq_false_iff.mpr hsat,
    Bool.eq_false_iff.mpr hgap⟩
  have hle := h.le
  have hnothing : 0 < 0 → log.length ≤ n + adcRingSamples := fun h0 => absurd h0 (Nat.lt_irrefl 0)
  rw [h.readProc_eq hsound]
  split_ifs with hempty hring
  · exact .served (k := 0) rfl rfl hle hnothing h
  · exact .busy rfl (hdrop h.resync)
  rw [not_or] at hempty
  by_cases hask : maxSamples = 0
  · -- nothing is asked for, so nothing is served whatever the backlog is
    have hnone : min ((log.length - n) % 2 ^ 32) maxSamples = 0 := by rw [hask, Nat.min_zero]
    rw [AdcStream.procAnswer, hnone]
    exact .served (k := 0) rfl rfl hle hnothing (h.procServed hle)
  · have hlt := (htold hsound).unread_lt hempty.1 (Nat.lt_of_not_le hring) hask
    have hmod : (log.length - n) % 2 ^ 32 = log.length - n := by
      simp only [adcRingSamples] at hlt
      exact Nat.mod_eq_of_lt (by omega)
    have hk : n + min (log.length - n) maxSamples ≤ log.length := by omega
    have hheld : log.length ≤ n + adcRingSamples := by omega
    rw [hmod]
    exact .served rfl (h.ring.served _ _ hk hheld) hk (fun _ => hheld) (h.procServed hk)

lemma FilterRead.of_read (hb : s.boundTo false = true) (h : s.Filtered log n) {env : ReadEnv}
    {maxSamples : ℕ} (htold : s.Reaches env → BacklogTold (log.length - n) maxSamples) :
    FilterRead log n s env (s.read env maxSamples) := by
  obtain ⟨hrun, hbound, hterm⟩ := AdcStream.boundTo_iff.mp hb
  have hread : s.read env maxSamples = (s.latchDmaError env.dmaErr).serve env maxSamples :=
    if_neg (not_not.mpr hrun)
  rw [hread]
  -- latching the error flag touches nothing of the plane
  have hlatch : (s.latchDmaError env.dmaErr).Filtered log n := by
    cases env.dmaErr
    · exact h
    · exact h.congr rfl rfl rfl
  have hscale : (s.latchDmaError env.dmaErr).fullScale = s.fullScale := by
    cases env.dmaErr <;> rfl
  have hbind := AdcStream.latchDmaError_binding s env.dmaErr
  have htold (herr : (s.latchDmaError env.dmaErr).dmaErrorCount = 0) (hrovf : env.rovf = false)
      (ht : (s.latchDmaError env.dmaErr).Sound) : BacklogTold (log.length - n) maxSamples :=
    htold ⟨hb, herr, hrovf, ht.of_latch⟩
  generalize s.latchDmaError env.dmaErr = t at hlatch hscale hbind htold
  by_cases herr : t.dmaErrorCount ≠ 0
  · simp only [AdcStream.serve, if_pos herr]
    exact .error (by rintro ⟨⟩) (by rintro ⟨⟩) hlatch
  by_cases hrovf : env.rovf = true
  · have hanchor : (t.reanchor (adcStreamWriteIndex (env.remaining 0))).Filtered log n :=
      hlatch.congr rfl rfl rfl
    simp only [AdcStream.serve, if_neg herr, if_pos hrovf]
    cases env.recovered with
    | true => exact .busy rfl (by rwa [hrovf, if_pos rfl])
    | false => exact .error (by rintro ⟨⟩) (by rintro ⟨⟩) hanchor
  · have ht : t.dspBound = true := hbind.dspBound.trans hbound
    have hterm' : t.dspTerminal ≠ 3 := by
      rw [hbind.dspTerminal]
      simpa using hterm
    have hrovf' : env.rovf = false := Bool.eq_false_iff.mpr hrovf
    simp only [AdcStream.serve, if_neg herr, if_neg hrovf, if_pos ht]
    cases FilterRead.of_readProc hlatch hterm' hrovf' (htold (not_not.mp herr) hrovf') with
    | error hok hbusy hf => exact .error hok hbusy hf
    | busy hrv hf => exact .busy hrv hf
    | served hrv hout hk hring hf => exact .served hrv (hscale ▸ hout) hk hring hf

lemma AdcStream.readProc_fullScale (s : AdcStream) (env : ReadEnv) (maxSamples : ℕ) :
    (s.readProc env maxSamples).hw.fullScale = s.fullScale := by
  have hserved (k : ℕ) : (s.procServed k).fullScale = s.fullScale := rfl
  simp only [readProc]
  split
  · rfl
  split
  · rfl
  split
  · rfl
  split
  · rfl
  split
  · rfl
  split
  · rfl
  · exact hserved _

lemma AdcStream.read_fullScale (hbound : s.dspBound = true) (env : ReadEnv) (maxSamples : ℕ) :
    (s.read env maxSamples).hw.fullScale = s.fullScale := by
  have hlatch : (s.latchDmaError env.dmaErr).fullScale = s.fullScale := by
    cases env.dmaErr <;> rfl
  have hanchor (w : ℕ) : ((s.latchDmaError env.dmaErr).reanchor w).fullScale = s.fullScale :=
    hlatch
  have ht : (s.latchDmaError env.dmaErr).dspBound = true :=
    (latchDmaError_binding s env.dmaErr).dspBound.trans hbound
  simp only [read, serve, if_pos ht]
  split
  · rfl
  split
  · exact hlatch
  split
  · exact hanchor _
  · exact (readProc_fullScale _ env maxSamples).trans hlatch

/-! ### The history -/

/-- What has become of the outputs of a stream since its chain was bound: those committed, the
answers given, the next output to be served, and how many have come since the last read. -/
structure FilterLog where
  committed : List UInt16
  answers : List Answer
  next : ℕ
  since : ℕ
deriving DecidableEq, Repr

def FilterLog.empty : FilterLog := ⟨[], [], 0, 0⟩

/-- A read has been answered. -/
def FilterLog.answered (l : FilterLog) (env : ReadEnv) (r : HwResult AdcStream (List UInt16)) :
    FilterLog :=
  match r.rv with
  | .ok =>
    { l with
      answers := .served l.committed.length env.vrefMv r.out :: l.answers
      next := l.next + r.out.length
      since := 0 }
  | .busy =>
    { l with
      answers := .busy :: l.answers
      next := if env.rovf then l.next else l.committed.length
      since := 0 }
  | _ => { l with since := 0 }

/-- A batch has been committed. -/
def FilterLog.commit (l : FilterLog) (out : List UInt16) : FilterLog :=
  { l with committed := l.committed ++ out, since := l.since + out.length }

/-- The history of a run: a log for each stream, and whether the stream of the batch the pump is
working on has been ended since the pump took its lease. -/
structure FifoHistory where
  logs : ℕ → FilterLog
  revoked : Bool

def FifoHistory.setLog (h : FifoHistory) (id : ℕ) (l : FilterLog) : FifoHistory :=
  { h with logs := Function.update h.logs id l }

/-- What a step adds to it. -/
def FifoHistory.note (h : FifoHistory) (x : Dsp β) (op : DspOp β) (y : Dsp β) : FifoHistory :=
  match op with
  | .isr (.chainBind _ id) =>
    if (y.adc.streams id).dspBound = true ∧ (x.adc.streams id).dspBound = false then
      h.setLog id .empty
    else h
  | .isr (.streamRead env id maxSamples) =>
    if id < bridgeAdcStreamCount ∧ (x.adc.streams id).boundTo false = true then
      h.setLog id ((h.logs id).answered env ((x.adc.streams id).read env maxSamples))
    else h
  | .isr (.streamEnd _ id) =>
    if id = x.sid ∧ (y.adc.streams id).inUse = false then { h with revoked := true } else h
  | .base _ =>
    match x.pc with
    | .leasing _ => { h with revoked := false }
    | .publishing _ _ out _ _ _ =>
      if x.liveTransitional false then h.setLog x.sid ((h.logs x.sid).commit out) else h
    | _ => h
  | _ => h

/-- A read that gets as far as the backlog of a filtered plane does not take a backlog of more than
a ring for a smaller one. -/
def UnreadTold (p : Dsp β × FifoHistory) (op : DspOp β) (_ : Dsp β × FifoHistory) : Prop :=
  match op with
  | .isr (.streamRead env id maxSamples) => (p.1.adc.streams id).Reaches env →
    BacklogTold ((p.2.logs id).committed.length - (p.2.logs id).next) maxSamples
  | _ => True

/-! ### The invariant -/

/-- The plane of a stream and its log. -/
structure FilterLog.Matches (l : FilterLog) (s : AdcStream) : Prop where
  plane : s.Filtered l.committed l.next
  queue : FifoWithGaps l.committed s.fullScale l.answers l.next

structure FifoInv (x : Dsp β) (h : FifoHistory) : Prop where
  held : x.adc.Held false
  revoked : h.revoked = true → x.pc.phase = .batch →
    x.adc.owner false ≠ adcDspOwnerTransitional x.sid
  logs : ∀ id, (x.adc.streams id).boundTo false = true → (h.logs id).Matches (x.adc.streams id)

/-- Nothing of the processed plane has changed. -/
structure AdcStream.SamePlane (s s' : AdcStream) : Prop extends s.SameBinding s' where
  fullScale : s'.fullScale = s.fullScale
  procRing : s'.procRing = s.procRing
  procWrite : s'.procWrite = s.procWrite
  procRead : s'.procRead = s.procRead

lemma FilterLog.Matches.congr {l : FilterLog} {s' : AdcStream} (h : l.Matches s)
    (hs : s.SamePlane s') : l.Matches s' :=
  ⟨h.plane.congr hs.procWrite hs.procRead hs.procRing, hs.fullScale ▸ h.queue⟩

/-- A read of a filter-bound stream keeps plane and log together. -/
lemma FilterLog.Matches.read {l : FilterLog} (h : l.Matches s) (hb : s.boundTo false = true)
    {env : ReadEnv} {maxSamples : ℕ}
    (htold : s.Reaches env → BacklogTold (l.committed.length - l.next) maxSamples) :
    (l.answered env (s.read env maxSamples)).Matches (s.read env maxSamples).hw := by
  have hscale := AdcStream.read_fullScale (AdcStream.boundTo_iff.mp hb).2.1 env maxSamples
  have hread := FilterRead.of_read hb h.plane htold
  generalize s.read env maxSamples = r at hscale hread
  cases hread with
  | error hok hbusy hf =>
    have hans : l.answered env r = { l with since := 0 } := by
      cases hrv : r.rv with
      | ok => exact absurd hrv hok
      | busy => exact absurd hrv hbusy
      | _ => simp only [FilterLog.answered, hrv]
    rw [hans]
    exact ⟨hf, hscale ▸ h.queue⟩
  | busy hrv hf =>
    simp only [FilterLog.answered, hrv]
    refine ⟨hf, .busy (hscale ▸ h.queue) ?_⟩
    split
    · exact Nat.le_refl _
    · exact h.plane.le
  | @served k hrv hout hk hring hf =>
    have hlen : r.out.length = k := by
      rw [hout, outputsFrom, List.length_map, List.length_range']
    simp only [FilterLog.answered, hrv, hlen]
    refine ⟨hf, ?_⟩
    rw [hscale, hout]
    exact .served h.queue hk hring (Nat.le_refl _)

lemma FilterLog.Matches.commit {l : FilterLog} (h : l.Matches s) (rawRead : ℕ)
    (out : List UInt16) (sat : Bool) : (l.commit out).Matches (s.published rawRead out sat) :=
  ⟨h.plane.published rawRead out sat, h.queue.append out⟩

/-! ### Interrupts -/

variable {a a' : Adc}

/-- Nothing happens to the plane of a stream that is bound to a filter afterwards. -/
def Adc.KeepsPlanes (a a' : Adc) : Prop :=
  ∀ id, (a'.streams id).boundTo false = true → (a.streams id).SamePlane (a'.streams id)

lemma AdcStream.SamePlane.refl (s : AdcStream) : s.SamePlane s := ⟨.refl s, rfl, rfl, rfl, rfl⟩

lemma Adc.KeepsPlanes.of_streams (h : a'.streams = a.streams) : a.KeepsPlanes a' := by
  intro id _
  rw [h]
  exact .refl _

lemma Adc.KeepsPlanes.setStream {i : ℕ} {s : AdcStream}
    (hs : s.boundTo false = true → (a.streams i).SamePlane s) :
    a.KeepsPlanes (a.setStream i s) := by
  intro id hb
  rw [setStream_streams] at hb ⊢
  by_cases hi : id = i
  · subst hi
    rw [Function.update_self] at hb ⊢
    exact hs hb
  · rw [Function.update_of_ne hi]
    exact .refl _

lemma AdcStream.lapped_plane (s : AdcStream) (ftf dmaErr : Bool) :
    s.SamePlane (s.lapped ftf dmaErr) := by
  refine ⟨lapped_binding s ftf dmaErr, ?_, ?_, ?_, ?_⟩
  all_goals cases ftf <;> cases dmaErr <;> rfl

/-- A command or a lap interrupt leaves the planes alone, apart from the plane of a stream that is
read and of one that is being bound. -/
lemma Adc.isr_planes (a : Adc) {op : AdcOp} (hop : ∀ id p, op ≠ .pump id p)
    (hread : ∀ env id maxSamples, op = .streamRead env id maxSamples →
      (a.streams id).boundTo false = false)
    (hbind : ∀ chain id, op ≠ .chainBind chain id) : a.KeepsPlanes (adcApply a op) := by
  have hrule := AdcRule.of_apply a op
  generalize adcApply a op = a' at hrule
  cases hrule with
  | same => exact .of_streams rfl
  | opened => exact .of_streams rfl
  | pushed => exact .of_streams rfl
  | refused => exact absurd rfl (hbind _ _)
  | attached => exact absurd rfl (hbind _ _)
  | @started env id channel rate =>
    refine .setStream fun hb => ?_
    exact absurd (hb.symm.trans (AdcStream.not_boundTo (.inr rfl))) Bool.noConfusion
  | @read env id maxSamples =>
    refine .setStream fun hb => ?_
    rw [(AdcStream.read_binding _ env maxSamples).boundTo, hread env id maxSamples rfl] at hb
    cases hb
  | @ended env id =>
    intro i hb
    rw [endStream_streams] at hb ⊢
    by_cases hi : i = id
    · subst hi
      rw [Function.update_self] at hb
      exact absurd (hb.symm.trans (AdcStream.not_boundTo (.inl rfl))) Bool.noConfusion
    · rw [Function.update_of_ne hi]
      exact .refl _
  | @lapped id ftf dmaErr => exact .setStream fun _ => AdcStream.lapped_plane _ ftf dmaErr
  | pumped => exact absurd rfl (hop _ _)

variable {x y : Dsp β} {h : FifoHistory}

/-- As long as planes and logs stay, they match. -/
lemma FifoInv.keep_logs (hi : FifoInv x h) (hk : x.adc.KeepsPlanes y.adc) (id : ℕ)
    (hb : (y.adc.streams id).boundTo false = true) : (h.logs id).Matches (y.adc.streams id) := by
  have hs := hk id hb
  rw [hs.boundTo] at hb
  exact (hi.logs id hb).congr hs

@[simp]
lemma FifoHistory.setLog_revoked (id : ℕ) (l : FilterLog) :
    (h.setLog id l).revoked = h.revoked := rfl

lemma FifoHistory.setLog_logs (id : ℕ) (l : FilterLog) :
    (h.setLog id l).logs = Function.update h.logs id l := rfl

/-- An interrupt takes no lease, so a revoked one stays revoked. -/
lemma FifoInv.still_revoked (hi : FifoInv x h) {op : AdcOp} (hop : ∀ id p, op ≠ .pump id p)
    (hrev : h.revoked = true) (hpc : x.pc.phase = .batch) :
    (adcApply x.adc op).owner false ≠ adcDspOwnerTransitional x.sid := by
  rcases (hi.held.isr hop).2 with howner | howner
  · rw [howner]
    exact hi.revoked hrev hpc
  · rw [howner]
    exact (adcDspOwnerNone_ne x.sid).2

/-- Binding a filter starts a new log. -/
lemma FifoInv.bind (hi : FifoInv x h) (chain id : ℕ)
    (hy : y.adc = adcApply x.adc (.chainBind chain id)) (i : ℕ)
    (hb : (y.adc.streams i).boundTo false = true) :
    ((h.note x (.isr (.chainBind chain id)) y).logs i).Matches (y.adc.streams i) := by
  have hrule := AdcRule.of_apply x.adc (.chainBind chain id)
  rw [← hy] at hrule
  have hkeep (hstreams : y.adc.streams = x.adc.streams) :
      ((h.note x (.isr (.chainBind chain id)) y).logs i).Matches (y.adc.streams i) := by
    have hsame : h.note x (.isr (.chainBind chain id)) y = h := by
      refine if_neg fun hbound => ?_
      rw [hstreams] at hbound
      exact Bool.noConfusion (hbound.1.symm.trans hbound.2)
    rw [hsame]
    exact hi.keep_logs (.of_streams hstreams) i hb
  obtain ⟨a', hadc⟩ : ∃ a', y.adc = a' := ⟨_, rfl⟩
  rw [hadc] at hrule
  cases hrule with
  | same => exact hkeep (by rw [hadc])
  | refused => exact hkeep (by rw [hadc, Adc.chainRelease_streams])
  | @attached _ _ last _ _ _ _ _ _ hfree =>
    have hstreams : y.adc.streams = Function.update x.adc.streams id
        ((x.adc.streams id).attached chain ((x.adc.chains chain).stages last).kind) := by
      rw [hadc]
      rfl
    have hnew : h.note x (.isr (.chainBind chain id)) y = h.setLog id .empty := by
      refine if_pos ⟨?_, hfree⟩
      rw [hstreams, Function.update_self]
      rfl
    rw [hnew, FifoHistory.setLog_logs, hstreams]
    rw [hstreams] at hb
    by_cases hid : i = id
    · subst hid
      rw [Function.update_self, Function.update_self]
      exact ⟨⟨rfl, rfl, Nat.le_refl _, .nil _⟩, .start⟩
    · rw [Function.update_of_ne hid] at hb
      rw [Function.update_of_ne hid, Function.update_of_ne hid]
      exact hi.logs i hb

/-- A read takes its answer to the log. -/
lemma FifoInv.read (hi : FifoInv x h) {env : ReadEnv} {id maxSamples : ℕ}
    (htold : (x.adc.streams id).Reaches env →
      BacklogTold ((h.logs id).committed.length - (h.logs id).next) maxSamples)
    (hy : y.adc = adcApply x.adc (.streamRead env id maxSamples)) (i : ℕ)
    (hb : (y.adc.streams i).boundTo false = true) :
    ((h.note x (.isr (.streamRead env id maxSamples)) y).logs i).Matches (y.adc.streams i) := by
  by_cases hbound : id < bridgeAdcStreamCount ∧ (x.adc.streams id).boundTo false = true
  · have hnote : h.note x (.isr (.streamRead env id maxSamples)) y =
        h.setLog id ((h.logs id).answered env ((x.adc.streams id).read env maxSamples)) :=
      if_pos hbound
    have hstreams : y.adc.streams =
        Function.update x.adc.streams id ((x.adc.streams id).read env maxSamples).hw := by
      rw [hy]
      simp only [adcApply, adcStreamRead, if_neg (Nat.not_le_of_lt hbound.1)]
      rfl
    rw [hnote, FifoHistory.setLog_logs, hstreams]
    rw [hstreams] at hb
    by_cases hid : i = id
    · subst hid
      rw [Function.update_self, Function.update_self]
      exact (hi.logs i hbound.2).read hbound.2 htold
    · rw [Function.update_of_ne hid] at hb
      rw [Function.update_of_ne hid, Function.update_of_ne hid]
      exact hi.logs i hb
  · have hnote : h.note x (.isr (.streamRead env id maxSamples)) y = h := if_neg hbound
    rw [hnote]
    by_cases hid : bridgeAdcStreamCount ≤ id
    · have hsame : y.adc = x.adc := by
        rw [hy]
        simp only [adcApply, adcStreamRead, ge_iff_le, if_pos hid]
      exact hi.keep_logs (.of_streams (by rw [hsame])) i hb
    · refine hi.keep_logs ?_ i hb
      rw [hy]
      refine x.adc.isr_planes (by rintro _ _ ⟨⟩) ?_ (by rintro _ _ ⟨⟩)
      intro env' id' maxSamples' heq
      cases heq
      rw [← Bool.not_eq_true]
      exact fun hb' => hbound ⟨Nat.lt_of_not_le hid, hb'⟩

/-- The logs after an interrupt. -/
lemma FifoInv.isr_logs (hi : FifoInv x h) {op : AdcOp} (hop : ∀ id p, op ≠ .pump id p)
    (hok : ∀ h', UnreadTold (x, h) (.isr op) (y, h')) (hy : y.adc = adcApply x.adc op) (i : ℕ)
    (hb : (y.adc.streams i).boundTo false = true) :
    ((h.note x (.isr op) y).logs i).Matches (y.adc.streams i) := by
  have hkeep (hread : ∀ env id maxSamples, op ≠ .streamRead env id maxSamples)
      (hbind : ∀ chain id, op ≠ .chainBind chain id) : (h.logs i).Matches (y.adc.streams i) := by
    refine hi.keep_logs ?_ i hb
    rw [hy]
    exact x.adc.isr_planes hop (fun _ _ _ heq => absurd heq (hread _ _ _)) hbind
  cases op with
  | chainBind chain id => exact hi.bind chain id hy i hb
  | streamRead env id maxSamples => exact hi.read (hok h) hy i hb
  | streamEnd env id =>
    have hlogs : (h.note x (.isr (.streamEnd env id)) y).logs = h.logs := by
      simp only [FifoHistory.note]
      split <;> rfl
    rw [hlogs]
    exact hkeep (fun _ _ _ => nofun) (fun _ _ => nofun)
  | chainOpen => exact hkeep (fun _ _ _ => nofun) (fun _ _ => nofun)
  | stagePush => exact hkeep (fun _ _ _ => nofun) (fun _ _ => nofun)
  | streamBegin => exact hkeep (fun _ _ _ => nofun) (fun _ _ => nofun)
  | lapIsr => exact hkeep (fun _ _ _ => nofun) (fun _ _ => nofun)
  | pump => exact absurd rfl (hop _ _)

/-- An interrupt keeps the invariant. -/
lemma FifoInv.isr (hi : FifoInv x h) {op : AdcOp} (hop : ∀ id p, op ≠ .pump id p)
    (hok : ∀ h', UnreadTold (x, h) (.isr op) (y, h'))
    (hy : y = { x with adc := adcApply x.adc op }) : FifoInv y (h.note x (.isr op) y) := by
  have hadc : y.adc = adcApply x.adc op := by rw [hy]
  refine ⟨?_, ?_, hi.isr_logs hop hok hadc⟩
  · rw [hadc]
    exact (hi.held.isr hop).1
  · intro hrev hpc
    have hpc' : x.pc.phase = .batch := by rwa [hy] at hpc
    have hsid : y.sid = x.sid := by rw [hy]
    rw [hadc, hsid]
    by_cases hold : h.revoked = true
    · exact hi.still_revoked hop hold hpc'
    -- the stream of the batch has just been ended, and a stream that does not run owns nothing
    have hnew : ((adcApply x.adc op).streams x.sid).inUse = false := by
      cases op with
      | streamEnd env id =>
        simp only [FifoHistory.note] at hrev
        split_ifs at hrev with hend
        · rw [← hend.1, ← hadc]
          exact hend.2
        · exact absurd hrev hold
      | chainBind =>
        simp only [FifoHistory.note] at hrev
        split_ifs at hrev <;> exact absurd hrev hold
      | streamRead =>
        simp only [FifoHistory.note] at hrev
        split_ifs at hrev <;> exact absurd hrev hold
      | _ => exact absurd hrev hold
    intro howner
    have hb := (hi.held.isr hop).1 x.sid (.inr howner)
    rw [AdcStream.not_boundTo (.inl hnew)] at hb
    cases hb

lemma FifoInv.spectrum (hi : FifoInv x h) (dmaErr : Bool) (id offset maxBins : ℕ)
    (hy : y = { x with adc := (x.spectrumRead dmaErr id offset maxBins).hw }) :
    FifoInv y h := by
  have hadc : y.adc = (x.spectrumRead dmaErr id offset maxBins).hw := by rw [hy]
  have hrest : y.pc = x.pc ∧ y.sid = x.sid := by simp only [hy, and_self]
  have howner : y.adc.owner false = x.adc.owner false := by
    rw [hadc]
    rcases x.spectrumRead_adc dmaErr id offset maxBins with hw | hw
    · rw [hw]
    · rw [hw]
      rfl
  have hplanes : x.adc.KeepsPlanes y.adc := by
    rw [hadc]
    rcases x.spectrumRead_adc dmaErr id offset maxBins with hw | hw
    · rw [hw]
      exact .of_streams rfl
    · rw [hw]
      refine .setStream fun _ => ⟨AdcStream.latchDmaError_binding _ dmaErr, ?_, ?_, ?_, ?_⟩
      all_goals cases dmaErr <;> rfl
  refine ⟨?_, ?_, hi.keep_logs hplanes⟩
  · rw [hadc]
    exact hi.held.spectrum dmaErr id offset maxBins
  · rw [howner, hrest.1, hrest.2]
    exact hi.revoked

/-! ### The pump -/

/-- Apart from the commit of a batch the pump leaves the planes alone. -/
lemma PumpRule.keepsPlanes (hr : PumpRule mag x y)
    (hpc : ∀ avail rawRead out used sat stalled,
      x.pc ≠ .publishing avail rawRead out used sat stalled) : x.adc.KeepsPlanes y.adc := by
  have hstore {s : AdcStream} (hs : x.stream.SamePlane s) :
      x.adc.KeepsPlanes (x.adc.setStream x.sid s) := .setStream fun _ => hs
  cases hr with
  | skip => exact .of_streams rfl
  | visit => exact .of_streams rfl
  | quiet => exact .of_streams rfl
  | leave => exact .of_streams rfl
  | claim => exact .of_streams (Adc.setOwner_streams _)
  | commit => exact .of_streams (Adc.setOwner_streams _)
  | abandon =>
    simp only [Dsp.abandon]
    split
    · exact .of_streams (Adc.setOwner_streams _)
    · exact .of_streams rfl
  | release => exact .of_streams (Adc.setOwner_streams _)
  | mark => exact hstore ⟨⟨rfl, rfl, rfl, rfl⟩, rfl, rfl, rfl, rfl⟩
  | laps => exact hstore ⟨⟨rfl, rfl, rfl, rfl⟩, rfl, rfl, rfl, rfl⟩
  | index => exact hstore ⟨⟨rfl, rfl, rfl, rfl⟩, rfl, rfl, rfl, rfl⟩
  | valid => exact hstore ⟨⟨rfl, rfl, rfl, rfl⟩, rfl, rfl, rfl, rfl⟩
  | jump => exact hstore ⟨⟨rfl, rfl, rfl, rfl⟩, rfl, rfl, rfl, rfl⟩
  | @resync fft total _ hlive =>
    have hstreams : ∃ s, x.stream.SamePlane s ∧
        (x.resync fft total).adc.streams = Function.update x.adc.streams x.sid s := by
      simp only [Dsp.resync, hlive, not_true_eq_false, if_false]
      split
      · exact ⟨{ x.stream with pumpRawRead := total },
          ⟨⟨rfl, rfl, rfl, rfl⟩, rfl, rfl, rfl, rfl⟩, rfl⟩
      · exact ⟨{ x.stream with pumpRawRead := total, procGap := true },
          ⟨⟨rfl, rfl, rfl, rfl⟩, rfl, rfl, rfl, rfl⟩, rfl⟩
    obtain ⟨s, hs, heq⟩ := hstreams
    intro id hb
    have hkeep := hstore hs id
    rw [Adc.setStream_streams, ← heq] at hkeep
    exact hkeep hb
  | lease => exact .of_streams (Adc.setOwner_streams _)
  | publish hpub => exact absurd hpub (hpc _ _ _ _ _ _)
  | apply => exact .of_streams rfl
  | reset => exact .of_streams rfl
  | init => exact .of_streams rfl
  | sample =>
    have hkeep := hstore (s := { x.stream with
      pumpRawRead := (x.stream.pumpRawRead + 1) % 2 ^ 32 })
      ⟨⟨rfl, rfl, rfl, rfl⟩, rfl, rfl, rfl, rfl⟩
    simp only [Dsp.storeSample]
    split
    · exact hkeep
    · exact hkeep
  | look => exact .of_streams rfl
  | retry => exact .of_streams rfl
  | reduce => exact .of_streams (Adc.setOwner_streams _)
  | bin => exact .of_streams rfl
  | reduced => exact .of_streams rfl
  | announce => exact .of_streams rfl

/-- A batch is entered by taking the lease, and is left before the pump turns to another stream. -/
lemma PumpRule.batch (hr : PumpRule mag x y) (hy : y.pc.phase = .batch) :
    (∃ avail, x.pc = .leasing avail) ∨
      x.pc.phase = .batch ∧ y.sid = x.sid ∧ y.adc.owner false = x.adc.owner false := by
  cases hr with
  | quiet hphase => exact .inr ⟨hphase.symm.trans hy, rfl, rfl⟩
  | lease hpc => exact .inl ⟨_, hpc⟩
  | skip hpc => rw [hpc] at hy; cases hy
  | abandon =>
    simp only [Dsp.abandon] at hy
    split at hy <;> cases hy
  | release _ hfree => cases hfree.symm.trans hy
  | valid _ hfree => cases hfree.symm.trans hy
  | publish _ _ hfree => cases hfree.symm.trans hy
  | sample =>
    simp only [Dsp.storeSample] at hy
    split at hy <;> cases hy
  | _ => cases hy

/-- The commit of a batch: it is appended to the log of its stream, or the lease is gone and nothing
is written. -/
lemma Dsp.publish_cases {avail rawRead used : ℕ} {out : List UInt16} {sat stalled : Bool}
    {act : PumpAct} (hpc : x.pc = .publishing avail rawRead out used sat stalled)
    (hs : x.pumpStep mag act = some y) :
    (x.liveTransitional false = true ∧
        y.adc.streams =
          Function.update x.adc.streams x.sid (x.stream.published rawRead out sat)) ∨
      (x.liveTransitional false = false ∧ y.adc.streams = x.adc.streams) := by
  have hgo : x.go mag = some y := by
    cases act with
    | go => exact hs
    | _ => simp [pumpStep, hpc] at hs
  simp only [go, hpc] at hgo
  by_cases hlive : x.liveTransitional false = true
  · rw [if_pos hlive] at hgo
    cases hgo
    exact .inl ⟨hlive, rfl⟩
  · rw [if_neg hlive] at hgo
    cases hgo
    refine .inr ⟨Bool.eq_false_iff.mpr hlive, ?_⟩
    simp only [abandon]
    split
    · exact Adc.setOwner_streams _
    · rfl

/-- A step of the pump keeps the invariant. -/
lemma FifoInv.base (hi : FifoInv x h) {act : PumpAct} (hs : x.pumpStep mag act = some y) :
    FifoInv y (h.note x (.base act) y) := by
  have hr := PumpRule.of_pumpStep hs
  refine ⟨hi.held.pump hr, ?_, ?_⟩
  · intro hrev hpc
    rcases hr.batch hpc with ⟨avail, hlease⟩ | ⟨hbatch, hsid, howner⟩
    · simp only [FifoHistory.note, hlease] at hrev
      cases hrev
    · rw [hsid, howner]
      refine hi.revoked ?_ hbatch
      simp only [FifoHistory.note] at hrev
      split at hrev
      · cases hrev
      · split at hrev <;> exact hrev
      · exact hrev
  · intro i hb
    by_cases hpub : ∃ avail rawRead out used sat stalled,
        x.pc = .publishing avail rawRead out used sat stalled
    · obtain ⟨avail, rawRead, out, used, sat, stalled, hpc⟩ := hpub
      rcases Dsp.publish_cases hpc hs with ⟨hlive, hstreams⟩ | ⟨hlive, hstreams⟩
      · have hnote : h.note x (.base act) y = h.setLog x.sid ((h.logs x.sid).commit out) := by
          simp only [FifoHistory.note, hpc]
          exact if_pos hlive
        rw [hnote, FifoHistory.setLog_logs, hstreams]
        rw [hstreams] at hb
        by_cases hid : i = x.sid
        · subst hid
          rw [Function.update_self, Function.update_self]
          exact (hi.logs x.sid (Dsp.liveTransitional_iff.mp hlive).2).commit rawRead out sat
        · rw [Function.update_of_ne hid] at hb
          rw [Function.update_of_ne hid, Function.update_of_ne hid]
          exact hi.logs i hb
      · have hnote : h.note x (.base act) y = h := by
          simp only [FifoHistory.note, hpc]
          exact if_neg (Bool.eq_false_iff.mp hlive)
        rw [hnote]
        exact hi.keep_logs (.of_streams hstreams) i hb
    · have hpc : ∀ avail rawRead out used sat stalled,
          x.pc ≠ .publishing avail rawRead out used sat stalled :=
        fun _ _ _ _ _ _ heq => hpub ⟨_, _, _, _, _, _, heq⟩
      have hlogs : (h.note x (.base act) y).logs = h.logs := by
        simp only [FifoHistory.note]
        split
        · rfl
        · next heq => exact absurd heq (hpc _ _ _ _ _ _)
        · rfl
      rw [hlogs]
      exact hi.keep_logs (hr.keepsPlanes hpc) i hb

/-- Every step whose reads take the backlog for what it is keeps the invariant. -/
lemma FifoInv.step {op : DspOp β} {p q : Dsp β × FifoHistory} (hi : FifoInv p.1 p.2)
    (hs : withHistory (dspStep mag) FifoHistory.note p op = some q) (hok : UnreadTold p op q) :
    FifoInv q.1 q.2 := by
  obtain ⟨x, h⟩ := p
  obtain ⟨y, h'⟩ := q
  obtain ⟨hstep, hnote⟩ := withHistory_eq_some.mp hs
  simp only at hi hstep hnote ⊢
  subst hnote
  cases op with
  | isr op =>
    cases op with
    | pump => cases hstep
    | _ => exact hi.isr (fun _ _ => nofun) (fun _ => hok) (Option.some.inj hstep).symm
  | spectrum dmaErr id offset maxBins =>
    exact hi.spectrum dmaErr id offset maxBins (Option.some.inj hstep).symm
  | base act => exact hi.base hstep
  | fftOut out =>
    simp only [dspStep] at hstep
    split_ifs at hstep
    cases hstep
    exact ⟨hi.held, hi.revoked, hi.logs⟩
  | fftDone =>
    simp only [dspStep] at hstep
    split_ifs at hstep
    cases hstep
    exact ⟨hi.held, hi.revoked, hi.logs⟩

end Gd32Bridge
