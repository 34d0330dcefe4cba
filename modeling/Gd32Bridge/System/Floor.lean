import Gd32Bridge.System.Truthful

/-!
# The anti-rollback floor

The floor is not stored: `ota_version_floor` derives it from the newest record.  It keeps up with
every version that was ever confirmed as long as no metadata write gives up a confirmed newest
record, or works past one that names the other slot.
-/

namespace Gd32Bridge

open Memory Transition

/-! ### Records and the floor -/

/-- The version the record confirms: that of its active slot, once TRIAL is clear. -/
def MetaRecord.confirmedVersion (r : MetaRecord) : Option UInt32 :=
  if r.trial then none else (Slot.ofCode r.activeSlot).map r.fwVersion.get

/-- The version the newest record confirms. -/
def confirmedVersion (f : Flash) : Option UInt32 :=
  (metaCurrent f).bind fun n => n.1.confirmedVersion

/-- The record names a slot whose version is at least `v`, and so is the floor it stands for. -/
def Upholds (v : UInt32) (r : MetaRecord) : Prop :=
  ∃ s, r.Names s ∧ v ≤ r.fwVersion.get s ∧ (r.trial = true → v ≤ r.fwVersion.get s.other)

lemma MetaRecord.confirmedVersion_eq_some {r : MetaRecord} {v : UInt32}
    (h : r.confirmedVersion = some v) : r.trial = false ∧ ∃ s, r.Names s ∧ r.fwVersion.get s = v := by
  rw [MetaRecord.confirmedVersion] at h
  split_ifs at h with ht
  obtain ⟨s, hs, hv⟩ := Option.map_eq_some_iff.mp h
  exact ⟨by simpa using ht, s, Slot.ofCode_eq_some.mp hs, hv⟩

/-- A record upholds what it confirms. -/
lemma Upholds.of_confirmed {r : MetaRecord} {v : UInt32} (h : r.confirmedVersion = some v) :
    Upholds v r := by
  obtain ⟨ht, s, hs, rfl⟩ := MetaRecord.confirmedVersion_eq_some h
  refine ⟨s, hs, UInt32.le_refl _, fun ht' => ?_⟩
  rw [ht] at ht'
  cases ht'

lemma otaVersionFloor_of_names {r : MetaRecord} {s : Slot} (h : r.Names s) :
    otaVersionFloor r = r.fwVersion.get (if r.trial then s.other else s) := by
  rw [otaVersionFloor, Slot.ofCode_eq_some.mpr h]

lemma Upholds.floor {v : UInt32} {r : MetaRecord} (h : Upholds v r) : v ≤ otaVersionFloor r := by
  obtain ⟨s, hs, hv, ht⟩ := h
  rw [otaVersionFloor_of_names hs]
  split_ifs with htr
  · exact ht htr
  · exact hv

/-- On trial the floor is that of the slot the record does not name, and both slots are at
least `v`. -/
lemma Upholds.both {v : UInt32} {r : MetaRecord} (h : Upholds v r) (ht : r.trial = true)
    (s : Slot) : v ≤ r.fwVersion.get s := by
  obtain ⟨s', -, hv, hother⟩ := h
  rcases Slot.eq_or_eq_other s s' with rfl | rfl
  · exact hv
  · exact hother ht

lemma Upholds.named {v : UInt32} {r : MetaRecord} {s : Slot} (h : Upholds v r) (hs : r.Names s) :
    v ≤ r.fwVersion.get s := by
  obtain ⟨s', hs', hv, -⟩ := h
  rwa [hs.unique hs']

lemma otaVersionFloor_le {n : MetaRecord} {q : MetaPage} {v : UInt32}
    (h : belowFloor (some (n, q)) v = false) : otaVersionFloor n ≤ v :=
  UInt32.not_lt.mp (of_decide_eq_false h)

/-! ### What the writers write -/

section

variable {v : UInt32} {n : MetaRecord} {o : Ota}

/-- Without a new entry a write upholds `v` if the slot it activates is at least `v`, and on trial
the other one too. -/
lemma Upholds.apply {w : MetaWrite} {s : Slot} (hent : w.entry = none)
    (hact : w.activeSlot = s.code) (hv : v ≤ n.fwVersion.get s)
    (ht : (w.apply n).trial = true → v ≤ n.fwVersion.get s.other) : Upholds v (w.apply n) := by
  refine ⟨s, by rw [MetaRecord.Names, MetaWrite.apply_activeSlot, hact], ?_, ?_⟩
  · rwa [MetaWrite.apply_fwVersion _ _ hent]
  · rwa [MetaWrite.apply_fwVersion _ _ hent]

lemma Upholds.demote (h : Upholds v n) (run : Slot) : Upholds v ((demoteWrite run n).apply n) := by
  obtain ⟨s, hs, hv, ht⟩ := h
  refine .apply rfl hs hv fun ht' => ht ?_
  rwa [MetaWrite.apply_trial] at ht'

lemma Upholds.commit (h : Upholds v n) (hin : o.sess.inactive = o.run.other)
    (hfloor : otaVersionFloor n ≤ o.sess.fwVersion) (hn : n.trial = false → n.Names o.run) :
    Upholds v ((commitWrite o.sess).apply n) := by
  obtain ⟨hself, hother⟩ := (commitWrite o.sess).apply_fwVersion_entry n
    (s := o.sess.inactive) rfl rfl
  refine ⟨o.sess.inactive, by rw [MetaRecord.Names, MetaWrite.apply_activeSlot]; rfl, ?_, fun _ => ?_⟩
  · rw [hself]
    exact UInt32.le_trans h.floor hfloor
  · rw [hother, hin, Slot.other_other]
    cases ht : n.trial with
    | true => exact h.both ht o.run
    | false => exact h.named (hn ht)

lemma Upholds.rollback (h : Upholds v n) {active : Slot} (hn : n.Names active)
    (hfloor : otaVersionFloor n ≤ n.fwVersion.get active.other) (capable : Bool) :
    Upholds v ((rollbackWrite active.other capable).apply n) := by
  refine .apply rfl rfl (UInt32.le_trans h.floor hfloor) fun _ => ?_
  rw [Slot.other_other]
  exact h.named hn

/-- The confirm and the self-heal start from a record on trial. -/
lemma Upholds.settle (h : Upholds v n) (ht : n.trial = true) {w : MetaWrite} {run : Slot}
    (hent : w.entry = none) (hact : w.activeSlot = run.code) (hflags : w.flags = 0) :
    Upholds v (w.apply n) := by
  refine .apply hent hact (h.both ht run) fun ht' => ?_
  rw [MetaWrite.apply_trial, hflags] at ht'
  cases ht'

end

/-! ### The invariant -/

/-- A metadata write made while the newest record is confirmed finds it naming the running slot and
leaves its page alone. -/
def ConfirmedKept (c : Core) (l : Label) : Prop :=
  ∀ run w, Attempts c l run w → ∀ n q, metaCurrent c.flash = some (n, q) → n.trial = false →
    n.Names run ∧ w.pageOn c.flash run ≠ q

/-- The newest record upholds `v`, and so does the one behind a record on trial. -/
structure FloorKept (v : UInt32) (f : Flash) : Prop where
  newest : ∀ n q, metaCurrent f = some (n, q) → Upholds v n
  behind : ∀ n q r, metaCurrent f = some (n, q) → n.trial = true →
    metaPages f q.other = some r → Upholds v r

lemma FloorKept.congr {v : UInt32} {f f' : Flash} (h : FloorKept v f)
    (hp : ∀ p, metaPages f' p = metaPages f p) : FloorKept v f' where
  newest n q hn := h.newest n q (by rwa [metaCurrent_congr hp] at hn)
  behind n q r hn ht hr :=
    h.behind n q r (by rwa [metaCurrent_congr hp] at hn) ht (by rwa [hp] at hr)

lemma FloorKept.of_confirmed {f : Flash} {v : UInt32} (h : confirmedVersion f = some v) :
    FloorKept v f := by
  obtain ⟨⟨n, q⟩, hn, hv⟩ := Option.bind_eq_some_iff.mp h
  refine ⟨fun n' q' hn' => ?_, fun n' q' r hn' ht => ?_⟩
  · rw [hn] at hn'
    cases hn'
    exact .of_confirmed hv
  · rw [hn] at hn'
    cases hn'
    rw [(MetaRecord.confirmedVersion_eq_some hv).1] at ht
    cases ht

/-- A write keeps the floor if its own record upholds `v` and it leaves a confirmed newest record
alone. -/
lemma FloorKept.wrote {v : UInt32} {b b' : Board} {run : Slot} {w : MetaWrite}
    (h : FloorKept v b.flash) (hw : Wrote b b' run w)
    (hpage : ∀ n q, metaCurrent b.flash = some (n, q) → n.trial = false →
      w.pageOn b.flash run ≠ q)
    (hnew : Upholds v (w.apply (metaSeed b.flash))) : FloorKept v b'.flash := by
  -- what is left on the other page upholds `v`
  have hleft : ∀ r, metaPages b.flash (w.pageOn b.flash run).other = some r → Upholds v r := by
    intro r hr
    obtain ⟨n, q, hn⟩ := exists_metaCurrent hr
    rcases MetaPage.eq_or_eq_other (w.pageOn b.flash run) q with hq | hq
    · have ht : n.trial = true := by
        by_contra ht
        exact hpage n q hn (by simpa using ht) hq
      rw [hq] at hr
      exact h.behind n q r hn ht hr
    · rw [hq, MetaPage.other_other, (metaCurrent_eq_some hn).1] at hr
      cases hr
      exact h.newest _ q hn
  cases hw.cases with
  | kept hp => exact h.congr hp
  | torn hnone ho =>
    have hall : ∀ p r, metaPages b'.flash p = some r → Upholds v r := by
      intro p r hr
      rcases MetaPage.eq_or_eq_other p (w.pageOn b.flash run) with rfl | rfl
      · rw [hnone] at hr
        cases hr
      · rw [ho] at hr
        exact hleft r hr
    exact ⟨fun n q hn => hall q n (metaCurrent_eq_some hn).1, fun _ q r _ _ hr => hall _ r hr⟩
  | landed hcur ho =>
    constructor
    · intro n q hn
      rw [hcur] at hn
      cases hn
      exact hnew
    · intro n q r hn _ hr
      rw [hcur] at hn
      cases hn
      rw [ho] at hr
      exact hleft r hr

/-- Every move leaves the pages alone or attempts a metadata write. -/
lemma Move.pages_or_attempts {c c' : Core} {l : Label} (h : Move c l c') :
    (∀ p, metaPages c'.flash p = metaPages c.flash p) ∨
      ∃ run w, Attempts c l run w ∧ Wrote c.board c'.board run w := by
  cases h with
  | still hst => exact .inl hst.pages
  | touch _ _ hst => exact .inl hst.pages
  | blank _ _ hst => exact .inl hst.pages
  | demote ht hd hw => exact .inr ⟨_, _, .demote ht hd, hw⟩
  | commit ht hc hw => exact .inr ⟨_, _, .commit ht hc, hw⟩
  | rollback ht hr heq hw => exact .inr ⟨_, _, .rollback ht hr heq, hw⟩
  | confirm ht hf hr hw => exact .inr ⟨_, _, .confirm ht hf hr, hw⟩
  | boot _ hst => exact .inl hst.pages
  | heal hd hr hn hne ht hw => exact .inr ⟨_, _, .heal hd hr hn hne ht, hw⟩

/-- Every write upholds what the newest record upholds. -/
lemma Attempts.upholds {c : Core} {l : Label} {run : Slot} {w : MetaWrite} {v : UInt32}
    (ha : Attempts c l run w) (ho : c.Ordered) (hsafe : c.Safe) (hok : ConfirmedKept c l)
    (h : FloorKept v c.flash) : Upholds v (w.apply (metaSeed c.flash)) := by
  have hkept := hok run w ha
  cases ha with
  | @demote o pc link pl script cur p ht hd =>
    have hcur : metaCurrent (Core.on o pc).flash = some (cur, p) := hd.current
    rw [metaSeed_of_current hcur]
    exact (h.newest cur p hcur).demote o.run
  | @commit o pc link pl script ht hc =>
    have ho : Tidy o pc := ho
    obtain ⟨n, q, hn⟩ : ∃ n q, metaCurrent o.board.flash = some (n, q) := by
      obtain ⟨r, p, hr, -⟩ := (hsafe.2 ht).1.found
      exact exists_metaCurrent (findRunningSlotRecord_eq_some hr).1
    have hn' : metaCurrent (Core.on o pc).flash = some (n, q) := hn
    rw [metaSeed_of_current hn']
    refine (h.newest n q hn').commit ho.inactive ?_ fun htr => (hkept n q hn' htr).1
    have hfloor := hc.floor
    rw [hn] at hfloor
    exact otaVersionFloor_le hfloor
  | @rollback o pc link pl script cur p active w ht hr heq =>
    have hcur : metaCurrent (Core.on o pc).flash = some (cur, p) := hr.current
    rw [metaSeed_of_current hcur, heq]
    exact (h.newest cur p hcur).rollback hr.names hr.floor _
  | @confirm o script r p ht hf hr =>
    obtain ⟨n, q, hn⟩ := exists_metaCurrent (findRunningSlotRecord_eq_some hr).1
    have hn' : metaCurrent (Core.on o .idle).flash = some (n, q) := hn
    rw [metaSeed_of_current hn']
    refine (h.newest n q hn').settle ?_ rfl rfl rfl
    -- a confirmed newest record would be on the page of the confirm
    by_contra htr
    obtain ⟨hnames, hpage⟩ := hkept n q hn' (by simpa using htr)
    have hfind := findRunningSlotRecord_of_current hn hnames
    rw [hr] at hfind
    cases hfind
    exact hpage (MetaWrite.pageOn_of_target rfl)
  | @heal b wdt script dec n p hd hr hn hne ht =>
    have hn' : metaCurrent (Core.off b).flash = some (n, p) := hn
    rw [metaSeed_of_current hn']
    exact (h.newest n p hn').settle ht rfl rfl rfl

/-- Every move that meets the condition keeps the floor. -/
theorem FloorKept.move {c c' : Core} {l : Label} {v : UInt32} (hm : Move c l c') (ho : c.Ordered)
    (hsafe : c.Safe) (hok : ConfirmedKept c l) (h : FloorKept v c.flash) :
    FloorKept v c'.flash := by
  rcases hm.pages_or_attempts with hp | ⟨run, w, ha, hw⟩
  · exact h.congr hp
  · exact h.wrote hw (fun n q hn ht => (hok run w ha n q hn ht).2) (ha.upholds ho hsafe hok h)

/-! ### Over a run -/

section

variable {σ : Type} {hal : Hal σ}

/-- The versions the newest record has confirmed so far. -/
def confirmedUpd (seen : List UInt32) (_ : Sys σ) (_ : Label) (s' : Sys σ) : List UInt32 :=
  (confirmedVersion s'.flash).toList ++ seen

/-- A provisioned device, with the version it confirms. -/
def ProvisionedSeen (x : Sys σ × List UInt32) : Prop :=
  Provisioned x.1 ∧ x.2 = (confirmedVersion x.1.flash).toList

/-- In every reachable state of every run that meets the condition, the floor is kept for every
version confirmed so far. -/
lemma reach_floorKept {x : Sys σ × List UInt32}
    (h : Reach (withHistory (step hal) confirmedUpd) ProvisionedSeen
      (fun x l y => Legal x.1 l y.1 ∧ ConfirmedKept x.1.core l) x) :
    ∀ v ∈ x.2, FloorKept v x.1.flash := by
  have hlegal : AtLeastLegal (fun (s : Sys σ) l s' => Legal s l s' ∧ ConfirmedKept s.core l) :=
    fun _ _ _ h => h.1
  apply Reach.invariant (I := fun x : Sys σ × List UInt32 => ∀ v ∈ x.2, FloorKept v x.1.flash)
    ?_ ?_ h
  · rintro x ⟨-, hseen⟩ v hv
    rw [hseen, Option.mem_toList] at hv
    exact .of_confirmed hv
  · intro x l y hr hi hs hok v hv
    have hr' : Reach (step hal) Provisioned
        (fun s l s' => Legal s l s' ∧ ConfirmedKept s.core l) x.1 := hr.forget fun _ hx => hx.1
    obtain ⟨hstep, hupd⟩ := withHistory_eq_some.mp hs
    rw [hupd, confirmedUpd, List.mem_append, Option.mem_toList] at hv
    rcases hv with hv | hv
    · exact .of_confirmed hv
    · have hm := reach_move hlegal hr' hstep hok
      have hold : FloorKept v x.1.core.flash := by
        rw [Core.flash, Sys.core_board]
        exact hi v hv
      have hnew := hold.move hm (reach_tidy hr') (reach_safe hlegal hr') hok.2
      rwa [Core.flash, Sys.core_board] at hnew

/-- In every run from a provisioned flash in which no metadata write gives up a confirmed newest
record or works past one that names the other slot: a COMMIT or ROLLBACK that succeeds activates a
slot whose recorded version is at least every version the newest record has confirmed before. -/
theorem activated_version_ge_of_reach {x : Sys σ × List UInt32}
    (h : Reach (withHistory (step hal) confirmedUpd) ProvisionedSeen
      (fun x l y => Legal x.1 l y.1 ∧ ConfirmedKept x.1.core l) x)
    {d d' : Device σ} {pc : BasePc} (hx : x.1 = .on d pc) {link : Link} {cmd : UInt8}
    {payload : List UInt8} {script : List PhysResult} (hsize : payload.length ≤ maxPayloadBytes)
    (hdis : protocolDispatch hal false link cmd (d.prepare script) payload maxPayloadBytes =
      (d', .reset)) :
    ∃ n q s, metaCurrent d'.ota.board.flash = some (n, q) ∧ n.Names s ∧
      ∀ v ∈ x.2, v ≤ n.fwVersion.get s := by
  have hlegal : AtLeastLegal (fun (s : Sys σ) l s' => Legal s l s' ∧ ConfirmedKept s.core l) :=
    fun _ _ _ h => h.1
  have hr : Reach (step hal) Provisioned
      (fun s l s' => Legal s l s' ∧ ConfirmedKept s.core l) x.1 := h.forget fun _ hx => hx.1
  have hsafe := reach_safe hlegal hr
  have hkept := reach_floorKept h
  rw [hx] at hsafe hkept
  have hrule := DispatchRule.of_dispatch hal link cmd (d.prepare script) payload maxPayloadBytes
  rw [hdis] at hrule
  generalize hy : ((d', Outcome.reset) : Device σ × Outcome) = y at hrule
  cases hrule with
  | gated => cases hy
  | passive => cases hy
  | ota hg =>
    obtain ⟨hd', hout⟩ := Prod.mk.inj hy
    have rule := OtaRule.of_otaDispatch (d.ota.prepare script) cmd payload maxPayloadBytes hsize
    obtain ⟨w, htrue, hboard, hw⟩ := rule.of_reset hout.symm
    have hwrote := Wrote.of_success d.ota.board (d.ota.prepare script).board rfl rfl htrue
    have hland := Landed.of_metaCommit d.ota.board (d.ota.prepare script).board _ _ rfl htrue
    have hcur := hland.current hwrote.other
    rw [← hboard] at hcur
    have hb : d'.ota.board = (otaDispatch (d.ota.prepare script) cmd payload maxPayloadBytes).1.board := by
      rw [hd']
      rfl
    rw [← hb] at hcur
    rcases hw with ⟨-, rfl, hc⟩ | ⟨-, cur, p, active, capable, rfl, hro⟩
    · obtain ⟨hself, -⟩ := (commitWrite d.ota.sess).apply_fwVersion_entry
        (metaSeed d.ota.board.flash) (s := d.ota.sess.inactive) rfl rfl
      refine ⟨_, _, d.ota.sess.inactive, hcur, ?_, fun v hv => ?_⟩
      · rw [MetaRecord.Names, MetaWrite.apply_activeSlot]
        rfl
      · obtain ⟨r, p, hr, -⟩ := (hsafe.2 hg).1.found
        obtain ⟨n, q, hn⟩ := exists_metaCurrent (findRunningSlotRecord_eq_some hr).1
        have hn : metaCurrent d.ota.board.flash = some (n, q) := hn
        have hfloor := hc.floor
        rw [Ota.prepare_flash, hn] at hfloor
        rw [Ota.prepare_sess, hself]
        exact UInt32.le_trans ((hkept v hv).newest n q hn).floor (otaVersionFloor_le hfloor)
    · have hn : metaCurrent d.ota.board.flash = some (cur, p) := hro.current
      have hver := (rollbackWrite active.other capable).apply_fwVersion
        (metaSeed d.ota.board.flash) rfl
      refine ⟨_, _, active.other, hcur, ?_, fun v hv => ?_⟩
      · rw [MetaRecord.Names, MetaWrite.apply_activeSlot]
        rfl
      · rw [hver, metaSeed_of_current hn]
        exact UInt32.le_trans ((hkept v hv).newest cur p hn).floor hro.floor

end

/-! ### Runs -/

/-- The sample device with version 5 confirmed in slot A and version 6 in slot B. -/
def versionedRecord : MetaRecord :=
  { sampleRecord with fwVersion := ⟨5, 6⟩ }

def versionedDevice : Sys Unit :=
  .off { sampleBoard with flash := sampleFlash.put otaMetaRec0 versionedRecord.encode }

set_option maxRecDepth 20000 in
lemma versionedDevice_provisioned : Provisioned versionedDevice :=
  ProvisionedFlash.of_check (by decide +kernel)

/-- Page 1 with the record of a ROLLBACK to B, or of its confirm. -/
def versionedPage (counter : UInt32) (flags : UInt8) : Flash :=
  Flash.blank.put otaMetaRec1
    { versionedRecord with counter := counter, activeSlot := 1, flags := flags }.encode

/-- `ConfirmedKept` for one write, as a test. -/
def keptCheck (f : Flash) (run : Slot) (w : MetaWrite) : Bool :=
  (metaCurrent f).all fun n =>
    n.1.trial || (decide (n.1.Names run) && !decide (w.pageOn f run = n.2))

lemma keptCheck_spec {f : Flash} {run : Slot} {w : MetaWrite} (h : keptCheck f run w = true)
    {n : MetaRecord} {q : MetaPage} (hn : metaCurrent f = some (n, q)) (ht : n.trial = false) :
    n.Names run ∧ w.pageOn f run ≠ q := by
  simpa [keptCheck, hn, ht] using h

/-- `ConfirmedKept` as a test: the page of a ranked write does not depend on what it writes. -/
def confirmedKeptCheck : Core → Label → Bool
  | .on o _, .request _ cmd _ _ =>
    decide (cmd < 0xF0) || o.trial || keptCheck o.board.flash o.run (rollbackWrite .A false)
  | .on o _, .confirmTick _ =>
    match findRunningSlotRecord o.board.flash o.run with
    | some (_, p) => keptCheck o.board.flash o.run (confirmWrite o.run p)
    | none => true
  | .off b, .boot wdt _ =>
    (bootDecideSlot b.flash wdt).all fun dec =>
      keptCheck b.flash dec.slot (rollbackWrite .A false)
  | _, _ => true

lemma ConfirmedKept.of_check {c : Core} {l : Label} (h : confirmedKeptCheck c l = true) :
    ConfirmedKept c l := by
  intro run w ha n q hn ht
  cases ha with
  | @demote o _ _ _ _ cur _ htr | @commit o _ _ _ _ htr =>
    simp only [confirmedKeptCheck, htr, Bool.or_false, Bool.or_eq_true, decide_eq_true_eq] at h
    exact keptCheck_spec (h.resolve_left (by decide)) hn ht
  | @rollback o _ _ _ _ _ _ _ w htr hr heq =>
    simp only [confirmedKeptCheck, htr, Bool.or_false, Bool.or_eq_true, decide_eq_true_eq] at h
    rw [heq]
    exact keptCheck_spec (h.resolve_left (by decide)) hn ht
  | confirm _ _ hr =>
    simp only [confirmedKeptCheck, hr] at h
    exact keptCheck_spec h hn ht
  | heal hd =>
    simp only [confirmedKeptCheck, hd, Option.all_some] at h
    exact keptCheck_spec h hn ht

/-- A ROLLBACK succeeds here and activates slot `s` with version `v`; `seen` was confirmed. -/
def rollbackGives (s : Slot) (v seen : UInt32) (x : Sys Unit × List UInt32) : Bool :=
  match x.1 with
  | .on d _ =>
    match protocolDispatch .stub false .spi 0xF4 (d.prepare []) [] maxPayloadBytes with
    | (d', .reset) =>
      (metaCurrent d'.ota.board.flash).any (fun n => decide (n.1.Names s) &&
        Nat.beq (n.1.fwVersion.get s).toNat v.toNat) && x.2.any fun u => Nat.beq u.toNat seen.toNat
    | _ => false
  | .off _ => false

lemma rollbackGives_spec {s : Slot} {v seen : UInt32} {x : Sys Unit × List UInt32}
    (h : rollbackGives s v seen x = true) : ∃ d d' pc n q, x.1 = .on d pc ∧
      protocolDispatch .stub false .spi 0xF4 (d.prepare []) [] maxPayloadBytes = (d', .reset) ∧
      metaCurrent d'.ota.board.flash = some (n, q) ∧ n.Names s ∧ n.fwVersion.get s = v ∧
      seen ∈ x.2 := by
  obtain ⟨s', l⟩ := x
  cases s' with
  | off b => cases h
  | on d pc =>
    simp only [rollbackGives] at h
    split at h
    · next d' hd =>
      simp only [Bool.and_eq_true, Option.any_eq_true, List.any_eq_true, decide_eq_true_eq,
        Nat.beq_eq, UInt32.toNat_inj] at h
      obtain ⟨⟨⟨n, q⟩, hn, hnames, hv⟩, u, hu, rfl⟩ := h
      exact ⟨d, d', pc, n, q, rfl, hd, hn, hnames, hv, hu⟩
    · cases h

set_option maxRecDepth 20000 in
/-- With version 5 confirmed, a ROLLBACK to version 6 succeeds and stays above it. -/
theorem activated_version_ge_sample :
    ∃ (x : Sys Unit × List UInt32) (d d' : Device Unit) (pc : BasePc) (n : MetaRecord)
      (q : MetaPage) (s : Slot), x.1 = .on d pc ∧ 5 ∈ x.2 ∧
      protocolDispatch .stub false .spi 0xF4 (d.prepare []) [] maxPayloadBytes = (d', .reset) ∧
      metaCurrent d'.ota.board.flash = some (n, q) ∧ n.Names s ∧ 5 ≤ n.fwVersion.get s := by
  have hinit : Reach (withHistory (step .stub) confirmedUpd) ProvisionedSeen
      (fun x l y => Legal x.1 l y.1 ∧ ConfirmedKept x.1.core l)
      (versionedDevice, (confirmedVersion versionedDevice.flash).toList) :=
    .start ⟨versionedDevice_provisioned, rfl⟩
  obtain ⟨x, hx, hq⟩ := hinit.exists_of_run
    (fun x l y => legalCheck x.1 l y.1 && confirmedKeptCheck x.1.core l) (rollbackGives .B 6 5)
    [.boot false []]
    (fun x l y h => by
      rw [Bool.and_eq_true] at h
      exact ⟨.of_check h.1, .of_check h.2⟩) (by decide +kernel)
  obtain ⟨d, d', pc, -, -, hd, hdis, -, -, -, hseen⟩ := rollbackGives_spec hq
  obtain ⟨n, q, s, hn, hnames, hv⟩ := activated_version_ge_of_reach hx hd (by decide) hdis
  exact ⟨x, d, d', pc, n, q, s, hd, hseen, hdis, hn, hnames, hv 5 hseen⟩

/-- Slot B is on trial; its confirm lands but is reported as failed, and the next tick repeats it
and is cut after the erase.  A second trial of B is reverted by the watchdog with a failed
self-heal, and ROLLBACK goes back to A. -/
def slipRun : List Label :=
  [.boot false [], .request .spi 0xF4 [] [], .boot false [], .request .spi 0x00 [] [],
    .confirmTick [.ready, .ready, .ready, .ready, .ready, .ready,
      .fault .pgerr (versionedPage 3 0)],
    .confirmTick [.cut .blank], .boot false [], .request .spi 0xF4 [] [],
    .boot true [.fault .toerr (versionedPage 2 1)]]

set_option maxRecDepth 20000 in
/-- Version 6 was confirmed, and a ROLLBACK to version 5 succeeds. -/
theorem activated_version_lt_after_retry :
    ∃ (x : Sys Unit × List UInt32) (d d' : Device Unit) (pc : BasePc) (n : MetaRecord)
      (q : MetaPage), Reach (withHistory (step .stub) confirmedUpd) ProvisionedSeen
        (fun x l y => Legal x.1 l y.1) x ∧ x.1 = .on d pc ∧ 6 ∈ x.2 ∧
      protocolDispatch .stub false .spi 0xF4 (d.prepare []) [] maxPayloadBytes = (d', .reset) ∧
      metaCurrent d'.ota.board.flash = some (n, q) ∧ n.Names .A ∧ n.fwVersion.get .A = 5 := by
  have hinit : Reach (withHistory (step .stub) confirmedUpd) ProvisionedSeen
      (fun x l y => Legal x.1 l y.1)
      (versionedDevice, (confirmedVersion versionedDevice.flash).toList) :=
    .start ⟨versionedDevice_provisioned, rfl⟩
  obtain ⟨x, hx, hq⟩ := hinit.exists_of_run (fun x l y => legalCheck x.1 l y.1)
    (rollbackGives .A 5 6) slipRun (fun _ _ _ h => .of_check h) (by decide +kernel)
  obtain ⟨d, d', pc, n, q, hd, hdis, hn, hnames, hv, hseen⟩ := rollbackGives_spec hq
  exact ⟨x, d, d', pc, n, q, hx, hd, hseen, hdis, hn, hnames, hv⟩

end Gd32Bridge
