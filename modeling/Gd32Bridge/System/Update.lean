import Gd32Bridge.System.Commit
import Gd32Bridge.System.Floor
import Gd32Bridge.System.Pump

/-!
# An update goes through

On healthy hardware no reachable state is a dead end: from any boot that is not on trial, with the
main loop at rest, the session left however it may be and the counter within the bound BEGIN
checks, a host that sends a bootable image gets it installed.  Every request is served, the
committed slot is booted on trial, the first frame lets the confirm tick settle it, and the boot
after that is not on trial any more.
-/

namespace Gd32Bridge

open Endian Memory Transition

variable {σ : Type} (hal : Hal σ)

/-! ### What the host sends -/

/-- An image with its version. -/
structure Release where
  image : List UInt8
  maj : UInt8
  min : UInt8
  patch : UInt8

namespace Release

def version (r : Release) : UInt32 :=
  (r.maj.toUInt32 <<< 16) ||| (r.min.toUInt32 <<< 8) ||| r.patch.toUInt32

def beginRequest (r : Release) : List UInt8 :=
  le32 (.ofNat r.image.length) ++ le32 (otaCrc32 0 r.image) ++ [r.maj, r.min, r.patch]

/-- What `h_begin` makes of it. -/
def args (r : Release) : BeginArgs :=
  ⟨.ofNat r.image.length, otaCrc32 0 r.image, r.version⟩

lemma args_ofRequest (r : Release) : BeginArgs.ofRequest r.beginRequest = r.args := by
  have hlen : getLe32 r.beginRequest 0 = .ofNat r.image.length := getLe32_le32 _ []
  have hcrc : getLe32 r.beginRequest 4 = otaCrc32 0 r.image := getLe32_le32 _ []
  simp only [BeginArgs.ofRequest, hlen, hcrc]
  rfl

end Release

/-! ### Requests -/

section

variable {d : Device σ}

/-- What `ota_dispatch` makes of an OTA request, as the device sees it. -/
lemma dispatch_ota (link : Link) {cmd : UInt8} {pl : List UInt8} {x : Ota × Outcome}
    (hg : d.ota.trial = false) (hcmd : cmd ≥ cmdOtaBegin)
    (h : otaDispatch (d.ota.prepare []) cmd pl maxPayloadBytes = x) :
    protocolDispatch hal false link cmd (d.prepare []) pl maxPayloadBytes =
      ({ d with ota := x.1 }, x.2) := by
  subst h
  have hrule := DispatchRule.of_dispatch hal link cmd (d.prepare []) pl maxPayloadBytes
  generalize protocolDispatch hal false link cmd (d.prepare []) pl maxPayloadBytes = y at hrule ⊢
  cases hrule with
  | gated ht =>
    have ht : d.ota.trial = true := ht
    rw [hg] at ht
    cases ht
  | passive _ hlt => exact absurd hlt (UInt8.not_lt.mpr hcmd)
  | ota => rfl

/-- An OTA request that is answered OK. -/
lemma run_request {o' : Ota} (link : Link) {cmd : UInt8} {pl p : List UInt8}
    (hg : d.ota.trial = false) (hcmd : cmd ≥ cmdOtaBegin) (hlen : pl.length ≤ maxPayloadBytes)
    (h : otaDispatch (d.ota.prepare []) cmd pl maxPayloadBytes = (o', .reply .ok p)) :
    run (step hal) (served hal) (.on d .idle) [.request link cmd pl []] =
      some (.on { d with ota := o' } .idle) := by
  have hx := dispatch_ota hal link hg hcmd h
  refine run_cons ?_ ?_ (run_nil _ _)
  · simp only [step, if_pos hlen, Sys.request, hx]
  · simp only [served, hx, hg, Bool.false_eq_true, if_false, beq_self_eq_true]

/-- An OTA request that ends in a reset. -/
lemma run_reset {o' : Ota} (link : Link) {cmd : UInt8} {pl : List UInt8}
    (hg : d.ota.trial = false) (hcmd : cmd ≥ cmdOtaBegin) (hlen : pl.length ≤ maxPayloadBytes)
    (h : otaDispatch (d.ota.prepare []) cmd pl maxPayloadBytes = (o', .reset)) :
    run (step hal) (served hal) (.on d .idle) [.request link cmd pl []] = some (.off o'.board) := by
  have hx := dispatch_ota hal link hg hcmd h
  refine run_cons ?_ ?_ (run_nil _ _)
  · simp only [step, if_pos hlen, Sys.request, hx]
  · simp only [served, hx]

/-- Behind the gate any request is answered BUSY and noted. -/
lemma run_gated (link : Link) (cmd : UInt8) {pl : List UInt8} (hg : d.ota.trial = true)
    (hlen : pl.length ≤ maxPayloadBytes) :
    run (step hal) (served hal) (.on d .idle) [.request link cmd pl []] =
      some (.on { d with ota := { d.ota.prepare [] with frameSeen := true } } .idle) := by
  have hx : protocolDispatch hal false link cmd (d.prepare []) pl maxPayloadBytes =
      ({ d with ota := { d.ota.prepare [] with frameSeen := true } }, .reply .busy []) := by
    have hrule := DispatchRule.of_dispatch hal link cmd (d.prepare []) pl maxPayloadBytes
    generalize protocolDispatch hal false link cmd (d.prepare []) pl maxPayloadBytes = y at hrule ⊢
    have hno : (d.prepare []).ota.trial ≠ false := by
      have hg' : (d.prepare []).ota.trial = true := hg
      rw [hg']
      exact Bool.noConfusion
    cases hrule with
    | gated => rfl
    | passive h => exact absurd h hno
    | ota h => exact absurd h hno
  refine run_cons ?_ ?_ (run_nil _ _)
  · simp only [step, if_pos hlen, Sys.request, hx]
  · simp only [served, hx, hg, if_true, beq_self_eq_true]

end

/-! ### The metadata while the slot is being filled -/

/-- The record pages of a device that can take a COMMIT of version `v`; `c` is the counter of the
newest record. -/
structure MetaReady (c v : UInt32) (run : Slot) (f : Flash) : Prop where
  anchored : Anchored f run
  quiet : Quiet f run
  newest : ∃ n q, metaCurrent f = some (n, q) ∧ n.counter = c ∧ otaVersionFloor n ≤ v

/-- Filling the other slot leaves them alone. -/
lemma MetaReady.congr {c v : UInt32} {run : Slot} {f f' : Flash} (h : MetaReady c v run f)
    (hf : Unchanged run.other.region f f') : MetaReady c v run f' := by
  have hpages : ∀ p, metaPages f' p = metaPages f p := fun p =>
    metaPages_congr hf (p.region_disjoint_slot _)
  obtain ⟨n, q, hn, hc, hv⟩ := h.newest
  refine ⟨?_, h.quiet.congr hpages, n, q, by rwa [metaCurrent_congr hpages], hc, hv⟩
  -- `Touch` speaks of boards; one that has logged nothing stands for its flash
  have htouch : Touch ⟨f, false, false, [], []⟩ ⟨f', false, false, [], []⟩ run.other :=
    .of_unchanged hf fun run o ho => by cases ho
  exact Anchored.touch (b := ⟨f, false, false, [], []⟩) h.anchored h.quiet htouch

/-- A record with another slot invalidated has the same floor. -/
lemma otaVersionFloor_demote (run : Slot) (n : MetaRecord) :
    otaVersionFloor ((demoteWrite run n).apply n) = otaVersionFloor n := by
  have ht : ((demoteWrite run n).apply n).trial = n.trial := by
    rw [MetaWrite.apply_trial, MetaRecord.trial]
    rfl
  rw [otaVersionFloor, otaVersionFloor, MetaWrite.apply_activeSlot,
    MetaWrite.apply_fwVersion _ _ rfl, ht]
  rfl

/-- The bound BEGIN checks leaves room for its own record. -/
lemma counter_lt_demote {n : MetaRecord} (run : Slot) (h : n.counter ≤ otaMetaBeginMaxCounter) :
    n.counter < (demoteWrite run n).counterCap := by
  have hle : n.counter.toNat ≤ 0xFFFFFFED := UInt32.le_iff_toNat_le.mp h
  have hcap : 0xFFFFFFEF ≤ (demoteWrite run n).counterCap.toNat := by
    simp only [MetaWrite.counterCap]
    split_ifs <;> decide
  rw [UInt32.lt_iff_toNat_lt]
  omega

/-- The record of a BEGIN on healthy hardware. -/
lemma MetaReady.of_demote {b : Board} {run : Slot} {n : MetaRecord} {q : MetaPage} {v : UInt32}
    (ha : Anchored b.flash run) (hs : b.script = []) (hl : b.log = []) (ho : b.owned = false)
    (hn : metaCurrent b.flash = some (n, q)) (hc : n.counter ≤ otaMetaBeginMaxCounter)
    (hv : otaVersionFloor n ≤ v) :
    (metaCommit b run (demoteWrite run n)).2 = some true ∧
      MetaReady (n.counter + 1) v run (metaCommit b run (demoteWrite run n)).1.flash := by
  have hseed := metaSeed_of_current hn
  have htrue : (metaCommit b run (demoteWrite run n)).2 = some true :=
    metaCommit_nominal hs ho (by rw [hseed]; exact counter_lt_demote run hc)
  have hw := Wrote.of_success b b rfl hl htrue
  have hland := Landed.of_metaCommit b b _ _ rfl htrue
  have hcur := hland.current hw.other
  rw [hseed] at hcur
  refine ⟨htrue, ha.wrote (demoteWrite_ranked _ _) hw,
    Quiet.wrote ha (demoteWrite_ranked _ _) hw (.inr hland), _, _, hcur,
    MetaWrite.apply_counter _ _, ?_⟩
  rw [otaVersionFloor_demote]
  exact hv

/-- The demotion of BEGIN leaves the running slot on trial as little as it was. -/
lemma runRecTrial_demote {b b' : Board} {run : Slot} {n : MetaRecord} {q : MetaPage}
    (ha : Anchored b.flash run) (hn : metaCurrent b.flash = some (n, q))
    (hw : Wrote b b' run (demoteWrite run n)) (hland : Landed b b' run (demoteWrite run n))
    (ht : runRecTrial b.flash run = false) : runRecTrial b'.flash run = false := by
  have hcur := hland.current hw.other
  rw [metaSeed_of_current hn] at hcur
  by_cases hnames : n.Names run
  · -- the new record is the running slot's, with the flags of the old one
    have hnames' : ((demoteWrite run n).apply n).Names run := by
      rw [MetaRecord.Names, MetaWrite.apply_activeSlot]
      exact hnames
    rw [runRecTrial, findRunningSlotRecord_of_current hn hnames] at ht
    rw [runRecTrial, findRunningSlotRecord_of_current hcur hnames']
    exact (MetaWrite.apply_trial _ _).trans ht
  · obtain ⟨r, hr, hrn, -, hfind⟩ := ha.spared (demoteWrite_ranked run n)
    have hfind' := findRunningSlotRecord_of_gt (hw.other.trans hr) hrn fun r' hr' hn' => by
      rw [MetaPage.other_other, (metaCurrent_eq_some hcur).1] at hr'
      cases hr'
      rw [MetaRecord.Names, MetaWrite.apply_activeSlot] at hn'
      exact absurd hn' hnames
    rw [runRecTrial, hfind] at ht
    rw [runRecTrial, hfind']
    exact ht

/-! ### BEGIN -/

/-- An image that fits slot `s`, starts there, and can confirm itself. -/
structure Release.Installable (r : Release) (s : Slot) : Prop where
  fits : r.image.length ≤ otaSlotSize.toNat
  bootable : otaImageBootable s.base r.image (.ofNat r.image.length) = true
  capable : otaImageTrialCapable r.image (.ofNat r.image.length) = true

namespace Release

variable {r : Release} {s : Slot}

lemma Installable.toNat_len (h : r.Installable s) :
    (UInt32.ofNat r.image.length).toNat = r.image.length :=
  ofNat_toNat_of_le h.fits

lemma Installable.pos (h : r.Installable s) : 1 ≤ r.image.length := by
  have hb := h.bootable
  rw [otaImageBootable] at hb
  split_ifs at hb with hlen
  have hge : 8 ≤ (UInt32.ofNat r.image.length).toNat := by
    rw [← show otaImgMinLen.toNat = 8 from rfl, ← UInt32.le_iff_toNat_le]
    exact UInt32.not_lt.mp hlen
  rw [h.toNat_len] at hge
  omega

lemma Installable.lenOk (h : r.Installable s) : LenOk (.ofNat r.image.length) := by
  constructor
  · intro h0
    have hpos := h.pos
    have hlen := h.toNat_len
    rw [h0] at hlen
    have hz : (0 : UInt32).toNat = 0 := rfl
    omega
  · rw [UInt32.le_iff_toNat_le, h.toNat_len]
    exact h.fits

lemma beginRequest_length (r : Release) : r.beginRequest.length = 11 := by
  simp [beginRequest]

end Release

/-- BEGIN on healthy hardware, with the funnel free and the counter within its bound. -/
lemma hBegin_nominal {o : Ota} {n : MetaRecord} {q : MetaPage} {r : Release}
    (hr : r.Installable o.run.other) (hn : metaCurrent o.board.flash = some (n, q))
    (hc : n.counter ≤ otaMetaBeginMaxCounter) (ho : o.board.owned = false)
    (hw : (metaCommit o.board o.run (demoteWrite o.run n)).2 = some true) :
    ∃ p, hBegin o r.beginRequest maxPayloadBytes = (Ota.openSession
      { o with board := (metaCommit o.board o.run (demoteWrite o.run n)).1 } r.args,
        .reply .ok p) := by
  have h₁ : ¬ r.beginRequest.length < 8 := by
    rw [r.beginRequest_length]
    decide
  have h₂ : ¬ (r.args.imgLen = 0 ∨ r.args.imgLen > otaSlotSize) := by
    rw [not_or]
    exact ⟨hr.lenOk.1, UInt32.not_lt.mpr hr.lenOk.2⟩
  simp only [hBegin, if_neg h₁, r.args_ofRequest, if_neg h₂, if_neg o.run.not_overlap, hn,
    gt_iff_lt, if_neg (UInt32.not_lt.mpr hc), ho, Bool.false_eq_true, if_false]
  generalize metaCommit o.board o.run (demoteWrite o.run n) = x at hw ⊢
  obtain ⟨b, res⟩ := x
  cases hw
  exact ⟨_, rfl⟩

section

variable {d : Device σ}

/-- After BEGIN. -/
structure BegunFor (r : Release) (c : UInt32) (d d' : Device σ) : Prop where
  run_eq : d'.ota.run = d.ota.run
  gate : d'.ota.trial = false
  dual : d'.ota.board.dual = d.ota.board.dual
  armed : WalkArmed d'
  sess : ∃ o : Ota, o.run = d.ota.run ∧ d'.ota.sess = (o.openSession r.args).sess
  ready : MetaReady c r.version d.ota.run d'.ota.board.flash
  settled : runRecTrial d.ota.board.flash d.ota.run = false →
    runRecTrial d'.ota.board.flash d.ota.run = false
  slots : ∀ t, SameSlot d.ota.board.flash d'.ota.board.flash t

lemma run_begin {n : MetaRecord} {q : MetaPage} {r : Release} (link : Link)
    (hg : d.ota.trial = false) (ho : d.ota.board.owned = false)
    (ha : Anchored d.ota.board.flash d.ota.run) (hr : r.Installable d.ota.run.other)
    (hn : metaCurrent d.ota.board.flash = some (n, q)) (hc : n.counter ≤ otaMetaBeginMaxCounter)
    (hv : otaVersionFloor n ≤ r.version) : ∃ d', run (step hal) (served hal) (.on d .idle)
      [.request link 0xF0 r.beginRequest []] = some (.on d' .idle) ∧
        BegunFor r (n.counter + 1) d d' := by
  obtain ⟨htrue, hready⟩ :=
    MetaReady.of_demote (b := (d.ota.prepare []).board) ha rfl rfl ho hn hc hv
  obtain ⟨p, hbegin⟩ := hBegin_nominal (o := d.ota.prepare []) hr hn hc ho htrue
  have hdispatch := (otaDispatch_begin _ _ _).trans hbegin
  refine ⟨_, run_request hal link hg (UInt8.le_refl _) ?_ hdispatch, ?_⟩
  · rw [r.beginRequest_length]
    decide
  · constructor
    case run_eq => rfl
    case gate => exact hg
    case dual => exact metaCommit_dual _ _ _
    case armed =>
      constructor
      case erasing => rfl
      case busy => rfl
      case eraseAt => rfl
      case eraseEnd => rfl
      case free => exact (metaCommit_owned _ _ _).trans ho
    case sess => exact ⟨_, rfl, rfl⟩
    case ready => exact hready
    case settled =>
      exact runRecTrial_demote ha hn
        (Wrote.of_success d.ota.board (d.ota.prepare []).board rfl rfl htrue)
        (Landed.of_metaCommit d.ota.board (d.ota.prepare []).board _ _ rfl htrue)
    case slots => exact metaCommit_slots (d.ota.prepare []).board _ _

/-! ### The chunks -/

/-- A chunk that gets to its flash call works on the other slot and leaves the version alone. -/
lemma hWrite_keeps {o : Ota} {off : UInt32} {data : List UInt8} (h : ChunkOk off data)
    (hin : o.sess.inactive = o.run.other) (hc : WriteChecked o (writeRequest off data)) (cap : ℕ) :
    (hWrite o (writeRequest off data) cap).1.sess.fwVersion = o.sess.fwVersion ∧
      Unchanged o.run.other.region o.board.flash
        (hWrite o (writeRequest off data) cap).1.board.flash := by
  have hcall : chunkCall o (writeRequest off data) = .program (o.run.other.base + off) data := by
    rw [chunkCall, Ota.inactiveBase, hin, writeRequest_off, writeRequest_drop]
  rw [hWrite_of_checked hc, hcall, chunkEnd_board]
  refine ⟨?_, ?_⟩
  · generalize (o.board.fmcCall o.run (.program (o.run.other.base + off) data)).2 = res
    rcases res with _ | _ | _ | _ <;> rfl
  · exact (Board.fmcCall_unchanged (chunk_inFlash o.run.other h.grid h.fits)).mono
      (chunk_span_subset o.run.other h.grid h.fits)

/-- The device while chunks come in: `k` of them are in the slot, and nothing else has changed
since flash `f`. -/
structure Filling {image : List UInt8} (cut : ImageCut image) (run : Slot) (v : UInt32) (f : Flash)
    (k : ℕ) (o : Ota) : Prop where
  delivered : ∃ log,
    Delivered cut run k { o with board := { o.board with script := [], log := log } }
  version : o.sess.fwVersion = v
  rest : Unchanged run.other.region f o.board.flash

variable {r : Release} {cut : ImageCut r.image} {s : Slot} {c v : UInt32} {f : Flash} {k : ℕ}

/-- A first delivery programs its chunk. -/
lemma Filling.first {o : Ota} (h : Filling cut s v f k o)
    (hfit : r.image.length ≤ otaSlotSize.toNat) (hk : k < cut.count) :
    ∃ o' p, hWrite (o.prepare []) (cut.request k) maxPayloadBytes = (o', .reply .ok p) ∧
      Filling cut s v f (k + 1) o' := by
  obtain ⟨log, hd⟩ := h.delivered
  have hok := cut.chunkOk hfit hk
  have hoff : (UInt32.ofNat (cut.offset k)).toNat = cut.offset k :=
    ofNat_toNat_of_le ((cut.offset_le hk.le).trans hfit)
  have hnext := cut.offset_succ hk
  have hpos := hok.pos
  have hmark : o.sess.lastOff.toNat <
      (UInt32.ofNat (cut.offset k)).toNat + (cut.chunk k).length := by
    have hm : o.sess.lastOff.toNat = cut.offset k := hd.mark
    rw [hm, hoff]
    omega
  obtain ⟨o', hw, hd'⟩ := hd.first hfit hk
  -- the same request on the log of a new step
  have hchecked : WriteChecked _ (cut.request k) := .of_chunkOk hok hd.ready hmark
  have hkeeps := hWrite_keeps (o := o.prepare []) hok hd.inactive
    ⟨hchecked.state, hchecked.size, hchecked.dlen, hchecked.range, hchecked.align, hchecked.fresh⟩
    maxPayloadBytes
  obtain ⟨log', hrelog⟩ := hWrite_relog [] hchecked maxPayloadBytes
  rw [hw] at hrelog
  have hrelog' : hWrite (o.prepare []) (writeRequest (.ofNat (cut.offset k)) (cut.chunk k))
      maxPayloadBytes = _ := hrelog
  rw [hrelog'] at hkeeps
  have hrun : o.run = s := hd.run_eq
  refine ⟨_, _, hrelog, ⟨o'.board.log, ?_⟩, hkeeps.1.trans h.version, ?_⟩
  · have hsame : { o' with board := { o'.board with script := [], log := o'.board.log } } = o' := by
      have hscript := hd'.healthy
      obtain ⟨_, ⟨_, _, _, _, _⟩, _, _, _⟩ := o'
      cases hscript
      rfl
    exact hsame ▸ hd'
  · have hnew := hkeeps.2
    rw [Ota.prepare_run, hrun] at hnew
    exact h.rest.trans hnew

/-- A repetition is compared and acknowledged. -/
lemma Filling.replay {o : Ota} (h : Filling cut s v f k o)
    (hfit : r.image.length ≤ otaSlotSize.toNat) (hk : k ≤ cut.count) {i : ℕ} (hi : i < k) :
    ∃ p, hWrite (o.prepare []) (cut.request i) maxPayloadBytes = (o.prepare [], .reply .ok p) := by
  obtain ⟨log, hd⟩ := h.delivered
  have hi' : i < cut.count := hi.trans_le hk
  have hoff : (UInt32.ofNat (cut.offset i)).toNat = cut.offset i :=
    ofNat_toNat_of_le ((cut.offset_le hi'.le).trans hfit)
  have hle : cut.offset i + (cut.chunk i).length ≤ cut.offset k := by
    rw [← cut.offset_succ hi']
    exact cut.offset_mono hi
  have hmark : (UInt32.ofNat (cut.offset i)).toNat + (cut.chunk i).length ≤
      o.sess.lastOff.toNat := by
    have hm : o.sess.lastOff.toNat = cut.offset k := hd.mark
    rw [hm, hoff]
    exact hle
  have hw := hWrite_replay (o := o.prepare []) maxPayloadBytes (cut.chunkOk hfit hi') hd.ready
    hd.inactive hmark (hd.chunk_bytes hfit hk hi)
  rw [writeAck_of_ready (o := o.prepare []) maxPayloadBytes hd.ready (by decide)] at hw
  exact ⟨_, hw⟩

lemma Filling.prepare {o : Ota} (h : Filling cut s v f k o) :
    Filling cut s v f k (o.prepare []) where
  delivered := h.delivered
  version := h.version
  rest := h.rest

lemma request_length {i : ℕ} (hi : i < cut.count) : (cut.request i).length ≤ maxPayloadBytes := by
  have hle := (cut.size _ (cut.chunk_mem hi)).2
  have hmax : otaChunkMax = 56 := rfl
  have hcap : maxPayloadBytes = 65 := rfl
  rw [ImageCut.request, writeRequest_length]
  omega

/-- A whole delivery. -/
lemma run_deliver {d : Device σ} (link : Link) {is : List ℕ} (his : Delivers cut.count k is)
    (hfit : r.image.length ≤ otaSlotSize.toNat) (h : Filling cut s v f k d.ota) :
    ∃ d', run (step hal) (served hal) (.on d .idle)
        (is.map fun i => .request link 0xF1 (cut.request i) []) = some (.on d' .idle) ∧
      Filling cut s v f cut.count d'.ota := by
  have hgate : ∀ {d : Device σ} {k}, Filling cut s v f k d.ota → d.ota.trial = false := by
    intro d k h
    obtain ⟨log, hd⟩ := h.delivered
    exact hd.gate
  induction his generalizing d with
  | nil => exact ⟨d, rfl, h⟩
  | @first k is hk _ ih =>
    obtain ⟨o', p, hw, h'⟩ := h.first hfit hk
    obtain ⟨d', hrun, hd'⟩ := ih (d := { d with ota := o' }) h'
    have hreq := run_request hal link (hgate h) (by decide) (request_length hk)
      ((otaDispatch_write _ _ _).trans hw)
    exact ⟨d', run_trans hreq hrun, hd'⟩
  | @replay k i is hi hd ih =>
    obtain ⟨p, hw⟩ := h.replay hfit hd.le hi
    obtain ⟨d', hrun, hd'⟩ := ih (d := { d with ota := d.ota.prepare [] }) h.prepare
    have hreq := run_request hal link (hgate h) (by decide)
      (request_length (hi.trans_le hd.le)) ((otaDispatch_write _ _ _).trans hw)
    exact ⟨d', run_trans hreq hrun, hd'⟩

/-- BEGIN and the erase leave the slot ready to be filled. -/
lemma BegunFor.filling {d d₁ d₂ : Device σ} (hb : BegunFor r c d d₁) (he : ErasedTo d₁ slotRegions d₂)
    (hr : r.Installable d.ota.run.other) :
    Filling cut d.ota.run r.version d₁.ota.board.flash 0 d₂.ota := by
  obtain ⟨o, hrun, hsess⟩ := hb.sess
  have hs : d₂.ota.sess =
      walkSession (o.openSession r.args).sess d₁.ota.run.other.base slotRegions := by
    rw [he.sess, hsess]
  have hrun₂ : d₂.ota.run = d.ota.run := he.run_eq.trans hb.run_eq
  have hawait : Awaiting r.image
      { d₂.ota with board := { d₂.ota.board with script := [], log := [] } } := by
    constructor
    case gate => exact he.gate.trans hb.gate
    case ready =>
      simp only [hs]
      rfl
    case mark =>
      simp only [hs]
      rfl
    case inactive =>
      simp only [hs, hrun₂, ← hrun]
      rfl
    case len =>
      simp only [hs]
      exact hr.toNat_len
    case crc =>
      simp only [hs]
      rfl
    case free => exact he.free
    case healthy => rfl
    case fresh => rfl
    case blank =>
      intro a ha
      have hsz : otaSlotSize.toNat = 2048 * slotRegions := rfl
      have hslot : d₂.ota.run.other = d₁.ota.run.other := by rw [he.run_eq]
      simp only [hslot, Slot.region, Set.mem_Ico, hsz] at ha
      exact he.erased a ha.1 ha.2
  refine ⟨⟨[], ?_⟩, ?_, ?_⟩
  · rw [← hrun₂]
    exact hawait.delivered cut
  · rw [hs]
    rfl
  · have hrest := he.rest
    rwa [hb.run_eq] at hrest

/-! ### VERIFY and COMMIT -/

/-- The image is in the slot and verified. -/
structure ReadyToCommit (r : Release) (s : Slot) (c : UInt32) (o : Ota) : Prop where
  run_eq : o.run = s
  gate : o.trial = false
  free : o.board.owned = false
  state : o.sess.state = .verified
  inactive : o.sess.inactive = s.other
  len : o.sess.imgLen = .ofNat r.image.length
  version : o.sess.fwVersion = r.version
  crc : inactiveCrc o = o.sess.imgCrc
  holds : o.board.flash.bytes s.other.base r.image.length = r.image
  ready : MetaReady c r.version s o.board.flash

lemma run_verify {d : Device σ} (link : Link) (h : Filling cut s r.version f cut.count d.ota)
    (hready : MetaReady c r.version s f) (hr : r.Installable s.other) :
    ∃ d', run (step hal) (served hal) (.on d .idle) [.request link 0xF2 [] []] =
        some (.on d' .idle) ∧ ReadyToCommit r s c d'.ota ∧
      d'.ota.board.flash = d.ota.board.flash := by
  obtain ⟨log, hd⟩ := h.delivered
  have hbytes := (hd.verify hr.pos hr.fits).1
  have hlen : d.ota.sess.imgLen = .ofNat r.image.length := by
    have hl : d.ota.sess.imgLen.toNat = r.image.length := hd.len
    rw [← hl, UInt32.ofNat_toNat]
  have hrun : d.ota.run = s := hd.run_eq
  have hin : d.ota.sess.inactive = d.ota.run.other := hd.inactive
  simp only [hrun] at hbytes hin
  have hok : LenOk d.ota.sess.imgLen := by
    rw [hlen]
    exact hr.lenOk
  obtain ⟨p, hv⟩ := hVerify_eq (o := d.ota.prepare []) hd.ready hok maxPayloadBytes
  have hcrc : inactiveCrc (d.ota.prepare []) = (d.ota.prepare []).sess.expectedCrc := by
    simp only [inactiveCrc, Ota.inactiveBase, Ota.prepare_sess, Ota.prepare_flash, hin, hlen,
      hr.toNat_len, hbytes]
    exact hd.crc.symm
  refine ⟨_, run_request hal link hd.gate (by decide) (Nat.zero_le _) hv, ?_, rfl⟩
  constructor
  case run_eq => exact hrun
  case gate => exact hd.gate
  case free => exact hd.free
  case state =>
    simp only [verifiedSession, hcrc, beq_self_eq_true, if_true]
  case inactive => exact hin
  case len => exact hlen
  case version => exact h.version
  case crc => rfl
  case holds => exact hbytes
  case ready => exact hready.congr h.rest

lemma ReadyToCommit.checked {o : Ota} (h : ReadyToCommit r s c o) (hr : r.Installable s.other) :
    CommitChecked o := by
  have hbase : o.inactiveBase = s.other.base := by rw [Ota.inactiveBase, h.inactive]
  obtain ⟨n, q, hn, -, hv⟩ := h.ready.newest
  constructor
  case state => exact h.state
  case len =>
    rw [h.len]
    exact hr.lenOk
  case bootable =>
    rw [hbase, h.len, hr.toNat_len, h.holds]
    exact hr.bootable
  case capable =>
    rw [hbase, h.len, hr.toNat_len, h.holds]
    exact hr.capable
  case floor =>
    rw [hn, h.version, belowFloor, decide_eq_false_iff_not]
    exact UInt32.not_lt.mpr hv

/-! ### Trial and confirm -/

/-- The newest record of `f` puts slot `s` on trial, and can be confirmed. -/
structure OnTrial (s : Slot) (f : Flash) (n : MetaRecord) (q : MetaPage) : Prop where
  current : metaCurrent f = some (n, q)
  other : ∃ r, metaPages f q.other = some r
  names : n.Names s
  trial : n.trial = true
  ok : SlotOk f n s
  counter : n.counter < otaMetaCounterLimit

/-- The other record boots slot `s`, and is settled. -/
def Backed (s : Slot) (f : Flash) (q : MetaPage) : Prop :=
  ∃ r, metaPages f q.other = some r ∧ r.Names s ∧ SlotOk f r s ∧ r.trial = false

lemma run_commit {d : Device σ} (link : Link) (h : ReadyToCommit r s c d.ota)
    (hr : r.Installable s.other) (hmax : c ≤ otaMetaBeginMaxCounter + 1) :
    ∃ b n q, run (step hal) (served hal) (.on d .idle) [.request link 0xF3 [] []] = some (.off b) ∧
      OnTrial s.other b.flash n q ∧ n.counter = c + 1 ∧
      n.fwVersion.get s.other = r.version ∧ (∀ t, SameSlot d.ota.board.flash b.flash t) ∧
      (runRecTrial d.ota.board.flash s = false → Backed s b.flash q) := by
  have hc : CommitChecked (d.ota.prepare []) :=
    have hc := h.checked hr
    ⟨hc.state, hc.len, hc.bootable, hc.capable, hc.floor⟩
  obtain ⟨m, p, hm, rfl, -⟩ := h.ready.newest
  have hseed := metaSeed_of_current hm
  have hle : m.counter.toNat ≤ 0xFFFFFFEE := UInt32.le_iff_toNat_le.mp hmax
  have hcap : (metaSeed d.ota.board.flash).counter < (commitWrite d.ota.sess).counterCap := by
    have hcap : (commitWrite d.ota.sess).counterCap.toNat = 0xFFFFFFEF := rfl
    rw [hseed, UInt32.lt_iff_toNat_lt]
    omega
  have htrue : (metaCommit (d.ota.prepare []).board d.ota.run (commitWrite d.ota.sess)).2 =
    some true := metaCommit_nominal rfl h.free hcap
  have hw := Wrote.of_success d.ota.board (d.ota.prepare []).board rfl rfl htrue
  have hland := Landed.of_metaCommit d.ota.board (d.ota.prepare []).board _ _ rfl htrue
  have hcur := hland.current hw.other
  rw [hseed] at hcur
  have hanchored : Anchored d.ota.board.flash d.ota.run := by
    rw [h.run_eq]
    exact h.ready.anchored
  obtain ⟨r', hr', hn', hok', hfind⟩ :=
    hanchored.spared (commitWrite_ranked (h.inactive.trans (by rw [h.run_eq])))
  have hcommit : otaDispatch (d.ota.prepare []) 0xF3 [] maxPayloadBytes =
      ({ d.ota.prepare [] with
        board := (metaCommit (d.ota.prepare []).board d.ota.run (commitWrite d.ota.sess)).1 },
        .reset) := by
    rw [otaDispatch_commit, hCommit_of_checked hc]
    simp only [Ota.prepare_run, Ota.prepare_sess, htrue, commitEnd]
  refine ⟨_, (commitWrite d.ota.sess).apply m,
    (commitWrite d.ota.sess).pageOn d.ota.board.flash d.ota.run,
    run_reset hal link h.gate (by decide) (Nat.zero_le _) hcommit, ?_, ?_, ?_, hw.slots, ?_⟩
  · constructor
    case current => exact hcur
    case other => exact ⟨r', hw.other.trans hr'⟩
    case names =>
      rw [MetaRecord.Names, MetaWrite.apply_activeSlot]
      exact congrArg Slot.code h.inactive
    case trial => exact commitWrite_trial _ _
    case ok =>
      have hok := hc.slotOk h.crc (hw.slots _) m
      rwa [Ota.prepare_sess, h.inactive] at hok
    case counter =>
      have hone : (1 : UInt32).toNat = 1 := rfl
      have hlim : otaMetaCounterLimit.toNat = 0xFFFFFFF0 := rfl
      rw [MetaWrite.apply_counter, UInt32.lt_iff_toNat_lt, UInt32.toNat_add, hone, hlim]
      omega
  · exact MetaWrite.apply_counter _ _
  · have hver := ((commitWrite d.ota.sess).apply_fwVersion_entry m (s := s.other) rfl
      (congrArg Slot.code h.inactive)).1
    exact hver.trans h.version
  · intro ht
    rw [← h.run_eq, runRecTrial, hfind] at ht
    rw [← h.run_eq]
    exact ⟨r', hw.other.trans hr', hn', hok'.of_same (hw.slots _), ht⟩

/-- The boot of a slot on trial. -/
lemma run_trialBoot {b : Board} {n : MetaRecord} {q : MetaPage} (h : OnTrial s b.flash n q) :
    ∃ d, run (step hal) (served hal) (.off b) [.boot false []] = some (.on d .idle) ∧
      d.ota = .fresh s (b.bootBoard []) true := by
  obtain ⟨r', hr'⟩ := h.other
  have hvalid := activeSlotValid_iff_slotOk.mpr ⟨s, h.names, h.ok⟩
  have hdec := bootDecideSlot_newest h.current hr' h.names hvalid
  have hflag : runRecTrial b.flash s = true := by
    rw [runRecTrial, findRunningSlotRecord_of_current h.current h.names]
    exact h.trial
  have hinit : otaBootInit (b.bootBoard []) s = (.fresh s (b.bootBoard []) true, true) := by
    have hflag : runRecTrial (b.bootBoard []).flash s = true := hflag
    simp only [otaBootInit, hflag, if_true]
    rfl
  refine ⟨⟨.fresh s (b.bootBoard []) true, bootConfigLoad b.flash, ⟨0, 0⟩, hal.init⟩,
    run_cons ?_ rfl (run_nil _ _), rfl⟩
  have hdec : bootDecideSlot (b.bootBoard []).flash false = _ := hdec
  simp only [step, bootUp, hdec, hinit]
  rfl

/-- The boot of a confirmed slot, whatever has reset the device. -/
lemma run_settledBoot {b : Board} {n r' : MetaRecord} {q : MetaPage} (wdt : Bool)
    (hn : metaCurrent b.flash = some (n, q)) (hr' : metaPages b.flash q.other = some r')
    (hs : n.Names s) (hok : SlotOk b.flash n s) (ht : n.trial = false) :
    ∃ d, run (step hal) (served hal) (.off b) [.boot wdt []] = some (.on d .idle) ∧
      d.ota = .fresh s (b.bootBoard []) false := by
  have hvalid := activeSlotValid_iff_slotOk.mpr ⟨s, hs, hok⟩
  have hdec : bootDecideSlot (b.bootBoard []).flash wdt = some ⟨s, false, false⟩ := by
    cases wdt with
    | false => exact (bootDecideSlot_newest hn hr' hs hvalid).trans (by rw [ht])
    | true => exact bootDecideSlot_confirmed hn hr' hs hvalid ht
  have hflag : runRecTrial (b.bootBoard []).flash s = false := by
    have hfind : findRunningSlotRecord (b.bootBoard []).flash s = some (n, q) :=
      findRunningSlotRecord_of_current hn hs
    rw [runRecTrial, hfind]
    exact ht
  have hinit : otaBootInit (b.bootBoard []) s = (.fresh s (b.bootBoard []) false, true) := by
    have hn : metaCurrent (b.bootBoard []).flash = some (n, q) := hn
    simp only [otaBootInit, hflag, Bool.false_eq_true, if_false, hn, ht, and_false]
    rfl
  refine ⟨⟨.fresh s (b.bootBoard []) false, bootConfigLoad b.flash, ⟨0, 0⟩, hal.init⟩,
    run_cons ?_ rfl (run_nil _ _), rfl⟩
  simp only [step, bootUp, hdec, hinit]
  rfl

/-- The confirm tick after the first frame of a trial. -/
lemma run_confirmTick {d : Device σ} {n : MetaRecord} {q : MetaPage}
    (h : OnTrial d.ota.run d.ota.board.flash n q) (hg : d.ota.trial = true)
    (hf : d.ota.frameSeen = true) (ho : d.ota.board.owned = false) :
    ∃ b, run (step hal) (served hal) (.on d .idle) [.confirmTick []] = some (.off b) ∧
      metaCurrent b.flash = some ((confirmWrite d.ota.run q).apply n, q) ∧
      metaPages b.flash q.other = metaPages d.ota.board.flash q.other ∧
      ∀ t, SameSlot d.ota.board.flash b.flash t := by
  have hseed := metaSeed_of_current h.current
  have hpage : (confirmWrite d.ota.run q).pageOn d.ota.board.flash d.ota.run = q :=
    MetaWrite.pageOn_of_target rfl
  have htrue : (metaCommit (d.ota.prepare []).board d.ota.run (confirmWrite d.ota.run q)).2 =
      some true := by
    refine metaCommit_nominal rfl ho ?_
    rw [Ota.prepare_flash, hseed]
    exact h.counter
  have hw := Wrote.of_success d.ota.board (d.ota.prepare []).board rfl rfl htrue
  have hland := Landed.of_metaCommit d.ota.board (d.ota.prepare []).board _ _ rfl htrue
  have hcur := hland.current hw.other
  have hother := hw.other
  rw [hseed, hpage] at hcur
  rw [hpage] at hother
  refine ⟨_, run_cons ?_ rfl (run_nil _ _), hcur, hother, hw.slots⟩
  have hfind : findRunningSlotRecord (d.prepare []).ota.board.flash (d.prepare []).ota.run =
      some (n, q) := findRunningSlotRecord_of_current h.current h.names
  have hg' : (d.prepare []).ota.trial = true := hg
  have hf' : (d.prepare []).ota.frameSeen = true := hf
  generalize hy : metaCommit (d.ota.prepare []).board d.ota.run (confirmWrite d.ota.run q) = y
    at htrue
  have hy' : metaCommit (d.prepare []).ota.board (d.prepare []).ota.run
      (confirmWrite (d.prepare []).ota.run q) = y := hy
  obtain ⟨b, res⟩ := y
  cases htrue
  simp only [step, otaConfirmTick, hg', hf', hfind, hy', Bool.not_true, Bool.false_eq_true, or_self,
    if_false]

lemma confirmWrite_trial (run : Slot) (p : MetaPage) (n : MetaRecord) :
    ((confirmWrite run p).apply n).trial = false := by
  simp [MetaRecord.trial, confirmWrite]

/-- Boot on trial, the first frame, the confirm tick, and the boot after it. -/
lemma run_settle {b : Board} {n : MetaRecord} {q : MetaPage} (h : OnTrial s b.flash n q)
    (link : Link) (cmd : UInt8) {pl : List UInt8} (hpl : pl.length ≤ maxPayloadBytes) (wdt : Bool) :
    ∃ d, run (step hal) (served hal) (.off b) [.boot false [], .request link cmd pl [],
        .confirmTick [], .boot wdt []] = some (.on d .idle) ∧
      d.ota.run = s ∧ d.ota.trial = false ∧
      metaCurrent d.ota.board.flash = some ((confirmWrite s q).apply n, q) ∧
      ∀ t, SameSlot b.flash d.ota.board.flash t := by
  obtain ⟨d₁, hboot, hd₁⟩ := run_trialBoot hal h
  have hg : d₁.ota.trial = true := by rw [hd₁]; rfl
  have hgated := run_gated hal link cmd hg hpl
  have htrial : OnTrial (d₁.ota.prepare []).run (d₁.ota.prepare []).board.flash n q := by
    rw [hd₁]
    exact h
  obtain ⟨b', hconfirm, hcur, hother, hslots⟩ := run_confirmTick hal
    (d := { d₁ with ota := { d₁.ota.prepare [] with frameSeen := true } }) htrial hg rfl
    (by rw [hd₁]; rfl)
  have hrun : d₁.ota.run = s := by rw [hd₁]; rfl
  have hflash : d₁.ota.board.flash = b.flash := by rw [hd₁]; rfl
  simp only [Ota.prepare_run, Ota.prepare_flash, hrun, hflash] at hcur hother hslots
  obtain ⟨r', hr'⟩ := h.other
  have hnames : ((confirmWrite s q).apply n).Names s := by
    rw [MetaRecord.Names, MetaWrite.apply_activeSlot]
    rfl
  have hok : SlotOk b'.flash ((confirmWrite s q).apply n) s :=
    h.ok.apply (hslots s) (slotCode_ne_ff s) (.inl rfl)
  have hclear := confirmWrite_trial s q n
  obtain ⟨d₂, hboot', hd₂⟩ := run_settledBoot hal wdt hcur (hother.trans hr') hnames hok hclear
  refine ⟨d₂, run_trans hboot (run_trans hgated (run_trans hconfirm hboot')), ?_⟩
  rw [hd₂]
  exact ⟨rfl, rfl, hcur, hslots⟩

end

/-! ### The whole update -/

lemma SameSlot.trans {f f' f'' : Flash} {s : Slot} (h : SameSlot f f' s) (h' : SameSlot f' f'' s) :
    SameSlot f f'' s :=
  fun n hn => (h' n hn).trans (h n hn)

/-- BEGIN, the erase walk, the chunks in the order `is`, and VERIFY. -/
def prepareRun (link : Link) (dual : Bool) (r : Release) (cut : ImageCut r.image) (is : List ℕ) :
    List Label :=
  [.request link 0xF0 r.beginRequest []] ++
    (List.replicate slotRegions (eraseRound dual)).flatten ++
    (is.map fun i => .request link 0xF1 (cut.request i) []) ++ [.request link 0xF2 [] []]

/-- The update: after VERIFY the COMMIT, the boot on trial, any first request `probe`, the confirm
tick, and the next boot. -/
def updateRun (link : Link) (dual : Bool) (r : Release) (cut : ImageCut r.image) (is : List ℕ)
    (probe : UInt8 × List UInt8) (wdt : Bool) : List Label :=
  prepareRun link dual r cut is ++ [.request link 0xF3 [] []] ++
    [.boot false [], .request link probe.1 probe.2 [], .confirmTick [], .boot wdt []]

/-- The image gets into the other slot and is verified there. -/
lemma run_prepare {d : Device σ} (h : Reach (step hal) Provisioned Legal (.on d .idle))
    (hg : d.ota.trial = false) {n : MetaRecord} {q : MetaPage}
    (hn : metaCurrent d.ota.board.flash = some (n, q)) (hc : n.counter ≤ otaMetaBeginMaxCounter)
    {r : Release} (hr : r.Installable d.ota.run.other) (hv : otaVersionFloor n ≤ r.version)
    (cut : ImageCut r.image) {is : List ℕ} (his : Delivers cut.count 0 is) (link : Link) :
    ∃ d', run (step hal) (served hal) (.on d .idle)
        (prepareRun link d.ota.board.dual r cut is) = some (.on d' .idle) ∧
      ReadyToCommit r d.ota.run (n.counter + 1) d'.ota ∧
      SameSlot d.ota.board.flash d'.ota.board.flash d.ota.run ∧
      (runRecTrial d.ota.board.flash d.ota.run = false →
        runRecTrial d'.ota.board.flash d.ota.run = false) := by
  have hsafe := reach_safe (fun _ _ _ h => h) h
  have htidy : Tidy d.ota .idle := reach_tidy h
  obtain ⟨d₁, hbegin, hb⟩ := run_begin hal link hg htidy.owned (hsafe.2 hg).1 hr hn hc hv
  obtain ⟨d₂, herase, he⟩ := run_erase hal hb.armed
  rw [hb.dual] at herase
  obtain ⟨d₃, hchunks, hfill⟩ := run_deliver hal link his hr.fits
    (hb.filling he hr)
  obtain ⟨d', hverify, hseal, hflash⟩ := run_verify hal link hfill hb.ready hr
  refine ⟨d', run_trans (run_trans (run_trans hbegin herase) hchunks) hverify, hseal, ?_, ?_⟩
  · have hfilled : SameSlot d₁.ota.board.flash d₃.ota.board.flash d.ota.run :=
      .of_unchanged hfill.rest d.ota.run.region_disjoint
    rw [hflash]
    exact (hb.slots _).trans hfilled
  · intro ht
    have hsame : ∀ p, metaPages d'.ota.board.flash p = metaPages d₁.ota.board.flash p := by
      intro p
      rw [hflash]
      exact metaPages_congr hfill.rest (p.region_disjoint_slot _)
    rw [runRecTrial, findRunningSlotRecord_congr hsame]
    exact hb.settled ht

/-- The bound BEGIN checks leaves room for the COMMIT, too. -/
lemma succ_le_beginMax {c : UInt32} (h : c ≤ otaMetaBeginMaxCounter) :
    c + 1 ≤ otaMetaBeginMaxCounter + 1 := by
  have hle : c.toNat ≤ 0xFFFFFFED := UInt32.le_iff_toNat_le.mp h
  have hmax : (otaMetaBeginMaxCounter + 1).toNat = 0xFFFFFFEE := rfl
  have hone : (1 : UInt32).toNat = 1 := rfl
  rw [UInt32.le_iff_toNat_le, UInt32.toNat_add, hmax, hone]
  omega

/-- On healthy hardware an update goes through from every reachable state of a boot that is not on
trial, with the main loop between two ticks: whatever session is open, if the counter of the newest
record is within the bound BEGIN checks and the image is installable in the other slot and not
below the floor, then every request is served, and after the confirm and the next boot the device
runs the image from the other slot, off trial, with its version confirmed and three writes on the
counter; the slot that was running is left as it was. -/
theorem update_of_reach {d : Device σ} (h : Reach (step hal) Provisioned Legal (.on d .idle))
    (hg : d.ota.trial = false) {n : MetaRecord} {q : MetaPage}
    (hn : metaCurrent d.ota.board.flash = some (n, q)) (hc : n.counter ≤ otaMetaBeginMaxCounter)
    {r : Release} (hr : r.Installable d.ota.run.other) (hv : otaVersionFloor n ≤ r.version)
    (cut : ImageCut r.image) {is : List ℕ} (his : Delivers cut.count 0 is) (link : Link)
    (probe : UInt8 × List UInt8) (hprobe : probe.2.length ≤ maxPayloadBytes) (wdt : Bool) :
    ∃ d' n' q', run (step hal) (served hal) (.on d .idle)
        (updateRun link d.ota.board.dual r cut is probe wdt) = some (.on d' .idle) ∧
      d'.ota.run = d.ota.run.other ∧ d'.ota.trial = false ∧
      d'.ota.board.flash.bytes d.ota.run.other.base r.image.length = r.image ∧
      SameSlot d.ota.board.flash d'.ota.board.flash d.ota.run ∧
      metaCurrent d'.ota.board.flash = some (n', q') ∧ n'.counter = n.counter + 3 ∧
      n'.confirmedVersion = some r.version := by
  obtain ⟨d₄, hprepare, hseal, hslots, -⟩ := run_prepare hal h hg hn hc hr hv cut his link
  obtain ⟨b, n₅, q₅, hcommit, htrial, hcnt, hver, hslots₅, -⟩ :=
    run_commit hal link hseal hr (succ_le_beginMax hc)
  obtain ⟨d', hsettle, hrun, hgate, hcur, hslots'⟩ :=
    run_settle hal htrial link probe.1 hprobe wdt
  refine ⟨d', _, _, run_trans (run_trans hprepare hcommit) hsettle, hrun, hgate, ?_, ?_, hcur,
    ?_, ?_⟩
  · exact (((hslots₅ _).trans (hslots' _)) _ hr.fits).trans hseal.holds
  · exact hslots.trans ((hslots₅ _).trans (hslots' _))
  · rw [MetaWrite.apply_counter, hcnt, UInt32.add_assoc, UInt32.add_assoc]
    rfl
  · have hcode : Slot.ofCode ((confirmWrite d.ota.run.other q₅).apply n₅).activeSlot =
        some d.ota.run.other := by
      rw [MetaWrite.apply_activeSlot]
      exact Slot.ofCode_code _
    rw [MetaRecord.confirmedVersion, confirmWrite_trial, hcode, MetaWrite.apply_fwVersion _ _ rfl]
    exact congrArg some hver

/-! ### An update -/

/-- The sample image of slot B as version 0.0.1. -/
def sampleRelease : Release := ⟨sampleImage .B, 0, 0, 1⟩

set_option maxRecDepth 20000 in
def sampleCut : ImageCut sampleRelease.image where
  chunks := [sampleRelease.image.take 56, sampleRelease.image.drop 56]
  flatten_eq := by decide
  size := by decide
  grid := by decide

set_option maxRecDepth 20000 in
lemma sampleRelease_installable : sampleRelease.Installable .B where
  fits := by decide
  bootable := by decide +kernel
  capable := by decide +kernel

/-- Slot A runs off trial on record 1, which confirms version 0. -/
def updatableCheck : Sys Unit → Bool
  | .on d .idle => !d.ota.trial && decide (d.ota.run = .A) &&
    (metaCurrent d.ota.board.flash).any fun n =>
      Nat.beq n.1.counter.toNat 1 && Nat.beq (otaVersionFloor n.1).toNat 0
  | _ => false

lemma updatable_of_check {s : Sys Unit} (h : updatableCheck s = true) :
    ∃ d, s = .on d .idle ∧ d.ota.trial = false ∧ d.ota.run = .A ∧
      ∃ n q, metaCurrent d.ota.board.flash = some (n, q) ∧ n.counter ≤ otaMetaBeginMaxCounter ∧
        otaVersionFloor n ≤ sampleRelease.version := by
  cases s with
  | off b => cases h
  | on d pc =>
    cases pc with
    | call | walk | ended | returned => cases h
    | idle =>
      simp only [updatableCheck, Bool.and_eq_true, Bool.not_eq_true', decide_eq_true_eq,
        Option.any_eq_true, Nat.beq_eq] at h
      obtain ⟨⟨hg, hrun⟩, ⟨n, q⟩, hn, hcnt, hfloor⟩ := h
      refine ⟨d, rfl, hg, hrun, n, q, hn, ?_, ?_⟩
      · rw [UInt32.le_iff_toNat_le, hcnt]
        decide
      · rw [UInt32.le_iff_toNat_le, hfloor]
        exact Nat.zero_le _

set_option maxRecDepth 20000 in
/-- The sample device goes from slot A to version 0.0.1 in slot B, the first chunk sent twice and
the last boot after a watchdog reset. -/
theorem update_sample : ∃ d d' : Device Unit,
    Reach (step .stub) Provisioned Legal (.on d .idle) ∧ d.ota.run = .A ∧
      run (step .stub) (served .stub) (.on d .idle)
        (updateRun .spi d.ota.board.dual sampleRelease sampleCut [0, 0, 1] (0x00, []) true) =
          some (.on d' .idle) ∧
      d'.ota.run = .B ∧ d'.ota.trial = false ∧ confirmedVersion d'.ota.board.flash = some 1 := by
  obtain ⟨s, hs, hq⟩ := exists_reach_of_sample Legal legalCheck updatableCheck [.boot false []]
    (fun _ _ _ h => .of_check h) (by decide +kernel)
  obtain ⟨d, rfl, hg, hrun, n, q, hn, hc, hv⟩ := updatable_of_check hq
  have hinst : sampleRelease.Installable d.ota.run.other := by
    rw [hrun]
    exact sampleRelease_installable
  have hdel : Delivers sampleCut.count 0 [0, 0, 1] :=
    .first (by decide) (.replay (by decide) (.first (by decide) .nil))
  obtain ⟨d', n', q', hup, hrun', hg', -, -, hn', -, hver⟩ :=
    update_of_reach .stub hs hg hn hc hinst hv sampleCut hdel .spi
      (0x00, []) (Nat.zero_le _) true
  refine ⟨d, d', hs, hrun, hup, hrun'.trans (by rw [hrun]; rfl), hg', ?_⟩
  rw [confirmedVersion, hn']
  exact hver

end Gd32Bridge
