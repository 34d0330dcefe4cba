import Gd32Bridge.System.Runs
import Gd32Bridge.System.Session

/-!
# Contention for the flash funnel

A request that needs the flash while base-level code owns the funnel must be turned away like any
request that comes at a bad moment.  BEGIN looks at the funnel first and is; WRITE_CHUNK, COMMIT
and ROLLBACK run into it and report a flash fault.
-/

namespace Gd32Bridge

open Endian Memory Transition

/-! ### Metadata writes and the funnel -/

/-- While the funnel is owned a metadata write fails at once. -/
lemma metaCommit_busy {b : Board} (ho : b.owned = true) (run : Slot) (w : MetaWrite) :
    metaCommit b run w = (b, some false) := by
  simp only [metaCommit, otaFmcEraseRange, Board.fmcCall_busy ho, ite_self]

lemma MetaPage.erase_admits (p : MetaPage) (run : Slot) :
    (FmcCall.erase p.addr otaPageSize).admits run = true := by
  cases p <;> cases run <;> decide

lemma MetaPage.program_admits (p : MetaPage) (run : Slot) (r : MetaRecord) :
    (FmcCall.program p.addr r.encode).admits run = true := by
  simp only [FmcCall.admits, MetaRecord.encode_length]
  cases p <;> cases run <;> decide

/-- An erased doubleword can be programmed. -/
lemma possible_of_erased {f : Flash} {addr : UInt32} {dw : List UInt8}
    (h : ∀ a ∈ Set.Ico addr.toNat (addr.toNat + 8), f a = .erased) :
    (FlashOp.programDword addr dw).possible f = true := by
  rw [FlashOp.possible, List.all_eq_true]
  intro x hx
  obtain ⟨c, hc, rfl⟩ := List.mem_map.mp hx
  obtain ⟨i, hi, rfl⟩ := List.mem_map.mp hc
  have hi := List.mem_range.mp hi
  rw [h _ ⟨by omega, by omega⟩]
  rfl

/-- On healthy hardware, with the funnel free, a metadata write goes through unless its counter
guard refuses it. -/
lemma metaCommit_nominal {b : Board} {run : Slot} {w : MetaWrite} (hs : b.script = [])
    (ho : b.owned = false) (hc : (metaSeed b.flash).counter < w.counterCap) :
    (metaCommit b run w).2 = some true := by
  have hcase := metaCommit_cases b run w
  have herase := Board.fmcCall_erase_nominal hs ho ((w.pageOn b.flash run).erase_admits run)
    (w.pageOn b.flash run).erase_inFlash
  generalize metaCommit b run w = x at hcase ⊢
  cases hcase with
  | refused h => exact absurd hc (UInt32.not_lt.mpr h)
  | eraseFailed e hne h =>
    rw [herase] at h
    cases h
    exact absurd rfl hne
  | eraseCut h =>
    rw [herase] at h
    cases h
  | programmed b' hb' he =>
    have hin := (w.pageOn b.flash run).program_inFlash (w.apply (metaSeed b.flash))
    have hall : ((FmcCall.program (w.pageOn b.flash run).addr
        (w.apply (metaSeed b.flash)).encode).work b'.dual).all (·.possible b'.flash) = true := by
      rw [List.all_eq_true]
      intro o hmem
      have hsub := FmcCall.work_subset hin hmem
      obtain ⟨i, -, rfl⟩ := List.mem_map.mp hmem
      refine possible_of_erased fun a ha => ?_
      rw [hb', Board.fmcCall_ok (w.pageOn b.flash run).erase_inFlash he]
      · rfl
      · exact MetaPage.program_span_subset _ _ (hsub ha)
    have hprog := Board.fmcCall_nominal (b := b')
      (c := .program (w.pageOn b.flash run).addr (w.apply (metaSeed b.flash)).encode)
      (by rw [hb']; exact Board.fmcCall_script_nil hs) (by rw [hb', Board.fmcCall_owned, ho])
      ((w.pageOn b.flash run).program_admits run _) hin
    rw [hall] at hprog
    rw [hprog]
    rfl

/-! ### Requests that need the flash -/

/-- What WRITE_CHUNK has checked when it calls the flash. -/
structure WriteChecked (o : Ota) (req : List UInt8) : Prop where
  state : o.sess.state = .ready
  size : 5 ≤ req.length
  dlen : (req.getD 4 0).toUInt32 ≠ 0 ∧ (req.getD 4 0).toUInt32 = .ofNat req.length - 5
  range : getLe32 req 0 ≤ otaSlotSize ∧ (req.getD 4 0).toUInt32 ≤ otaSlotSize - getLe32 req 0
  align : getLe32 req 0 % 8 = 0
  fresh : o.sess.lastOff < getLe32 req 0 + (req.getD 4 0).toUInt32

/-- The flash call of a chunk. -/
def chunkCall (o : Ota) (req : List UInt8) : FmcCall :=
  .program (o.inactiveBase + getLe32 req 0) (req.drop 5)

/-- The request gets as far as its flash call, and on healthy hardware with a free funnel that
call would go through. -/
inductive FunnelNeeded (o : Ota) (req : List UInt8) : UInt8 → Prop
  | write (h : WriteChecked o req)
      (hb : ((chunkCall o req).work o.board.dual).all (·.possible o.board.flash) = true) :
      FunnelNeeded o req 0xF1
  | commit (h : CommitChecked o)
      (hc : (metaSeed o.board.flash).counter < (commitWrite o.sess).counterCap) :
      FunnelNeeded o req 0xF3
  | rollback (cur : MetaRecord) (p : MetaPage) (active : Slot) (w : MetaWrite)
      (h : RollbackChecked o cur p active)
      (hw : w = rollbackWrite active.other (otaImageTrialCapable
        (o.board.flash.bytes active.other.base (cur.imgLen.get active.other).toNat)
        (cur.imgLen.get active.other)))
      (hc : cur.counter < w.counterCap) : FunnelNeeded o req 0xF4

/-- The same device with the funnel free and the hardware healthy. -/
def Ota.freed (o : Ota) : Ota :=
  { o with board := { o.board with owned := false, script := [] } }

@[simp] lemma Ota.freed_sess (o : Ota) : o.freed.sess = o.sess := rfl
@[simp] lemma Ota.freed_run (o : Ota) : o.freed.run = o.run := rfl
@[simp] lemma Ota.freed_flash (o : Ota) : o.freed.board.flash = o.board.flash := rfl
@[simp] lemma Ota.freed_trial (o : Ota) : o.freed.trial = o.trial := rfl

/-- Either the funnel makes no difference to answer and session, or the request is turned away
with BUSY or NOT_READY and the session stays as it was. -/
def Contained (o : Ota) (x x₀ : Ota × Outcome) : Prop :=
  x.2 = x₀.2 ∧ x.1.sess = x₀.1.sess ∨
    ((∃ p, x.2 = .reply .busy p) ∨ ∃ p, x.2 = .reply .notReady p) ∧ x.1.sess = o.sess

/-- A flash fault in place of a different answer. -/
lemma not_contained_of_io {o o' : Ota} {x₀ : Ota × Outcome} {p : List UInt8}
    (h : x₀.2 ≠ .reply .io p) : ¬ Contained o (o', .reply .io p) x₀ := by
  rintro (⟨h₁, -⟩ | ⟨⟨q, h₁⟩ | ⟨q, h₁⟩, -⟩)
  · exact h h₁.symm
  · cases h₁
  · cases h₁

section

variable {o : Ota} {req : List UInt8} {cap : ℕ}

lemma contained_hBegin (ho : o.board.owned = true) :
    Contained o (hBegin o req cap) (hBegin o.freed req cap) := by
  simp only [hBegin]
  rw [Ota.freed_run, Ota.freed_flash]
  by_cases h₁ : req.length < 8
  · simp only [if_pos h₁]
    exact .inl ⟨rfl, rfl⟩
  by_cases h₂ : (BeginArgs.ofRequest req).imgLen = 0 ∨
      (BeginArgs.ofRequest req).imgLen > otaSlotSize
  · simp only [if_neg h₁, if_pos h₂]
    exact .inl ⟨rfl, rfl⟩
  simp only [if_neg h₁, if_neg h₂, if_neg o.run.not_overlap]
  cases metaCurrent o.board.flash with
  | none => exact .inl ⟨rfl, rfl⟩
  | some x =>
    obtain ⟨cur, p⟩ := x
    by_cases h₄ : cur.counter > otaMetaBeginMaxCounter
    · simp only [if_pos h₄]
      exact .inl ⟨rfl, rfl⟩
    · simp only [if_neg h₄, if_pos ho]
      exact .inr ⟨.inl ⟨_, rfl⟩, rfl⟩

lemma hWrite_of_checked (h : WriteChecked o req) :
    hWrite o req cap = chunkEnd o (getLe32 req 0 + (req.getD 4 0).toUInt32) cap
      (o.board.fmcCall o.run (chunkCall o req)).1 (o.board.fmcCall o.run (chunkCall o req)).2 := by
  have h₂ : ¬ req.length < 5 := Nat.not_lt.mpr h.size
  have h₃ : ¬ ((req.getD 4 0).toUInt32 = 0 ∨ (req.getD 4 0).toUInt32 ≠ .ofNat req.length - 5) := by
    rw [not_or, not_not]
    exact h.dlen
  have h₄ : ¬ (getLe32 req 0 > otaSlotSize ∨
      (req.getD 4 0).toUInt32 > otaSlotSize - getLe32 req 0) := by
    rw [not_or]
    exact ⟨UInt32.not_lt.mpr h.range.1, UInt32.not_lt.mpr h.range.2⟩
  have h₆ : ¬ getLe32 req 0 + (req.getD 4 0).toUInt32 ≤ o.sess.lastOff :=
    UInt32.not_le.mpr h.fresh
  simp only [hWrite, h.state, h.align, ne_eq, not_true_eq_false, if_false, if_neg h₂, if_neg h₃,
    if_neg h₄, if_neg h₆, otaFmcProgram, chunkCall]
  generalize o.board.fmcCall o.run _ = y
  obtain ⟨b, _ | _ | _ | _⟩ := y
  all_goals rfl

lemma contained_hWrite_of_not (h : ¬ WriteChecked o req) :
    Contained o (hWrite o req cap) (hWrite o.freed req cap) := by
  simp only [hWrite]
  by_cases h₁ : o.sess.state ≠ .ready
  · have h₁' : o.freed.sess.state ≠ .ready := h₁
    simp only [if_pos h₁, if_pos h₁']
    exact .inl ⟨rfl, rfl⟩
  have h₁' : ¬ o.freed.sess.state ≠ .ready := h₁
  simp only [if_neg h₁, if_neg h₁']
  by_cases h₂ : req.length < 5
  · simp only [if_pos h₂]
    exact .inl ⟨rfl, rfl⟩
  by_cases h₃ : (req.getD 4 0).toUInt32 = 0 ∨ (req.getD 4 0).toUInt32 ≠ .ofNat req.length - 5
  · simp only [if_neg h₂, if_pos h₃]
    exact .inl ⟨rfl, rfl⟩
  by_cases h₄ : getLe32 req 0 > otaSlotSize ∨ (req.getD 4 0).toUInt32 > otaSlotSize - getLe32 req 0
  · simp only [if_neg h₂, if_neg h₃, if_pos h₄]
    exact .inl ⟨rfl, rfl⟩
  by_cases h₅ : getLe32 req 0 % 8 ≠ 0
  · simp only [if_neg h₂, if_neg h₃, if_neg h₄, if_pos h₅]
    exact .inl ⟨rfl, rfl⟩
  simp only [if_neg h₂, if_neg h₃, if_neg h₄, if_neg h₅]
  by_cases h₆ : getLe32 req 0 + (req.getD 4 0).toUInt32 ≤ o.sess.lastOff
  · have h₆' : getLe32 req 0 + (req.getD 4 0).toUInt32 ≤ o.freed.sess.lastOff := h₆
    simp only [if_pos h₆, if_pos h₆']
    by_cases h₇ : o.board.flash.bytes (o.inactiveBase + getLe32 req 0)
        (req.getD 4 0).toUInt32.toNat = req.drop 5
    · have h₇' : o.freed.board.flash.bytes (o.freed.inactiveBase + getLe32 req 0)
          (req.getD 4 0).toUInt32.toNat = req.drop 5 := h₇
      simp only [if_pos h₇, if_pos h₇']
      exact .inl ⟨rfl, rfl⟩
    · have h₇' : ¬ o.freed.board.flash.bytes (o.freed.inactiveBase + getLe32 req 0)
          (req.getD 4 0).toUInt32.toNat = req.drop 5 := h₇
      simp only [if_neg h₇, if_neg h₇']
      exact .inl ⟨rfl, rfl⟩
  -- every check has passed
  rw [not_or] at h₃ h₄
  refine absurd ⟨not_not.mp h₁, Nat.not_lt.mp h₂, ⟨h₃.1, not_not.mp h₃.2⟩, ?_, not_not.mp h₅, ?_⟩ h
  · exact ⟨UInt32.not_lt.mp h₄.1, UInt32.not_lt.mp h₄.2⟩
  · exact UInt32.not_le.mp h₆

/-- The chunk on healthy hardware with a free funnel. -/
lemma chunkCall_freed (h : WriteChecked o req) (hin : o.sess.inactive = o.run.other)
    (hsize : req.length ≤ 65) :
    (o.freed.board.fmcCall o.run (chunkCall o req)).2 =
      some (if ((chunkCall o req).work o.board.dual).all (·.possible o.board.flash) then .ok
        else .error) := by
  have hfit : (getLe32 req 0).toNat + (req.drop 5).length ≤ otaSlotSize.toNat := by
    refine (writeArgs_ok hsize h.size ?_ ?_).2.2.1
    · rw [not_or, not_not]
      exact h.dlen
    · rw [not_or]
      exact ⟨UInt32.not_lt.mpr h.range.1, UInt32.not_lt.mpr h.range.2⟩
  have halign : (getLe32 req 0).toNat % 8 = 0 := by
    have := congrArg UInt32.toNat h.align
    simpa using this
  have hbase : o.inactiveBase = o.run.other.base := by rw [Ota.inactiveBase, hin]
  have hlen : (req.drop 5).length < 2 ^ 32 := by
    rw [List.length_drop]
    omega
  refine Board.fmcCall_nominal (b := o.freed.board) rfl rfl ?_ ?_
  · rw [chunkCall, hbase]
    exact chunk_admits halign hlen hfit
  · rw [chunkCall, hbase]
    exact chunk_inFlash _ halign hfit

/-- A chunk that meets an owned funnel. -/
lemma contained_hWrite_iff (ho : o.board.owned = true) (hin : o.sess.inactive = o.run.other)
    (hsize : req.length ≤ 65) :
    Contained o (hWrite o req cap) (hWrite o.freed req cap) ↔ ¬ FunnelNeeded o req 0xF1 := by
  by_cases h : WriteChecked o req
  · have h' : WriteChecked o.freed req := ⟨h.state, h.size, h.dlen, h.range, h.align, h.fresh⟩
    have hfree := chunkCall_freed h hin hsize
    rw [hWrite_of_checked h, hWrite_of_checked h', Board.fmcCall_busy ho]
    have hcall : chunkCall o.freed req = chunkCall o req := rfl
    rw [hcall, Ota.freed_run]
    generalize o.freed.board.fmcCall o.run (chunkCall o req) = y at hfree ⊢
    obtain ⟨b, r⟩ := y
    by_cases hb : ((chunkCall o req).work o.board.dual).all (·.possible o.board.flash) = true
    · rw [if_pos hb] at hfree
      obtain rfl : r = some .ok := hfree
      refine iff_of_false (not_contained_of_io nofun) ?_
      exact not_not.mpr (.write h hb)
    · rw [if_neg hb] at hfree
      obtain rfl : r = some .error := hfree
      refine iff_of_true (.inl ⟨rfl, rfl⟩) ?_
      rintro ⟨-, hb'⟩
      exact hb hb'
  · refine iff_of_true (contained_hWrite_of_not h) ?_
    rintro ⟨h', -⟩
    exact h h'

lemma hCommit_of_checked (h : CommitChecked o) :
    hCommit o = commitEnd o (metaCommit o.board o.run (commitWrite o.sess)).1
      (metaCommit o.board o.run (commitWrite o.sess)).2 := by
  have h₂ : ¬ (o.sess.imgLen = 0 ∨ o.sess.imgLen > otaSlotSize) := by
    rw [not_or]
    exact ⟨h.len.1, UInt32.not_lt.mpr h.len.2⟩
  simp only [hCommit, h.state, h.bootable, h.capable, h.floor, ne_eq, not_true_eq_false, if_false,
    if_neg h₂, Bool.not_true, Bool.false_eq_true]
  generalize metaCommit o.board o.run _ = y
  obtain ⟨b, _ | _ | _⟩ := y
  all_goals rfl

lemma contained_hCommit_of_not (h : ¬ CommitChecked o) :
    Contained o (hCommit o) (hCommit o.freed) := by
  simp only [hCommit]
  by_cases h₁ : o.sess.state ≠ .verified
  · have h₁' : o.freed.sess.state ≠ .verified := h₁
    simp only [if_pos h₁, if_pos h₁']
    exact .inl ⟨rfl, rfl⟩
  have h₁' : ¬ o.freed.sess.state ≠ .verified := h₁
  simp only [if_neg h₁, if_neg h₁']
  by_cases h₂ : o.sess.imgLen = 0 ∨ o.sess.imgLen > otaSlotSize
  · have h₂' : o.freed.sess.imgLen = 0 ∨ o.freed.sess.imgLen > otaSlotSize := h₂
    simp only [if_pos h₂, if_pos h₂']
    exact .inl ⟨rfl, rfl⟩
  have h₂' : ¬ (o.freed.sess.imgLen = 0 ∨ o.freed.sess.imgLen > otaSlotSize) := h₂
  simp only [if_neg h₂, if_neg h₂']
  by_cases h₃ : (!otaImageBootable o.inactiveBase
      (o.board.flash.bytes o.inactiveBase o.sess.imgLen.toNat) o.sess.imgLen) = true
  · have h₃' : (!otaImageBootable o.freed.inactiveBase (o.freed.board.flash.bytes
        o.freed.inactiveBase o.freed.sess.imgLen.toNat) o.freed.sess.imgLen) = true := h₃
    simp only [if_pos h₃, if_pos h₃']
    exact .inl ⟨rfl, rfl⟩
  have h₃' : ¬ (!otaImageBootable o.freed.inactiveBase (o.freed.board.flash.bytes
      o.freed.inactiveBase o.freed.sess.imgLen.toNat) o.freed.sess.imgLen) = true := h₃
  simp only [if_neg h₃, if_neg h₃']
  by_cases h₄ : (!otaImageTrialCapable
      (o.board.flash.bytes o.inactiveBase o.sess.imgLen.toNat) o.sess.imgLen) = true
  · have h₄' : (!otaImageTrialCapable (o.freed.board.flash.bytes o.freed.inactiveBase
        o.freed.sess.imgLen.toNat) o.freed.sess.imgLen) = true := h₄
    simp only [if_pos h₄, if_pos h₄']
    exact .inl ⟨rfl, rfl⟩
  have h₄' : ¬ (!otaImageTrialCapable (o.freed.board.flash.bytes o.freed.inactiveBase
      o.freed.sess.imgLen.toNat) o.freed.sess.imgLen) = true := h₄
  simp only [if_neg h₄, if_neg h₄']
  by_cases h₅ : belowFloor (metaCurrent o.board.flash) o.sess.fwVersion = true
  · have h₅' : belowFloor (metaCurrent o.freed.board.flash) o.freed.sess.fwVersion = true := h₅
    simp only [if_pos h₅, if_pos h₅']
    exact .inl ⟨rfl, rfl⟩
  -- every check has passed
  rw [not_or] at h₂
  exact absurd ⟨not_not.mp h₁, ⟨h₂.1, UInt32.not_lt.mp h₂.2⟩, by simpa using h₃, by simpa using h₄,
    by simpa using h₅⟩ h

/-- A metadata write that its counter guard refuses. -/
lemma metaCommit_refused {b : Board} {run : Slot} {w : MetaWrite}
    (hc : ¬ (metaSeed b.flash).counter < w.counterCap) :
    metaCommit b run w = (b, some false) := by
  simp only [metaCommit, if_pos (UInt32.not_lt.mp hc)]

/-- A COMMIT that meets an owned funnel. -/
lemma contained_hCommit_iff (ho : o.board.owned = true) :
    Contained o (hCommit o) (hCommit o.freed) ↔ ¬ FunnelNeeded o req 0xF3 := by
  by_cases h : CommitChecked o
  · have h' : CommitChecked o.freed := ⟨h.state, h.len, h.bootable, h.capable, h.floor⟩
    rw [hCommit_of_checked h, hCommit_of_checked h', metaCommit_busy ho, Ota.freed_sess,
      Ota.freed_run]
    by_cases hc : (metaSeed o.board.flash).counter < (commitWrite o.sess).counterCap
    · have hgo : (metaCommit o.freed.board o.run (commitWrite o.sess)).2 = some true :=
        metaCommit_nominal rfl rfl hc
      rw [hgo]
      refine iff_of_false (not_contained_of_io nofun) ?_
      exact not_not.mpr (.commit h hc)
    · have hstop : metaCommit o.freed.board o.run (commitWrite o.sess) =
          (o.freed.board, some false) := metaCommit_refused hc
      rw [hstop]
      refine iff_of_true (.inl ⟨rfl, rfl⟩) ?_
      rintro (_ | ⟨-, hc'⟩)
      exact hc hc'
  · refine iff_of_true (contained_hCommit_of_not h) ?_
    rintro (_ | ⟨h', -⟩)
    exact h h'

/-- ROLLBACK as far as its metadata write, on a device whose newest record is `cur`. -/
lemma hRollback_of_checked {cur : MetaRecord} {p : MetaPage} {active : Slot} {w : MetaWrite}
    (h : RollbackChecked o cur p active)
    (hw : w = rollbackWrite active.other (otaImageTrialCapable
      (o.board.flash.bytes active.other.base (cur.imgLen.get active.other).toNat)
      (cur.imgLen.get active.other))) :
    hRollback o = rollbackEnd o (metaCommit o.board o.run w).1 (metaCommit o.board o.run w).2 := by
  have h₁ : ¬ (o.sess.state ≠ .idle ∧ o.sess.state ≠ .error) := by
    rw [not_and_or, not_not, not_not]
    exact h.state
  have h₂ : ¬ ((!cur.valid active.other) = true ∨ cur.imgLen.get active.other = 0 ∨
      cur.imgLen.get active.other > otaSlotSize) := by
    rw [not_or, not_or]
    exact ⟨by simpa using h.ok.vouches.1, h.ok.vouches.2, UInt32.not_lt.mpr h.ok.le_size⟩
  have h₃ : ¬ (otaCrc32 0 (o.board.flash.bytes active.other.base
      (cur.imgLen.get active.other).toNat) ≠ cur.imgCrc32.get active.other ∨
      (!otaImageBootable active.other.base (o.board.flash.bytes active.other.base
        (cur.imgLen.get active.other).toNat) (cur.imgLen.get active.other)) = true) := by
    rw [not_or, not_not]
    exact ⟨h.ok.crc, by simpa using h.ok.bootable⟩
  have hact : Slot.ofCode cur.activeSlot = some active := Slot.ofCode_eq_some.mpr h.names
  simp only [hRollback, if_neg h₁, h.current, hact, if_neg h₂, if_neg (UInt32.not_lt.mpr h.floor),
    if_neg h₃]
  rw [← hw]
  generalize metaCommit o.board o.run w = y
  obtain ⟨b, _ | _ | _⟩ := y
  all_goals rfl

lemma contained_hRollback_of_not (h : ∀ cur p active, ¬ RollbackChecked o cur p active) :
    Contained o (hRollback o) (hRollback o.freed) := by
  simp only [hRollback]
  by_cases h₁ : o.sess.state ≠ .idle ∧ o.sess.state ≠ .error
  · have h₁' : o.freed.sess.state ≠ .idle ∧ o.freed.sess.state ≠ .error := h₁
    simp only [if_pos h₁, if_pos h₁']
    exact .inl ⟨rfl, rfl⟩
  have h₁' : ¬ (o.freed.sess.state ≠ .idle ∧ o.freed.sess.state ≠ .error) := h₁
  simp only [if_neg h₁, if_neg h₁']
  rw [Ota.freed_flash]
  cases hcur : metaCurrent o.board.flash with
  | none => exact .inl ⟨rfl, rfl⟩
  | some x =>
  obtain ⟨cur, p⟩ := x
  dsimp only
  cases hact : Slot.ofCode cur.activeSlot with
  | none => exact .inl ⟨rfl, rfl⟩
  | some active =>
  dsimp only
  by_cases h₂ : (!cur.valid active.other) = true ∨ cur.imgLen.get active.other = 0 ∨
      cur.imgLen.get active.other > otaSlotSize
  · simp only [if_pos h₂]
    exact .inl ⟨rfl, rfl⟩
  by_cases h₃ : cur.fwVersion.get active.other < otaVersionFloor cur
  · simp only [if_neg h₂, if_pos h₃]
    exact .inl ⟨rfl, rfl⟩
  by_cases h₄ : otaCrc32 0 (o.board.flash.bytes active.other.base
      (cur.imgLen.get active.other).toNat) ≠ cur.imgCrc32.get active.other ∨
      (!otaImageBootable active.other.base (o.board.flash.bytes active.other.base
        (cur.imgLen.get active.other).toNat) (cur.imgLen.get active.other)) = true
  · simp only [if_neg h₂, if_neg h₃, if_pos h₄]
    exact .inl ⟨rfl, rfl⟩
  -- every check has passed
  have hst : o.sess.state = .idle ∨ o.sess.state = .error := by
    rw [not_and_or, not_not, not_not] at h₁
    exact h₁
  rw [not_or, not_or] at h₂
  rw [not_or, not_not] at h₄
  exact absurd ⟨hst, hcur, Slot.ofCode_eq_some.mp hact, UInt32.not_lt.mp h₃,
    ⟨by simpa using h₂.1, h₂.2.1⟩, UInt32.not_lt.mp h₂.2.2, h₄.1, by simpa using h₄.2⟩
    (h cur p active)

/-- A ROLLBACK that meets an owned funnel. -/
lemma contained_hRollback_iff (ho : o.board.owned = true) :
    Contained o (hRollback o) (hRollback o.freed) ↔ ¬ FunnelNeeded o req 0xF4 := by
  by_cases h : ∃ cur p active, RollbackChecked o cur p active
  · obtain ⟨cur, p, active, h⟩ := h
    have h' : RollbackChecked o.freed cur p active := ⟨h.state, h.current, h.names, h.floor, h.ok⟩
    have hseed := metaSeed_of_current h.current
    generalize hw : rollbackWrite active.other (otaImageTrialCapable
      (o.board.flash.bytes active.other.base (cur.imgLen.get active.other).toNat)
      (cur.imgLen.get active.other)) = w
    rw [hRollback_of_checked h hw.symm, hRollback_of_checked h' hw.symm, metaCommit_busy ho,
      Ota.freed_run]
    by_cases hc : cur.counter < w.counterCap
    · have hgo : (metaCommit o.freed.board o.run w).2 = some true :=
        metaCommit_nominal rfl rfl (by rwa [Ota.freed_flash, hseed])
      rw [hgo]
      refine iff_of_false (not_contained_of_io nofun) ?_
      exact not_not.mpr (.rollback cur p active w h hw.symm hc)
    · have hstop : metaCommit o.freed.board o.run w = (o.freed.board, some false) :=
        metaCommit_refused (by rwa [Ota.freed_flash, hseed])
      rw [hstop]
      refine iff_of_true (.inl ⟨rfl, rfl⟩) ?_
      rintro (_ | _ | ⟨cur', p', active', w', h'', hw', hc'⟩)
      -- there is only one newest record, and it names only one slot
      obtain ⟨rfl, rfl⟩ := Prod.mk.inj (Option.some.inj (h.current.symm.trans h''.current))
      obtain rfl := h''.names.unique h.names
      rw [hw', hw] at hc'
      exact hc hc'
  · refine iff_of_true (contained_hRollback_of_not fun cur p active hc => h ⟨_, _, _, hc⟩) ?_
    rintro (_ | _ | ⟨cur, p, active, w, h', -, -⟩)
    exact h ⟨cur, p, active, h'⟩

end

/-! ### Requests against base-level code -/

section

variable {σ : Type} {hal : Hal σ}

/-- The same device with the funnel free and the hardware healthy. -/
def Device.freed (d : Device σ) : Device σ :=
  { d with ota := d.ota.freed }

/-- The OTA requests that have to do with the flash. -/
def UsesFlash (cmd : UInt8) : Prop :=
  cmd = 0xF0 ∨ cmd = 0xF1 ∨ cmd = 0xF3 ∨ cmd = 0xF4

/-- OTA side and outcome of a request. -/
def otaOutcome (x : Device σ × Outcome) : Ota × Outcome :=
  (x.1.ota, x.2)

/-- What a request would need the funnel for does not depend on the outcome of its own flash
operations. -/
lemma FunnelNeeded.prepare_iff {d : Device σ} {script : List PhysResult} {req : List UInt8}
    {cmd : UInt8} : FunnelNeeded (d.prepare script).ota req cmd ↔ FunnelNeeded d.ota req cmd := by
  constructor
  · rintro (⟨h, hb⟩ | ⟨h, hc⟩ | ⟨cur, p, active, w, h, hw, hc⟩)
    · exact .write ⟨h.state, h.size, h.dlen, h.range, h.align, h.fresh⟩ hb
    · exact .commit ⟨h.state, h.len, h.bootable, h.capable, h.floor⟩ hc
    · exact .rollback cur p active w ⟨h.state, h.current, h.names, h.floor, h.ok⟩ hw hc
  · rintro (⟨h, hb⟩ | ⟨h, hc⟩ | ⟨cur, p, active, w, h, hw, hc⟩)
    · exact .write ⟨h.state, h.size, h.dlen, h.range, h.align, h.fresh⟩ hb
    · exact .commit ⟨h.state, h.len, h.bootable, h.capable, h.floor⟩ hc
    · exact .rollback cur p active w ⟨h.state, h.current, h.names, h.floor, h.ok⟩ hw hc

/-- A gated device answers BUSY with or without the funnel. -/
lemma protocolDispatch_trial {d : Device σ} (ht : d.ota.trial = true) (link : Link) (cmd : UInt8)
    (req : List UInt8) (cap : ℕ) :
    otaOutcome (protocolDispatch hal false link cmd d req cap) =
      ({ d.ota with frameSeen := true }, .reply .busy []) := by
  simp only [otaOutcome, protocolDispatch, protocolDispatchInner, ht, Bool.false_eq_true, if_false,
    if_true, refuse]

/-- Behind the gate an OTA request goes to `ota_dispatch`. -/
lemma protocolDispatch_ota {d : Device σ} {cmd : UInt8} (ht : d.ota.trial = false)
    (hcmd : UsesFlash cmd) (link : Link) (req : List UInt8) (cap : ℕ) :
    otaOutcome (protocolDispatch hal false link cmd d req cap) = otaDispatch d.ota cmd req cap := by
  have hop : Opcode.ofByte cmd = none ∧ cmd ≥ cmdOtaBegin := by
    rcases hcmd with rfl | rfl | rfl | rfl <;> exact ⟨rfl, by decide⟩
  simp only [otaOutcome, protocolDispatch, protocolDispatchInner, ht, Bool.false_eq_true, if_false,
    hop.1, if_pos hop.2]

/-- In every reachable state in which base-level code owns the funnel, an OTA request is answered
as with a free funnel, or turned away with BUSY or NOT_READY and no change to the session, exactly
when it does not get as far as a flash call that would go through. -/
theorem contained_iff_of_reach (hal : Hal σ) {ok : Sys σ → Label → Sys σ → Prop} {d : Device σ}
    {pc : BasePc} (h : Reach (step hal) Sys.Unpowered ok (.on d pc)) (howns : pc.owns = true)
    (link : Link) {cmd : UInt8} (hcmd : UsesFlash cmd) {payload : List UInt8}
    (hsize : payload.length ≤ maxPayloadBytes) (script : List PhysResult) :
    Contained d.ota
        (otaOutcome (protocolDispatch hal false link cmd (d.prepare script) payload
          maxPayloadBytes))
        (otaOutcome (protocolDispatch hal false link cmd (d.prepare script).freed payload
          maxPayloadBytes)) ↔
      ¬ (d.ota.trial = false ∧ FunnelNeeded d.ota payload cmd) := by
  have htidy : Tidy d.ota pc := reach_ordered h
  have ho : (d.prepare script).ota.board.owned = true := htidy.owned.trans howns
  cases ht : d.ota.trial with
  | true =>
    refine iff_of_true ?_ nofun
    rw [protocolDispatch_trial (d := d.prepare script) ht,
      protocolDispatch_trial (d := (d.prepare script).freed) ht]
    exact .inl ⟨rfl, rfl⟩
  | false =>
    rw [protocolDispatch_ota (d := d.prepare script) ht hcmd,
      protocolDispatch_ota (d := (d.prepare script).freed) ht hcmd]
    suffices hs : Contained (d.prepare script).ota
        (otaDispatch (d.prepare script).ota cmd payload maxPayloadBytes)
        (otaDispatch (d.prepare script).ota.freed cmd payload maxPayloadBytes) ↔
        ¬ FunnelNeeded (d.prepare script).ota payload cmd by
      rw [FunnelNeeded.prepare_iff] at hs
      simp only [true_and]
      exact hs
    rcases hcmd with rfl | rfl | rfl | rfl
    · rw [otaDispatch_begin, otaDispatch_begin]
      refine iff_of_true (contained_hBegin ho) ?_
      rintro (_ | _ | _)
    · rw [otaDispatch_write, otaDispatch_write]
      exact contained_hWrite_iff ho htidy.inactive hsize
    · rw [otaDispatch_commit, otaDispatch_commit]
      exact contained_hCommit_iff ho
    · rw [otaDispatch_rollback, otaDispatch_rollback]
      exact contained_hRollback_iff ho

end

/-! ### Runs -/

/-- Nothing the step does to the flash fails. -/
def Label.healthy : Label → Bool
  | request _ _ _ script => script.isEmpty
  | confirmTick script => script.isEmpty
  | boot _ script => script.isEmpty
  | base .ready => true
  | base _ => false
  | _ => true

/-- The sample device in dual-bank mode, where the configuration pages can be written. -/
def sampleDual : Sys Unit := .off { sampleBoard with dual := true }

/-- Boot, queue a SET, and let the store claim the funnel. -/
def storeRun : List Label :=
  [.boot false [], .request .i2c 0x42 (1 :: le32 1) [], .configTick, .base .ready]

/-- Base-level code owns the funnel; a ROLLBACK reports a flash fault here, and would go through
with the funnel free. -/
def rollbackFaults : Sys Unit → Bool
  | .on d pc => pc.owns &&
    (match (protocolDispatch .stub false .spi 0xF4 (d.prepare []) [] maxPayloadBytes).2 with
      | .reply .io _ => true
      | _ => false) &&
    (match (protocolDispatch .stub false .spi 0xF4 (d.prepare []).freed [] maxPayloadBytes).2 with
      | .reset => true
      | _ => false)
  | .off _ => false

set_option maxRecDepth 20000 in
/-- The store of a queued SET under way, without a fault anywhere. -/
lemma exists_reach_of_store : ∃ (d : Device Unit) (pc : BasePc),
    Reach (step .stub) Sys.Unpowered (fun _ l _ => l.healthy = true) (.on d pc) ∧
      rollbackFaults (.on d pc) = true := by
  have hinit : Reach (step .stub) Sys.Unpowered (fun _ l _ => l.healthy = true) sampleDual :=
    .start trivial
  obtain ⟨s, hs, hq⟩ := hinit.exists_of_run (fun _ l _ => l.healthy) rollbackFaults storeRun
    (fun _ _ _ h => h) (by decide +kernel)
  cases s with
  | off b => cases hq
  | on d pc => exact ⟨d, pc, hs, hq⟩

/-- A BEGIN that arrives during the store is turned away, not failed. -/
theorem contained_begin_during_store :
    ∃ (d : Device Unit) (pc : BasePc), pc.owns = true ∧
      Contained d.ota
        (otaOutcome (protocolDispatch .stub false .spi 0xF0 (d.prepare []) (le32 84 ++ le32 0)
          maxPayloadBytes))
        (otaOutcome (protocolDispatch .stub false .spi 0xF0 (d.prepare []).freed
          (le32 84 ++ le32 0) maxPayloadBytes)) := by
  obtain ⟨d, pc, hs, hq⟩ := exists_reach_of_store
  simp only [rollbackFaults, Bool.and_eq_true] at hq
  have howns := hq.1.1
  refine ⟨d, pc, howns, (contained_iff_of_reach .stub hs howns .spi (.inl rfl) ?_ []).mpr ?_⟩
  · decide
  · rintro ⟨-, (_ | _ | _)⟩

/-- A ROLLBACK that arrives during the store reports a flash fault, with no fault anywhere. -/
theorem not_contained_rollback_during_store :
    ¬ ∀ (d : Device Unit) (pc : BasePc) (cmd : UInt8) (payload : List UInt8),
      Reach (step .stub) Sys.Unpowered (fun _ l _ => l.healthy = true) (.on d pc) →
      pc.owns = true → UsesFlash cmd → payload.length ≤ maxPayloadBytes →
      Contained d.ota
        (otaOutcome (protocolDispatch .stub false .spi cmd (d.prepare []) payload
          maxPayloadBytes))
        (otaOutcome (protocolDispatch .stub false .spi cmd (d.prepare []).freed payload
          maxPayloadBytes)) := by
  intro hall
  obtain ⟨d, pc, hs, hq⟩ := exists_reach_of_store
  simp only [rollbackFaults, Bool.and_eq_true] at hq
  obtain ⟨⟨howns, hio⟩, hreset⟩ := hq
  have hc := hall d pc 0xF4 [] hs howns (.inr (.inr (.inr rfl))) (by decide)
  generalize protocolDispatch .stub false .spi 0xF4 (d.prepare []) [] maxPayloadBytes = x at hio hc
  generalize protocolDispatch .stub false .spi 0xF4 (d.prepare []).freed [] maxPayloadBytes = y
    at hreset hc
  obtain ⟨d₁, out⟩ := x
  obtain ⟨d₂, out₀⟩ := y
  split at hio
  · next h₁ =>
    cases h₁
    refine not_contained_of_io ?_ hc
    intro h₂
    have h₂ : out₀ = .reply .io _ := h₂
    rw [h₂] at hreset
    cases hreset
  · cases hio

end Gd32Bridge
