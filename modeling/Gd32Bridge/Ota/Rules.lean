import Gd32Bridge.Ota.Pages

/-!
# What an OTA request can do

`OtaRule o x` lists the ways `ota_dispatch` can turn the state `o` into the result `x`, with the
facts that were checked on the way.  The handlers are unfolded here, once, in
`OtaRule.of_otaDispatch`; what follows about requests is a case analysis of the rules.
-/

namespace Gd32Bridge

open Endian

/-- The image length a session may be opened with. -/
def LenOk (n : UInt32) : Prop :=
  n ≠ 0 ∧ n ≤ otaSlotSize

/-- The end of a BEGIN that wrote the demotion record. -/
def demoteEnd (o : Ota) (a : BeginArgs) (cap : ℕ) (b : Board) : Option Bool → Ota × Outcome
  | some true => beginArm { o with board := b } a cap
  | some false => (Ota.sessionReject { o with board := b } .metaDemoteFailed, .reply .io [])
  | none => ({ o with board := b }, .powerLost)

/-- The end of a COMMIT that wrote its record. -/
def commitEnd (o : Ota) (b : Board) : Option Bool → Ota × Outcome
  | some true => ({ o with board := b }, .reset)
  | some false => (Ota.fail { o with board := b } .commitFailed, .reply .io [])
  | none => ({ o with board := b }, .powerLost)

/-- The end of a ROLLBACK that wrote its record. -/
def rollbackEnd (o : Ota) (b : Board) : Option Bool → Ota × Outcome
  | some true => ({ o with board := b }, .reset)
  | some false => ({ o with board := b }, .reply .io [])
  | none => ({ o with board := b }, .powerLost)

/-- The end of a WRITE_CHUNK that called the flash. -/
def chunkEnd (o : Ota) (top : UInt32) (cap : ℕ) (b : Board) : Option FmcResult → Ota × Outcome
  | none => ({ o with board := b, sess := { o.sess with state := .busy } }, .powerLost)
  | some .ok =>
    writeAck { o with
      board := b
      sess := { o.sess with lastOff := if top > o.sess.lastOff then top else o.sess.lastOff } } cap
  | some .timeout => (Ota.fail { o with board := b } .programFailed, .reply .timeout [])
  | some .error => (Ota.fail { o with board := b } .programFailed, .reply .io [])

section

variable (o : Ota) (b : Board)

lemma demoteEnd_board (a : BeginArgs) (cap : ℕ) (r : Option Bool) :
    (demoteEnd o a cap b r).1.board = b := by
  rcases r with _ | _ | _ <;> rfl

lemma commitEnd_board (r : Option Bool) : (commitEnd o b r).1.board = b := by
  rcases r with _ | _ | _ <;> rfl

lemma rollbackEnd_board (r : Option Bool) : (rollbackEnd o b r).1.board = b := by
  rcases r with _ | _ | _ <;> rfl

lemma chunkEnd_board (top : UInt32) (cap : ℕ) (r : Option FmcResult) :
    (chunkEnd o top cap b r).1.board = b := by
  rcases r with _ | _ | _ | _ <;> rfl

lemma demoteEnd_run (a : BeginArgs) (cap : ℕ) (r : Option Bool) :
    (demoteEnd o a cap b r).1.run = o.run := by
  rcases r with _ | _ | _ <;> rfl

lemma commitEnd_run (r : Option Bool) : (commitEnd o b r).1.run = o.run := by
  rcases r with _ | _ | _ <;> rfl

lemma rollbackEnd_run (r : Option Bool) : (rollbackEnd o b r).1.run = o.run := by
  rcases r with _ | _ | _ <;> rfl

lemma chunkEnd_run (top : UInt32) (cap : ℕ) (r : Option FmcResult) :
    (chunkEnd o top cap b r).1.run = o.run := by
  rcases r with _ | _ | _ | _ <;> rfl

end

section

variable {o : Ota} {b : Board}

lemma demoteEnd_ne_reset {a : BeginArgs} {cap : ℕ} {r : Option Bool} :
    (demoteEnd o a cap b r).2 ≠ .reset := by
  rcases r with _ | _ | _ <;> rintro ⟨⟩

lemma chunkEnd_ne_reset {top : UInt32} {cap : ℕ} {r : Option FmcResult} :
    (chunkEnd o top cap b r).2 ≠ .reset := by
  rcases r with _ | _ | _ | _ <;> rintro ⟨⟩

lemma commitEnd_reset {r : Option Bool} (h : (commitEnd o b r).2 = .reset) : r = some true := by
  rcases r with _ | _ | _
  · cases h
  · cases h
  · rfl

lemma rollbackEnd_reset {r : Option Bool} (h : (rollbackEnd o b r).2 = .reset) :
    r = some true := by
  rcases r with _ | _ | _
  · cases h
  · cases h
  · rfl

end

/-- What COMMIT has checked when it writes its record. -/
structure CommitChecked (o : Ota) : Prop where
  state : o.sess.state = .verified
  len : LenOk o.sess.imgLen
  bootable : otaImageBootable o.inactiveBase
    (o.board.flash.bytes o.inactiveBase o.sess.imgLen.toNat) o.sess.imgLen = true
  capable : otaImageTrialCapable
    (o.board.flash.bytes o.inactiveBase o.sess.imgLen.toNat) o.sess.imgLen = true
  floor : belowFloor (metaCurrent o.board.flash) o.sess.fwVersion = false

/-- What ROLLBACK has checked when it writes its record: `cur` on page `p` is the newest record,
it names `active`, and it describes an intact image in the other slot. -/
structure RollbackChecked (o : Ota) (cur : MetaRecord) (p : MetaPage) (active : Slot) : Prop where
  state : o.sess.state = .idle ∨ o.sess.state = .error
  current : metaCurrent o.board.flash = some (cur, p)
  names : cur.Names active
  floor : otaVersionFloor cur ≤ cur.fwVersion.get active.other
  ok : SlotOk o.board.flash cur active.other

/-- What BEGIN has checked when it writes the demotion record. -/
structure DemoteChecked (o : Ota) (req : List UInt8) (cur : MetaRecord) (p : MetaPage) : Prop where
  size : 8 ≤ req.length
  len : LenOk (getLe32 req 0)
  current : metaCurrent o.board.flash = some (cur, p)
  counter : cur.counter ≤ otaMetaBeginMaxCounter
  free : o.board.owned = false

/-- The session after a VERIFY that came to its CRC. -/
def verifiedSession (o : Ota) : Session :=
  { o.sess with
    imgCrc := inactiveCrc o
    state := if inactiveCrc o == o.sess.expectedCrc then .verified else .error
    err := if inactiveCrc o == o.sess.expectedCrc then o.sess.err else .verifyCrc }

lemma hVerify_eq {o : Ota} (hs : o.sess.state = .ready) (hlen : LenOk o.sess.imgLen) (cap : ℕ) :
    ∃ p, hVerify o cap = ({ o with sess := verifiedSession o }, .reply .ok p) := by
  have hne : ¬ (o.sess.imgLen = 0 ∨ o.sess.imgLen > otaSlotSize) := by
    rw [not_or]
    exact ⟨hlen.1, UInt32.not_lt.mpr hlen.2⟩
  simp only [hVerify, hs, ne_eq, not_true_eq_false, if_false, if_neg hne]
  exact ⟨_, rfl⟩

/-- The request is a BEGIN that was accepted. -/
def acceptsBegin (cmd : UInt8) : Outcome → Bool
  | .reply st _ => cmd == 0xF0 && st == .ok
  | _ => false

/-- The request is a BEGIN that was rejected for good, and not just turned away. -/
def rejectsBegin (cmd : UInt8) (req : List UInt8) : Outcome → Bool
  | .reply st _ => cmd == 0xF0 && decide (8 ≤ req.length) && st != .ok && st != .busy
  | _ => false

/-- The rules of `ota_dispatch`. -/
inductive OtaRule (o : Ota) (cmd : UInt8) (req : List UInt8) : Ota × Outcome → Prop
  /-- answered without a change -/
  | same (st : Status) (p : List UInt8) (ha : acceptsBegin cmd (.reply st p) = false)
      (hr : rejectsBegin cmd req (.reply st p) = false) (hcmd : cmd ≠ 0xF6) :
      OtaRule o cmd req (o, .reply st p)
  /-- a rejected BEGIN -/
  | reject (e : OtaErr) (st : Status) (hcmd : cmd = 0xF0)
      (hr : rejectsBegin cmd req (.reply st []) = true) :
      OtaRule o cmd req (o.sessionReject e, .reply st [])
  /-- a chunk, VERIFY, COMMIT or ROLLBACK that ends in `OTA_ST_ERROR` without a flash call -/
  | fail (e : OtaErr) (st : Status) (h : o.sess.state ≠ .busy) (hb : cmd ≠ 0xF0)
      (ha : cmd ≠ 0xF6) : OtaRule o cmd req (o.fail e, .reply st [])
  | abort (hcmd : cmd = 0xF6) : OtaRule o cmd req (hAbort o)
  /-- a VERIFY that came to its CRC -/
  | verify (cap : ℕ) (hcmd : cmd = 0xF2) (hstate : o.sess.state = .ready)
      (hlen : LenOk o.sess.imgLen) : OtaRule o cmd req (hVerify o cap)
  /-- a BEGIN on a device without any record -/
  | armBlank (cap : ℕ) (hcmd : cmd = 0xF0) (hlen : LenOk (getLe32 req 0))
      (hnone : metaCurrent o.board.flash = none) :
      OtaRule o cmd req (beginArm o (.ofRequest req) cap)
  | demote (cap : ℕ) (cur : MetaRecord) (p : MetaPage) (hcmd : cmd = 0xF0)
      (h : DemoteChecked o req cur p) :
      OtaRule o cmd req
        (demoteEnd o (.ofRequest req) cap (metaCommit o.board o.run (demoteWrite o.run cur)).1
          (metaCommit o.board o.run (demoteWrite o.run cur)).2)
  | replay (cap : ℕ) (hcmd : cmd = 0xF1) (hstate : o.sess.state = .ready) :
      OtaRule o cmd req (writeAck o cap)
  | chunk (off top : UInt32) (data : List UInt8) (cap : ℕ) (hcmd : cmd = 0xF1)
      (hstate : o.sess.state = .ready) (hoff : off.toNat % 8 = 0) (hdata : data ≠ [])
      (hlen : data.length ≤ 255) (hfit : off.toNat + data.length ≤ otaSlotSize.toNat)
      (htop : top.toNat = off.toNat + data.length) (hnew : o.sess.lastOff < top) :
      OtaRule o cmd req (chunkEnd o top cap
        (otaFmcProgram o.board o.run (o.inactiveBase + off) data).1
        (otaFmcProgram o.board o.run (o.inactiveBase + off) data).2)
  | commit (hcmd : cmd = 0xF3) (h : CommitChecked o) :
      OtaRule o cmd req (commitEnd o (metaCommit o.board o.run (commitWrite o.sess)).1
        (metaCommit o.board o.run (commitWrite o.sess)).2)
  | rollback (cur : MetaRecord) (p : MetaPage) (active : Slot) (w : MetaWrite) (hcmd : cmd = 0xF4)
      (h : RollbackChecked o cur p active)
      (hw : w = rollbackWrite active.other (otaImageTrialCapable
        (o.board.flash.bytes active.other.base (cur.imgLen.get active.other).toNat)
        (cur.imgLen.get active.other))) :
      OtaRule o cmd req
        (rollbackEnd o (metaCommit o.board o.run w).1 (metaCommit o.board o.run w).2)

/-! ### The dispatch table -/

lemma otaDispatch_begin (o : Ota) (req : List UInt8) (cap : ℕ) :
    otaDispatch o 0xF0 req cap = hBegin o req cap :=
  if_pos rfl

lemma otaDispatch_write (o : Ota) (req : List UInt8) (cap : ℕ) :
    otaDispatch o 0xF1 req cap = hWrite o req cap := by
  rw [otaDispatch, if_neg (by decide), if_pos rfl]

lemma otaDispatch_commit (o : Ota) (req : List UInt8) (cap : ℕ) :
    otaDispatch o 0xF3 req cap = hCommit o := by
  rw [otaDispatch, if_neg (by decide), if_neg (by decide), if_neg (by decide), if_pos rfl]

lemma otaDispatch_rollback (o : Ota) (req : List UInt8) (cap : ℕ) :
    otaDispatch o 0xF4 req cap = hRollback o := by
  rw [otaDispatch, if_neg (by decide), if_neg (by decide), if_neg (by decide), if_neg (by decide),
    if_pos rfl]

/-! ### The handlers follow the rules -/

lemma OtaRule.of_hBegin (o : Ota) (req : List UInt8) (cap : ℕ) :
    OtaRule o 0xF0 req (hBegin o req cap) := by
  simp only [hBegin]
  split
  · next hshort =>
    refine .same _ _ rfl ?_ (by decide)
    have : ¬ 8 ≤ req.length := Nat.not_le.mpr hshort
    simp [rejectsBegin, this]
  next hsize =>
  have hsize : 8 ≤ req.length := Nat.not_lt.mp hsize
  split
  · exact .reject _ _ rfl (by simp [rejectsBegin, hsize])
  next hrange =>
  split
  · exact .reject _ _ rfl (by simp [rejectsBegin, hsize])
  have hlen : LenOk (getLe32 req 0) := by
    rw [not_or] at hrange
    exact ⟨hrange.1, UInt32.not_lt.mp hrange.2⟩
  split
  · next hcur => exact .armBlank cap rfl hlen hcur
  next cur p hcur =>
  split
  · exact .reject _ _ rfl (by simp [rejectsBegin, hsize])
  next hcnt =>
  split
  · exact .same _ _ rfl (by simp [rejectsBegin]) (by decide)
  next hown =>
  have h := OtaRule.demote (o := o) cap cur p rfl
    ⟨hsize, hlen, hcur, UInt32.not_lt.mp hcnt, by simpa using hown⟩
  generalize metaCommit o.board o.run (demoteWrite o.run cur) = x at h ⊢
  match x with
  | (b, some true) => exact h
  | (b, some false) => exact h
  | (b, none) => exact h

/-- What the length, range and alignment checks of `h_write` establish. -/
lemma writeArgs_ok {req : List UInt8} (hsize : req.length ≤ 65) (h5 : 5 ≤ req.length)
    (hdlen : ¬ ((req.getD 4 0).toUInt32 = 0 ∨ (req.getD 4 0).toUInt32 ≠ .ofNat req.length - 5))
    (hrange : ¬ (getLe32 req 0 > otaSlotSize ∨
      (req.getD 4 0).toUInt32 > otaSlotSize - getLe32 req 0)) :
    (req.drop 5).length ≠ 0 ∧ (req.getD 4 0).toUInt32.toNat = (req.drop 5).length ∧
      (getLe32 req 0).toNat + (req.drop 5).length ≤ otaSlotSize.toNat ∧
      (getLe32 req 0 + (req.getD 4 0).toUInt32).toNat =
        (getLe32 req 0).toNat + (req.drop 5).length := by
  rw [not_or, not_not] at hdlen
  rw [not_or] at hrange
  have hlenN : (UInt32.ofNat req.length).toNat = req.length := by
    rw [UInt32.toNat_ofNat', Nat.mod_eq_of_lt (by omega)]
  have hd : (req.getD 4 0).toUInt32.toNat = (req.drop 5).length := by
    rw [hdlen.2, UInt32.toNat_sub_of_le, hlenN, List.length_drop]
    · rfl
    · rw [UInt32.le_iff_toNat_le, hlenN]
      exact h5
  have hd0 : (req.drop 5).length ≠ 0 := by
    intro h0
    exact hdlen.1 (UInt32.toNat_inj.mp (by rw [hd, h0]; rfl))
  have hoff := UInt32.not_lt.mp hrange.1
  have hle : (req.getD 4 0).toUInt32.toNat ≤ (otaSlotSize - getLe32 req 0).toNat :=
    UInt32.not_lt.mp hrange.2
  rw [UInt32.toNat_sub_of_le _ _ hoff, hd] at hle
  have hoff' : (getLe32 req 0).toNat ≤ otaSlotSize.toNat := hoff
  have hsz : otaSlotSize.toNat = 0x36000 := rfl
  refine ⟨hd0, hd, by omega, ?_⟩
  rw [UInt32.toNat_add, hd, Nat.mod_eq_of_lt (by omega)]

lemma OtaRule.of_hWrite (o : Ota) (req : List UInt8) (cap : ℕ) (hsize : req.length ≤ 65) :
    OtaRule o 0xF1 req (hWrite o req cap) := by
  simp only [hWrite]
  split
  · exact .same _ _ rfl rfl (by decide)
  next hst =>
  have hst : o.sess.state = .ready := not_not.mp hst
  split
  · exact .same _ _ rfl rfl (by decide)
  next hshort =>
  split
  · exact .same _ _ rfl rfl (by decide)
  next hdlen =>
  split
  · exact .fail _ _ (by simp [hst]) (by decide) (by decide)
  next hrange =>
  split
  · exact .same _ _ rfl rfl (by decide)
  next halign =>
  split
  · split
    · exact .replay cap rfl hst
    · exact .fail _ _ (by simp [hst]) (by decide) (by decide)
  next hmark =>
  obtain ⟨hd0, hd, hfit, htop⟩ := writeArgs_ok hsize (Nat.not_lt.mp hshort) hdlen hrange
  have halign' : (getLe32 req 0).toNat % 8 = 0 := by
    have := congrArg UInt32.toNat (not_not.mp halign)
    simpa using this
  have hdata : req.drop 5 ≠ [] := by
    intro h
    exact hd0 (by rw [h]; rfl)
  have h : OtaRule o 0xF1 req _ := .chunk (getLe32 req 0)
    (getLe32 req 0 + (req.getD 4 0).toUInt32) (req.drop 5) cap rfl hst halign' hdata (by rw [List.length_drop]; omega) hfit htop
    (UInt32.not_le.mp hmark)
  generalize otaFmcProgram o.board o.run (o.inactiveBase + getLe32 req 0) (req.drop 5) = x at h ⊢
  match x with
  | (b, none) => exact h
  | (b, some .ok) => exact h
  | (b, some .timeout) => exact h
  | (b, some .error) => exact h

lemma OtaRule.of_hVerify (o : Ota) (req : List UInt8) (cap : ℕ) :
    OtaRule o 0xF2 req (hVerify o cap) := by
  by_cases hst : o.sess.state = .ready
  · by_cases hlen : o.sess.imgLen = 0 ∨ o.sess.imgLen > otaSlotSize
    · simp only [hVerify, hst, ne_eq, not_true_eq_false, if_false, if_pos hlen]
      exact .fail _ _ (by simp [hst]) (by decide) (by decide)
    · rw [not_or] at hlen
      exact .verify cap rfl hst ⟨hlen.1, UInt32.not_lt.mp hlen.2⟩
  · simp only [hVerify, ne_eq, hst, not_false_eq_true, if_true]
    exact .same _ _ rfl rfl (by decide)

lemma OtaRule.of_hCommit (o : Ota) (req : List UInt8) : OtaRule o 0xF3 req (hCommit o) := by
  simp only [hCommit]
  split
  · exact .same _ _ rfl rfl (by decide)
  next hst =>
  have hst : o.sess.state = .verified := not_not.mp hst
  have hbusy : o.sess.state ≠ .busy := by simp [hst]
  split
  · exact .fail _ _ hbusy (by decide) (by decide)
  next hlen =>
  split
  · exact .fail _ _ hbusy (by decide) (by decide)
  next hboot =>
  split
  · exact .fail _ _ hbusy (by decide) (by decide)
  next hcap =>
  split
  · exact .fail _ _ hbusy (by decide) (by decide)
  next hfloor =>
  rw [not_or] at hlen
  have h : OtaRule o 0xF3 req _ := .commit rfl ⟨hst, ⟨hlen.1, UInt32.not_lt.mp hlen.2⟩, by simpa using hboot,
    by simpa using hcap, by simpa using hfloor⟩
  generalize metaCommit o.board o.run (commitWrite o.sess) = x at h ⊢
  match x with
  | (b, some true) => exact h
  | (b, some false) => exact h
  | (b, none) => exact h

lemma OtaRule.of_hRollback (o : Ota) (req : List UInt8) :
    OtaRule o 0xF4 req (hRollback o) := by
  simp only [hRollback]
  split
  · exact .same _ _ rfl rfl (by decide)
  next hst =>
  have hst : o.sess.state = .idle ∨ o.sess.state = .error := by
    by_contra h
    rw [not_or] at h
    exact hst h
  split
  · exact .same _ _ rfl rfl (by decide)
  next cur p hcur =>
  split
  · exact .same _ _ rfl rfl (by decide)
  next active hact =>
  split
  · exact .same _ _ rfl rfl (by decide)
  next hdesc =>
  split
  · refine .fail _ _ ?_ (by decide) (by decide)
    rcases hst with h | h <;> simp [h]
  next hfloor =>
  split
  · exact .same _ _ rfl rfl (by decide)
  next himg =>
  rw [not_or, not_or] at hdesc
  rw [not_or, not_not] at himg
  have h : OtaRule o 0xF4 req _ := .rollback cur p active _ rfl
    ⟨hst, hcur, Slot.ofCode_eq_some.mp hact, UInt32.not_lt.mp hfloor,
      ⟨by simpa using hdesc.1, hdesc.2.1⟩, UInt32.not_lt.mp hdesc.2.2, himg.1,
      by simpa using himg.2⟩ rfl
  generalize metaCommit o.board o.run (rollbackWrite active.other _) = x at h ⊢
  match x with
  | (b, some true) => exact h
  | (b, some false) => exact h
  | (b, none) => exact h

/-- Every OTA request follows one of the rules. -/
theorem OtaRule.of_otaDispatch (o : Ota) (cmd : UInt8) (req : List UInt8) (cap : ℕ)
    (hsize : req.length ≤ 65) : OtaRule o cmd req (otaDispatch o cmd req cap) := by
  simp only [otaDispatch]
  split_ifs with h₀ h₁ h₂ h₃ h₄ h₅ h₆
  · exact h₀ ▸ .of_hBegin o req cap
  · exact h₁ ▸ .of_hWrite o req cap hsize
  · exact h₂ ▸ .of_hVerify o req cap
  · exact h₃ ▸ .of_hCommit o req
  · exact h₄ ▸ .of_hRollback o req
  · subst h₅
    exact .same _ _ rfl rfl (by decide)
  · exact .abort h₆
  · exact .same _ _ (by simp [acceptsBegin, h₀]) (by simp [rejectsBegin, h₀]) h₆

/-! ### The confirm tick -/

/-- The end of a confirm tick that wrote its record. -/
def confirmEnd (o : Ota) (b : Board) : Option Bool → Ota × TickEnd
  | some true => ({ o with board := b }, .reset)
  | some false => ({ o with board := b }, .stay)
  | none => ({ o with board := b }, .powerLost)

/-- The rules of `ota_confirm_tick`. -/
inductive ConfirmRule (o : Ota) : Ota × TickEnd → Prop
  | nothing : ConfirmRule o (o, .stay)
  | write (r : MetaRecord) (p : MetaPage) (ht : o.trial = true) (hf : o.frameSeen = true)
      (hr : findRunningSlotRecord o.board.flash o.run = some (r, p)) :
      ConfirmRule o (confirmEnd o (metaCommit o.board o.run (confirmWrite o.run p)).1
        (metaCommit o.board o.run (confirmWrite o.run p)).2)

lemma ConfirmRule.of_otaConfirmTick (o : Ota) : ConfirmRule o (otaConfirmTick o) := by
  simp only [otaConfirmTick]
  split
  · exact .nothing
  next hg =>
  rw [not_or] at hg
  split
  · exact .nothing
  next r p hr =>
  have h := ConfirmRule.write (o := o) r p (by simpa using hg.1) (by simpa using hg.2) hr
  generalize metaCommit o.board o.run (confirmWrite o.run p) = x at h ⊢
  match x with
  | (b, some true) => exact h
  | (b, some false) => exact h
  | (b, none) => exact h

/-! ### The boot-time reconciliation -/

/-- A running image right after its start, before any request. -/
def Ota.fresh (run : Slot) (b : Board) (trial : Bool) : Ota :=
  ⟨run, b, .initial run, trial, false⟩

/-- The rules of `ota_boot_init`: the gate goes up, the self-heal is written, or nothing is to be
done because the newest record names the running slot or is confirmed. -/
inductive BootRule (b : Board) (run : Slot) : Ota × Bool → Prop
  | trial (r : MetaRecord) (p : MetaPage) (hr : findRunningSlotRecord b.flash run = some (r, p))
      (ht : r.trial = true) : BootRule b run (.fresh run b true, true)
  | settled (hr : ∀ r p, findRunningSlotRecord b.flash run = some (r, p) → r.trial = false)
      (hn : ∀ n p, metaCurrent b.flash = some (n, p) → n.Names run ∨ n.trial = false) :
      BootRule b run (.fresh run b false, true)
  | heal (n : MetaRecord) (p : MetaPage)
      (hr : ∀ r p, findRunningSlotRecord b.flash run = some (r, p) → r.trial = false)
      (hn : metaCurrent b.flash = some (n, p)) (hne : ¬ n.Names run) (ht : n.trial = true) :
      BootRule b run (.fresh run (metaCommit b run (selfHealWrite run n)).1 false,
        (metaCommit b run (selfHealWrite run n)).2.isSome)

lemma BootRule.of_otaBootInit (b : Board) (run : Slot) : BootRule b run (otaBootInit b run) := by
  simp only [otaBootInit]
  cases ht : runRecTrial b.flash run with
  | true =>
    simp only [runRecTrial] at ht
    split at ht
    · next r p hr => exact .trial r p hr ht
    · cases ht
  | false =>
    have hr : ∀ r p, findRunningSlotRecord b.flash run = some (r, p) → r.trial = false := by
      intro r p h
      simpa only [runRecTrial, h] using ht
    simp only [Bool.false_eq_true, if_false]
    split
    · next hnone => exact .settled hr fun n p h => by simp [hnone] at h
    next n p hn =>
    split
    · next hheal =>
      have h := BootRule.heal (b := b) n p hr hn hheal.1 hheal.2
      generalize metaCommit b run (selfHealWrite run n) = x at h ⊢
      match x with
      | (b', some _) => exact h
      | (b', none) => exact h
    · next hno =>
      refine .settled hr fun n' p' h => ?_
      rw [hn] at h
      cases h
      by_cases hnames : n.Names run
      · exact .inl hnames
      · exact .inr (by simpa using fun ht => hno ⟨hnames, ht⟩)

/-- A request that ends in a reset is a COMMIT or a ROLLBACK whose record has landed. -/
lemma OtaRule.of_reset {o : Ota} {cmd : UInt8} {req : List UInt8} {x : Ota × Outcome}
    (rule : OtaRule o cmd req x) (hx : x.2 = .reset) :
    ∃ w, (metaCommit o.board o.run w).2 = some true ∧
      x.1.board = (metaCommit o.board o.run w).1 ∧
      (cmd = 0xF3 ∧ w = commitWrite o.sess ∧ CommitChecked o ∨
        cmd = 0xF4 ∧ ∃ cur p active capable, w = rollbackWrite active.other capable ∧
          RollbackChecked o cur p active) := by
  cases rule with
  | same | reject | fail | abort | armBlank | replay => cases hx
  | verify cap hcmd hs hlen =>
    obtain ⟨p, hv⟩ := hVerify_eq hs hlen cap
    rw [hv] at hx
    cases hx
  | demote => exact absurd hx demoteEnd_ne_reset
  | chunk => exact absurd hx chunkEnd_ne_reset
  | commit hcmd hc => exact ⟨_, commitEnd_reset hx, commitEnd_board .., .inl ⟨hcmd, rfl, hc⟩⟩
  | rollback cur p active w hcmd hr hw =>
    exact ⟨w, rollbackEnd_reset hx, rollbackEnd_board .., .inr ⟨hcmd, cur, p, active, _, hw, hr⟩⟩

end Gd32Bridge
