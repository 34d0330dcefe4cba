import Gd32Bridge.System.Funnel
import Gd32Bridge.System.Walk
import Mathlib.Data.List.Nodup

/-!
# Delivering an image

A host cuts an image into chunks and repeats a chunk whose acknowledgement it has lost.  The
high-water mark tells a repetition from a new chunk, so that on healthy hardware every doubleword
is programmed once, however often the chunks arrive.
-/

namespace Gd32Bridge

open Endian Memory Transition

/-! ### An image in chunks -/

/-- The payload of a WRITE_CHUNK. -/
def writeRequest (off : UInt32) (data : List UInt8) : List UInt8 :=
  le32 off ++ UInt8.ofNat data.length :: data

/-- An image cut into chunks; every chunk but the last fills whole doublewords. -/
structure ImageCut (image : List UInt8) where
  chunks : List (List UInt8)
  flatten_eq : chunks.flatten = image
  size : ∀ c ∈ chunks, 1 ≤ c.length ∧ c.length ≤ otaChunkMax
  grid : ∀ c ∈ chunks.dropLast, c.length % 8 = 0

namespace ImageCut

variable {image : List UInt8} (cut : ImageCut image)

/-- The number of chunks. -/
abbrev count : ℕ := cut.chunks.length

def chunk (i : ℕ) : List UInt8 := cut.chunks.getD i []

/-- Where chunk `i` starts. -/
def offset (i : ℕ) : ℕ := (cut.chunks.take i).flatten.length

/-- The payload of the WRITE_CHUNK that delivers chunk `i`. -/
def request (i : ℕ) : List UInt8 :=
  writeRequest (.ofNat (cut.offset i)) (cut.chunk i)

variable {cut} {i k : ℕ}

lemma chunk_eq (hi : i < cut.chunks.length) : cut.chunk i = cut.chunks[i] :=
  List.getD_eq_getElem _ _ hi

lemma chunk_mem (hi : i < cut.count) : cut.chunk i ∈ cut.chunks := by
  rw [chunk_eq hi]
  exact List.getElem_mem _

@[simp] lemma offset_zero : cut.offset 0 = 0 := by simp [offset]

lemma offset_count : cut.offset cut.count = image.length := by
  simp only [offset, count, List.take_length, cut.flatten_eq]

lemma offset_succ (hi : i < cut.count) : cut.offset (i + 1) = cut.offset i + (cut.chunk i).length := by
  rw [chunk_eq hi]
  simp only [offset]
  rw [List.take_succ_eq_append_getElem hi, List.flatten_append, List.length_append]
  simp

lemma offset_mono (h : i ≤ k) : cut.offset i ≤ cut.offset k := by
  obtain ⟨j, rfl⟩ := Nat.exists_eq_add_of_le h
  simp only [offset]
  rw [List.take_add, List.flatten_append, List.length_append]
  exact Nat.le_add_right _ _

lemma offset_le (h : k ≤ cut.count) : cut.offset k ≤ image.length := by
  rw [← cut.offset_count]
  exact offset_mono h

/-- Chunks start on the programming grid. -/
lemma offset_grid (hk : k < cut.count) : cut.offset k % 8 = 0 := by
  induction k with
  | zero => simp
  | succ k ih =>
    have hk' : k < cut.count := by omega
    have hmem : cut.chunk k ∈ cut.chunks.dropLast := by
      have hd : k < cut.chunks.dropLast.length := by
        rw [List.length_dropLast]
        simp only [count] at hk
        omega
      rw [chunk_eq hk', ← List.getElem_dropLast hd]
      exact List.getElem_mem hd
    rw [offset_succ hk', Nat.add_mod, ih hk', cut.grid _ hmem]

/-- The bytes of a chunk are those of the image from its offset on. -/
lemma chunk_getD (hi : i < cut.count) {j : ℕ} (hj : j < (cut.chunk i).length) :
    (cut.chunk i).getD j 0 = image.getD (cut.offset i + j) 0 := by
  have hsplit : image = (cut.chunks.take i).flatten ++
      (cut.chunk i ++ (cut.chunks.drop (i + 1)).flatten) := by
    conv_lhs => rw [← cut.flatten_eq, ← List.take_append_drop i cut.chunks]
    rw [List.flatten_append, List.drop_eq_getElem_cons hi, List.flatten_cons, chunk_eq hi]
  have hget := congrArg (fun l => l.getD (cut.offset i + j) 0) hsplit
  simp only [offset] at hget ⊢
  rw [hget, List.getD_append_right _ _ _ _ (Nat.le_add_right _ _), Nat.add_sub_cancel_left,
    List.getD_append _ _ _ _ hj]

end ImageCut

/-! ### Delivery sequences -/

/-- Sequences that deliver chunks `k`, …, `n - 1` for the first time in this order, and repeat
delivered ones in between and afterwards. -/
inductive Delivers (n : ℕ) : ℕ → List ℕ → Prop
  | nil : Delivers n n []
  | first {k : ℕ} {is : List ℕ} (hk : k < n) (h : Delivers n (k + 1) is) : Delivers n k (k :: is)
  | replay {k i : ℕ} {is : List ℕ} (hi : i < k) (h : Delivers n k is) : Delivers n k (i :: is)

lemma Delivers.le {n k : ℕ} {is : List ℕ} (h : Delivers n k is) : k ≤ n := by
  induction h with
  | nil => exact le_rfl
  | first hk => exact hk.le
  | replay _ _ ih => exact ih

/-- The high-water marks the deliveries are answered with, `k` chunks having been delivered. -/
def ImageCut.marks {image : List UInt8} (cut : ImageCut image) : ℕ → List ℕ → List ℕ
  | _, [] => []
  | k, i :: is =>
    if i = k then cut.offset (k + 1) :: cut.marks (k + 1) is
    else cut.offset k :: cut.marks k is

variable {σ : Type}

/-- The requests of a delivery sequence, one after the other, with their outcomes. -/
def deliver (hal : Hal σ) (link : Link) {image : List UInt8} (cut : ImageCut image) (d : Device σ) :
    List ℕ → Device σ × List Outcome
  | [] => (d, [])
  | i :: is =>
    let x := protocolDispatch hal false link 0xF1 d (cut.request i) maxPayloadBytes
    let y := deliver hal link cut x.1 is
    (y.1, x.2 :: y.2)

/-! ### The log -/

/-- The doubleword the event programs. -/
def Event.dword : Event → Option UInt32
  | .op _ (.programDword addr _) => some addr
  | _ => none

/-- The doublewords programmed, oldest first. -/
def Board.programmed (b : Board) : List UInt32 :=
  b.log.reverse.filterMap Event.dword

/-- A walk that succeeds has logged its operations in order. -/
lemma Board.runOps_ok_log {b : Board} {run : Slot} {os : List FlashOp}
    (h : (b.runOps run os).2 = some .ok) :
    (b.runOps run os).1.log.reverse = b.log.reverse ++ os.map (.op run) := by
  induction os generalizing b with
  | nil => simp [Board.runOps]
  | cons o os ih =>
    obtain ⟨-, heq⟩ := runOps_ok_cons h
    rw [heq] at h ⊢
    rw [ih h, exec_log]
    simp

@[simp] lemma Board.release_log (b : Board) : b.release.log = b.log := rfl

/-- A program call that succeeds adds its doublewords. -/
lemma Board.programmed_program {b : Board} {run : Slot} {addr : UInt32} {data : List UInt8}
    (h : (b.fmcCall run (.program addr data)).2 = some .ok) :
    (b.fmcCall run (.program addr data)).1.programmed = b.programmed ++
      (List.range ((data.length + 7) / 8)).map fun i => addr + .ofNat (8 * i) := by
  obtain ⟨ha, ho⟩ := fmcCall_ok_admits h
  simp only [fmcCall, ha, ho, Bool.not_true, Bool.false_eq_true, if_false] at h ⊢
  rw [programmed, release_log, runOps_ok_log h]
  simp only [claim, List.reverse_cons, List.append_assoc, List.filterMap_append, FmcCall.work,
    List.map_map, List.filterMap_map, programmed]
  simp [Event.dword, Function.comp_def]

/-! ### One chunk -/

section

variable {o : Ota} {off : UInt32} {data : List UInt8} (cap : ℕ)

lemma writeRequest_length : (writeRequest off data).length = data.length + 5 := by
  simp only [writeRequest, List.length_append, le32_length, List.length_cons]
  omega

lemma writeRequest_off : getLe32 (writeRequest off data) 0 = off :=
  getLe32_le32 off _

lemma writeRequest_drop : (writeRequest off data).drop 5 = data := rfl

/-- The length byte holds the length of a chunk. -/
lemma writeRequest_dlen (hlen : data.length ≤ otaChunkMax) :
    ((writeRequest off data).getD 4 0).toUInt32 = .ofNat data.length := by
  have hmax : otaChunkMax = 56 := rfl
  have hget : (writeRequest off data).getD 4 0 = UInt8.ofNat data.length := rfl
  apply UInt32.toNat_inj.mp
  rw [hget, UInt8.toNat_toUInt32, UInt8.toNat_ofNat', UInt32.toNat_ofNat',
    Nat.mod_eq_of_lt (by omega), Nat.mod_eq_of_lt (by omega)]

lemma ofNat_toNat_of_le {n : ℕ} (h : n ≤ otaSlotSize.toNat) : (UInt32.ofNat n).toNat = n := by
  have hsz : otaSlotSize.toNat = 0x36000 := rfl
  rw [UInt32.toNat_ofNat', Nat.mod_eq_of_lt (by omega)]

/-- A chunk that is well formed and fits. -/
structure ChunkOk (off : UInt32) (data : List UInt8) : Prop where
  pos : 1 ≤ data.length
  le : data.length ≤ otaChunkMax
  fits : off.toNat + data.length ≤ otaSlotSize.toNat
  grid : off.toNat % 8 = 0

lemma ChunkOk.toNat_dlen (h : ChunkOk off data) : (UInt32.ofNat data.length).toNat = data.length :=
  ofNat_toNat_of_le (by have := h.fits; omega)

lemma ChunkOk.toNat_top (h : ChunkOk off data) :
    (off + .ofNat data.length).toNat = off.toNat + data.length := by
  have hsz : otaSlotSize.toNat = 0x36000 := rfl
  have hfits := h.fits
  rw [UInt32.toNat_add, h.toNat_dlen, Nat.mod_eq_of_lt (by omega)]

/-- The checks of `h_write` let a chunk beyond the mark through. -/
lemma WriteChecked.of_chunkOk (h : ChunkOk off data) (hs : o.sess.state = .ready)
    (hmark : o.sess.lastOff.toNat < off.toNat + data.length) :
    WriteChecked o (writeRequest off data) := by
  have hsz : otaSlotSize.toNat = 0x36000 := rfl
  have hpos := h.pos
  have hle := h.le
  have hfits := h.fits
  have hmax : otaChunkMax = 56 := rfl
  have hoff : off ≤ otaSlotSize := by
    rw [UInt32.le_iff_toNat_le]
    omega
  constructor
  case state => exact hs
  case size =>
    rw [writeRequest_length]
    omega
  case dlen =>
    rw [writeRequest_dlen h.le, writeRequest_length]
    constructor
    · intro h0
      have hzero : data.length = 0 := h.toNat_dlen.symm.trans (congrArg UInt32.toNat h0)
      omega
    · apply UInt32.toNat_inj.mp
      have h5 : (UInt32.ofNat (data.length + 5)).toNat = data.length + 5 :=
        ofNat_toNat_of_le (by omega)
      rw [h.toNat_dlen, UInt32.toNat_sub_of_le, h5]
      · rfl
      · rw [UInt32.le_iff_toNat_le, h5]
        exact Nat.le_add_left _ _
  case range =>
    rw [writeRequest_off, writeRequest_dlen h.le]
    refine ⟨hoff, ?_⟩
    rw [UInt32.le_iff_toNat_le, UInt32.toNat_sub_of_le _ _ hoff, h.toNat_dlen]
    omega
  case align =>
    rw [writeRequest_off]
    apply UInt32.toNat_inj.mp
    rw [UInt32.toNat_mod]
    exact h.grid
  case fresh =>
    rw [writeRequest_off, writeRequest_dlen h.le, UInt32.lt_iff_toNat_lt, h.toNat_top]
    exact hmark

/-- On healthy hardware a chunk over erased cells is programmed. -/
lemma chunk_program_ok (h : ChunkOk off data) (hfree : o.board.owned = false)
    (hhealthy : o.board.script = [])
    (hblank : ∀ a, o.run.other.base.toNat + off.toNat ≤ a →
      a < o.run.other.base.toNat + otaSlotSize.toNat → o.board.flash a = .erased) :
    (o.board.fmcCall o.run (.program (o.run.other.base + off) data)).2 = some .ok := by
  have hlen : data.length < 2 ^ 32 := by
    have := h.le
    have hmax : otaChunkMax = 56 := rfl
    omega
  have hin := chunk_inFlash o.run.other h.grid h.fits
  have haddr := chunk_toNat o.run.other h.fits
  rw [Board.fmcCall_nominal hhealthy hfree (chunk_admits h.grid hlen h.fits) hin]
  have hall : ((FmcCall.program (o.run.other.base + off) data).work o.board.dual).all
      (·.possible o.board.flash) = true := by
    rw [List.all_eq_true]
    intro op hop
    have hsub := (FmcCall.work_subset hin hop)
    obtain ⟨i, -, rfl⟩ := List.mem_map.mp hop
    refine possible_of_erased fun a ha => ?_
    have hspan := hsub ha
    have hslot := chunk_span_subset o.run.other h.grid h.fits hspan
    simp only [FmcCall.span, Set.mem_Ico, haddr] at hspan
    exact hblank a hspan.1 hslot.2
  rw [hall]
  rfl

lemma writeAck_of_ready (hs : o.sess.state = .ready) (hcap : 4 ≤ cap) :
    writeAck o cap = (o, .reply .ok (le32 o.sess.lastOff)) := by
  obtain ⟨run, board, sess, trial, frameSeen⟩ := o
  obtain ⟨state⟩ := sess
  cases hs
  simp only [writeAck, ge_iff_le, if_pos hcap]

lemma hWrite_fresh (h : ChunkOk off data) (hs : o.sess.state = .ready)
    (hin : o.sess.inactive = o.run.other)
    (hmark : o.sess.lastOff.toNat < off.toNat + data.length)
    (hok : (o.board.fmcCall o.run (.program (o.run.other.base + off) data)).2 = some .ok) :
    hWrite o (writeRequest off data) cap = writeAck { o with
      board := (o.board.fmcCall o.run (.program (o.run.other.base + off) data)).1
      sess := { o.sess with lastOff := off + .ofNat data.length } } cap := by
  have htop : off + .ofNat data.length > o.sess.lastOff := by
    rw [gt_iff_lt, UInt32.lt_iff_toNat_lt, h.toNat_top]
    exact hmark
  rw [hWrite_of_checked (.of_chunkOk h hs hmark)]
  simp only [chunkCall, Ota.inactiveBase, hin, writeRequest_off, writeRequest_drop,
    writeRequest_dlen h.le, hok, chunkEnd, if_pos htop]

/-- A chunk at or below the mark is compared and acknowledged. -/
lemma hWrite_replay (h : ChunkOk off data) (hs : o.sess.state = .ready)
    (hin : o.sess.inactive = o.run.other)
    (hmark : off.toNat + data.length ≤ o.sess.lastOff.toNat)
    (hsame : o.board.flash.bytes (o.run.other.base + off) data.length = data) :
    hWrite o (writeRequest off data) cap = writeAck o cap := by
  -- the checks do not depend on the mark
  have hc : WriteChecked { o with sess := { o.sess with lastOff := 0 } } (writeRequest off data) :=
    .of_chunkOk h hs (show (0 : UInt32).toNat < _ by have := h.pos; simp; omega)
  have h₂ : ¬ (writeRequest off data).length < 5 := Nat.not_lt.mpr hc.size
  have h₃ := hc.dlen
  have h₄ := hc.range
  have h₅ := hc.align
  rw [writeRequest_off] at h₄ h₅
  rw [writeRequest_dlen h.le] at h₃ h₄
  have h₆ : off + .ofNat data.length ≤ o.sess.lastOff := by
    rw [UInt32.le_iff_toNat_le, h.toNat_top]
    exact hmark
  simp only [hWrite, hs, ne_eq, not_true_eq_false, if_false, if_neg h₂, writeRequest_off,
    writeRequest_dlen h.le, writeRequest_drop, ← h₃.2, h₅, h₃.1, or_self,
    UInt32.not_lt.mpr h₄.1, UInt32.not_lt.mpr h₄.2, gt_iff_lt, if_pos h₆, Ota.inactiveBase, hin,
    h.toNat_dlen, if_pos hsame]

end

/-! ### The invariant -/

section

variable {image : List UInt8} {cut : ImageCut image} {run : Slot} {k : ℕ} {o : Ota}

/-- A session opened for `image`, and what has been delivered of it: `k` chunks. -/
structure Delivered (cut : ImageCut image) (run : Slot) (k : ℕ) (o : Ota) : Prop where
  run_eq : o.run = run
  gate : o.trial = false
  ready : o.sess.state = .ready
  mark : o.sess.lastOff.toNat = cut.offset k
  inactive : o.sess.inactive = o.run.other
  len : o.sess.imgLen.toNat = image.length
  crc : o.sess.expectedCrc = otaCrc32 0 image
  free : o.board.owned = false
  healthy : o.board.script = []
  written : ∀ j < cut.offset k,
    o.board.flash (o.run.other.base.toNat + j) = ⟨image.getD j 0, false⟩
  blank : ∀ a, o.run.other.base.toNat + cut.offset k ≤ a → k < cut.count →
    a < o.run.other.base.toNat + otaSlotSize.toNat → o.board.flash a = .erased
  programmed : o.board.programmed = (List.range ((cut.offset k + 7) / 8)).map fun j =>
    o.run.other.base + .ofNat (8 * j)

lemma ImageCut.chunkOk (hfit : image.length ≤ otaSlotSize.toNat) {i : ℕ} (hi : i < cut.count) :
    ChunkOk (.ofNat (cut.offset i)) (cut.chunk i) := by
  obtain ⟨hpos, hle⟩ := cut.size _ (cut.chunk_mem hi)
  have hoff : (UInt32.ofNat (cut.offset i)).toNat = cut.offset i :=
    ofNat_toNat_of_le ((cut.offset_le hi.le).trans hfit)
  refine ⟨hpos, hle, ?_, ?_⟩
  · rw [hoff, ← cut.offset_succ hi]
    exact (cut.offset_le hi).trans hfit
  · rw [hoff]
    exact cut.offset_grid hi

/-- The bytes of a delivered chunk. -/
lemma Delivered.chunk_bytes (h : Delivered cut run k o) (hfit : image.length ≤ otaSlotSize.toNat)
    (hk : k ≤ cut.count) {i : ℕ} (hi : i < k) :
    o.board.flash.bytes (o.run.other.base + .ofNat (cut.offset i)) (cut.chunk i).length =
      cut.chunk i := by
  have hi' : i < cut.count := hi.trans_le hk
  have hok := cut.chunkOk hfit hi'
  have hoff : (UInt32.ofNat (cut.offset i)).toNat = cut.offset i :=
    ofNat_toNat_of_le ((cut.offset_le hi'.le).trans hfit)
  have hnext : cut.offset i + (cut.chunk i).length ≤ cut.offset k := by
    rw [← cut.offset_succ hi']
    exact cut.offset_mono hi
  refine List.ext_getElem (by simp) fun j h₁ h₂ => ?_
  simp only [Flash.bytes, List.getElem_map, read_getElem, chunk_toNat o.run.other hok.fits, hoff]
  rw [Nat.add_assoc, h.written _ (by omega), ← cut.chunk_getD hi' h₂]
  exact List.getD_eq_getElem _ _ h₂

/-- A first delivery is programmed and acknowledged with the new mark. -/
lemma Delivered.first (h : Delivered cut run k o) (hfit : image.length ≤ otaSlotSize.toNat)
    (hk : k < cut.count) : ∃ o', hWrite o (cut.request k) maxPayloadBytes =
      (o', .reply .ok (le32 (.ofNat (cut.offset (k + 1))))) ∧ Delivered cut run (k + 1) o' := by
  have hok := cut.chunkOk hfit hk
  have hoff : (UInt32.ofNat (cut.offset k)).toNat = cut.offset k :=
    ofNat_toNat_of_le ((cut.offset_le hk.le).trans hfit)
  have hnext := cut.offset_succ hk
  have hgrid := cut.offset_grid hk
  have hpos := hok.pos
  have haddr := chunk_toNat o.run.other hok.fits
  have hin := chunk_inFlash o.run.other hok.grid hok.fits
  have htop : UInt32.ofNat (cut.offset k) + .ofNat (cut.chunk k).length =
      .ofNat (cut.offset (k + 1)) := by
    rw [hnext, UInt32.ofNat_add]
  have hprog := chunk_program_ok hok h.free h.healthy (o := o) fun a h₁ h₂ =>
    h.blank a (by rw [hoff] at h₁; exact h₁) hk h₂
  have hw := hWrite_fresh maxPayloadBytes hok h.ready h.inactive
    (by rw [h.mark, hoff]; omega) hprog
  rw [ImageCut.request, hw, htop]
  refine ⟨_, rfl, ?_⟩
  have hcell : ∀ a ∈ (FmcCall.program (o.run.other.base + .ofNat (cut.offset k))
      (cut.chunk k)).span, _ := fun a ha => Board.fmcCall_ok hin hprog ha
  have hsame : Unchanged _ o.board.flash (o.board.fmcCall o.run _).1.flash :=
    Board.fmcCall_unchanged hin
  simp only [FmcCall.span, haddr, hoff, FmcCall.content] at hcell hsame
  constructor
  case run_eq => exact h.run_eq
  case gate => exact h.gate
  case ready => rfl
  case mark => exact ofNat_toNat_of_le ((cut.offset_le hk).trans hfit)
  case inactive => exact h.inactive
  case len => exact h.len
  case crc => exact h.crc
  case free => exact Board.fmcCall_owned.trans h.free
  case healthy => exact Board.fmcCall_script_nil h.healthy
  case written =>
    intro j hj
    show (o.board.fmcCall o.run (.program (o.run.other.base + .ofNat (cut.offset k))
      (cut.chunk k))).1.flash (o.run.other.base.toNat + j) = _
    by_cases hlow : j < cut.offset k
    · refine (hsame.apply ?_).trans (h.written j hlow)
      simp only [Set.mem_Ico, not_and, Nat.not_lt]
      omega
    · rw [hnext] at hj
      refine (hcell _ (Set.mem_Ico.mpr ⟨by omega, by omega⟩)).trans ?_
      have hj' : j - cut.offset k < (cut.chunk k).length := by omega
      have hidx : o.run.other.base.toNat + j - (o.run.other.base.toNat + cut.offset k) =
          j - cut.offset k := by omega
      have hget := cut.chunk_getD hk hj'
      rw [Nat.add_sub_cancel' (by omega)] at hget
      simp only [hidx, ← hget, List.getD_eq_getElem _ _ hj']
  case blank =>
    intro a (h₁ : o.run.other.base.toNat + cut.offset (k + 1) ≤ a) hlast
      (h₂ : a < o.run.other.base.toNat + otaSlotSize.toNat)
    have hgrid' := cut.offset_grid hlast
    refine (hsame.apply ?_).trans (h.blank a (by omega) hk h₂)
    simp only [Set.mem_Ico, not_and, Nat.not_lt]
    omega
  case programmed =>
    refine (Board.programmed_program hprog).trans ?_
    rw [h.programmed]
    have hsplit : (cut.offset (k + 1) + 7) / 8 =
        (cut.offset k + 7) / 8 + ((cut.chunk k).length + 7) / 8 := by omega
    rw [hsplit, List.range_add, List.map_append, List.map_map]
    congr 1
    refine List.map_congr_left fun i _ => ?_
    have hidx : 8 * ((cut.offset k + 7) / 8 + i) = cut.offset k + 8 * i := by omega
    simp only [Function.comp, hidx, UInt32.ofNat_add, UInt32.add_assoc]

/-- A repetition changes nothing and is acknowledged with the mark. -/
lemma Delivered.replay (h : Delivered cut run k o) (hfit : image.length ≤ otaSlotSize.toNat)
    (hk : k ≤ cut.count) {i : ℕ} (hi : i < k) :
    hWrite o (cut.request i) maxPayloadBytes = (o, .reply .ok (le32 (.ofNat (cut.offset k)))) := by
  have hi' : i < cut.count := hi.trans_le hk
  have hoff : (UInt32.ofNat (cut.offset i)).toNat = cut.offset i :=
    ofNat_toNat_of_le ((cut.offset_le hi'.le).trans hfit)
  have hle : cut.offset i + (cut.chunk i).length ≤ cut.offset k := by
    rw [← cut.offset_succ hi']
    exact cut.offset_mono hi
  have hw := hWrite_replay maxPayloadBytes (cut.chunkOk hfit hi') h.ready h.inactive
    (by rw [hoff, h.mark]; exact hle) (h.chunk_bytes hfit hk hi)
  rw [ImageCut.request, hw, writeAck_of_ready maxPayloadBytes h.ready (by decide), ← h.mark, UInt32.ofNat_toNat]

/-- VERIFY of a delivered image. -/
lemma Delivered.verify (h : Delivered cut run cut.count o) (hpos : 1 ≤ image.length)
    (hfit : image.length ≤ otaSlotSize.toNat) :
    o.board.flash.bytes o.run.other.base image.length = image ∧
      (hVerify o maxPayloadBytes).1.sess.state = .verified := by
  have hbytes : o.board.flash.bytes o.run.other.base image.length = image := by
    refine List.ext_getElem (by simp) fun j h₁ h₂ => ?_
    simp only [Flash.bytes, List.getElem_map, read_getElem]
    rw [h.written _ (by rw [cut.offset_count]; exact h₂)]
    exact List.getD_eq_getElem _ _ h₂
  refine ⟨hbytes, ?_⟩
  have hlen : LenOk o.sess.imgLen := by
    constructor
    · intro h0
      have hzero := h.len
      rw [h0] at hzero
      have hz : (0 : UInt32).toNat = 0 := rfl
      omega
    · rw [UInt32.le_iff_toNat_le, h.len]
      exact hfit
  obtain ⟨p, hv⟩ := hVerify_eq h.ready hlen maxPayloadBytes
  have hcrc : inactiveCrc o = o.sess.expectedCrc := by
    rw [inactiveCrc, Ota.inactiveBase, h.inactive, h.len, hbytes, h.crc]
  rw [hv]
  simp only [verifiedSession, hcrc, beq_self_eq_true, if_true]

end

/-! ### The whole delivery -/

/-- What a BEGIN for `image` leaves behind when its erase is complete, on healthy hardware: READY,
nothing delivered, the slot erased, and nothing logged yet. -/
structure Awaiting (image : List UInt8) (o : Ota) : Prop where
  gate : o.trial = false
  ready : o.sess.state = .ready
  mark : o.sess.lastOff = 0
  inactive : o.sess.inactive = o.run.other
  len : o.sess.imgLen.toNat = image.length
  crc : o.sess.expectedCrc = otaCrc32 0 image
  free : o.board.owned = false
  healthy : o.board.script = []
  fresh : o.board.log = []
  blank : ∀ a ∈ o.run.other.region, o.board.flash a = .erased

lemma Awaiting.delivered {image : List UInt8} {o : Ota} (h : Awaiting image o)
    (cut : ImageCut image) : Delivered cut o.run 0 o where
  run_eq := rfl
  gate := h.gate
  ready := h.ready
  mark := by
    rw [h.mark, cut.offset_zero]
    rfl
  inactive := h.inactive
  len := h.len
  crc := h.crc
  free := h.free
  healthy := h.healthy
  written j hj := by
    rw [cut.offset_zero] at hj
    omega
  blank a h₁ _ h₂ := h.blank a ⟨by omega, h₂⟩
  programmed := by simp [Board.programmed, h.fresh]

/-- One delivery, as `h_write` sees it. -/
lemma deliver_cons (hal : Hal σ) (link : Link) {image : List UInt8} {cut : ImageCut image}
    {d : Device σ} {i : ℕ} (is : List ℕ) {o' : Ota} {out : Outcome} (hg : d.ota.trial = false)
    (hw : hWrite d.ota (cut.request i) maxPayloadBytes = (o', out)) :
    ∃ d' : Device σ, d'.ota = o' ∧ deliver hal link cut d (i :: is) =
      ((deliver hal link cut d' is).1, out :: (deliver hal link cut d' is).2) := by
  have hx : otaOutcome (protocolDispatch hal false link 0xF1 d (cut.request i) maxPayloadBytes) =
      otaDispatch d.ota 0xF1 (cut.request i) maxPayloadBytes :=
    protocolDispatch_ota hg (.inr (.inl rfl)) link (cut.request i) maxPayloadBytes
  rw [otaDispatch_write, hw] at hx
  simp only [deliver]
  generalize protocolDispatch hal false link 0xF1 d (cut.request i) maxPayloadBytes = x at hx ⊢
  obtain ⟨d', out'⟩ := x
  obtain ⟨hota, hout⟩ := Prod.mk.inj hx
  simp only at hota hout
  exact ⟨d', hota, by rw [hout]⟩

lemma Delivered.deliver (hal : Hal σ) (link : Link) {image : List UInt8} {cut : ImageCut image}
    {run : Slot} {k : ℕ} {is : List ℕ} {d : Device σ} (hd : Delivers cut.count k is)
    (hfit : image.length ≤ otaSlotSize.toNat) (h : Delivered cut run k d.ota) :
    Delivered cut run cut.count (deliver hal link cut d is).1.ota ∧
      (deliver hal link cut d is).2 =
        (cut.marks k is).map fun m => .reply .ok (le32 (.ofNat m)) := by
  induction hd generalizing d with
  | nil => exact ⟨h, rfl⟩
  | @first k is hk _ ih =>
    obtain ⟨o', hw, h'⟩ := h.first hfit hk
    obtain ⟨d', rfl, hdel⟩ := deliver_cons hal link is h.gate hw
    obtain ⟨ih₁, ih₂⟩ := ih h'
    rw [hdel, ih₂, ImageCut.marks, if_pos rfl]
    exact ⟨ih₁, rfl⟩
  | @replay k i is hi hd ih =>
    obtain ⟨d', hota, hdel⟩ := deliver_cons hal link is h.gate
      (h.replay hfit hd.le hi)
    obtain ⟨ih₁, ih₂⟩ := ih (d := d') (hota ▸ h)
    rw [hdel, ih₂, ImageCut.marks, if_neg hi.ne]
    exact ⟨ih₁, rfl⟩

/-- On healthy hardware, after a BEGIN for an image whose erase is complete: however the chunks of
the image are repeated, every WRITE_CHUNK is answered OK with the running high-water mark, the
doublewords that cover the image are programmed once each and no others are, the session stays
READY, the slot holds the image, and VERIFY accepts it. -/
theorem delivery_exactly_once (hal : Hal σ) (link : Link) {image : List UInt8}
    (cut : ImageCut image) (hpos : 1 ≤ image.length) (hfit : image.length ≤ otaSlotSize.toNat)
    {is : List ℕ} (his : Delivers cut.count 0 is) {d : Device σ} (hd : Awaiting image d.ota) :
    (deliver hal link cut d is).2 = (cut.marks 0 is).map (fun m => .reply .ok (le32 (.ofNat m))) ∧
    (deliver hal link cut d is).1.ota.board.programmed.length = (image.length + 7) / 8 ∧
    (∀ j < (image.length + 7) / 8, (deliver hal link cut d is).1.ota.board.programmed.count
        (d.ota.run.other.base + .ofNat (8 * j)) = 1) ∧
    (deliver hal link cut d is).1.ota.sess.state = .ready ∧
    (deliver hal link cut d is).1.ota.board.flash.bytes d.ota.run.other.base image.length = image ∧
    (otaDispatch (deliver hal link cut d is).1.ota 0xF2 [] maxPayloadBytes).1.sess.state =
      .verified := by
  obtain ⟨hend, hout⟩ := (hd.delivered cut).deliver hal link his hfit
  obtain ⟨hbytes, hverify⟩ := hend.verify hpos hfit
  have hprog := hend.programmed
  rw [hend.run_eq] at hbytes hprog
  rw [cut.offset_count] at hprog
  refine ⟨hout, ?_, fun j hj => ?_, hend.ready, hbytes, ?_⟩
  · rw [hprog, List.length_map, List.length_range]
  · rw [hprog]
    refine List.count_eq_one_of_mem ?_ (List.mem_map.mpr ⟨j, List.mem_range.mpr hj, rfl⟩)
    refine List.nodup_range.map_on fun i hi j' hj' heq => ?_
    have hsz : otaSlotSize.toNat = 0x36000 := rfl
    have hi := List.mem_range.mp hi
    have hj' := List.mem_range.mp hj'
    have h8 : UInt32.ofNat (8 * i) = .ofNat (8 * j') := by simpa using heq
    have h8 := congrArg UInt32.toNat h8
    rw [UInt32.toNat_ofNat', UInt32.toNat_ofNat', Nat.mod_eq_of_lt (by omega),
      Nat.mod_eq_of_lt (by omega)] at h8
    omega
  · exact hverify

/-! ### A delivery -/

/-- An image of 65 bytes in a full chunk and a short one. -/
def shortImage : List UInt8 :=
  (List.range 65).map UInt8.ofNat

def shortCut : ImageCut shortImage where
  chunks := [shortImage.take 56, shortImage.drop 56]
  flatten_eq := by decide
  size := by decide
  grid := by decide

/-- The BEGIN for it. -/
def shortBegin : Label :=
  .request .spi 0xF0 (le32 65 ++ le32 (otaCrc32 0 shortImage)) []

/-- An erase walk for the image is armed at the start of the slot. -/
def shortCheck : Sys Unit → Bool
  | .on d .idle => armedCheck d && !d.ota.trial && Nat.beq d.ota.sess.lastOff.toNat 0 &&
    decide (d.ota.sess.inactive = d.ota.run.other) && Nat.beq d.ota.sess.imgLen.toNat 65 &&
    Nat.beq d.ota.sess.expectedCrc.toNat (otaCrc32 0 shortImage).toNat
  | _ => false

set_option maxRecDepth 20000 in
/-- BEGIN, the whole erase walk, and a delivery that repeats both chunks. -/
theorem delivery_exactly_once_sample :
    ∃ d : Device Unit, Reach (step .stub) Provisioned Legal (.on d .idle) ∧
      (deliver .stub .spi shortCut (d.prepare []) [0, 0, 1, 0, 1]).2 =
        [56, 56, 65, 65, 65].map (fun m => .reply .ok (le32 (.ofNat m))) ∧
      (deliver .stub .spi shortCut (d.prepare []) [0, 0, 1, 0, 1]).1.ota.board.programmed.length = 9 ∧
      (otaDispatch (deliver .stub .spi shortCut (d.prepare []) [0, 0, 1, 0, 1]).1.ota 0xF2 []
        maxPayloadBytes).1.sess.state = .verified := by
  obtain ⟨s, hs, hq⟩ := exists_reach_of_sample Legal legalCheck shortCheck
    [.boot false [], shortBegin] (fun _ _ _ h => .of_check h) (by decide +kernel)
  match s, hs, hq with
  | .on d .idle, hs, hq =>
    simp only [shortCheck, armedCheck, Bool.and_eq_true, beq_iff_eq, Nat.beq_eq, UInt32.toNat_inj,
      Bool.not_eq_true', decide_eq_true_eq] at hq
    obtain ⟨⟨⟨⟨⟨⟨⟨⟨⟨⟨he, hb⟩, hat⟩, hend⟩, hdual⟩, ho⟩, hg⟩, hm⟩, hin⟩, hl⟩, hc⟩ := hq
    have hdone := reach_walkDone hs he hb hat hend hdual ho
    have hawait : Awaiting shortImage ((walkDone d).prepare []).ota := by
      constructor
      case gate => exact hg
      case ready => rfl
      case mark => exact UInt32.toNat_inj.mp hm
      case inactive => exact hin
      case len => exact hl
      case crc => exact hc
      case free => rfl
      case healthy => rfl
      case fresh => rfl
      case blank =>
        intro a ha
        have hcell : overlay d.ota.board.flash d.ota.run.other.base.toNat otaSlotSize.toNat
          (fun _ => Cell.erased) a = .erased := overlay_of_mem ha
        exact hcell
    have hdel : Delivers shortCut.count 0 [0, 0, 1, 0, 1] :=
      .first (by decide) (.replay (by decide) (.first (by decide)
        (.replay (by decide) (.replay (by decide) .nil))))
    obtain ⟨hout, hlen, -, -, -, hver⟩ := delivery_exactly_once .stub .spi shortCut (by decide)
      (by decide) hdel hawait
    exact ⟨walkDone d, hdone, hout, hlen, hver⟩

end Gd32Bridge
