import Gd32Bridge.Lib.Crc
import Mathlib.Data.List.GetD

/-!
# CRCs of bit strings

A CRC takes its message one bit at a time, and the register shifts towards the end at which the bits
come in.  Feeding it is linear and loses nothing, so that two messages which differ in no more
consecutive bits than the register holds leave it in different states.  A register that shifts to
the left is the mirror image of one that shifts to the right.
-/

namespace Crc

variable {w : ℕ}

/-! ### Bit strings -/

/-- Two strings of one length that differ, and only within `k` consecutive places. -/
structure Burst {α : Type*} (k : ℕ) (xs ys : List α) : Prop where
  length : xs.length = ys.length
  ne : xs ≠ ys
  window : ∃ p, ∀ i, xs[i]? ≠ ys[i]? → p ≤ i ∧ i < p + k

/-- What comes before and after the window is the same. -/
lemma Burst.split {α : Type*} {k : ℕ} {xs ys : List α} (h : Burst k xs ys) :
    ∃ before us vs after, xs = before ++ (us ++ after) ∧ ys = before ++ (vs ++ after) ∧
      us.length = vs.length ∧ us.length ≤ k ∧ us ≠ vs := by
  obtain ⟨p, hp⟩ := h.window
  have hbefore : ys.take p = xs.take p := by
    refine List.ext_getElem? fun i => ?_
    rw [List.getElem?_take, List.getElem?_take]
    by_cases hi : i < p
    · rw [if_pos hi, if_pos hi]
      refine Classical.byContradiction fun hne => ?_
      exact Nat.not_le_of_lt hi (hp i (Ne.symm hne)).1
    · rw [if_neg hi, if_neg hi]
  have hafter : (ys.drop p).drop k = (xs.drop p).drop k := by
    refine List.ext_getElem? fun i => ?_
    rw [List.drop_drop, List.drop_drop, List.getElem?_drop, List.getElem?_drop]
    refine Classical.byContradiction fun hne => ?_
    exact Nat.not_lt_of_le (Nat.le_add_right (p + k) i) (hp (p + k + i) (Ne.symm hne)).2
  have hxs : xs = xs.take p ++ ((xs.drop p).take k ++ (xs.drop p).drop k) := by
    rw [List.take_append_drop, List.take_append_drop]
  have hys : ys = xs.take p ++ ((ys.drop p).take k ++ (xs.drop p).drop k) := by
    rw [← hbefore, ← hafter, List.take_append_drop, List.take_append_drop]
  refine ⟨_, _, _, _, hxs, hys, ?_, ?_, fun heq => ?_⟩
  · simp only [List.length_take, List.length_drop, h.length]
  · exact List.length_take_le k _
  · rw [← heq, ← hxs] at hys
    exact h.ne hys.symm

/-- Two windows of one size with different contents. -/
lemma Burst.of_parts {α : Type*} {k : ℕ} (before : List α) {us vs : List α} (after : List α)
    (hlen : us.length = vs.length) (hfit : us.length ≤ k) (hne : us ≠ vs) :
    Burst k (before ++ (us ++ after)) (before ++ (vs ++ after)) where
  length := by simp only [List.length_append, hlen]
  ne := fun heq => hne (List.append_cancel_right (List.append_cancel_left heq))
  window := by
    refine ⟨before.length, fun i hi => ?_⟩
    by_cases hbefore : i < before.length
    · exact absurd (by rw [List.getElem?_append_left hbefore, List.getElem?_append_left hbefore]) hi
    have hge : before.length ≤ i := Nat.le_of_not_lt hbefore
    refine ⟨hge, Nat.lt_of_not_le fun hpast => hi ?_⟩
    rw [List.getElem?_append_right hge, List.getElem?_append_right hge,
      List.getElem?_append_right (by omega), List.getElem?_append_right (by omega), hlen]

/-- The bits of a string in the low end of a register. -/
def pack (bits : List Bool) : BitVec w :=
  (BitVec.ofBoolListLE bits).setWidth w

lemma getLsbD_pack (bits : List Bool) (i : ℕ) :
    (pack bits : BitVec w).getLsbD i = (decide (i < w) && bits.getD i false) := by
  rw [pack, BitVec.getLsbD_setWidth, BitVec.getLsbD_ofBoolListLE]

lemma pack_cons (b : Bool) (bits : List Bool) :
    (pack (b :: bits) : BitVec w) = pack [b] ^^^ pack bits <<< 1 := by
  refine BitVec.eq_of_getLsbD_eq fun i hi => ?_
  rw [BitVec.getLsbD_xor, BitVec.getLsbD_shiftLeft, getLsbD_pack, getLsbD_pack, getLsbD_pack]
  cases i with
  | zero => simp
  | succ i =>
    have hi' : i < w := Nat.lt_of_succ_lt hi
    simp [hi, hi']

/-- A string that fits can be read back. -/
lemma pack_injective {us vs : List Bool} (hlen : us.length = vs.length) (hfit : us.length ≤ w)
    (h : (pack us : BitVec w) = pack vs) : us = vs := by
  refine List.ext_getElem hlen fun i hi hi' => ?_
  have hbit := congrArg (fun c => c.getLsbD i) h
  simp only [getLsbD_pack, decide_eq_true (Nat.lt_of_lt_of_le hi hfit), Bool.true_and] at hbit
  rwa [List.getD_eq_getElem us false hi, List.getD_eq_getElem vs false hi'] at hbit

/-- The bits of a word, least significant first. -/
def bitsLsb {n : ℕ} (x : BitVec n) : List Bool :=
  (List.range n).map x.getLsbD

/-- The bits of a word, most significant first. -/
def bitsMsb {n : ℕ} (x : BitVec n) : List Bool :=
  (List.range n).map x.getMsbD

/-- The bits of a byte string, the least significant of each byte first. -/
def bytesLsb (data : List UInt8) : List Bool :=
  data.flatMap fun b => bitsLsb b.toBitVec

/-- The bits of a byte string, the most significant of each byte first. -/
def bytesMsb (data : List UInt8) : List Bool :=
  data.flatMap fun b => bitsMsb b.toBitVec

@[simp]
lemma bitsLsb_length {n : ℕ} (x : BitVec n) : (bitsLsb x).length = n := by
  rw [bitsLsb, List.length_map, List.length_range]

@[simp]
lemma bitsMsb_length {n : ℕ} (x : BitVec n) : (bitsMsb x).length = n := by
  rw [bitsMsb, List.length_map, List.length_range]

lemma bytesMsb_length (data : List UInt8) : (bytesMsb data).length = 8 * data.length := by
  induction data with
  | nil => rfl
  | cons b data ih =>
    rw [bytesMsb] at ih
    rw [bytesMsb, List.flatMap_cons, List.length_append, ih, bitsMsb_length, List.length_cons,
      Nat.mul_succ, Nat.add_comm]

lemma bytesLsb_append (xs ys : List UInt8) :
    bytesLsb (xs ++ ys) = bytesLsb xs ++ bytesLsb ys :=
  List.flatMap_append

lemma bitsMsb_eq {n : ℕ} (x : BitVec n) : bitsMsb x = bitsLsb x.reverse :=
  List.map_congr_left fun _ _ => BitVec.getLsbD_reverse.symm

lemma pack_bitsLsb {n : ℕ} (x : BitVec n) : (pack (bitsLsb x) : BitVec w) = x.setWidth w := by
  refine BitVec.eq_of_getLsbD_eq fun i hi => ?_
  rw [getLsbD_pack, BitVec.getLsbD_setWidth]
  by_cases hn : i < n
  · simp [bitsLsb, hn]
  · simp [bitsLsb, hn, BitVec.getLsbD_of_ge x i (Nat.le_of_not_lt hn)]

/-! ### One bit at a time -/

section

variable (poly : BitVec w)

lemma shift_of_even {c : BitVec w} (h : c.getLsbD 0 = false) : shift poly c = c >>> 1 := by
  simp [shift, h]

lemma shift_of_odd {c : BitVec w} (h : c.getLsbD 0 = true) :
    shift poly c = (c >>> 1) ^^^ poly := by
  simp [shift, h]

/-- A bit of the message enters a register that shifts to the right. -/
def feed (c : BitVec w) (b : Bool) : BitVec w :=
  (c >>> 1) ^^^ if c.getLsbD 0 ^^ b then poly else 0

/-- A message does. -/
def serial (c : BitVec w) (bits : List Bool) : BitVec w :=
  bits.foldl (feed poly) c

/-- The message can be in the register before the shift. -/
lemma feed_eq (c : BitVec w) (b : Bool) : feed poly c b = shift poly (c ^^^ pack [b]) := by
  have hgone : (c ^^^ pack [b]) >>> 1 = c >>> 1 := by
    refine BitVec.eq_of_getLsbD_eq fun i _ => ?_
    simp [BitVec.getLsbD_ushiftRight, getLsbD_pack, Nat.add_comm 1 i]
  rcases Nat.eq_zero_or_pos w with rfl | hw
  · exact Subsingleton.elim _ _
  · have hlow : (c ^^^ pack [b]).getLsbD 0 = (c.getLsbD 0 ^^ b) := by
      rw [BitVec.getLsbD_xor, getLsbD_pack, decide_eq_true hw]
      rfl
    rw [feed, shift, hgone, hlow]

/-- So can all of a message that fits. -/
lemma serial_eq_shifts {bits : List Bool} (hfit : bits.length ≤ w) (c : BitVec w) :
    serial poly c bits = shifts poly bits.length (c ^^^ pack bits) := by
  induction bits generalizing c with
  | nil =>
    have hzero : (pack [] : BitVec w) = 0#w :=
      BitVec.eq_of_getLsbD_eq fun i _ => by simp [getLsbD_pack]
    rw [hzero, BitVec.xor_zero]
    rfl
  | cons b bits ih =>
    have hlt : bits.length < w := hfit
    -- there is room for one more bit below those that are in the register
    have hroom : shift poly (pack bits <<< 1) = pack bits := by
      refine BitVec.eq_of_getLsbD_eq fun i hi => ?_
      have hlow : (pack bits <<< 1 : BitVec w).getLsbD 0 = false := by
        simp [BitVec.getLsbD_shiftLeft]
      rw [shift_of_even poly hlow, BitVec.getLsbD_ushiftRight, BitVec.getLsbD_shiftLeft,
        Nat.add_sub_cancel_left, getLsbD_pack, decide_eq_true hi]
      by_cases hnext : 1 + i < w
      · simp [hnext]
      · have hend : bits.length ≤ i := by omega
        simp [hnext, hend]
    calc serial poly c (b :: bits) = serial poly (shift poly (c ^^^ pack [b])) bits := by
          rw [← feed_eq]
          rfl
      _ = shifts poly bits.length (shift poly (c ^^^ pack [b]) ^^^ pack bits) :=
          ih (Nat.le_of_lt hlt) _
      _ = shifts poly bits.length (shift poly (c ^^^ pack (b :: bits))) := by
          rw [pack_cons b bits, ← BitVec.xor_assoc, shift_xor poly (c ^^^ pack [b]), hroom]

/-- A message in parts. -/
lemma serial_append (c : BitVec w) (us vs : List Bool) :
    serial poly c (us ++ vs) = serial poly (serial poly c us) vs :=
  List.foldl_append

end

/-! ### Nothing is lost -/

section

variable {poly : BitVec w}

/-- A polynomial with its top bit set leaves its mark there. -/
lemma shift_eq_zero (hpoly : poly.msb = true) {c : BitVec w} (h : shift poly c = 0#w) :
    c = 0#w := by
  have htop : (c >>> 1).msb = false := by simp
  have hlow : c.getLsbD 0 = false := by
    rw [← Bool.not_eq_true]
    intro hone
    have hmsb := congrArg BitVec.msb h
    rw [shift_of_odd poly hone, BitVec.msb_xor, htop, hpoly] at hmsb
    simp at hmsb
  rw [shift_of_even poly hlow] at h
  refine BitVec.eq_of_getLsbD_eq fun i hi => ?_
  cases i with
  | zero => simpa using hlow
  | succ i =>
    have hbit := congrArg (fun x => x.getLsbD i) h
    simpa [BitVec.getLsbD_ushiftRight, Nat.add_comm 1 i] using hbit

lemma shift_injective (hpoly : poly.msb = true) : Function.Injective (shift poly) := by
  intro x y h
  have hzero : shift poly (x ^^^ y) = 0#w := by
    rw [shift_xor, h, BitVec.xor_self]
  exact BitVec.xor_eq_zero_iff.mp (shift_eq_zero hpoly hzero)

lemma shifts_injective (hpoly : poly.msb = true) (n : ℕ) : Function.Injective (shifts poly n) := by
  induction n with
  | zero => exact fun _ _ h => h
  | succ n ih => exact fun x y h => shift_injective hpoly (ih h)

/-- The register can be read back from what a message has made of it. -/
lemma serial_injective (hpoly : poly.msb = true) (bits : List Bool) :
    Function.Injective fun c => serial poly c bits := by
  induction bits with
  | nil => exact fun _ _ h => h
  | cons b bits ih =>
    intro c c' h
    have hfeed : feed poly c b = feed poly c' b := ih h
    rw [feed_eq, feed_eq] at hfeed
    exact (BitVec.xor_left_inj _).mp (shift_injective hpoly hfeed)

/-- A burst no longer than the register changes it. -/
theorem serial_ne_of_burst (hpoly : poly.msb = true) {xs ys : List Bool} (h : Burst w xs ys)
    (c : BitVec w) : serial poly c xs ≠ serial poly c ys := by
  obtain ⟨before, us, vs, after, rfl, rfl, hlen, hfit, hne⟩ := h.split
  intro heq
  rw [serial_append, serial_append, serial_append, serial_append] at heq
  have hwindow := serial_injective hpoly after heq
  have hfit' : vs.length ≤ w := hlen ▸ hfit
  simp only [serial_eq_shifts poly hfit (serial poly c before),
    serial_eq_shifts poly hfit' (serial poly c before), hlen] at hwindow
  have hpack := (BitVec.xor_right_inj _).mp (shifts_injective hpoly _ hwindow)
  exact hne (pack_injective hlen hfit hpack)

end

/-! ### Tables -/

/-- A word of the message at a time: the low bits of the register meet it in a table, and the rest
moves down. -/
theorem serial_bitsLsb (poly : BitVec w) {n : ℕ} (hn : n ≤ w) (c : BitVec w) (x : BitVec n) :
    serial poly c (bitsLsb x) =
      serial poly 0 (bitsLsb (c.setWidth n ^^^ x)) ^^^ (c >>> n) := by
  have hlow : low n (c ^^^ x.setWidth w) = 0 ^^^ (c.setWidth n ^^^ x).setWidth w := by
    refine BitVec.eq_of_getLsbD_eq fun i hi => ?_
    rw [getLsbD_low]
    by_cases hi' : i < n
    · simp [hi, hi']
    · simp [hi', BitVec.getLsbD_of_ge x i (Nat.le_of_not_lt hi')]
  have hhigh : (c ^^^ x.setWidth w) >>> n = c >>> n := by
    refine BitVec.eq_of_getLsbD_eq fun i _ => ?_
    simp [BitVec.getLsbD_ushiftRight]
  have hlen (y : BitVec n) : (bitsLsb y).length ≤ w := by rwa [bitsLsb_length]
  rw [serial_eq_shifts poly (hlen _), serial_eq_shifts poly (hlen _), bitsLsb_length,
    bitsLsb_length, pack_bitsLsb, pack_bitsLsb, shifts_eq, hlow, hhigh]

/-! ### Most significant bit first -/

section

variable (poly : BitVec w)

/-- A bit of the message enters a register that shifts to the left. -/
def feedMsb (c : BitVec w) (b : Bool) : BitVec w :=
  (c <<< 1) ^^^ if c.msb ^^ b then poly else 0

/-- A message does. -/
def serialMsb (c : BitVec w) (bits : List Bool) : BitVec w :=
  bits.foldl (feedMsb poly) c

lemma reverse_xor (x y : BitVec w) : (x ^^^ y).reverse = x.reverse ^^^ y.reverse := by
  refine BitVec.eq_of_getLsbD_eq fun i _ => ?_
  simp only [BitVec.getLsbD_reverse, BitVec.getLsbD_xor, BitVec.getMsbD_xor]

lemma reverse_ushiftRight (x : BitVec w) (n : ℕ) : (x >>> n).reverse = x.reverse <<< n := by
  refine BitVec.eq_of_getLsbD_eq fun i hi => ?_
  rw [BitVec.getLsbD_reverse, BitVec.getLsbD_shiftLeft, BitVec.getLsbD_reverse,
    BitVec.getMsbD_ushiftRight]
  by_cases hin : i < n
  · simp [hin]
  · simp [hi, hin]

/-- The mirror image. -/
lemma feedMsb_eq (c : BitVec w) (b : Bool) :
    feedMsb poly c b = (feed poly.reverse c.reverse b).reverse := by
  have hlow : c.reverse.getLsbD 0 = c.msb := BitVec.getLsbD_reverse
  rw [feed, reverse_xor, reverse_ushiftRight, BitVec.reverse_reverse_eq, hlow, feedMsb]
  by_cases hbit : (c.msb ^^ b) = true
  · rw [if_pos hbit, if_pos hbit, BitVec.reverse_reverse_eq]
  · rw [if_neg hbit, if_neg hbit]
    congr 1
    exact BitVec.eq_of_getLsbD_eq fun i _ => by simp [BitVec.getLsbD_reverse]

lemma serialMsb_eq (c : BitVec w) (bits : List Bool) :
    serialMsb poly c bits = (serial poly.reverse c.reverse bits).reverse := by
  induction bits generalizing c with
  | nil => exact BitVec.reverse_reverse_eq.symm
  | cons b bits ih =>
    have hstep := ih (feedMsb poly c b)
    rw [feedMsb_eq, BitVec.reverse_reverse_eq] at hstep
    rw [← feedMsb_eq] at hstep
    exact hstep

variable {poly}

/-- A burst no longer than the register changes it. -/
theorem serialMsb_ne_of_burst (hpoly : poly.getLsbD 0 = true) {xs ys : List Bool}
    (h : Burst w xs ys) (c : BitVec w) : serialMsb poly c xs ≠ serialMsb poly c ys := by
  have hmsb : poly.reverse.msb = true := BitVec.msb_reverse.trans hpoly
  intro heq
  rw [serialMsb_eq, serialMsb_eq] at heq
  have hrev := congrArg BitVec.reverse heq
  rw [BitVec.reverse_reverse_eq, BitVec.reverse_reverse_eq] at hrev
  exact serial_ne_of_burst hmsb h c.reverse hrev

/-- A word of the message at a time: the high bits of the register meet it in a table, and the rest
moves up. -/
theorem serialMsb_bitsMsb (poly : BitVec w) {n : ℕ} (hn : n ≤ w) (c : BitVec w) (x : BitVec n) :
    serialMsb poly c (bitsMsb x) =
      serialMsb poly 0 (bitsMsb ((c >>> (w - n)).setWidth n ^^^ x)) ^^^ (c <<< n) := by
  have htop : ((c >>> (w - n)).setWidth n).reverse = c.reverse.setWidth n := by
    refine BitVec.eq_of_getLsbD_eq fun i hi => ?_
    rw [BitVec.getLsbD_reverse, BitVec.getMsbD_eq_getLsbD, BitVec.getLsbD_setWidth,
      BitVec.getLsbD_setWidth, BitVec.getLsbD_ushiftRight, BitVec.getLsbD_reverse,
      BitVec.getMsbD_eq_getLsbD]
    have hsub : w - n + (n - 1 - i) = w - 1 - i := by omega
    have hlt : n - 1 - i < n := by omega
    simp [hi, hsub, hlt, Nat.lt_of_lt_of_le hi hn]
  have hzero : (0 : BitVec w).reverse = 0 :=
    BitVec.eq_of_getLsbD_eq fun i _ => by simp [BitVec.getLsbD_reverse]
  rw [serialMsb_eq, serialMsb_eq, bitsMsb_eq, bitsMsb_eq, reverse_xor, htop, hzero,
    serial_bitsLsb _ hn, reverse_xor, reverse_ushiftRight, BitVec.reverse_reverse_eq]

end

/-! ### Byte strings -/

lemma serial_bytesLsb (poly : BitVec w) (c : BitVec w) (data : List UInt8) :
    serial poly c (bytesLsb data) =
      data.foldl (fun c b => serial poly c (bitsLsb b.toBitVec)) c :=
  List.foldl_flatMap

lemma serialMsb_bytesMsb (poly : BitVec w) (c : BitVec w) (data : List UInt8) :
    serialMsb poly c (bytesMsb data) =
      data.foldl (fun c b => serialMsb poly c (bitsMsb b.toBitVec)) c :=
  List.foldl_flatMap

end Crc
