import Gd32Bridge.Ota.Basic

/-!
# The build-time marker gate (`tools/check_trial_marker.py`)

The build refuses an image without a trial marker, by a scan of its own over the image file.  It has
to refuse what OTA_COMMIT refuses: otherwise a built image cannot be installed, or an image that
cannot be installed is shipped.
-/

namespace Gd32Bridge

open Endian

namespace Factory

variable {img window : List UInt8}

/-- The magic bytes stand at `off`. -/
def magicAt (image : List UInt8) (off : ℕ) : Bool :=
  (image.drop off).take 16 == otaTrialMarkerMagic

/-- The loop of `find_marker`: the offset, `struct_version` and `capability_flags` of the first
marker. -/
def findMarkerFrom (window : List UInt8) (off : ℕ) : Option (ℕ × UInt16 × UInt16) :=
  if off + otaTrialMarkerSize ≤ window.length then
    if magicAt window off then
      some (off, getLe16 window (off + 16), getLe16 window (off + 18))
    else findMarkerFrom window (off + 4)
  else none
termination_by window.length - off
decreasing_by
  simp only [otaTrialMarkerSize] at *
  omega

/-- `find_marker` -/
def findMarker (image : List UInt8) : Option (ℕ × UInt16 × UInt16) :=
  findMarkerFrom (image.take otaTrialScanLimit) otaTrialMarkerMinOffset

/-- `check` without an ELF file: its exit code. -/
def check (image : List UInt8) : ℕ :=
  match findMarker image with
  | none => 1
  | some (_, structVer, cap) =>
    if structVer ≠ otaTrialMarkerStructVer then 1
    else if cap &&& otaTrialCapConfirm = 0 then 1
    else 0

/-! ### The two scans -/

/-- An offset of the scan from `start` on at which the marker stands. -/
def hit (window : List UInt8) (start off : ℕ) : Bool :=
  (start ≤ off && off % 4 == 0 && off + otaTrialMarkerSize ≤ window.length) && magicAt window off

/-- At the first hit a whole marker fits. -/
lemma fits_of_find {start off : ℕ}
    (h : (List.range window.length).find? (hit window start) = some off) :
    off + otaTrialMarkerSize ≤ window.length := by
  have hhit := List.find?_some h
  simp only [hit, Bool.and_eq_true, decide_eq_true_eq] at hhit
  exact hhit.1.2

/-- The loop finds the first hit. -/
lemma findMarkerFrom_eq (off : ℕ) (h4 : off % 4 = 0) :
    findMarkerFrom window off = ((List.range window.length).find? (hit window off)).map
      fun i => (i, getLe16 window (i + 16), getLe16 window (i + 18)) := by
  fun_induction findMarkerFrom window off with
  | case1 off hfits hmagic =>
    have hfirst : (List.range window.length).find? (hit window off) = some off := by
      rw [List.find?_range_eq_some]
      refine ⟨?_, ?_, fun j hj => ?_⟩
      · simp [hit, h4, hfits, hmagic]
      · simp only [List.mem_range, otaTrialMarkerSize] at hfits ⊢
        omega
      · simp [hit, Nat.not_le.mpr hj]
    rw [hfirst]
    rfl
  | case2 off hfits hmagic ih =>
    rw [ih (by omega)]
    -- the offset that was tried is no hit, so the scan may start at the next one
    have hnext : hit window off = hit window (off + 4) := by
      funext i
      rw [Bool.eq_iff_iff]
      simp only [hit, Bool.and_eq_true, decide_eq_true_eq, beq_iff_eq]
      constructor
      · rintro ⟨⟨⟨hle, hmod⟩, hfit⟩, hm⟩
        have hne : i ≠ off := fun heq => hmagic (heq ▸ hm)
        exact ⟨⟨⟨by omega, hmod⟩, hfit⟩, hm⟩
      · rintro ⟨⟨⟨hle, hmod⟩, hfit⟩, hm⟩
        exact ⟨⟨⟨by omega, hmod⟩, hfit⟩, hm⟩
    rw [hnext]
  | case3 off hfits =>
    have hnone : (List.range window.length).find? (hit window off) = none := by
      rw [List.find?_eq_none]
      intro i _
      simp only [hit, Bool.and_eq_true, decide_eq_true_eq, not_and]
      intro h
      omega
    rw [hnone]
    rfl

/-- Inside the window the image and the window agree. -/
lemma take_drop_take {n i m : ℕ} (h : i + m ≤ (img.take n).length) :
    ((img.take n).drop i).take m = (img.drop i).take m := by
  rw [List.length_take] at h
  rw [List.drop_take, List.take_take, Nat.min_eq_left (by omega)]

lemma getLe16_take {n i : ℕ} (h : i + 2 ≤ (img.take n).length) :
    getLe16 (img.take n) i = getLe16 img i := by
  have hget (j : ℕ) (hj : j < (img.take n).length) : (img.take n).getD j 0 = img.getD j 0 := by
    rw [List.length_take] at hj
    rw [List.getD_eq_getElem?_getD, List.getD_eq_getElem?_getD, List.getElem?_take_of_lt (by omega)]
  rw [getLe16, getLe16, hget _ (by omega), hget _ (by omega)]

/-- The firmware's scan finds the same offset. -/
lemma trialScan_eq {len : UInt32} (hlen : len.toNat = img.length) :
    (trialScanOffsets (min len.toNat otaTrialScanLimit)).find? (fun off =>
        (img.drop off).take 16 == otaTrialMarkerMagic) =
      (List.range (img.take otaTrialScanLimit).length).find?
        (hit (img.take otaTrialScanLimit) otaTrialMarkerMinOffset) := by
  have hwindow : min len.toNat otaTrialScanLimit = (img.take otaTrialScanLimit).length := by
    rw [List.length_take, hlen, Nat.min_comm]
  rw [hwindow, trialScanOffsets, List.find?_filter]
  congr 1
  funext off
  rw [Bool.eq_iff_iff]
  simp only [hit, magicAt, Bool.and_eq_true, decide_eq_true_eq]
  -- at an offset that fits, both look at the same sixteen bytes
  refine and_congr_right fun hscan => ?_
  have hfit : off + 16 ≤ (img.take otaTrialScanLimit).length :=
    Nat.le_trans (Nat.add_le_add_left (by decide) off) hscan.2
  rw [take_drop_take hfit]

/-- What is decided about a marker that has been found. -/
lemma check_eq_zero_iff : check img = 0 ↔
    ∃ off ver cap, findMarker img = some (off, ver, cap) ∧ ver = otaTrialMarkerStructVer ∧
      cap &&& otaTrialCapConfirm ≠ 0 := by
  simp only [check]
  cases hfind : findMarker img with
  | none => simp
  | some found =>
    obtain ⟨off, ver, cap⟩ := found
    simp only [Option.some.injEq, Prod.mk.injEq]
    split_ifs with hver hcap
    · simp [hver]
    · simp [hcap]
    · simpa [not_not.mp hver] using hcap

lemma otaImageTrialCapable_iff {len : UInt32} (hlen : len.toNat = img.length) :
    otaImageTrialCapable img len = true ↔
      ∃ off, (List.range (img.take otaTrialScanLimit).length).find?
          (hit (img.take otaTrialScanLimit) otaTrialMarkerMinOffset) = some off ∧
        getLe16 img (off + 16) = otaTrialMarkerStructVer ∧
        getLe16 img (off + 18) &&& otaTrialCapConfirm ≠ 0 := by
  simp only [otaImageTrialCapable]
  rw [trialScan_eq hlen]
  cases hfind : (List.range (img.take otaTrialScanLimit).length).find?
      (hit (img.take otaTrialScanLimit) otaTrialMarkerMinOffset) with
  | none => simp
  | some off =>
    -- a hit means that the window is long enough
    have hfit := fits_of_find hfind
    rw [List.length_take, Nat.min_comm, ← hlen] at hfit
    rw [if_neg (by omega)]
    simp only [Option.some.injEq, exists_eq_left']
    split_ifs with hver
    · simp [hver]
    · simp [not_not.mp hver]

/-- The gate and the firmware agree on every image. -/
lemma check_eq_zero_iff_capable {len : UInt32} (hlen : len.toNat = img.length) :
    check img = 0 ↔ otaImageTrialCapable img len = true := by
  rw [check_eq_zero_iff, otaImageTrialCapable_iff hlen, findMarker, findMarkerFrom_eq _ (by decide)]
  constructor
  · rintro ⟨off, ver, cap, hfound, hver, hcap⟩
    obtain ⟨i, hi, heq⟩ := Option.map_eq_some_iff.mp hfound
    have hfit := fits_of_find hi
    simp only [Prod.mk.injEq, otaTrialMarkerSize] at heq hfit
    rw [getLe16_take (by omega), getLe16_take (by omega)] at heq
    obtain ⟨rfl, rfl, rfl⟩ := heq
    exact ⟨i, hi, hver, hcap⟩
  · rintro ⟨i, hi, hver, hcap⟩
    have hfit := fits_of_find hi
    simp only [otaTrialMarkerSize] at hfit
    refine ⟨i, _, _, Option.map_eq_some_iff.mpr ⟨i, hi, rfl⟩, ?_, ?_⟩
    · rw [getLe16_take (by omega)]
      exact hver
    · rw [getLe16_take (by omega)]
      exact hcap

/-- OTA_COMMIT refuses an image that has passed the earlier checks for want of a marker exactly when
the image is not trial-capable. -/
lemma hCommit_refuses_iff {o : Ota} (hstate : o.sess.state = .verified)
    (hrange : ¬ (o.sess.imgLen = 0 ∨ o.sess.imgLen > otaSlotSize))
    (hboot : otaImageBootable o.inactiveBase
      (o.board.flash.bytes o.inactiveBase o.sess.imgLen.toNat) o.sess.imgLen = true) :
    hCommit o = (o.fail .notTrialCapable, .reply .inval []) ↔
      ¬ otaImageTrialCapable (o.board.flash.bytes o.inactiveBase o.sess.imgLen.toNat)
        o.sess.imgLen = true := by
  simp only [hCommit, hstate, ne_eq, not_true_eq_false, if_false, if_neg hrange, hboot,
    Bool.not_true, Bool.false_eq_true]
  by_cases hcap : otaImageTrialCapable
      (o.board.flash.bytes o.inactiveBase o.sess.imgLen.toNat) o.sess.imgLen = true
  · simp only [hcap, Bool.not_true, Bool.false_eq_true, if_false, not_true_eq_false, iff_false]
    intro h
    split at h
    · -- below the version floor: another cause is recorded
      have herr := congrArg (fun x => x.1.sess.err) h
      simp [Ota.fail] at herr
    · -- the other ends reset the device, lose power or answer IO
      have hout := congrArg Prod.snd h
      split at hout <;> cases hout
  · simp [hcap]

end Factory

/-- For every image whose length the firmware's argument can hold: the build gate passes it if and
only if the firmware finds it trial-capable, and OTA_COMMIT, when it has got that far, refuses it for
want of a marker if and only if the gate does not pass it. -/
theorem marker_gate_agrees (img : List UInt8) (len : UInt32) (hlen : len.toNat = img.length) :
    (Factory.check img = 0 ↔ otaImageTrialCapable img len = true) ∧
    ∀ o : Ota, o.sess.state = .verified → o.sess.imgLen = len →
      o.board.flash.bytes o.inactiveBase len.toNat = img → ¬ (len = 0 ∨ len > otaSlotSize) →
      otaImageBootable o.inactiveBase img len = true →
      (hCommit o = (o.fail .notTrialCapable, .reply .inval []) ↔ Factory.check img ≠ 0) := by
  have hagree := Factory.check_eq_zero_iff_capable hlen
  refine ⟨hagree, fun o hstate himg hbytes hrange hboot => ?_⟩
  subst himg
  rw [← hbytes] at hboot hagree ⊢
  rw [Factory.hCommit_refuses_iff hstate hrange hboot, ne_eq, hagree]

/-- A marker right after the core vectors, ending at the end of the image. -/
def markedImage : List UInt8 := List.replicate 64 0 ++ otaTrialMarkerMagic ++ [1, 0, 1, 0]

/-- It passes the gate. -/
theorem marker_gate_marked_image : Factory.check markedImage = 0 :=
  (marker_gate_agrees markedImage 84 rfl).1.mpr (by decide +kernel)

end Gd32Bridge
