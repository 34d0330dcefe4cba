import Gd32Bridge.Transport.Spi

/-!
# A frame with zeros after it

On silicon a captured transaction can run on past the frame, reading zeros.  The decoder takes the
last two bytes for the check value and the two it had for payload.  Because the register of the
check is a byte queue, this goes unnoticed when the two check bytes are equal, and for one zero
byte when they are `00 00` or `EF 1F`.
-/

namespace Gd32Bridge

open Endian

/-- The table entry of a byte. -/
def crc16Entry (x : UInt8) : UInt16 := crc16Table.getD x.toNat 0

/-! ### The register as two bytes -/

/-- A half-word of two bytes, least significant first. -/
def half (lo hi : UInt8) : UInt16 := getLe16 [lo, hi] 0

lemma half_eq (lo hi : UInt8) : half lo hi = lo.toUInt16 ||| hi.toUInt16 <<< 8 := rfl

lemma half_inj {lo hi lo' hi' : UInt8} : half lo hi = half lo' hi' ↔ lo = lo' ∧ hi = hi' := by
  constructor
  · intro h
    have hbytes := congrArg crc16Bytes h
    rw [half, half, crc16Bytes_getLe16, crc16Bytes_getLe16] at hbytes
    simpa using hbytes
  · rintro ⟨rfl, rfl⟩
    rfl

/-- Every half-word is two bytes. -/
lemma exists_half (c : UInt16) : ∃ lo hi, c = half lo hi ∧ crc16Bytes c = [lo, hi] :=
  ⟨_, _, (getLe16_crc16Bytes c).symm, rfl⟩

/-- One round: the low byte moves up, the high byte meets the data in the table. -/
lemma crc16Step_half (lo hi b : UInt8) :
    crc16Step (half lo hi) b = half 0 lo ^^^ crc16Entry (hi ^^^ b) := by
  have hup : half lo hi <<< 8 = half 0 lo := by
    apply UInt16.toBitVec_inj.mp
    refine BitVec.eq_of_getLsbD_eq fun i hi => ?_
    simp only [half_eq, UInt16.toBitVec_or, UInt16.toBitVec_shiftLeft, UInt8.toBitVec_toUInt16]
    interval_cases i <;> simp
  have hidx : (((half lo hi >>> 8) ^^^ b.toUInt16) &&& 0xFF).toNat = (hi ^^^ b).toNat := by
    have hbyte : ((half lo hi >>> 8) ^^^ b.toUInt16) &&& 0xFF = (hi ^^^ b).toUInt16 := by
      apply UInt16.toBitVec_inj.mp
      refine BitVec.eq_of_getLsbD_eq fun i hi => ?_
      simp only [half_eq, UInt16.toBitVec_or, UInt16.toBitVec_shiftLeft, UInt16.toBitVec_shiftRight,
        UInt16.toBitVec_and, UInt16.toBitVec_xor, UInt8.toBitVec_toUInt16, UInt8.toBitVec_xor]
      interval_cases i <;> simp
    rw [hbyte]
    exact UInt8.toNat_toUInt16 _
  rw [crc16Step, hup, hidx, crc16Entry]

lemma half_xor (lo hi lo' hi' : UInt8) :
    half lo hi ^^^ half lo' hi' = half (lo ^^^ lo') (hi ^^^ hi') := by
  apply UInt16.toBitVec_inj.mp
  refine BitVec.eq_of_getLsbD_eq fun i hi => ?_
  simp only [half_eq, UInt16.toBitVec_or, UInt16.toBitVec_shiftLeft, UInt16.toBitVec_xor,
    UInt8.toBitVec_toUInt16, UInt8.toBitVec_xor]
  interval_cases i <;> simp

/-! ### The table -/

/-- Only the entry of zero ends in a zero byte. -/
lemma crc16Entry_low : ∀ x : UInt8, (crc16Bytes (crc16Entry x)).getD 0 0 = 0 → x = 0 := by
  intro x
  have h : ∀ n < 256, (crc16Bytes (crc16Table.getD n 0)).getD 0 0 = 0 → n = 0 := by
    decide +kernel
  intro hx
  exact UInt8.toNat_inj.mp (h x.toNat x.toNat_lt hx)

/-- The entries whose two bytes add up to their index. -/
lemma crc16Entry_fixed : ∀ x : UInt8,
    (crc16Bytes (crc16Entry x)).getD 0 0 ^^^ (crc16Bytes (crc16Entry x)).getD 1 0 = x →
      x = 0 ∨ x = 0xF0 := by
  intro x
  have h : ∀ n < 256, (crc16Bytes (crc16Table.getD n 0)).getD 0 0 ^^^
      (crc16Bytes (crc16Table.getD n 0)).getD 1 0 = .ofNat n → n = 0 ∨ n = 0xF0 := by
    decide +kernel
  intro hx
  rcases h x.toNat x.toNat_lt (hx.trans UInt8.ofNat_toNat.symm) with h0 | h0
  · exact .inl (UInt8.toNat_inj.mp h0)
  · exact .inr (UInt8.toNat_inj.mp h0)

lemma crc16Entry_zero : crc16Entry 0 = half 0 0 := by decide +kernel

/-- The bytes of an entry. -/
lemma exists_crc16Entry (x : UInt8) :
    ∃ lo hi, crc16Entry x = half lo hi ∧ (lo = 0 → x = 0) ∧ (lo ^^^ hi = x → x = 0 ∨ x = 0xF0) := by
  obtain ⟨lo, hi, hx, hbytes⟩ := exists_half (crc16Entry x)
  refine ⟨lo, hi, hx, fun h0 => ?_, fun hsum => ?_⟩
  · apply crc16Entry_low
    rw [hbytes]
    exact h0
  · apply crc16Entry_fixed
    rw [hbytes]
    exact hsum

/-! ### What a zero does to the check -/

/-- A round ends at zero exactly when it consumes its own high byte over an empty low byte. -/
lemma crc16Step_eq_zero {lo hi b : UInt8} :
    crc16Step (half lo hi) b = half 0 0 ↔ lo = 0 ∧ hi = b := by
  rw [crc16Step_half]
  constructor
  · intro h
    obtain ⟨l, u, hx, hlow, -⟩ := exists_crc16Entry (hi ^^^ b)
    rw [hx, half_xor, half_inj, UInt8.zero_xor] at h
    have hhi : hi = b := UInt8.xor_eq_zero_iff.mp (hlow h.1)
    rw [hhi, UInt8.xor_self, crc16Entry_zero, half_inj] at hx
    rw [← hx.2, UInt8.xor_zero] at h
    exact ⟨h.2, hhi⟩
  · rintro ⟨rfl, rfl⟩
    rw [UInt8.xor_self, crc16Entry_zero, half_xor]
    rfl

/-- Zeros neither clear the register nor disturb a cleared one. -/
lemma foldl_zeros_eq_zero (c : UInt16) (n : ℕ) :
    (List.replicate n 0).foldl crc16Step c = half 0 0 ↔ c = half 0 0 := by
  induction n generalizing c with
  | zero => exact Iff.rfl
  | succ n ih =>
    obtain ⟨lo, hi, rfl, -⟩ := exists_half c
    rw [List.replicate_succ, List.foldl_cons, ih, crc16Step_eq_zero, half_inj]

/-- Consuming the two bytes of the register, least significant first, clears it when they are
equal and only then. -/
lemma foldl_own_bytes_eq_zero (lo hi : UInt8) :
    [lo, hi].foldl crc16Step (half lo hi) = half 0 0 ↔ lo = hi := by
  simp only [List.foldl_cons, List.foldl_nil]
  obtain ⟨l, u, hx, hlow, -⟩ := exists_crc16Entry (hi ^^^ lo)
  rw [crc16Step_half lo hi lo, hx, half_xor, crc16Step_eq_zero, UInt8.zero_xor]
  constructor
  · rintro ⟨hl, -⟩
    exact (UInt8.xor_eq_zero_iff.mp (hlow hl)).symm
  · rintro rfl
    rw [UInt8.xor_self, crc16Entry_zero, half_inj] at hx
    rw [← hx.1, ← hx.2]
    exact ⟨rfl, UInt8.xor_zero⟩

/-- Consuming the low byte leaves the high byte in two cases. -/
lemma crc16Step_own_low (lo hi : UInt8) :
    crc16Step (half lo hi) lo = half hi 0 ↔
      half lo hi = half 0 0 ∨ half lo hi = half 0xEF 0x1F := by
  rw [crc16Step_half]
  constructor
  · intro h
    obtain ⟨l, u, hx, -, hfix⟩ := exists_crc16Entry (hi ^^^ lo)
    rw [hx, half_xor, half_inj, UInt8.zero_xor] at h
    obtain ⟨rfl, hu⟩ := h
    have hlu : u = lo := (UInt8.xor_eq_zero_iff.mp hu).symm
    rw [hlu] at hx hfix
    rcases hfix rfl with h0 | h0
    · rw [h0, crc16Entry_zero, half_inj] at hx
      left
      rw [← hx.1, ← hx.2]
    · have hentry : crc16Entry 0xF0 = half 0x1F 0xEF := by decide +kernel
      rw [h0, hentry, half_inj] at hx
      right
      rw [← hx.1, ← hx.2]
  · rintro (h | h)
    · obtain ⟨rfl, rfl⟩ := half_inj.mp h
      decide +kernel
    · obtain ⟨rfl, rfl⟩ := half_inj.mp h
      decide +kernel

/-! ### The extended capture -/

variable (cmd : UInt8) (payload : List UInt8) (k : ℕ)

/-- The check value of a request. -/
def requestCrc : UInt16 := crc16CcittFalse (sof :: cmd :: payload)

/-- The payload the decoder sees in a frame with `k` zeros after it. -/
def extendedPayload : List UInt8 :=
  (payload ++ crc16Bytes (requestCrc cmd payload) ++ List.replicate k 0).take (payload.length + k)

/-- The frame keeps a valid check under `k` zeros. -/
def Survives : Prop :=
  if k = 1 then requestCrc cmd payload = 0x0000 ∨ requestCrc cmd payload = 0x1FEF
  else (requestCrc cmd payload &&& 0xFF).toUInt8 = ((requestCrc cmd payload >>> 8) &&& 0xFF).toUInt8

instance : Decidable (Survives cmd payload k) := by
  unfold Survives
  infer_instance

variable {cmd payload k}

@[simp]
lemma extendedPayload_length :
    (extendedPayload cmd payload k).length = payload.length + k := by
  simp only [extendedPayload, crc16Bytes, List.length_take, List.length_append,
    List.length_replicate, List.length_cons, List.length_nil]
  omega

/-- The decoder on a capture whose last two bytes are read as the check value. -/
lemma spiDecode_of_crc {S : Prop} [Decidable S] {p : List UInt8} {c₀ c₁ : UInt8}
    (h : S ↔ crc16CcittFalse (sof :: cmd :: p) = half c₀ c₁) :
    spiDecode (sof :: cmd :: p ++ [c₀, c₁]) = if S then .request cmd p else .malformed := by
  rw [spiDecode_frame]
  by_cases hS : S
  · rw [if_pos hS]
    exact if_neg (not_not.mpr (h.mp hS).symm)
  · rw [if_neg hS]
    exact if_pos fun heq => hS (h.mpr heq.symm)

/-- The extended frame is decoded when it survives, with the longer payload. -/
theorem spiDecode_extended (hk : 1 ≤ k) :
    spiDecode (spiEnvelope cmd payload ++ List.replicate k 0) =
      if Survives cmd payload k then .request cmd (extendedPayload cmd payload k)
      else .malformed := by
  obtain ⟨lo, hi, hcrc, hbytes⟩ := exists_half (requestCrc cmd payload)
  have hlo : (requestCrc cmd payload &&& 0xFF).toUInt8 = lo := congrArg (·.getD 0 0) hbytes
  have hhi : ((requestCrc cmd payload >>> 8) &&& 0xFF).toUInt8 = hi := congrArg (·.getD 1 0) hbytes
  have henv : spiEnvelope cmd payload = sof :: cmd :: payload ++ [lo, hi] := by
    rw [← hbytes]
    rfl
  have hfold (tail : List UInt8) : crc16CcittFalse (sof :: cmd :: (payload ++ tail)) =
      tail.foldl crc16Step (half lo hi) := by
    rw [← hcrc, requestCrc, crc16CcittFalse, crc16CcittFalse, ← List.foldl_append]
    rfl
  obtain ⟨n, rfl⟩ := Nat.exists_eq_add_of_le' hk
  cases n with
  | zero =>
    -- one zero: the low check byte becomes payload, the high one is read with the zero
    have hpay : extendedPayload cmd payload 1 = payload ++ [lo] := by
      rw [extendedPayload, hbytes, List.append_assoc, List.take_length_add_append]
      rfl
    have hcap : spiEnvelope cmd payload ++ List.replicate 1 0 =
        sof :: cmd :: (payload ++ [lo]) ++ [hi, 0] := by
      rw [henv]
      simp
    rw [hcap, hpay]
    apply spiDecode_of_crc
    rw [Survives, if_pos rfl, hfold, hcrc]
    exact (crc16Step_own_low lo hi).symm
  | succ m =>
    -- both check bytes become payload, the check is read from the zeros
    have hpay : extendedPayload cmd payload (m + 2) =
        payload ++ ([lo, hi] ++ List.replicate m 0) := by
      rw [extendedPayload, hbytes, List.append_assoc, List.take_length_add_append]
      simp [List.take_replicate]
    have hcap : spiEnvelope cmd payload ++ List.replicate (m + 2) 0 =
        sof :: cmd :: (payload ++ ([lo, hi] ++ List.replicate m 0)) ++ [0, 0] := by
      have hzeros : List.replicate (m + 2) (0 : UInt8) = List.replicate m 0 ++ [0, 0] := by
        rw [List.replicate_add]
        rfl
      rw [henv, hzeros]
      simp
    rw [hcap, hpay]
    apply spiDecode_of_crc
    rw [Survives, if_neg (by omega), hlo, hhi, hfold, List.foldl_append, foldl_zeros_eq_zero]
    exact (foldl_own_bytes_eq_zero lo hi).symm

end Gd32Bridge
