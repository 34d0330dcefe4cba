import Gd32Bridge.Protocol.Basic

/-!
# The shape of a reply

The length is not carried on the wire: the host has to know from its request how long a
`STATUS_OK` reply is, and that every other reply is empty.  No request is answered with
`STATUS_NO_PENDING`, which belongs to the I2C link.
-/

namespace Gd32Bridge

open Endian

/-! ### Reply lengths -/

/-- The payload length of a `STATUS_OK` reply, from the opcode and the request. -/
def Opcode.replyLen (req : List UInt8) : Opcode → ℕ
  | getVersion => 3
  | getBuildId => 20
  | resetReason => 1
  | gpioRead => 4
  | pwmGet => 8
  | pwmCaptureRead => 8
  | adcRead => 1 + (req.getD 1 0).toNat * 2
  | adcStreamRead => 1 + (req.getD 1 0).toNat * 2
  | adcDspChainOpen => 1
  | adcSpectrumRead => 7 + (req.getD 3 0).toNat * 4
  | da9292Forward => 1
  | bootConfig => 4
  | dacGet => 2
  | qencRead => 4
  | counterRead => 4
  | trngRead => (req.getD 0 0).toNat
  | linkFeatures => 1
  | tmuCompute => 4
  | _ => 0

/-- A payload of length `len` that is left out when the capacity is too small. -/
def fitLen (len cap : ℕ) : ℕ :=
  if cap ≥ len then len else 0

/-- The same for the opcodes of `ota_dispatch`. -/
def otaReplyLen (cmd : UInt8) (cap : ℕ) : ℕ :=
  fitLen (if cmd = 0xF0 then 3 else if cmd = 0xF1 then 4 else if cmd = 0xF2 then 5
    else if cmd = 0xF5 then 6 else 0) cap

/-- The length for the whole command space. -/
def replyLen (cmd : UInt8) (req : List UInt8) (cap : ℕ) : ℕ :=
  match Opcode.ofByte cmd with
  | some op => op.replyLen req
  | none => otaReplyLen cmd cap

/-- A reply of the given length within the capacity if it is `STATUS_OK`, an empty one if not. -/
def Outcome.Shaped (len cap : ℕ) : Outcome → Prop
  | .reply st p => st ≠ .noPending ∧ (st = .ok → p.length = len ∧ len ≤ cap) ∧ (st ≠ .ok → p = [])
  | .reset => True
  | .powerLost => True

namespace Outcome

variable {len cap : ℕ}

lemma shaped_error {st : Status} (h : st ≠ .noPending) (hok : st ≠ .ok) :
    (reply st []).Shaped len cap :=
  ⟨h, fun h => absurd h hok, fun _ => rfl⟩

lemma shaped_ok {p : List UInt8} (hp : p.length = len) (hcap : len ≤ cap) :
    (reply .ok p).Shaped len cap :=
  ⟨by decide, fun _ => ⟨hp, hcap⟩, fun h => absurd rfl h⟩

/-- The replies of the OTA handlers. -/
lemma shaped_fitLen {n : ℕ} {p : List UInt8} (hp : p.length = n) :
    (reply .ok (if cap ≥ n then p else [])).Shaped (fitLen n cap) cap := by
  simp only [fitLen]
  split_ifs with hcap
  · exact shaped_ok hp hcap
  · exact shaped_ok rfl (Nat.zero_le _)

lemma shaped_ite {α : Type} {c : Prop} [Decidable c] {x y : α × Outcome}
    (hx : x.2.Shaped len cap) (hy : y.2.Shaped len cap) : (if c then x else y).2.Shaped len cap := by
  split
  · exact hx
  · exact hy

lemma Shaped.length_le {st : Status} {p : List UInt8} (h : (reply st p).Shaped len cap) :
    p.length ≤ cap := by
  obtain ⟨-, hok, herr⟩ := h
  by_cases hst : st = .ok
  · obtain ⟨hp, hcap⟩ := hok hst
    rw [hp]
    exact hcap
  · rw [herr hst]
    exact Nat.zero_le _

end Outcome

/-! ### OTA requests -/

section

variable (o : Ota) (req : List UInt8) (cap : ℕ)

lemma hBegin_shaped : (hBegin o req cap).2.Shaped (fitLen 3 cap) cap := by
  have harm : ∀ o' a, (beginArm o' a cap).2.Shaped (fitLen 3 cap) cap :=
    fun _ _ => Outcome.shaped_fitLen rfl
  simp only [hBegin, if_neg o.run.not_overlap]
  split
  · exact Outcome.shaped_error (by decide) (by decide)
  split
  · exact Outcome.shaped_error (by decide) (by decide)
  split
  · exact harm _ _
  split
  · exact Outcome.shaped_error (by decide) (by decide)
  split
  · exact Outcome.shaped_error (by decide) (by decide)
  split
  · exact harm _ _
  · exact Outcome.shaped_error (by decide) (by decide)
  · trivial

lemma hWrite_shaped : (hWrite o req cap).2.Shaped (fitLen 4 cap) cap := by
  have hack : ∀ o', (writeAck o' cap).2.Shaped (fitLen 4 cap) cap :=
    fun _ => Outcome.shaped_fitLen rfl
  simp only [hWrite]
  split
  · exact Outcome.shaped_error (by decide) (by decide)
  split
  · exact Outcome.shaped_error (by decide) (by decide)
  split
  · exact Outcome.shaped_error (by decide) (by decide)
  split
  · exact Outcome.shaped_error (by decide) (by decide)
  split
  · exact Outcome.shaped_error (by decide) (by decide)
  split
  · split
    · exact hack _
    · exact Outcome.shaped_error (by decide) (by decide)
  split
  · trivial
  · exact hack _
  · exact Outcome.shaped_error (by decide) (by decide)
  · exact Outcome.shaped_error (by decide) (by decide)

lemma hVerify_shaped : (hVerify o cap).2.Shaped (fitLen 5 cap) cap := by
  simp only [hVerify]
  split
  · exact Outcome.shaped_error (by decide) (by decide)
  split
  · exact Outcome.shaped_error (by decide) (by decide)
  · exact Outcome.shaped_fitLen rfl

lemma hCommit_shaped : (hCommit o).2.Shaped 0 cap := by
  simp only [hCommit]
  split
  · exact Outcome.shaped_error (by decide) (by decide)
  split
  · exact Outcome.shaped_error (by decide) (by decide)
  split
  · exact Outcome.shaped_error (by decide) (by decide)
  split
  · exact Outcome.shaped_error (by decide) (by decide)
  split
  · exact Outcome.shaped_error (by decide) (by decide)
  split
  · trivial
  · exact Outcome.shaped_error (by decide) (by decide)
  · trivial

lemma hRollback_shaped : (hRollback o).2.Shaped 0 cap := by
  simp only [hRollback]
  split
  · exact Outcome.shaped_error (by decide) (by decide)
  split
  · exact Outcome.shaped_error (by decide) (by decide)
  split
  · exact Outcome.shaped_error (by decide) (by decide)
  split
  · exact Outcome.shaped_error (by decide) (by decide)
  split
  · exact Outcome.shaped_error (by decide) (by decide)
  split
  · exact Outcome.shaped_error (by decide) (by decide)
  split
  · trivial
  · exact Outcome.shaped_error (by decide) (by decide)
  · trivial

lemma otaDispatch_shaped (cmd : UInt8) :
    (otaDispatch o cmd req cap).2.Shaped (otaReplyLen cmd cap) cap := by
  simp only [otaDispatch]
  split_ifs with h₀ h₁ h₂ h₃ h₄ h₅ h₆
  · subst h₀
    exact hBegin_shaped o req cap
  · subst h₁
    exact hWrite_shaped o req cap
  · subst h₂
    exact hVerify_shaped o cap
  · subst h₃
    exact hCommit_shaped o cap
  · subst h₄
    exact hRollback_shaped o cap
  · subst h₅
    exact Outcome.shaped_fitLen rfl
  · subst h₆
    exact Outcome.shaped_ok rfl (Nat.zero_le _)
  · exact Outcome.shaped_error (by decide) (by decide)

end

/-! ### The table -/

variable {σ : Type} (hal : Hal σ)

/-- A handler whose replies have the length `len`. -/
def Shaped (len : List UInt8 → ℕ) (h : Handler σ) : Prop :=
  ∀ d req cap, (h d req cap).2.Shaped (len req) cap

section

variable {len : List UInt8 → ℕ} {h : Handler σ}

lemma Shaped.exactLen (hf : Shaped len h) (n : ℕ) : Shaped len (exactLen n h) := by
  intro d req cap
  simp only [Gd32Bridge.exactLen]
  split_ifs
  · exact Outcome.shaped_error (by decide) (by decide)
  · exact hf d req cap

lemma Shaped.needCap {need : ℕ}
    (hf : ∀ d req cap, need ≤ cap → (h d req cap).2.Shaped (len req) cap) :
    Shaped len (needCap need h) := by
  intro d req cap
  simp only [Gd32Bridge.needCap]
  split_ifs with hcap
  · exact Outcome.shaped_error (by decide) (by decide)
  · exact hf d req cap (Nat.le_of_not_lt hcap)

end

lemma hwReply_shaped {α : Type} {d : Device σ} {r : HwResult σ α} {ladder : HwRv → Status}
    {payload : α → List UInt8} {len cap : ℕ} (hl : ∀ rv, ladder rv ≠ .noPending)
    (hp : (payload r.out).length = len) (hcap : len ≤ cap) :
    (hwReply d r ladder payload).2.Shaped len cap := by
  simp only [hwReply]
  split_ifs with hok
  · exact Outcome.shaped_ok hp hcap
  · exact Outcome.shaped_error (hl _) hok

lemma statusFromHw_ne (rv : HwRv) : statusFromHw rv ≠ .noPending := by cases rv <;> decide
lemma statusFromHw_eq_ok {rv : HwRv} : statusFromHw rv = .ok ↔ rv = .ok := by
  cases rv <;> decide
lemma statusIo_ne (rv : HwRv) : statusIo rv ≠ .noPending := by cases rv <;> decide
lemma statusInvalNotimpl_ne (rv : HwRv) : statusInvalNotimpl rv ≠ .noPending := by
  cases rv <;> decide
lemma statusInvalRangeNotimpl_ne (rv : HwRv) : statusInvalRangeNotimpl rv ≠ .noPending := by
  cases rv <;> decide
lemma statusNotimpl_ne (rv : HwRv) : statusNotimpl rv ≠ .noPending := by cases rv <;> decide
lemma statusNotimplBusy_ne (rv : HwRv) : statusNotimplBusy rv ≠ .noPending := by
  cases rv <;> decide

@[simp]
lemma sampleBytes_length (mv : ℕ → UInt16) (n : ℕ) : (sampleBytes mv n).length = 2 * n := by
  simp [sampleBytes, le16, List.length_flatMap, Nat.mul_comm]

lemma flatMap_le32_length (f : ℕ → UInt32) (n : ℕ) :
    ((List.range n).flatMap fun i => le32 (f i)).length = 4 * n := by
  simp [List.length_flatMap, Nat.mul_comm]

/-- The handlers with an empty payload on success. -/
lemma hwReply_shaped_nil {α : Type} {d : Device σ} {r : HwResult σ α} {ladder : HwRv → Status}
    {cap : ℕ} (hl : ∀ rv, ladder rv ≠ .noPending) :
    (hwReply d r ladder fun _ => []).2.Shaped 0 cap :=
  hwReply_shaped hl rfl (Nat.zero_le _)

/-- Every handler of the table answers with its length or with nothing. -/
theorem Opcode.handler_shaped (link : Link) (op : Opcode) :
    Shaped (fun req => op.replyLen req) (op.handler hal link) := by
  have herr : ∀ (st : Status) (d : Device σ) (len cap : ℕ), st ≠ .noPending → st ≠ .ok →
      (refuse d st).2.Shaped len cap := fun _ _ _ _ h hok => Outcome.shaped_error h hok
  have hans : ∀ (d : Device σ) (p : List UInt8) (len cap : ℕ), p.length = len → len ≤ cap →
      (answer d .ok p).2.Shaped len cap := fun _ _ _ _ hp h => Outcome.shaped_ok hp h
  cases op <;> simp only [Opcode.handler]
  case ping => exact Shaped.exactLen (fun d _ cap => hans d [] 0 cap rfl (Nat.zero_le _)) _
  case getVersion =>
    refine Shaped.exactLen (Shaped.needCap fun d req cap h => ?_) _
    exact hans _ _ _ _ rfl h
  case getBuildId =>
    refine Shaped.exactLen (Shaped.needCap fun d req cap h => ?_) _
    exact hans _ _ _ _ rfl h
  case resetReason =>
    refine Shaped.exactLen (Shaped.needCap fun d req cap h => ?_) _
    exact hans _ _ _ _ rfl h
  case da9292Forward =>
    refine Shaped.exactLen (Shaped.needCap fun d req cap h => ?_) _
    exact hans _ _ _ _ rfl h
  case linkFeatures =>
    refine Shaped.exactLen (Shaped.needCap fun d req cap h => ?_) _
    exact hans _ _ _ _ rfl h
  case gpioRead =>
    exact Shaped.exactLen (Shaped.needCap fun _ _ _ h => hwReply_shaped statusIo_ne rfl h) _
  case pwmGet =>
    exact Shaped.exactLen (Shaped.needCap fun _ _ _ h => hwReply_shaped statusFromHw_ne rfl h) _
  case pwmCaptureRead =>
    exact Shaped.exactLen (Shaped.needCap fun _ _ _ h => hwReply_shaped statusFromHw_ne rfl h) _
  case adcDspChainOpen =>
    exact Shaped.exactLen (Shaped.needCap fun _ _ _ h => hwReply_shaped statusFromHw_ne rfl h) _
  case dacGet =>
    exact Shaped.exactLen (Shaped.needCap fun _ _ _ h => hwReply_shaped statusInvalNotimpl_ne rfl h) _
  case qencRead =>
    exact Shaped.exactLen (Shaped.needCap fun _ _ _ h => hwReply_shaped statusInvalNotimpl_ne rfl h) _
  case counterRead =>
    exact Shaped.exactLen (Shaped.needCap fun _ _ _ h => hwReply_shaped statusInvalNotimpl_ne rfl h) _
  case tmuCompute =>
    refine Shaped.exactLen (Shaped.needCap fun _ _ _ h => ?_) _
    split_ifs
    · exact herr _ _ _ _ (by decide) (by decide)
    · exact herr _ _ _ _ (by decide) (by decide)
    · exact hwReply_shaped statusInvalRangeNotimpl_ne rfl h
  case bootConfig =>
    refine Shaped.exactLen (Shaped.needCap fun d req cap h => ?_) _
    simp only
    split_ifs
    · exact herr _ _ _ _ (by decide) (by decide)
    · exact herr _ _ _ _ (by decide) (by decide)
    · exact herr _ _ _ _ (by decide) (by decide)
    · exact herr _ _ _ _ (by decide) (by decide)
    · generalize bootConfigRequest d.cfg (getLe32 req 1) = x
      obtain ⟨c, v⟩ := x
      cases v
      · exact herr _ _ _ _ (by decide) (by decide)
      · exact hans _ _ _ _ rfl h
    · exact hans _ _ _ _ rfl h
  case adcRead =>
    refine Shaped.exactLen (fun d req cap => ?_) _
    simp only
    split_ifs with h₁ h₂ hcap
    · exact herr _ _ _ _ (by decide) (by decide)
    · exact herr _ _ _ _ (by decide) (by decide)
    · exact herr _ _ _ _ (by decide) (by decide)
    · refine hwReply_shaped statusFromHw_ne ?_ (Nat.le_of_not_lt hcap)
      simp only [List.length_cons, sampleBytes_length, Opcode.replyLen]
      omega
  case adcStreamRead =>
    refine Shaped.exactLen (fun d req cap => ?_) _
    simp only
    split_ifs with h₁ h₂ h₃ h₄ h₅ hcap
    · exact herr _ _ _ _ (by decide) (by decide)
    · exact herr _ _ _ _ (by decide) (by decide)
    · exact herr _ _ _ _ (by decide) (by decide)
    · exact herr _ _ _ _ (statusFromHw_ne _) h₄
    · exact herr _ _ _ _ (by decide) (by decide)
    · exact herr _ _ _ _ (by decide) (by decide)
    · refine hans _ _ _ _ ?_ (Nat.le_of_not_lt hcap)
      simp only [List.length_cons, sampleBytes_length, Opcode.replyLen]
      omega
  case adcSpectrumRead =>
    refine Shaped.exactLen (fun d req cap => ?_) _
    simp only
    split_ifs with h₁ h₂ h₃ h₄ h₅ hcap
    · exact herr _ _ _ _ (by decide) (by decide)
    · exact herr _ _ _ _ (by decide) (by decide)
    · exact herr _ _ _ _ (by decide) (by decide)
    · exact herr _ _ _ _ (statusNotimplBusy_ne _) h₄
    · exact herr _ _ _ _ (by decide) (by decide)
    · exact herr _ _ _ _ (by decide) (by decide)
    · refine hans _ _ _ _ ?_ (Nat.le_of_not_lt hcap)
      simp only [List.length_append, le32_length, le16, List.length_cons, List.length_nil,
        flatMap_le32_length, Opcode.replyLen]
      omega
  case trngRead =>
    refine Shaped.exactLen (fun d req cap => ?_) _
    simp only
    split_ifs with h₁ hcap
    · exact herr _ _ _ _ (by decide) (by decide)
    · exact herr _ _ _ _ (by decide) (by decide)
    · refine hwReply_shaped statusFromHw_ne ?_ (Nat.le_of_not_lt hcap)
      rw [List.length_map, List.length_range]
      rfl
  case adcDspStagePush =>
    intro d req cap
    simp only [handleAdcDspStagePush]
    split_ifs
    · exact herr _ _ _ _ (by decide) (by decide)
    · exact herr _ _ _ _ (by decide) (by decide)
    · exact herr _ _ _ _ (by decide) (by decide)
    · exact hwReply_shaped_nil statusFromHw_ne
  -- the remaining handlers check some fields and answer without a payload
  all_goals
    refine Shaped.exactLen (fun d req cap => ?_) _
    try simp only
    try split_ifs
    all_goals first
      | exact herr _ _ _ _ (by decide) (by decide)
      | exact hwReply_shaped_nil statusFromHw_ne
      | exact hwReply_shaped_nil statusIo_ne
      | exact hwReply_shaped_nil statusInvalNotimpl_ne
      | exact hwReply_shaped_nil statusInvalRangeNotimpl_ne
      | exact hwReply_shaped_nil statusNotimpl_ne

/-- The reply to a request has the length its opcode and payload give, or is empty. -/
theorem protocolDispatch_shaped (inFlight : Bool) (link : Link) (cmd : UInt8) (d : Device σ)
    (req : List UInt8) (cap : ℕ) :
    (protocolDispatch hal inFlight link cmd d req cap).2.Shaped (replyLen cmd req cap) cap := by
  simp only [protocolDispatch, protocolDispatchInner, replyLen]
  refine Outcome.shaped_ite (Outcome.shaped_error (by decide) (by decide)) ?_
  refine Outcome.shaped_ite (Outcome.shaped_error (by decide) (by decide)) ?_
  cases Opcode.ofByte cmd with
  | some op => exact op.handler_shaped hal link d req cap
  | none =>
    exact Outcome.shaped_ite (otaDispatch_shaped d.ota req cap cmd)
      (Outcome.shaped_error (by decide) (by decide))

/-! ### The reply buffer -/

/-- What `handle_adc_read` stores from the start of the buffer on: the count before it calls its
shim, the samples once the shim has delivered them. -/
def handleAdcReadStored (d : Device σ) (req : List UInt8) (cap : ℕ) : List UInt8 :=
  let samples := req.getD 1 0
  if req.length ≠ 2 then []
  else if samples = 0 then []
  else if samples > adcMaxSamples then []
  else if cap < 1 + samples.toNat * 2 then []
  else
    let r := hal.adcRead d.hw (req.getD 0 0) samples
    samples :: if r.rv = .ok then sampleBytes r.out samples.toNat else []

/-- What `handle_trng_read` stores: its shim is given the buffer and the length, and writes there
whatever its verdict. -/
def handleTrngReadStored (d : Device σ) (req : List UInt8) (cap : ℕ) : List UInt8 :=
  let want := req.getD 0 0
  if req.length ≠ 1 then []
  else if want = 0 ∨ want > 32 then []
  else if cap < want.toNat then []
  else (List.range want.toNat).map (hal.trngRead d.hw want).out

/-- The payload of a reply. -/
def Outcome.payload : Outcome → List UInt8
  | .reply _ p => p
  | .reset => []
  | .powerLost => []

/-- What the handlers store: the others store their payload once they answer `STATUS_OK`. -/
def Opcode.stored (link : Link) (op : Opcode) (d : Device σ) (req : List UInt8) (cap : ℕ) :
    List UInt8 :=
  match op with
  | adcRead => handleAdcReadStored hal d req cap
  | trngRead => handleTrngReadStored hal d req cap
  | op => (op.handler hal link d req cap).2.payload

/-- What a request stores, from the start of the reply buffer on. -/
def protocolStored (inFlight : Bool) (link : Link) (cmd : UInt8) (d : Device σ) (req : List UInt8)
    (cap : ℕ) : List UInt8 :=
  if inFlight then []
  else if d.ota.trial then []
  else
    match Opcode.ofByte cmd with
    | some op => op.stored hal link d req cap
    | none => (protocolDispatchInner hal link cmd d req cap).2.payload

lemma Outcome.Shaped.payload_length_le {out : Outcome} {len cap : ℕ} (h : out.Shaped len cap) :
    out.payload.length ≤ cap := by
  cases out with
  | reply st p => exact h.length_le
  | reset => exact Nat.zero_le _
  | powerLost => exact Nat.zero_le _

section

variable {hal} {d : Device σ} {req : List UInt8} {cap : ℕ} {p : List UInt8}

lemma handleAdcReadStored_length_le : (handleAdcReadStored hal d req cap).length ≤ cap := by
  simp only [handleAdcReadStored]
  split_ifs with h₁ h₂ h₃ hcap hok
  · exact Nat.zero_le _
  · exact Nat.zero_le _
  · exact Nat.zero_le _
  · exact Nat.zero_le _
  · rw [List.length_cons, sampleBytes_length]
    omega
  · rw [List.length_singleton]
    omega

lemma handleTrngReadStored_length_le : (handleTrngReadStored hal d req cap).length ≤ cap := by
  simp only [handleTrngReadStored]
  split_ifs with h₁ h₂ hcap
  · exact Nat.zero_le _
  · exact Nat.zero_le _
  · exact Nat.zero_le _
  · rw [List.length_map, List.length_range]
    exact Nat.le_of_not_lt hcap

lemma handleAdcReadStored_eq (h : (handleAdcRead hal d req cap).2 = .reply .ok p) :
    handleAdcReadStored hal d req cap = p := by
  simp only [handleAdcRead, exactLen, hwReply, refuse, answer, statusFromHw_eq_ok] at h
  simp only [handleAdcReadStored]
  split_ifs at h ⊢ with h₁ h₂ h₃ hcap hok
  · cases h
  · cases h
  · cases h
  · cases h
  · cases h
    rfl
  · have hst := (Outcome.reply.inj h).1
    exact absurd (statusFromHw_eq_ok.mp hst) hok

lemma handleTrngReadStored_eq (h : (handleTrngRead hal d req cap).2 = .reply .ok p) :
    handleTrngReadStored hal d req cap = p := by
  simp only [handleTrngRead, exactLen, hwReply, refuse, answer, statusFromHw_eq_ok] at h
  simp only [handleTrngReadStored]
  split_ifs at h ⊢ with h₁ h₂ hcap hok
  · cases h
  · cases h
  · cases h
  · cases h
    rfl
  · have hst := (Outcome.reply.inj h).1
    exact absurd (statusFromHw_eq_ok.mp hst) hok

/-- Nothing is stored past the capacity. -/
lemma protocolStored_length_le (inFlight : Bool) (link : Link) (cmd : UInt8) :
    (protocolStored hal inFlight link cmd d req cap).length ≤ cap := by
  simp only [protocolStored]
  split_ifs with hbusy htrial
  · exact Nat.zero_le _
  · exact Nat.zero_le _
  split
  · next op _ =>
    have hshape := (op.handler_shaped hal link d req cap).payload_length_le
    cases op with
    | adcRead => exact handleAdcReadStored_length_le
    | trngRead => exact handleTrngReadStored_length_le
    | _ => exact hshape
  · have hshape := protocolDispatch_shaped hal false link cmd d req cap
    exact hshape.payload_length_le

/-- With `STATUS_OK` the payload is what has been stored. -/
lemma protocolStored_eq {inFlight : Bool} {link : Link} {cmd : UInt8}
    (h : (protocolDispatch hal inFlight link cmd d req cap).2 = .reply .ok p) :
    protocolStored hal inFlight link cmd d req cap = p := by
  simp only [protocolDispatch] at h
  simp only [protocolStored]
  split_ifs at h ⊢ with hbusy htrial
  · cases h
  · rw [protocolDispatchInner, if_pos htrial] at h
    cases h
  split
  · next op hop =>
    simp only [protocolDispatchInner, if_neg htrial, hop] at h
    cases op with
    | adcRead => exact handleAdcReadStored_eq h
    | trngRead => exact handleTrngReadStored_eq h
    | _ => exact congrArg Outcome.payload h
  · rw [h]
    rfl

end

/-- For every opcode and payload, with the capacity of the transports: on every link, with every
shim and from every device state, the reply and what is stored of it stay within 65 bytes, a reply
other than `STATUS_OK` is empty, and with `STATUS_OK` it is what has been stored; and any two
`STATUS_OK` replies have the same length. -/
theorem reply_shape (cmd : UInt8) (req : List UInt8) :
    (∀ (σ : Type) (hal : Hal σ) (inFlight : Bool) (link : Link) (d : Device σ),
      (protocolStored hal inFlight link cmd d req maxPayloadBytes).length ≤ maxPayloadBytes ∧
      ∀ (st : Status) (p : List UInt8),
        (protocolDispatch hal inFlight link cmd d req maxPayloadBytes).2 = .reply st p →
          p.length ≤ maxPayloadBytes ∧ (st ≠ .ok → p = []) ∧
            (st = .ok → protocolStored hal inFlight link cmd d req maxPayloadBytes = p)) ∧
    ∀ (σ σ' : Type) (hal : Hal σ) (hal' : Hal σ') (inFlight inFlight' : Bool) (link link' : Link)
      (d : Device σ) (d' : Device σ') (p p' : List UInt8),
      (protocolDispatch hal inFlight link cmd d req maxPayloadBytes).2 = .reply .ok p →
      (protocolDispatch hal' inFlight' link' cmd d' req maxPayloadBytes).2 = .reply .ok p' →
        p.length = p'.length := by
  constructor
  · intro σ hal inFlight link d
    refine ⟨protocolStored_length_le inFlight link cmd, fun st p h => ?_⟩
    have hshape := protocolDispatch_shaped hal inFlight link cmd d req maxPayloadBytes
    rw [h] at hshape
    refine ⟨hshape.length_le, hshape.2.2, ?_⟩
    rintro rfl
    exact protocolStored_eq h
  · intro σ σ' hal hal' inFlight inFlight' link link' d d' p p' h h'
    have hshape := protocolDispatch_shaped hal inFlight link cmd d req maxPayloadBytes
    have hshape' := protocolDispatch_shaped hal' inFlight' link' cmd d' req maxPayloadBytes
    rw [h] at hshape
    rw [h'] at hshape'
    exact (hshape.2.1 rfl).1.trans (hshape'.2.1 rfl).1.symm

end Gd32Bridge
