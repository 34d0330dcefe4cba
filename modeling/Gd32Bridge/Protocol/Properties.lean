import Gd32Bridge.Ota.Rules
import Gd32Bridge.Protocol.Basic

/-!
# What a request can reach

The handlers of the command table keep out of the OTA state and always reply; the trial gate
lets nothing through; the rest is `ota_dispatch`.
-/

namespace Gd32Bridge

open Endian

variable {σ : Type} (hal : Hal σ)

/-- A handler that replies and changes the peripherals at most. -/
def Plain (h : Handler σ) : Prop :=
  ∀ d req cap, ∃ hw st p, h d req cap = ({ d with hw := hw }, .reply st p)

lemma Plain.exactLen {h : Handler σ} (hp : Plain h) (len : ℕ) : Plain (exactLen len h) := by
  intro d req cap
  simp only [Gd32Bridge.exactLen]
  split_ifs
  · exact ⟨_, _, _, rfl⟩
  · exact hp d req cap

lemma Plain.needCap {h : Handler σ} (hp : Plain h) (need : ℕ) : Plain (needCap need h) := by
  intro d req cap
  simp only [Gd32Bridge.needCap]
  split_ifs
  · exact ⟨_, _, _, rfl⟩
  · exact hp d req cap

lemma hwReply_plain {α : Type} (d : Device σ) (r : HwResult σ α) (ladder : HwRv → Status)
    (payload : α → List UInt8) :
    ∃ hw st p, hwReply d r ladder payload = ({ d with hw := hw }, .reply st p) := by
  simp only [hwReply]
  split_ifs
  · exact ⟨_, _, _, rfl⟩
  · exact ⟨_, _, _, rfl⟩

/-- All handlers of the table but two reach the peripherals only. -/
theorem Opcode.handler_plain (link : Link) (op : Opcode) (hcfg : op ≠ .bootConfig)
    (hlink : op ≠ .linkFeatures) : Plain (op.handler hal link) := by
  have hhw := @hwReply_plain σ
  cases op <;> simp only [Opcode.handler]
  case bootConfig => exact absurd rfl hcfg
  case linkFeatures => exact absurd rfl hlink
  case ping => exact Plain.exactLen (fun d _ _ => ⟨_, _, _, rfl⟩) _
  case getVersion => exact (Plain.needCap (fun d _ _ => ⟨_, _, _, rfl⟩) _).exactLen _
  case getBuildId => exact (Plain.needCap (fun d _ _ => ⟨_, _, _, rfl⟩) _).exactLen _
  case resetReason => exact (Plain.needCap (fun d _ _ => ⟨_, _, _, rfl⟩) _).exactLen _
  case da9292Forward => exact (Plain.needCap (fun d _ _ => ⟨_, _, _, rfl⟩) _).exactLen _
  case gpioRead => exact (Plain.needCap (fun d _ _ => hhw _ _ _ _) _).exactLen _
  case pwmGet => exact (Plain.needCap (fun d _ _ => hhw _ _ _ _) _).exactLen _
  case dacGet => exact (Plain.needCap (fun d _ _ => hhw _ _ _ _) _).exactLen _
  case qencRead => exact (Plain.needCap (fun d _ _ => hhw _ _ _ _) _).exactLen _
  case counterRead => exact (Plain.needCap (fun d _ _ => hhw _ _ _ _) _).exactLen _
  case pwmCaptureRead => exact (Plain.needCap (fun d _ _ => hhw _ _ _ _) _).exactLen _
  case adcDspChainOpen => exact (Plain.needCap (fun d _ _ => hhw _ _ _ _) _).exactLen _
  case gpioWrite => exact Plain.exactLen (fun d _ _ => hhw _ _ _ _) _
  case dacSet => exact Plain.exactLen (fun d _ _ => hhw _ _ _ _) _
  case qencReset => exact Plain.exactLen (fun d _ _ => hhw _ _ _ _) _
  case pwmCaptureEnd => exact Plain.exactLen (fun d _ _ => hhw _ _ _ _) _
  case timerSync => exact Plain.exactLen (fun d _ _ => hhw _ _ _ _) _
  case tmuCompute =>
    refine (Plain.needCap (fun d req _ => ?_) _).exactLen _
    split_ifs
    · exact ⟨_, _, _, rfl⟩
    · exact ⟨_, _, _, rfl⟩
    · exact hhw _ _ _ _
  case adcStreamRead =>
    refine Plain.exactLen (fun d req cap => ?_) _
    simp only
    split_ifs <;> exact ⟨_, _, _, rfl⟩
  case adcSpectrumRead =>
    refine Plain.exactLen (fun d req cap => ?_) _
    simp only
    split_ifs <;> exact ⟨_, _, _, rfl⟩
  case adcDspStagePush =>
    intro d req cap
    simp only [handleAdcDspStagePush]
    split_ifs
    · exact ⟨_, _, _, rfl⟩
    · exact ⟨_, _, _, rfl⟩
    · exact ⟨_, _, _, rfl⟩
    · exact hhw _ _ _ _
  -- the remaining handlers check some fields and then call their shim
  all_goals
    refine Plain.exactLen (fun d req cap => ?_) _
    try simp only
    split_ifs <;> first | exact ⟨_, _, _, rfl⟩ | exact hhw _ _ _ _

/-- What a request can do to the boot configuration. -/
inductive CfgRule (c : BootConfig) : BootConfig → Prop
  | same : CfgRule c c
  | queued (flags : UInt32) (hp : c.pending = none) (hne : flags ≠ c.stored)
      (hk : flags &&& ~~~bootConfigKnownFlags = 0) : CfgRule c { c with pending := some flags }

lemma CfgRule.of_bootConfigRequest (c : BootConfig) (flags : UInt32)
    (hk : flags &&& ~~~bootConfigKnownFlags = 0) : CfgRule c (bootConfigRequest c flags).1 := by
  simp only [bootConfigRequest]
  split
  · exact .same
  · next hp =>
    split_ifs with hne
    · exact .same
    · exact .queued flags hp hne hk

/-- BOOT_CONFIG replies, and queues a SET at most. -/
lemma handleBootConfig_spec (d : Device σ) (req : List UInt8) (cap : ℕ) :
    ∃ c st p, handleBootConfig d req cap = ({ d with cfg := c }, .reply st p) ∧
      CfgRule d.cfg c := by
  simp only [handleBootConfig, exactLen, needCap]
  split_ifs with _ _ _ _ hk
  · exact ⟨_, _, _, rfl, .same⟩
  · exact ⟨_, _, _, rfl, .same⟩
  · exact ⟨_, _, _, rfl, .same⟩
  · exact ⟨_, _, _, rfl, .same⟩
  · exact ⟨_, _, _, rfl, .same⟩
  · exact ⟨_, _, _, rfl, .same⟩
  · have hrule := CfgRule.of_bootConfigRequest d.cfg (getLe32 req 1) (not_not.mp hk)
    generalize bootConfigRequest d.cfg (getLe32 req 1) = x at hrule ⊢
    obtain ⟨c, v⟩ := x
    cases v <;> exact ⟨_, _, _, rfl, hrule⟩
  · exact ⟨_, _, _, rfl, .same⟩

/-- LINK_FEATURES replies, and sets the features of its own link at most. -/
lemma handleLinkFeatures_spec (link : Link) (d : Device σ) (req : List UInt8) (cap : ℕ) :
    ∃ links st p, handleLinkFeatures link d req cap = ({ d with links := links }, .reply st p) ∧
      (links = d.links ∨ ∃ v, links = d.links.set v link) := by
  simp only [handleLinkFeatures, exactLen, needCap]
  split_ifs
  · exact ⟨_, _, _, rfl, .inl rfl⟩
  · exact ⟨_, _, _, rfl, .inl rfl⟩
  · exact ⟨_, _, _, rfl, .inr ⟨_, rfl⟩⟩

/-- A handler that replies and leaves the OTA state alone. -/
def Passive (h : Handler σ) : Prop :=
  ∀ d req cap, (h d req cap).1.ota = d.ota ∧ ∃ st p, (h d req cap).2 = .reply st p

/-- No handler of the table reaches the OTA state. -/
theorem Opcode.handler_passive (link : Link) (op : Opcode) : Passive (op.handler hal link) := by
  intro d req cap
  by_cases hcfg : op = .bootConfig
  · subst hcfg
    obtain ⟨c, st, p, heq, -⟩ := handleBootConfig_spec d req cap
    rw [Opcode.handler, heq]
    exact ⟨rfl, _, _, rfl⟩
  by_cases hlink : op = .linkFeatures
  · subst hlink
    obtain ⟨links, st, p, heq, -⟩ := handleLinkFeatures_spec link d req cap
    rw [Opcode.handler, heq]
    exact ⟨rfl, _, _, rfl⟩
  obtain ⟨hw, st, p, heq⟩ := op.handler_plain hal link hcfg hlink d req cap
  rw [heq]
  exact ⟨rfl, _, _, rfl⟩

/-- What a handler of the table can do to the boot configuration and the link features. -/
lemma Opcode.handler_frame (link : Link) (op : Opcode) (d : Device σ) (req : List UInt8)
    (cap : ℕ) : CfgRule d.cfg (op.handler hal link d req cap).1.cfg ∧
      ((op.handler hal link d req cap).1.links = d.links ∨
        ∃ v, (op.handler hal link d req cap).1.links = d.links.set v link) := by
  by_cases hcfg : op = .bootConfig
  · subst hcfg
    obtain ⟨c, st, p, heq, hrule⟩ := handleBootConfig_spec d req cap
    rw [Opcode.handler, heq]
    exact ⟨hrule, .inl rfl⟩
  by_cases hlink : op = .linkFeatures
  · subst hlink
    obtain ⟨links, st, p, heq, hrule⟩ := handleLinkFeatures_spec link d req cap
    rw [Opcode.handler, heq]
    exact ⟨.same, hrule⟩
  obtain ⟨hw, st, p, heq⟩ := op.handler_plain hal link hcfg hlink d req cap
  rw [heq]
  exact ⟨.same, .inl rfl⟩

/-- The table ends below the OTA range. -/
lemma Opcode.lt_of_ofByte {cmd : UInt8} {op : Opcode} (h : Opcode.ofByte cmd = some op) :
    cmd < cmdOtaBegin := by
  have hall : ∀ b : BitVec 8, (Opcode.ofByte ⟨b⟩).isSome = true → (⟨b⟩ : UInt8) < cmdOtaBegin := by
    decide +kernel
  exact hall cmd.toBitVec (by simpa using congrArg Option.isSome h)

/-- A dispatched request notes a frame behind the gate, does not reach the OTA state, or is an
OTA request. -/
inductive DispatchRule (d : Device σ) (cmd : UInt8) (req : List UInt8) (cap : ℕ) :
    Device σ × Outcome → Prop
  | gated (h : d.ota.trial = true) :
      DispatchRule d cmd req cap
        ({ d with ota := { d.ota with frameSeen := true } }, .reply .busy [])
  | passive (h : d.ota.trial = false) (hcmd : cmd < cmdOtaBegin) (d' : Device σ) (st : Status)
      (p : List UInt8) (hota : d'.ota = d.ota) : DispatchRule d cmd req cap (d', .reply st p)
  | ota (h : d.ota.trial = false) (hcmd : cmd ≥ cmdOtaBegin) :
      DispatchRule d cmd req cap
        ({ d with ota := (otaDispatch d.ota cmd req cap).1 }, (otaDispatch d.ota cmd req cap).2)

lemma DispatchRule.of_dispatch (link : Link) (cmd : UInt8) (d : Device σ) (req : List UInt8)
    (cap : ℕ) : DispatchRule d cmd req cap (protocolDispatch hal false link cmd d req cap) := by
  simp only [protocolDispatch, protocolDispatchInner, Bool.false_eq_true, if_false]
  split
  · next h => exact .gated h
  next h =>
  have h : d.ota.trial = false := by simpa using h
  split
  · next op hop =>
    obtain ⟨hota, st, p, hout⟩ := op.handler_passive hal link d req cap
    generalize op.handler hal link d req cap = x at hota hout ⊢
    obtain ⟨d', out⟩ := x
    cases hout
    exact .passive h (Opcode.lt_of_ofByte hop) d' st p hota
  · split
    · next hcmd => exact .ota h hcmd
    · next hcmd => exact .passive h (UInt8.not_le.mp hcmd) d _ _ rfl

/-- What a request can do to the boot configuration and the link features. -/
lemma protocolDispatch_frame (link : Link) (cmd : UInt8) (d : Device σ) (req : List UInt8)
    (cap : ℕ) : CfgRule d.cfg (protocolDispatch hal false link cmd d req cap).1.cfg ∧
      ((protocolDispatch hal false link cmd d req cap).1.links = d.links ∨
        ∃ v, (protocolDispatch hal false link cmd d req cap).1.links = d.links.set v link) := by
  simp only [protocolDispatch, protocolDispatchInner, Bool.false_eq_true, if_false]
  split
  · exact ⟨.same, .inl rfl⟩
  split
  · next op _ => exact op.handler_frame hal link d req cap
  split
  · exact ⟨.same, .inl rfl⟩
  · exact ⟨.same, .inl rfl⟩

end Gd32Bridge
