import Iec104Bridge.Model.Message

/-!
# Semantic validation (`validation.rs`)
-/

namespace Iec104Bridge

def validateTimestamp (timestamp : Option OffsetDateTime) : Except String Unit :=
  match timestamp with
  | some t =>
    if t.unixTimestampNanos < 0 then .error "timestamp must be on or after 1970-01-01T00:00:00Z"
    else .ok ()
  | none => .ok ()

def validateIoa (ioa : UInt32) : Except String Unit :=
  if ¬ (1 ≤ ioa ∧ ioa ≤ 16777215) then .error "ioa must be in the range 1..=16777215" else .ok ()

def validateCa (ca : Option UInt16) : Except String Unit :=
  match ca with
  | some ca =>
    if ¬ (1 ≤ ca ∧ ca ≤ 65534) then .error "ca must be in the range 1..=65534" else .ok ()
  | none => .ok ()

def validateNormalizedValue (dataType : Option DataType) (value : DataValue) : Except String Unit :=
  if dataType ≠ some .normalized then .ok ()
  else
    match value with
    | .number v =>
      if -1 ≤ v.val ∧ v.val ≤ 1 then .ok ()
      else .error "normalized values must be in the range -1.0..=1.0"
    | .bool _ => .error "normalized values must be numeric"

def validateBooleanPointValue (dataType : Option DataType) (value : DataValue) :
    Except String Unit :=
  if ¬ (dataType = some .singlePoint ∨ dataType = some .doublePoint) then .ok ()
  else
    match value with
    | .bool _ => .ok ()
    | .number _ => .error "single_point and double_point values must be boolean"

def validateMessage (msg : Iec104Message) : Except String Unit := do
  validateIoa msg.ioa
  validateCa msg.ca
  validateTimestamp msg.timestamp
  validateNormalizedValue msg.dataType msg.value
  validateBooleanPointValue msg.dataType msg.value

/-- A message `validate_message` accepts. -/
def Iec104Message.Valid (msg : Iec104Message) : Prop := (validateMessage msg).isOk = true

instance (msg : Iec104Message) : Decidable msg.Valid :=
  inferInstanceAs (Decidable ((validateMessage msg).isOk = true))

@[simp] theorem isOk_ok {ε α : Type} (a : α) : (Except.ok a : Except ε α).isOk = true := rfl
@[simp] theorem isOk_error {ε α : Type} (e : ε) : (Except.error e : Except ε α).isOk = false := rfl

theorem isOk_bind {ε α β : Type} (x : Except ε α) (f : α → Except ε β) :
    (x >>= f).isOk = true ↔ ∃ a, x = .ok a ∧ (f a).isOk = true := by
  cases x with
  | error e => simp [bind, Except.bind]
  | ok a => simp [bind, Except.bind]

/-- A valid message passes each of the five checks. -/
theorem Iec104Message.Valid.checks {msg : Iec104Message} (h : msg.Valid) :
    validateIoa msg.ioa = .ok () ∧ validateCa msg.ca = .ok () ∧
      validateTimestamp msg.timestamp = .ok () ∧
      validateNormalizedValue msg.dataType msg.value = .ok () ∧
      validateBooleanPointValue msg.dataType msg.value = .ok () := by
  simp only [Valid, validateMessage, isOk_bind] at h
  obtain ⟨_, h₁, _, h₂, _, h₃, _, h₄, h₅⟩ := h
  refine ⟨h₁, h₂, h₃, h₄, ?_⟩
  cases e : validateBooleanPointValue msg.dataType msg.value with
  | error _ => simp [e] at h₅
  | ok _ => rfl

theorem Iec104Message.Valid.ioa_range {msg : Iec104Message} (h : msg.Valid) :
    1 ≤ msg.ioa.toNat ∧ msg.ioa.toNat ≤ 16777215 := by
  have h := h.checks.1
  simp only [validateIoa] at h
  split at h <;> [cases h; skip]
  rename_i hr
  simpa [UInt32.le_iff_toNat_le] using not_not.mp hr

theorem Iec104Message.Valid.ca_range {msg : Iec104Message} (h : msg.Valid) {ca : UInt16}
    (hca : msg.ca = some ca) : 1 ≤ ca.toNat ∧ ca.toNat ≤ 65534 := by
  have h := h.checks.2.1
  simp only [hca, validateCa] at h
  split at h <;> [cases h; skip]
  rename_i hr
  simpa [UInt16.le_iff_toNat_le] using not_not.mp hr

end Iec104Bridge
