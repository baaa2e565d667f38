import Iec104Bridge.Proof.Staleness

/-!
# Numbers on the wire

A number goes through one of two narrowings. A scaled value is clamped and then
truncated: it is the nearest `i16` when the fraction of its magnitude is at most
a half (`scaled_nearest_iff`). A short float is rounded to nearest, and is
infinite from `2 ^ 128 - 2 ^ 103` on (`float_finite_iff`).
-/

namespace Iec104Bridge

open Framework

variable {cfg : Settings} {point : CachedPoint} {now : OffsetDateTime} {asdu : Asdu}

/-- The data ASDU that is sent for `point` at `now`, when it arrives or in a replay. -/
inductive Sends (cfg : Settings) (point : CachedPoint) (now : OffsetDateTime) (asdu : Asdu) : Prop
  | spontaneous : now = point.receivedAt →
    (dispatchIncoming cfg point.message point.receivedAt).1 = some asdu → Sends cfg point now asdu
  | replayed {sent : Bool} {sink : ConnectionSink} :
    (replayPoint cfg now point sent sink).1 = asdu → Sends cfg point now asdu

theorem Sends.frameOf (h : Sends cfg point now asdu) : FrameOf cfg now asdu point := by
  cases h with
  | spontaneous hnow h =>
    subst hnow
    rw [dispatchIncoming_eq] at h
    split at h
    · cases h
    · obtain rfl := Option.some.inj h
      exact ⟨point.message.cot, .inl rfl, rfl⟩
  | replayed h =>
    subst h
    exact ⟨.interrogated, .inr rfl, by rw [replayPoint_eq]; rfl⟩

/-- The cause shows neither in the value nor in the quality. -/
theorem FrameOf.value (h : FrameOf cfg now asdu point) :
    asdu.object.value = wireValue cfg.policy.sendTimestamps point.message := by
  obtain ⟨cot, -, rfl⟩ := h
  rfl

/-! ## Scaled values -/

/-- The number clamped to the range of an `i16`. -/
def clamped (v : F64) : ℚ := max (-32768) (min 32767 v.val)

theorem clampI16_eq (v : F64) : clampI16 v = clamped v := by
  unfold clampI16 clamped
  split
  · rename_i h
    rw [min_eq_right (by linarith), max_eq_left h.le]
  · split
    · rename_i h
      rw [min_eq_left h.le, max_eq_right (by norm_num)]
    · rename_i h h'
      rw [min_eq_right (not_lt.mp h'), max_eq_right (not_lt.mp h)]

theorem clamped_mono {v v' : F64} (h : v.val ≤ v'.val) : clamped v ≤ clamped v' :=
  max_le_max le_rfl (min_le_min le_rfl h)

theorem toInt_asScaledValue (v : F64) :
    (asScaledValue (.number v)).toInt = truncate (clamped v) := by
  rw [← clampI16_eq]
  exact toInt_f64AsI16_clamp v

/-- Truncation takes the number to the nearest `i16`. -/
def TruncatesToNearest (v : F64) : Prop :=
  v.val ≤ -32768 ∨ 32767 ≤ v.val ∨ Int.fract |v.val| ≤ 1 / 2

theorem truncate_clamped_iff (v : F64) :
    |(truncate (clamped v) : ℚ) - clamped v| ≤ 1 / 2 ↔ TruncatesToNearest v := by
  have hlimit : ∀ n : Int, clamped v = n → |(truncate (clamped v) : ℚ) - clamped v| ≤ 1 / 2 := by
    intro n h
    rw [h, truncate_intCast, sub_self, abs_zero]
    norm_num
  rcases le_or_gt v.val (-32768) with hlow | hlow
  · refine iff_of_true (hlimit (-32768) ?_) (.inl hlow)
    exact_mod_cast max_eq_left ((min_le_right _ _).trans hlow)
  · rcases le_or_gt 32767 v.val with hhigh | hhigh
    · refine iff_of_true (hlimit 32767 ?_) (.inr (.inl hhigh))
      rw [clamped, min_eq_left hhigh, max_eq_right (by norm_num)]
      norm_num
    · have hv : clamped v = v.val := by
        rw [clamped, min_eq_right hhigh.le, max_eq_right hlow.le]
      rw [hv, abs_sub_comm, abs_sub_truncate]
      exact ⟨fun h => .inr (.inr h), fun h => by
        rcases h with h | h | h
        · exact absurd h (not_le.mpr hlow)
        · exact absurd h (not_le.mpr hhigh)
        · exact h⟩

/-- `n` is sent for `v`, as a scaled value. -/
def SentScaled (v : F64) (n : Int16) : Prop :=
  ∃ cfg point now asdu, point.message.Valid ∧ point.message.effectiveType = .scaled ∧
    point.message.value = .number v ∧ Sends cfg point now asdu ∧ asdu.object.value = .scaled n.toInt32

theorem wireValue_scaled {msg : Iec104Message} (ht : msg.effectiveType = .scaled) {v : F64}
    (hval : msg.value = .number v) (sendTimestamps : Bool) :
    wireValue sendTimestamps msg = .scaled (asScaledValue (.number v)).toInt32 := by
  unfold wireValue
  rw [ht, hval]
  rfl

theorem SentScaled.eq {v : F64} {n : Int16} (h : SentScaled v n) : n.toInt = truncate (clamped v) := by
  obtain ⟨cfg, point, now, asdu, -, ht, hval, hs, hn⟩ := h
  rw [hs.frameOf.value, wireValue_scaled ht hval] at hn
  have hn := congrArg Int32.toInt (IoValue.scaled.inj hn)
  rw [Int16.toInt_toInt32, Int16.toInt_toInt32] at hn
  rw [← hn, toInt_asScaledValue]

/-- **Scaled values.** Each frame of a scaled number, timed or not, carries one
`i16`: it is the nearest one to the clamped number if and only if truncation
rounds to it, the number itself if that is an integer in range, and monotone in
the number. -/
theorem scaled_nearest_iff (ht : point.message.effectiveType = .scaled) {v : F64}
    (hval : point.message.value = .number v) (h : Sends cfg point now asdu) :
    ∃ n : Int16, asdu.object.value = .scaled n.toInt32 ∧
      (|(n.toInt : ℚ) - clamped v| ≤ 1 / 2 ↔ TruncatesToNearest v) ∧
      (∀ m : Int, v.val = m → -32768 ≤ m → m ≤ 32767 → n.toInt = m) ∧
      ∀ v' n', SentScaled v' n' →
        (v.val ≤ v'.val → n.toInt ≤ n'.toInt) ∧ (v'.val ≤ v.val → n'.toInt ≤ n.toInt) := by
  refine ⟨asScaledValue (.number v), ?_, ?_, fun m hm hlow hhigh => ?_, fun v' n' h' => ?_⟩
  · rw [h.frameOf.value, wireValue_scaled ht hval]
  · rw [toInt_asScaledValue]
    exact truncate_clamped_iff v
  · have hlow' : (-32768 : ℚ) ≤ m := by exact_mod_cast hlow
    have hhigh' : (m : ℚ) ≤ 32767 := by exact_mod_cast hhigh
    rw [toInt_asScaledValue, clamped, hm, min_eq_right hhigh', max_eq_right hlow', truncate_intCast]
  · rw [toInt_asScaledValue, h'.eq]
    exact ⟨fun hle => truncate_mono (clamped_mono hle), fun hle => truncate_mono (clamped_mono hle)⟩

/-- The number 2.75. -/
def F64.sample : F64 := ⟨11 / 4, 11, -2, by decide, by decide, by decide, by norm_num⟩

def scaledMessage (timestamp : Option OffsetDateTime) : Iec104Message :=
  { ioa := 100, value := .number .sample, dataType := some .scaled, timestamp }

theorem scaled_nearest_iff_sample : ∃ n : Int16,
    (spontaneousFrame .sample (scaledMessage (some (.sample 1))) (.sample 1)).object.value =
        .scaled n.toInt32 ∧
      (|(n.toInt : ℚ) - clamped .sample| ≤ 1 / 2 ↔ TruncatesToNearest .sample) := by
  have hsends : Sends .sample ⟨scaledMessage (some (.sample 1)), .sample 1⟩ (.sample 1)
      (spontaneousFrame .sample (scaledMessage (some (.sample 1))) (.sample 1)) :=
    .spontaneous rfl (by rw [dispatchIncoming_eq]; rfl)
  obtain ⟨n, hn, hiff, -⟩ := scaled_nearest_iff (v := .sample) rfl rfl hsends
  exact ⟨n, hn, hiff⟩

/-- The value 2.75 is sent as 2, with a source time and without. -/
theorem scaled_not_nearest : ∃ w s untimed timed, (process Nat .sample).Run w s ∧
    (∀ point ∈ arrivals w, point.message.Valid ∧ point.message.effectiveType = .scaled ∧
      point.message.value = .number .sample) ∧
    .handed 0 (.sample 1) untimed ∈ w ∧ untimed.object.value = .scaled 2 ∧ untimed.object.time = none ∧
    .handed 1 (.sample 2) timed ∈ w ∧ timed.object.value = .scaled 2 ∧ timed.object.time.isSome ∧
    ¬ |(2 : ℚ) - clamped .sample| ≤ 1 / 2 := by
  obtain ⟨w, s, h, hw⟩ := Machine.exists_run_of_exec (M := process Nat .sample)
    (.task (.build true) :: (handleMessage 0 (scaledMessage none) (.sample 1) ++
      handleMessage 1 (scaledMessage (some (.sample 2))) (.sample 2)))
    (fun w _ => decide ((∀ point ∈ arrivals w, point.message.Valid ∧
        point.message.effectiveType = .scaled ∧ point.message.value = .number .sample) ∧
      .handed 0 (.sample 1) (spontaneousFrame .sample (scaledMessage none) (.sample 1)) ∈ w ∧
      .handed 1 (.sample 2)
        (spontaneousFrame .sample (scaledMessage (some (.sample 2))) (.sample 2)) ∈ w))
    true (by decide +kernel)
  obtain ⟨harr, hu, htimed⟩ := of_decide_eq_true hw
  exact ⟨w, s, _, _, h, harr, hu, by decide +kernel, rfl, htimed, by decide +kernel, rfl,
    by decide +kernel⟩

/-! ## Short floats and normalized values -/

/-- Rounding to nearest reaches `2 ^ 128` half a unit below it. -/
theorem two_pow_le_round24_iff (v : F64) :
    2 ^ 128 ≤ |roundBinary 24 (-149) v.val| ↔ 2 ^ 128 - 2 ^ 103 ≤ |v.val| := by
  have h : (2 : ℚ) ^ (128 : Int) ≤ |roundBinary 24 (-149) v.val| ↔ _ :=
    two_zpow_le_abs_roundBinary_iff (by decide) (by decide) v.val
  norm_num at h ⊢
  exact h

/-- A value of an `f32` that is not an infinity. -/
def F32.IsFinite (x : F32) : Prop := ∃ q, x = .finite q

theorem asF32_isFinite_iff (v : F64) : v.asF32.IsFinite ↔ |v.val| < 2 ^ 128 - 2 ^ 103 := by
  rw [← not_le, ← two_pow_le_round24_iff, F64.asF32]
  split
  · rename_i h
    exact iff_of_false (by rintro ⟨q, hq⟩; cases hq) (not_not_intro h)
  · rename_i h
    exact iff_of_true ⟨_, rfl⟩ h

/-- The `f32` handed to lib60870, as a short float or a normalized value. -/
def IoValue.float : IoValue → Option F32
  | .short x | .normalized x => some x
  | _ => none

theorem wireQuality_flagged_iff (maxAge : Option Duration) (msg : Iec104Message)
    (receivedAt now : OffsetDateTime) :
    (wireQuality maxAge msg receivedAt now).Contains .OVERFLOW ∨
        (wireQuality maxAge msg receivedAt now).Contains .INVALID ↔
      msg.quality = .overflow ∨ msg.quality = .invalid := by
  unfold wireQuality
  split <;> cases msg.quality <;> decide

theorem FrameOf.flagged_iff (h : FrameOf cfg now asdu point) :
    asdu.object.quality.Contains .OVERFLOW ∨ asdu.object.quality.Contains .INVALID ↔
      point.message.quality = .overflow ∨ point.message.quality = .invalid := by
  obtain ⟨cot, -, rfl⟩ := h
  exact wireQuality_flagged_iff ..

/-- A short float of the message is finite, or the publisher flags it. -/
def FitsOrFlagged (msg : Iec104Message) : Prop :=
  (msg.effectiveType = .float → ∀ v, msg.value = .number v → |v.val| < 2 ^ 128 - 2 ^ 103) ∨
    msg.quality = .overflow ∨ msg.quality = .invalid

theorem normalized_range {msg : Iec104Message} (hv : msg.Valid) {v : F64}
    (ht : msg.effectiveType = .normalized) (hval : msg.value = .number v) : |v.val| ≤ 1 := by
  have hdt : msg.dataType = some .normalized := by
    cases hdt : msg.dataType with
    | some dataType =>
      rw [Iec104Message.effectiveType, hdt] at ht
      exact congrArg some ht
    | none =>
      rw [Iec104Message.effectiveType, hdt, hval] at ht
      simp only [Option.getD_none, inferType] at ht
      split at ht <;> cases ht
  have hn := hv.checks.2.2.2.1
  rw [hdt, hval] at hn
  simp only [validateNormalizedValue, ne_eq, not_true_eq_false, if_false] at hn
  split at hn <;> [skip; cases hn]
  exact abs_le.mpr ‹_›

theorem asFloatValue_isFinite_iff (value : DataValue) :
    (asFloatValue value).IsFinite ↔ ∀ v, value = .number v → |v.val| < 2 ^ 128 - 2 ^ 103 := by
  cases value with
  | bool b =>
    refine iff_of_true ?_ fun v h => by cases h
    cases b
    · exact ⟨0, rfl⟩
    · exact ⟨1, rfl⟩
  | number v =>
    rw [show asFloatValue (.number v) = v.asF32 from rfl, asF32_isFinite_iff]
    exact ⟨fun h v' he => by cases he; exact h, fun h => h v rfl⟩

/-- The floating-point encodings hold the same `f32`. -/
theorem float_encode (timed : Bool) (dataType : DataType) (value : DataValue) :
    (encode timed dataType value).float =
      if dataType = .float ∨ dataType = .normalized then some (asFloatValue value) else none := by
  cases dataType <;> cases timed <;> rfl

/-- Every `f32` of a message is finite, unless it is a short float beyond the range. -/
theorem wireValue_isFinite_iff {msg : Iec104Message} (hv : msg.Valid) (sendTimestamps : Bool) :
    (∀ x, (wireValue sendTimestamps msg).float = some x → x.IsFinite) ↔
      (msg.effectiveType = .float → ∀ v, msg.value = .number v → |v.val| < 2 ^ 128 - 2 ^ 103) := by
  rw [wireValue, float_encode]
  by_cases hf : msg.effectiveType = .float
  · simp [hf, asFloatValue_isFinite_iff]
  · refine iff_of_true (fun x hx => ?_) fun h => absurd h hf
    split at hx <;> [skip; cases hx]
    rename_i ht
    have ht := ht.resolve_left hf
    obtain rfl := Option.some.inj hx
    refine (asFloatValue_isFinite_iff _).mpr fun v hval => ?_
    exact (normalized_range hv ht hval).trans_lt (by norm_num)

/-- **No infinity on the wire, unless flagged.** Of a valid message, every `f32`
handed to lib60870 is finite, or the quality carries OV or IV, if and only if
the message fits or is flagged. -/
theorem float_finite_iff (hv : point.message.Valid) (h : Sends cfg point now asdu) :
    (∀ x, asdu.object.value.float = some x → x.IsFinite ∨
        asdu.object.quality.Contains .OVERFLOW ∨ asdu.object.quality.Contains .INVALID) ↔
      FitsOrFlagged point.message := by
  have hvalue := wireValue_isFinite_iff hv cfg.policy.sendTimestamps
  rw [← h.frameOf.value] at hvalue
  rw [h.frameOf.flagged_iff, FitsOrFlagged, ← hvalue]
  by_cases hq : point.message.quality = .overflow ∨ point.message.quality = .invalid
  · exact iff_of_true (fun _ _ => .inr hq) (.inr hq)
  · simp only [hq, or_false]

/-- The number `2 ^ 128`. -/
def F64.huge : F64 := ⟨2 ^ 128, 1, 128, by decide, by decide, by decide, by norm_num⟩

def hugeMessage (timestamp : Option OffsetDateTime) : Iec104Message :=
  { ioa := 100, value := .number .huge, timestamp }

theorem float_finite_iff_sample :
    (∀ x, (replayFrame .sample (.sample 3) ⟨hugeMessage none, .sample 1⟩).object.value.float = some x →
      x.IsFinite ∨
        (replayFrame .sample (.sample 3) ⟨hugeMessage none, .sample 1⟩).object.quality.Contains
          .OVERFLOW ∨
        (replayFrame .sample (.sample 3) ⟨hugeMessage none, .sample 1⟩).object.quality.Contains
          .INVALID) ↔ FitsOrFlagged (hugeMessage none) := by
  have hreplay : (replayPoint .sample (.sample 3) ⟨hugeMessage none, .sample 1⟩ true .new).1 =
      replayFrame .sample (.sample 3) ⟨hugeMessage none, .sample 1⟩ := by
    rw [replayPoint_eq]
    rfl
  exact float_finite_iff (by decide +kernel) (.replayed hreplay)

/-- The value `2 ^ 128`, without a type, is sent as a good infinity, with a
source time and without, and again in a replay. -/
theorem float_infinite : ∃ w s untimed timed replayed, (process Nat .sample).Run w s ∧
    (∀ point ∈ arrivals w, point.message.Valid ∧ point.message.dataType = none ∧
      point.message.value = .number .huge) ∧
    .handed 0 (.sample 1) untimed ∈ w ∧ untimed.object.value = .short (.infinite false) ∧
    untimed.object.quality = .GOOD ∧ untimed.object.time = none ∧
    .handed 1 (.sample 2) timed ∈ w ∧ timed.object.value = .short (.infinite false) ∧
    timed.object.quality = .GOOD ∧ timed.object.time.isSome ∧
    .giData 0 (.sample 3) replayed true ∈ w ∧ replayed.object.value = .short (.infinite false) ∧
    replayed.object.quality = .GOOD := by
  obtain ⟨w, s, h, hw⟩ := Machine.exists_run_of_exec (M := process Nat .sample)
    (.task (.build true) :: (handleMessage 0 (hugeMessage none) (.sample 1) ++
      handleMessage 1 (hugeMessage (some (.sample 2))) (.sample 2) ++
      [.gi 0 (.request 20), .gi 0 (.confirm true),
        .gi 0 (.lock (.sample 3) [⟨hugeMessage (some (.sample 2)), .sample 2⟩]), .gi 0 (.send true)]))
    (fun w _ => decide ((∀ point ∈ arrivals w, point.message.Valid ∧
        point.message.dataType = none ∧ point.message.value = .number .huge) ∧
      .handed 0 (.sample 1) (spontaneousFrame .sample (hugeMessage none) (.sample 1)) ∈ w ∧
      .handed 1 (.sample 2) (spontaneousFrame .sample (hugeMessage (some (.sample 2))) (.sample 2)) ∈ w ∧
      .giData 0 (.sample 3)
        (replayFrame .sample (.sample 3) ⟨hugeMessage (some (.sample 2)), .sample 2⟩) true ∈ w))
    true (by decide +kernel)
  obtain ⟨harr, hu, htimed, hreplayed⟩ := of_decide_eq_true hw
  exact ⟨w, s, _, _, _, h, harr, hu, by decide +kernel, by decide +kernel, rfl, htimed,
    by decide +kernel, by decide +kernel, rfl, hreplayed, by decide +kernel, by decide +kernel⟩

end Iec104Bridge
