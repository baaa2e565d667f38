import Iec104Bridge.Model.Cp56
import Iec104Bridge.Proof.Staleness

/-!
# Source times

A source time goes through three ranges: `validateTimestamp` takes every
instant from 1970 on, the millisecond count is exact below `2 ^ 64` ns, in the
year 2554 (`millis_exact_iff`), and the calendar of the wire has the years of
one century. From 2000 to 2099 a reader of the wire sees the source time of the
message (`sourceTime_carried`).
-/

namespace Iec104Bridge

open Framework

/-! ## Milliseconds -/

/-- A source time the validator accepts. -/
def AcceptedTime (t : OffsetDateTime) : Prop := validateTimestamp (some t) = .ok ()

theorem acceptedTime_iff {t : OffsetDateTime} : AcceptedTime t ↔ 0 ≤ t.unixTimestampNanos := by
  unfold AcceptedTime validateTimestamp
  by_cases h : t.unixTimestampNanos < 0
  · simp only [h, if_true]
    exact iff_of_false nofun (not_le.mpr h)
  · simp only [h, if_false]
    exact iff_of_true trivial (not_lt.mp h)

/-- The milliseconds of a source time, rounded down. -/
def sourceMillis (t : OffsetDateTime) : Int := t.unixTimestampNanos / 1000000

/-- The cast keeps the nanoseconds modulo `2 ^ 64`. -/
theorem millis_eq (t : OffsetDateTime) :
    ((offsetDatetimeToCp56Timestamp t).ms.toNat : Int) =
      t.unixTimestampNanos % 2 ^ 64 / 1000000 := by
  have h₀ : 0 ≤ t.unixTimestampNanos % 2 ^ 64 := by omega
  have h₁ : (t.unixTimestampNanos % 2 ^ 64).toNat < 2 ^ 64 := by omega
  show (((UInt64.ofNat (t.unixTimestampNanos % 2 ^ 64).toNat) / 1000000).toNat : Int) = _
  rw [UInt64.toNat_div, UInt64.toNat_ofNat_of_lt' h₁]
  show (((t.unixTimestampNanos % 2 ^ 64).toNat / 1000000 : Nat) : Int) = _
  omega

theorem millis_of_lt {t : OffsetDateTime} (h : AcceptedTime t)
    (hl : t.unixTimestampNanos < 2 ^ 64) :
    ((offsetDatetimeToCp56Timestamp t).ms.toNat : Int) = sourceMillis t := by
  rw [acceptedTime_iff] at h
  rw [millis_eq, sourceMillis]
  omega

/-- The accepted source times up to `limit` keep their order. -/
def MonotoneUpTo (limit : Int) : Prop :=
  ∀ t t' : OffsetDateTime, AcceptedTime t → AcceptedTime t' → t'.unixTimestampNanos ≤ limit →
    t.unixTimestampNanos ≤ t'.unixTimestampNanos →
    (offsetDatetimeToCp56Timestamp t).ms.toNat ≤ (offsetDatetimeToCp56Timestamp t').ms.toNat

/-- **Milliseconds of a source time.** The count is exact if and only if the
nanoseconds fit in 64 bits, and it never depends on the UTC offset. It is
monotone on the source times up to a limit if and only if the limit fits. -/
theorem millis_exact_iff {t : OffsetDateTime} (h : AcceptedTime t) {limit : Int} (hl : 0 ≤ limit) :
    (((offsetDatetimeToCp56Timestamp t).ms.toNat : Int) = sourceMillis t ↔
      t.unixTimestampNanos < 2 ^ 64) ∧
    (∀ t' : OffsetDateTime, t'.unixTimestampNanos = t.unixTimestampNanos →
      offsetDatetimeToCp56Timestamp t' = offsetDatetimeToCp56Timestamp t) ∧
    (MonotoneUpTo limit ↔ limit < 2 ^ 64) := by
  refine ⟨⟨fun he => ?_, millis_of_lt h⟩, fun t' h => ?_, ⟨fun hm => ?_, ?_⟩⟩
  · rw [acceptedTime_iff] at h
    rw [millis_eq, sourceMillis] at he
    omega
  · unfold offsetDatetimeToCp56Timestamp
    rw [h]
  · -- the last nanosecond that fits, and the next one
    by_contra hn
    have hs := hm ⟨2 ^ 64 - 1, 0⟩ ⟨2 ^ 64, 0⟩ (acceptedTime_iff.mpr (by decide))
      (acceptedTime_iff.mpr (by decide)) (not_lt.mp hn) (by decide)
    revert hs
    decide +kernel
  · intro hl t t' h h' ht' ht
    have he := millis_of_lt h (by omega)
    have he' := millis_of_lt h' (by omega)
    unfold sourceMillis at he he'
    omega

theorem millis_exact_iff_sample :
    (offsetDatetimeToCp56Timestamp ⟨1780317296789654321, 7200⟩).ms = 1780317296789 ∧
      MonotoneUpTo 4102444800000000000 := by
  have ht : AcceptedTime ⟨1780317296789654321, 7200⟩ := rfl
  have hl : (0 : Int) ≤ 4102444800000000000 := by decide
  obtain ⟨hexact, -, hmono⟩ := millis_exact_iff ht hl
  exact ⟨UInt64.toNat_inj.mp (Int.ofNat.inj (hexact.mpr (by decide))), hmono.mpr (by decide)⟩

/-- 21 July 2554, 23:34:33.709551616 UTC, is sent as the beginning of 1970. -/
theorem millis_wrap : ∃ t t', AcceptedTime t ∧ AcceptedTime t' ∧
    t.unixTimestampNanos < t'.unixTimestampNanos ∧
    (offsetDatetimeToCp56Timestamp t).ms = 1780317296789 ∧
    (offsetDatetimeToCp56Timestamp t').ms = 0 ∧ sourceMillis t' = 18446744073709 :=
  ⟨⟨1780317296789654321, 0⟩, ⟨18446744073709551616, 0⟩, rfl, rfl, by decide, by decide +kernel,
    by decide +kernel, by decide +kernel⟩

/-! ## On the wire -/

variable {ι : Type} {cfg : Settings} {s : State ι} {w : List (Effect ι)}
  {write : Timestamp → Cp56Time2a}

/-- What a reader of the wire sees of a source time. -/
def decodedTime (write : Timestamp → Cp56Time2a) (t : OffsetDateTime) : TimeReading :=
  decodeCp56Time (write (offsetDatetimeToCp56Timestamp t))

/-- The date and the time of a source time, in UTC and rounded down to milliseconds. -/
def sourceReading (t : OffsetDateTime) : TimeReading := readingOf (.ofMillis (sourceMillis t).toNat)

/-- A source time from 2000 to 2099, which the calendar of the wire has. -/
def InCentury (t : OffsetDateTime) : Prop :=
  946684800000000000 ≤ t.unixTimestampNanos ∧ t.unixTimestampNanos < 4102444800000000000

theorem InCentury.accepted {t : OffsetDateTime} (h : InCentury t) : AcceptedTime t := by
  rw [acceptedTime_iff]
  exact le_trans (by decide) h.1

theorem InCentury.lt {t : OffsetDateTime} (h : InCentury t) : t.unixTimestampNanos < 2 ^ 64 :=
  lt_trans h.2 (by decide)

/-- The year of a source time in the century. -/
theorem InCentury.year {t : OffsetDateTime} (h : InCentury t) :
    ¬ (UtcTime.ofMillis (sourceMillis t).toNat).date.year < 2000 ∧
      (UtcTime.ofMillis (sourceMillis t).toNat).date.year < 2100 := by
  obtain ⟨h₁, h₂⟩ := h
  have h₂₀₀₀ : CivilDate.newYear 2000 = 10957 := rfl
  have h₂₁₀₀ : CivilDate.newYear 2100 = 47482 := rfl
  rw [UtcTime.year_ofMillis_lt_iff, UtcTime.year_ofMillis_lt_iff, h₂₀₀₀, h₂₁₀₀, sourceMillis]
  omega

/-- A reader takes the year for one of this century. -/
theorem decodedTime_eq (hw : WritesUtc write) {t : OffsetDateTime} (h : AcceptedTime t)
    (hl : t.unixTimestampNanos < 2 ^ 64) :
    decodedTime write t = centuryReading (.ofMillis (sourceMillis t).toNat) := by
  have hms : (offsetDatetimeToCp56Timestamp t).ms.toNat = (sourceMillis t).toNat := by
    have he := millis_of_lt h hl
    omega
  unfold decodedTime
  rw [(hw _).decode, hms]

/-- What reaches a reader of a source time. -/
structure Carried (write : Timestamp → Cp56Time2a) (t : OffsetDateTime) : Prop where
  exact : InCentury t → decodedTime write t = sourceReading t
  /-- The other instants lose their century. -/
  century : t.unixTimestampNanos < 2 ^ 64 →
    decodedTime write t = centuryReading (.ofMillis (sourceMillis t).toNat)

theorem carried_of_accepted (hw : WritesUtc write) {t : OffsetDateTime} (h : AcceptedTime t) :
    Carried write t where
  exact hc := by
    obtain ⟨hy, hy'⟩ := hc.year
    rw [decodedTime_eq hw h hc.lt, centuryReading_eq hy hy', sourceReading]
  century hl := decodedTime_eq hw h hl

/-- Source times of the century a millisecond apart are seen as different. -/
theorem decodedTime_ne (hw : WritesUtc write) {t t' : OffsetDateTime} (h : InCentury t)
    (h' : InCentury t') (hd : 1000000 ≤ |t.unixTimestampNanos - t'.unixTimestampNanos|) :
    decodedTime write t ≠ decodedTime write t' := by
  rw [(carried_of_accepted hw h.accepted).exact h, (carried_of_accepted hw h'.accepted).exact h']
  intro he
  have hms := readingOf_ofMillis_inj.mp he
  obtain ⟨h₁, -⟩ := h
  obtain ⟨h₁', -⟩ := h'
  unfold sourceMillis at hms
  rcases abs_cases (t.unixTimestampNanos - t'.unixTimestampNanos) with ⟨ha, -⟩ | ⟨ha, -⟩ <;> omega

/-- **Source times on the wire.** The time of each timed frame is the accepted
source time of its message, and a reader sees this instant if it is in the
century. Two source times of the century a millisecond apart are not seen as one. -/
theorem sourceTime_carried (hw : WritesUtc write) (h : (process ι cfg).Run w s) :
    (∀ e ∈ w, ∀ now asdu, e.frame = some (now, asdu) → ∀ ts, asdu.object.time = some ts →
      ∃ point ∈ arrivals w, ∃ t, asdu.At (point.key cfg.defaultCa) ∧ point.message.Valid ∧
        point.message.timestamp = some t ∧ ts = offsetDatetimeToCp56Timestamp t ∧
        Carried write t) ∧
    ∀ t t', InCentury t → InCentury t' →
      1000000 ≤ |t.unixTimestampNanos - t'.unixTimestampNanos| →
      decodedTime write t ≠ decodedTime write t' := by
  refine ⟨fun e he now asdu hf ts hts => ?_, fun t t' ht ht' => decodedTime_ne hw ht ht'⟩
  obtain ⟨point, harr, hv, hframe⟩ := arrival_of_frame h he hf
  have hk := hframe.at_iff.mpr rfl
  obtain ⟨cot, -, rfl⟩ := hframe
  have hwire : wireTime cfg.policy.sendTimestamps { point.message with cot } = some ts := hts
  unfold wireTime at hwire
  split at hwire
  · obtain ⟨t, ht, rfl⟩ := Option.map_eq_some_iff.mp hwire
    have ha : AcceptedTime t := by
      have hv' := hv.checks.2.2.1
      rwa [show point.message.timestamp = some t from ht] at hv'
    exact ⟨point, harr, t, hk, hv, ht, rfl, carried_of_accepted hw ha⟩
  · cases hwire

/-- A writer with the fields of the format. -/
def writeUtc (ts : Timestamp) : Cp56Time2a := fieldBytes (.ofMillis ts.ms.toNat)

theorem writesUtc_writeUtc : WritesUtc writeUtc := fun _ => hasFields_fieldBytes _

def timedMessage (t : OffsetDateTime) : Iec104Message :=
  { Iec104Message.sample 100 true with timestamp := some t }

/-- The message of 1 June 2026, 12:34:56.789 UTC, is read as such. -/
theorem sourceTime_carried_sample : ∃ w s asdu ts, (process Nat .sample).Run w s ∧
    .handed 0 (.sample 1) asdu ∈ w ∧ asdu.object.time = some ts ∧
    decodeCp56Time (writeUtc ts) = ⟨2026, 6, 1, 12, 34, 56, 789⟩ ∧
    ∃ point ∈ arrivals w, ∃ t, asdu.At (point.key 1) ∧ point.message.Valid ∧
      point.message.timestamp = some t ∧ ts = offsetDatetimeToCp56Timestamp t ∧ Carried writeUtc t := by
  let message := timedMessage ⟨1780317296789000000, 0⟩
  obtain ⟨w, s, h, hw⟩ := Machine.exists_run_of_exec (M := process Nat .sample)
    (.task (.build true) :: handleMessage 0 message (.sample 1))
    (fun w _ => decide (.handed 0 (.sample 1) (spontaneousFrame .sample message (.sample 1)) ∈ w))
    true (by decide +kernel)
  have he := of_decide_eq_true hw
  exact ⟨w, s, _, _, h, he, rfl, by decide +kernel,
    (sourceTime_carried writesUtc_writeUtc h).1 _ he _ _ rfl _ rfl⟩

/-- A source clock reset to the epoch reaches the master as the year 2070. -/
theorem epoch_century_lost : ∃ w s asdu ts, WritesUtc writeUtc ∧ (process Nat .sample).Run w s ∧
    (∀ point ∈ arrivals w, point.message.Valid ∧ point.message.timestamp = some (.sample 0)) ∧
    .handed 0 (.sample 1) asdu ∈ w ∧ asdu.object.time = some ts ∧
    decodeCp56Time (writeUtc ts) = ⟨2070, 1, 1, 0, 0, 0, 0⟩ ∧
    sourceReading (.sample 0) = ⟨1970, 1, 1, 0, 0, 0, 0⟩ := by
  obtain ⟨w, s, h, hw⟩ := Machine.exists_run_of_exec (M := process Nat .sample)
    (.task (.build true) :: handleMessage 0 (timedMessage (.sample 0)) (.sample 1))
    (fun w _ => decide ((∀ point ∈ arrivals w, point.message.Valid ∧
        point.message.timestamp = some (.sample 0)) ∧
      .handed 0 (.sample 1) (spontaneousFrame .sample (timedMessage (.sample 0)) (.sample 1)) ∈ w))
    true (by decide +kernel)
  obtain ⟨hv, he⟩ := of_decide_eq_true hw
  exact ⟨w, s, _, _, writesUtc_writeUtc, h, hv, he, rfl, by decide +kernel, by decide +kernel⟩

end Iec104Bridge
