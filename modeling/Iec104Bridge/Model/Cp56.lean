import Iec104Bridge.Framework.Calendar
import Iec104Bridge.Model.Asdu

/-!
# Times on the wire (`print_messages.py`)

lib60870 writes a time as seven bytes, and a reader of the wire takes them for
a calendar date of this century. `lib60870`'s side is a parameter, of which
only the fields of the format are assumed (`WritesUtc`).
-/

namespace Iec104Bridge

open Framework

/-- The seven bytes of a CP56Time2a. -/
abbrev Cp56Time2a := Vector UInt8 7

/-- The numbers of a printed time. -/
structure TimeReading where
  year : Nat
  month : Nat
  day : Nat
  hour : Nat
  minute : Nat
  second : Nat
  millisecond : Nat
  deriving DecidableEq

/-- `decode_cp56_time`, before the numbers are formatted. -/
def decodeCp56Time (raw : Cp56Time2a) : TimeReading :=
  let millis := raw[0].toNat ||| (raw[1].toNat <<< 8)
  { year := 2000 + (raw[6].toNat &&& 0x7F)
    month := raw[5].toNat &&& 0x0F
    day := raw[4].toNat &&& 0x1F
    hour := raw[3].toNat &&& 0x1F
    minute := raw[2].toNat &&& 0x3F
    second := millis / 1000
    millisecond := millis % 1000 }

/-- The numbers of an instant's date and time in UTC. -/
def readingOf (t : UtcTime) : TimeReading where
  year := t.date.year
  month := t.date.month
  day := t.date.day
  hour := t.hour
  minute := t.minute
  second := t.second
  millisecond := t.millisecond

/-- The fields of `raw` are those of `t`, with the year modulo 100. The other bits are free. -/
structure HasFields (raw : Cp56Time2a) (t : UtcTime) : Prop where
  millis : raw[0].toNat + 256 * raw[1].toNat = 1000 * t.second + t.millisecond
  minute : raw[2].toNat % 64 = t.minute
  hour : raw[3].toNat % 32 = t.hour
  day : raw[4].toNat % 32 = t.date.day
  month : raw[5].toNat % 16 = t.date.month
  year : raw[6].toNat % 128 = t.date.year % 100

/-- `write` gives the bytes of a time made by `Timestamp::from_ms`: the instant's fields in UTC. -/
def WritesUtc (write : Timestamp → Cp56Time2a) : Prop :=
  ∀ ts, HasFields (write ts) (.ofMillis ts.ms.toNat)

/-- The numbers of `t`, with the year taken for one of this century. -/
def centuryReading (t : UtcTime) : TimeReading :=
  { readingOf t with year := 2000 + t.date.year % 100 }

theorem readingOf_injective : Function.Injective readingOf := by
  rintro ⟨⟨year, month, day, _, _, _, _, _⟩, hour, minute, second, millisecond⟩
    ⟨⟨year', month', day', _, _, _, _, _⟩, hour', minute', second', millisecond'⟩ h
  simp only [readingOf, TimeReading.mk.injEq, Fin.val_inj] at h
  obtain ⟨rfl, rfl, rfl, rfl, rfl, rfl, rfl⟩ := h
  rfl

/-- Different instants have different readings. -/
theorem readingOf_ofMillis_inj {ms ms' : Nat} :
    readingOf (.ofMillis ms) = readingOf (.ofMillis ms') ↔ ms = ms' :=
  (readingOf_injective.comp UtcTime.ofMillis_injective).eq_iff

/-- A reader takes the year for one of this century. -/
theorem HasFields.decode {raw : Cp56Time2a} {t : UtcTime} (h : HasFields raw t) :
    decodeCp56Time raw = centuryReading t := by
  have h₀ : raw[0].toNat ||| (raw[1].toNat <<< 8) = 1000 * t.second + t.millisecond := by
    rw [← h.millis, Nat.or_comm, Nat.shiftLeft_eq, Nat.mul_comm,
      ← Nat.two_pow_add_eq_or_of_lt (UInt8.toNat_lt _), Nat.add_comm]
  have h₂ : raw[2].toNat &&& 0x3F = t.minute := by
    rw [← h.minute]
    exact Nat.and_two_pow_sub_one_eq_mod _ 6
  have h₃ : raw[3].toNat &&& 0x1F = t.hour := by
    rw [← h.hour]
    exact Nat.and_two_pow_sub_one_eq_mod _ 5
  have h₄ : raw[4].toNat &&& 0x1F = t.date.day := by
    rw [← h.day]
    exact Nat.and_two_pow_sub_one_eq_mod _ 5
  have h₅ : raw[5].toNat &&& 0x0F = t.date.month := by
    rw [← h.month]
    exact Nat.and_two_pow_sub_one_eq_mod _ 4
  have h₆ : raw[6].toNat &&& 0x7F = t.date.year % 100 := by
    rw [← h.year]
    exact Nat.and_two_pow_sub_one_eq_mod _ 7
  have hms := t.millisecond.isLt
  simp only [decodeCp56Time, centuryReading, readingOf, h₀, h₂, h₃, h₄, h₅, h₆, TimeReading.mk.injEq,
    true_and]
  omega

/-- A year of this century is taken for itself. -/
theorem centuryReading_eq {t : UtcTime} (h : ¬ t.date.year < 2000) (h' : t.date.year < 2100) :
    centuryReading t = readingOf t := by
  have hy : 2000 + t.date.year % 100 = t.date.year := by omega
  unfold centuryReading
  rw [hy]
  rfl

/-- The fields of `t` in bytes, with the other bits 0. -/
def fieldBytes (t : UtcTime) : Cp56Time2a :=
  #v[.ofNat ((1000 * t.second + t.millisecond) % 256), .ofNat ((1000 * t.second + t.millisecond) / 256),
    .ofNat t.minute, .ofNat t.hour, .ofNat t.date.day, .ofNat t.date.month, .ofNat (t.date.year % 100)]

theorem hasFields_fieldBytes (t : UtcTime) : HasFields (fieldBytes t) t := by
  have hs := t.second.isLt
  have hm := t.millisecond.isLt
  have hi := t.minute.isLt
  have hh := t.hour.isLt
  have hd := t.date.day_le.trans (monthLength_le _ _)
  have hm' := t.date.month_le
  constructor
  · show (UInt8.ofNat _).toNat + 256 * (UInt8.ofNat _).toNat = _
    simp only [UInt8.toNat_ofNat']
    omega
  · show (UInt8.ofNat _).toNat % 64 = _
    rw [UInt8.toNat_ofNat']
    omega
  · show (UInt8.ofNat _).toNat % 32 = _
    rw [UInt8.toNat_ofNat']
    omega
  · show (UInt8.ofNat _).toNat % 32 = _
    rw [UInt8.toNat_ofNat']
    omega
  · show (UInt8.ofNat _).toNat % 16 = _
    rw [UInt8.toNat_ofNat']
    omega
  · show (UInt8.ofNat _).toNat % 128 = _
    rw [UInt8.toNat_ofNat']
    omega

end Iec104Bridge
