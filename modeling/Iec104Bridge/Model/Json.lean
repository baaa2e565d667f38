import Iec104Bridge.Model.Message

/-!
# The `value` of a message, as it is written

A JSON number is kept as it is written, by sign, digits and exponent. The
untagged `DataValue` takes a boolean or a number and no other JSON value. How
serde_json reads a number as an `f64` is not in this repository: the reader is
a parameter, that must be exact on the integers of an `i16`.
-/

namespace Iec104Bridge

open Framework

/-- A JSON number; leading zeros and a sign of the exponent are not kept. -/
structure JsonNumber where
  negative : Bool
  integer : Nat
  /-- The digits after the point. -/
  fraction : Option (List (Fin 10))
  exponent : Option Int
  fraction_ne : fraction ≠ some []

namespace JsonNumber

/-- Written without a fraction and without an exponent. -/
def IsInteger (n : JsonNumber) : Prop := n.fraction = none ∧ n.exponent = none

/-- The number after the point that `digits` write. -/
def fractionValue : List (Fin 10) → ℚ
  | [] => 0
  | d :: digits => (d.val + fractionValue digits) / 10

/-- The number that is written. -/
def value (n : JsonNumber) : ℚ :=
  (if n.negative then -1 else 1) * (n.integer + fractionValue (n.fraction.getD [])) *
    10 ^ n.exponent.getD 0

theorem IsInteger.value_eq {n : JsonNumber} (h : n.IsInteger) :
    n.value = ((if n.negative then -n.integer else n.integer : Int) : ℚ) := by
  unfold value
  rw [h.1, h.2]
  cases n.negative <;> simp [fractionValue]

/-- `-12.50e3`. -/
example : value ⟨true, 12, some [5, 0], some 3, by decide⟩ = -12500 := by decide +kernel

end JsonNumber

inductive JsonValue
  | bool (value : Bool)
  | number (value : JsonNumber)
  /-- `null`, a string, an array or an object. -/
  | other

/-- A JSON value. An object keeps its members as they are written, in order. -/
inductive Json
  | null
  | bool (value : Bool)
  | number (value : JsonNumber)
  | string (value : String)
  | array (values : List Json)
  | object (members : List (String × Json))

/-- What `DataValue` sees of a value. -/
def Json.simple : Json → JsonValue
  | .bool value => .bool value
  | .number value => .number value
  | _ => .other

/-- `DataValue`, which is `#[serde(untagged)]`. -/
def DataValue.deserialize (read : JsonNumber → Option F64) : JsonValue → Option DataValue
  | .bool value => some (.bool value)
  | .number value => (read value).map .number
  | .other => none

/-- The integers of an `i16` are read as they are written. -/
def ReadsIntegers (read : JsonNumber → Option F64) : Prop :=
  ∀ n : JsonNumber, n.IsInteger → -32768 ≤ n.value → n.value ≤ 32767 →
    ∃ v, read n = some v ∧ v.val = n.value

/-- The `f64` nearest to a rational, if it is finite. -/
def F64.nearest (q : ℚ) : Option F64 :=
  if h : |roundBinary 53 (-1074) q| < 2 ^ ((971 : Int) + (53 : Nat)) then
    some ⟨roundBinary 53 (-1074) q, isBinary_roundBinary (by decide) (by decide) h⟩
  else none

/-- A reader that takes the nearest `f64`. -/
def JsonNumber.readNearest (n : JsonNumber) : Option F64 := F64.nearest n.value

theorem F64.nearest_val (v : F64) : F64.nearest v.val = some v := by
  obtain ⟨q, hq⟩ := v
  simp only [F64.nearest, roundBinary_of_isBinary hq, hq.abs_lt, dif_pos]

theorem readsIntegers_readNearest : ReadsIntegers JsonNumber.readNearest := by
  intro n hn hlow hhigh
  rw [JsonNumber.readNearest]
  rw [hn.value_eq] at hlow hhigh ⊢
  generalize (if n.negative then -n.integer else n.integer : Int) = m at hlow hhigh ⊢
  have hlow' : -32768 ≤ m := by exact_mod_cast hlow
  have hhigh' : m ≤ 32767 := by exact_mod_cast hhigh
  exact ⟨_, F64.nearest_val ⟨m, m, 0, abs_lt.mpr ⟨by omega, by omega⟩, by decide, by decide, by simp⟩, rfl⟩

end Iec104Bridge
