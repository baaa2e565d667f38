import Mathlib.Data.Rat.Floor
import Mathlib.Data.Int.Log
import Mathlib.Tactic.Linarith

/-!
# Binary floating-point numbers as rationals

A format has `p` bits of precision and least exponent `emin`: its numbers are
the multiples `m · 2 ^ e` with `|m| < 2 ^ p` and `emin ≤ e`, below a greatest
magnitude. `roundBinary` rounds a rational to the format, to nearest and with
ties to even, before any overflow: a result within the format's range is one of
its numbers (`isBinary_roundBinary`), these are left alone
(`roundBinary_of_isBinary`), and a power of two is reached half a unit below it
(`two_zpow_le_abs_roundBinary_iff`).
-/

namespace Framework

/-- `q` is a number of the format with precision `p` and exponents from
`emin` to `emax`. -/
def IsBinary (p : Nat) (emin emax : Int) (q : ℚ) : Prop :=
  ∃ m e : Int, |m| < 2 ^ p ∧ emin ≤ e ∧ e ≤ emax ∧ q = m * 2 ^ e

/-- The nearest integer, the even one of two. -/
def roundHalfEven (x : ℚ) : Int :=
  if x - ⌊x⌋ < 1 / 2 then ⌊x⌋
  else if 1 / 2 < x - ⌊x⌋ then ⌊x⌋ + 1
  else if ⌊x⌋ % 2 = 0 then ⌊x⌋ else ⌊x⌋ + 1

/-- The distance of the format's numbers around `q`. -/
def binaryUlp (p : Nat) (emin : Int) (q : ℚ) : ℚ := 2 ^ max (Int.log 2 |q| - (p - 1)) emin

/-- `q` rounded to the format, without overflow. -/
def roundBinary (p : Nat) (emin : Int) (q : ℚ) : ℚ :=
  roundHalfEven (q / binaryUlp p emin q) * binaryUlp p emin q

example : roundBinary 24 (-149) (1 / 10) = 13421773 / 134217728 := by decide +kernel

/-- The integer part, towards zero. -/
def truncate (q : ℚ) : Int := q.num.tdiv q.den

/-- The part `truncate` drops. -/
def fractional (q : ℚ) : ℚ := q - truncate q

/-! ## Rounding to an integer -/

/-- The result is at most a half away, and even if it is a half away. -/
theorem roundHalfEven_spec (x : ℚ) :
    |x - roundHalfEven x| ≤ 1 / 2 ∧ (|x - roundHalfEven x| = 1 / 2 → Even (roundHalfEven x)) := by
  have h₁ := Int.floor_le x
  have h₂ := Int.lt_floor_add_one x
  have hdown : |x - ⌊x⌋| = x - ⌊x⌋ := abs_of_nonneg (by linarith)
  have hup : |x - (⌊x⌋ + 1)| = 1 - (x - ⌊x⌋) := by
    rw [abs_of_nonpos (by linarith)]
    ring
  unfold roundHalfEven
  split
  · rename_i h
    rw [hdown]
    exact ⟨h.le, fun he => absurd he h.ne⟩
  · split
    · rename_i h
      push_cast
      rw [hup]
      exact ⟨by linarith, fun he => by linarith⟩
    · rename_i h h'
      have hx : x - ⌊x⌋ = 1 / 2 := le_antisymm (not_lt.mp h') (not_lt.mp h)
      split
      · rename_i he
        rw [hdown]
        exact ⟨hx.le, fun _ => Int.even_iff.mpr he⟩
      · rename_i ho
        push_cast
        rw [hup]
        exact ⟨by linarith, fun _ => Int.even_iff.mpr (by omega)⟩

/-- Two integers no more than a half away from `x` are next to each other, and
`x` is halfway. -/
theorem halfway_of_lt {x : ℚ} {m n : Int} (hm : |x - m| ≤ 1 / 2) (hn : |x - n| ≤ 1 / 2)
    (h : m < n) : n = m + 1 ∧ |x - m| = 1 / 2 ∧ |x - n| = 1 / 2 := by
  have hle : (m : ℚ) + 1 ≤ n := by exact_mod_cast h
  have hm' := (abs_le.mp hm).2
  have hn' := (abs_le.mp hn).1
  have hone : (n : ℚ) = m + 1 := by linarith
  refine ⟨by exact_mod_cast hone, hm.antisymm ?_, hn.antisymm ?_⟩
  · rw [abs_of_nonneg (by linarith)]
    linarith
  · rw [abs_of_nonpos (by linarith)]
    linarith

/-- There is no other such number. -/
theorem roundHalfEven_eq {x : ℚ} {n : Int} (h : |x - n| ≤ 1 / 2) (he : |x - n| = 1 / 2 → Even n) :
    roundHalfEven x = n := by
  obtain ⟨h', he'⟩ := roundHalfEven_spec x
  generalize roundHalfEven x = m at h' he'
  rcases lt_trichotomy m n with hlt | heq | hlt
  · obtain ⟨hone, hm, hn⟩ := halfway_of_lt h' h hlt
    have := Int.even_iff.mp (he hn)
    have := Int.even_iff.mp (he' hm)
    omega
  · exact heq
  · obtain ⟨hone, hn, hm⟩ := halfway_of_lt h h' hlt
    have := Int.even_iff.mp (he hn)
    have := Int.even_iff.mp (he' hm)
    omega

theorem roundHalfEven_intCast (n : Int) : roundHalfEven n = n :=
  roundHalfEven_eq (by norm_num) (by norm_num)

theorem roundHalfEven_neg (x : ℚ) : roundHalfEven (-x) = -roundHalfEven x := by
  obtain ⟨h, he⟩ := roundHalfEven_spec x
  have hn : |-x - ((-roundHalfEven x : Int) : ℚ)| = |x - roundHalfEven x| := by
    rw [← abs_neg]
    congr 1
    push_cast
    ring
  refine roundHalfEven_eq (by rwa [hn]) fun hx => ?_
  exact (he (hn ▸ hx)).neg

theorem le_roundHalfEven {x : ℚ} {n : Int} (h : (n : ℚ) ≤ x) : n ≤ roundHalfEven x := by
  have h' := (abs_le.mp (roundHalfEven_spec x).1).2
  have : (n : ℚ) < roundHalfEven x + 1 := by linarith
  exact Int.lt_add_one_iff.mp (by exact_mod_cast this)

theorem roundHalfEven_le {x : ℚ} {n : Int} (h : x ≤ n) : roundHalfEven x ≤ n := by
  have h' := (abs_le.mp (roundHalfEven_spec x).1).1
  have : (roundHalfEven x : ℚ) < n + 1 := by linarith
  exact Int.lt_add_one_iff.mp (by exact_mod_cast this)

/-- An even number is reached from the half below it on. -/
theorem le_roundHalfEven_iff {n : Int} (hn : Even n) {x : ℚ} :
    n ≤ roundHalfEven x ↔ (n : ℚ) - 1 / 2 ≤ x := by
  obtain ⟨h, he⟩ := roundHalfEven_spec x
  generalize roundHalfEven x = m at h he
  have hb := abs_le.mp h
  refine ⟨fun hle => ?_, fun hx => not_lt.mp fun hlt => ?_⟩
  · have : (n : ℚ) ≤ m := by exact_mod_cast hle
    linarith
  · have hle : (m : ℚ) + 1 ≤ n := by exact_mod_cast hlt
    have hxn : |x - n| ≤ 1 / 2 := abs_le.mpr ⟨by linarith, by linarith⟩
    obtain ⟨hone, hm, -⟩ := halfway_of_lt h hxn hlt
    have := Int.even_iff.mp (he hm)
    have := Int.even_iff.mp hn
    omega

theorem roundHalfEven_abs (x : ℚ) : roundHalfEven |x| = |roundHalfEven x| := by
  rcases le_total 0 x with h | h
  · have : 0 ≤ roundHalfEven x := le_roundHalfEven (by exact_mod_cast h)
    rw [abs_of_nonneg h, abs_of_nonneg this]
  · have : roundHalfEven x ≤ 0 := roundHalfEven_le (by exact_mod_cast h)
    rw [abs_of_nonpos h, abs_of_nonpos this, roundHalfEven_neg]

/-! ## Truncation -/

theorem truncate_intCast (n : Int) : truncate n = n := by
  simp [truncate]

theorem truncate_neg (q : ℚ) : truncate (-q) = -truncate q := by
  rw [truncate, truncate, Rat.num_neg_eq_neg_num, Rat.den_neg_eq_den, Int.neg_tdiv]

theorem truncate_of_nonneg {q : ℚ} (h : 0 ≤ q) : truncate q = ⌊q⌋ := by
  rw [truncate, Rat.floor_def', Int.tdiv_eq_ediv_of_nonneg (Rat.num_nonneg.mpr h)]

theorem truncate_of_nonpos {q : ℚ} (h : q ≤ 0) : truncate q = ⌈q⌉ := by
  rw [← neg_neg (truncate q), ← truncate_neg, truncate_of_nonneg (neg_nonneg.mpr h), Int.floor_neg,
    neg_neg]

theorem truncate_mono {q r : ℚ} (h : q ≤ r) : truncate q ≤ truncate r := by
  rcases le_total 0 q with hq | hq
  · rw [truncate_of_nonneg hq, truncate_of_nonneg (hq.trans h)]
    exact Int.floor_le_floor h
  · rcases le_total 0 r with hr | hr
    · rw [truncate_of_nonpos hq, truncate_of_nonneg hr]
      exact (Int.ceil_le.mpr (by exact_mod_cast hq)).trans (Int.le_floor.mpr (by exact_mod_cast hr))
    · rw [truncate_of_nonpos hq, truncate_of_nonpos hr]
      exact Int.ceil_le_ceil h

theorem le_truncate {q : ℚ} {n : Int} (h : (n : ℚ) ≤ q) : n ≤ truncate q := by
  rw [← truncate_intCast n]
  exact truncate_mono h

theorem truncate_le {q : ℚ} {n : Int} (h : q ≤ n) : truncate q ≤ n := by
  rw [← truncate_intCast n]
  exact truncate_mono h

/-- What `truncate` drops is the fraction of the magnitude. -/
theorem abs_sub_truncate (q : ℚ) : |q - truncate q| = Int.fract |q| := by
  have hpos : ∀ r : ℚ, 0 ≤ r → |r - truncate r| = Int.fract r := fun r hr => by
    rw [truncate_of_nonneg hr, Int.self_sub_floor, abs_of_nonneg (Int.fract_nonneg r)]
  rcases le_total 0 q with h | h
  · rw [abs_of_nonneg h, hpos q h]
  · rw [abs_of_nonpos h, ← hpos (-q) (neg_nonneg.mpr h), truncate_neg, ← abs_neg]
    congr 1
    push_cast
    ring

theorem fractional_eq_zero_iff {q : ℚ} : fractional q = 0 ↔ ∃ n : Int, q = n := by
  refine ⟨fun h => ⟨truncate q, sub_eq_zero.mp h⟩, ?_⟩
  rintro ⟨n, rfl⟩
  rw [fractional, truncate_intCast, sub_self]

/-! ## Rounding to a format -/

variable {p : Nat} {emin emax : Int}

/-- The exponent of `binaryUlp`. -/
def ulpExponent (p : Nat) (emin : Int) (q : ℚ) : Int := max (Int.log 2 |q| - (p - 1)) emin

theorem roundBinary_eq (p : Nat) (emin : Int) (q : ℚ) :
    roundBinary p emin q =
      roundHalfEven (q / 2 ^ ulpExponent p emin q) * 2 ^ ulpExponent p emin q := rfl

theorem roundBinary_zero (p : Nat) (emin : Int) : roundBinary p emin 0 = 0 := by
  rw [roundBinary_eq, zero_div, show roundHalfEven 0 = 0 from roundHalfEven_intCast 0, Int.cast_zero,
    zero_mul]

theorem two_zpow_pos (e : Int) : (0 : ℚ) < 2 ^ e := zpow_pos (by norm_num) e

theorem two_zpow_sub (a b : Int) : (2 : ℚ) ^ a / 2 ^ b = 2 ^ (a - b) :=
  (zpow_sub₀ (by norm_num) a b).symm

/-- A power of two that is an integer. -/
theorem two_zpow_eq_natPow {e : Int} (h : 0 ≤ e) : (2 : ℚ) ^ e = ((2 ^ e.toNat : Int) : ℚ) := by
  obtain ⟨n, rfl⟩ := Int.eq_ofNat_of_zero_le h
  simp

/-- The magnitude is between two powers of two. -/
theorem log_spec {q : ℚ} (h : q ≠ 0) :
    (2 : ℚ) ^ Int.log 2 |q| ≤ |q| ∧ |q| < 2 ^ (Int.log 2 |q| + 1) :=
  ⟨by exact_mod_cast Int.zpow_log_le_self one_lt_two (abs_pos.mpr h),
    by exact_mod_cast Int.lt_zpow_succ_log_self one_lt_two |q|⟩

theorem abs_roundBinary (p : Nat) (emin : Int) (q : ℚ) :
    |roundBinary p emin q| =
      roundHalfEven (|q| / 2 ^ ulpExponent p emin q) * 2 ^ ulpExponent p emin q := by
  have hu := abs_of_pos (two_zpow_pos (ulpExponent p emin q))
  rw [roundBinary_eq, abs_mul, hu, ← Int.cast_abs, ← roundHalfEven_abs, abs_div, hu]

/-- A power of two of at least two units is reached half a unit below it. -/
theorem two_zpow_le_roundHalfEven_iff {e E : Int} (h : e < E) (x : ℚ) :
    2 ^ E ≤ (roundHalfEven (x / 2 ^ e) : ℚ) * 2 ^ e ↔ (2 : ℚ) ^ E - 2 ^ (e - 1) ≤ x := by
  have hu := two_zpow_pos e
  have hn : (2 : ℚ) ^ (E - e) = ((2 ^ (E - e).toNat : Int) : ℚ) := two_zpow_eq_natPow (by omega)
  have heven : Even ((2 : Int) ^ (E - e).toNat) := (even_two.pow_of_ne_zero (by omega))
  have hhalf : (2 : ℚ) ^ (e - 1) = 2 ^ e / 2 := zpow_sub_one₀ (by norm_num) e
  rw [← div_le_iff₀ hu, two_zpow_sub, hn, Int.cast_le, le_roundHalfEven_iff heven, ← hn, le_div_iff₀ hu,
    sub_mul, ← two_zpow_sub, div_mul_cancel₀ _ hu.ne', hhalf, one_div_mul_eq_div]

/-- A power of two of at least one unit bounds the result if it bounds the number. -/
theorem two_zpow_le_roundHalfEven {e E : Int} (h : e ≤ E) {x : ℚ} (hx : 2 ^ E ≤ x) :
    2 ^ E ≤ (roundHalfEven (x / 2 ^ e) : ℚ) * 2 ^ e := by
  have hu := two_zpow_pos e
  have hn : (2 : ℚ) ^ (E - e) = ((2 ^ (E - e).toNat : Int) : ℚ) := two_zpow_eq_natPow (by omega)
  rw [← div_le_iff₀ hu, two_zpow_sub, hn, Int.cast_le]
  apply le_roundHalfEven
  rw [← hn, ← two_zpow_sub]
  exact div_le_div_of_nonneg_right hx hu.le

theorem roundHalfEven_le_two_zpow {e E : Int} (h : e ≤ E) {x : ℚ} (hx : x ≤ 2 ^ E) :
    (roundHalfEven (x / 2 ^ e) : ℚ) * 2 ^ e ≤ 2 ^ E := by
  have hu := two_zpow_pos e
  have hn : (2 : ℚ) ^ (E - e) = ((2 ^ (E - e).toNat : Int) : ℚ) := two_zpow_eq_natPow (by omega)
  rw [← le_div_iff₀ hu, two_zpow_sub, hn, Int.cast_le]
  apply roundHalfEven_le
  rw [← hn, ← two_zpow_sub]
  exact div_le_div_of_nonneg_right hx hu.le

theorem two_zpow_le {a b : Int} (h : a ≤ b) : (2 : ℚ) ^ a ≤ 2 ^ b :=
  zpow_le_zpow_right₀ (by norm_num) h

theorem lt_of_two_zpow_lt {a b : Int} (h : (2 : ℚ) ^ a < 2 ^ b) : a < b :=
  (zpow_lt_zpow_iff_right₀ (by norm_num)).mp h

/-- **Where rounding reaches a power of two**: half a unit below it. -/
theorem two_zpow_le_abs_roundBinary_iff {E : Int} (hp : 1 ≤ p) (hE : emin ≤ E - p) (q : ℚ) :
    2 ^ E ≤ |roundBinary p emin q| ↔ (2 : ℚ) ^ E - 2 ^ (E - p - 1) ≤ |q| := by
  have htwo : (2 : ℚ) ^ E = 2 ^ (E - 1) + 2 ^ (E - 1) := by
    rw [zpow_sub_one₀ (by norm_num)]
    ring
  have hhalf : (2 : ℚ) ^ (E - p - 1) ≤ 2 ^ (E - 1) := two_zpow_le (by omega)
  rcases eq_or_ne q 0 with rfl | h0
  · have := two_zpow_pos (E - 1)
    rw [roundBinary_zero, abs_zero]
    exact iff_of_false (by linarith) (by linarith)
  obtain ⟨hlog, hlog'⟩ := log_spec h0
  rw [abs_roundBinary]
  generalize he : ulpExponent p emin q = e
  unfold ulpExponent at he
  by_cases hq : 2 ^ E ≤ |q|
  · have hEL := lt_of_two_zpow_lt (hq.trans_lt hlog')
    refine iff_of_true ((two_zpow_le (show E ≤ Int.log 2 |q| by omega)).trans ?_)
      ((sub_le_self _ (two_zpow_pos _).le).trans hq)
    exact two_zpow_le_roundHalfEven (by omega) hlog
  · have hLE := lt_of_two_zpow_lt (hlog.trans_lt (not_le.mp hq))
    rw [two_zpow_le_roundHalfEven_iff (by omega)]
    by_cases hnorm : e = E - p
    · rw [hnorm]
    · -- the number is below the half of the power
      have hlt : |q| < 2 ^ (E - 1) := hlog'.trans_le (two_zpow_le (by omega))
      have hunit : (2 : ℚ) ^ (e - 1) ≤ 2 ^ (E - 1) := two_zpow_le (by omega)
      exact iff_of_false (by linarith) (by linarith)

/-- A result within the range of the format is one of its numbers. -/
theorem isBinary_roundBinary (hp : 1 ≤ p) (hemin : emin ≤ emax) {q : ℚ}
    (h : |roundBinary p emin q| < 2 ^ (emax + p)) : IsBinary p emin emax (roundBinary p emin q) := by
  rcases eq_or_ne q 0 with rfl | h0
  · exact ⟨0, emin, by simp, le_rfl, hemin, by simp [roundBinary_zero]⟩
  obtain ⟨hlog, hlog'⟩ := log_spec h0
  have habs := abs_roundBinary p emin q
  rw [roundBinary_eq] at h habs ⊢
  generalize he : ulpExponent p emin q = e at h habs ⊢
  unfold ulpExponent at he
  have hup : |(roundHalfEven (q / 2 ^ e) : ℚ) * 2 ^ e| ≤ 2 ^ (p + e) := by
    rw [habs]
    exact roundHalfEven_le_two_zpow (by omega) (hlog'.le.trans (two_zpow_le (by omega)))
  have hlow : emin < e → (2 : ℚ) ^ (p + e - 1) ≤ |(roundHalfEven (q / 2 ^ e) : ℚ) * 2 ^ e| := fun hlt => by
    rw [habs, show (p : Int) + e - 1 = Int.log 2 |q| by omega]
    exact two_zpow_le_roundHalfEven (by omega) hlog
  generalize roundHalfEven (q / 2 ^ e) = m at h hup hlow ⊢
  have hm : |m| ≤ 2 ^ p := by
    rw [abs_mul, abs_of_pos (two_zpow_pos e), zpow_add₀ (by norm_num)] at hup
    exact_mod_cast le_of_mul_le_mul_right hup (two_zpow_pos e)
  rcases hm.lt_or_eq with hlt | heq
  · refine ⟨m, e, hlt, by omega, not_lt.mp fun hlt' => ?_, rfl⟩
    have := lt_of_two_zpow_lt ((hlow (by omega)).trans_lt h)
    omega
  · -- the carry: `2 ^ p` units are `2 ^ (p - 1)` of the next exponent
    have hcarry : |(m : ℚ) * 2 ^ e| = 2 ^ (p + e) := by
      rw [abs_mul, abs_of_pos (two_zpow_pos e), zpow_add₀ (by norm_num)]
      congr 1
      exact_mod_cast heq
    have hlt := lt_of_two_zpow_lt (hcarry ▸ h)
    obtain ⟨k, rfl⟩ : Even m := by
      rw [← even_abs, heq]
      exact even_two.pow_of_ne_zero (by omega)
    refine ⟨k, e + 1, ?_, by omega, by omega, ?_⟩
    · have hk : |k + k| = 2 * |k| := by rw [← two_mul, abs_mul, abs_two]
      have := abs_nonneg k
      have : (0 : Int) < 2 ^ p := by positivity
      omega
    · rw [zpow_add_one₀ (by norm_num)]
      push_cast
      ring

theorem abs_mul_two_zpow_lt {m : Int} (hm : |m| < 2 ^ p) (e : Int) :
    |(m : ℚ) * 2 ^ e| < 2 ^ (p + e) := by
  have hm' : |(m : ℚ)| < 2 ^ (p : Int) := by exact_mod_cast hm
  rw [abs_mul, abs_of_pos (two_zpow_pos e), zpow_add₀ (by norm_num)]
  exact mul_lt_mul_of_pos_right hm' (two_zpow_pos e)

/-- The range of the format. -/
theorem IsBinary.abs_lt {q : ℚ} (h : IsBinary p emin emax q) : |q| < 2 ^ (emax + p) := by
  obtain ⟨m, e, hm, -, hemax, rfl⟩ := h
  exact (abs_mul_two_zpow_lt hm e).trans_le (two_zpow_le (by omega))

/-- The numbers of the format are left alone. -/
theorem roundBinary_of_isBinary {q : ℚ} (h : IsBinary p emin emax q) : roundBinary p emin q = q := by
  rcases eq_or_ne q 0 with rfl | h0
  · exact roundBinary_zero p emin
  obtain ⟨m, e, hm, hemin, -, hq⟩ := h
  have hlog := lt_of_two_zpow_lt ((log_spec h0).1.trans_lt (hq ▸ abs_mul_two_zpow_lt hm e))
  -- the unit divides that of the given representation
  have he : ulpExponent p emin q ≤ e := by
    unfold ulpExponent
    omega
  rw [roundBinary_eq]
  generalize ulpExponent p emin q = e' at he ⊢
  have hdiv : q / 2 ^ e' = ((m * 2 ^ (e - e').toNat : Int) : ℚ) := by
    rw [hq, mul_div_assoc, two_zpow_sub, two_zpow_eq_natPow (by omega), Int.cast_mul]
  rw [hdiv, roundHalfEven_intCast, ← hdiv, div_mul_cancel₀ _ (two_zpow_pos e').ne']

end Framework
