import Iec104Bridge.Framework.Trace
import Mathlib.Algebra.BigOperators.Group.Finset.Basic
import Mathlib.Order.WellFounded

/-!
# Inputs that come to an end

`Terminates M K s` says that inputs of the kind `K` cannot go on forever from
`s`, whichever are chosen; it follows from a rank that each of them lowers
(`Terminates.of_rank`). A machine that runs out of them is `Idle`, and it can be
brought there (`Terminates.exec_idle`).
-/

namespace Framework

namespace Machine

variable {σ α ω : Type*} {M : Machine σ α ω} {K : α → Prop} {s t : σ}

/-- An input of the kind leads from `s` to `t`. -/
def Leads (M : Machine σ α ω) (K : α → Prop) (t s : σ) : Prop :=
  ∃ a o, K a ∧ M.step s a = some (t, o)

/-- Inputs of the kind cannot go on forever. -/
def Terminates (M : Machine σ α ω) (K : α → Prop) (s : σ) : Prop := Acc (M.Leads K) s

/-- No input of the kind is possible. -/
def Idle (M : Machine σ α ω) (K : α → Prop) (s : σ) : Prop := ∀ a, K a → M.step s a = none

/-- Inputs of the kind end, if each of them lowers a rank and keeps an invariant. -/
theorem Terminates.of_rank {ρ : Type*} [Preorder ρ] [WellFoundedLT ρ] (rank : σ → ρ) {I : σ → Prop}
    (hstep : ∀ s a t o, I s → K a → M.step s a = some (t, o) → I t ∧ rank t < rank s) (h : I s) :
    M.Terminates K s := by
  induction hr : rank s using WellFoundedLT.induction generalizing s with
  | ind r ih =>
    refine Acc.intro s fun t ht => ?_
    obtain ⟨a, o, ha, hs⟩ := ht
    obtain ⟨hi, hlt⟩ := hstep s a t o h ha hs
    exact ih (rank t) (hr ▸ hlt) hi rfl

/-- Inputs of the kind bring the machine to a state where none is possible. -/
theorem Terminates.exec_idle (h : M.Terminates K s) :
    ∃ as w t, (∀ a ∈ as, K a) ∧ M.exec s as = some (t, w) ∧ M.Idle K t := by
  induction h with
  | intro s _ ih =>
    by_cases hi : M.Idle K s
    · exact ⟨[], [], s, fun a ha => absurd ha List.not_mem_nil, rfl, hi⟩
    · obtain ⟨a, hi⟩ := not_forall.mp hi
      obtain ⟨ha, hs⟩ := Classical.not_imp.mp hi
      obtain ⟨⟨t, o⟩, hs⟩ := Option.ne_none_iff_exists'.mp hs
      obtain ⟨as, w, u, has, he, hu⟩ := ih t ⟨a, o, ha, hs⟩
      refine ⟨a :: as, o.toList ++ w, u, fun b hb => ?_, ?_, hu⟩
      · rcases List.mem_cons.mp hb with rfl | hb
        · exact ha
        · exact has b hb
      · simp [exec, hs, he]

end Machine

/-! ## Sums -/

/-- A sum after one of its terms has changed. -/
theorem sum_range_change {f g : ℕ → ℕ} {n c : ℕ} (hc : c < n) (h : ∀ d, d ≠ c → f d = g d) :
    ∑ d ∈ Finset.range n, f d + g c = ∑ d ∈ Finset.range n, g d + f c := by
  have hm : c ∈ Finset.range n := Finset.mem_range.mpr hc
  have he : ∑ d ∈ (Finset.range n).erase c, f d = ∑ d ∈ (Finset.range n).erase c, g d :=
    Finset.sum_congr rfl fun d hd => h d (Finset.ne_of_mem_erase hd)
  have hf := Finset.add_sum_erase (Finset.range n) f hm
  have hg := Finset.add_sum_erase (Finset.range n) g hm
  omega

end Framework
