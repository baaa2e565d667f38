import Iec104Bridge.Framework.Machine
import Mathlib.Data.List.Induction
import Mathlib.Order.WellFounded

/-!
# Runs with their inputs

A `Trace` is a run together with the inputs performed. `Purge` says that some
inputs only concern a part of the state that no other input reads: what is left
of a run when they are deleted is a run, which logs the same without the
effects of the deleted inputs (`Purge.trace`). `Trace.reach` continues a run to
a goal that inputs of some kind bring closer, by a rank.
-/

namespace Framework

namespace Machine

variable {σ α ω : Type*} {M : Machine σ α ω}

/-- A run from the initial state that performs the inputs `as`. -/
inductive Trace (M : Machine σ α ω) : List α → List ω → σ → Prop
  | nil : Trace M [] [] M.init
  | snoc {as : List α} {w : List ω} {s t : σ} {a : α} {o : Option ω} :
    Trace M as w s → M.step s a = some (t, o) → Trace M (as ++ [a]) (w ++ o.toList) t

theorem Trace.run {as : List α} {w : List ω} {s : σ} (h : M.Trace as w s) : M.Run w s := by
  induction h with
  | nil => exact .refl _
  | snoc _ hs ih => exact ih.tail hs

theorem Run.trace {w : List ω} {s : σ} (h : M.Run w s) : ∃ as, M.Trace as w s := by
  refine h.invariant (P := fun w s => ∃ as, M.Trace as w s) ⟨[], .nil⟩ ?_
  rintro w s a t o - ⟨as, ih⟩ hs
  exact ⟨as ++ [a], ih.snoc hs⟩

theorem Trace.append_of_exec {as bs : List α} {w w' : List ω} {s t : σ} (h : M.Trace as w s)
    (he : M.exec s bs = some (t, w')) : M.Trace (as ++ bs) (w ++ w') t := by
  induction bs generalizing as w s w' with
  | nil =>
    simp only [exec, Option.some.injEq, Prod.mk.injEq] at he
    obtain ⟨rfl, rfl⟩ := he
    rwa [List.append_nil, List.append_nil]
  | cons b bs ih =>
    simp only [exec] at he
    split at he <;> [cases he; skip]
    rename_i u o hs
    obtain ⟨⟨t', w₂⟩, hx, hr⟩ := Option.map_eq_some_iff.mp he
    simp only [Prod.mk.injEq] at hr
    obtain ⟨rfl, rfl⟩ := hr
    have ht := ih (h.snoc hs) hx
    rwa [List.append_assoc, List.append_assoc] at ht

/-- A list of inputs the machine performs is a trace, from what is observed of its result. -/
theorem exists_trace_of_exec {β : Type*} (as : List α) (f : List ω → σ → β) (b : β)
    (h : ((M.exec M.init as).map fun r => f r.2 r.1) = some b) :
    ∃ w s, M.Trace as w s ∧ f w s = b := by
  obtain ⟨r, hr, rfl⟩ := Option.map_eq_some_iff.mp h
  exact ⟨_, _, by simpa using Trace.nil.append_of_exec hr, rfl⟩

theorem exec_concat {as : List α} {s t u : σ} {w : List ω} {a : α} {o : Option ω}
    (h : M.exec s as = some (t, w)) (hs : M.step t a = some (u, o)) :
    M.exec s (as ++ [a]) = some (u, w ++ o.toList) := by
  induction as generalizing s w with
  | nil =>
    simp only [exec, Option.some.injEq, Prod.mk.injEq] at h
    obtain ⟨rfl, rfl⟩ := h
    simp [exec, hs]
  | cons b as ih =>
    simp only [exec, List.cons_append] at h ⊢
    split at h <;> [cases h; skip]
    obtain ⟨⟨t', w'⟩, hx, hr⟩ := Option.map_eq_some_iff.mp h
    simp only [Prod.mk.injEq] at hr
    obtain ⟨rfl, rfl⟩ := hr
    rw [ih hx]
    simp

theorem Trace.exec {as : List α} {w : List ω} {s : σ} (h : M.Trace as w s) :
    M.exec M.init as = some (s, w) := by
  induction h with
  | nil => rfl
  | snoc _ hs ih => exact exec_concat ih hs

/-- The inputs determine the run. -/
theorem Trace.unique {as : List α} {w w' : List ω} {s s' : σ} (h : M.Trace as w s)
    (h' : M.Trace as w' s') : w = w' ∧ s = s' := by
  have he := h.exec.symm.trans h'.exec
  simp only [Option.some.injEq, Prod.mk.injEq] at he
  exact ⟨he.2, he.1⟩

/-- A property of the inputs, the log and the state that holds initially and that
every step keeps holds along a trace. -/
theorem Trace.invariant {P : List α → List ω → σ → Prop} {as : List α} {w : List ω} {s : σ}
    (h : M.Trace as w s) (h₀ : P [] [] M.init)
    (hs : ∀ as w s a t o, M.Trace as w s → P as w s → M.step s a = some (t, o) →
      P (as ++ [a]) (w ++ o.toList) t) : P as w s := by
  induction h with
  | nil => exact h₀
  | snoc h hst ih => exact hs _ _ _ _ _ _ h ih hst

theorem Trace.last {as : List α} {a : α} {w : List ω} {t : σ} (h : M.Trace (as ++ [a]) w t) :
    ∃ w₁ s o, w = w₁ ++ o.toList ∧ M.Trace as w₁ s ∧ M.step s a = some (t, o) := by
  generalize ha : as ++ [a] = bs at h
  cases h with
  | nil => cases List.append_eq_nil_iff.mp ha |>.2
  | snoc h hs =>
    obtain ⟨rfl, hl⟩ := List.append_inj' ha rfl
    cases hl
    exact ⟨_, _, _, rfl, h, hs⟩

/-- A property that holds at a point of a trace, and that inputs of a kind keep,
holds after further inputs of this kind. -/
theorem Trace.keeps {K : α → Prop} {P : List α → List ω → σ → Prop} {as bs : List α}
    {w w' : List ω} {s t : σ} (h : M.Trace as w s) (h' : M.Trace (as ++ bs) w' t)
    (hb : ∀ b ∈ bs, K b) (h₀ : P as w s)
    (hs : ∀ as w s a t o, K a → P as w s → M.step s a = some (t, o) →
      P (as ++ [a]) (w ++ o.toList) t) : P (as ++ bs) w' t := by
  induction bs using List.reverseRecOn generalizing w' t with
  | nil =>
    rw [List.append_nil] at h' ⊢
    obtain ⟨rfl, rfl⟩ := h.unique h'
    exact h₀
  | append_singleton bs b ih =>
    rw [← List.append_assoc] at h' ⊢
    obtain ⟨w₁, s₁, o, rfl, h₁, hst⟩ := h'.last
    have hp := ih h₁ fun b hm => hb b (List.mem_append_left _ hm)
    exact hs _ _ _ _ _ _ (hb b (List.mem_append_right _ (List.mem_singleton_self b))) hp hst

/-- Inputs of a kind lead to the goal, if from every rank one of them leads to
the goal or to a lower rank. -/
theorem Trace.reach {ρ : Type*} [Preorder ρ] [WellFoundedLT ρ] {K : α → Prop}
    {P : ρ → List α → List ω → σ → Prop} {G : List α → List ω → σ → Prop}
    (hstep : ∀ r as w s, M.Trace as w s → P r as w s → G as w s ∨
      ∃ a t o, K a ∧ M.step s a = some (t, o) ∧ (G (as ++ [a]) (w ++ o.toList) t ∨
        ∃ r' < r, P r' (as ++ [a]) (w ++ o.toList) t))
    {r : ρ} {as : List α} {w : List ω} {s : σ} (h : M.Trace as w s) (hp : P r as w s) :
    ∃ bs w' t, (∀ b ∈ bs, K b) ∧ M.Trace (as ++ bs) (w ++ w') t ∧ G (as ++ bs) (w ++ w') t := by
  induction r using WellFoundedLT.induction generalizing as w s with
  | ind r ih =>
    have hone {a : α} (ha : K a) : ∀ b ∈ [a], K b := fun b hb => List.mem_singleton.mp hb ▸ ha
    rcases hstep r as w s h hp with hg | ⟨a, t, o, ha, hs, hg | ⟨r', hr, hp'⟩⟩
    · refine ⟨[], [], s, fun b hb => (List.not_mem_nil hb).elim, ?_⟩
      rw [List.append_nil, List.append_nil]
      exact ⟨h, hg⟩
    · exact ⟨[a], o.toList, t, hone ha, h.snoc hs, hg⟩
    · obtain ⟨bs, w', u, hok, ht, hg⟩ := ih r' hr (h.snoc hs) hp'
      rw [List.append_assoc, List.append_assoc] at ht hg
      refine ⟨[a] ++ bs, o.toList ++ w', u, fun b hb => ?_, ht, hg⟩
      exact (List.mem_append.mp hb).elim (hone ha b) (hok b)

/-- The inputs and effects `hidden` leave alone what `erase` keeps of a state,
and the others are as possible and log the same without the rest. -/
structure Purge (M : Machine σ α ω) (hidden : α → Prop) (hiddenEffect : ω → Prop) (erase : σ → σ)
    (I : σ → Prop) : Prop where
  init : erase M.init = M.init
  hidden_step {s t : σ} {a : α} {o : Option ω} : I s → hidden a → M.step s a = some (t, o) →
    erase t = erase s ∧ ∀ e ∈ o, hiddenEffect e
  visible_step {s t : σ} {a : α} {o : Option ω} : I s → ¬ hidden a → M.step s a = some (t, o) →
    M.step (erase s) a = some (erase t, o) ∧ ∀ e ∈ o, ¬ hiddenEffect e

/-- A run without its hidden inputs is a run. -/
theorem Purge.trace {hidden : α → Prop} {hiddenEffect : ω → Prop} {erase : σ → σ} {I : σ → Prop}
    [DecidablePred hidden] [DecidablePred hiddenEffect] (hp : Purge M hidden hiddenEffect erase I)
    {as : List α} {w : List ω} {s : σ} (h : M.Trace as w s)
    (hI : ∀ as' w' s', as' <+: as → M.Trace as' w' s' → I s') :
    M.Trace (as.filter fun a => ¬ hidden a) (w.filter fun e => ¬ hiddenEffect e) (erase s) := by
  induction h with
  | nil =>
    rw [hp.init]
    exact .nil
  | @snoc as w s t a o h hs ih =>
    have hs' := hI as w s (List.prefix_append _ _) h
    have ih := ih fun as' w' s' hpre => hI as' w' s' (hpre.trans (List.prefix_append _ _))
    rw [List.filter_append, List.filter_append]
    by_cases ha : hidden a
    · obtain ⟨he, ho⟩ := hp.hidden_step hs' ha hs
      have hw : o.toList.filter (fun e => ¬ hiddenEffect e) = [] := by
        refine List.filter_eq_nil_iff.mpr fun e hm => ?_
        simp [ho e (Option.mem_toList.mp hm)]
      rw [hw, he, List.filter_cons_of_neg (by simp [ha]), List.filter_nil, List.append_nil,
        List.append_nil]
      exact ih
    · obtain ⟨he, ho⟩ := hp.visible_step hs' ha hs
      have hw : o.toList.filter (fun e => ¬ hiddenEffect e) = o.toList := by
        refine List.filter_eq_self.mpr fun e hm => ?_
        simp [ho e (Option.mem_toList.mp hm)]
      rw [hw, List.filter_cons_of_pos (by simp [ha]), List.filter_nil]
      exact ih.snoc he

end Machine

end Framework
