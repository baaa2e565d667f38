import Mathlib.Data.List.Basic
import Mathlib.Tactic.Common

/-!
# Machines that log what they do

A `Machine` is refused an input or takes one step, which logs at most one
effect. `Steps` is a run between two states and `Run` a run from the initial
one, both with the log they produce. `Run.invariant` proves a property of a
state and the log that led to it, once for each step; `Steps.split` cuts a run
at one of its effects. A `Simulation` maps every run of one machine to a run
of another, whose log is the image of the first one's. The runs of `restrict`
are those whose steps meet a condition.
-/

namespace Framework

/-- From a state, an input is refused or leads to a next state and logs at
most one effect. -/
structure Machine (σ α ω : Type*) where
  init : σ
  step : σ → α → Option (σ × Option ω)

namespace Machine

variable {σ α ω σ' α' ω' : Type*} {M : Machine σ α ω}

/-- A run from `s` to `t` that logs `w`. -/
inductive Steps (M : Machine σ α ω) : σ → List ω → σ → Prop
  | refl (s : σ) : Steps M s [] s
  | tail {s t u : σ} {w : List ω} {a : α} {o : Option ω} :
    Steps M s w t → M.step t a = some (u, o) → Steps M s (w ++ o.toList) u

/-- A run from the initial state. -/
def Run (M : Machine σ α ω) (w : List ω) (s : σ) : Prop := Steps M M.init w s

/-- Performs a list of inputs, none of which may be refused. -/
def exec (M : Machine σ α ω) : σ → List α → Option (σ × List ω)
  | s, [] => some (s, [])
  | s, a :: as =>
    match M.step s a with
    | none => none
    | some (t, o) => (M.exec t as).map fun r => (r.1, o.toList ++ r.2)

theorem Steps.single {s t : σ} {a : α} {o : Option ω} (h : M.step s a = some (t, o)) :
    Steps M s o.toList t := by
  simpa using (Steps.refl (M := M) s).tail h

theorem Steps.trans {s t u : σ} {w w' : List ω} (h : Steps M s w t) (h' : Steps M t w' u) :
    Steps M s (w ++ w') u := by
  induction h' with
  | refl => simpa using h
  | tail _ hs ih =>
    rw [← List.append_assoc]
    exact ih.tail hs

theorem steps_of_exec {as : List α} {s t : σ} {w : List ω} (h : M.exec s as = some (t, w)) :
    Steps M s w t := by
  induction as generalizing s w with
  | nil =>
    simp only [exec, Option.some.injEq, Prod.mk.injEq] at h
    obtain ⟨rfl, rfl⟩ := h
    exact .refl s
  | cons a as ih =>
    simp only [exec] at h
    split at h <;> [cases h; skip]
    rename_i t' o hs
    simp only [Option.map_eq_some_iff] at h
    obtain ⟨⟨u, w'⟩, h2, heq⟩ := h
    simp only [Prod.mk.injEq] at heq
    obtain ⟨rfl, rfl⟩ := heq
    exact (Steps.single hs).trans (ih h2)

/-- A list of inputs the machine performs from its initial state is a run. -/
theorem run_of_exec (as : List α) {r : σ × List ω} (h : M.exec M.init as = some r) :
    M.Run r.2 r.1 :=
  steps_of_exec h

/-- A run, from what is observed of the result of a list of inputs. -/
theorem exists_run_of_exec {β : Type*} (as : List α) (f : List ω → σ → β) (b : β)
    (h : ((M.exec M.init as).map fun r => f r.2 r.1) = some b) : ∃ w s, M.Run w s ∧ f w s = b := by
  obtain ⟨r, hr, rfl⟩ := Option.map_eq_some_iff.mp h
  exact ⟨_, _, run_of_exec as hr, rfl⟩

/-- A property that every step keeps holds along a run. -/
theorem Steps.induct {P : List ω → σ → Prop} {s t : σ} {w : List ω} (h : Steps M s w t)
    (h₀ : P [] s)
    (hs : ∀ w t a u o, Steps M s w t → P w t → M.step t a = some (u, o) → P (w ++ o.toList) u) :
    P w t := by
  induction h with
  | refl => exact h₀
  | tail h hst ih => exact hs _ _ _ _ _ h ih hst

/-- A property of the log and the state that holds initially and that every
step of a run keeps is an invariant. -/
theorem Run.invariant {P : List ω → σ → Prop} {w : List ω} {s : σ} (h : M.Run w s)
    (h₀ : P [] M.init)
    (hs : ∀ w s a t o, M.Run w s → P w s → M.step s a = some (t, o) → P (w ++ o.toList) t) :
    P w s :=
  Steps.induct h h₀ hs

/-- A run is cut at any point of its log. -/
theorem Steps.cut {s u : σ} {w₁ w₂ : List ω} (h : Steps M s (w₁ ++ w₂) u) :
    ∃ t, Steps M s w₁ t ∧ Steps M t w₂ u := by
  generalize hw : w₁ ++ w₂ = w at h
  induction h generalizing w₂ with
  | refl =>
    obtain ⟨rfl, rfl⟩ := List.append_eq_nil_iff.mp hw
    exact ⟨s, .refl s, .refl s⟩
  | @tail t u w' a o h hs ih =>
    cases o with
    | none =>
      obtain ⟨t', h₁, h₂⟩ := ih (by simpa using hw)
      exact ⟨t', h₁, by simpa using h₂.tail hs⟩
    | some e =>
      rcases List.eq_nil_or_concat w₂ with rfl | ⟨v, e', rfl⟩
      · refine ⟨u, ?_, .refl u⟩
        rw [List.append_nil] at hw
        subst hw
        exact h.tail hs
      · -- the last effect is this step's, and the cut lies before it
        rw [List.concat_eq_append, ← List.append_assoc] at hw
        obtain ⟨hv, he⟩ := List.append_inj' hw rfl
        obtain ⟨t', h₁, h₂⟩ := ih hv
        obtain rfl : e' = e := by simpa using he
        exact ⟨t', h₁, by simpa using h₂.tail hs⟩

/-- A run is cut at the step that logged one of its effects. -/
theorem Steps.split {s u : σ} {w₁ w₂ : List ω} {e : ω} (h : Steps M s (w₁ ++ e :: w₂) u) :
    ∃ t a t', Steps M s w₁ t ∧ M.step t a = some (t', some e) ∧ Steps M t' w₂ u := by
  generalize hw : w₁ ++ e :: w₂ = w at h
  induction h generalizing w₂ with
  | refl => simp at hw
  | @tail t u w' a o h hs ih =>
    cases o with
    | none =>
      obtain ⟨t₁, a₁, t₂, h₁, h₂, h₃⟩ := ih (by simpa using hw)
      exact ⟨t₁, a₁, t₂, h₁, h₂, by simpa using h₃.tail hs⟩
    | some e' =>
      rcases List.eq_nil_or_concat w₂ with rfl | ⟨v, e₂, rfl⟩
      · obtain ⟨rfl, he⟩ := List.append_inj' hw rfl
        obtain rfl : e = e' := by simpa using he
        exact ⟨t, a, u, h, hs, .refl u⟩
      · have hw' : (w₁ ++ e :: v) ++ [e₂] = w' ++ [e'] := by simpa using hw
        obtain ⟨hv, he⟩ := List.append_inj' hw' rfl
        obtain ⟨t₁, a₁, t₂, h₁, h₂, h₃⟩ := ih hv
        obtain rfl : e₂ = e' := by simpa using he
        exact ⟨t₁, a₁, t₂, h₁, h₂, by simpa using h₃.tail hs⟩

/-- Every prefix of a log is the log of a run. -/
theorem Run.cut {w₁ w₂ : List ω} {s : σ} (h : M.Run (w₁ ++ w₂) s) :
    ∃ t, M.Run w₁ t ∧ Steps M t w₂ s :=
  Steps.cut h

theorem Run.split {w₁ w₂ : List ω} {e : ω} {s : σ} (h : M.Run (w₁ ++ e :: w₂) s) :
    ∃ t a t', M.Run w₁ t ∧ M.step t a = some (t', some e) ∧ Steps M t' w₂ s :=
  Steps.split h

/-- Every effect of a run was logged by a step. -/
theorem Run.step_of_mem {w : List ω} {e : ω} {s : σ} (h : M.Run w s) (he : e ∈ w) :
    ∃ t a t', M.step t a = some (t', some e) := by
  obtain ⟨w₁, w₂, rfl⟩ := List.append_of_mem he
  obtain ⟨t, a, t', -, hs, -⟩ := h.split
  exact ⟨t, a, t', hs⟩

/-- Each step of `M` is a step of `N` on the states `f` maps to, or changes
nothing there; `g` maps the effects. -/
structure Simulation (M : Machine σ α ω) (N : Machine σ' α' ω') (f : σ → σ')
    (g : ω → Option ω') : Prop where
  init : f M.init = N.init
  step {s t : σ} {a : α} {o : Option ω} : M.step s a = some (t, o) →
    (∃ b, N.step (f s) b = some (f t, o.bind g)) ∨ (f t = f s ∧ o.bind g = none)

theorem Simulation.steps {N : Machine σ' α' ω'} {f : σ → σ'} {g : ω → Option ω'}
    (hf : Simulation M N f g) {s t : σ} {w : List ω} (h : Steps M s w t) :
    Steps N (f s) (w.filterMap g) (f t) := by
  induction h with
  | refl => exact .refl _
  | @tail t u w a o _ hs ih =>
    have ho : o.toList.filterMap g = (o.bind g).toList := by
      cases o with
      | none => rfl
      | some e => cases h : g e <;> simp [h]
    rw [List.filterMap_append, ho]
    rcases hf.step hs with ⟨b, hb⟩ | ⟨he, hn⟩
    · exact ih.tail hb
    · rw [he, hn]
      simpa using ih

/-- A simulation maps every run to a run. -/
theorem Simulation.run {N : Machine σ' α' ω'} {f : σ → σ'} {g : ω → Option ω'}
    (hf : Simulation M N f g) {w : List ω} {s : σ} (h : M.Run w s) :
    N.Run (w.filterMap g) (f s) := by
  have := hf.steps h
  rwa [hf.init] at this

/-- The steps of `M` that meet a condition on the state and the input. -/
def restrict (M : Machine σ α ω) (C : σ → α → Prop) [∀ s a, Decidable (C s a)] : Machine σ α ω where
  init := M.init
  step s a := if C s a then M.step s a else none

section

variable {C : σ → α → Prop} [∀ s a, Decidable (C s a)]

theorem restrict_step {s t : σ} {a : α} {o : Option ω} :
    (M.restrict C).step s a = some (t, o) ↔ C s a ∧ M.step s a = some (t, o) := by
  by_cases h : C s a
  · simp [restrict, h]
  · simp [restrict, h]

end

end Machine

end Framework
