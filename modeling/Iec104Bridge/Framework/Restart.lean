import Iec104Bridge.Framework.Machine
import Mathlib.Data.List.Induction

/-!
# Machines that crash and start again

`restarts M` runs `M`, and can stop at any point and start again from the
initial state. Its log is cut into lives, each of which is the log of a run of
`M` (`restarts_life`, `restarts_allLives`).
-/

namespace Framework

namespace Machine

variable {σ α ω ω' : Type*} {M : Machine σ α ω}

/-- `M` with crashes, the inputs `none`, which are logged. -/
def restarts (M : Machine σ α ω) : Machine σ (Option α) (Option ω) where
  init := M.init
  step s
    | some a => (M.step s a).map fun r => (r.1, r.2.map some)
    | none => some (M.init, some none)

/-- The log since the last crash, and those of the lives before, in order. -/
def lives (w : List (Option ω)) : List ω × List (List ω) :=
  w.foldl (fun r e => match e with
    | some e => (r.1 ++ [e], r.2)
    | none => ([], r.2 ++ [r.1])) ([], [])

/-- What was logged since the last crash. -/
def life (w : List (Option ω)) : List ω := (lives w).1

/-- The logs of the lives before. -/
def pastLives (w : List (Option ω)) : List (List ω) := (lives w).2

@[simp] theorem life_effect (w : List (Option ω)) (e : ω) : life (w ++ [some e]) = life w ++ [e] := by
  simp [life, lives]

@[simp] theorem life_crash (w : List (Option ω)) : life (w ++ [none]) = [] := by
  simp [life, lives]

@[simp] theorem pastLives_effect (w : List (Option ω)) (e : ω) :
    pastLives (w ++ [some e]) = pastLives w := by
  simp [pastLives, lives]

@[simp] theorem pastLives_crash (w : List (Option ω)) :
    pastLives (w ++ [none]) = pastLives w ++ [life w] := by
  simp [pastLives, life, lives]

theorem life_append_toList (w : List (Option ω)) (o : Option ω) :
    life (w ++ (o.map some).toList) = life w ++ o.toList := by
  cases o with
  | none => simp
  | some e => exact life_effect w e

theorem pastLives_append_toList (w : List (Option ω)) (o : Option ω) :
    pastLives (w ++ (o.map some).toList) = pastLives w := by
  cases o with
  | none => simp
  | some e => exact pastLives_effect w e

/-- The logs of all lives, the present one included. -/
def allLives (w : List (Option ω)) : List (List ω) := pastLives w ++ [life w]

theorem life_mem_allLives (w : List (Option ω)) : life w ∈ allLives w :=
  List.mem_append_right _ (List.mem_singleton_self _)

/-- A life goes on, or is over. -/
theorem allLives_concat (w : List (Option ω)) (o : Option (Option ω)) :
    ∀ l ∈ allLives w, ∃ l' ∈ allLives (w ++ o.toList), l ⊆ l' := by
  intro l hl
  match o with
  | none => exact ⟨l, by simpa using hl, List.Subset.refl l⟩
  | some none =>
    rw [Option.toList_some, allLives, pastLives_crash]
    exact ⟨l, List.mem_append_left _ hl, List.Subset.refl l⟩
  | some (some e) =>
    rw [Option.toList_some, allLives, pastLives_effect, life_effect]
    rcases List.mem_append.mp hl with hl | hl
    · exact ⟨l, List.mem_append_left _ hl, List.Subset.refl l⟩
    · rw [List.mem_singleton.mp hl]
      exact ⟨_, List.mem_append_right _ (List.mem_singleton_self _), List.subset_append_left _ _⟩

/-- What is read off the effects can be read off each life. -/
theorem lives_map (f : ω → ω') (w : List (Option ω)) :
    life (w.map (Option.map f)) = (life w).map f ∧
      pastLives (w.map (Option.map f)) = (pastLives w).map (List.map f) := by
  induction w using List.reverseRecOn with
  | nil => exact ⟨rfl, rfl⟩
  | append_singleton w e ih =>
    obtain ⟨ihl, ihp⟩ := ih
    cases e <;> simp [ihl, ihp]

theorem allLives_map (f : ω → ω') (w : List (Option ω)) :
    allLives (w.map (Option.map f)) = (allLives w).map (List.map f) := by
  obtain ⟨hl, hp⟩ := lives_map f w
  simp [allLives, hl, hp]

/-- A step is one of `M`, or a crash. -/
theorem restarts_cases {s t : σ} {a : Option α} {o : Option (Option ω)}
    (h : (restarts M).step s a = some (t, o)) :
    (∃ a o', M.step s a = some (t, o') ∧ o = o'.map some) ∨ (t = M.init ∧ o = some none) := by
  cases a with
  | some a =>
    obtain ⟨⟨u, o'⟩, hs, he⟩ := Option.map_eq_some_iff.mp h
    cases he
    exact .inl ⟨a, o', hs, rfl⟩
  | none =>
    cases h
    exact .inr ⟨rfl, rfl⟩

/-- Every life is a run, up to where it is cut. -/
theorem restarts_lives {w : List (Option ω)} {s : σ} (h : (restarts M).Run w s) :
    M.Run (life w) s ∧ ∀ l ∈ pastLives w, ∃ t, M.Run l t := by
  refine h.invariant (P := fun w s => M.Run (life w) s ∧ ∀ l ∈ pastLives w, ∃ t, M.Run l t)
    ⟨.refl _, fun l hl => absurd hl List.not_mem_nil⟩ fun w s a t o _ ⟨ih, ihp⟩ hs => ?_
  rcases restarts_cases hs with ⟨b, o, hb, rfl⟩ | ⟨rfl, rfl⟩
  · rw [life_append_toList, pastLives_append_toList]
    exact ⟨ih.tail hb, ihp⟩
  · rw [Option.toList_some, life_crash, pastLives_crash]
    refine ⟨.refl _, fun l hl => ?_⟩
    rcases List.mem_append.mp hl with hl | hl
    · exact ihp l hl
    · rw [List.mem_singleton.mp hl]
      exact ⟨s, ih⟩

/-- The log since the last crash is that of a run. -/
theorem restarts_life {w : List (Option ω)} {s : σ} (h : (restarts M).Run w s) : M.Run (life w) s :=
  (restarts_lives h).1

theorem restarts_allLives {w : List (Option ω)} {s : σ} (h : (restarts M).Run w s) {l : List ω}
    (hl : l ∈ allLives w) : ∃ t, M.Run l t := by
  rcases List.mem_append.mp hl with hl | hl
  · exact (restarts_lives h).2 l hl
  · rw [List.mem_singleton.mp hl]
    exact ⟨s, restarts_life h⟩

end Machine

end Framework
