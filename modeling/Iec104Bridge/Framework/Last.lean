import Mathlib.Data.List.Basic

/-!
# The last element for a key

`lastAt f k l` is the last element of `l` whose key `f` is `k`: what a table
that keeps the last element for each key, filled in the order of `l`, holds
at `k`.
-/

namespace Framework

variable {α β κ : Type*} [DecidableEq κ] {f : α → κ} {k : κ}

/-- The last element of `l` with key `k`. -/
def lastAt (f : α → κ) (k : κ) (l : List α) : Option α := (l.filter fun a => f a = k).getLast?

@[simp] theorem lastAt_nil : lastAt f k [] = none := rfl

theorem lastAt_append (l l' : List α) :
    lastAt f k (l ++ l') = (lastAt f k l').or (lastAt f k l) := by
  rw [lastAt, List.filter_append, List.getLast?_append]
  rfl

theorem lastAt_concat (l : List α) (a : α) :
    lastAt f k (l ++ [a]) = if f a = k then some a else lastAt f k l := by
  rw [lastAt_append]
  by_cases h : f a = k
  · simp [lastAt, h]
  · simp [lastAt, h]

theorem lastAt_map (g : β → α) (l : List β) :
    lastAt f k (l.map g) = (lastAt (fun b => f (g b)) k l).map g := by
  rw [lastAt, List.filter_map, List.getLast?_map]
  rfl

theorem lastAt_eq_none_iff {l : List α} : lastAt f k l = none ↔ ∀ a ∈ l, f a ≠ k := by
  simp [lastAt]

/-- No element of the key comes after the last one. -/
theorem lastAt_eq_some_iff {l : List α} {a : α} :
    lastAt f k l = some a ↔ ∃ l₁ l₂, l = l₁ ++ a :: l₂ ∧ f a = k ∧ ∀ b ∈ l₂, f b ≠ k := by
  constructor
  · intro h
    obtain ⟨r, hr⟩ := List.getLast?_eq_some_iff.mp h
    rw [List.filter_eq_append_iff] at hr
    obtain ⟨l₁, l₂, rfl, -, h₂⟩ := hr
    obtain ⟨l₃, l₄, rfl, -, ha, h₄⟩ := List.filter_eq_cons_iff.mp h₂
    refine ⟨l₁ ++ l₃, l₄, by simp, by simpa using ha, fun b hb => ?_⟩
    simpa using List.filter_eq_nil_iff.mp h₄ b hb
  · rintro ⟨l₁, l₂, rfl, ha, h₂⟩
    rw [← List.singleton_append, ← List.append_assoc, lastAt_append, lastAt_eq_none_iff.mpr h₂,
      lastAt_concat, if_pos ha]
    rfl

theorem lastAt_isSome_iff {l : List α} : (lastAt f k l).isSome ↔ ∃ a ∈ l, f a = k := by
  rw [Option.isSome_iff_ne_none, Ne, lastAt_eq_none_iff]
  push Not
  rfl

theorem lastAt_key {l : List α} {a : α} (h : lastAt f k l = some a) : f a = k := by
  obtain ⟨_, _, _, ha, _⟩ := lastAt_eq_some_iff.mp h
  exact ha

theorem mem_of_lastAt {l : List α} {a : α} (h : lastAt f k l = some a) : a ∈ l := by
  obtain ⟨l₁, l₂, rfl, -, -⟩ := lastAt_eq_some_iff.mp h
  exact List.mem_append_right l₁ List.mem_cons_self

end Framework
