import Iec104Bridge.Framework.Machine
import Mathlib.Data.List.Forall2
import Mathlib.Order.Basic

/-!
# Readers beside a machine

`readers M parts` runs `M` beside readers, each of which takes the parts of the
state one after the other and then gives out what it took. A part may be
refused, which makes a reader wait. So what a reader gives out need not be what
any one state holds: `finished_reads` says that each value is that of a state
between its start and its end, in the order of the parts. Where no step of `M`
makes a part smaller, a reader that starts after another has finished takes no
smaller values (`finished_le`).
-/

namespace Framework

namespace Machine

/-- Where a reader is, with what it has taken. -/
inductive ReaderPhase (β : Type*)
  | absent
  | reading (values : List β)
  | ended

structure WithReaders (σ κ β : Type*) where
  base : σ
  phase : κ → ReaderPhase β

inductive ReaderEvent (α κ : Type*)
  | base (a : α)
  | start (reader : κ)
  | read (reader : κ)
  | finish (reader : κ)

inductive ReaderEffect (ω κ β : Type*)
  | base (e : ω)
  | started (reader : κ)
  | finished (reader : κ) (values : List β)

/-- What `M` itself logs. -/
def ReaderEffect.base? {ω κ β : Type*} : ReaderEffect ω κ β → Option ω
  | .base e => some e
  | _ => none

variable {σ α ω κ β : Type*} [DecidableEq κ]

def WithReaders.setPhase (s : WithReaders σ κ β) (r : κ) (phase : ReaderPhase β) :
    WithReaders σ κ β := { s with phase := Function.update s.phase r phase }

@[simp] theorem WithReaders.setPhase_base (s : WithReaders σ κ β) (r : κ) (phase : ReaderPhase β) :
    (s.setPhase r phase).base = s.base := rfl

@[simp] theorem WithReaders.setPhase_self (s : WithReaders σ κ β) (r : κ) (phase : ReaderPhase β) :
    (s.setPhase r phase).phase r = phase := Function.update_self ..

theorem WithReaders.setPhase_of_ne (s : WithReaders σ κ β) {r r' : κ} (phase : ReaderPhase β)
    (h : r ≠ r') : (s.setPhase r' phase).phase r = s.phase r := Function.update_of_ne h ..

/-- `M` beside readers of the parts. -/
def readers (M : Machine σ α ω) (κ : Type*) [DecidableEq κ] (parts : List (σ → Option β)) :
    Machine (WithReaders σ κ β) (ReaderEvent α κ) (ReaderEffect ω κ β) where
  init := ⟨M.init, fun _ => .absent⟩
  step s
    | .base a => (M.step s.base a).map fun r => ({ s with base := r.1 }, r.2.map .base)
    | .start r =>
      match s.phase r with
      | .absent => some (s.setPhase r (.reading []), some (.started r))
      | _ => none
    | .read r =>
      match s.phase r with
      | .reading values =>
        match parts[values.length]? with
        | some part =>
          (part s.base).map fun v => (s.setPhase r (.reading (values ++ [v])), none)
        | none => none
      | _ => none
    | .finish r =>
      match s.phase r with
      | .reading values =>
        if values.length = parts.length then
          some (s.setPhase r .ended, some (.finished r values))
        else none
      | _ => none

variable {M : Machine σ α ω} {parts : List (σ → Option β)} {s t : WithReaders σ κ β}
  {o : Option (ReaderEffect ω κ β)} {w : List (ReaderEffect ω κ β)} {r : κ}

/-- A step of the readers, one constructor for each way to make it. -/
inductive ReaderStep (M : Machine σ α ω) (parts : List (σ → Option β)) (s : WithReaders σ κ β) :
    WithReaders σ κ β → Option (ReaderEffect ω κ β) → Prop
  | base {a : α} {u : σ} {o : Option ω} (h : M.step s.base a = some (u, o)) :
    ReaderStep M parts s { s with base := u } (o.map .base)
  | start {r : κ} (h : s.phase r = .absent) :
    ReaderStep M parts s (s.setPhase r (.reading [])) (some (.started r))
  | read {r : κ} {values : List β} {part : σ → Option β} {v : β} (h : s.phase r = .reading values)
    (hp : parts[values.length]? = some part) (hv : part s.base = some v) :
    ReaderStep M parts s (s.setPhase r (.reading (values ++ [v]))) none
  | finish {r : κ} {values : List β} (h : s.phase r = .reading values)
    (hl : values.length = parts.length) :
    ReaderStep M parts s (s.setPhase r .ended) (some (.finished r values))

theorem readerStep_of_step {a : ReaderEvent α κ} (h : (readers M κ parts).step s a = some (t, o)) :
    ReaderStep M parts s t o := by
  cases a with
  | base a =>
    obtain ⟨⟨u, o'⟩, hs, he⟩ := Option.map_eq_some_iff.mp h
    cases he
    exact .base hs
  | start r =>
    simp only [readers] at h
    split at h <;> cases h
    rename_i hp
    exact .start hp
  | read r =>
    simp only [readers] at h
    split at h <;> [skip; cases h]
    rename_i values hp
    split at h <;> [skip; cases h]
    rename_i part hpart
    obtain ⟨v, hv, he⟩ := Option.map_eq_some_iff.mp h
    cases he
    exact .read hp hpart hv
  | finish r =>
    simp only [readers] at h
    split at h <;> [skip; cases h]
    rename_i values hp
    split at h <;> cases h
    rename_i hl
    exact .finish hp hl

/-- Each of these steps can be made. -/
theorem step_of_readerStep (h : ReaderStep M parts s t o) :
    ∃ a, (readers M κ parts).step s a = some (t, o) := by
  cases h with
  | @base a u o h =>
    refine ⟨.base a, ?_⟩
    simp only [readers, h, Option.map_some]
  | @start r h =>
    refine ⟨.start r, ?_⟩
    simp only [readers, h]
  | @read r values part v h hp hv =>
    refine ⟨.read r, ?_⟩
    simp only [readers, h, hp, hv, Option.map_some]
  | @finish r values h hl =>
    refine ⟨.finish r, ?_⟩
    simp only [readers, h, if_pos hl]

/-! ## What a reader takes -/

/-- `values` are those of `parts`, taken in this order on a run from `s` to `t`
that logs `w`. -/
inductive Reads (M : Machine σ α ω) (s : σ) :
    List ω → List (σ → Option β) → List β → σ → Prop
  | nil {w : List ω} {t : σ} : Steps M s w t → Reads M s w [] [] t
  | snoc {w w' : List ω} {parts : List (σ → Option β)} {values : List β} {part : σ → Option β}
    {v : β} {t u : σ} : Reads M s w parts values t → part t = some v → Steps M t w' u →
    Reads M s (w ++ w') (parts ++ [part]) (values ++ [v]) u

variable {x y z : σ} {w₁ w₂ w₃ : List ω} {values values' : List β} {part : σ → Option β}

theorem Reads.steps (h : Reads M x w₁ parts values y) : Steps M x w₁ y := by
  induction h with
  | nil h => exact h
  | snoc _ _ hs ih => exact ih.trans hs

/-- The run goes on after the last part was taken. -/
theorem Reads.trans (h : Reads M x w₁ parts values y) (hs : Steps M y w₂ z) :
    Reads M x (w₁ ++ w₂) parts values z := by
  cases h with
  | nil h => exact .nil (h.trans hs)
  | snoc h hv h' =>
    rw [List.append_assoc]
    exact h.snoc hv (h'.trans hs)

theorem Reads.take (h : Reads M x w₁ parts values y) {v : β} (hv : part y = some v) :
    Reads M x w₁ (parts ++ [part]) (values ++ [v]) y := by
  simpa using h.snoc hv (.refl y)

/-- The point at which the last part was taken. -/
theorem Reads.last (h : Reads M x w₁ (parts ++ [part]) values z) :
    ∃ values' v y w₂ w₃, values = values' ++ [v] ∧ w₁ = w₂ ++ w₃ ∧
      Reads M x w₂ parts values' y ∧ part y = some v ∧ Steps M y w₃ z := by
  generalize hp : parts ++ [part] = parts' at h
  cases h with
  | nil => cases List.append_eq_nil_iff.mp hp |>.2
  | @snoc w w' parts' values part' v y u h hv hs =>
    obtain ⟨rfl, hl⟩ := List.append_inj' hp rfl
    obtain rfl : part = part' := List.singleton_inj.mp hl
    exact ⟨values, v, y, w, w', rfl, rfl, h, hv, hs⟩

theorem Reads.values_nil (h : Reads M x w₁ [] values y) : values = [] := by
  generalize hp : ([] : List (σ → Option β)) = parts' at h
  cases h with
  | nil => rfl
  | snoc => cases List.append_eq_nil_iff.mp hp.symm |>.2

/-- The point at which the first part was taken. -/
theorem Reads.first (h : Reads M x w₁ (part :: parts) values z) :
    ∃ v values' y w₂ w₃, values = v :: values' ∧ w₁ = w₂ ++ w₃ ∧ Steps M x w₂ y ∧
      part y = some v ∧ Reads M y w₃ parts values' z := by
  generalize hp : part :: parts = parts' at h
  induction h generalizing parts with
  | nil => cases hp
  | @snoc w w' parts' values part' v y z h hv hs ih =>
    cases parts' with
    | nil =>
      cases hp
      rw [h.values_nil]
      exact ⟨v, [], y, w, w', rfl, rfl, h.steps, hv, .nil hs⟩
    | cons part₁ parts' =>
      obtain ⟨rfl, rfl⟩ := List.cons_eq_cons.mp hp
      obtain ⟨v₁, values', u, w₂, w₃, rfl, rfl, hu, hv₁, hr⟩ := ih rfl
      exact ⟨v₁, values' ++ [v], u, w₂, w₃ ++ w', rfl, List.append_assoc .., hu, hv₁, hr.snoc hv hs⟩

/-- No step makes the part smaller. -/
def Grows [LE β] (M : Machine σ α ω) (part : σ → Option β) : Prop :=
  ∀ ⦃s t w v v'⦄, Steps M s w t → part s = some v → part t = some v' → v ≤ v'

/-- Values taken later are not smaller. -/
theorem Reads.le [LE β] {x' y' : σ} (h : Reads M x w₁ parts values y) (hs : Steps M y w₂ x')
    (h' : Reads M x' w₃ parts values' y') (hg : ∀ part ∈ parts, Grows M part) :
    List.Forall₂ (· ≤ ·) values values' := by
  induction h generalizing values' w₂ w₃ y' with
  | nil =>
    rw [h'.values_nil]
    exact .nil
  | @snoc w w' parts values part v t u h hv ht ih =>
    obtain ⟨values', v', y, w₂, w₃, rfl, rfl, h', hv', -⟩ := h'.last
    have hle := ih (ht.trans hs) h' fun part hp => hg part (List.mem_append_left _ hp)
    have hlast : v ≤ v' :=
      hg part (by simp) ((ht.trans hs).trans h'.steps) hv hv'
    exact List.rel_append hle (.cons hlast .nil)

/-! ## What a run logs of a reader -/

/-- What `M` logs in a run beside readers. -/
def baseLog (w : List (ReaderEffect ω κ β)) : List ω := w.filterMap ReaderEffect.base?

omit [DecidableEq κ] in
theorem baseLog_append (w w' : List (ReaderEffect ω κ β)) : baseLog (w ++ w') = baseLog w ++ baseLog w' :=
  List.filterMap_append ..

theorem ReaderStep.base_steps (h : ReaderStep M parts s t o) :
    Steps M s.base (baseLog o.toList) t.base := by
  cases h with
  | @base a u o h =>
    cases o with
    | none => exact .single h
    | some e => exact .single h
  | _ => exact .refl _

theorem readers_steps (h : Steps (readers M κ parts) s w t) : Steps M s.base (baseLog w) t.base := by
  refine h.induct (P := fun w t => Steps M s.base (baseLog w) t.base) (.refl _)
    fun w t a u o _ ih hs => ?_
  rw [baseLog_append]
  exact ih.trans (readerStep_of_step hs).base_steps

/-- What a reader has taken since it started. -/
structure Progress (M : Machine σ α ω) (parts : List (σ → Option β)) (r : κ) (x : σ)
    (w : List (ReaderEffect ω κ β)) (s : WithReaders σ κ β) : Prop where
  started : s.phase r ≠ .absent
  reads (values : List β) : s.phase r = .reading values → values.length ≤ parts.length ∧
    Reads M x (baseLog w) (parts.take values.length) values s.base

theorem Progress.step {x : σ} (h : Progress M parts r x w s) (hs : ReaderStep M parts s t o) :
    Progress M parts r x (w ++ o.toList) t := by
  have hb := hs.base_steps
  -- the reader itself took no part
  have hkeep (hp : t.phase r = s.phase r) : Progress M parts r x (w ++ o.toList) t := by
    refine ⟨hp ▸ h.started, fun values hv => ?_⟩
    obtain ⟨hl, hr⟩ := h.reads values (hp ▸ hv)
    rw [baseLog_append]
    exact ⟨hl, hr.trans hb⟩
  cases hs with
  | base => exact hkeep rfl
  | @start r' hp =>
    have hne : r ≠ r' := by
      rintro rfl
      exact h.started hp
    exact hkeep (s.setPhase_of_ne _ hne)
  | @read r' values part v hp hpart hv =>
    by_cases hr : r = r'
    · subst hr
      refine ⟨by simp, fun values' hv' => ?_⟩
      obtain rfl : values ++ [v] = values' := by simpa using hv'
      obtain ⟨hl, hr⟩ := h.reads values hp
      obtain ⟨hlt, rfl⟩ := List.getElem?_eq_some_iff.mp hpart
      rw [List.length_append, List.length_singleton, List.take_succ_eq_append_getElem hlt]
      refine ⟨hlt, ?_⟩
      simpa using hr.take hv
    · exact hkeep (s.setPhase_of_ne _ hr)
  | @finish r' values hp =>
    by_cases hr : r = r'
    · subst hr
      exact ⟨by simp, fun values' hv' => by simp at hv'⟩
    · exact hkeep (s.setPhase_of_ne _ hr)

theorem progress_of_steps (h : Steps (readers M κ parts) s w t) (h₀ : s.phase r = .reading []) :
    Progress M parts r s.base w t := by
  refine h.induct (P := fun w t => Progress M parts r s.base w t) ⟨by simp [h₀], ?_⟩
    fun w t a u o _ ih hs => ih.step (readerStep_of_step hs)
  intro values hv
  obtain rfl : values = [] := by simpa [h₀] using hv.symm
  exact ⟨Nat.zero_le _, .nil (.refl _)⟩

theorem ReaderStep.of_started (h : ReaderStep M parts s t (some (.started r))) :
    t.phase r = .reading [] ∧ t.base = s.base := by
  generalize ho : some (ReaderEffect.started r : ReaderEffect ω κ β) = o at h
  cases h with
  | @base a u o => cases o <;> cases ho
  | start => cases ho; simp
  | _ => cases ho

theorem ReaderStep.of_finished (h : ReaderStep M parts s t (some (.finished r values))) :
    s.phase r = .reading values ∧ values.length = parts.length := by
  generalize ho : some (ReaderEffect.finished r values : ReaderEffect ω κ β) = o at h
  cases h with
  | @base a u o => cases o <;> cases ho
  | finish hp hl => cases ho; exact ⟨hp, hl⟩
  | _ => cases ho

/-- What a reader gives out was taken part by part between its start and its end. -/
theorem finished_reads {v₁ v₂ v₃ : List (ReaderEffect ω κ β)}
    (h : Steps (readers M κ parts) s (v₁ ++ .started r :: (v₂ ++ .finished r values :: v₃)) t) :
    ∃ x y, Steps M s.base (baseLog v₁) x ∧ Reads M x (baseLog v₂) parts values y ∧
      Steps M y (baseLog v₃) t.base := by
  obtain ⟨u₁, a, u₂, hr, hs, h'⟩ := h.split
  obtain ⟨u₃, b, u₄, hr', hs', hend⟩ := h'.split
  obtain ⟨hp, hb⟩ := (readerStep_of_step hs).of_started
  obtain ⟨hp', hl⟩ := (readerStep_of_step hs').of_finished
  have hreads := ((progress_of_steps hr' hp).reads values hp').2
  rw [hl, List.take_length, hb] at hreads
  have hfinish : Steps M u₃.base [] u₄.base := (readerStep_of_step hs').base_steps
  refine ⟨u₁.base, u₃.base, readers_steps hr, hreads, ?_⟩
  simpa using hfinish.trans (readers_steps hend)

/-- A reader that starts after another has finished takes no smaller values. -/
theorem finished_le [LE β] {r' : κ} {v₁ v₂ v₃ v₄ v₅ : List (ReaderEffect ω κ β)}
    (h : Steps (readers M κ parts) s ((v₁ ++ .started r :: (v₂ ++ .finished r values :: v₃)) ++
      .started r' :: (v₄ ++ .finished r' values' :: v₅)) t) (hg : ∀ part ∈ parts, Grows M part) :
    List.Forall₂ (· ≤ ·) values values' := by
  obtain ⟨u, h₁, h₂⟩ := h.cut
  obtain ⟨x, y, -, hreads, hy⟩ := finished_reads h₁
  rw [← List.nil_append (ReaderEffect.started r' :: (v₄ ++ .finished r' values' :: v₅))] at h₂
  obtain ⟨x', y', hx', hreads', -⟩ := finished_reads h₂
  exact hreads.le (hy.trans hx') hreads' hg

/-- A reader that gives something out has started before. -/
theorem started_of_finished {v₁ v₂ : List (ReaderEffect ω κ β)}
    (h : (readers M κ parts).Run (v₁ ++ .finished r values :: v₂) s) : .started r ∈ v₁ := by
  obtain ⟨t, a, t', hr, hs, -⟩ := h.split
  have hstarted : t.phase r ≠ .absent → .started r ∈ v₁ := by
    refine hr.invariant (P := fun w s => s.phase r ≠ .absent → .started r ∈ w) (fun hn => absurd rfl hn)
      fun w s a t o _ ih hs hn => ?_
    cases readerStep_of_step hs with
    | base => exact List.mem_append_left _ (ih hn)
    | @start r' hp =>
      by_cases hr : r = r'
      · subst hr
        simp
      · exact List.mem_append_left _ (ih (by rwa [s.setPhase_of_ne _ hr] at hn))
    | @read r' _ _ _ hp | @finish r' _ hp =>
      refine List.mem_append_left _ (ih ?_)
      by_cases hr : r = r'
      · subst hr
        simp [hp]
      · rwa [s.setPhase_of_ne _ hr] at hn
  refine hstarted ?_
  rw [(readerStep_of_step hs).of_finished.1]
  simp

end Machine

end Framework
