import Iec104Bridge.Framework.Trace

/-!
# Forward simulation by a relation

A `Refinement` relates the states of two machines, such that what one step of
the first logs, one step of the second logs, or none; so every run of the first
leaves a run of the second (`Refinement.run`). It may rest on what the run of
the first logs (`ok`). A `Projection` also says which input the second machine
performs for each input of the first, if any (`Projection.trace`).
-/

namespace Framework

namespace Machine

variable {σ α ω σ' α' ω' : Type*} {M : Machine σ α ω} {N : Machine σ' α' ω'} {R : σ → σ' → Prop}

theorem toList_filterMap (o : Option ω) (g : ω → Option ω') :
    o.toList.filterMap g = (o.bind g).toList := by
  cases o with
  | none => rfl
  | some e => cases h : g e <;> simp [h]

/-- Steps of `M` that log what is `ok` are matched by a step of `N`, or by none. -/
structure Refinement (M : Machine σ α ω) (N : Machine σ' α' ω') (R : σ → σ' → Prop) (ok : ω → Prop)
    (g : ω → Option ω') : Prop where
  init : R M.init N.init
  step {w : List ω} {s t : σ} {s' : σ'} {a : α} {o : Option ω} : M.Run w s → R s s' →
    M.step s a = some (t, o) → (∀ e ∈ o, ok e) →
    (∃ b t', N.step s' b = some (t', o.bind g) ∧ R t t') ∨ (o.bind g = none ∧ R t s')

theorem Refinement.run {ok : ω → Prop} {g : ω → Option ω'} (hr : Refinement M N R ok g) {w : List ω}
    {s : σ} (h : M.Run w s) (hw : ∀ e ∈ w, ok e) : ∃ s', N.Run (w.filterMap g) s' ∧ R s s' := by
  revert hw
  refine h.invariant (P := fun w s => (∀ e ∈ w, ok e) → ∃ s', N.Run (w.filterMap g) s' ∧ R s s')
    (fun _ => ⟨N.init, .refl _, hr.init⟩) fun w s a t o h ih hs hw => ?_
  obtain ⟨s', hrun, hrel⟩ := ih fun e he => hw e (List.mem_append_left _ he)
  have ho : ∀ e ∈ o, ok e := fun e he =>
    hw e (List.mem_append_right _ (Option.mem_toList.mpr he))
  rw [List.filterMap_append, toList_filterMap]
  rcases hr.step h hrel hs ho with ⟨b, t', hb, ht⟩ | ⟨hn, ht⟩
  · exact ⟨t', hrun.tail hb, ht⟩
  · rw [hn]
    exact ⟨s', by simpa using hrun, ht⟩

/-- `N` performs the inputs that `i` keeps of those of `M`, and logs what `g`
keeps of its log. -/
structure Projection (M : Machine σ α ω) (N : Machine σ' α' ω') (R : σ → σ' → Prop)
    (i : α → Option α') (g : ω → Option ω') : Prop where
  init : R M.init N.init
  step {w : List ω} {s t : σ} {s' : σ'} {a : α} {o : Option ω} : M.Run w s → R s s' →
    M.step s a = some (t, o) →
    (∃ b t', i a = some b ∧ N.step s' b = some (t', o.bind g) ∧ R t t') ∨
      (i a = none ∧ o.bind g = none ∧ R t s')

theorem Projection.trace {i : α → Option α'} {g : ω → Option ω'} (hp : Projection M N R i g)
    {as : List α} {w : List ω} {s : σ} (h : M.Trace as w s) :
    ∃ s', N.Trace (as.filterMap i) (w.filterMap g) s' ∧ R s s' := by
  refine h.invariant
    (P := fun as w s => ∃ s', N.Trace (as.filterMap i) (w.filterMap g) s' ∧ R s s')
    ⟨N.init, .nil, hp.init⟩ fun as w s a t o h ⟨s', ht, hrel⟩ hs => ?_
  rw [List.filterMap_append, List.filterMap_append, toList_filterMap]
  rcases hp.step h.run hrel hs with ⟨b, t', hi, hb, hrel'⟩ | ⟨hi, hn, hrel'⟩
  · refine ⟨t', ?_, hrel'⟩
    rw [List.filterMap_cons_some hi]
    exact ht.snoc hb
  · rw [hn, List.filterMap_cons_none hi]
    exact ⟨s', by simpa using ht, hrel'⟩

end Machine

end Framework
