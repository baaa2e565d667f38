import Iec104Bridge.Framework.Refinement
import Iec104Bridge.Proof.Interrogation

/-!
# Masters do not depend on each other

The callbacks of other connections only hold the lock of the data store and
count their responses. So a run can do without them: the task and the callback
of `conn` do the same (`masters_projection`), and every frame and every point
stays what it was (`masters_isolated`).
-/

namespace Iec104Bridge

open Framework

variable {ι : Type} {cfg : Settings} {s t s' : State ι} {w : List (Effect ι)} {conn : ConnId}
  {o : Option (Effect ι)}

/-- An event of the task, or of the callback of `conn`. -/
def Event.visibleTo (conn : ConnId) : Event ι → Bool
  | .task _ => true
  | .gi c _ => c = conn

/-- An effect of the task, or of the callback of `conn`. -/
def Effect.visibleTo (conn : ConnId) (e : Effect ι) : Bool :=
  match e.connection with
  | none => true
  | some c => c = conn

/-- `s'` is `s` without the callbacks of the other connections. -/
structure SeenBy (conn : ConnId) (s s' : State ι) : Prop where
  cache : s'.cache = s.cache
  task : s'.task = s.task
  backoff : s'.backoff = s.backoff
  dispatched : s'.metrics.messagesDispatched = s.metrics.messagesDispatched
  gi : s'.gi conn = s.gi conn
  others (c : ConnId) : c ≠ conn → s'.gi c = .idle
  lock : s'.dataLock = if s.dataLock = some conn then some conn else none

/-- Where nobody holds the lock, nobody does without the others. -/
theorem SeenBy.unlocked (h : SeenBy conn s s') (hl : s.dataLock = none) : s'.dataLock = none := by
  rw [h.lock, hl]
  rfl

/-- A step of the task is the same step without the others. -/
theorem SeenBy.task_step (h : SeenBy conn s s') (e : TaskEvent ι) (hs : taskStep cfg s e = some (t, o)) :
    ∃ t', taskStep cfg s' e = some (t', o) ∧ SeenBy conn t t' := by
  obtain ⟨cache, metrics, lock, task, backoff, gi⟩ := s
  obtain ⟨cache', metrics', lock', task', backoff', gi'⟩ := s'
  obtain ⟨hcache, htask, hbackoff, hdisp, hgi, hothers, hlock⟩ := h
  simp only at hcache htask hbackoff hdisp hgi hothers hlock
  subst hcache htask hbackoff
  cases e with
  | insert =>
    simp only [taskStep] at hs
    split at hs <;> cases hs
    rename_i id message now hl
    cases hl
    obtain rfl : lock' = none := hlock
    exact ⟨_, rfl, rfl, rfl, rfl, hdisp, hgi, hothers, rfl⟩
  | count =>
    simp only [taskStep] at hs
    split at hs <;> [skip; cases hs]
    split at hs <;> cases hs
    · rename_i hd
      simp only [taskStep, if_pos hd]
      exact ⟨_, rfl, rfl, rfl, rfl, congrArg Nat.succ hdisp, hgi, hothers, hlock⟩
    · rename_i hd
      simp only [taskStep, if_neg hd]
      exact ⟨_, rfl, rfl, rfl, rfl, hdisp, hgi, hothers, hlock⟩
  | receive =>
    simp only [taskStep] at hs ⊢
    split at hs <;> [skip; cases hs]
    split at hs <;> cases hs
    rename_i hi
    exact ⟨_, if_pos hi, rfl, rfl, rfl, hdisp, hgi, hothers, hlock⟩
  | ack =>
    simp only [taskStep] at hs ⊢
    split at hs <;> [skip; cases hs]
    split at hs <;> cases hs
    · rename_i hi
      exact ⟨_, if_pos hi, rfl, rfl, rfl, hdisp, hgi, hothers, hlock⟩
    · rename_i hi
      exact ⟨_, if_neg hi, rfl, rfl, rfl, hdisp, hgi, hothers, hlock⟩
  | _ =>
    simp only [taskStep] at hs ⊢
    split at hs <;> cases hs
    all_goals exact ⟨_, rfl, rfl, rfl, rfl, hdisp, hgi, hothers, hlock⟩

theorem SeenBy.setGi (h : SeenBy conn s s') (phase : GiPhase) :
    SeenBy conn (s.setGi conn phase) (s'.setGi conn phase) where
  cache := h.cache
  task := h.task
  backoff := h.backoff
  dispatched := h.dispatched
  gi := by simp
  others c hc := (State.setGi_gi_of_ne _ _ _ hc).trans (h.others c hc)
  lock := h.lock

/-- A step of the callback of `conn` is the same step without the others. -/
theorem SeenBy.gi_step (h : SeenBy conn s s') (e : GiEvent)
    (hs : giStep cfg s conn e = some (t, o)) :
    ∃ t', giStep cfg s' conn e = some (t', o) ∧ SeenBy conn t t' := by
  cases e with
  | request qoi =>
    simp only [giStep, h.gi] at hs ⊢
    split at hs <;> cases hs
    exact ⟨_, rfl, h.setGi _⟩
  | confirm sent =>
    simp only [giStep, h.gi] at hs ⊢
    split at hs <;> [skip; cases hs]
    rename_i qoi hp
    split at hs <;> cases hs
    · rename_i hq
      exact ⟨_, if_pos hq, h.setGi _⟩
    · rename_i hq
      exact ⟨_, if_neg hq, h.setGi _⟩
  | lock now order =>
    simp only [giStep, h.gi, h.cache] at hs ⊢
    split at hs <;> [skip; cases hs]
    rename_i hp hl
    split at hs <;> cases hs
    rename_i ho
    rw [hp, h.unlocked hl]
    refine ⟨_, if_pos ho, { h.setGi (.replaying now order .new) with lock := ?_ }⟩
    exact (if_pos rfl).symm
  | send sent =>
    simp only [giStep, h.gi] at hs ⊢
    split at hs <;> cases hs
    exact ⟨_, rfl, h.setGi _⟩
  | unlock =>
    simp only [giStep, h.gi] at hs ⊢
    split at hs <;> cases hs
    exact ⟨_, rfl, { h.setGi .replayed with lock := rfl }⟩
  | count =>
    simp only [giStep, h.gi] at hs ⊢
    split at hs <;> cases hs
    exact ⟨_, rfl, { h.setGi .counted with dispatched := h.dispatched }⟩
  | terminate sent =>
    simp only [giStep, h.gi] at hs ⊢
    split at hs <;> cases hs
    exact ⟨_, rfl, h.setGi _⟩

/-- A step of the callback of another connection is not seen. -/
theorem SeenBy.other_step (h : SeenBy conn s s') {c : ConnId} (hc : c ≠ conn)
    (hr : (process ι cfg).Run w s) (hs : GiStep cfg s c t o) :
    SeenBy conn t s' ∧ ∀ e ∈ o, e.visibleTo conn = false := by
  have hgi : s'.gi conn = t.gi conn := h.gi.trans (hs.gi_of_ne hc.symm).symm
  have hlock : s'.dataLock = if t.dataLock = some conn then some conn else none := by
    cases hs with
    | lock _ hl =>
      rw [h.unlocked hl, if_neg (fun hn => hc (Option.some.inj hn))]
    | unlock hp =>
      have hl : s.dataLock = some c := (dataLock_iff hr c).mpr (by rw [hp]; trivial)
      rw [h.lock, hl, if_neg (fun hn => hc (Option.some.inj hn))]
      rfl
    | _ => exact h.lock
  obtain ⟨hcache, htask, hdisp, hbackoff⟩ := hs.frame
  refine ⟨⟨h.cache.trans hcache.symm, h.task.trans htask.symm, h.backoff.trans hbackoff.symm,
    h.dispatched.trans hdisp.symm, hgi, h.others, hlock⟩, ?_⟩
  rintro e rfl
  cases hs <;> simp [Effect.visibleTo, Effect.connection, hc]

/-- Without the callbacks of the other connections, the process does the same. -/
theorem masters_projection (ι : Type) (cfg : Settings) (conn : ConnId) :
    Machine.Projection (process ι cfg) (process ι cfg) (SeenBy conn)
      (Option.guard fun e => Event.visibleTo conn e)
      (Option.guard fun e => Effect.visibleTo conn e) where
  init := ⟨rfl, rfl, rfl, rfl, rfl, fun _ _ => rfl, rfl⟩
  step {w s t s' a o} hr h hs := by
    cases a with
    | task e =>
      refine .inl ?_
      obtain ⟨t', ht, hrel⟩ := h.task_step e hs
      refine ⟨_, t', rfl, ?_, hrel⟩
      have ho : o.bind (Option.guard fun e => Effect.visibleTo conn e) = o := by
        cases taskStep_cases hs <;> rfl
      rw [ho]
      exact ht
    | gi c e =>
      by_cases hc : c = conn
      · subst hc
        refine .inl ?_
        obtain ⟨t', ht, hrel⟩ := h.gi_step e hs
        refine ⟨.gi c e, t', by simp [Event.visibleTo], ?_, hrel⟩
        have ho : o.bind (Option.guard fun e => Effect.visibleTo c e) = o := by
          cases giStep_cases hs <;> simp [Effect.visibleTo, Effect.connection]
        rw [ho]
        exact ht
      · refine .inr ⟨by simp [Event.visibleTo, hc], ?_, (h.other_step hc hr (giStep_cases hs)).1⟩
        have hv := (h.other_step hc hr (giStep_cases hs)).2
        cases o with
        | none => rfl
        | some e => simpa using hv e rfl

/-- A run without the callbacks of the other connections is a run. It logs the
same without their effects, and leaves the same data store, the same callback of
`conn` and the same task. -/
theorem masters_isolated {as : List (Event ι)} (h : (process ι cfg).Trace as w s) (conn : ConnId) :
    ∃ s', (process ι cfg).Trace (as.filter (Event.visibleTo conn))
        (w.filter (Effect.visibleTo conn)) s' ∧ SeenBy conn s s' := by
  have := (masters_projection ι cfg conn).trace h
  simpa using this

/-- A message arrives, and two masters interrogate while the next one is handled. -/
def interrogatedByTwo : List (Event Nat) :=
  .task (.build true) :: handleMessage 0 (.sample 7 true) (.sample 1) ++
    [.gi 2 (.request 20), .gi 1 (.request 20), .gi 2 (.confirm true), .gi 1 (.confirm true),
      .gi 1 (.lock (.sample 2) [⟨.sample 7 true, .sample 1⟩]), .gi 1 (.send true), .gi 1 .unlock,
      .gi 2 (.lock (.sample 3) [⟨.sample 7 true, .sample 1⟩]),
      .task (.receive 1 (.sample 7 false) (.sample 4)), .gi 2 (.send false), .gi 2 .unlock,
      .task .insert, .gi 1 .count, .gi 1 (.terminate true)]

/-- Two masters interrogate at once; what the second one does is left out. -/
theorem masters_isolated_sample : ∃ w s,
    (process Nat .sample).Trace interrogatedByTwo w s ∧
      (w.length, (w.filter (Effect.visibleTo 1)).length) = (18, 14) ∧
      ∃ s', (process Nat .sample).Trace (interrogatedByTwo.filter (Event.visibleTo 1))
          (w.filter (Effect.visibleTo 1)) s' ∧ SeenBy 1 s s' := by
  obtain ⟨w, s, h, hw⟩ := Machine.exists_trace_of_exec (M := process Nat .sample) interrogatedByTwo
    (fun w _ => (w.length, (w.filter (Effect.visibleTo 1)).length)) (18, 14) (by decide +kernel)
  exact ⟨w, s, h, hw, masters_isolated h 1⟩

end Iec104Bridge
