import Iec104Bridge.Model.Signals
import Iec104Bridge.Proof.Process

/-!
# Shutdown

A Ctrl-C that finds a registered `ctrl_c()` future, in a `select!` that its
other branch does not complete in the same poll, stops the bridge
(`stopping_step`): no message is taken after it and no new wait begins
(`shutdown_heeded`). One delivered at any other time is lost (`signal_not_heeded`,
`signal_lost`).
-/

namespace Iec104Bridge

open Framework

variable {ι : Type} {cfg : Settings} {s t : SupervisorState ι} {w : List (SupervisorEffect ι)}

/-- The `ctrl_c()` future of the `select!` the task is at has been polled. -/
def SupervisorState.Registered (s : SupervisorState ι) : Prop :=
  s.core.task.isSelect = true ∧ s.select ≠ .fresh

/-- The signal is delivered to a registered future, or to a bridge that has
returned, and what it completes is not dropped. -/
def Heeds (s : SupervisorState ι) : SupervisorEvent ι → Prop
  | .signal => s.Registered ∨ s.core.task.isReturned = true
  | .ready _ => s.select ≠ .armed true
  | _ => True

instance (s : SupervisorState ι) : Decidable s.Registered := inferInstanceAs (Decidable (_ ∧ _))

instance (s : SupervisorState ι) (e : SupervisorEvent ι) : Decidable (Heeds s e) :=
  match e with
  | .signal => inferInstanceAs (Decidable (_ ∨ _))
  | .ready _ => inferInstanceAs (Decidable (_ ≠ _))
  | .task _ | .poll | .park | .gi .. => inferInstanceAs (Decidable True)

/-- The bridge has returned, or does so when its `select!` is polled again. -/
def SupervisorState.Stopping (s : SupervisorState ι) : Prop :=
  s.core.task.isReturned = true ∨
    s.core.task.isSelect = true ∧ (s.select = .armed true ∨ s.select = .parked true)

/-- Neither takes a message nor begins to wait. -/
def SupervisorEffect.Quiet : SupervisorEffect ι → Prop
  | .core (.received ..) | .waits => False
  | _ => True

/-- What becomes of a signal, when `w` is the log from its delivery to `s`: no
message is taken and no wait begins, and where the task would wait next, polling
stops the server and the bridge returns. -/
structure Heeded (cfg : Settings) (w : List (SupervisorEffect ι)) (s : SupervisorState ι) : Prop where
  taken (id : ι) (message : Iec104Message) (now : OffsetDateTime) : .core (.received id message now) ∉ w
  noWait : .waits ∉ w
  stops : s.core.task.isSelect = true → ∃ polls t, (polls = [.poll] ∨ polls = [.park, .poll]) ∧
    (supervisor ι cfg).exec s polls = some (t, [.core .stopped]) ∧ t.core.task = .returned true

/-- What a step can do. -/
inductive SupervisorStep (cfg : Settings) (s : SupervisorState ι) :
    SupervisorEvent ι → SupervisorState ι → Option (SupervisorEffect ι) → Prop
  | task {event : TaskEvent ι} {u : State ι} {o : Option (Effect ι)} :
    s.core.task.isSelect = false → TaskStep cfg s.core u o →
    SupervisorStep cfg s (.task event) { s with core := u } (o.map .core)
  | wait : s.core.task.isSelect = true → s.select = .fresh →
    SupervisorStep cfg s .poll { s with select := .armed false, installed := true } (some .waits)
  | repoll : s.core.task.isSelect = true → s.select = .parked false →
    SupervisorStep cfg s .poll { s with select := .armed false } none
  | stop : s.core.task.isSelect = true → s.select = .parked true →
    SupervisorStep cfg s .poll
      { s with core := { s.core with task := .returned true }, select := .fresh }
      (some (.core .stopped))
  | ready {event : TaskEvent ι} {notified : Bool} {u : State ι} {o : Option (Effect ι)} :
    s.select = .armed notified → TaskStep cfg s.core u o →
    SupervisorStep cfg s (.ready event) { s with core := u, select := .fresh } (o.map .core)
  | park {notified : Bool} : s.select = .armed notified →
    SupervisorStep cfg s .park { s with select := .parked notified } none
  | signal : s.installed = true →
    SupervisorStep cfg s .signal { s with select := s.select.notify } (some .signal)
  | gi {conn : ConnId} {event : GiEvent} {u : State ι} {o : Option (Effect ι)} :
    GiStep cfg s.core conn u o → SupervisorStep cfg s (.gi conn event) { s with core := u } (o.map .core)

theorem SupervisorState.coreStep_some {event : Event ι} {o : Option (SupervisorEffect ι)}
    (h : s.coreStep cfg event = some (t, o)) :
    ∃ u o', (process ι cfg).step s.core event = some (u, o') ∧ t = { s with core := u } ∧
      o = o'.map .core := by
  simp only [SupervisorState.coreStep] at h
  split at h <;> cases h
  exact ⟨_, _, ‹_›, rfl, rfl⟩

theorem task_of_step {s t : State ι} {event : TaskEvent ι} {o : Option (Effect ι)}
    (h : (process ι cfg).step s (.task event) = some (t, o)) : TaskStep cfg s t o := taskStep_cases h

theorem isSelect_iff {task : TaskPhase ι} :
    task.isSelect = true ↔ task = .selecting ∨ task = .backingOff := by
  cases task <;> simp [TaskPhase.isSelect]

/-- A step that a `select!` does not take is taken outside of them. -/
theorem isSelect_of_taskStep {s t : State ι} {event : TaskEvent ι} {o : Option (Effect ι)}
    (h : taskStep cfg s event = some (t, o))
    (he : (∃ ok, event = .build ok ∨ event = .ack ok) ∨ event = .insert ∨ event = .dispatch ∨
      event = .count) : s.task.isSelect = false := by
  by_contra hs
  rw [Bool.not_eq_false, isSelect_iff] at hs
  rcases hs with hs | hs <;>
    rcases he with ⟨ok, rfl | rfl⟩ | rfl | rfl | rfl <;> simp [taskStep, hs] at h

theorem supervisorStep_cases {e : SupervisorEvent ι} {o : Option (SupervisorEffect ι)}
    (h : supervisorStep cfg s e = some (t, o)) : SupervisorStep cfg s e t o := by
  cases e with
  | task event =>
    have hcore (h : s.coreStep cfg (.task event) = some (t, o))
        (he : (∃ ok, event = .build ok ∨ event = .ack ok) ∨ event = .insert ∨ event = .dispatch ∨
          event = .count) : SupervisorStep cfg s (.task event) t o := by
      obtain ⟨u, o', hs, rfl, rfl⟩ := SupervisorState.coreStep_some h
      exact .task (isSelect_of_taskStep hs he) (taskStep_cases hs)
    simp only [supervisorStep] at h
    split at h
    · exact hcore h (.inl ⟨_, .inl rfl⟩)
    · exact hcore h (.inr (.inl rfl))
    · exact hcore h (.inr (.inr (.inl rfl)))
    · exact hcore h (.inl ⟨_, .inr rfl⟩)
    · exact hcore h (.inr (.inr (.inr rfl)))
    · cases h
  | poll =>
    simp only [supervisorStep] at h
    split at h <;> [skip; cases h]
    rename_i hsel
    split at h
    · cases h
      exact .wait hsel ‹_›
    · cases h
    · cases h
      exact .repoll hsel ‹_›
    · obtain ⟨u, o', hs, rfl, rfl⟩ := SupervisorState.coreStep_some h
      rcases isSelect_iff.mp hsel with ht | ht
      · simp only [process, taskStep, ht] at hs
        cases hs
        exact .stop hsel ‹_›
      · simp only [process, taskStep, ht] at hs
        cases hs
        exact .stop hsel ‹_›
  | ready event =>
    simp only [supervisorStep] at h
    split at h
    all_goals first
      | cases h
      | obtain ⟨u, o', hs, rfl, rfl⟩ := SupervisorState.coreStep_some h
        exact .ready ‹_› (task_of_step hs)
  | park =>
    simp only [supervisorStep] at h
    split at h <;> cases h
    exact .park ‹_›
  | signal =>
    simp only [supervisorStep] at h
    split at h <;> cases h
    exact .signal ‹_›
  | gi conn event =>
    obtain ⟨u, o', hs, rfl, rfl⟩ := SupervisorState.coreStep_some h
    exact .gi (giStep_cases hs)

theorem isReturned_eq_false {task : TaskPhase ι} (h : task.isSelect = true) : task.isReturned = false := by
  rcases isSelect_iff.mp h with rfl | rfl <;> rfl

/-- A bridge that is to stop takes no message, begins no wait, and is still to
stop or has returned. -/
theorem stopping_step {e : SupervisorEvent ι} {o : Option (SupervisorEffect ι)} (hp : s.Stopping)
    (hh : Heeds s e) (h : SupervisorStep cfg s e t o) : t.Stopping ∧ ∀ x ∈ o.toList, x.Quiet := by
  have hnil : ∀ x ∈ (none : Option (SupervisorEffect ι)).toList, x.Quiet := fun _ h => by cases h
  rcases hp with hr | ⟨hsel, hn⟩
  · cases h with
    | task _ hs | ready _ hs =>
      rw [hs.not_returned] at hr
      cases hr
    | wait hsel | repoll hsel | stop hsel =>
      rw [isReturned_eq_false hsel] at hr
      cases hr
    | park => exact ⟨.inl hr, hnil⟩
    | signal => exact ⟨.inl hr, by simp [SupervisorEffect.Quiet]⟩
    | gi hs =>
      refine ⟨.inl (by rwa [hs.frame.2.1]), ?_⟩
      cases hs <;> simp [SupervisorEffect.Quiet]
  · cases h with
    | task hsel' =>
      rw [hsel] at hsel'
      cases hsel'
    | wait _ hsf | repoll _ hsf =>
      rw [hsf] at hn
      rcases hn with hn | hn <;> cases hn
    | stop => exact ⟨.inl rfl, by simp [SupervisorEffect.Quiet]⟩
    | ready ha =>
      -- the other branch may not complete with the signal pending
      rcases hn with hn | hn
      · exact absurd hn hh
      · rw [ha] at hn
        cases hn
    | park ha =>
      refine ⟨.inr ⟨hsel, .inr ?_⟩, hnil⟩
      rcases hn with hn | hn
      · rw [ha] at hn
        cases hn
        rfl
      · rw [ha] at hn
        cases hn
    | signal =>
      refine ⟨.inr ⟨hsel, ?_⟩, by simp [SupervisorEffect.Quiet]⟩
      rcases hn with hn | hn
      · exact .inl (by rw [hn]; rfl)
      · exact .inr (by rw [hn]; rfl)
    | gi hs =>
      refine ⟨.inr ⟨by rwa [hs.frame.2.1], hn⟩, ?_⟩
      cases hs <;> simp [SupervisorEffect.Quiet]

/-- Where a bridge that is to stop would wait, polling stops it. -/
theorem stopping_stops (hp : s.Stopping) (hsel : s.core.task.isSelect = true) :
    ∃ polls t, (polls = [.poll] ∨ polls = [.park, .poll]) ∧
      (supervisor ι cfg).exec s polls = some (t, [.core .stopped]) ∧ t.core.task = .returned true := by
  have hstop (u : SupervisorState ι) (hu : u.core.task.isSelect = true) (hn : u.select = .parked true) :
      ∃ t, (supervisor ι cfg).step u .poll = some (t, some (.core .stopped)) ∧
        t.core.task = .returned true := by
    rcases isSelect_iff.mp hu with ht | ht
    · exact ⟨_, by simp [supervisor, supervisorStep, hn, ht, TaskPhase.isSelect,
        SupervisorState.coreStep, process, taskStep]; rfl, rfl⟩
    · exact ⟨_, by simp [supervisor, supervisorStep, hn, ht, TaskPhase.isSelect,
        SupervisorState.coreStep, process, taskStep]; rfl, rfl⟩
  rcases hp with hr | ⟨-, hn⟩
  · rw [isReturned_eq_false hsel] at hr
    cases hr
  rcases hn with hn | hn
  · have hpark : (supervisor ι cfg).step s .park = some ({ s with select := .parked true }, none) := by
      simp [supervisor, supervisorStep, hn]
    obtain ⟨t, ht, hret⟩ := hstop { s with select := .parked true } hsel rfl
    exact ⟨_, t, .inr rfl, by simp [Machine.exec, hpark, ht], hret⟩
  · obtain ⟨t, ht, hret⟩ := hstop s hsel hn
    exact ⟨_, t, .inl rfl, by simp [Machine.exec, ht], hret⟩

/-- A signal that is heeded leaves the bridge to stop. -/
theorem stopping_of_signal (hh : Heeds s .signal) (h : SupervisorStep cfg s .signal t (some .signal)) :
    t.Stopping := by
  cases h
  rcases hh with ⟨hsel, hn⟩ | hr
  · refine .inr ⟨hsel, ?_⟩
    cases hs : s.select with
    | fresh => exact absurd hs hn
    | armed => exact .inl rfl
    | parked => exact .inr rfl
  · exact .inl hr

/-- In a run that heeds its signals, a Ctrl-C stops the bridge. -/
theorem shutdown_heeded {w₁ w₂ : List (SupervisorEffect ι)}
    (h : ((supervisor ι cfg).restrict Heeds).Run (w₁ ++ .signal :: w₂) s) : Heeded cfg w₂ s := by
  obtain ⟨t, a, t', -, hs, hsteps⟩ := h.split
  obtain ⟨hh, hs⟩ := Machine.restrict_step.mp hs
  have ha : a = .signal := by
    generalize ho : (some .signal : Option (SupervisorEffect ι)) = o at hs
    cases supervisorStep_cases hs with
    | signal => rfl
    | @task _ _ o | @ready _ _ _ o | @gi _ _ _ o => cases o <;> cases ho
    | _ => cases ho
  subst ha
  have hsig : SupervisorStep cfg t .signal t' (some .signal) := supervisorStep_cases hs
  have hstop : s.Stopping ∧ ∀ x ∈ w₂, x.Quiet := by
    refine hsteps.induct (P := fun w s => s.Stopping ∧ ∀ x ∈ w, x.Quiet)
      ⟨stopping_of_signal hh hsig, fun _ hx => absurd hx List.not_mem_nil⟩
      fun w u e v o _ ⟨hu, hq⟩ hst => ?_
    obtain ⟨hh, hst⟩ := Machine.restrict_step.mp hst
    obtain ⟨hv, ho⟩ := stopping_step hu hh (supervisorStep_cases hst)
    exact ⟨hv, fun x hx => (List.mem_append.mp hx).elim (hq x) (ho x)⟩
  exact ⟨fun id message now hm => hstop.2 _ hm, fun hm => hstop.2 _ hm, stopping_stops hstop.1⟩

/-- A message is handled, then a Ctrl-C stops the bridge. -/
theorem shutdown_heeded_sample : ∃ w₁ w₂ s,
    ((supervisor Nat .sample).restrict Heeds).Run (w₁ ++ .signal :: w₂) s ∧
      Heeded .sample w₂ s ∧ s.core.task = .returned true := by
  have h : ((supervisor Nat .sample).restrict Heeds).Run
      ([.core (.built true), .waits, .core (.received 0 (.sample 100 true) (.sample 1)),
        .core (.inserted 0 ⟨.sample 100 true, .sample 1⟩),
        .core (.handed 0 (.sample 1) (spontaneousFrame .sample (.sample 100 true) (.sample 1))),
        .core (.acked 0), .core .counted, .waits] ++ .signal :: [.core .stopped]) _ :=
    Machine.run_of_exec (M := (supervisor Nat .sample).restrict Heeds)
      [.task (.build true), .poll, .ready (.receive 0 (.sample 100 true) (.sample 1)), .task .insert,
        .task .dispatch, .task (.ack true), .task .count, .poll, .park, .signal, .poll] rfl
  exact ⟨_, _, _, h, shutdown_heeded h, rfl⟩

/-! ## Signals that are lost -/

/-- Outside the `select!`s no future is there. -/
theorem fresh_of_not_registered (h : (supervisor ι cfg).Run w s) (hn : ¬ s.Registered) :
    s.select = .fresh := by
  have hsel : s.core.task.isSelect = false → s.select = .fresh := by
    refine h.invariant (P := fun _ s => s.core.task.isSelect = false → s.select = .fresh) (fun _ => rfl)
      fun w s a t o _ ih hs ht => ?_
    cases supervisorStep_cases hs with
    | task hf => exact ih hf
    | wait ht' | repoll ht' =>
      rw [show s.core.task.isSelect = false from ht] at ht'
      cases ht'
    | stop | ready => rfl
    | park hp =>
      rw [ih ht] at hp
      cases hp
    | signal =>
      show s.select.notify = _
      rw [ih ht]
      rfl
    | gi hg =>
      -- a callback does not touch the task
      cases hg <;> exact ih ht
  cases ht : s.core.task.isSelect with
  | false => exact hsel ht
  | true =>
    by_contra hf
    exact hn ⟨ht, hf⟩

/-- Where a step does not heed a signal, nothing is left of it. -/
theorem fresh_of_not_heeds {w' : List (SupervisorEffect ι)} {s' : SupervisorState ι} {e : SupervisorEvent ι}
    {o : Option (SupervisorEffect ι)} (hr : (supervisor ι cfg).Run w' s) (hn : ¬ Heeds s e)
    (hs : SupervisorStep cfg s e s' o) : s'.select = .fresh := by
  cases hs with
  | ready => rfl
  | signal =>
    show s.select.notify = _
    rw [fresh_of_not_registered hr fun hreg => hn (.inl hreg)]
    rfl
  | _ => exact absurd trivial hn

/-- A signal that finds no registered future, or that is dropped with its `select!`, is
lost: at the next wait the bridge has not heeded it. -/
theorem signal_not_heeded {w' : List (SupervisorEffect ι)} {s' : SupervisorState ι} {e : SupervisorEvent ι}
    {o : Option (SupervisorEffect ι)} (hr : (supervisor ι cfg).Run w' s) (hn : ¬ Heeds s e)
    (hs : (supervisor ι cfg).step s e = some (s', o)) (h : Machine.Steps (supervisor ι cfg) s' w t)
    (ht : t.core.task.isSelect = true) : ¬ Heeded cfg w t := by
  have hf : s'.select = .fresh := fresh_of_not_heeds hr hn (supervisorStep_cases hs)
  have hw : t.select = .fresh ∨ .waits ∈ w := by
    refine h.induct (P := fun w t => t.select = .fresh ∨ .waits ∈ w) (.inl hf)
      fun w u e v o _ ih hs => ?_
    rcases ih with ih | ih
    · cases supervisorStep_cases hs with
      | wait => exact .inr (by simp)
      | task | gi => exact .inl ih
      | stop | ready => exact .inl rfl
      | repoll _ hn | park hn =>
        rw [ih] at hn
        cases hn
      | signal => exact .inl (by show u.select.notify = _; rw [ih]; rfl)
    · exact .inr (List.mem_append_left _ ih)
  intro hh
  rcases hw with hn | hn
  · obtain ⟨polls, u, hp, he, -⟩ := hh.stops ht
    rcases hp with rfl | rfl
    · simp [Machine.exec, supervisor, supervisorStep, ht, hn] at he
    · simp [Machine.exec, supervisor, supervisorStep, hn] at he
  · exact hh.noWait hn

/-- A Ctrl-C that is delivered while an acknowledgement is awaited is lost, and
the bridge takes the next message. -/
theorem signal_lost : ∃ w₁ w₂ s, (supervisor Nat .sample).Run (w₁ ++ .signal :: w₂) s ∧
    .core (.received 1 (.sample 100 false) (.sample 2)) ∈ w₂ ∧ ¬ Heeded .sample w₂ s := by
  have h : (supervisor Nat .sample).Run
      ([.core (.built true), .waits, .core (.received 0 (.sample 100 true) (.sample 1)),
        .core (.inserted 0 ⟨.sample 100 true, .sample 1⟩),
        .core (.handed 0 (.sample 1) (spontaneousFrame .sample (.sample 100 true) (.sample 1)))] ++
        .signal :: [.core (.acked 0), .core .counted, .waits,
          .core (.received 1 (.sample 100 false) (.sample 2))]) _ :=
    Machine.run_of_exec (M := supervisor Nat .sample)
      [.task (.build true), .poll, .ready (.receive 0 (.sample 100 true) (.sample 1)), .task .insert,
        .task .dispatch, .signal, .task (.ack true), .task .count, .poll, .park, .poll,
        .ready (.receive 1 (.sample 100 false) (.sample 2))] rfl
  exact ⟨_, _, _, h, by simp, fun hh => hh.noWait (by simp)⟩

end Iec104Bridge
