import Iec104Bridge.Framework.Refinement
import Iec104Bridge.Model.Redundancy
import Iec104Bridge.Proof.Delivery

/-!
# Failover

`KeyStep` says what a step of the process does to one key: nothing, or it hands
or replays the point in the data store. So the last frame of a key in the
low-priority queue is never older than the data store (`lowFresh_of_run`), and
once a frame of the key was sent since a master became active, the last one it
holds or will be sent is up to date (`covered_upToDate`). A replay sends a frame
of every key (`answered_covers`), so a master that takes over and interrogates
ends up with what is in the data store (`failover_upToDate`).
-/

namespace Iec104Bridge

open Framework

section

variable {ι : Type} {cfg : Settings} {s t : State ι} {w : List (Effect ι)} {k : Key}
  {o : Option (Effect ι)}

/-! ## One key -/

/-- The data frame an effect sends. -/
def Effect.sends (e : Effect ι) : Option Asdu := (e.highFrame.or e.lowFrame).bind Frame.asdu

/-- What a step does to key `k`, unless its message waits for its dispatch afterwards. -/
inductive KeyStep (cfg : Settings) (k : Key) (s t : State ι) : Option (Effect ι) → Prop
  /-- No frame of the key is sent. -/
  | quiet {o : Option (Effect ι)} : ¬ Updating cfg s.task k → t.cache.lookup k = s.cache.lookup k →
    (∀ asdu ∈ o.bind Effect.sends, asdu.address ≠ k.address) → KeyStep cfg k s t o
  | handed {id : ι} {message : Iec104Message} {now : OffsetDateTime} :
    message.key cfg.defaultCa = k → t.cache.lookup k = some ⟨message, now⟩ →
    KeyStep cfg k s t (some (.handed id now (spontaneousFrame cfg message now)))
  | replayed {conn : ConnId} {now : OffsetDateTime} {point : CachedPoint} :
    ¬ Updating cfg s.task k → point.key cfg.defaultCa = k → t.cache.lookup k = s.cache.lookup k →
    t.cache.lookup k = some point →
    KeyStep cfg k s t (some (.giData conn now (replayFrame cfg now point) true))

theorem not_updating {task : TaskPhase ι} (h : ∀ id message now, task ≠ .cached id message now) :
    ¬ Updating cfg task k := fun ⟨id, message, now, ht, _⟩ => h id message now ht

theorem TaskStep.keyStep (h : TaskStep cfg s t o) (hg : cfg.giOnly = false)
    (hc : ∀ id message now, s.task = .cached id message now →
      s.cache.lookup (message.key cfg.defaultCa) = some ⟨message, now⟩)
    (hu : ¬ Updating cfg t.task k) : KeyStep cfg k s t o := by
  cases h with
  | @insert id message now h _ =>
    have hne : k ≠ message.key cfg.defaultCa := fun hk => hu ⟨id, message, now, rfl, hk.symm⟩
    exact .quiet (not_updating (by simp [h])) (Finmap.lookup_insert_of_ne _ hne) fun _ ha => by cases ha
  | @dispatch id message now h _ =>
    by_cases hk : message.key cfg.defaultCa = k
    · subst hk
      exact .handed rfl (hc id message now h)
    · refine .quiet ?_ rfl ?_
      · rintro ⟨_, _, _, h', hk'⟩
        rw [h] at h'
        cases h'
        exact hk hk'
      · intro asdu ha
        cases ha
        exact fun ha => hk ((spontaneousFrame_of cfg message now).address_iff.mp ha)
  | skip _ h =>
    rw [hg] at h
    cases h
  | receiveError => exact .quiet hu rfl fun _ ha => by cases ha
  | built h | ctrlC h =>
    refine .quiet (not_updating ?_) rfl fun _ ha => by cases ha
    rcases h with h | h <;> simp [h]
  | _ h => exact .quiet (not_updating (by simp [h])) rfl fun _ ha => by cases ha

theorem GiStep.keyStep {conn : ConnId} (h : GiStep cfg s conn t o)
    (hc : ∀ now todo sink, s.gi conn = .replaying now todo sink → ∀ point ∈ todo,
      s.cache.lookup (point.key cfg.defaultCa) = some point)
    (hu : ¬ Updating cfg s.task k) : KeyStep cfg k s t o := by
  cases h with
  | @send now point todo sink sent h =>
    have hl := hc now _ sink h point List.mem_cons_self
    have hf := replayFrame_of cfg now point
    by_cases hk : point.key cfg.defaultCa = k ∧ sent = true
    · obtain ⟨rfl, rfl⟩ := hk
      exact .replayed hu rfl rfl hl
    · refine .quiet hu rfl ?_
      intro asdu ha
      cases sent with
      | true =>
        cases ha
        exact fun ha => hk ⟨hf.address_iff.mp ha, rfl⟩
      | false => cases ha
  | @refuse _ sent | @confirm sent | @terminate sent =>
    refine .quiet hu rfl ?_
    intro asdu ha
    cases sent <;> cases ha
  | _ => exact .quiet hu rfl fun _ ha => by cases ha

theorem keyStep_of_step (hg : cfg.giOnly = false) (h : (process ι cfg).Run w s) {a : Event ι}
    (hs : (process ι cfg).step s a = some (t, o)) (hu : ¬ Updating cfg t.task k) :
    KeyStep cfg k s t o := by
  rcases process_step hs with hs | ⟨conn, hs⟩
  · exact hs.keyStep hg (fun _ _ _ => cached_lookup h) hu
  · refine hs.keyStep (fun _ _ _ hp _ hm => replaying_lookup h hp hm) ?_
    rwa [hs.frame.2.1] at hu

/-! ## Covered keys -/

/-- A frame of the key was sent. -/
def Covered (k : Key) (w : List (Effect ι)) : Prop :=
  ∃ asdu ∈ w.filterMap Effect.sends, asdu.address = k.address

/-- A key is covered after a step because it was, or by the frame of the step. -/
theorem covered_concat : Covered k (w ++ o.toList) ↔
    Covered k w ∨ ∃ asdu ∈ o.bind Effect.sends, asdu.address = k.address := by
  simp only [Covered, List.filterMap_append, Machine.toList_filterMap, List.mem_append,
    Option.mem_toList, Option.mem_def, or_and_right, exists_or]

/-- Every key of the data store is covered, unless its message waits for its dispatch. -/
def AllCovered (cfg : Settings) (w : List (Effect ι)) (s : State ι) : Prop :=
  ∀ k point, ¬ Updating cfg s.task k → s.cache.lookup k = some point → Covered k w

theorem AllCovered.step (h : AllCovered cfg w s)
    (hs : ∀ k, ¬ Updating cfg t.task k → KeyStep cfg k s t o) :
    AllCovered cfg (w ++ o.toList) t := by
  intro k point hu hl
  cases hs k hu with
  | quiet hu' hl' => exact covered_concat.mpr (.inl (h k point hu' (hl' ▸ hl)))
  | replayed hu' _ hl' => exact covered_concat.mpr (.inl (h k point hu' (hl' ▸ hl)))
  | @handed id message now hk =>
    subst hk
    have ha := (spontaneousFrame_of cfg message now).address_iff.mpr rfl
    exact covered_concat.mpr (.inr ⟨_, rfl, ha⟩)

/-! ## A complete replay -/

/-- An interrogation on `conn` is answered in `w`, from its replay to its count,
and the queue takes every point. -/
def GiAnswered (conn : ConnId) (w : List (Effect ι)) : Prop :=
  ∃ w₁ now w₂ w₃, w = w₁ ++ .locked conn now :: (w₂ ++ .giCounted conn :: w₃) ∧
    ∀ now asdu, .giData conn now asdu false ∉ w₂

/-- The replay on `conn` covered every key, but for those it still has to visit. -/
def Covering (cfg : Settings) (conn : ConnId) (w : List (Effect ι)) (s : State ι) : Prop :=
  (∃ now todo sink, s.gi conn = .replaying now todo sink ∧ ∀ k point, ¬ Updating cfg s.task k →
    s.cache.lookup k = some point → point ∈ todo ∨ Covered k w) ∨ AllCovered cfg w s

/-- A step of another than `conn` keeps what is covered. -/
theorem Covering.other {conn : ConnId} (h : Covering cfg conn w s)
    (hs : ∀ k, ¬ Updating cfg t.task k → KeyStep cfg k s t o) (hg : t.gi conn = s.gi conn) :
    Covering cfg conn (w ++ o.toList) t := by
  rcases h with ⟨now, todo, sink, hp, hc⟩ | h
  · refine .inl ⟨now, todo, sink, hg.trans hp, fun k point hu hl => ?_⟩
    cases hs k hu with
    | quiet hu' hl' | replayed hu' _ hl' =>
      exact (hc k point hu' (hl' ▸ hl)).imp_right fun h => covered_concat.mpr (.inl h)
    | @handed id message now hk =>
      have ha := (spontaneousFrame_of cfg message now).address_iff.mpr hk
      exact .inr (covered_concat.mpr (.inr ⟨_, rfl, ha⟩))
  · exact .inr (h.step hs)

/-- A step of the replay covers the point it sends. -/
theorem Covering.own {conn : ConnId} (h : Covering cfg conn w s) (hs : GiStep cfg s conn t o)
    (hk : ∀ k, ¬ Updating cfg t.task k → KeyStep cfg k s t o)
    (hc : ∀ k point, s.cache.lookup k = some point → point.key cfg.defaultCa = k)
    (ho : ∀ now asdu, .giData conn now asdu false ∉ o) : Covering cfg conn (w ++ o.toList) t := by
  rcases h with ⟨now, todo, sink, hp, hcov⟩ | h
  · cases hs with
    | @send _ p todo' _ sent hp' =>
      rw [hp] at hp'
      cases hp'
      have hsent : sent = true := by
        cases sent with
        | true => rfl
        | false => exact absurd rfl (ho _ _)
      subst hsent
      refine .inl ⟨now, todo', _, State.setGi_gi_self _ _, fun k point hu hl => ?_⟩
      rcases hcov k point hu hl with hm | hm
      · rcases List.mem_cons.mp hm with rfl | hm
        · have ha := (replayFrame_of cfg now point).address_iff.mpr (hc k point hl)
          exact .inr (covered_concat.mpr (.inr ⟨_, rfl, ha⟩))
        · exact .inl hm
      · exact .inr (covered_concat.mpr (.inl hm))
    | unlock hp' =>
      rw [hp] at hp'
      cases hp'
      refine .inr fun k point hu hl => ?_
      rcases hcov k point hu hl with hm | hm
      · cases hm
      · exact covered_concat.mpr (.inl hm)
    | request h | refuse h | confirm h | lock h | count h | terminate h =>
      rw [hp] at h
      cases h
  · exact .inr (h.step hk)

theorem Covering.step {conn : ConnId} (hg : cfg.giOnly = false) {w₀ : List (Effect ι)}
    (hr : (process ι cfg).Run w₀ s) (h : Covering cfg conn w s) {a : Event ι}
    (hs : (process ι cfg).step s a = some (t, o)) (ho : ∀ now asdu, .giData conn now asdu false ∉ o) :
    Covering cfg conn (w ++ o.toList) t := by
  have hk (k : Key) (hu : ¬ Updating cfg t.task k) := keyStep_of_step hg hr hs hu
  rcases process_step hs with hs | ⟨c, hs⟩
  · exact h.other hk (by rw [hs.frame.1])
  · by_cases hc : conn = c
    · subst hc
      refine h.own hs hk (fun k point hl => ?_) ho
      rw [cache_lookup hr] at hl
      exact lastAt_key hl
    · exact h.other hk (hs.gi_of_ne hc)

theorem Covering.steps {conn : ConnId} (hg : cfg.giOnly = false) {w₀ w' : List (Effect ι)}
    (hr : (process ι cfg).Run w₀ s) (h : Covering cfg conn w s)
    (hs : Machine.Steps (process ι cfg) s w' t) (ho : ∀ now asdu, .giData conn now asdu false ∉ w') :
    Covering cfg conn (w ++ w') t := by
  revert ho
  refine hs.induct
    (P := fun w' t => (∀ now asdu, .giData conn now asdu false ∉ w') → Covering cfg conn (w ++ w') t)
    (fun _ => by rwa [List.append_nil]) fun w' t a u o hst ih hs ho => ?_
  have ih := ih fun now asdu hm => ho now asdu (List.mem_append_left _ hm)
  rw [← List.append_assoc]
  exact ih.step hg (hr.trans hst) hs fun now asdu hm =>
    ho now asdu (List.mem_append_right _ (Option.mem_toList.mpr hm))

theorem AllCovered.steps (hg : cfg.giOnly = false) {w₀ w' : List (Effect ι)}
    (hr : (process ι cfg).Run w₀ s) (h : AllCovered cfg w s)
    (hs : Machine.Steps (process ι cfg) s w' t) : AllCovered cfg (w ++ w') t := by
  refine hs.induct (P := fun w' t => AllCovered cfg (w ++ w') t) (by rwa [List.append_nil])
    fun w' t a u o hst ih hs => ?_
  rw [← List.append_assoc]
  exact ih.step fun k hu => keyStep_of_step hg (hr.trans hst) hs hu

theorem AllCovered.mono {w' : List (Effect ι)} (h : AllCovered cfg w s) (hw : w ⊆ w') :
    AllCovered cfg w' s := by
  intro k point hu hl
  obtain ⟨asdu, ha, hk⟩ := h k point hu hl
  exact ⟨asdu, List.filterMap_subset _ hw ha, hk⟩

/-- An answered interrogation covers every key. -/
theorem answered_covers (hg : cfg.giOnly = false) {w₀ w : List (Effect ι)} {conn : ConnId}
    (h₀ : (process ι cfg).Run w₀ s) (h : Machine.Steps (process ι cfg) s w t)
    (ha : GiAnswered conn w) : AllCovered cfg w t := by
  obtain ⟨w₁, now, w₂, w₃, rfl, ho⟩ := ha
  obtain ⟨s₁, a, s₂, h₁, hlock, h₂⟩ := h.split
  obtain ⟨s₃, b, s₄, h₃, hcount, h₄⟩ := h₂.split
  have hr₂ := (h₀.trans h₁).tail hlock
  have hr₃ := hr₂.trans h₃
  -- the replay starts with every point to visit
  have hstart : Covering cfg conn [] s₂ := by
    generalize he : some (Effect.locked conn now) = e at hlock
    rcases process_step hlock with hs | ⟨c, hs⟩
    · cases hs <;> cases he
    · cases hs with
      | @lock now order _ _ hord =>
        cases he
        refine .inl ⟨now, order, .new, State.setGi_gi_self _ _, fun k point _ hl => .inl ?_⟩
        rw [← Multiset.mem_coe, hord]
        exact mem_points_iff.mpr ⟨k, hl⟩
      | _ => cases he
  -- and is over when it is counted
  have hover : AllCovered cfg w₂ s₃ := by
    rcases hstart.steps hg hr₂ h₃ ho with ⟨now, todo, sink, hp, -⟩ | hall
    · generalize he : some (Effect.giCounted conn) = e at hcount
      rcases process_step hcount with hs | ⟨c, hs⟩
      · cases hs <;> cases he
      · cases hs with
        | count hc =>
          cases he
          rw [hp] at hc
          cases hc
        | _ => cases he
    · exact hall
  refine (hover.steps hg hr₃ ((Machine.Steps.single hcount).trans h₄)).mono fun e he => ?_
  simp only [Option.toList_some, List.mem_append, List.mem_cons, List.not_mem_nil, or_false] at he ⊢
  tauto

end

/-! ## The group -/

section

variable {ι σ α ω : Type} {cfg : Settings} {M : Machine σ α ω} {g : ω → Option (Effect ι)}
  {f : σ → State ι} {s t : GroupState σ} {w : List (GroupEffect ω)} {k : Key} {conn : ConnId}

def GroupEffect.toFront : GroupEffect ω → Option ω
  | .bridge e => some e
  | _ => none

/-- What the process did. -/
def processLog (g : ω → Option (Effect ι)) (w : List (GroupEffect ω)) : List (Effect ι) :=
  (w.filterMap GroupEffect.toFront).filterMap g

/-- What a step of the group can do. -/
inductive GroupStep (M : Machine σ α ω) (g : ω → Option (Effect ι)) (s : GroupState σ) :
    GroupState σ → Option (GroupEffect ω) → Prop
  | bridge {event : α} {front : σ} {o : Option ω} : M.step s.front event = some (front, o) →
    GroupStep M g s (s.queue front (o.bind g)) (o.map .bridge)
  | start {conn : ConnId} : GroupStep M g s { s with active := some conn } (some (.started conn))
  | close {conn : ConnId} :
    GroupStep M g s { s with active := if s.active = some conn then none else s.active }
      (some (.closed conn))
  | deliverHigh {conn : ConnId} {frame : Frame} {high : List Frame} : s.active = some conn →
    s.high = frame :: high →
    GroupStep M g s ({ s with high }.receive conn frame) (some (.delivered conn frame))
  | deliverLow {conn : ConnId} {frame : Frame} {low : List Frame} : s.active = some conn →
    s.high = [] → s.low = frame :: low →
    GroupStep M g s ({ s with low }.receive conn frame) (some (.delivered conn frame))
  | loseHigh {frame : Frame} {high : List Frame} : s.high = frame :: high →
    GroupStep M g s { s with high } (some (.lost frame))
  | loseLow {frame : Frame} {low : List Frame} : s.low = frame :: low →
    GroupStep M g s { s with low } (some (.lost frame))

theorem groupStep_cases {e : GroupEvent α} {o : Option (GroupEffect ω)}
    (h : (group M g).step s e = some (t, o)) : GroupStep M g s t o := by
  cases e with
  | bridge event =>
    simp only [group, groupStep] at h
    split at h <;> cases h
    exact .bridge ‹_›
  | start conn =>
    cases h
    exact .start
  | close conn =>
    cases h
    exact .close
  | deliver =>
    simp only [group, groupStep] at h
    split at h <;> cases h
    · exact .deliverHigh ‹_› ‹_›
    · exact .deliverLow ‹_› ‹_› ‹_›
  | loseHigh =>
    simp only [group, groupStep] at h
    split at h <;> cases h
    exact .loseHigh ‹_›
  | loseLow =>
    simp only [group, groupStep] at h
    split at h <;> cases h
    exact .loseLow ‹_›

theorem toFront_map (o : Option ω) : (o.map GroupEffect.bridge).bind GroupEffect.toFront = o := by
  cases o <;> rfl

/-- The group runs the front end. -/
theorem group_front (M : Machine σ α ω) (g : ω → Option (Effect ι)) :
    Machine.Simulation (group M g) M GroupState.front GroupEffect.toFront where
  init := rfl
  step h := by
    cases groupStep_cases h with
    | bridge hs =>
      rw [toFront_map]
      exact .inl ⟨_, hs⟩
    | _ => exact .inr ⟨rfl, rfl⟩

theorem processLog_concat (o : Option (GroupEffect ω)) :
    processLog g (w ++ o.toList) = processLog g w ++ ((o.bind GroupEffect.toFront).bind g).toList := by
  simp only [processLog, List.filterMap_append, Machine.toList_filterMap]

theorem group_process (hf : Machine.Simulation M (process ι cfg) f g) (h : (group M g).Run w s) :
    (process ι cfg).Run (processLog g w) (f s.front) := hf.run ((group_front M g).run h)

/-! ## The queues -/

theorem lastFrame_low {o : Option (Effect ι)} (h : ∀ asdu ∈ o.bind Effect.sends, asdu.address ≠ k.address) :
    lastFrame k (o.bind Effect.lowFrame).toList = none := by
  cases o with
  | none => rfl
  | some e =>
    cases e with
    | handed =>
      refine lastAt_eq_none_iff.mpr fun asdu ha => h asdu ?_
      exact (List.mem_singleton.mp ha) ▸ rfl
    | _ => rfl

theorem lastFrame_high {o : Option (Effect ι)} (h : ∀ asdu ∈ o.bind Effect.sends, asdu.address ≠ k.address) :
    lastFrame k (o.bind Effect.highFrame).toList = none := by
  cases o with
  | none => rfl
  | some e =>
    cases e with
    | giData _ _ _ sent =>
      cases sent with
      | true =>
        refine lastAt_eq_none_iff.mpr fun asdu ha => h asdu ?_
        exact (List.mem_singleton.mp ha) ▸ rfl
      | false => rfl
    | actCon _ _ sent | actTerm _ sent => cases sent <;> rfl
    | _ => rfl

theorem lastFrame_handed {id : ι} {message : Iec104Message} {now : OffsetDateTime}
    (h : message.key cfg.defaultCa = k) :
    lastFrame k ((some (Effect.handed id now (spontaneousFrame cfg message now))).bind
      Effect.lowFrame).toList = some (spontaneousFrame cfg message now) :=
  (lastFrame_data k (spontaneousFrame_of cfg message now)).trans (if_pos h)

theorem lastFrame_replayed {conn : ConnId} {point : CachedPoint} {now : OffsetDateTime}
    (h : point.key cfg.defaultCa = k) :
    lastFrame k ((some (.giData conn now (replayFrame cfg now point) true : Effect ι)).bind
      Effect.highFrame).toList = some (replayFrame cfg now point) :=
  (lastFrame_data k (replayFrame_of cfg now point)).trans (if_pos h)

/-- What a step of the front end does to a key. -/
theorem front_keyStep (hf : Machine.Simulation M (process ι cfg) f g) (hg : cfg.giOnly = false)
    (h : (group M g).Run w s) {event : α} {front : σ} {o : Option ω}
    (hs : M.step s.front event = some (front, o)) (hu : ¬ Updating cfg (f front).task k) :
    KeyStep cfg k (f s.front) (f front) (o.bind g) := by
  rcases hf.step hs with ⟨b, hb⟩ | ⟨he, ho⟩
  · exact keyStep_of_step hg (group_process hf h) hb hu
  · rw [ho, he]
    exact .quiet (he ▸ hu) rfl fun _ ha => by cases ha

/-- The last frame of a key in the low-priority queue carries the point of the
data store. -/
theorem lowFresh_of_run (hf : Machine.Simulation M (process ι cfg) f g) (hg : cfg.giOnly = false)
    (h : (group M g).Run w s) (k : Key) (hu : ¬ Updating cfg (f s.front).task k)
    {point : CachedPoint} (hl : (f s.front).cache.lookup k = some point) {asdu : Asdu}
    (ha : lastFrame k s.low = some asdu) : Carries cfg asdu point := by
  refine h.invariant
    (P := fun _ s => ¬ Updating cfg (f s.front).task k → ∀ point asdu,
      (f s.front).cache.lookup k = some point → lastFrame k s.low = some asdu → Carries cfg asdu point)
    (fun _ _ _ _ ha => by cases ha) (fun w s a t o hr ih hs hu point asdu hl ha => ?_) hu point asdu hl ha
  cases groupStep_cases hs with
  | bridge hstep =>
    have hk := front_keyStep hf hg hr hstep hu
    simp only [GroupState.queue, lastFrame_append] at hl ha
    generalize Option.bind _ g = e at hk ha
    cases hk with
    | quiet hu' hl' hq =>
      rw [lastFrame_low hq, Option.none_or] at ha
      exact ih hu' point asdu (hl' ▸ hl) ha
    | @handed id message now hk hl' =>
      rw [lastFrame_handed hk] at ha
      cases ha
      rw [hl] at hl'
      cases hl'
      exact (spontaneousFrame_of cfg message now).carries
    | replayed hu' _ hl' => exact ih hu' point asdu (hl' ▸ hl) ha
  | loseLow hlow =>
    refine ih hu point asdu hl ?_
    rw [hlow, ← List.singleton_append, lastFrame_append]
    simp only at ha
    rw [ha]
    rfl
  | deliverLow _ _ hlow =>
    refine ih hu point asdu hl ?_
    rw [hlow, ← List.singleton_append, lastFrame_append]
    simp only [GroupState.receive] at ha
    rw [ha]
    rfl
  | _ => exact ih hu point asdu hl ha

/-- Nobody takes over from `conn`, and no frame is lost. -/
def GroupEffect.Calm (conn : ConnId) : GroupEffect ω → Prop
  | .started _ | .lost _ => False
  | .closed c => c ≠ conn
  | _ => True

instance (conn : ConnId) : DecidablePred fun e : GroupEffect ω => e.Calm conn
  | .started _ | .lost _ => .isFalse id
  | .closed c => inferInstanceAs (Decidable (c ≠ conn))
  | .bridge _ | .delivered _ _ => .isTrue trivial

/-- Everything the master holds or will be sent. -/
def GroupState.line (s : GroupState σ) (conn : ConnId) : List Frame := s.received conn ++ s.high ++ s.low

theorem lastFrame_line (frames high low high' low' : List Frame) (hh : lastFrame k high' = none)
    (hl : lastFrame k low' = none) :
    lastFrame k (frames ++ (high ++ high') ++ (low ++ low')) = lastFrame k (frames ++ high ++ low) := by
  simp only [lastFrame_append, hh, hl, Option.none_or]

/-- A frame of the key was sent since `conn` is active: the last one it holds or
will be sent is up to date. -/
theorem covered_upToDate (hf : Machine.Simulation M (process ι cfg) f g) (hg : cfg.giOnly = false)
    {w₀ : List (GroupEffect ω)} (h₀ : (group M g).Run w₀ s) (ha : s.active = some conn)
    (h : Machine.Steps (group M g) s w t) (hw : ∀ e ∈ w, e.Calm conn) :
    t.active = some conn ∧ ∀ k, ¬ Updating cfg (f t.front).task k → Covered k (processLog g w) →
      UpToDate cfg (t.line conn) (f t.front).cache k := by
  revert hw
  refine h.induct
    (P := fun w t => (∀ e ∈ w, e.Calm conn) → t.active = some conn ∧
      ∀ k, ¬ Updating cfg (f t.front).task k → Covered k (processLog g w) →
        UpToDate cfg (t.line conn) (f t.front).cache k)
    (fun _ => ⟨ha, fun k _ ⟨_, hm, _⟩ => by cases hm⟩) fun w t a u o hst ih hs hw => ?_
  have hr := h₀.trans hst
  obtain ⟨hact, ih⟩ := ih fun e he => hw e (List.mem_append_left _ he)
  have hcalm : ∀ e ∈ o, e.Calm conn := fun e he =>
    hw e (List.mem_append_right _ (Option.mem_toList.mpr he))
  rw [processLog_concat]
  cases groupStep_cases hs with
  | @bridge event front o hstep =>
    refine ⟨hact, fun k hu hc => ?_⟩
    have hk := front_keyStep hf hg hr hstep hu
    have hlow := lowFresh_of_run hf hg hr k
    rw [toFront_map] at hc
    show UpToDate cfg (_ ++ (_ ++ _) ++ (_ ++ _)) (f front).cache k
    generalize o.bind g = e at hk hc
    cases hk with
    | quiet hu' hl hq =>
      have hcov := (covered_concat.mp hc).resolve_right fun ⟨asdu, hm, he⟩ => hq asdu hm he
      intro point hp
      rw [lastFrame_line _ _ _ _ _ (lastFrame_high hq) (lastFrame_low hq)]
      exact ih k hu' hcov point (hl ▸ hp)
    | @handed id message now hk hl =>
      intro point hp
      rw [hl] at hp
      cases hp
      refine ⟨_, ?_, (spontaneousFrame_of cfg message now).carries⟩
      rw [lastFrame_append, lastFrame_append, lastFrame_handed hk]
      rfl
    | @replayed c now point hu' hk hl hp =>
      intro point' hp'
      rw [hp] at hp'
      cases hp'
      -- what waits in the low-priority queue was handed later
      show ∃ asdu, lastFrame k (_ ++ (_ ++ _) ++ (_ ++ [])) = _ ∧ _
      rw [List.append_nil, lastFrame_append, lastFrame_append, lastFrame_append, lastFrame_replayed hk]
      cases hlast : lastFrame k t.low with
      | none => exact ⟨_, rfl, (replayFrame_of cfg now point).carries⟩
      | some asdu => exact ⟨asdu, rfl, hlow hu' (hl ▸ hp) hlast⟩
  | start => exact (hcalm _ rfl).elim
  | @close c =>
    have hne : ¬ t.active = some c := fun hc => hcalm _ rfl (Option.some.inj (hc.symm.trans hact))
    refine ⟨(if_neg hne).trans hact, fun k hu hc => ih k hu ?_⟩
    simpa [GroupEffect.toFront] using hc
  | @deliverHigh c frame high hc hh =>
    obtain rfl : c = conn := Option.some.inj (hc.symm.trans hact)
    refine ⟨hact, fun k hu hc => (ih k hu (by simpa [GroupEffect.toFront] using hc)).congr ?_⟩
    simp [GroupState.line, GroupState.receive, hh]
  | @deliverLow c frame low hc hh hl =>
    obtain rfl : c = conn := Option.some.inj (hc.symm.trans hact)
    refine ⟨hact, fun k hu hc => (ih k hu (by simpa [GroupEffect.toFront] using hc)).congr ?_⟩
    simp [GroupState.line, GroupState.receive, hh, hl]
  | loseHigh | loseLow => exact (hcalm _ rfl).elim

/-- Every key is up to date once an interrogation is answered. -/
theorem takenOver_upToDate {w₁ w₂ : List (GroupEffect ω)}
    (hf : Machine.Simulation M (process ι cfg) f g) (hg : cfg.giOnly = false)
    (h : (group M g).Run (w₁ ++ .started conn :: w₂) s) (hw : ∀ e ∈ w₂, e.Calm conn)
    (ha : GiAnswered conn (processLog g w₂)) (hu : ¬ Updating cfg (f s.front).task k) :
    UpToDate cfg (s.line conn) (f s.front).cache k := by
  obtain ⟨s₁, a, s₂, h₁, hstart, h₂⟩ := h.split
  have hact : s₂.active = some conn := by
    generalize he : some (GroupEffect.started conn) = e at hstart
    cases groupStep_cases hstart with
    | @bridge _ _ o => cases o <;> cases he
    | start =>
      cases he
      rfl
    | _ => cases he
  have hr₂ := h₁.tail hstart
  have hall := answered_covers hg (group_process hf hr₂) (hf.steps ((group_front M g).steps h₂)) ha
  intro point hp
  exact (covered_upToDate hf hg hr₂ hact h₂ hw).2 k hu (hall k point hu hp) point hp

/-- With empty queues, this is what the master was sent. -/
theorem takenOver_carries {w₁ w₂ : List (GroupEffect ω)}
    (hf : Machine.Simulation M (process ι cfg) f g) (hg : cfg.giOnly = false)
    (h : (group M g).Run (w₁ ++ .started conn :: w₂) s) (hw : ∀ e ∈ w₂, e.Calm conn)
    (ha : GiAnswered conn (processLog g w₂)) (hh : s.high = []) (hl : s.low = [])
    (hu : ¬ Updating cfg (f s.front).task k) {point : CachedPoint}
    (hp : (f s.front).cache.lookup k = some point) :
    ∃ asdu, lastFrame k (s.received conn) = some asdu ∧ Carries cfg asdu point := by
  have hup := takenOver_upToDate hf hg h hw ha hu point hp
  rwa [GroupState.line, hh, hl, List.append_nil, List.append_nil] at hup

/-- A master that takes over, and whose interrogation is answered since, ends up
with what is in the data store: once both queues are empty and no message is
between its insert and its dispatch, the last frame it was sent for each key has
the value, the encoding and the source time of the point. -/
theorem failover_upToDate {w₁ w₂ : List (GroupEffect ω)}
    (hf : Machine.Simulation M (process ι cfg) f g) (hg : cfg.giOnly = false)
    (h : (group M g).Run (w₁ ++ .started conn :: w₂) s) (hw : ∀ e ∈ w₂, e.Calm conn)
    (ha : GiAnswered conn (processLog g w₂)) (hh : s.high = []) (hl : s.low = [])
    (ht : ∀ id message now, (f s.front).task ≠ .cached id message now) (k : Key)
    (point : CachedPoint) (hp : (f s.front).cache.lookup k = some point) :
    ∃ asdu, lastFrame k (s.received conn) = some asdu ∧ Carries cfg asdu point :=
  takenOver_carries hf hg h hw ha hh hl (not_updating ht) hp

end

/-! ## A takeover -/

theorem process_self (ι : Type) (cfg : Settings) :
    Machine.Simulation (process ι cfg) (process ι cfg) id some where
  init := rfl
  step {s t a o} h := by
    rw [show o.bind some = o by cases o <;> rfl]
    exact .inl ⟨a, h⟩

/-- Master 1 leaves, the update for nobody is lost, and master 2 takes over. -/
def takeover : List (GroupEvent (Event Nat)) :=
  (.task (.build true) :: handleMessage 0 (.sample 100 true) (.sample 1)).map .bridge ++
    [.start 1, .deliver, .close 1] ++ (handleMessage 1 (.sample 100 false) (.sample 2)).map .bridge ++
    [.loseLow, .start 2] ++ ([.gi 2 (.request QOI_STATION), .gi 2 (.confirm true),
      .gi 2 (.lock (.sample 3) [⟨.sample 100 false, .sample 2⟩]), .gi 2 (.send true), .gi 2 .unlock,
      .gi 2 .count, .gi 2 (.terminate true)] : List (Event Nat)).map .bridge ++
    [.deliver, .deliver, .deliver]

/-- What happens once master 2 is active. -/
def afterTakeover : List (GroupEffect (Effect Nat)) :=
  let frame := replayFrame .sample (.sample 3) ⟨.sample 100 false, .sample 2⟩
  [.bridge (.requested 2 QOI_STATION), .bridge (.actCon 2 false true), .bridge (.locked 2 (.sample 3)),
    .bridge (.giData 2 (.sample 3) frame true), .bridge (.giCounted 2), .bridge (.actTerm 2 true),
    .delivered 2 (.actCon false), .delivered 2 (.data frame), .delivered 2 .actTerm]

theorem failover_upToDate_sample : ∃ w₁ s,
    (group (process Nat .sample) some).Run (w₁ ++ .started 2 :: afterTakeover) s ∧
      ∃ asdu, lastFrame (1, 100) (s.received 2) = some asdu ∧
        Carries .sample asdu ⟨.sample 100 false, .sample 2⟩ := by
  obtain ⟨w, s, h, hs⟩ := Machine.exists_run_of_exec (M := group (process Nat .sample) some) takeover
    (fun w s => (w.drop 15, s.high ++ s.low, s.front.task.current,
      decide (s.front.cache.lookup (1, 100) = some ⟨.sample 100 false, .sample 2⟩)))
    (.started 2 :: afterTakeover, [], none, true) (by decide +kernel)
  simp only [Prod.mk.injEq, List.append_eq_nil_iff, decide_eq_true_eq] at hs
  obtain ⟨hw, ⟨hh, hl⟩, ht, hp⟩ := hs
  rw [← List.take_append_drop 15 w, hw] at h
  refine ⟨_, s, h, failover_upToDate (process_self Nat .sample) rfl h (by decide)
    ⟨[.requested 2 QOI_STATION, .actCon 2 false true], _, [_], [.actTerm 2 true], rfl, by simp⟩ hh hl
    (fun _ _ _ hc => ?_) (1, 100) _ hp⟩
  rw [show s.front.task = _ from hc] at ht
  cases ht

end Iec104Bridge
