import Iec104Bridge.Model.Link
import Iec104Bridge.Proof.Interrogation

/-!
# What the master ends up holding

Along every run of the link, the last frame of each key, in the order
`delivered`, high-priority queue, low-priority queue, carries the point in the
data store (`upToDate_of_run`), unless the message is between its insert and
its dispatch. A delivery does not change that order; a replay sends what is in
the data store, before every spontaneous frame that still waits.
-/

namespace Iec104Bridge

open Framework

variable {ι : Type} {cfg : Settings} {conn : ConnId} {s t : LinkState ι} {w : List (LinkEffect ι)}

/-- The effects of the process. -/
def LinkEffect.effect : LinkEffect ι → Option (Effect ι)
  | .process e => some e
  | .delivered _ => none

theorem LinkState.queue_state {u : LinkState ι} {e : Effect ι} (h : s.queue conn e = some u) :
    u.state = s.state := by
  cases e with
  | giData | actCon | actTerm | requested =>
    simp only [LinkState.queue] at h
    split at h <;> cases h
    rfl
  | _ =>
    cases h
    rfl

/-- What a step of the link can do. -/
inductive LinkStep (cfg : Settings) (conn : ConnId) (s : LinkState ι) :
    LinkState ι → Option (LinkEffect ι) → Prop
  | quiet {event : Event ι} {t : State ι} : (process ι cfg).step s.state event = some (t, none) →
    LinkStep cfg conn s { s with state := t } none
  | process {event : Event ι} {t : State ι} {e : Effect ι} {u : LinkState ι} :
    (process ι cfg).step s.state event = some (t, some e) →
    { s with state := t }.queue conn e = some u → LinkStep cfg conn s u (some (.process e))
  | deliverHigh {frame : Frame} {high : List Frame} : s.high = frame :: high →
    LinkStep cfg conn s { s with high, delivered := s.delivered ++ [frame] } (some (.delivered frame))
  | deliverLow {frame : Frame} {low : List Frame} : s.high = [] → s.low = frame :: low →
    LinkStep cfg conn s { s with low, delivered := s.delivered ++ [frame] } (some (.delivered frame))

theorem linkStep_cases {e : LinkEvent ι} {o : Option (LinkEffect ι)}
    (h : linkStep cfg conn s e = some (t, o)) : LinkStep cfg conn s t o := by
  cases e with
  | process event =>
    simp only [linkStep] at h
    split at h
    · cases h
    · rename_i u hs
      cases h
      exact .quiet hs
    · rename_i u e hs
      split at h <;> cases h
      exact .process hs ‹_›
  | deliver =>
    simp only [linkStep] at h
    split at h <;> cases h
    · exact .deliverHigh ‹_›
    · exact .deliverLow ‹_› ‹_›

/-- The link runs the process. -/
theorem link_process (cfg : Settings) (conn : ConnId) :
    Machine.Simulation (link ι cfg conn) (process ι cfg) LinkState.state LinkEffect.effect where
  init := rfl
  step h := by
    cases linkStep_cases h with
    | quiet hs => exact .inl ⟨_, hs⟩
    | process hs hq =>
      rw [LinkState.queue_state hq]
      exact .inl ⟨_, hs⟩
    | deliverHigh => exact .inr ⟨rfl, rfl⟩
    | deliverLow => exact .inr ⟨rfl, rfl⟩

/-! ## The last frame of a key -/

def Frame.asdu : Frame → Option Asdu
  | .data asdu => some asdu
  | _ => none

def dataFrames (frames : List Frame) : List Asdu := frames.filterMap Frame.asdu

theorem dataFrames_append (frames frames' : List Frame) :
    dataFrames (frames ++ frames') = dataFrames frames ++ dataFrames frames' :=
  List.filterMap_append ..

def Asdu.address (asdu : Asdu) : Int32 × Int32 := (asdu.ca, asdu.object.ioa)

def Key.address (k : Key) : Int32 × Int32 := (u16AsI32 k.1, u32AsI32 k.2)

/-- The last data frame for the key. -/
def lastFrame (k : Key) (frames : List Frame) : Option Asdu :=
  lastAt Asdu.address (Key.address k) (dataFrames frames)

/-- The ASDU has the value, the encoding and the source time of the point. -/
structure Carries (cfg : Settings) (asdu : Asdu) (point : CachedPoint) : Prop where
  value : asdu.object.value = wireValue cfg.policy.sendTimestamps point.message
  time : asdu.object.time = wireTime cfg.policy.sendTimestamps point.message

theorem FrameOf.carries {now : OffsetDateTime} {asdu : Asdu} {point : CachedPoint}
    (h : FrameOf cfg now asdu point) : Carries cfg asdu point := by
  obtain ⟨cot, -, rfl⟩ := h
  exact ⟨rfl, rfl⟩

theorem FrameOf.address_iff {now : OffsetDateTime} {asdu : Asdu} {point : CachedPoint} {k : Key}
    (h : FrameOf cfg now asdu point) :
    asdu.address = Key.address k ↔ point.key cfg.defaultCa = k := by
  rw [← h.at_iff]
  exact Prod.ext_iff

theorem lastFrame_append (k : Key) (frames frames' : List Frame) :
    lastFrame k (frames ++ frames') = (lastFrame k frames').or (lastFrame k frames) := by
  rw [lastFrame, dataFrames_append, lastAt_append]
  rfl

theorem lastFrame_data {now : OffsetDateTime} {asdu : Asdu} {point : CachedPoint} (k : Key)
    (h : FrameOf cfg now asdu point) :
    lastFrame k [.data asdu] = if point.key cfg.defaultCa = k then some asdu else none := by
  show lastAt _ _ ([] ++ [asdu]) = _
  rw [lastAt_concat]
  simp only [h.address_iff, lastAt_nil]

theorem spontaneousFrame_of (cfg : Settings) (message : Iec104Message) (now : OffsetDateTime) :
    FrameOf cfg now (spontaneousFrame cfg message now) ⟨message, now⟩ := ⟨message.cot, .inl rfl, rfl⟩

/-- Everything the master holds or will be sent, in the order it is delivered. -/
def LinkState.line (s : LinkState ι) : List Frame := s.delivered ++ s.high ++ s.low

/-- The message with key `k` is between its insert and its dispatch. -/
def Updating (cfg : Settings) (task : TaskPhase ι) (k : Key) : Prop :=
  ∃ id message now, task = .cached id message now ∧ message.key cfg.defaultCa = k

/-- The last frame of the key carries what the data store holds. -/
def UpToDate (cfg : Settings) (line : List Frame) (cache : DataStore) (k : Key) : Prop :=
  ∀ point, cache.lookup k = some point → ∃ asdu, lastFrame k line = some asdu ∧ Carries cfg asdu point

/-- A spontaneous frame at the end of the line. -/
theorem upToDate_dispatch {cache : DataStore} {line : List Frame} {message : Iec104Message}
    {now : OffsetDateTime} {k : Key}
    (hl : cache.lookup (message.key cfg.defaultCa) = some ⟨message, now⟩)
    (h : message.key cfg.defaultCa ≠ k → UpToDate cfg line cache k) :
    UpToDate cfg (line ++ [.data (spontaneousFrame cfg message now)]) cache k := by
  intro point hp
  have hf := spontaneousFrame_of cfg message now
  rw [lastFrame_append, lastFrame_data k hf]
  by_cases hk : CachedPoint.key cfg.defaultCa ⟨message, now⟩ = k
  · rw [if_pos hk]
    obtain rfl : message.key cfg.defaultCa = k := hk
    rw [hl] at hp
    cases hp
    exact ⟨_, rfl, hf.carries⟩
  · rw [if_neg hk]
    exact h hk point hp

/-- A frame of a replay, before what still waits in the low-priority queue. -/
theorem upToDate_replay {cache : DataStore} {line low : List Frame} {point : CachedPoint}
    {now : OffsetDateTime} {k : Key} (hl : cache.lookup (point.key cfg.defaultCa) = some point)
    (h : UpToDate cfg (line ++ low) cache k) :
    UpToDate cfg (line ++ [.data (replayFrame cfg now point)] ++ low) cache k := by
  intro p hp
  obtain ⟨asdu, ha, hc⟩ := h p hp
  have hf := replayFrame_of cfg now point
  rw [lastFrame_append] at ha
  rw [lastFrame_append, lastFrame_append, lastFrame_data k hf]
  cases hlow : lastFrame k low with
  | some asdu' =>
    rw [hlow] at ha
    exact ⟨asdu, ha, hc⟩
  | none =>
    rw [hlow] at ha
    by_cases hk : point.key cfg.defaultCa = k
    · subst hk
      rw [hl] at hp
      cases hp
      rw [if_pos rfl]
      exact ⟨_, rfl, hf.carries⟩
    · rw [if_neg hk]
      exact ⟨asdu, ha, hc⟩

theorem UpToDate.congr {line line' : List Frame} {cache : DataStore} {k : Key}
    (h : UpToDate cfg line cache k) (hd : dataFrames line' = dataFrames line) :
    UpToDate cfg line' cache k := by
  intro point hp
  rw [lastFrame, hd]
  exact h point hp

/-! ## Steps -/

/-- The frame a step of the task hands to the server. -/
def spontaneous : Option (Effect ι) → List Frame
  | some (.handed _ _ asdu) => [.data asdu]
  | _ => []

theorem TaskStep.line {s : State ι} {t : State ι} {u : LinkState ι} {e : Effect ι}
    {high low delivered : List Frame} (h : TaskStep cfg s t (some e))
    (hq : LinkState.queue ⟨t, high, low, delivered⟩ conn e = some u) :
    u.line = delivered ++ high ++ low ++ spontaneous (some e) := by
  cases h with
  | dispatch =>
    cases hq
    exact (List.append_assoc ..).symm
  | _ =>
    cases hq
    exact (List.append_nil _).symm

theorem TaskStep.upToDate {s t : State ι} {o : Option (Effect ι)} {line : List Frame}
    (h : TaskStep cfg s t o) (hgi : cfg.giOnly = false)
    (hc : ∀ id message now, s.task = .cached id message now →
      s.cache.lookup (message.key cfg.defaultCa) = some ⟨message, now⟩)
    (ih : ∀ k, ¬ Updating cfg s.task k → UpToDate cfg line s.cache k) {k : Key}
    (hu : ¬ Updating cfg t.task k) : UpToDate cfg (line ++ spontaneous o) t.cache k := by
  cases h with
  | @insert id message now h _ =>
    have hne : k ≠ message.key cfg.defaultCa := fun hk => hu ⟨id, message, now, rfl, hk.symm⟩
    show UpToDate cfg (line ++ []) (s.cache.insert _ _) k
    rw [List.append_nil]
    intro point hp
    rw [Finmap.lookup_insert_of_ne _ hne] at hp
    exact ih k (by rw [h]; rintro ⟨_, _, _, h, -⟩; cases h) point hp
  | @dispatch id message now h _ =>
    refine upToDate_dispatch (hc id message now h) fun hne => ih k ?_
    rw [h]
    rintro ⟨_, _, _, h, hk⟩
    cases h
    exact hne hk
  | skip _ hg =>
    rw [hgi] at hg
    cases hg
  | receiveError =>
    show UpToDate cfg (line ++ []) s.cache k
    rw [List.append_nil]
    exact ih k hu
  | built h | ctrlC h =>
    show UpToDate cfg (line ++ []) s.cache k
    rw [List.append_nil]
    refine ih k ?_
    rcases h with h | h <;> rw [h] <;> rintro ⟨_, _, _, h, -⟩ <;> cases h
  | _ h =>
    show UpToDate cfg (line ++ []) s.cache k
    rw [List.append_nil]
    refine ih k ?_
    rw [h]
    rintro ⟨_, _, _, h, -⟩
    cases h

/-- What a callback sends does not outdate a key. -/
theorem GiStep.upToDate {s t : State ι} {c : ConnId} {e : Effect ι} {u : LinkState ι}
    {high low delivered : List Frame} {k : Key} (h : GiStep cfg s c t (some e))
    (hc : ∀ now todo sink, s.gi c = .replaying now todo sink → ∀ point ∈ todo,
      s.cache.lookup (point.key cfg.defaultCa) = some point)
    (hq : LinkState.queue ⟨t, high, low, delivered⟩ conn e = some u)
    (hu : UpToDate cfg (delivered ++ high ++ low) s.cache k) :
    UpToDate cfg u.line s.cache k := by
  cases h with
  | @send now point todo sink sent h =>
    simp only [LinkState.queue] at hq
    split at hq <;> cases hq
    have hl := hc now _ sink h point List.mem_cons_self
    have hr : UpToDate cfg (delivered ++ high ++ [.data (replayFrame cfg now point)] ++ low) s.cache k :=
      upToDate_replay hl hu
    rwa [List.append_assoc delivered high] at hr
  | lock | count =>
    cases hq
    exact hu
  | request =>
    simp only [LinkState.queue] at hq
    split at hq <;> cases hq
    exact hu
  | _ =>
    simp only [LinkState.queue] at hq
    split at hq <;> cases hq
    refine hu.congr ?_
    simp only [LinkState.line, dataFrames_append]
    simp [dataFrames, Frame.asdu]

/-- Every key is up to date in the line, unless its message waits for its dispatch. -/
theorem upToDate_of_run (hgi : cfg.giOnly = false) (h : (link ι cfg conn).Run w s) (k : Key)
    (hu : ¬ Updating cfg s.state.task k) : UpToDate cfg s.line s.state.cache k := by
  refine h.invariant
    (P := fun _ s => ∀ k, ¬ Updating cfg s.state.task k → UpToDate cfg s.line s.state.cache k)
    (fun k _ point hp => ?_) (fun w s a t o hr ih hs => ?_) k hu
  · simp [link, State.initial] at hp
  intro k hu
  have hr := (link_process cfg conn).run hr
  cases linkStep_cases hs with
  | quiet hp =>
    rcases process_step hp with hs | ⟨c, hs⟩
    · have := hs.upToDate hgi (fun _ _ _ => cached_lookup hr) ih hu
      rwa [show spontaneous (none : Option (Effect ι)) = [] from rfl, List.append_nil] at this
    · rw [hs.frame.1]
      exact ih k (by rwa [hs.frame.2.1] at hu)
  | process hp hq =>
    have he := LinkState.queue_state hq
    rw [he] at hu ⊢
    rcases process_step hp with hs | ⟨c, hs⟩
    · rw [hs.line hq]
      exact hs.upToDate hgi (fun _ _ _ => cached_lookup hr) ih hu
    · show UpToDate cfg _ (State.cache _) k
      rw [hs.frame.1]
      refine hs.upToDate (fun _ _ _ hg _ hp => replaying_lookup hr hg hp) hq (ih k ?_)
      rwa [hs.frame.2.1] at hu
  | deliverHigh hh =>
    refine (ih k hu).congr (congrArg dataFrames ?_)
    simp [LinkState.line, hh]
  | deliverLow hh hl =>
    refine (ih k hu).congr (congrArg dataFrames ?_)
    simp [LinkState.line, hh, hl]

/-- In GI-only mode off, whenever both queues are empty and no message is
between its insert and its dispatch, the last frame delivered for each key of
the data store has the value, the encoding and the source time of its point. -/
theorem delivered_upToDate (hgi : cfg.giOnly = false) (h : (link ι cfg conn).Run w s)
    (hh : s.high = []) (hl : s.low = [])
    (ht : ∀ id message now, s.state.task ≠ .cached id message now) (k : Key) (point : CachedPoint)
    (hp : s.state.cache.lookup k = some point) :
    ∃ asdu, lastFrame k s.delivered = some asdu ∧ Carries cfg asdu point := by
  have hu := upToDate_of_run hgi h k (fun ⟨id, message, now, h, _⟩ => ht id message now h) point hp
  rwa [LinkState.line, hh, hl, List.append_nil, List.append_nil] at hu

/-- A replay falls between the insert and the dispatch of the update, whose
frame waits while the replay is delivered. -/
theorem delivered_upToDate_sample : ∃ w s, (link Nat .sample 0).Run w s ∧
    ∃ asdu, lastFrame (1, 100) s.delivered = some asdu ∧
      Carries .sample asdu ⟨.sample 100 false, .sample 2⟩ := by
  have h := Machine.run_of_exec (M := link Nat .sample 0)
    [.process (.task (.build true)), .process (.task (.receive 0 (.sample 100 true) (.sample 1))),
      .process (.task .insert), .process (.task .dispatch), .process (.task (.ack true)),
      .process (.task .count), .process (.task (.receive 1 (.sample 100 false) (.sample 2))),
      .process (.task .insert), .process (.gi 0 (.request QOI_STATION)),
      .process (.gi 0 (.confirm true)),
      .process (.gi 0 (.lock (.sample 3) [⟨.sample 100 false, .sample 2⟩])),
      .process (.gi 0 (.send true)), .process (.task .dispatch), .deliver, .deliver, .deliver,
      .deliver] rfl
  exact ⟨_, _, h, delivered_upToDate rfl h rfl rfl (fun _ _ _ ht => by cases ht) (1, 100) _ (by decide)⟩

end Iec104Bridge
