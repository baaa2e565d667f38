import Iec104Bridge.Proof.Staleness

/-!
# Interrogations

On each connection one interrogation follows another (`connLog_of_run`): a
group interrogation gets a negative confirmation, a station interrogation a
positive one, then the frames of a replay, then the termination. The replay
visits the data store as it was when the replay took the lock, and sends one
frame for each key (`snapshot_of_sound`).
-/

namespace Iec104Bridge

open Framework

variable {ι : Type} {cfg : Settings} {s t : State ι} {w w' : List (Effect ι)} {conn : ConnId}

/-! ## The data store as a function of the log -/

def storeAfter (cfg : Settings) (w : List (Effect ι)) : DataStore :=
  (writes w).foldl (fun store point => store.insert (point.key cfg.defaultCa) point) ∅

theorem cache_eq (h : (process ι cfg).Run w s) : s.cache = storeAfter cfg w := by
  refine h.invariant (P := fun w s => s.cache = storeAfter cfg w) rfl fun w s a t o _ ih hs => ?_
  rw [storeAfter, writes_append, List.foldl_append]
  rcases cache_step hs with ⟨hc, hw⟩ | ⟨id, message, now, -, rfl, hc⟩
  · rw [hc, hw, ih]
    rfl
  · rw [hc, ih]
    rfl

theorem storeAfter_key {l : List CachedPoint} {store : DataStore} {k : Key} {point : CachedPoint}
    (h₀ : ∀ k point, store.lookup k = some point → point.key cfg.defaultCa = k)
    (h : (l.foldl (fun store point => store.insert (point.key cfg.defaultCa) point) store).lookup k =
      some point) : point.key cfg.defaultCa = k := by
  induction l generalizing store with
  | nil => exact h₀ k point h
  | cons p l ih =>
    refine ih (fun k point hk => ?_) h
    by_cases hkp : k = p.key cfg.defaultCa
    · subst hkp
      rw [Finmap.lookup_insert] at hk
      rw [Option.some.inj hk]
    · rw [Finmap.lookup_insert_of_ne _ hkp] at hk
      exact h₀ k point hk

theorem key_of_storeAfter {k : Key} {point : CachedPoint}
    (h : (storeAfter cfg w).lookup k = some point) : point.key cfg.defaultCa = k :=
  storeAfter_key (fun _ _ h => by simp at h) h

/-! ## The log of a connection -/

/-- The connection whose callback logs the effect. -/
def Effect.connection : Effect ι → Option ConnId
  | .requested conn _ | .actCon conn _ _ | .locked conn _ | .giData conn _ _ _ | .giCounted conn
  | .actTerm conn _ => some conn
  | _ => none

def connLog (conn : ConnId) (w : List (Effect ι)) : List (Effect ι) :=
  w.filter fun e => e.connection = some conn

theorem connLog_append (w w' : List (Effect ι)) :
    connLog conn (w ++ w') = connLog conn w ++ connLog conn w' := List.filter_append ..

/-- A replay: the log when it took the lock, the time it read, and the points
it sent with the answers of the queue. -/
structure Replay (ι : Type) where
  before : List (Effect ι)
  now : OffsetDateTime
  sends : List (CachedPoint × Bool)

def Replay.log (cfg : Settings) (conn : ConnId) (confirmed : Bool) (r : Replay ι) : List (Effect ι) :=
  [.requested conn QOI_STATION, .actCon conn false confirmed, .locked conn r.now] ++
    r.sends.map fun x => .giData conn r.now (replayFrame cfg r.now x.1) x.2

/-- The points sent and those to send are the points of the data store at the
time of the lock. -/
structure Replay.Sound (cfg : Settings) (w : List (Effect ι)) (conn : ConnId) (r : Replay ι)
    (todo : List CachedPoint) : Prop where
  lock : r.before ++ [.locked conn r.now] <+: w
  points : ((r.sends.map Prod.fst ++ todo : List CachedPoint) : Multiset CachedPoint) =
    (storeAfter cfg r.before).points

/-- An interrogation that is over. -/
inductive Interrogation (ι : Type)
  | group (qoi : UInt8) (sent : Bool)
  | station (confirmed : Bool) (replay : Replay ι) (terminated : Bool)

def Interrogation.log (cfg : Settings) (conn : ConnId) : Interrogation ι → List (Effect ι)
  | .group qoi sent => [.requested conn qoi, .actCon conn true sent]
  | .station confirmed r terminated =>
    r.log cfg conn confirmed ++ [.giCounted conn, .actTerm conn terminated]

def Interrogation.Sound (cfg : Settings) (w : List (Effect ι)) (conn : ConnId) :
    Interrogation ι → Prop
  | .group qoi _ => qoi ≠ QOI_STATION
  | .station _ r _ => r.Sound cfg w conn []

/-- What the log says of the interrogation a connection is at. -/
def GiPhase.Progress (cfg : Settings) (w : List (Effect ι)) (conn : ConnId) :
    GiPhase → List (Effect ι) → Prop
  | .idle, l => l = []
  | .requested qoi, l => l = [.requested conn qoi]
  | .confirmed, l => ∃ sent, l = [.requested conn QOI_STATION, .actCon conn false sent]
  | .replaying now todo sink, l => ∃ (sent : Bool) (r : Replay ι), r.now = now ∧ r.Sound cfg w conn todo ∧
      l = r.log cfg conn sent ∧ sink.failed = r.sends.countP fun x => !x.2
  | .replayed, l => ∃ (sent : Bool) (r : Replay ι), r.Sound cfg w conn [] ∧ l = r.log cfg conn sent
  | .counted, l => ∃ (sent : Bool) (r : Replay ι), r.Sound cfg w conn [] ∧ l = r.log cfg conn sent ++ [.giCounted conn]

/-- The log of a connection is a sequence of interrogations and the one in progress. -/
structure ConnLog (cfg : Settings) (w : List (Effect ι)) (conn : ConnId) (phase : GiPhase)
    (is : List (Interrogation ι)) (l : List (Effect ι)) : Prop where
  log : connLog conn w = is.flatMap (Interrogation.log cfg conn) ++ l
  sound : ∀ i ∈ is, i.Sound cfg w conn
  progress : phase.Progress cfg w conn l

theorem Replay.Sound.mono {r : Replay ι} {todo : List CachedPoint} (h : r.Sound cfg w conn todo)
    (hw : w <+: w') : r.Sound cfg w' conn todo where
  lock := h.lock.trans hw
  points := h.points

theorem Interrogation.Sound.mono {i : Interrogation ι} (h : i.Sound cfg w conn) (hw : w <+: w') :
    i.Sound cfg w' conn := by
  cases i with
  | group => exact h
  | station => exact Replay.Sound.mono h hw

theorem GiPhase.Progress.mono {phase : GiPhase} {l : List (Effect ι)}
    (h : phase.Progress cfg w conn l) (hw : w <+: w') : phase.Progress cfg w' conn l := by
  cases phase with
  | replaying =>
    obtain ⟨sent, r, hn, hr, hl⟩ := h
    exact ⟨sent, r, hn, hr.mono hw, hl⟩
  | replayed | counted =>
    obtain ⟨sent, r, hr, hl⟩ := h
    exact ⟨sent, r, hr.mono hw, hl⟩
  | _ => exact h

section

variable {phase phase' : GiPhase} {is : List (Interrogation ι)} {l l' : List (Effect ι)}
  {o : Option (Effect ι)}

theorem ConnLog.extend (h : ConnLog cfg w conn phase is l)
    (ho : connLog conn o.toList = l') (hp : phase'.Progress cfg (w ++ o.toList) conn (l ++ l')) :
    ConnLog cfg (w ++ o.toList) conn phase' is (l ++ l') where
  log := by rw [connLog_append, ho, h.log, List.append_assoc]
  sound i hi := (h.sound i hi).mono (List.prefix_append ..)
  progress := hp

theorem ConnLog.quiet (h : ConnLog cfg w conn phase is l) (ho : connLog conn o.toList = []) :
    ConnLog cfg (w ++ o.toList) conn phase is l where
  log := by rw [connLog_append, ho, List.append_nil, h.log]
  sound i hi := (h.sound i hi).mono (List.prefix_append ..)
  progress := h.progress.mono (List.prefix_append ..)

theorem ConnLog.finish {i : Interrogation ι} (h : ConnLog cfg w conn phase is l)
    (ho : l ++ connLog conn o.toList = i.log cfg conn) (hi : i.Sound cfg w conn) :
    ConnLog cfg (w ++ o.toList) conn .idle (is ++ [i]) [] where
  log := by
    rw [connLog_append, h.log, List.append_assoc, ho]
    simp
  sound j hj := by
    rcases List.mem_append.mp hj with hj | hj
    · exact (h.sound j hj).mono (List.prefix_append ..)
    · rw [List.mem_singleton.mp hj]
      exact hi.mono (List.prefix_append ..)
  progress := rfl

end

theorem connLog_self {e : Effect ι} (h : e.connection = some conn) : connLog conn [e] = [e] := by
  simp [connLog, h]

theorem TaskStep.connLog {o : Option (Effect ι)} (h : TaskStep cfg s t o) (conn : ConnId) :
    connLog conn o.toList = [] := by
  cases h <;> rfl

theorem GiStep.connLog_of_ne {c : ConnId} {o : Option (Effect ι)} (h : GiStep cfg s conn t o)
    (hc : c ≠ conn) : connLog c o.toList = [] := by
  cases h <;> simp [Iec104Bridge.connLog, Effect.connection, Ne.symm hc]

theorem GiStep.connLog {is : List (Interrogation ι)} {l : List (Effect ι)} {o : Option (Effect ι)}
    (h : GiStep cfg s conn t o) (hw : storeAfter cfg w = s.cache)
    (hl : ConnLog cfg w conn (s.gi conn) is l) :
    ∃ is l, ConnLog cfg (w ++ o.toList) conn (t.gi conn) is l := by
  have hp := hl.progress
  cases h with
  | @request qoi h =>
    rw [h] at hp
    obtain rfl : l = [] := hp
    refine ⟨is, _, hl.extend (connLog_self rfl) ?_⟩
    rw [State.setGi_gi_self]
    rfl
  | @refuse qoi sent h hq =>
    rw [h] at hp
    obtain rfl : l = [.requested conn qoi] := hp
    refine ⟨is ++ [.group qoi sent], [], ?_⟩
    rw [State.setGi_gi_self]
    exact hl.finish (i := .group qoi sent) (by rw [Option.toList_some, connLog_self rfl]; rfl) hq
  | @confirm sent h =>
    rw [h] at hp
    obtain rfl : l = [.requested conn QOI_STATION] := hp
    refine ⟨is, _, hl.extend (connLog_self rfl) ?_⟩
    rw [State.setGi_gi_self]
    exact ⟨sent, rfl⟩
  | @lock now order h hn ho =>
    rw [h] at hp
    obtain ⟨sent, rfl⟩ := hp
    refine ⟨is, _, hl.extend (connLog_self rfl) ?_⟩
    show ((s.setGi conn _).gi conn).Progress _ _ _ _
    rw [State.setGi_gi_self]
    refine ⟨sent, ⟨w, now, []⟩, rfl, ⟨List.prefix_refl _, ?_⟩, rfl, rfl⟩
    rw [hw]
    exact ho
  | @send now point todo sink sent h =>
    rw [h] at hp
    obtain ⟨confirmed, r, rfl, hr, rfl, hf⟩ := hp
    refine ⟨is, _, hl.extend (connLog_self rfl) ?_⟩
    rw [State.setGi_gi_self]
    refine ⟨confirmed, ⟨r.before, r.now, r.sends ++ [(point, sent)]⟩, rfl,
      ⟨hr.lock.trans (List.prefix_append ..), ?_⟩, ?_, ?_⟩
    · rw [← hr.points]
      simp
    · simp [Replay.log]
    · cases sent <;> simp [hf]
  | @unlock now sink h =>
    rw [h] at hp
    obtain ⟨confirmed, r, -, hr, rfl, -⟩ := hp
    refine ⟨is, _, hl.extend rfl ?_⟩
    show ((s.setGi conn _).gi conn).Progress _ _ _ _
    rw [State.setGi_gi_self]
    exact ⟨confirmed, r, hr.mono (List.prefix_append ..), List.append_nil _⟩
  | count h =>
    rw [h] at hp
    obtain ⟨confirmed, r, hr, rfl⟩ := hp
    refine ⟨is, _, hl.extend (connLog_self rfl) ?_⟩
    show ((s.setGi conn _).gi conn).Progress _ _ _ _
    rw [State.setGi_gi_self]
    exact ⟨confirmed, r, hr.mono (List.prefix_append ..), rfl⟩
  | @terminate sent h =>
    rw [h] at hp
    obtain ⟨confirmed, r, hr, rfl⟩ := hp
    refine ⟨is ++ [.station confirmed r sent], [], ?_⟩
    rw [State.setGi_gi_self]
    refine hl.finish (i := .station confirmed r sent) ?_ hr
    rw [Option.toList_some, connLog_self rfl, List.append_assoc]
    rfl

/-- On a connection one interrogation follows another. -/
theorem connLog_of_run (h : (process ι cfg).Run w s) (conn : ConnId) :
    ∃ is l, ConnLog cfg w conn (s.gi conn) is l := by
  have h₀ : ConnLog cfg ([] : List (Effect ι)) conn ((State.initial ι).gi conn) [] [] :=
    ⟨rfl, fun _ hi => absurd hi List.not_mem_nil, rfl⟩
  refine h.invariant (P := fun w s => ∃ is l, ConnLog cfg w conn (s.gi conn) is l) ⟨_, _, h₀⟩
    fun w s a t o hr ⟨is, l, hl⟩ hs => ?_
  rcases process_step hs with hs | ⟨c, hs⟩
  · rw [hs.frame.1]
    exact ⟨is, l, hl.quiet (hs.connLog conn)⟩
  · by_cases hc : conn = c
    · subst hc
      exact hs.connLog (cache_eq hr).symm hl
    · rw [hs.gi_of_ne hc]
      exact ⟨is, l, hl.quiet (hs.connLog_of_ne hc)⟩

/-! ## The frames of a replay -/

instance (asdu : Asdu) (k : Key) : Decidable (asdu.At k) :=
  inferInstanceAs (Decidable (asdu.ca = u16AsI32 k.1 ∧ asdu.object.ioa = u32AsI32 k.2))

def Replay.frames (cfg : Settings) (r : Replay ι) : List Asdu :=
  r.sends.map fun x => replayFrame cfg r.now x.1

/-- One frame for each key of the data store, with the cause of a replay. -/
structure Snapshot (cfg : Settings) (now : OffsetDateTime) (store : DataStore) (frames : List Asdu) :
    Prop where
  once (k : Key) (point : CachedPoint) : store.lookup k = some point →
    frames.filter (fun asdu => asdu.At k) = [replayFrame cfg now point]
  only : ∀ asdu ∈ frames, ∃ k ∈ store, asdu.At k
  cot : ∀ asdu ∈ frames, asdu.cot = .interrogatedByStation

theorem replayFrame_of (cfg : Settings) (now : OffsetDateTime) (point : CachedPoint) :
    FrameOf cfg now (replayFrame cfg now point) point := ⟨.interrogated, .inr rfl, rfl⟩

/-- Among the points of the data store, the one at `k`. -/
theorem filter_points {store : DataStore} {k : Key} {point : CachedPoint}
    (hk : ∀ k point, store.lookup k = some point → point.key cfg.defaultCa = k)
    (h : store.lookup k = some point) :
    store.points.filter (fun p => p.key cfg.defaultCa = k) = {point} := by
  have he : store.entries.filter (fun e => e.2.key cfg.defaultCa = k) = {⟨k, point⟩} := by
    refine ((store.nodup_entries.filter _).ext (Multiset.nodup_singleton _)).mpr fun e => ?_
    rw [Multiset.mem_filter, Multiset.mem_singleton]
    constructor
    · rintro ⟨hm, hek⟩
      have hl : store.lookup e.1 = some e.2 := Finmap.mem_lookup_iff.mpr hm
      obtain rfl : e.1 = k := (hk _ _ hl).symm.trans hek
      rw [hl] at h
      rw [← Option.some.inj h]
    · rintro rfl
      exact ⟨Finmap.mem_lookup_iff.mp h, hk _ _ h⟩
  rw [DataStore.points, Multiset.filter_map]
  show Multiset.map _ (store.entries.filter fun e => e.2.key cfg.defaultCa = k) = _
  rw [he]
  rfl

theorem snapshot_of_points {now : OffsetDateTime} {store : DataStore} {points : List CachedPoint}
    (hk : ∀ k point, store.lookup k = some point → point.key cfg.defaultCa = k)
    (h : (points : Multiset CachedPoint) = store.points) :
    Snapshot cfg now store (points.map (replayFrame cfg now)) where
  once k point hp := by
    have hf : points.filter (fun p => p.key cfg.defaultCa = k) = [point] := by
      apply List.perm_singleton.mp
      apply Multiset.coe_eq_coe.mp
      rw [← Multiset.filter_coe, h]
      exact filter_points hk hp
    rw [List.filter_map]
    have hq : ((fun asdu : Asdu => decide (asdu.At k)) ∘ replayFrame cfg now) =
        fun p => decide (p.key cfg.defaultCa = k) := by
      funext p
      exact decide_eq_decide.mpr (replayFrame_of cfg now p).at_iff
    rw [hq, hf]
    rfl
  only asdu ha := by
    obtain ⟨p, hp, rfl⟩ := List.mem_map.mp ha
    obtain ⟨k, hl⟩ := mem_points_iff.mp (h ▸ Multiset.mem_coe.mpr hp)
    exact ⟨k, Finmap.mem_of_lookup_eq_some hl, (replayFrame_of cfg now p).at_iff.mpr (hk k p hl)⟩
  cot asdu ha := by
    obtain ⟨p, -, rfl⟩ := List.mem_map.mp ha
    rfl

theorem snapshot_of_sound {r : Replay ι} (h : r.Sound cfg w conn []) :
    Snapshot cfg r.now (storeAfter cfg r.before) (r.frames cfg) := by
  have hp := h.points
  rw [List.append_nil] at hp
  have hs : Snapshot cfg r.now _ _ := snapshot_of_points (fun _ _ => key_of_storeAfter) hp
  rwa [List.map_map] at hs

/-! ## Whole runs -/

def Effect.isGiCounted : Effect ι → Bool
  | .giCounted _ => true
  | _ => false

/-- `gi_responses` counts the replays that were counted. -/
theorem giResponses_eq (h : (process ι cfg).Run w s) :
    s.metrics.giResponses = w.countP Effect.isGiCounted := by
  refine h.invariant (P := fun w s => s.metrics.giResponses = w.countP Effect.isGiCounted) rfl
    fun w s a t o _ ih hs => ?_
  rw [List.countP_append, ← ih]
  rcases process_step hs with hs | ⟨conn, hs⟩
  · rw [hs.frame.2.2]
    cases hs <;> rfl
  · cases hs <;> rfl

/-- What an interrogation that is over got: a negative confirmation, or the
frames of a snapshot of the data store as it was after a prefix of the log. -/
def Interrogation.Answered (cfg : Settings) (w : List (Effect ι)) (conn : ConnId) :
    Interrogation ι → Prop
  | .group qoi _ => qoi ≠ QOI_STATION
  | .station _ r _ => r.before ++ [.locked conn r.now] <+: w ∧
      Snapshot cfg r.now (storeAfter cfg r.before) (r.frames cfg)

theorem Interrogation.Sound.answered {i : Interrogation ι} (h : i.Sound cfg w conn) :
    i.Answered cfg w conn := by
  cases i with
  | group => exact h
  | station confirmed r terminated => exact ⟨h.lock, snapshot_of_sound h⟩

/-- What a run says of a connection: one interrogation follows another, the
callback leaves the data store alone, and `gi_responses` counts replays. -/
structure Interrogated (cfg : Settings) (w : List (Effect ι)) (s : State ι) (conn : ConnId) : Prop where
  answers : ∃ (is : List (Interrogation ι)) (l : List (Effect ι)),
    connLog conn w = is.flatMap (Interrogation.log cfg conn) ++ l ∧
      (∀ i ∈ is, i.Answered cfg w conn) ∧ (s.gi conn).Progress cfg w conn l
  stores (w₁ : List (Effect ι)) (t : State ι) :
    (process ι cfg).Run w₁ t → t.cache = storeAfter cfg w₁
  cache (e : GiEvent) (t : State ι) (o : Option (Effect ι)) :
    (process ι cfg).step s (.gi conn e) = some (t, o) → t.cache = s.cache
  giResponses : s.metrics.giResponses = w.countP Effect.isGiCounted

/-- In every run, a group interrogation gets a negative confirmation, and a
station interrogation a positive one, one frame for each key of the data store
at the lock, and the termination. -/
theorem interrogations (h : (process ι cfg).Run w s) (conn : ConnId) : Interrogated cfg w s conn where
  answers := by
    obtain ⟨is, l, hl⟩ := connLog_of_run h conn
    exact ⟨is, l, hl.log, fun i hi => (hl.sound i hi).answered, hl.progress⟩
  stores _ _ ht := cache_eq ht
  cache _ _ _ hs := (giStep_cases hs).frame.1
  giResponses := giResponses_eq h

/-- Two points, the second of which arrives while the first is replayed. -/
theorem interrogations_sample : ∃ w s, (process Nat .sample).Run w s ∧ s.metrics.giResponses = 1 ∧
    Interrogated .sample w s 0 := by
  have h := Machine.run_of_exec (M := process Nat .sample)
    [.task (.build true), .task (.receive 0 (.sample 100 true) (.sample 1)), .task .insert,
      .gi 0 (.request QOI_STATION), .gi 0 (.confirm true), .task .dispatch, .task (.ack true),
      .task .count, .gi 0 (.lock (.sample 2) [⟨.sample 100 true, .sample 1⟩]),
      .task (.receive 1 (.sample 200 true) (.sample 3)), .gi 0 (.send true), .gi 0 .unlock,
      .task .insert, .gi 0 .count, .gi 0 (.terminate true)] rfl
  exact ⟨_, _, h, rfl, interrogations h 0⟩

end Iec104Bridge
