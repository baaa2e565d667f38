import Iec104Bridge.Model.Link
import Iec104Bridge.Proof.Interrogation

/-!
# Truncated interrogation replies

A callback attempts the confirmation, each point and the termination, whatever
the connection answers to each (`callback_steps`), and counts the points it
refuses. So the frames that get through are those the connection takes, and
none of the others is missed: a queue with room for `Q` frames takes the first
`Q` of the reply (`accepted_of_first`), which is complete if there is room for
the points and two more.
-/

namespace Iec104Bridge

open Framework

/-! ## Attempts -/

/-- The frames that were taken, of those attempted. -/
def acceptedFrames {α : Type} (l : List (α × Bool)) : List α := (l.filter Prod.snd).map Prod.fst

/-- Exactly the first `Q` attempts are taken. -/
def AcceptsFirst {α : Type} (Q : Nat) (l : List (α × Bool)) : Prop :=
  l.map Prod.snd = (List.range l.length).map fun i => decide (i < Q)

/-- A queue with room for `Q` frames takes the first `Q`. -/
theorem accepted_of_first {α : Type} {Q : Nat} {l : List (α × Bool)} (h : AcceptsFirst Q l) :
    acceptedFrames l = (l.map Prod.fst).take Q := by
  unfold AcceptsFirst at h
  induction l generalizing Q with
  | nil => simp [acceptedFrames]
  | cons x l ih =>
    rw [List.length_cons, List.range_succ_eq_map, List.map_cons, List.map_cons, List.map_map,
      List.cons.injEq] at h
    obtain ⟨hx, hl⟩ := h
    cases Q with
    | zero =>
      have hl' : l.map Prod.snd = (List.range l.length).map fun i => decide (i < 0) := by
        rw [hl]
        exact List.map_congr_left fun i _ => by simp
      have ht := ih hl'
      rw [List.take_zero] at ht ⊢
      simpa [acceptedFrames, hx] using ht
    | succ Q =>
      have hl' : l.map Prod.snd = (List.range l.length).map fun i => decide (i < Q) := by
        rw [hl]
        exact List.map_congr_left fun i _ => by simp
      have ht := ih hl'
      have hx' : x.2 = true := by simpa using hx
      show (List.filter Prod.snd (x :: l)).map Prod.fst = _
      rw [List.filter_cons_of_pos hx', List.map_cons, List.map_cons, List.take_succ_cons]
      exact congrArg _ ht

variable {ι : Type} {cfg : Settings} {s t : State ι} {w : List (Effect ι)} {conn : ConnId}

/-- The frame a callback attempts to send, and whether the connection takes it. -/
def Effect.attempt : Effect ι → Option (Frame × Bool)
  | .actCon _ negative sent => some (.actCon negative, sent)
  | .giData _ _ asdu sent => some (.data asdu, sent)
  | .actTerm _ sent => some (.actTerm, sent)
  | _ => none

def attempts (w : List (Effect ι)) : List (Frame × Bool) := w.filterMap Effect.attempt

/-- The reply to a station interrogation. -/
def replyFrames (frames : List Asdu) : List Frame :=
  .actCon false :: (frames.map .data ++ [.actTerm])

theorem attempts_sends (ι : Type) (conn : ConnId) (now : OffsetDateTime) (sends : List (CachedPoint × Bool)) :
    attempts (sends.map fun x => (.giData conn now (replayFrame cfg now x.1) x.2 : Effect ι)) =
      sends.map fun x => (.data (replayFrame cfg now x.1), x.2) := by
  induction sends with
  | nil => rfl
  | cons x sends ih => exact congrArg _ ih

theorem attempts_station (confirmed : Bool) (r : Replay ι) (terminated : Bool) :
    attempts ((Interrogation.station confirmed r terminated).log cfg conn) =
      (.actCon false, confirmed) ::
        (r.sends.map (fun x => (.data (replayFrame cfg r.now x.1), x.2)) ++ [(.actTerm, terminated)]) := by
  rw [← attempts_sends ι conn]
  simp [attempts, Interrogation.log, Replay.log, Effect.attempt, List.filterMap_cons]

/-- What a station interrogation that is over attempted. -/
structure AttemptsAll (cfg : Settings) (conn : ConnId) (confirmed : Bool) (r : Replay ι)
    (terminated : Bool) : Prop where
  /-- One attempt for each point of the data store. -/
  points : r.sends.length = (storeAfter cfg r.before).keys.card
  frames : (attempts ((Interrogation.station confirmed r terminated).log cfg conn)).map Prod.fst =
    replyFrames (r.frames cfg)
  /-- A queue with room for `Q` frames takes the first ones, and the whole reply
  if and only if it has room for the points and two more. -/
  queue (Q : Nat) : AcceptsFirst Q (attempts ((Interrogation.station confirmed r terminated).log cfg conn)) →
    acceptedFrames (attempts ((Interrogation.station confirmed r terminated).log cfg conn)) =
        (replyFrames (r.frames cfg)).take (min Q ((storeAfter cfg r.before).keys.card + 2)) ∧
      (acceptedFrames (attempts ((Interrogation.station confirmed r terminated).log cfg conn)) =
        replyFrames (r.frames cfg) ↔ (storeAfter cfg r.before).keys.card + 2 ≤ Q)

theorem card_points (store : DataStore) : Multiset.card store.points = store.keys.card := by
  rw [DataStore.points, Multiset.card_map, Finmap.keys, Finset.card]
  exact (Multiset.card_map _ _).symm

theorem length_replyFrames (frames : List Asdu) : (replyFrames frames).length = frames.length + 2 := by
  simp [replyFrames]

theorem sound_card {r : Replay ι} {todo : List CachedPoint} (h : r.Sound cfg w conn todo) :
    r.sends.length + todo.length = (storeAfter cfg r.before).keys.card := by
  have hp := congrArg Multiset.card h.points
  rw [card_points, Multiset.coe_card, List.length_append, List.length_map] at hp
  exact hp

theorem attemptsAll_of_sound {confirmed terminated : Bool} {r : Replay ι}
    (h : r.Sound cfg w conn []) : AttemptsAll cfg conn confirmed r terminated := by
  have hcard : r.sends.length = (storeAfter cfg r.before).keys.card := sound_card h
  have hframes : (attempts ((Interrogation.station confirmed r terminated).log cfg conn)).map Prod.fst =
      replyFrames (r.frames cfg) := by
    rw [attempts_station]
    simp [replyFrames, Replay.frames]
  have hlen : (replyFrames (r.frames cfg)).length = (storeAfter cfg r.before).keys.card + 2 := by
    rw [length_replyFrames, ← hcard, Replay.frames, List.length_map]
  refine ⟨hcard, hframes, fun Q hQ => ?_⟩
  rw [accepted_of_first hQ, hframes, ← hlen]
  refine ⟨?_, ?_⟩
  · rw [Nat.min_def]
    split
    · rfl
    · rw [List.take_length, List.take_of_length_le (by omega)]
  · constructor
    · intro ht
      have := congrArg List.length ht
      rw [List.length_take] at this
      omega
    · exact fun hle => List.take_of_length_le hle

/-! ## The callback alone -/

/-- The replay attempts the points it still has to send, whatever the answers. -/
theorem sends_steps (cfg : Settings) {now : OffsetDateTime} {todo : List CachedPoint} {sink : ConnectionSink}
    {answers : List Bool} (hgi : s.gi conn = .replaying now todo sink)
    (hn : answers.length = todo.length) :
    ∃ t, Machine.Steps (process ι cfg) s
        ((todo.zip answers).map fun x => .giData conn now (replayFrame cfg now x.1) x.2) t ∧
      t.gi conn = .replaying now [] ⟨sink.failed + answers.count false⟩ ∧ t.cache = s.cache := by
  induction todo generalizing s sink answers with
  | nil =>
    obtain rfl : answers = [] := List.length_eq_zero_iff.mp hn
    exact ⟨s, .refl s, hgi, rfl⟩
  | cons point todo ih =>
    obtain ⟨sent, answers, rfl⟩ := List.exists_cons_of_length_eq_add_one hn
    have hstep : (process ι cfg).step s (.gi conn (.send sent)) = some
        (s.setGi conn (.replaying now todo (if !sent then ⟨sink.failed + 1⟩ else sink)),
          some (.giData conn now (replayFrame cfg now point) sent)) := by
      simp [process, giStep, hgi, replayPoint_eq, attempt]
    obtain ⟨t, ht, hg, hc⟩ := ih (State.setGi_gi_self conn _) (by simpa using hn)
    refine ⟨t, (Machine.Steps.single hstep).trans ht, ?_, hc⟩
    rw [hg]
    cases sent with
    | false =>
      show GiPhase.replaying now [] ⟨sink.failed + 1 + answers.count false⟩ = _
      rw [List.count_cons_self]
      congr 2
      omega
    | true => simp

/-- A callback on a data store nobody has locked, from the confirmation to the
termination: it attempts every frame, whatever the answers, and has counted the
points refused when the replay is over. -/
theorem callback_steps (hgi : s.gi conn = .requested QOI_STATION) (hl : s.dataLock = none)
    {order : List CachedPoint} (ho : (order : Multiset CachedPoint) = s.cache.points)
    (now : OffsetDateTime) (confirmed terminated : Bool) {answers : List Bool}
    (hn : answers.length = order.length) :
    ∃ u t, Machine.Steps (process ι cfg) s ([.actCon conn false confirmed, .locked conn now] ++
        (order.zip answers).map fun x => .giData conn now (replayFrame cfg now x.1) x.2) u ∧
      u.gi conn = .replaying now [] ⟨answers.count false⟩ ∧
      Machine.Steps (process ι cfg) u [.giCounted conn, .actTerm conn terminated] t ∧
      t.gi conn = .idle ∧ t.cache = s.cache := by
  have h₁ : (process ι cfg).step s (.gi conn (.confirm confirmed)) = some
      (s.setGi conn .confirmed, some (.actCon conn false confirmed)) := by
    simp [process, giStep, hgi]
  have h₂ : (process ι cfg).step (s.setGi conn .confirmed) (.gi conn (.lock now order)) = some
      ({ (s.setGi conn .confirmed).setGi conn (.replaying now order .new) with dataLock := some conn },
        some (.locked conn now)) := by
    have ho' : (order : Multiset CachedPoint) = s.cache.entries.map Sigma.snd := ho
    simp [process, giStep, hl, ho']
  obtain ⟨u, hu, hug, huc⟩ := sends_steps cfg
    (s := { (s.setGi conn .confirmed).setGi conn (.replaying now order .new) with dataLock := some conn })
    (State.setGi_gi_self (s := s.setGi conn .confirmed) conn _) hn
  have h₃ : (process ι cfg).step u (.gi conn .unlock) = some
      ({ u.setGi conn .replayed with dataLock := none }, none) := by
    simp [process, giStep, hug]
  generalize hu₃ : ({ u.setGi conn .replayed with dataLock := none } : State ι) = u₃ at h₃
  have hg₃ : u₃.gi conn = .replayed := by
    rw [← hu₃]
    exact State.setGi_gi_self conn _
  have h₄ : (process ι cfg).step u₃ (.gi conn .count) = some
      ({ u₃.setGi conn .counted with
        metrics := { u₃.metrics with giResponses := u₃.metrics.giResponses + 1 } },
        some (.giCounted conn)) := by
    simp [process, giStep, hg₃]
  generalize hu₄ : ({ u₃.setGi conn .counted with
    metrics := { u₃.metrics with giResponses := u₃.metrics.giResponses + 1 } } : State ι) = u₄ at h₄
  have hg₄ : u₄.gi conn = .counted := by
    rw [← hu₄]
    exact State.setGi_gi_self conn _
  have h₅ : (process ι cfg).step u₄ (.gi conn (.terminate terminated)) = some
      (u₄.setGi conn .idle, some (.actTerm conn terminated)) := by
    simp [process, giStep, hg₄]
  refine ⟨u, u₄.setGi conn .idle, ?_, ?_, ?_, State.setGi_gi_self conn _, ?_⟩
  · exact ((Machine.Steps.single h₁).trans (Machine.Steps.single h₂)).trans hu
  · rw [hug]
    simp [ConnectionSink.new]
  · exact ((Machine.Steps.single h₃).trans (Machine.Steps.single h₄)).trans (Machine.Steps.single h₅)
  · rw [State.setGi_cache, ← hu₄, ← hu₃]
    exact huc

/-! ## Whole runs -/

/-- What a run says of the interrogations of a connection whose queue may refuse
frames. -/
structure Truncated (cfg : Settings) (w : List (Effect ι)) (s : State ι) (conn : ConnId) : Prop where
  /-- A station interrogation that is over attempted every frame. -/
  attempted : ∃ (is : List (Interrogation ι)) (l : List (Effect ι)),
    connLog conn w = is.flatMap (Interrogation.log cfg conn) ++ l ∧ (s.gi conn).Progress cfg w conn l ∧
      ∀ confirmed r terminated, .station confirmed r terminated ∈ is →
        Snapshot cfg r.now (storeAfter cfg r.before) (r.frames cfg) ∧
        AttemptsAll cfg conn confirmed r terminated
  /-- Of the points of the data store when the replay took the lock, some were
  taken, `sink.failed()` were refused, and the others are still to be sent. -/
  failed (now : OffsetDateTime) (todo : List CachedPoint) (sink : ConnectionSink) :
    s.gi conn = .replaying now todo sink → ∃ (l : List (Effect ι)) (confirmed : Bool) (r : Replay ι),
      connLog conn w = l ++ r.log cfg conn confirmed ∧ r.Sound cfg w conn todo ∧
      sink.failed = r.sends.countP (fun x => !x.2) ∧
      r.sends.countP Prod.snd + sink.failed + todo.length = (storeAfter cfg r.before).keys.card
  /-- The callback leaves the data store alone, refused or not. -/
  cache (e : GiEvent) (t : State ι) (o : Option (Effect ι)) :
    (process ι cfg).step s (.gi conn e) = some (t, o) → t.cache = s.cache
  /-- A callback goes on to the termination, whatever the answers. -/
  goesOn : s.gi conn = .requested QOI_STATION → s.dataLock = none →
    ∀ (order : List CachedPoint) (now : OffsetDateTime) (confirmed terminated : Bool)
      (answers : List Bool), (order : Multiset CachedPoint) = s.cache.points →
      answers.length = order.length →
      ∃ u t, Machine.Steps (process ι cfg) s ([.actCon conn false confirmed, .locked conn now] ++
          (order.zip answers).map fun x => .giData conn now (replayFrame cfg now x.1) x.2) u ∧
        u.gi conn = .replaying now [] ⟨answers.count false⟩ ∧
        Machine.Steps (process ι cfg) u [.giCounted conn, .actTerm conn terminated] t ∧
        t.gi conn = .idle ∧ t.cache = s.cache

/-- In every run, a station interrogation attempts the confirmation, each point
and the termination, whatever the connection answers, and what is not counted
as refused was taken. -/
theorem truncation_accounted (h : (process ι cfg).Run w s) (conn : ConnId) : Truncated cfg w s conn where
  attempted := by
    obtain ⟨is, l, hl⟩ := connLog_of_run h conn
    refine ⟨is, l, hl.log, hl.progress, fun confirmed r terminated hi => ?_⟩
    have hs : r.Sound cfg w conn [] := hl.sound _ hi
    exact ⟨snapshot_of_sound hs, attemptsAll_of_sound hs⟩
  failed now todo sink hgi := by
    obtain ⟨is, l, hl⟩ := connLog_of_run h conn
    have hp := hl.progress
    rw [hgi] at hp
    obtain ⟨confirmed, r, -, hr, rfl, hf⟩ := hp
    refine ⟨_, confirmed, r, hl.log, hr, hf, ?_⟩
    have hn := sound_card hr
    have hcount := List.length_eq_countP_add_countP (Prod.snd : CachedPoint × Bool → Bool) (l := r.sends)
    have hneg : r.sends.countP (fun x => !x.2) = r.sends.countP (fun x => ¬ x.2 = true) :=
      List.countP_congr fun x _ => by simp
    omega
  cache _ _ _ hs := (giStep_cases hs).frame.1
  goesOn hgi hl order now confirmed terminated answers ho hn :=
    callback_steps hgi hl ho now confirmed terminated hn

/-- Two points and a queue with room for two frames. -/
theorem truncation_accounted_sample : ∃ w s, (process Nat .sample).Run w s ∧
    acceptedFrames (attempts w) =
      [.actCon false, .data (replayFrame .sample (.sample 3) ⟨.sample 200 true, .sample 2⟩)] ∧
    Truncated .sample w s 0 := by
  obtain ⟨w, s, h, hw⟩ := Machine.exists_run_of_exec (M := process Nat .sample)
    [.task (.build true), .task (.receive 0 (.sample 100 true) (.sample 1)), .task .insert,
      .task .dispatch, .task (.ack true), .task .count,
      .task (.receive 1 (.sample 200 true) (.sample 2)), .task .insert,
      .gi 0 (.request QOI_STATION), .gi 0 (.confirm true),
      .gi 0 (.lock (.sample 3) [⟨.sample 200 true, .sample 2⟩, ⟨.sample 100 true, .sample 1⟩]),
      .gi 0 (.send true), .gi 0 (.send false), .gi 0 .unlock, .gi 0 .count, .gi 0 (.terminate false)]
    (fun w _ => acceptedFrames (attempts w))
    [.actCon false, .data (replayFrame .sample (.sample 3) ⟨.sample 200 true, .sample 2⟩)]
    (by decide +kernel)
  exact ⟨w, s, h, hw, truncation_accounted h 0⟩

end Iec104Bridge
