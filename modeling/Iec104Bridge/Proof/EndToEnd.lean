import Iec104Bridge.Proof.Failover
import Iec104Bridge.Proof.Dialogue
import Iec104Bridge.Proof.Shuffle

/-!
# From the clients to the masters

The redundancy group with the Unix-socket input in front. Each data frame a
master is sent is that of a valid line of an authorized client
(`frames_from_requests`); and when the lines are handled and the queues are
empty, a master that took over and interrogated holds, for a key that one client
writes, the last valid line the client sent for it (`master_holds_last`).
-/

namespace Iec104Bridge

open Framework

variable {cfg : UnixSettings} {s : GroupState UnixState} {as : List (GroupEvent UnixEvent)}
  {w : List (GroupEffect UnixEffect)} {c : ClientId} {conn : ConnId}

/-- The Unix-socket input with the masters of the group. -/
abbrev unixGroup (cfg : UnixSettings) :
    Machine (GroupState UnixState) (GroupEvent UnixEvent) (GroupEffect UnixEffect) :=
  group (unix cfg) UnixEffect.toCore

section

variable {ι σ α ω : Type} {M : Machine σ α ω} {g : ω → Option (Effect ι)}

def GroupEvent.toFront : GroupEvent α → Option α
  | .bridge e => some e
  | _ => none

theorem group_projection (M : Machine σ α ω) (g : ω → Option (Effect ι)) :
    Machine.Projection (group M g) M (fun s front => front = s.front) GroupEvent.toFront
      GroupEffect.toFront where
  init := rfl
  step {w s t s' a o} _ h hs := by
    subst h
    cases a with
    | bridge event =>
      simp only [group, groupStep] at hs
      split at hs <;> cases hs
      rw [toFront_map]
      exact .inl ⟨event, _, rfl, ‹_›, rfl⟩
    | start conn | close conn =>
      cases hs
      exact .inr ⟨rfl, rfl, rfl⟩
    | deliver | loseHigh | loseLow =>
      simp only [group, groupStep] at hs
      split at hs <;> cases hs <;> exact .inr ⟨rfl, rfl, rfl⟩

/-- The front end's part of a run of the group. -/
theorem front_trace {as : List (GroupEvent α)} {w : List (GroupEffect ω)} {s : GroupState σ}
    (h : (group M g).Trace as w s) :
    M.Trace (as.filterMap GroupEvent.toFront) (w.filterMap GroupEffect.toFront) s.front := by
  obtain ⟨s', ht, rfl⟩ := (group_projection M g).trace h
  exact ht

/-- What masters are sent, or will be. -/
def GroupState.Holds (s : GroupState σ) (frame : Frame) : Prop :=
  frame ∈ s.high ∨ frame ∈ s.low ∨ ∃ conn, frame ∈ s.received conn

theorem GroupState.holds_receive {s : GroupState σ} {conn : ConnId} {frame frame' : Frame}
    (h : (s.receive conn frame').Holds frame) : s.Holds frame ∨ frame = frame' := by
  rcases h with h | h | ⟨c, h⟩
  · exact .inl (.inl h)
  · exact .inl (.inr (.inl h))
  · by_cases hc : c = conn
    · subst hc
      simp only [GroupState.receive, Function.update_self, List.mem_append, List.mem_singleton] at h
      exact h.imp_left fun h => .inr (.inr ⟨c, h⟩)
    · simp only [GroupState.receive, Function.update_of_ne hc] at h
      exact .inl (.inr (.inr ⟨c, h⟩))

theorem sends_of_queued {e : Effect ι} {asdu : Asdu}
    (h : e.highFrame = some (.data asdu) ∨ e.lowFrame = some (.data asdu)) : e.sends = some asdu := by
  rcases h with h | h
  · simp [Effect.sends, h, Frame.asdu]
  · cases e with
    | handed =>
      cases h
      rfl
    | _ => cases h

/-- A step of the group adds the frames of the process. -/
theorem holds_step {s t : GroupState σ} {o : Option (GroupEffect ω)} {asdu : Asdu}
    (hs : GroupStep M g s t o) (h : t.Holds (.data asdu)) :
    s.Holds (.data asdu) ∨ ∃ e ∈ (o.bind GroupEffect.toFront).bind g, e.sends = some asdu := by
  cases hs with
  | @bridge event front o =>
    rw [toFront_map]
    rcases h with h | h | h
    · rcases List.mem_append.mp h with h | h
      · exact .inl (.inl h)
      · obtain ⟨e, he, hf⟩ := Option.bind_eq_some_iff.mp (Option.mem_toList.mp h)
        exact .inr ⟨e, he, sends_of_queued (.inl hf)⟩
    · rcases List.mem_append.mp h with h | h
      · exact .inl (.inr (.inl h))
      · obtain ⟨e, he, hf⟩ := Option.bind_eq_some_iff.mp (Option.mem_toList.mp h)
        exact .inr ⟨e, he, sends_of_queued (.inr hf)⟩
    · exact .inl (.inr (.inr h))
  | deliverHigh _ hh =>
    rcases GroupState.holds_receive h with h | h
    · exact .inl (h.imp_left fun h => hh ▸ List.mem_cons_of_mem _ h)
    · exact .inl (.inl (by rw [hh, h]; exact List.mem_cons_self))
  | deliverLow _ _ hl =>
    rcases GroupState.holds_receive h with h | h
    · exact .inl (h.imp_right fun h => h.imp_left fun h => hl ▸ List.mem_cons_of_mem _ h)
    · exact .inl (.inr (.inl (by rw [hl, h]; exact List.mem_cons_self)))
  | loseHigh hh => exact .inl (h.imp_left fun h => hh ▸ List.mem_cons_of_mem _ h)
  | loseLow hl => exact .inl (h.imp_right fun h => h.imp_left fun h => hl ▸ List.mem_cons_of_mem _ h)
  | _ => exact .inl h

/-- Each data frame was sent by the process. -/
theorem sent_of_holds {w : List (GroupEffect ω)} {s : GroupState σ} (h : (group M g).Run w s)
    {asdu : Asdu} (hf : s.Holds (.data asdu)) : ∃ e ∈ processLog g w, e.sends = some asdu := by
  refine h.invariant
    (P := fun w s => ∀ asdu, s.Holds (.data asdu) → ∃ e ∈ processLog g w, e.sends = some asdu)
    ?_ (fun w s a t o _ ih hs asdu hf => ?_) asdu hf
  · rintro asdu (h | h | ⟨conn, h⟩) <;> cases h
  · rw [processLog_concat]
    rcases holds_step (groupStep_cases hs) hf with hf | ⟨e, he, hx⟩
    · obtain ⟨e, he, hx⟩ := ih asdu hf
      exact ⟨e, List.mem_append_left _ he, hx⟩
    · exact ⟨e, List.mem_append_right _ (Option.mem_toList.mpr he), hx⟩

end

/-! ## Where frames come from -/

/-- The main loop takes the messages of valid lines. -/
theorem line_of_processed {as : List UnixEvent} {w : List UnixEffect} {s : UnixState}
    (h : (unix cfg).Trace as w s) {message : Iec104Message} (hp : (c, message) ∈ processed w) :
    Trusted cfg c as ∧
      ∃ line ∈ s.linesSent as c, documentedVerdict cfg line = .ok message := by
  refine ⟨trusted_of_processed h hp, ?_⟩
  have hp : message ∈ ofSource c (processed w) := mem_ofSource.mpr hp
  rw [processed_ofSource] at hp
  obtain ⟨⟨n, m⟩, hm, rfl⟩ := List.mem_map.mp hp
  have hread := Lane.taken_read (Lane.inv_of_run (lineLog_run h.run c)) hm
  obtain ⟨line, hl⟩ := read_request hread
  obtain ⟨hget, hv⟩ := requests_of_trace h hl
  obtain ⟨taken, hs⟩ := streamRead_of_trace h c
  refine ⟨line, ?_, hv.symm⟩
  have hmem := List.mem_of_getElem? hget
  rw [← hs.read] at hmem
  rw [UnixState.linesSent, hs.now]
  exact List.mem_append_left _ (List.mem_filter.mp hmem).1

theorem processed_of_arrival {w : List UnixEffect} {point : CachedPoint} (h : point ∈ arrivals (unixLog w)) :
    ∃ c, (c, point.message) ∈ processed w := by
  obtain ⟨e, he, hx⟩ := List.mem_filterMap.mp h
  cases e with
  | received id message now =>
    cases hx
    exact ⟨id.1, List.mem_filterMap.mpr ⟨_, mem_unixLog.mp he, rfl⟩⟩
  | _ => cases hx

/-- The data frame of an effect, with its time. -/
theorem frame_of_sends {ι : Type} {e : Effect ι} {asdu : Asdu} (h : e.sends = some asdu) :
    ∃ now, e.frame = some (now, asdu) := by
  cases e with
  | handed id now =>
    cases h
    exact ⟨now, rfl⟩
  | giData c now asdu sent =>
    cases sent <;> cases h
    exact ⟨now, rfl⟩
  | actCon _ _ sent | actTerm _ sent => cases sent <;> cases h
  | _ => cases h

/-- A data frame that a master is sent is that of a valid line of an authorized client. -/
theorem frames_from_requests (h : (unixGroup cfg).Trace as w s) {asdu : Asdu}
    (hf : .data asdu ∈ s.received conn) :
    ∃ c line message receivedAt now, Trusted cfg c (as.filterMap GroupEvent.toFront) ∧
      line ∈ s.front.linesSent (as.filterMap GroupEvent.toFront) c ∧
      documentedVerdict cfg line = .ok message ∧ FrameOf cfg.core now asdu ⟨message, receivedAt⟩ := by
  obtain ⟨e, he, hx⟩ := sent_of_holds h.run (.inr (.inr ⟨conn, hf⟩))
  obtain ⟨now, hframe⟩ := frame_of_sends hx
  have hr := group_process (unix_process cfg) h.run
  obtain ⟨⟨message, receivedAt⟩, harr, -, hof⟩ := arrival_of_frame hr he hframe
  obtain ⟨c, hp⟩ := processed_of_arrival harr
  obtain ⟨ht, line, hl, hv⟩ := line_of_processed (front_trace h) hp
  exact ⟨c, line, message, receivedAt, now, ht, hl, hv, hof⟩

/-! ## What a master holds -/

/-- The master on `conn` took over and was interrogated since; the lines of the
clients are handled, and the queues are empty. -/
structure Settled (cfg : UnixSettings) (conn : ConnId) (as : List (GroupEvent UnixEvent))
    (w : List (GroupEffect UnixEffect)) (s : GroupState UnixState) : Prop where
  takenOver : ∃ w₁ w₂, w = w₁ ++ .started conn :: w₂ ∧ (∀ e ∈ w₂, e.Calm conn) ∧
    GiAnswered conn (processLog UnixEffect.toCore w₂)
  high : s.high = []
  low : s.low = []
  handled : Handled cfg (as.filterMap GroupEvent.toFront) s.front

/-- The point of a key that one client writes is its last valid line for the key. -/
theorem lookup_of_writer {as : List UnixEvent} {w : List UnixEffect} {s : UnixState}
    (h : (unix cfg).Trace as w s) (hd : Handled cfg as s) (hc : Trusted cfg c as) {k : Key}
    (hk : ∀ d, Trusted cfg d as → d ≠ c → ∀ m ∈ validRequests cfg (s.linesSent as d),
      m.key cfg.core.defaultCa ≠ k) :
    (s.core.cache.lookup k).map CachedPoint.message =
      lastAt (Iec104Message.key cfg.core.defaultCa) k (validRequests cfg (s.linesSent as c)) := by
  have hsrc : ∀ x ∈ processed w, x.2.key cfg.core.defaultCa = k → x.1 = c := by
    rintro ⟨d, m⟩ hx hm
    by_contra hne
    have ht := trusted_of_processed h hx
    refine hk d ht hne m ?_ hm
    rw [← processed_of_handled h hd ht]
    exact mem_ofSource.mpr hx
  rw [lookup_processed h.run hd.waiting, lastAt, filter_ofSource hsrc, processed_of_handled h hd hc]
  rfl

/-- For a key that only client `c` writes, a settled master holds the value, the
encoding and the source time of the last valid line the client sent for it. -/
theorem master_holds_last (hg : cfg.core.giOnly = false) (h : (unixGroup cfg).Trace as w s)
    (hs : Settled cfg conn as w s) (hc : Trusted cfg c (as.filterMap GroupEvent.toFront)) {k : Key}
    (hk : ∀ d, Trusted cfg d (as.filterMap GroupEvent.toFront) → d ≠ c →
      ∀ m ∈ validRequests cfg (s.front.linesSent (as.filterMap GroupEvent.toFront) d),
        m.key cfg.core.defaultCa ≠ k) {m : Iec104Message}
    (hm : lastAt (Iec104Message.key cfg.core.defaultCa) k
      (validRequests cfg (s.front.linesSent (as.filterMap GroupEvent.toFront) c)) = some m) :
    ∃ asdu, lastFrame k (s.received conn) = some asdu ∧
      asdu.object.value = wireValue cfg.core.policy.sendTimestamps m ∧
      asdu.object.time = wireTime cfg.core.policy.sendTimestamps m := by
  obtain ⟨w₁, w₂, rfl, hcalm, hans⟩ := hs.takenOver
  have hlook := lookup_of_writer (front_trace h) hs.handled hc hk
  rw [hm] at hlook
  obtain ⟨point, hp, rfl⟩ := Option.map_eq_some_iff.mp hlook
  have hu : ¬ Updating cfg.core s.front.core.task k := not_updating (by simp [hs.handled.waiting])
  obtain ⟨asdu, ha, hcarr⟩ :=
    takenOver_carries (unix_process cfg) hg h.run hcalm hans hs.high hs.low hu hp
  exact ⟨asdu, ha, hcarr.value, hcarr.time⟩

/-! ## Two clients and a master -/

/-- The lines of both clients are handled, and master 5 takes over. -/
def interrogatedLate : List (GroupEvent UnixEvent) :=
  interleaved.map .bridge ++ [.start 5] ++ ([.gi 5 (.request QOI_STATION), .gi 5 (.confirm true),
    .gi 5 (.lock (.sample 3) [⟨{ Iec104Message.sample 100 false with ca := some 2 }, .sample 1⟩,
      ⟨.sample 100 true, .sample 2⟩]), .gi 5 (.send true), .gi 5 (.send true), .gi 5 .unlock,
    .gi 5 .count, .gi 5 (.terminate true)] : List UnixEvent).map .bridge ++
    List.replicate 6 .deliver

/-- What the process does once master 5 is active. -/
def answeredLate : List (Effect LineId) :=
  let frame (point : CachedPoint) := replayFrame .sample (.sample 3) point
  [.requested 5 QOI_STATION, .actCon 5 false true, .locked 5 (.sample 3),
    .giData 5 (.sample 3)
      (frame ⟨{ Iec104Message.sample 100 false with ca := some 2 }, .sample 1⟩) true,
    .giData 5 (.sample 3) (frame ⟨.sample 100 true, .sample 2⟩) true, .giCounted 5, .actTerm 5 true]

def GroupEffect.starts {ω : Type} (conn : ConnId) : GroupEffect ω → Bool
  | .started c => c = conn
  | _ => false

theorem cut_of_starts {ω : Type} {w : List (GroupEffect ω)} {n : Nat}
    (h : w[n]?.any (GroupEffect.starts conn) = true) : w = w.take n ++ .started conn :: w.drop (n + 1) := by
  obtain ⟨e, he, hx⟩ := Option.any_eq_true _ _ |>.mp h
  obtain ⟨hlt, rfl⟩ := List.getElem?_eq_some_iff.mp he
  have hdrop := List.drop_eq_getElem_cons hlt
  cases hn : w[n] with
  | started c =>
    rw [hn] at hx hdrop
    obtain rfl : c = conn := of_decide_eq_true hx
    rw [← hdrop, List.take_append_drop]
  | _ =>
    rw [hn] at hx
    cases hx

theorem master_holds_last_sample : ∃ w s, (unixGroup .shared).Trace interrogatedLate w s ∧
    ∃ asdu, lastFrame (1, 100) (s.received 5) = some asdu ∧
      asdu.object.value = wireValue true (.sample 100 true) := by
  obtain ⟨w, s, h, hs⟩ := Machine.exists_trace_of_exec (M := unixGroup .shared) interrogatedLate
    (fun w s => ((w.drop 20).all (fun e => decide (e.Calm 5)) && w[19]?.any (GroupEffect.starts 5) &&
      s.front.idle, processLog UnixEffect.toCore (w.drop 20), s.high ++ s.low))
    (true, answeredLate, []) (by decide +kernel)
  simp only [Prod.mk.injEq, Bool.and_eq_true, List.append_eq_nil_iff, List.all_eq_true,
    decide_eq_true_eq] at hs
  obtain ⟨⟨⟨hcalm, hstart⟩, hidle⟩, hlog, hh, hl⟩ := hs
  have hset : Settled .shared 5 interrogatedLate w s :=
    ⟨⟨_, _, cut_of_starts hstart, hcalm, by
      rw [hlog]
      exact ⟨[.requested 5 QOI_STATION, .actCon 5 false true], _, [_, _], [.actTerm 5 true], rfl,
        by simp⟩⟩, hh, hl, handled_of_idle (fun _ => rfl) hidle⟩
  have ht (c : ClientId) : Trusted .shared c (interrogatedLate.filterMap GroupEvent.toFront) ↔
      c = 0 ∨ c = 1 := trusted_twoClients (fun _ => rfl) c
  obtain ⟨hl₀, hl₁⟩ : s.front.linesSent (interrogatedLate.filterMap GroupEvent.toFront) 0 = _ ∧
    s.front.linesSent (interrogatedLate.filterMap GroupEvent.toFront) 1 = _ :=
      linesSent_of_idle (fun _ => rfl) hidle
  have hlast : lastAt (Iec104Message.key 1) (1, 100) (validRequests .shared
      (s.front.linesSent (interrogatedLate.filterMap GroupEvent.toFront) 0)) =
        some (.sample 100 true) := by
    rw [hl₀]
    decide +kernel
  -- client 1 writes to Common Address 2
  have hother : ∀ m ∈ validRequests .shared
      (s.front.linesSent (interrogatedLate.filterMap GroupEvent.toFront) 1), m.key 1 ≠ (1, 100) := by
    rw [hl₁]
    decide +kernel
  obtain ⟨asdu, ha, hv, -⟩ := master_holds_last rfl h hset ((ht 0).mpr (.inl rfl))
    (fun d hd hne => (((ht d).mp hd).resolve_left hne) ▸ hother) hlast
  exact ⟨w, s, h, asdu, ha, hv⟩

theorem frames_from_requests_sample :
    ∃ w s asdu, (unixGroup .shared).Trace interrogatedLate w s ∧ .data asdu ∈ s.received 5 ∧
      ∃ c line message receivedAt now,
        Trusted .shared c (interrogatedLate.filterMap GroupEvent.toFront) ∧
        line ∈ s.front.linesSent (interrogatedLate.filterMap GroupEvent.toFront) c ∧
        documentedVerdict .shared line = .ok message ∧
        FrameOf Settings.sample now asdu ⟨message, receivedAt⟩ := by
  obtain ⟨w, s, h, hs⟩ := Machine.exists_trace_of_exec (M := unixGroup .shared) interrogatedLate
    (fun _ s => decide (.data (replayFrame .sample (.sample 3) ⟨.sample 100 true, .sample 2⟩) ∈
      s.received 5)) true (by decide +kernel)
  exact ⟨w, s, _, h, of_decide_eq_true hs, frames_from_requests h (of_decide_eq_true hs)⟩

end Iec104Bridge
