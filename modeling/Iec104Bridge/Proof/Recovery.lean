import Iec104Bridge.Proof.EndToEnd
import Iec104Bridge.Proof.JetStream

/-!
# The masters of a bridge that restarts

The redundancy group with the NATS input in front, whatever is delivered to it and
wherever it crashes. A crash takes the data store, the queues and the connections,
which are in the memory of the process, so that the group runs a life of its own
after each. What a master is sent then is what was delivered since
(`frames_from_deliveries`); and a master that takes over and interrogates holds the
last message delivered for each key (`master_recovers`).
-/

namespace Iec104Bridge

open Framework

variable {cfg : NatsSettings} {s : GroupState NatsState} {conn : ConnId}

/-- The bridge with its NATS consumer and the masters of the group. -/
abbrev natsGroup (cfg : NatsSettings) :
    Machine (GroupState NatsState) (GroupEvent NatsEvent) (GroupEffect NatsEffect) :=
  group (nats cfg) NatsEffect.toCore

/-- The messages delivered in a life of the group. -/
def groupMessages (cfg : NatsSettings) (l : List (GroupEffect NatsEffect)) : List Iec104Message :=
  deliveredMessages cfg (l.filterMap GroupEffect.toFront)

/-- A data frame that a master is sent is that of a valid message delivered since the
bridge started. -/
theorem frames_from_deliveries {w : List (Option (GroupEffect NatsEffect))}
    (h : (Machine.restarts (natsGroup cfg)).Run w s) {asdu : Asdu} (hf : .data asdu ∈ s.received conn) :
    ∃ message ∈ groupMessages cfg (Machine.life w), ∃ receivedAt now,
      FrameOf cfg.core now asdu ⟨message, receivedAt⟩ := by
  have hlife := Machine.restarts_life h
  obtain ⟨e, he, hx⟩ := sent_of_holds hlife (.inr (.inr ⟨conn, hf⟩))
  obtain ⟨now, hframe⟩ := frame_of_sends hx
  obtain ⟨point, harr, -, hof⟩ := arrival_of_frame (group_process (nats_process cfg) hlife) he hframe
  have hm := List.mem_map_of_mem (f := CachedPoint.message) harr
  rw [processLog, ← natsLog, arrivals_of_deliveries ((group_front _ _).run hlife)] at hm
  exact ⟨point.message, hm, point.receivedAt, now, hof⟩

/-! ## What a master holds -/

/-- In a life of the group, the master on `conn` took over and was interrogated since;
the bridge waits for messages, and the queues are empty. -/
structure Recovered (conn : ConnId) (l : List (GroupEffect NatsEffect)) (s : GroupState NatsState) :
    Prop where
  takenOver : ∃ l₁ l₂, l = l₁ ++ .started conn :: l₂ ∧ (∀ e ∈ l₂, e.Calm conn) ∧
    GiAnswered conn (processLog NatsEffect.toCore l₂)
  high : s.high = []
  low : s.low = []
  waiting : s.front.core.task = .selecting

/-- For each key, the master holds the value, the encoding and the source time of
the last valid message delivered since the bridge started. -/
theorem master_recovers {w : List (Option (GroupEffect NatsEffect))} (hg : cfg.core.giOnly = false)
    (h : (Machine.restarts (natsGroup cfg)).Run w s) (hr : Recovered conn (Machine.life w) s) {k : Key}
    {m : Iec104Message}
    (hm : lastAt (Iec104Message.key cfg.core.defaultCa) k (groupMessages cfg (Machine.life w)) = some m) :
    ∃ asdu, lastFrame k (s.received conn) = some asdu ∧
      asdu.object.value = wireValue cfg.core.policy.sendTimestamps m ∧
      asdu.object.time = wireTime cfg.core.policy.sendTimestamps m := by
  have hlife := Machine.restarts_life h
  obtain ⟨l₁, l₂, hl, hcalm, hans⟩ := hr.takenOver
  rw [groupMessages, ← written_of_deliveries ((group_front _ _).run hlife) hr.waiting, lastAt_map] at hm
  obtain ⟨point, hp, rfl⟩ := Option.map_eq_some_iff.mp hm
  have hlook := (cache_lookup (group_process (nats_process cfg) hlife) k).trans hp
  have hu : ¬ Updating cfg.core s.front.core.task k := not_updating (by simp [hr.waiting])
  rw [hl] at hlife
  obtain ⟨asdu, ha, hcarr⟩ :=
    takenOver_carries (nats_process cfg) hg hlife hcalm hans hr.high hr.low hu hlook
  exact ⟨asdu, ha, hcarr.value, hcarr.time⟩

/-! ## After a crash -/

/-- Master 5 takes over, is interrogated, and receives the answer. -/
def takesOver : List (GroupEvent NatsEvent) :=
  [.start 5, .bridge (.gi 5 (.request QOI_STATION)), .bridge (.gi 5 (.confirm true)),
    .bridge (.gi 5 (.lock (.sample 4) [⟨.sample 100 true, .sample 2⟩])), .bridge (.gi 5 (.send true)),
    .bridge (.gi 5 .unlock), .bridge (.gi 5 .count), .bridge (.gi 5 (.terminate true))] ++
    List.replicate 4 .deliver

/-- Master 4 is there when the bridge crashes. Master 5 takes over once the message is
delivered again. -/
def afterCrash : List (Option (GroupEvent NatsEvent)) :=
  some (.start 4) :: (cutShort.map fun event => some (.bridge event)) ++ [none] ++
    (deliveredAgain.map fun event => some (.bridge event)) ++ takesOver.map some

/-- What the process does once master 5 is active. -/
def answeredAgain : List (Effect Nat) :=
  [.requested 5 QOI_STATION, .actCon 5 false true, .locked 5 (.sample 4),
    .giData 5 (.sample 4) (replayFrame .sample (.sample 4) ⟨.sample 100 true, .sample 2⟩) true,
    .giCounted 5, .actTerm 5 true]

theorem afterCrash_run : ∃ w s, (Machine.restarts (natsGroup .sample)).Run w s ∧
    Recovered 5 (Machine.life w) s ∧ groupMessages .sample (Machine.life w) = [.sample 100 true] ∧
    .data (replayFrame .sample (.sample 4) ⟨.sample 100 true, .sample 2⟩) ∈ s.received 5 := by
  obtain ⟨w, s, h, hs⟩ := Machine.exists_run_of_exec (M := Machine.restarts (natsGroup .sample)) afterCrash
    (fun w s => (((Machine.life w).drop 9).all (fun e => decide (e.Calm 5)) &&
      (Machine.life w)[8]?.any (GroupEffect.starts 5) && s.front.core.task.waits,
      processLog NatsEffect.toCore ((Machine.life w).drop 9), s.high ++ s.low,
      groupMessages .sample (Machine.life w),
      decide (.data (replayFrame .sample (.sample 4) ⟨.sample 100 true, .sample 2⟩) ∈ s.received 5)))
    (true, answeredAgain, [], [.sample 100 true], true) (by decide +kernel)
  simp only [Prod.mk.injEq, Bool.and_eq_true, List.append_eq_nil_iff, List.all_eq_true,
    decide_eq_true_eq] at hs
  obtain ⟨⟨⟨hcalm, hstart⟩, hwaits⟩, hlog, ⟨hh, hl⟩, ht, hd⟩ := hs
  refine ⟨w, s, h, ⟨⟨_, _, cut_of_starts hstart, hcalm, ?_⟩, hh, hl, selecting_of_waits hwaits⟩, ht, hd⟩
  rw [hlog]
  exact ⟨[.requested 5 QOI_STATION, .actCon 5 false true], _, [_], [.actTerm 5 true], rfl, by simp⟩

theorem master_recovers_sample : ∃ w s, (Machine.restarts (natsGroup .sample)).Run w s ∧
    ∃ asdu, lastFrame (1, 100) (s.received 5) = some asdu ∧
      asdu.object.value = wireValue true (.sample 100 true) := by
  obtain ⟨w, s, h, hr, ht, -⟩ := afterCrash_run
  obtain ⟨asdu, ha, hv, -⟩ := master_recovers rfl h hr (k := (1, 100)) (m := .sample 100 true)
    (by rw [ht]; decide +kernel)
  exact ⟨w, s, h, asdu, ha, hv⟩

theorem frames_from_deliveries_sample : ∃ w s asdu, (Machine.restarts (natsGroup .sample)).Run w s ∧
    .data asdu ∈ s.received 5 ∧
    ∃ message ∈ groupMessages .sample (Machine.life w), ∃ receivedAt now,
      FrameOf .sample now asdu ⟨message, receivedAt⟩ := by
  obtain ⟨w, s, h, -, -, hd⟩ := afterCrash_run
  exact ⟨w, s, _, h, hd, frames_from_deliveries h hd⟩

end Iec104Bridge
