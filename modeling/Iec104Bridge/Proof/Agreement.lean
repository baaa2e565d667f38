import Iec104Bridge.Proof.Acks
import Iec104Bridge.Proof.Interrogation

/-!
# Spontaneous and interrogated output agree

A point goes through `liveSink` when it arrives and through
`ConnectionSink.sink` in a replay. Both send the frame of the point, so that
the two frames differ in the cause and at most in NT (`samePoint`); NT depends
on the clock, and is added by a replay but not lost, unless the clock has gone
back since the arrival. In a run of either transport, a frame of a replay
agrees with what is handed to the server for the message it replays
(`interrogated_agrees`).
-/

namespace Iec104Bridge

open Framework

/-- The spontaneous frame of a point that arrived at `arrived`, and its frame in
a replay at `now`. -/
structure SamePoint (arrived now : OffsetDateTime) (spontaneous interrogated : Asdu) : Prop where
  typeId : interrogated.object.typeId = spontaneous.object.typeId
  ca : interrogated.ca = spontaneous.ca
  ioa : interrogated.object.ioa = spontaneous.object.ioa
  value : interrogated.object.value = spontaneous.object.value
  time : interrogated.object.time = spontaneous.object.time
  cot : interrogated.cot = .interrogatedByStation
  /-- The qualities differ at most in NT. -/
  quality : interrogated.object.quality.union .NOT_TOPICAL =
    spontaneous.object.quality.union .NOT_TOPICAL
  /-- Unless the clock went back, NT is added if anything. -/
  added : arrived.unixTimestampNanos ≤ now.unixTimestampNanos →
    interrogated.object.quality = spontaneous.object.quality ∨
      interrogated.object.quality = spontaneous.object.quality.union .NOT_TOPICAL
  instant : arrived.unixTimestampNanos = now.unixTimestampNanos →
    interrogated.object.quality = spontaneous.object.quality

theorem Quality.union_self (q r : Quality) : (q.union r).union r = q.union r := by
  rcases q with ⟨q⟩
  rcases r with ⟨r⟩
  simp [Quality.union, UInt8.or_assoc]

/-- At most NT tells the quality of a message from the publisher's. -/
theorem wireQuality_union (maxAge : Option Duration) (msg : Iec104Message)
    (receivedAt now : OffsetDateTime) :
    (wireQuality maxAge msg receivedAt now).union .NOT_TOPICAL =
      (mapQuality msg.quality).union .NOT_TOPICAL := by
  unfold wireQuality
  split
  · exact Quality.union_self _ _
  · rfl

/-- Only the instant of the clock makes a message stale. -/
theorem stale_congr {maxAge : Option Duration} {msg : Iec104Message}
    {receivedAt now now' : OffsetDateTime} (h : now.unixTimestampNanos = now'.unixTimestampNanos) :
    Stale maxAge msg receivedAt now ↔ Stale maxAge msg receivedAt now' :=
  ⟨fun hs => hs.mono h.le, fun hs => hs.mono h.ge⟩

/-- The two frames of a point agree. -/
theorem samePoint (cfg : Settings) (point : CachedPoint) (now : OffsetDateTime) :
    SamePoint point.receivedAt now (spontaneousFrame cfg point.message point.receivedAt)
      (replayFrame cfg now point) := by
  have hq : (replayFrame cfg now point).object.quality =
      wireQuality cfg.policy.maxAge point.message point.receivedAt now := rfl
  have hq' : (spontaneousFrame cfg point.message point.receivedAt).object.quality =
      wireQuality cfg.policy.maxAge point.message point.receivedAt point.receivedAt := rfl
  refine ⟨rfl, rfl, rfl, rfl, rfl, rfl, ?_, fun hle => ?_, fun he => ?_⟩
  · rw [hq, hq', wireQuality_union, wireQuality_union]
  · rw [hq, hq']
    by_cases hs : Stale cfg.policy.maxAge point.message point.receivedAt point.receivedAt
    · left
      unfold wireQuality
      rw [if_pos hs, if_pos (hs.mono hle)]
    · unfold wireQuality
      rw [if_neg hs]
      by_cases hn : Stale cfg.policy.maxAge point.message point.receivedAt now
      · exact .inr (if_pos hn)
      · exact .inl (if_neg hn)
  · rw [hq, hq']
    unfold wireQuality
    simp only [stale_congr he]

/-! ## Runs -/

section

variable {ι : Type} [DecidableEq ι] {cfg : Settings} {s : State ι} {w : List (Effect ι)} {id : ι}

/-- What is inserted was received. -/
theorem received_of_inserted (h : (process ι cfg).Run w s) (hn : (takenIds w).Nodup)
    {point : CachedPoint} (hw : .inserted id point ∈ w) :
    .received id point.message point.receivedAt ∈ w := by
  obtain ⟨w₁, w₂, rfl⟩ := List.append_of_mem hw
  obtain ⟨t, a, t', hr, hs, -⟩ := h.split
  rw [takenIds_append] at hn
  have hi := reached_of_run hr (List.nodup_append.mp hn).1
  rcases process_step hs with hs | ⟨conn, hs⟩
  · cases hs with
    | insert ht =>
      rw [ht] at hi
      exact List.mem_append_left _ hi.1
  · cases hs

/-- A message is inserted once. -/
theorem inserted_unique (h : (process ι cfg).Run w s) (hn : (takenIds w).Nodup)
    {point point' : CachedPoint} (hp : .inserted id point ∈ w) (hp' : .inserted id point' ∈ w) :
    point = point' := by
  have hr := received_of_inserted h hn hp
  have hr' := received_of_inserted h hn hp'
  rw [takenIds, Worker.taken, List.filterMap_filterMap] at hn
  have he := eq_of_filterMap_nodup (x := id) hn hr hr' rfl rfl
  cases point
  cases point'
  cases he
  rfl

/-- What is handed to the server is the spontaneous frame of a message that was inserted. -/
theorem inserted_of_handed (h : (process ι cfg).Run w s) (hn : (takenIds w).Nodup)
    {arrived : OffsetDateTime} {asdu : Asdu} (hw : .handed id arrived asdu ∈ w) :
    ∃ message, .inserted id ⟨message, arrived⟩ ∈ w ∧ asdu = spontaneousFrame cfg message arrived := by
  obtain ⟨w₁, w₂, rfl⟩ := List.append_of_mem hw
  obtain ⟨t, a, t', hr, hs, -⟩ := h.split
  rw [takenIds_append] at hn
  have hi := reached_of_run hr (List.nodup_append.mp hn).1
  generalize ho : some (Effect.handed id arrived asdu) = o at hs
  rcases process_step hs with hs | ⟨conn, hs⟩
  · cases hs with
    | @dispatch id message now ht =>
      cases ho
      rw [ht] at hi
      exact ⟨message, List.mem_append_left _ hi.2.1, rfl⟩
    | _ => cases ho
  · cases hs <;> cases ho

/-- The frame `asdu` of a replay after `w₁` is that of the point cached at its
address, and agrees with what the server is handed for its message. -/
structure ReplayAgrees (cfg : Settings) (w w₁ : List (Effect ι)) (now : OffsetDateTime) (asdu : Asdu)
    (id : ι) (point : CachedPoint) : Prop where
  inserted : .inserted id point ∈ w₁
  cached : lastAt (CachedPoint.key cfg.defaultCa) (point.key cfg.defaultCa) (writes w₁) = some point
  address : asdu.At (point.key cfg.defaultCa)
  /-- What the dispatch of the message hands to the server. -/
  dispatched (spontaneous : Asdu) :
    (dispatchIncoming cfg point.message point.receivedAt).1 = some spontaneous →
      SamePoint point.receivedAt now spontaneous asdu
  /-- What the server is handed for the message in the run. -/
  handed (arrived : OffsetDateTime) (spontaneous : Asdu) : .handed id arrived spontaneous ∈ w →
    arrived = point.receivedAt ∧ SamePoint arrived now spontaneous asdu

/-- Each frame of a replay agrees with the spontaneous frame of its message. -/
def ReplaysAgree (cfg : Settings) (w : List (Effect ι)) : Prop :=
  ∀ w₁ conn now asdu sent w₂, w = w₁ ++ .giData conn now asdu sent :: w₂ →
    ∃ id point, ReplayAgrees cfg w w₁ now asdu id point

theorem replaysAgree_of_run (h : (process ι cfg).Run w s) (hn : (takenIds w).Nodup) :
    ReplaysAgree cfg w := by
  rintro w₁ conn now asdu sent w₂ rfl
  obtain ⟨t, a, t', hr, hs, -⟩ := h.split
  obtain ⟨point, hlookup, rfl⟩ : ∃ point,
      t.cache.lookup (point.key cfg.defaultCa) = some point ∧ asdu = replayFrame cfg now point := by
    rcases process_step hs with hs | ⟨c, hs⟩
    · cases hs
    · cases hs with
      | @send now point _ _ _ hgi => exact ⟨point, replaying_lookup hr hgi List.mem_cons_self, rfl⟩
  rw [cache_lookup hr] at hlookup
  obtain ⟨id, hid⟩ := exists_inserted (mem_of_lastAt hlookup)
  have hsame := samePoint cfg point now
  refine ⟨id, point, hid, hlookup, (replayFrame_of cfg now point).at_iff.mpr rfl, fun sp hd => ?_,
    fun arrived sp hw => ?_⟩
  · rw [dispatchIncoming_eq] at hd
    split at hd <;> cases hd
    exact hsame
  · obtain ⟨message, hm, rfl⟩ := inserted_of_handed h hn hw
    obtain rfl := inserted_unique h hn hm (List.mem_append_left _ hid)
    exact ⟨rfl, hsame⟩

end

/-- With both transports, each frame of a replay agrees with the spontaneous
frame of the message cached at its address. -/
theorem interrogated_agrees :
    (∀ (cfg : NatsSettings) (w : List NatsEffect) (s : NatsState), (nats cfg).Run w s →
      ReplaysAgree cfg.core (natsLog w)) ∧
    ∀ (cfg : UnixSettings) (w : List UnixEffect) (s : UnixState), (unix cfg).Run w s →
      ReplaysAgree cfg.core (unixLog w) :=
  ⟨fun cfg _ _ h => replaysAgree_of_run ((nats_process cfg).run h) (natsLog_nodup h),
    fun cfg _ _ h => replaysAgree_of_run ((unix_process cfg).run h) (unixLog_nodup h)⟩

/-- A message with a source time, which is too old when it is replayed. -/
def agingMessage : Iec104Message := { Iec104Message.sample 100 true with timestamp := some (.sample 1) }

/-- A server with a limit of 5 s, which gets the aging message. -/
def NatsSettings.aging : NatsSettings where
  core := { Settings.sample with policy := { maxAge := some (.fromSecs 5) } }
  parse _ := some agingMessage

/-- The events of a message that arrives at `arrived` and is replayed at `now`. -/
def replayAfterArrival (message : Iec104Message) (arrived now : OffsetDateTime) : List NatsEvent :=
  [.main (.build true), .take [] arrived, .main .insert, .main .dispatch, .main (.ack true),
    .main .count, .gi 0 (.request QOI_STATION), .gi 0 (.confirm true),
    .gi 0 (.lock now [⟨message, arrived⟩]), .gi 0 (.send true)]

/-- The message arrives at 2 s and is replayed at 10 s, when NT is added. -/
theorem interrogated_agrees_sample : ∃ w s now asdu, (nats .aging).Run w s ∧
    natsLog w = natsLog w.dropLast ++ [.giData 0 now asdu true] ∧
    asdu.object.quality.Contains .NOT_TOPICAL ∧
    ∃ id point, ReplayAgrees NatsSettings.aging.core (natsLog w) (natsLog w.dropLast) now asdu id point := by
  have h := Machine.run_of_exec (M := nats .aging)
    (replayAfterArrival agingMessage (.sample 2) (.sample 10)) rfl
  exact ⟨_, _, .sample 10, _, h, rfl, by decide, interrogated_agrees.1 _ _ _ h _ 0 _ _ true [] rfl⟩

/-- The message arrives at 10 s, too old, and is replayed after the clock was
set back to 3 s: the spontaneous frame has NT, and the frame of the replay has not. -/
theorem notTopical_lost : ∃ w s arrived spontaneous interrogated, (nats .aging).Run w s ∧
    .handed 0 arrived spontaneous ∈ natsLog w ∧ .giData 0 (.sample 3) interrogated true ∈ natsLog w ∧
    spontaneous.At (1, 100) ∧ interrogated.At (1, 100) ∧
    spontaneous.object.quality = Quality.GOOD.union .NOT_TOPICAL ∧
    interrogated.object.quality = .GOOD := by
  have h := Machine.run_of_exec (M := nats .aging)
    (replayAfterArrival agingMessage (.sample 10) (.sample 3)) rfl
  exact ⟨_, _, .sample 10, spontaneousFrame NatsSettings.aging.core agingMessage (.sample 10),
    replayFrame NatsSettings.aging.core (.sample 3) ⟨agingMessage, .sample 10⟩, h, by decide, by decide,
    ⟨rfl, rfl⟩, ⟨rfl, rfl⟩, by decide, by decide⟩

end Iec104Bridge
