import Iec104Bridge.Framework.Refinement
import Iec104Bridge.Framework.Restart
import Iec104Bridge.Model.JetStream
import Iec104Bridge.Proof.Acks

/-!
# At least once

Whatever is delivered to the bridge and wherever it crashes, its data store is
that of the deliveries of the present life (`store_of_deliveries`). With a
consumer in front, `StreamStep` says what a step can do, and each life of the
bridge is a run of the NATS input (`stream_lives`). A message that the bridge had
acknowledged to the consumer was acknowledged in some life, so it had its effect
there; and what the consumer delivers is taken whenever the bridge waits
(`message_not_lost`).
-/

namespace Iec104Bridge

open Framework

variable {cfg : NatsSettings}

/-! ## The deliveries of a life -/

/-- What is delivered. -/
def NatsEffect.payload : NatsEffect → Option (List UInt8)
  | .accepted _ payload .. | .rejected _ payload => some payload
  | _ => none

/-- What was delivered in a life, in the order taken. -/
def payloads (l : List NatsEffect) : List (List UInt8) := l.filterMap NatsEffect.payload

/-- The messages among it. -/
def deliveredMessages (cfg : NatsSettings) (l : List NatsEffect) : List Iec104Message :=
  (payloads l).filterMap (decodePayload cfg.parse)

section

variable {l : List NatsEffect} {b : NatsState}

theorem arrivals_of_deliveries (h : (nats cfg).Run l b) :
    (arrivals (natsLog l)).map CachedPoint.message = deliveredMessages cfg l := by
  rw [arrivals, natsLog, List.filterMap_filterMap, List.map_filterMap, deliveredMessages, payloads,
    List.filterMap_filterMap]
  refine List.filterMap_congr fun e he => ?_
  have hsound := sound_of_mem h he
  cases e with
  | core e =>
    cases e with
    | received => exact hsound.elim
    | _ => rfl
  | accepted => exact Eq.symm hsound
  | rejected => exact Eq.symm hsound
  | _ => rfl

/-- When the bridge waits, it has written what was delivered. -/
theorem written_of_deliveries (h : (nats cfg).Run l b) (hw : b.core.task = .selecting) :
    (writes (natsLog l)).map CachedPoint.message = deliveredMessages cfg l := by
  have harr := arrivals_eq ((nats_process cfg).run h)
  rw [hw] at harr
  rw [← arrivals_of_deliveries h, natsLog, harr]
  exact congrArg _ (List.append_nil _).symm

end

/-- When the bridge waits, its data store is that of the present life, whatever was
delivered and however often: at each key, the last valid message since the bridge
started. -/
theorem store_of_deliveries {w : List (Option NatsEffect)} {s : NatsState}
    (h : (Machine.restarts (nats cfg)).Run w s) (hw : s.core.task = .selecting) (k : Key) :
    (s.core.cache.lookup k).map CachedPoint.message =
      lastAt (Iec104Message.key cfg.core.defaultCa) k (deliveredMessages cfg (Machine.life w)) := by
  have hlife := Machine.restarts_life h
  rw [← written_of_deliveries hlife hw, lastAt_map, cache_lookup ((nats_process cfg).run hlife)]
  rfl

/-- The main loop waits for messages. -/
def TaskPhase.waits : TaskPhase Nat → Bool
  | .selecting => true
  | _ => false

theorem selecting_of_waits {task : TaskPhase Nat} (h : task.waits = true) : task = .selecting := by
  cases task <;> first | rfl | cases h

def handleDelivery : List NatsEvent :=
  [.main .insert, .main .dispatch, .main (.ack true), .main .count]

/-- A life that ends before its acknowledgement. -/
def cutShort : List NatsEvent := [.main (.build true), .take sampleRequest (.sample 1), .main .insert]

/-- The message again, and one that does not parse. -/
def deliveredAgain : List NatsEvent :=
  [.main (.build true), .take sampleRequest (.sample 2)] ++ handleDelivery ++
    [.take (asciiBytes "what?") (.sample 3), .ackRejected true]

theorem store_of_deliveries_sample : ∃ w s, (Machine.restarts (nats .sample)).Run w s ∧
    (s.core.cache.lookup (1, 100)).map CachedPoint.message = some (.sample 100 true) := by
  obtain ⟨w, s, h, hs⟩ := Machine.exists_run_of_exec (M := Machine.restarts (nats .sample))
    (cutShort.map some ++ [none] ++ deliveredAgain.map some)
    (fun w s => (s.core.task.waits, payloads (Machine.life w),
      decide (deliveredMessages .sample (Machine.life w) = [.sample 100 true])))
    (true, [sampleRequest, asciiBytes "what?"], true) (by decide +kernel)
  simp only [Prod.mk.injEq, decide_eq_true_eq] at hs
  obtain ⟨hw, -, hm⟩ := hs
  refine ⟨w, s, h, (store_of_deliveries h (selecting_of_waits hw) (1, 100)).trans ?_⟩
  rw [hm]
  decide +kernel

/-! ## The bridge with its consumer -/

variable {S A : Type} {consumer : Consumer S A} {s t : StreamState S} {w : List (Option StreamEffect)}

/-- What a step can do. -/
inductive StreamStep (consumer : Consumer S A) (cfg : NatsSettings) (s : StreamState S) :
    StreamState S → Option (Option StreamEffect) → Prop
  | consumer {event : A} {c : S} : consumer.step s.consumer event = some c →
    StreamStep consumer cfg s { s with consumer := c } none
  | deliver {seq : Nat} {payload : List UInt8} {now : OffsetDateTime} {b : NatsState}
    {e : Option NatsEffect} : consumer.delivers s.consumer seq = some payload →
    (nats cfg).step s.bridge (.take payload now) = some (b, e) →
    StreamStep consumer cfg s
      { s with
        bridge := b
        consumer := consumer.delivered s.consumer seq
        taken := s.taken ++ [seq] }
      (e.map fun e => some ⟨e, some seq⟩)
  | bridge {event : NatsEvent} {b : NatsState} {e : Option NatsEffect} : event.isTake = false →
    (nats cfg).step s.bridge event = some (b, e) →
    StreamStep consumer cfg s
      { s with
        bridge := b
        sent := s.sent ++ ((e.bind NatsEffect.ack).bind fun id => s.taken[id]?).toList }
      (e.map fun e => some ⟨e, none⟩)
  | arrive {seq : Nat} : seq ∈ s.sent →
    StreamStep consumer cfg s { s with consumer := consumer.acknowledge s.consumer seq } none
  | crash : StreamStep consumer cfg s { s with bridge := (nats cfg).init, taken := [] } (some none)

theorem streamStep_cases {e : StreamEvent A} {o : Option (Option StreamEffect)}
    (h : (jetStream consumer cfg).step s e = some (t, o)) : StreamStep consumer cfg s t o := by
  cases e with
  | consumer event =>
    obtain ⟨c, hc, he⟩ := Option.map_eq_some_iff.mp h
    cases he
    exact .consumer hc
  | deliver seq now =>
    simp only [jetStream, streamStep] at h
    split at h <;> [cases h; skip]
    obtain ⟨⟨b, e⟩, hb, he⟩ := Option.map_eq_some_iff.mp h
    cases he
    exact .deliver ‹_› hb
  | bridge event =>
    simp only [jetStream, streamStep] at h
    split at h <;> [cases h; skip]
    rename_i htake
    obtain ⟨⟨b, e⟩, hb, he⟩ := Option.map_eq_some_iff.mp h
    cases he
    exact .bridge (Bool.not_eq_true _ ▸ htake) hb
  | arrive seq =>
    simp only [jetStream, streamStep] at h
    split at h <;> cases h
    exact .arrive ‹_›
  | crash =>
    cases h
    exact .crash

/-! ## The lives of the bridge -/

/-- The bridge restarts, whatever the consumer does. -/
theorem stream_restarts (consumer : Consumer S A) (cfg : NatsSettings) :
    Machine.Simulation (jetStream consumer cfg) (Machine.restarts (nats cfg)) StreamState.bridge
      fun e => some (e.map StreamEffect.effect) where
  init := rfl
  step {s t a o} h := by
    cases streamStep_cases h with
    | consumer | arrive => exact .inr ⟨rfl, rfl⟩
    | @deliver seq payload now b e _ hb =>
      refine .inl ⟨some (.take payload now), ?_⟩
      simp only [Machine.restarts, hb]
      cases e <;> rfl
    | @bridge event b e _ hb =>
      refine .inl ⟨some event, ?_⟩
      simp only [Machine.restarts, hb]
      cases e <;> rfl
    | crash => exact .inl ⟨none, rfl⟩

/-- Each life is a run. -/
theorem stream_lives (h : (jetStream consumer cfg).Run w s) {l : List StreamEffect}
    (hl : l ∈ Machine.allLives w) : ∃ b, (nats cfg).Run (l.map StreamEffect.effect) b := by
  refine Machine.restarts_allLives ((stream_restarts consumer cfg).run h) ?_
  rw [List.filterMap_eq_map', Machine.allLives_map]
  exact List.mem_map_of_mem hl

/-! ## Deliveries -/

theorem coreStep_next {b b' : NatsState} {event : Event Nat} {e : Option NatsEffect}
    (h : b.coreStep cfg event = some (b', e)) : b'.next = b.next := by
  simp only [NatsState.coreStep] at h
  split at h <;> cases h
  rfl

/-- The delivery that the bridge takes. -/
def NatsEffect.delivery : NatsEffect → Option Nat
  | .accepted id .. | .rejected id _ => some id
  | _ => none

/-- A delivery takes the next number. -/
theorem take_cases {b b' : NatsState} {payload : List UInt8} {now : OffsetDateTime}
    {e : Option NatsEffect} (h : (nats cfg).step b (.take payload now) = some (b', e)) :
    b'.next = b.next + 1 ∧ ∃ x, e = some x ∧ x.delivery = some b.next := by
  simp only [nats, natsStep] at h
  split at h <;> [skip; cases h]
  split at h <;> cases h <;> exact ⟨rfl, _, rfl, rfl⟩

/-- No other event does. -/
theorem next_of_event {b b' : NatsState} {event : NatsEvent} {e : Option NatsEffect}
    (h : (nats cfg).step b event = some (b', e)) (hev : event.isTake = false) : b'.next = b.next := by
  cases event with
  | take => cases hev
  | main event =>
    simp only [nats, natsStep] at h
    split at h <;> first | exact coreStep_next h | cases h
  | streamError | streamEnd =>
    simp only [nats, natsStep] at h
    split at h <;> [exact coreStep_next h; cases h]
  | ackRejected ok =>
    simp only [nats, natsStep] at h
    split at h <;> cases h
    rfl
  | gi conn event => exact coreStep_next h

/-- The delivery `id` of a life is one of the message. -/
def Took (l : List StreamEffect) (id seq : Nat) : Prop :=
  ∃ e, ⟨e, some seq⟩ ∈ l ∧ e.delivery = some id

theorem Took.mono {l l' : List StreamEffect} {id seq : Nat} (h : Took l id seq) (hl : l ⊆ l') :
    Took l' id seq := by
  obtain ⟨e, he, hid⟩ := h
  exact ⟨e, hl he, hid⟩

/-- The deliveries of the present life are numbered as they were taken. -/
structure Deliveries (s : StreamState S) (l : List StreamEffect) : Prop where
  numbered : s.taken.length = s.bridge.next
  took (id seq : Nat) : s.taken[id]? = some seq → Took l id seq

theorem deliveries_of_run (h : (jetStream consumer cfg).Run w s) : Deliveries s (Machine.life w) := by
  refine h.invariant (P := fun w s => Deliveries s (Machine.life w))
    ⟨rfl, fun _ _ h => by simp [jetStream] at h⟩ fun w s a t o _ ih hs => ?_
  cases streamStep_cases hs with
  | consumer | arrive =>
    rw [Option.toList_none, List.append_nil]
    exact ⟨ih.numbered, ih.took⟩
  | @deliver seq payload now b e hp hb =>
    obtain ⟨hnext, x, rfl, hx⟩ := take_cases hb
    rw [Option.map_some, Option.toList_some, Machine.life_effect]
    refine ⟨by simp [ih.numbered, hnext], fun id seq' hid => ?_⟩
    rw [List.getElem?_append] at hid
    split at hid
    · exact (ih.took id seq' hid).mono (List.subset_append_left _ _)
    · -- the message just taken
      obtain ⟨hlt, rfl⟩ := List.getElem?_eq_some_iff.mp hid
      have hlen : id - s.taken.length < 1 := hlt
      obtain rfl : id = s.bridge.next := by
        rw [← ih.numbered]
        omega
      exact ⟨x, by simp, hx⟩
  | @bridge event b e htake hb =>
    have hnext := next_of_event hb htake
    refine ⟨ih.numbered.trans hnext.symm, fun id seq hid => (ih.took id seq hid).mono ?_⟩
    cases e with
    | none => simp
    | some e => simp
  | crash =>
    rw [Option.toList_some, Machine.life_crash]
    exact ⟨rfl, fun _ _ h => by simp at h⟩

/-! ## Acknowledgements -/

/-- What the bridge does in a life. -/
def bridgeLog (l : List StreamEffect) : List NatsEffect := l.map StreamEffect.effect

/-- The message was acknowledged in some life. -/
def AckedIn (ls : List (List StreamEffect)) (seq : Nat) : Prop :=
  ∃ l ∈ ls, ∃ id, Took l id seq ∧ id ∈ acknowledged (bridgeLog l)

theorem acknowledged_mono {l l' : List NatsEffect} (h : l ⊆ l') : acknowledged l ⊆ acknowledged l' :=
  List.filterMap_subset _ (List.filterMap_subset _ h)

theorem AckedIn.concat {seq : Nat} {o : Option (Option StreamEffect)}
    (h : AckedIn (Machine.allLives w) seq) : AckedIn (Machine.allLives (w ++ o.toList)) seq := by
  obtain ⟨l, hl, id, ht, ha⟩ := h
  obtain ⟨l', hl', hsub⟩ := Machine.allLives_concat w o l hl
  exact ⟨l', hl', id, ht.mono hsub, acknowledged_mono (List.map_subset _ hsub) ha⟩

theorem acknowledged_of_ack {l : List NatsEffect} {e : NatsEffect} {id : Nat} (h : e.ack = some id)
    (he : e ∈ l) : id ∈ acknowledged l := by
  rw [mem_acknowledged]
  cases e with
  | core e =>
    cases e with
    | acked =>
      cases h
      exact .inl (List.mem_filterMap.mpr ⟨_, he, rfl⟩)
    | _ => cases h
  | rejectAcked =>
    cases h
    exact .inr he
  | _ => cases h

/-- An acknowledgement that was sent is one of some life. -/
theorem ackedIn_of_sent (h : (jetStream consumer cfg).Run w s) :
    ∀ seq ∈ s.sent, AckedIn (Machine.allLives w) seq := by
  refine h.invariant (P := fun w s => ∀ seq ∈ s.sent, AckedIn (Machine.allLives w) seq)
    (fun _ h => by cases h) fun w s a t o hr ih hs seq hseq => ?_
  cases streamStep_cases hs with
  | @bridge event b e _ hb =>
    rcases List.mem_append.mp hseq with hseq | hseq
    · exact (ih seq hseq).concat
    · -- the acknowledgement of a delivery of this life
      obtain ⟨id, hid, htaken⟩ := Option.bind_eq_some_iff.mp (Option.mem_toList.mp hseq)
      obtain ⟨e, rfl, hack⟩ := Option.bind_eq_some_iff.mp hid
      refine ⟨_, Machine.life_mem_allLives _, id, ?_, acknowledged_of_ack hack ?_⟩
      · rw [Option.map_some, Option.toList_some, Machine.life_effect]
        exact ((deliveries_of_run hr).took id seq htaken).mono (List.subset_append_left _ _)
      · rw [Option.map_some, Option.toList_some, Machine.life_effect, bridgeLog, List.map_append]
        simp
  | _ => exact (ih seq hseq).concat

/-- What the consumer has as acknowledged, the bridge has acknowledged. -/
theorem ackedIn_of_acked (hacks : consumer.ExplicitAck) (h : (jetStream consumer cfg).Run w s) {seq : Nat}
    (ha : consumer.acked s.consumer seq = true) :
    consumer.acked consumer.init seq = true ∨ AckedIn (Machine.allLives w) seq := by
  suffices hs : consumer.acked s.consumer seq = true →
      consumer.acked consumer.init seq = true ∨ seq ∈ s.sent from
    (hs ha).imp_right (ackedIn_of_sent h seq)
  refine h.invariant (P := fun _ s => consumer.acked s.consumer seq = true →
    consumer.acked consumer.init seq = true ∨ seq ∈ s.sent) .inl fun w s a t o _ ih hs ha => ?_
  cases streamStep_cases hs with
  | consumer hc => exact ih (hacks.step hc ha)
  | deliver => exact ih (hacks.delivered ha)
  | bridge => exact (ih ha).imp_right (List.mem_append_left _)
  | arrive hm =>
    rcases hacks.acknowledge ha with rfl | ha
    · exact .inr hm
    · exact ih ha
  | crash => exact ih ha

/-- The effect of a message in a life, under the number of one of its deliveries: it
was inserted, and handed to the server unless the bridge is in GI-only mode; one
that is not valid changed nothing. -/
def Effected (cfg : NatsSettings) (l : List StreamEffect) (seq : Nat) : Prop :=
  ∃ id payload, match decodePayload cfg.parse payload with
    | some message => ∃ now, ⟨.accepted id payload message now, some seq⟩ ∈ l ∧
        .inserted id ⟨message, now⟩ ∈ natsLog (bridgeLog l) ∧
        handedFor id (natsLog (bridgeLog l)) = spontaneousFor cfg.core message now
    | none => ⟨.rejected id payload, some seq⟩ ∈ l ∧ Untouched id (natsLog (bridgeLog l))

theorem effected_of_acked {l : List StreamEffect} {b : NatsState} (h : (nats cfg).Run (bridgeLog l) b)
    {id seq : Nat} (ht : Took l id seq) (ha : id ∈ acknowledged (bridgeLog l)) : Effected cfg l seq := by
  have hacks := natsAcks_of_run h
  obtain ⟨e, he, hid⟩ := ht
  have hm : e ∈ bridgeLog l := List.mem_map_of_mem (f := StreamEffect.effect) he
  cases e with
  | accepted _ payload message now =>
    cases hid
    refine ⟨id, payload, ?_⟩
    have hdec : decodePayload cfg.parse payload = some message := sound_of_mem h hm
    rw [hdec]
    have hrec : Effect.received id message now ∈ natsLog (bridgeLog l) :=
      List.mem_filterMap.mpr ⟨_, hm, rfl⟩
    have hack : Effect.acked id ∈ natsLog (bridgeLog l) := by
      refine (hacks.acked id ha).resolve_right ?_
      rintro ⟨payload', hrej⟩
      exact (hacks.rejected id payload' hrej).2 _ hrec rfl
    obtain ⟨w₁, w₂, hw⟩ := List.append_of_mem hack
    obtain ⟨message', now', hrec', hins, -, hhand⟩ := hacks.process.effect id w₁ w₂ hw
    have hsub : w₁ ⊆ natsLog (bridgeLog l) := by
      rw [hw]
      exact List.subset_append_left _ _
    -- a delivery is received once
    have hn := natsLog_nodup h
    rw [takenIds, Worker.taken, List.filterMap_filterMap] at hn
    cases eq_of_filterMap_nodup (x := id) hn hrec (hsub hrec') rfl rfl
    exact ⟨now, he, hsub hins, hhand⟩
  | rejected _ payload =>
    cases hid
    obtain ⟨hdec, hu⟩ := hacks.rejected id payload hm
    refine ⟨id, payload, ?_⟩
    rw [hdec]
    exact ⟨he, hu⟩
  | _ => cases hid

/-- The bridge takes what is delivered, when it waits for messages. -/
theorem deliver_step {seq : Nat} {payload : List UInt8}
    (hp : consumer.delivers s.consumer seq = some payload) (ht : s.bridge.core.task = .selecting)
    (hr : s.bridge.rejecting = none) (now : OffsetDateTime) :
    ∃ t o, (jetStream consumer cfg).step s (.deliver seq now) = some (t, o) ∧ t.taken = s.taken ++ [seq] := by
  have htake : ∃ r, (nats cfg).step s.bridge (.take payload now) = some r := by
    simp only [nats, natsStep, ht, hr]
    cases decodePayload cfg.parse payload <;> exact ⟨_, rfl⟩
  obtain ⟨r, hr⟩ := htake
  refine ⟨{ s with
    bridge := r.1
    consumer := consumer.delivered s.consumer seq
    taken := s.taken ++ [seq] }, r.2.map fun e => some ⟨e, some seq⟩, ?_, rfl⟩
  simp only [jetStream, streamStep, hp, hr, Option.map_some]

/-- Messages are not lost in the bridge, whatever crashes. What the consumer has as
acknowledged, and had not before, had its effect in some life of the bridge; and
what the consumer delivers is taken whenever the bridge waits for messages, which
it does once more after it crashed and built its source. -/
theorem message_not_lost (hacks : consumer.ExplicitAck) (h : (jetStream consumer cfg).Run w s) (seq : Nat) :
    (consumer.acked s.consumer seq = true → consumer.acked consumer.init seq = true ∨
      ∃ l ∈ Machine.allLives w, (∃ b, (nats cfg).Run (bridgeLog l) b) ∧ Effected cfg l seq) ∧
    ∀ payload now, consumer.delivers s.consumer seq = some payload →
      (s.bridge.core.task = .selecting → s.bridge.rejecting = none →
        ∃ t o, (jetStream consumer cfg).step s (.deliver seq now) = some (t, o) ∧
          t.taken = s.taken ++ [seq]) ∧
      ∃ t w', (jetStream consumer cfg).exec s [.crash, .bridge (.main (.build true)), .deliver seq now] =
        some (t, w') ∧ t.taken = [seq] := by
  refine ⟨fun ha => (ackedIn_of_acked hacks h ha).imp_right ?_, fun payload now hp => ⟨fun ht hr => ?_, ?_⟩⟩
  · rintro ⟨l, hl, id, ht, hack⟩
    obtain ⟨b, hb⟩ := stream_lives h hl
    exact ⟨l, hl, ⟨b, hb⟩, effected_of_acked hb ht hack⟩
  · exact deliver_step hp ht hr now
  · -- a new life, with its source built
    let b : NatsState := { (nats cfg).init with core := { State.initial Nat with task := .selecting } }
    let s' : StreamState S := { s with bridge := b, taken := [], sent := s.sent ++ [] }
    have hp' : consumer.delivers s'.consumer seq = some payload := hp
    obtain ⟨t, o, hs, ht⟩ : ∃ t o, (jetStream consumer cfg).step s' (.deliver seq now) = some (t, o) ∧
        t.taken = s'.taken ++ [seq] := deliver_step hp' rfl rfl now
    refine ⟨t, none :: some ⟨.core (.built true), none⟩ :: (o.toList ++ []), ?_, ht⟩
    have hcrash : (jetStream consumer cfg).step s .crash =
        some ({ s with bridge := (nats cfg).init, taken := [] }, some none) := rfl
    have hbuild : (jetStream consumer cfg).step { s with bridge := (nats cfg).init, taken := [] }
        (.bridge (.main (.build true))) = some (s', some (some ⟨.core (.built true), none⟩)) := rfl
    simp only [Machine.exec, hcrash, hbuild, hs]
    rfl

/-! ## A consumer -/

/-- A stream, and the acknowledgements that arrived. -/
structure StreamSample where
  published : List (List UInt8)
  acks : List Nat

/-- Delivers each message until it is acknowledged. -/
def Consumer.sample : Consumer StreamSample (List UInt8) where
  init := ⟨[], []⟩
  step s payload := some { s with published := s.published ++ [payload] }
  delivers s seq := if seq ∈ s.acks then none else s.published[seq]?
  delivered s _ := s
  acknowledge s seq := { s with acks := s.acks ++ [seq] }
  acked s seq := seq ∈ s.acks

theorem Consumer.sample_explicitAck : Consumer.sample.ExplicitAck where
  step h ha := by
    cases h
    exact ha
  delivered h := h
  acknowledge {s seq seq'} h := by
    have hm : seq ∈ s.acks ∨ seq = seq' := by simpa [Consumer.sample] using h
    exact hm.symm.imp_right fun hm => by simpa [Consumer.sample] using hm

/-- The bridge crashes before it acknowledges the second message. -/
def redelivered : List (StreamEvent (List UInt8)) :=
  [.bridge (.main (.build true)), .consumer sampleRequest, .consumer sampleRequest,
    .deliver 0 (.sample 1)] ++ handleDelivery.map .bridge ++
    [.arrive 0, .deliver 1 (.sample 2), .bridge (.main .insert), .crash,
      .bridge (.main (.build true)), .deliver 1 (.sample 3)] ++ handleDelivery.map .bridge

/-- The first message had its effect; the second one is delivered until its
acknowledgement arrives. -/
theorem message_not_lost_sample : ∃ w s, (jetStream .sample .sample).Run w s ∧
    (∃ l ∈ Machine.allLives w, Effected .sample l 0) ∧
    ∃ t o, (jetStream .sample .sample).step s (.deliver 1 (.sample 4)) = some (t, o) ∧ t.taken = [1, 1] := by
  obtain ⟨w, s, h, hs⟩ := Machine.exists_run_of_exec (M := jetStream .sample .sample) redelivered
    (fun _ s => (s.bridge.core.task.waits && s.bridge.rejecting.isNone &&
      Consumer.sample.acked s.consumer 0, s.taken, Consumer.sample.delivers s.consumer 1))
    (true, [1], some sampleRequest) (by decide +kernel)
  simp only [Prod.mk.injEq, Bool.and_eq_true, Option.isNone_iff_eq_none] at hs
  obtain ⟨⟨⟨hw, hr⟩, ha⟩, ht, hd⟩ := hs
  obtain ⟨l, hl, -, heff⟩ := ((message_not_lost Consumer.sample_explicitAck h 0).1 ha).resolve_left
    (by decide)
  obtain ⟨t, o, hstep, ht'⟩ := ((message_not_lost Consumer.sample_explicitAck h 1).2 sampleRequest
    (.sample 4) hd).1 (selecting_of_waits hw) hr
  exact ⟨w, s, h, ⟨l, hl, heff⟩, t, o, hstep, by rw [ht', ht]; rfl⟩

end Iec104Bridge
