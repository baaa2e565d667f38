import Iec104Bridge.Model.Nats
import Iec104Bridge.Proof.Unix

/-!
# What the NATS input does

`NatsStep` says everything a step can do. The NATS input runs the process
(`nats_process`), and it is a worker that takes one delivery at a time, valid
or not (`nats_worker`), in the order of their numbers (`deliveries_eq`).
-/

namespace Iec104Bridge

open Framework

variable {cfg : NatsSettings} {s t : NatsState} {w : List NatsEffect}

/-- What a step can do. -/
inductive NatsStep (cfg : NatsSettings) (s : NatsState) : NatsState → Option NatsEffect → Prop
  /-- The main loop goes on with the message it is at, stops while a rejected
  delivery is acknowledged, or a callback runs. -/
  | core {event : Event Nat} {u : State Nat} {o : Option (Effect Nat)} :
    (process Nat cfg.core).step s.core event = some (u, o) →
    (∀ id message now, event ≠ .task (.receive id message now)) →
    (s.rejecting = none ∨ event = .task .ctrlC ∨ ∃ conn e, event = .gi conn e) →
    NatsStep cfg s { s with core := u } (o.map .core)
  | accept {payload : List UInt8} {message : Iec104Message} {now : OffsetDateTime} :
    s.core.task = .selecting → s.rejecting = none → decodePayload cfg.parse payload = some message →
    NatsStep cfg s
      { s with core := { s.core with task := .received s.next message now }, next := s.next + 1 }
      (some (.accepted s.next payload message now))
  | reject {payload : List UInt8} :
    s.core.task = .selecting → s.rejecting = none → decodePayload cfg.parse payload = none →
    NatsStep cfg s { s with rejecting := some s.next, next := s.next + 1 }
      (some (.rejected s.next payload))
  | ackRejected {id : Nat} {ok : Bool} : s.core.task = .selecting → s.rejecting = some id →
    NatsStep cfg s { s with rejecting := none }
      (some (if ok then .rejectAcked id else .rejectAckFailed id))

theorem NatsState.coreStep_cases {event : Event Nat} {o : Option NatsEffect}
    (h : s.coreStep cfg event = some (t, o))
    (he : ∀ id message now, event ≠ .task (.receive id message now))
    (hr : s.rejecting = none ∨ event = .task .ctrlC ∨ ∃ conn e, event = .gi conn e) :
    NatsStep cfg s t o := by
  simp only [NatsState.coreStep] at h
  split at h <;> cases h
  exact .core ‹_› he hr

theorem natsStep_cases {e : NatsEvent} {o : Option NatsEffect}
    (h : (nats cfg).step s e = some (t, o)) : NatsStep cfg s t o := by
  cases e with
  | main event =>
    simp only [nats, natsStep] at h
    split at h
    · exact NatsState.coreStep_cases h (by simp) (.inr (.inl rfl))
    all_goals first
      | exact NatsState.coreStep_cases h (by simp) (.inl ‹_›)
      | cases h
  | take payload now =>
    simp only [nats, natsStep] at h
    split at h <;> [skip; cases h]
    split at h <;> cases h
    · exact .accept ‹_› ‹_› ‹_›
    · exact .reject ‹_› ‹_› ‹_›
  | streamError | streamEnd =>
    simp only [nats, natsStep] at h
    split at h <;> [skip; cases h]
    exact NatsState.coreStep_cases h (by simp) (.inl ‹_›)
  | ackRejected ok =>
    simp only [nats, natsStep] at h
    split at h <;> cases h
    exact .ackRejected ‹_› ‹_›
  | gi conn event => exact NatsState.coreStep_cases h (by simp) (.inr (.inr ⟨conn, event, rfl⟩))

theorem decodePayload_valid {parse : Parser} {payload : List UInt8} {message : Iec104Message}
    (h : decodePayload parse payload = some message) : message.Valid := by
  unfold decodePayload at h
  split at h
  · cases h
  · split at h <;> cases h
    rename_i hv
    show (validateMessage message).isOk = true
    rw [hv]
    rfl

/-! ## The process inside -/

def NatsEffect.toCore : NatsEffect → Option (Effect Nat)
  | .core e => some e
  | .accepted id _ message now => some (.received id message now)
  | _ => none

/-- The NATS input runs the process. -/
theorem nats_process (cfg : NatsSettings) :
    Machine.Simulation (nats cfg) (process Nat cfg.core) NatsState.core NatsEffect.toCore where
  init := rfl
  step {s t a o} h := by
    cases natsStep_cases h with
    | @core event u o hs =>
      have ho : (o.map NatsEffect.core).bind NatsEffect.toCore = o := by cases o <;> rfl
      rw [ho]
      exact .inl ⟨event, hs⟩
    | @accept payload message now ht _ hd =>
      refine .inl ⟨.task (.receive s.next message now), ?_⟩
      simp only [process, taskStep, ht, decodePayload_valid hd, if_true]
      rfl
    | reject => exact .inr ⟨rfl, rfl⟩
    | @ackRejected id ok =>
      refine .inr ⟨rfl, ?_⟩
      cases ok <;> rfl

/-- What an effect is for the source and the main loop, which take one delivery
at a time. -/
def NatsEffect.toWorker : NatsEffect → Option (Worker.Effect Nat)
  | .core e => e.toWorker
  | .accepted id .. | .rejected id _ => some (.taken id)
  | .rejectAcked id => some (.finished id)
  | .rejectAckFailed id => some (.failed id)

/-- The delivery that is acknowledged next. -/
def NatsState.current (s : NatsState) : Option Nat := s.rejecting.or s.core.task.current

theorem nats_worker (cfg : NatsSettings) :
    Machine.Simulation (nats cfg) (Worker.machine Nat) NatsState.current NatsEffect.toWorker where
  init := rfl
  step {s t a o} h := by
    cases natsStep_cases h with
    | @core event u o hs _ hr =>
      have ho : (o.map NatsEffect.core).bind NatsEffect.toWorker = o.bind Effect.toWorker := by
        cases o <;> rfl
      rw [ho]
      rcases hr with hr | rfl | ⟨conn, e, rfl⟩
      · -- no rejected delivery is in the way
        simp only [NatsState.current, hr, Option.none_or]
        exact (process_worker Nat cfg.core).step hs
      · refine .inr ⟨?_, ?_⟩
        · simp only [process, taskStep] at hs
          split at hs <;> cases hs <;> simp only [NatsState.current, *] <;> rfl
        · simp only [process, taskStep] at hs
          split at hs <;> cases hs <;> rfl
      · have hg := giStep_cases hs
        refine .inr ⟨by simp only [NatsState.current, hg.frame.2.1], ?_⟩
        cases hg <;> rfl
    | accept ht hr =>
      refine .inl ⟨.take s.next, ?_⟩
      simp only [NatsState.current, ht, hr]
      rfl
    | reject ht hr =>
      refine .inl ⟨.take s.next, ?_⟩
      simp only [NatsState.current, ht, hr]
      rfl
    | @ackRejected id ok ht hr =>
      refine .inl ⟨.finish ok, ?_⟩
      simp only [NatsState.current, ht, hr]
      cases ok <;> rfl

/-- The deliveries taken from the stream, in order. -/
def deliveries (w : List NatsEffect) : List Nat := Worker.taken (w.filterMap NatsEffect.toWorker)

theorem deliveries_append (w w' : List NatsEffect) :
    deliveries (w ++ w') = deliveries w ++ deliveries w' := by
  rw [deliveries, List.filterMap_append, Worker.taken_append]
  rfl

/-- Deliveries are numbered in the order taken. -/
theorem deliveries_eq (h : (nats cfg).Run w s) : deliveries w = List.range s.next := by
  refine h.invariant (P := fun w s => deliveries w = List.range s.next) rfl
    fun w s a t o _ ih hs => ?_
  rw [deliveries_append, ih]
  cases natsStep_cases hs with
  | @core event u o hp he =>
    have ho : deliveries (o.map NatsEffect.core).toList = [] := by
      cases o with
      | none => rfl
      | some e =>
        cases e with
        | received id message now => exact absurd (event_of_received hp) (he id message now)
        | _ => rfl
    rw [ho, List.append_nil]
  | accept | reject => exact List.range_succ.symm
  | @ackRejected id ok =>
    have ho : deliveries (some (if ok then NatsEffect.rejectAcked id else .rejectAckFailed id)).toList
        = [] := by
      cases ok <;> rfl
    rw [ho, List.append_nil]

/-! ## Sample inputs -/

def NatsSettings.sample : NatsSettings where
  core := .sample
  parse payload := if payload = sampleRequest then some (.sample 100 true) else none

end Iec104Bridge
