import Iec104Bridge.Model.Nats

/-!
# JetStream, and the restarts of the bridge

`get_or_create_consumer` creates a durable pull consumer with explicit
acknowledgements, or attaches to one that exists. What this consumer delivers, how
often and until when is decided by the NATS server and by limits that are not in
this repository, so it is any `Consumer`. An acknowledgement reaches it any number
of times after the bridge sent it, or never. The process may crash at any point
and start again: its data store is gone, and it numbers its deliveries afresh.
-/

namespace Iec104Bridge

open Framework

variable {S A : Type}

/-- A consumer on the NATS server, with the client library that fetches from it. -/
structure Consumer (S A : Type) where
  init : S
  /-- What happens without the bridge: messages are published or removed, timers
  run out, connections are lost. -/
  step : S → A → Option S
  /-- The message with a sequence number, if it can be delivered. -/
  delivers : S → Nat → Option (List UInt8)
  delivered : S → Nat → S
  /-- An acknowledgement arrives. -/
  acknowledge : S → Nat → S
  acked : S → Nat → Bool

/-- `AckPolicy::Explicit`: a message is acknowledged by its own acknowledgement only. -/
structure Consumer.ExplicitAck (consumer : Consumer S A) : Prop where
  step {s t : S} {a : A} {seq : Nat} : consumer.step s a = some t →
    consumer.acked t seq = true → consumer.acked s seq = true
  delivered {s : S} {seq seq' : Nat} :
    consumer.acked (consumer.delivered s seq') seq = true → consumer.acked s seq = true
  acknowledge {s : S} {seq seq' : Nat} :
    consumer.acked (consumer.acknowledge s seq') seq = true → seq = seq' ∨ consumer.acked s seq = true

structure StreamState (S : Type) where
  bridge : NatsState
  consumer : S
  /-- The messages the bridge took since it started. -/
  taken : List Nat
  /-- The messages the bridge acknowledged, in any of its lives. -/
  sent : List Nat

inductive StreamEvent (A : Type)
  | consumer (event : A)
  | deliver (seq : Nat) (now : OffsetDateTime)
  | bridge (event : NatsEvent)
  /-- An acknowledgement reaches the consumer. -/
  | arrive (seq : Nat)
  | crash

structure StreamEffect where
  effect : NatsEffect
  /-- The message, if this is its delivery. -/
  seq : Option Nat

/-- The delivery that the bridge acknowledges. -/
def NatsEffect.ack : NatsEffect → Option Nat
  | .core (.acked id) | .rejectAcked id => some id
  | _ => none

def NatsEvent.isTake : NatsEvent → Bool
  | .take .. => true
  | _ => false

def streamStep (consumer : Consumer S A) (cfg : NatsSettings) (s : StreamState S) :
    StreamEvent A → Option (StreamState S × Option (Option StreamEffect))
  | .consumer event => (consumer.step s.consumer event).map fun t => ({ s with consumer := t }, none)
  | .deliver seq now =>
    match consumer.delivers s.consumer seq with
    | none => none
    | some payload =>
      ((nats cfg).step s.bridge (.take payload now)).map fun r =>
        ({ s with
          bridge := r.1
          consumer := consumer.delivered s.consumer seq
          taken := s.taken ++ [seq] },
          r.2.map fun e => some ⟨e, some seq⟩)
  | .bridge event =>
    if event.isTake then none
    else
      ((nats cfg).step s.bridge event).map fun r =>
        ({ s with
          bridge := r.1
          sent := s.sent ++ ((r.2.bind NatsEffect.ack).bind fun id => s.taken[id]?).toList },
          r.2.map fun e => some ⟨e, none⟩)
  | .arrive seq =>
    if seq ∈ s.sent then some ({ s with consumer := consumer.acknowledge s.consumer seq }, none)
    else none
  | .crash => some ({ s with bridge := (nats cfg).init, taken := [] }, some none)

/-- The bridge with its consumer. It logs what the bridge does, and `none` for a crash. -/
def jetStream (consumer : Consumer S A) (cfg : NatsSettings) :
    Machine (StreamState S) (StreamEvent A) (Option StreamEffect) where
  init := ⟨(nats cfg).init, consumer.init, [], []⟩
  step := streamStep consumer cfg

end Iec104Bridge
