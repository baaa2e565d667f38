import Iec104Bridge.Model.Line
import Iec104Bridge.Model.Process

/-!
# The NATS input (`source.rs`)

`NatsSource::into_messages` runs inside the `select!` of the main loop: a
delivery that does not parse or does not validate is acknowledged there, before
the next one is taken. Deliveries are numbered in the order taken; a message
that JetStream delivers again has a new number.
-/

namespace Iec104Bridge

open Framework

structure NatsSettings where
  core : Settings
  /-- `serde_json::from_slice::<Iec104Message>`. -/
  parse : Parser

structure NatsState where
  core : State Nat
  /-- The number of deliveries taken. -/
  next : Nat
  /-- The rejected delivery whose acknowledgement `next()` awaits. -/
  rejecting : Option Nat

inductive NatsEvent
  | main (event : TaskEvent Nat)
  | take (payload : List UInt8) (now : OffsetDateTime)
  | streamError
  | streamEnd (elapsed : Duration)
  /-- The acknowledgement of a rejected delivery completes. -/
  | ackRejected (ok : Bool)
  | gi (conn : ConnId) (event : GiEvent)

inductive NatsEffect
  | core (effect : Effect Nat)
  /-- A delivery is handed to the main loop, which reads the clock. -/
  | accepted (id : Nat) (payload : List UInt8) (message : Iec104Message) (now : OffsetDateTime)
  | rejected (id : Nat) (payload : List UInt8)
  | rejectAcked (id : Nat)
  | rejectAckFailed (id : Nat)

/-- The message in a payload, if it parses and validates. -/
def decodePayload (parse : Parser) (payload : List UInt8) : Option Iec104Message :=
  match parse payload with
  | none => none
  | some message =>
    match validateMessage message with
    | .ok () => some message
    | .error _ => none

def NatsState.coreStep (cfg : NatsSettings) (s : NatsState) (event : Event Nat) :
    Option (NatsState × Option NatsEffect) :=
  match (process Nat cfg.core).step s.core event with
  | none => none
  | some (t, o) => some ({ s with core := t }, o.map .core)

def natsStep (cfg : NatsSettings) (s : NatsState) :
    NatsEvent → Option (NatsState × Option NatsEffect)
  | .main event =>
    match event, s.rejecting with
    | .ctrlC, _ => s.coreStep cfg (.task event)
    | .build _, none | .insert, none | .dispatch, none | .ack _, none | .count, none | .sleep, none =>
      s.coreStep cfg (.task event)
    | _, _ => none
  | .take payload now =>
    match s.core.task, s.rejecting with
    | .selecting, none =>
      match decodePayload cfg.parse payload with
      | some message =>
        some ({ s with
          core := { s.core with task := .received s.next message now }, next := s.next + 1 },
          some (.accepted s.next payload message now))
      | none =>
        some ({ s with rejecting := some s.next, next := s.next + 1 }, some (.rejected s.next payload))
    | _, _ => none
  | .streamError =>
    match s.rejecting with
    | none => s.coreStep cfg (.task .receiveError)
    | some _ => none
  | .streamEnd elapsed =>
    match s.rejecting with
    | none => s.coreStep cfg (.task (.endSource elapsed))
    | some _ => none
  | .ackRejected ok =>
    match s.core.task, s.rejecting with
    | .selecting, some id =>
      some ({ s with rejecting := none }, some (if ok then .rejectAcked id else .rejectAckFailed id))
    | _, _ => none
  | .gi conn event => s.coreStep cfg (.gi conn event)

/-- The bridge with its NATS consumer. -/
def nats (cfg : NatsSettings) : Machine NatsState NatsEvent NatsEffect where
  init := ⟨.initial Nat, 0, none⟩
  step := natsStep cfg

end Iec104Bridge
