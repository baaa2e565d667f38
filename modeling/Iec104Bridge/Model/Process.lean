import Mathlib.Data.Finmap
import Iec104Bridge.Framework.Machine
import Iec104Bridge.Model.Validation
import Iec104Bridge.Model.Config

/-!
# The process (`main.rs`)

The task that runs `supervise_message_source` and the interrogation callbacks,
one for each master connection, interleave: a step of the process is a step of
one of them, between two points where another can run. The callbacks and the
task share the data store, behind its lock, and the metrics. What the source
yields, whether an acknowledgement or a send succeeds, and what
`OffsetDateTime::now_utc` reads are chosen by the input of the step; so is the
order in which a replay visits the data store.
-/

namespace Iec104Bridge

open Framework

/-- A cached point and the time it last arrived. -/
structure CachedPoint where
  message : Iec104Message
  receivedAt : OffsetDateTime
  deriving DecidableEq

/-- `(ca, ioa)`. -/
abbrev Key := UInt16 × UInt32

abbrev DataStore := Finmap fun _ : Key => CachedPoint

/-- The key a message is stored under. -/
def Iec104Message.key (defaultCa : UInt16) (message : Iec104Message) : Key :=
  (message.ca.getD defaultCa, message.ioa)

/-- The counters, which are `AtomicU64` in the source and agree with it below `2 ^ 64`. -/
structure Metrics where
  messagesDispatched : Nat := 0
  giResponses : Nat := 0

/-- What the configuration fixes, and lib60870's server. -/
structure Settings where
  defaultCa : UInt16
  giOnly : Bool
  policy : OutputPolicy
  server : Server

def Settings.ofConfig (config : Config) (server : Server) : Settings where
  defaultCa := config.iec104DefaultCa
  giOnly := config.iec104GiOnly
  policy := outputPolicy config
  server

def SOURCE_MIN_BACKOFF : Duration := ⟨200000000⟩
def SOURCE_MAX_BACKOFF : Duration := ⟨5000000000⟩
def SOURCE_STABLE_RUN : Duration := ⟨30000000000⟩

def QOI_STATION : UInt8 := 20

/-- A master connection. -/
abbrev ConnId := Nat

/-- Where the task that runs `supervise_message_source` is. -/
inductive TaskPhase (ι : Type)
  /-- The first `build_message_source`. -/
  | starting
  /-- The `select!` of `run_message_loop`. -/
  | selecting
  /-- `handle_incoming_message`, before the insert. -/
  | received (id : ι) (message : Iec104Message) (now : OffsetDateTime)
  /-- `handle_incoming_message`, between the insert and the dispatch. -/
  | cached (id : ι) (message : Iec104Message) (now : OffsetDateTime)
  /-- `incoming.ack().await`. -/
  | acking (id : ι) (dispatched : Bool)
  | acked (dispatched : Bool)
  /-- The `select!` that waits for the backoff. -/
  | backingOff
  | rebuilding
  | returned (ok : Bool)

/-- `supervise_message_source` has returned. -/
def TaskPhase.isReturned {ι : Type} : TaskPhase ι → Bool
  | .returned _ => true
  | _ => false

/-- Where the interrogation callback of a connection is. -/
inductive GiPhase
  | idle
  | requested (qoi : UInt8)
  | confirmed
  /-- `replay_cached_values`, holding the lock, with the points still to visit. -/
  | replaying (now : OffsetDateTime) (todo : List CachedPoint) (sink : ConnectionSink)
  | replayed
  | counted

structure State (ι : Type) where
  cache : DataStore
  metrics : Metrics
  /-- The callback that holds the lock of the data store. -/
  dataLock : Option ConnId
  task : TaskPhase ι
  backoff : Duration
  gi : ConnId → GiPhase

def State.initial (ι : Type) : State ι where
  cache := ∅
  metrics := {}
  dataLock := none
  task := .starting
  backoff := SOURCE_MIN_BACKOFF
  gi := fun _ => .idle

inductive TaskEvent (ι : Type)
  | build (ok : Bool)
  | receive (id : ι) (message : Iec104Message) (now : OffsetDateTime)
  | receiveError
  | endSource (elapsed : Duration)
  | ctrlC
  | insert
  | dispatch
  | ack (ok : Bool)
  | count
  | sleep

inductive GiEvent
  | request (qoi : UInt8)
  | confirm (sent : Bool)
  | lock (now : OffsetDateTime) (order : List CachedPoint)
  | send (sent : Bool)
  | unlock
  | count
  | terminate (sent : Bool)

inductive Event (ι : Type)
  | task (event : TaskEvent ι)
  | gi (conn : ConnId) (event : GiEvent)

/-- What a step does that the rest of the world, or a metric, can see. -/
inductive Effect (ι : Type)
  | built (ok : Bool)
  | received (id : ι) (message : Iec104Message) (now : OffsetDateTime)
  | inserted (id : ι) (point : CachedPoint)
  /-- The server is handed a spontaneous ASDU. -/
  | handed (id : ι) (now : OffsetDateTime) (asdu : Asdu)
  | acked (id : ι)
  | ackFailed (id : ι)
  | counted
  | sourceEnded (elapsed : Duration)
  | slept (delay : Duration)
  /-- `server.stop()`. -/
  | stopped
  | requested (conn : ConnId) (qoi : UInt8)
  | actCon (conn : ConnId) (negative sent : Bool)
  /-- A replay took the lock and read the clock. -/
  | locked (conn : ConnId) (now : OffsetDateTime)
  /-- A replay sends a data ASDU. -/
  | giData (conn : ConnId) (now : OffsetDateTime) (asdu : Asdu) (sent : Bool)
  | giCounted (conn : ConnId)
  | actTerm (conn : ConnId) (sent : Bool)
  deriving DecidableEq

variable {ι : Type}

/-! ## The task -/

def dispatchMessageIfEnabled {ρ : Type} (sink : DataSink ρ) (out : Outgoing) (ca : UInt16)
    (giOnly : Bool) : Option ρ :=
  if giOnly then none else some (dispatchOutgoing sink out ca)

/-- The dispatch of `handle_incoming_message`: what the server is handed, and `dispatched`. -/
def dispatchIncoming (cfg : Settings) (message : Iec104Message) (now : OffsetDateTime) :
    Option Asdu × Bool :=
  let ca := message.ca.getD cfg.defaultCa
  if cfg.giOnly then (none, false)
  else
    let out := prepareForOutput message now now cfg.policy
    match dispatchMessageIfEnabled (liveSink cfg.server) out ca cfg.giOnly with
    | none => (none, false)
    | some asdu => (asdu, true)

/-- One step of `supervise_message_source`, `run_message_loop` and
`handle_incoming_message`. -/
def taskStep (cfg : Settings) (s : State ι) :
    TaskEvent ι → Option (State ι × Option (Effect ι))
  | .build ok =>
    match s.task, ok with
    | .starting, true | .rebuilding, true => some ({ s with task := .selecting }, some (.built true))
    | .starting, false => some ({ s with task := .returned false }, some (.built false))
    | .rebuilding, false => some ({ s with task := .backingOff }, some (.built false))
    | _, _ => none
  | .receive id message now =>
    match s.task with
    | .selecting =>
      if message.Valid then
        some ({ s with task := .received id message now }, some (.received id message now))
      else none
    | _ => none
  | .receiveError =>
    match s.task with
    | .selecting => some (s, none)
    | _ => none
  | .endSource elapsed =>
    match s.task with
    | .selecting =>
      let backoff :=
        if SOURCE_STABLE_RUN.asNanos ≤ elapsed.asNanos then SOURCE_MIN_BACKOFF else s.backoff
      some ({ s with task := .backingOff, backoff }, some (.sourceEnded elapsed))
    | _ => none
  | .ctrlC =>
    match s.task with
    | .selecting | .backingOff => some ({ s with task := .returned true }, some .stopped)
    | _ => none
  | .insert =>
    match s.task, s.dataLock with
    | .received id message now, none =>
      let point : CachedPoint := ⟨message, now⟩
      some ({ s with
        cache := s.cache.insert (message.key cfg.defaultCa) point
        task := .cached id message now }, some (.inserted id point))
    | _, _ => none
  | .dispatch =>
    match s.task with
    | .cached id message now =>
      let r := dispatchIncoming cfg message now
      some ({ s with task := .acking id r.2 }, r.1.map (.handed id now))
    | _ => none
  | .ack ok =>
    match s.task with
    | .acking id dispatched =>
      if ok then some ({ s with task := .acked dispatched }, some (.acked id))
      else some ({ s with task := .selecting }, some (.ackFailed id))
    | _ => none
  | .count =>
    match s.task with
    | .acked dispatched =>
      if dispatched then
        some ({ s with
          metrics := { s.metrics with messagesDispatched := s.metrics.messagesDispatched + 1 }
          task := .selecting }, some .counted)
      else some ({ s with task := .selecting }, none)
    | _ => none
  | .sleep =>
    match s.task with
    | .backingOff =>
      some ({ s with
        task := .rebuilding
        backoff := ⟨min (s.backoff.asNanos * 2) SOURCE_MAX_BACKOFF.asNanos⟩ },
        some (.slept s.backoff))
    | _ => none

/-! ## The interrogation callback -/

def State.setGi (s : State ι) (conn : ConnId) (phase : GiPhase) : State ι :=
  { s with gi := Function.update s.gi conn phase }

/-- The body of the loop of `replay_cached_values`. -/
def replayPoint (cfg : Settings) (now : OffsetDateTime) (point : CachedPoint) :
    ConnectionSink.Send :=
  let ca := point.message.ca.getD cfg.defaultCa
  let out := prepareForOutput point.message point.receivedAt now cfg.policy
  let out := { out with message := { out.message with cot := .interrogated } }
  dispatchOutgoing ConnectionSink.sink out ca

/-- One step of the callback of `install_interrogation_handler` on `conn`. -/
def giStep (cfg : Settings) (s : State ι) (conn : ConnId) :
    GiEvent → Option (State ι × Option (Effect ι))
  | .request qoi =>
    match s.gi conn with
    | .idle => some (s.setGi conn (.requested qoi), some (.requested conn qoi))
    | _ => none
  | .confirm sent =>
    match s.gi conn with
    | .requested qoi =>
      if qoi ≠ QOI_STATION then some (s.setGi conn .idle, some (.actCon conn true sent))
      else some (s.setGi conn .confirmed, some (.actCon conn false sent))
    | _ => none
  | .lock now order =>
    match s.gi conn, s.dataLock with
    | .confirmed, none =>
      if (order : Multiset CachedPoint) = s.cache.entries.map Sigma.snd then
        some ({ s.setGi conn (.replaying now order .new) with dataLock := some conn },
          some (.locked conn now))
      else none
    | _, _ => none
  | .send sent =>
    match s.gi conn with
    | .replaying now (point :: todo) sink =>
      let r := replayPoint cfg now point sent sink
      some (s.setGi conn (.replaying now todo r.2), some (.giData conn now r.1 sent))
    | _ => none
  | .unlock =>
    match s.gi conn with
    | .replaying _ [] _ => some ({ s.setGi conn .replayed with dataLock := none }, none)
    | _ => none
  | .count =>
    match s.gi conn with
    | .replayed =>
      some ({ s.setGi conn .counted with
        metrics := { s.metrics with giResponses := s.metrics.giResponses + 1 } },
        some (.giCounted conn))
    | _ => none
  | .terminate sent =>
    match s.gi conn with
    | .counted => some (s.setGi conn .idle, some (.actTerm conn sent))
    | _ => none

/-- The process. -/
def process (ι : Type) (cfg : Settings) : Machine (State ι) (Event ι) (Effect ι) where
  init := .initial ι
  step s
    | .task event => taskStep cfg s event
    | .gi conn event => giStep cfg s conn event

end Iec104Bridge
