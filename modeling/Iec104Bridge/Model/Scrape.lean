import Iec104Bridge.Model.Metrics

/-!
# The metrics server (`main.rs`)

`spawn_metrics_http_server` binds its port and then accepts scrapes, each of
which `serve_metrics_connection` serves in a task of its own, beside the
process. It takes the lock of the data store for its size, and loads the two
counters after it, so that other steps come between the three. The result of
`write_all` is dropped.
-/

namespace Iec104Bridge

open Framework

/-- An accepted connection. -/
abbrev ScrapeId := Nat

/-- Where the task of `spawn_metrics_http_server` is. -/
inductive MetricsListener
  | binding
  | accepting
  | returned
  deriving DecidableEq

/-- Where `serve_metrics_connection` is. -/
inductive ScrapePhase
  | absent
  /-- `data_store.lock().unwrap().len()`. -/
  | accepted
  /-- `metrics.messages_dispatched.load`. -/
  | sized (cacheSize : Nat)
  /-- `metrics.gi_responses.load`. -/
  | loaded (cacheSize msgsDispatched : Nat)
  | writing (snapshot : MetricsSnapshot)
  | ended

structure ServerState (ι : Type) where
  core : State ι
  listener : MetricsListener
  scrapes : ScrapeId → ScrapePhase

inductive ServerEvent (ι : Type)
  | core (event : Event ι)
  | bind (ok : Bool)
  | accept (scrape : ScrapeId)
  | acceptError
  | readCacheSize (scrape : ScrapeId)
  | loadMsgsDispatched (scrape : ScrapeId)
  | loadGiResponses (scrape : ScrapeId)
  | write (scrape : ScrapeId)

inductive ServerEffect (ι : Type)
  | core (effect : Effect ι)
  | accepted (scrape : ScrapeId)
  /-- The response to the snapshot is written. -/
  | responded (scrape : ScrapeId) (snapshot : MetricsSnapshot) (response : String)

variable {ι : Type}

def ServerState.setScrape (s : ServerState ι) (c : ScrapeId) (phase : ScrapePhase) : ServerState ι :=
  { s with scrapes := Function.update s.scrapes c phase }

/-- One step of `spawn_metrics_http_server`. -/
def listenStep (s : ServerState ι) :
    ServerEvent ι → Option (ServerState ι × Option (ServerEffect ι))
  | .bind ok =>
    match s.listener with
    | .binding => some ({ s with listener := if ok then .accepting else .returned }, none)
    | _ => none
  | .accept c =>
    match s.listener, s.scrapes c with
    | .accepting, .absent => some (s.setScrape c .accepted, some (.accepted c))
    | _, _ => none
  | .acceptError =>
    match s.listener with
    | .accepting => some (s, none)
    | _ => none
  | _ => none

/-- One step of `serve_metrics_connection`. -/
def serveStep (s : ServerState ι) (c : ScrapeId) :
    ServerEvent ι → Option (ServerState ι × Option (ServerEffect ι))
  | .readCacheSize _ =>
    match s.scrapes c, s.core.dataLock with
    | .accepted, none => some (s.setScrape c (.sized s.core.cache.keys.card), none)
    | _, _ => none
  | .loadMsgsDispatched _ =>
    match s.scrapes c with
    | .sized cacheSize =>
      some (s.setScrape c (.loaded cacheSize s.core.metrics.messagesDispatched), none)
    | _ => none
  | .loadGiResponses _ =>
    match s.scrapes c with
    | .loaded cacheSize msgsDispatched =>
      let giResponses := s.core.metrics.giResponses
      some (s.setScrape c (.writing { cacheSize, msgsDispatched, giResponses }), none)
    | _ => none
  | .write _ =>
    match s.scrapes c with
    | .writing snapshot =>
      some (s.setScrape c .ended, some (.responded c snapshot snapshot.response))
    | _ => none
  | _ => none

/-- The process beside the metrics server. -/
def metricsServer (ι : Type) (cfg : Settings) :
    Machine (ServerState ι) (ServerEvent ι) (ServerEffect ι) where
  init := ⟨.initial ι, .binding, fun _ => .absent⟩
  step s e :=
    match e with
    | .core event =>
      ((process ι cfg).step s.core event).map fun r => ({ s with core := r.1 }, r.2.map .core)
    | .bind _ | .accept _ | .acceptError => listenStep s e
    | .readCacheSize c | .loadMsgsDispatched c | .loadGiResponses c | .write c => serveStep s c e

end Iec104Bridge
