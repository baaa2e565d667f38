import Iec104Bridge.Model.Process

/-!
# The metrics endpoint (`main.rs`)

`serve_metrics_connection` reads the size of the data store and the counters, and
answers with them in a text.
-/

namespace Iec104Bridge

/-- What a scrape reads. -/
structure MetricsSnapshot where
  cacheSize : Nat
  msgsDispatched : Nat
  giResponses : Nat
  deriving DecidableEq

/-- What there is to read in a state. -/
def State.metricsSnapshot {ι : Type} (s : State ι) : MetricsSnapshot where
  cacheSize := s.cache.keys.card
  msgsDispatched := s.metrics.messagesDispatched
  giResponses := s.metrics.giResponses

def MetricsSnapshot.body (m : MetricsSnapshot) : String :=
  "# HELP iec104bridge_cache_size Number of data points currently cached\n" ++
  "# TYPE iec104bridge_cache_size gauge\n" ++
  s!"iec104bridge_cache_size {m.cacheSize}\n" ++
  "# HELP iec104bridge_messages_dispatched_total Total IEC-104 messages dispatched\n" ++
  "# TYPE iec104bridge_messages_dispatched_total counter\n" ++
  s!"iec104bridge_messages_dispatched_total {m.msgsDispatched}\n" ++
  "# HELP iec104bridge_gi_responses_total Total General Interrogation responses\n" ++
  "# TYPE iec104bridge_gi_responses_total counter\n" ++
  s!"iec104bridge_gi_responses_total {m.giResponses}\n"

/-- The HTTP response. -/
def MetricsSnapshot.response (m : MetricsSnapshot) : String :=
  let body := m.body
  s!"HTTP/1.1 200 OK\r\nContent-Type: text/plain; version=0.0.4\r\nContent-Length: {body.utf8ByteSize}\r\nConnection: close\r\n\r\n{body}"

end Iec104Bridge
