import Iec104Bridge.Framework.Machine
import Iec104Bridge.Framework.Last
import Iec104Bridge.Framework.Worker
import Iec104Bridge.Framework.Lane
import Iec104Bridge.Framework.Trace
import Iec104Bridge.Framework.Merge
import Iec104Bridge.Framework.Binary
import Iec104Bridge.Framework.Calendar
import Iec104Bridge.Framework.Filesystem
import Iec104Bridge.Framework.Checks
import Iec104Bridge.Framework.Refinement
import Iec104Bridge.Framework.Restart
import Iec104Bridge.Framework.Termination
import Iec104Bridge.Framework.Readers
import Iec104Bridge.Framework.Record
import Iec104Bridge.Model.Message
import Iec104Bridge.Model.Validation
import Iec104Bridge.Model.Asdu
import Iec104Bridge.Model.Bridge
import Iec104Bridge.Model.Config
import Iec104Bridge.Model.Process
import Iec104Bridge.Model.Link
import Iec104Bridge.Model.Line
import Iec104Bridge.Model.Reader
import Iec104Bridge.Model.Unix
import Iec104Bridge.Model.SocketPath
import Iec104Bridge.Model.Nats
import Iec104Bridge.Model.Json
import Iec104Bridge.Model.Signals
import Iec104Bridge.Model.Metrics
import Iec104Bridge.Model.Cp56
import Iec104Bridge.Model.Redundancy
import Iec104Bridge.Model.JetStream
import Iec104Bridge.Model.Schema
import Iec104Bridge.Model.Scrape
import Iec104Bridge.Model.Startup
import Iec104Bridge.Proof.Point
import Iec104Bridge.Proof.Encoders
import Iec104Bridge.Proof.Process
import Iec104Bridge.Proof.Cache
import Iec104Bridge.Proof.Frames
import Iec104Bridge.Proof.Address
import Iec104Bridge.Proof.Staleness
import Iec104Bridge.Proof.Interrogation
import Iec104Bridge.Proof.Delivery
import Iec104Bridge.Proof.Unix
import Iec104Bridge.Proof.Nats
import Iec104Bridge.Proof.Replies
import Iec104Bridge.Proof.Acks
import Iec104Bridge.Proof.Shutdown
import Iec104Bridge.Proof.Isolation
import Iec104Bridge.Proof.Agreement
import Iec104Bridge.Proof.Counter
import Iec104Bridge.Proof.Encoding
import Iec104Bridge.Proof.Transport
import Iec104Bridge.Proof.Truncation
import Iec104Bridge.Proof.SourceTime
import Iec104Bridge.Proof.Stream
import Iec104Bridge.Proof.Authorization
import Iec104Bridge.Proof.Shuffle
import Iec104Bridge.Proof.Dialogue
import Iec104Bridge.Proof.Answers
import Iec104Bridge.Proof.Numbers
import Iec104Bridge.Proof.Inference
import Iec104Bridge.Proof.Reader
import Iec104Bridge.Proof.SocketPath
import Iec104Bridge.Proof.Backoff
import Iec104Bridge.Proof.Masters
import Iec104Bridge.Proof.Failover
import Iec104Bridge.Proof.EndToEnd
import Iec104Bridge.Proof.JetStream
import Iec104Bridge.Proof.Recovery
import Iec104Bridge.Proof.Drain
import Iec104Bridge.Proof.Completion
import Iec104Bridge.Proof.Bounds
import Iec104Bridge.Proof.Configuration
import Iec104Bridge.Proof.Scrape
import Iec104Bridge.Proof.Schema
import Iec104Bridge.Proof.Startup
