import Iec104Bridge.Model.Bridge

/-!
# Configuration (`config.rs`)

`Config.fromLookup` reads an environment, a function from variable names to
values. A numeric variable is parsed by Rust's `FromStr`: an optional `+`,
then decimal digits, in the range of the type. Values are lowercased in ASCII,
which agrees with the source on every value it accepts. What a message shows
with `{:?}` depends on the Unicode tables of Rust, so an `ErrorText` keeps the
value, and is displayed with a function for these.
-/

namespace Iec104Bridge

/-- An environment: `std::env::var`. -/
abbrev Env := String → Option String

/-- The text of an error. -/
inductive ErrorText
  | plain (text : String)
  /-- The text, and after it `{other:?}`, where `other` is the value in lower case. -/
  | lowered (text value : String)
  deriving DecidableEq

/-- `Display`; `debug` is `{:?}` of the lower case of a value. -/
def ErrorText.display (debug : String → String) : ErrorText → String
  | .plain text => text
  | .lowered text value => text ++ debug value

inductive InputTransport
  | nats
  | unixSocket
  deriving DecidableEq

def InputTransport.asStr : InputTransport → String
  | .nats => "nats"
  | .unixSocket => "unix_socket"

def InputTransport.parse (value : String) : Except ErrorText InputTransport :=
  if value = "nats" then .ok .nats
  else if value = "unix_socket" then .ok .unixSocket
  else .error (.plain s!"INPUT_TRANSPORT must be one of: nats, unix_socket (got '{value}')")

/-- `str::parse`, for an unsigned type with greatest value `max`. -/
def parseUnsigned (max : Nat) (value : String) : Option Nat :=
  let digits : List Char :=
    match value.toList with
    | '+' :: rest => rest
    | all => all
  let n := digits.foldl (fun n c => 10 * n + (c.toNat - 48)) 0
  if digits ≠ [] ∧ digits.all Char.isDigit ∧ n ≤ max then some n else none

/-- `usize`, on a 64-bit target. -/
structure Usize where
  val : UInt64
  deriving DecidableEq

/-- `std::str::FromStr`, with `std::any::type_name`. -/
class FromStr (T : Type) where
  typeName : String
  parse : String → Option T

instance : FromStr UInt16 := ⟨"u16", fun s => (parseUnsigned 65535 s).map UInt16.ofNat⟩
instance : FromStr UInt32 := ⟨"u32", fun s => (parseUnsigned 4294967295 s).map UInt32.ofNat⟩
instance : FromStr UInt64 := ⟨"u64", fun s => (parseUnsigned 18446744073709551615 s).map UInt64.ofNat⟩
instance : FromStr Usize :=
  ⟨"usize", fun s => (parseUnsigned 18446744073709551615 s).map fun n => ⟨UInt64.ofNat n⟩⟩

structure Config where
  inputTransport : InputTransport
  natsUrl : String
  natsStream : String
  natsConsumer : String
  natsSubjectFilter : Option String
  natsCredentialsPath : Option String
  unixSocketPath : String
  unixSocketAllowedUid : Option UInt32
  unixSocketAllowedGid : Option UInt32
  unixSocketMaxLineBytes : Usize
  iec104BindAddr : String
  iec104Port : UInt16
  iec104DefaultCa : UInt16
  iec104GiOnly : Bool
  iec104Timestamps : Bool
  iec104MaxAge : Option Duration
  iec104QueueSize : UInt16
  metricsPort : UInt16
  tlsEnabled : Bool
  tlsCertPath : Option String
  tlsKeyPath : Option String
  tlsCaCertPath : Option String
  tlsPort : UInt16

structure NatsConfigParts where
  natsUrl : String
  natsStream : String
  natsConsumer : String
  natsSubjectFilter : Option String
  natsCredentialsPath : Option String

structure UnixSocketConfigParts where
  unixSocketPath : String
  unixSocketAllowedUid : Option UInt32
  unixSocketAllowedGid : Option UInt32
  unixSocketMaxLineBytes : Usize

structure ServerConfigParts where
  iec104BindAddr : String
  iec104Port : UInt16
  iec104DefaultCa : UInt16
  iec104GiOnly : Bool
  metricsPort : UInt16
  iec104QueueSize : UInt16
  iec104Timestamps : Bool
  iec104MaxAge : Option Duration

structure TlsConfigParts where
  tlsEnabled : Bool
  tlsCertPath : Option String
  tlsKeyPath : Option String
  tlsCaCertPath : Option String
  tlsPort : UInt16

structure ConfigParts where
  inputTransport : InputTransport
  nats : NatsConfigParts
  unixSocket : UnixSocketConfigParts
  server : ServerConfigParts
  tls : TlsConfigParts

namespace Config

/-- `if cond { anyhow::bail!(message) }`. -/
def bailIf (cond : Bool) (message : String) : Except ErrorText Unit :=
  if cond then .error (.plain message) else .ok ()

def required (get : Env) (key : String) : Except ErrorText String :=
  match get key with
  | some value => .ok value
  | none => .error (.plain s!"{key} must be set")

def requirePresent (value : Option String) (key : String) : Except ErrorText Unit :=
  if value.isNone then .error (.plain s!"{key} must be set when TLS_ENABLED=true") else .ok ()

def isTruthy (value : Option String) : Bool :=
  match value.map String.toLower with
  | some v => v = "true" || v = "1" || v = "yes"
  | none => false

def parseBoolWithDefault (get : Env) (key : String) (default : Bool) : Except ErrorText Bool :=
  match get key with
  | none => .ok default
  | some value =>
    let v := value.toLower
    if v = "true" ∨ v = "1" ∨ v = "yes" then .ok true
    else if v = "false" ∨ v = "0" ∨ v = "no" then .ok false
    else .error (.lowered s!"{key} must be true or false, got " value)

def parseOptional (T : Type) [FromStr T] (get : Env) (key : String) : Except ErrorText (Option T) :=
  match get key with
  | none => .ok none
  | some value =>
    match FromStr.parse (T := T) value with
    | some v => .ok (some v)
    | none => .error (.plain s!"{key} must be a valid {FromStr.typeName T}")

def parseWithDefault (T : Type) [FromStr T] (get : Env) (key default : String) : Except ErrorText T :=
  match FromStr.parse (T := T) ((get key).getD default) with
  | some v => .ok v
  | none => .error (.plain s!"{key} must be a valid {FromStr.typeName T}")

def loadInputTransport (get : Env) : Except ErrorText InputTransport :=
  InputTransport.parse ((get "INPUT_TRANSPORT").getD "nats")

def loadNatsConsumerParts (get : Env) (inputTransport : InputTransport) :
    Except ErrorText (String × String) :=
  match inputTransport with
  | .nats => do
    let stream ← required get "NATS_STREAM"
    let consumer ← required get "NATS_CONSUMER"
    return (stream, consumer)
  | .unixSocket => .ok ("", "")

def loadNatsConfig (get : Env) (inputTransport : InputTransport) :
    Except ErrorText NatsConfigParts := do
  let natsUrl := (get "NATS_URL").getD "nats://localhost:4222"
  let (natsStream, natsConsumer) ← loadNatsConsumerParts get inputTransport
  return {
    natsUrl, natsStream, natsConsumer
    natsSubjectFilter := get "NATS_SUBJECT_FILTER"
    natsCredentialsPath := get "NATS_CREDENTIALS" }

def loadUnixSocketMaxLineBytes (get : Env) : Except ErrorText Usize := do
  let maxLineBytes ← parseWithDefault Usize get "UNIX_SOCKET_MAX_LINE_BYTES" "65536"
  bailIf (maxLineBytes.val = 0) "UNIX_SOCKET_MAX_LINE_BYTES must be greater than zero"
  return maxLineBytes

def loadUnixSocketConfig (get : Env) : Except ErrorText UnixSocketConfigParts := do
  let unixSocketMaxLineBytes ← loadUnixSocketMaxLineBytes get
  let unixSocketAllowedUid ← parseOptional UInt32 get "UNIX_SOCKET_ALLOWED_UID"
  let unixSocketAllowedGid ← parseOptional UInt32 get "UNIX_SOCKET_ALLOWED_GID"
  return {
    unixSocketPath := (get "UNIX_SOCKET_PATH").getD "/run/iec104bridge/input.sock"
    unixSocketAllowedUid, unixSocketAllowedGid, unixSocketMaxLineBytes }

def loadServerConfig (get : Env) : Except ErrorText ServerConfigParts := do
  let iec104QueueSize ← parseWithDefault UInt16 get "IEC104_QUEUE_SIZE" "1024"
  bailIf (iec104QueueSize = 0) "IEC104_QUEUE_SIZE must be greater than zero"
  let iec104MaxAge ← parseOptional UInt64 get "IEC104_MAX_AGE_SECONDS"
  bailIf (iec104MaxAge = some 0) "IEC104_MAX_AGE_SECONDS must be greater than zero"
  let iec104Port ← parseWithDefault UInt16 get "IEC104_PORT" "2404"
  let iec104DefaultCa ← parseWithDefault UInt16 get "IEC104_CA" "1"
  let metricsPort ← parseWithDefault UInt16 get "METRICS_PORT" "9091"
  let iec104Timestamps ← parseBoolWithDefault get "IEC104_TIMESTAMPS" true
  return {
    iec104BindAddr := (get "IEC104_BIND_ADDR").getD "0.0.0.0"
    iec104Port, iec104DefaultCa
    iec104GiOnly := isTruthy (get "IEC104_GI_ONLY")
    metricsPort, iec104QueueSize, iec104Timestamps
    iec104MaxAge := iec104MaxAge.map Duration.fromSecs }

def validateTlsPaths (tlsEnabled : Bool) (tlsCertPath tlsKeyPath tlsCaCertPath : Option String) :
    Except ErrorText Unit :=
  if !tlsEnabled then .ok ()
  else do
    requirePresent tlsCertPath "TLS_CERT_PATH"
    requirePresent tlsKeyPath "TLS_KEY_PATH"
    requirePresent tlsCaCertPath "TLS_CA_CERT_PATH"

def loadTlsConfig (get : Env) : Except ErrorText TlsConfigParts := do
  let tlsEnabled := isTruthy (get "TLS_ENABLED")
  let tlsCertPath := get "TLS_CERT_PATH"
  let tlsKeyPath := get "TLS_KEY_PATH"
  let tlsCaCertPath := get "TLS_CA_CERT_PATH"
  validateTlsPaths tlsEnabled tlsCertPath tlsKeyPath tlsCaCertPath
  let tlsPort ← parseWithDefault UInt16 get "TLS_PORT" "19998"
  return { tlsEnabled, tlsCertPath, tlsKeyPath, tlsCaCertPath, tlsPort }

def loadConfigParts (get : Env) : Except ErrorText ConfigParts := do
  let inputTransport ← loadInputTransport get
  let nats ← loadNatsConfig get inputTransport
  let unixSocket ← loadUnixSocketConfig get
  let server ← loadServerConfig get
  let tls ← loadTlsConfig get
  return { inputTransport, nats, unixSocket, server, tls }

def fromLookup (get : Env) : Except ErrorText Config := do
  let parts ← loadConfigParts get
  return {
    inputTransport := parts.inputTransport
    natsUrl := parts.nats.natsUrl
    natsStream := parts.nats.natsStream
    natsConsumer := parts.nats.natsConsumer
    natsSubjectFilter := parts.nats.natsSubjectFilter
    natsCredentialsPath := parts.nats.natsCredentialsPath
    unixSocketPath := parts.unixSocket.unixSocketPath
    unixSocketAllowedUid := parts.unixSocket.unixSocketAllowedUid
    unixSocketAllowedGid := parts.unixSocket.unixSocketAllowedGid
    unixSocketMaxLineBytes := parts.unixSocket.unixSocketMaxLineBytes
    iec104BindAddr := parts.server.iec104BindAddr
    iec104Port := parts.server.iec104Port
    iec104DefaultCa := parts.server.iec104DefaultCa
    iec104GiOnly := parts.server.iec104GiOnly
    iec104Timestamps := parts.server.iec104Timestamps
    iec104MaxAge := parts.server.iec104MaxAge
    iec104QueueSize := parts.server.iec104QueueSize
    metricsPort := parts.server.metricsPort
    tlsEnabled := parts.tls.tlsEnabled
    tlsCertPath := parts.tls.tlsCertPath
    tlsKeyPath := parts.tls.tlsKeyPath
    tlsCaCertPath := parts.tls.tlsCaCertPath
    tlsPort := parts.tls.tlsPort }

end Config

/-- `output_policy` of `main.rs`. -/
def outputPolicy (config : Config) : OutputPolicy where
  sendTimestamps := config.iec104Timestamps
  maxAge := config.iec104MaxAge

/-! ## Accepted configurations -/

theorem except_bind_ok {ε α β : Type} {x : Except ε α} {f : α → Except ε β} {b : β}
    (h : (x >>= f) = .ok b) : ∃ a, x = .ok a ∧ f a = .ok b := by
  cases x with
  | error e => cases h
  | ok a => exact ⟨a, rfl, h⟩

theorem parseWithDefault_ok {T : Type} [FromStr T] {get : Env} {key default : String} {v : T}
    (h : Config.parseWithDefault T get key default = .ok v) :
    FromStr.parse ((get key).getD default) = some v := by
  simp only [Config.parseWithDefault] at h
  split at h <;> cases h
  assumption

/-- The default Common Address of an accepted configuration is `IEC104_CA`, or 1. -/
theorem loadServerConfig_ca {get : Env} {parts : ServerConfigParts}
    (h : Config.loadServerConfig get = .ok parts) :
    FromStr.parse ((get "IEC104_CA").getD "1") = some parts.iec104DefaultCa := by
  obtain ⟨_, -, h⟩ := except_bind_ok h
  obtain ⟨_, -, h⟩ := except_bind_ok h
  obtain ⟨_, -, h⟩ := except_bind_ok h
  obtain ⟨_, -, h⟩ := except_bind_ok h
  obtain ⟨_, -, h⟩ := except_bind_ok h
  obtain ⟨_, hca, h⟩ := except_bind_ok h
  obtain ⟨_, -, h⟩ := except_bind_ok h
  obtain ⟨_, -, h⟩ := except_bind_ok h
  cases h
  exact parseWithDefault_ok hca

theorem fromLookup_parts {get : Env} {config : Config} (h : Config.fromLookup get = .ok config) :
    ∃ parts : ConfigParts, Config.loadServerConfig get = .ok parts.server ∧
      config.iec104DefaultCa = parts.server.iec104DefaultCa := by
  obtain ⟨parts, h₁, h⟩ := except_bind_ok h
  cases h
  refine ⟨parts, ?_, rfl⟩
  obtain ⟨_, -, h₁⟩ := except_bind_ok h₁
  obtain ⟨_, -, h₁⟩ := except_bind_ok h₁
  obtain ⟨_, -, h₁⟩ := except_bind_ok h₁
  obtain ⟨_, hs, h₁⟩ := except_bind_ok h₁
  obtain ⟨_, -, h₁⟩ := except_bind_ok h₁
  cases h₁
  exact hs

theorem fromLookup_ca {get : Env} {config : Config} (h : Config.fromLookup get = .ok config) :
    FromStr.parse ((get "IEC104_CA").getD "1") = some config.iec104DefaultCa := by
  obtain ⟨parts, hs, he⟩ := fromLookup_parts h
  rw [he]
  exact loadServerConfig_ca hs

end Iec104Bridge
