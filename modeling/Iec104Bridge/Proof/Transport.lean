import Iec104Bridge.Model.Config
import Iec104Bridge.Model.Validation

/-!
# Settings of the transport that is not selected

The loader of the NATS settings reads the stream and the consumer only when
NATS is selected, the loader of the Unix-socket settings parses them whatever
is selected. So settings of the unselected transport do not matter, but that a
leftover `UNIX_SOCKET_*` value that does not parse keeps a bridge with NATS
from starting (`transport_independent_iff`).
-/

namespace Iec104Bridge

/-- The variables used only with NATS. -/
def natsVariables : List String :=
  ["NATS_URL", "NATS_STREAM", "NATS_CONSUMER", "NATS_SUBJECT_FILTER", "NATS_CREDENTIALS"]

/-- The variables used only with the Unix socket. -/
def unixSocketVariables : List String :=
  ["UNIX_SOCKET_PATH", "UNIX_SOCKET_ALLOWED_UID", "UNIX_SOCKET_ALLOWED_GID",
    "UNIX_SOCKET_MAX_LINE_BYTES"]

/-- The variables of the transports that `INPUT_TRANSPORT` does not select. -/
def unselectedVariables (get : Env) : List String :=
  match Config.loadInputTransport get with
  | .ok .nats => unixSocketVariables
  | .ok .unixSocket => natsVariables
  | .error _ => natsVariables ++ unixSocketVariables

/-- The environments agree but on the variables `keys`. -/
def AgreeBut (keys : List String) (e e' : Env) : Prop := ∀ k, k ∉ keys → e k = e' k

/-- The configurations agree on the settings the bridge uses. -/
structure SameSettings (c c' : Config) : Prop where
  inputTransport : c.inputTransport = c'.inputTransport
  nats : c.inputTransport = .nats → c.natsUrl = c'.natsUrl ∧ c.natsStream = c'.natsStream ∧
    c.natsConsumer = c'.natsConsumer ∧ c.natsSubjectFilter = c'.natsSubjectFilter ∧
    c.natsCredentialsPath = c'.natsCredentialsPath
  unixSocket : c.inputTransport = .unixSocket → c.unixSocketPath = c'.unixSocketPath ∧
    c.unixSocketAllowedUid = c'.unixSocketAllowedUid ∧
    c.unixSocketAllowedGid = c'.unixSocketAllowedGid ∧
    c.unixSocketMaxLineBytes = c'.unixSocketMaxLineBytes
  server : c.iec104BindAddr = c'.iec104BindAddr ∧ c.iec104Port = c'.iec104Port ∧
    c.iec104DefaultCa = c'.iec104DefaultCa ∧ c.iec104GiOnly = c'.iec104GiOnly ∧
    c.iec104Timestamps = c'.iec104Timestamps ∧ c.iec104MaxAge = c'.iec104MaxAge ∧
    c.iec104QueueSize = c'.iec104QueueSize
  metricsPort : c.metricsPort = c'.metricsPort
  tls : c.tlsEnabled = c'.tlsEnabled ∧ c.tlsCertPath = c'.tlsCertPath ∧
    c.tlsKeyPath = c'.tlsKeyPath ∧ c.tlsCaCertPath = c'.tlsCaCertPath ∧ c.tlsPort = c'.tlsPort

/-- Both environments are rejected, or both accepted with the same settings in use. -/
structure SameVerdict (e e' : Env) : Prop where
  accepted : (Config.fromLookup e).isOk ↔ (Config.fromLookup e').isOk
  settings (c c' : Config) : Config.fromLookup e = .ok c → Config.fromLookup e' = .ok c' →
    SameSettings c c'

/-! ## Loaders -/

section

variable {e e' : Env} {keys : List String}

theorem loadInputTransport_congr (h : AgreeBut keys e e') (hk : "INPUT_TRANSPORT" ∉ keys) :
    Config.loadInputTransport e = Config.loadInputTransport e' := by
  unfold Config.loadInputTransport
  rw [h _ hk]

theorem parseWithDefault_congr (T : Type) [FromStr T] {key : String} (default : String)
    (h : e key = e' key) :
    Config.parseWithDefault T e key default = Config.parseWithDefault T e' key default := by
  unfold Config.parseWithDefault
  rw [h]

theorem parseOptional_congr (T : Type) [FromStr T] {key : String} (h : e key = e' key) :
    Config.parseOptional T e key = Config.parseOptional T e' key := by
  unfold Config.parseOptional
  rw [h]

/-- The NATS loader reads only its own variables. -/
theorem loadNatsConfig_congr (h : ∀ k ∈ natsVariables, e k = e' k) (transport : InputTransport) :
    Config.loadNatsConfig e transport = Config.loadNatsConfig e' transport := by
  simp only [natsVariables, List.forall_mem_cons] at h
  obtain ⟨h₁, h₂, h₃, h₄, h₅, -⟩ := h
  unfold Config.loadNatsConfig Config.loadNatsConsumerParts Config.required
  rw [h₁, h₂, h₃, h₄, h₅]

theorem loadUnixSocketConfig_congr (h : ∀ k ∈ unixSocketVariables, e k = e' k) :
    Config.loadUnixSocketConfig e = Config.loadUnixSocketConfig e' := by
  simp only [unixSocketVariables, List.forall_mem_cons] at h
  obtain ⟨h₁, h₂, h₃, h₄, -⟩ := h
  unfold Config.loadUnixSocketConfig Config.loadUnixSocketMaxLineBytes
  rw [h₁, parseOptional_congr UInt32 h₂, parseOptional_congr UInt32 h₃,
    parseWithDefault_congr Usize "65536" h₄]

/-- The server loader reads no variable of a transport. -/
theorem loadServerConfig_congr (h : AgreeBut (natsVariables ++ unixSocketVariables) e e') :
    Config.loadServerConfig e = Config.loadServerConfig e' := by
  unfold Config.loadServerConfig Config.parseBoolWithDefault
  rw [parseWithDefault_congr UInt16 "1024" (h "IEC104_QUEUE_SIZE" (by decide)),
    parseOptional_congr UInt64 (h "IEC104_MAX_AGE_SECONDS" (by decide)),
    parseWithDefault_congr UInt16 "2404" (h "IEC104_PORT" (by decide)),
    parseWithDefault_congr UInt16 "1" (h "IEC104_CA" (by decide)),
    parseWithDefault_congr UInt16 "9091" (h "METRICS_PORT" (by decide)),
    h "IEC104_TIMESTAMPS" (by decide), h "IEC104_BIND_ADDR" (by decide),
    h "IEC104_GI_ONLY" (by decide)]

theorem loadTlsConfig_congr (h : AgreeBut (natsVariables ++ unixSocketVariables) e e') :
    Config.loadTlsConfig e = Config.loadTlsConfig e' := by
  unfold Config.loadTlsConfig
  rw [h "TLS_ENABLED" (by decide), h "TLS_CERT_PATH" (by decide), h "TLS_KEY_PATH" (by decide),
    h "TLS_CA_CERT_PATH" (by decide), parseWithDefault_congr UInt16 "19998" (h "TLS_PORT" (by decide))]

end

/-! ## Verdicts -/

section

variable {e e' : Env}

/-- What `Config.fromLookup` makes of the parts. -/
def ConfigParts.config (parts : ConfigParts) : Config where
  inputTransport := parts.inputTransport
  natsUrl := parts.nats.natsUrl
  natsStream := parts.nats.natsStream
  natsConsumer := parts.nats.natsConsumer
  natsSubjectFilter := parts.nats.natsSubjectFilter
  natsCredentialsPath := parts.nats.natsCredentialsPath
  unixSocketPath := parts.unixSocket.unixSocketPath
  unixSocketAllowedUid := parts.unixSocket.unixSocketAllowedUid
  unixSocketAllowedGid := parts.unixSocket.unixSocketAllowedGid
  unixSocketMaxLineBytes := parts.unixSocket.unixSocketMaxLineBytes
  iec104BindAddr := parts.server.iec104BindAddr
  iec104Port := parts.server.iec104Port
  iec104DefaultCa := parts.server.iec104DefaultCa
  iec104GiOnly := parts.server.iec104GiOnly
  iec104Timestamps := parts.server.iec104Timestamps
  iec104MaxAge := parts.server.iec104MaxAge
  iec104QueueSize := parts.server.iec104QueueSize
  metricsPort := parts.server.metricsPort
  tlsEnabled := parts.tls.tlsEnabled
  tlsCertPath := parts.tls.tlsCertPath
  tlsKeyPath := parts.tls.tlsKeyPath
  tlsCaCertPath := parts.tls.tlsCaCertPath
  tlsPort := parts.tls.tlsPort

/-- The loaders that make up a configuration. -/
structure Loads (e : Env) (parts : ConfigParts) : Prop where
  inputTransport : Config.loadInputTransport e = .ok parts.inputTransport
  nats : Config.loadNatsConfig e parts.inputTransport = .ok parts.nats
  unixSocket : Config.loadUnixSocketConfig e = .ok parts.unixSocket
  server : Config.loadServerConfig e = .ok parts.server
  tls : Config.loadTlsConfig e = .ok parts.tls

theorem fromLookup_ok_iff {config : Config} :
    Config.fromLookup e = .ok config ↔ ∃ parts, Loads e parts ∧ config = parts.config := by
  constructor
  · intro h
    obtain ⟨parts, h₁, h⟩ := except_bind_ok h
    obtain ⟨transport, ht, h₁⟩ := except_bind_ok h₁
    obtain ⟨nats, hn, h₁⟩ := except_bind_ok h₁
    obtain ⟨unixSocket, hu, h₁⟩ := except_bind_ok h₁
    obtain ⟨server, hs, h₁⟩ := except_bind_ok h₁
    obtain ⟨tls, hl, h₁⟩ := except_bind_ok h₁
    cases h₁
    cases h
    exact ⟨_, ⟨ht, hn, hu, hs, hl⟩, rfl⟩
  · rintro ⟨parts, ⟨ht, hn, hu, hs, hl⟩, rfl⟩
    simp only [Config.fromLookup, Config.loadConfigParts, ht, hn, hu, hs, hl, bind, Except.bind, pure,
      Except.pure]
    rfl

theorem isOk_iff {ε α : Type} {x : Except ε α} : x.isOk = true ↔ ∃ a, x = .ok a := by
  cases x <;> simp

/-- An environment is accepted if every loader accepts it. -/
theorem fromLookup_isOk_iff : (Config.fromLookup e).isOk = true ↔
    ∃ transport, Config.loadInputTransport e = .ok transport ∧
      (Config.loadNatsConfig e transport).isOk = true ∧ (Config.loadUnixSocketConfig e).isOk = true ∧
      (Config.loadServerConfig e).isOk = true ∧ (Config.loadTlsConfig e).isOk = true := by
  simp only [isOk_iff, fromLookup_ok_iff]
  constructor
  · rintro ⟨_, parts, ⟨ht, hn, hu, hs, hl⟩, rfl⟩
    exact ⟨_, ht, ⟨_, hn⟩, ⟨_, hu⟩, ⟨_, hs⟩, ⟨_, hl⟩⟩
  · rintro ⟨transport, ht, ⟨nats, hn⟩, ⟨unixSocket, hu⟩, ⟨server, hs⟩, ⟨tls, hl⟩⟩
    exact ⟨_, ⟨transport, nats, unixSocket, server, tls⟩, ⟨ht, hn, hu, hs, hl⟩, rfl⟩

theorem Loads.sameSettings {parts parts' : ConfigParts} (h : Loads e parts) (h' : Loads e' parts')
    (ht : Config.loadInputTransport e = Config.loadInputTransport e')
    (hn : parts.inputTransport = .nats →
      Config.loadNatsConfig e .nats = Config.loadNatsConfig e' .nats)
    (hu : parts.inputTransport = .unixSocket →
      Config.loadUnixSocketConfig e = Config.loadUnixSocketConfig e')
    (hs : Config.loadServerConfig e = Config.loadServerConfig e')
    (hl : Config.loadTlsConfig e = Config.loadTlsConfig e') :
    SameSettings parts.config parts'.config := by
  obtain ⟨transport, nats, unixSocket, server, tls⟩ := parts
  obtain ⟨transport', nats', unixSocket', server', tls'⟩ := parts'
  obtain ⟨ht₁, hn₁, hu₁, hs₁, hl₁⟩ := h
  obtain ⟨ht₂, hn₂, hu₂, hs₂, hl₂⟩ := h'
  obtain rfl : transport = transport' := by simpa [ht₁, ht₂] using ht
  obtain rfl : server = server' := by simpa [hs₁, hs₂] using hs
  obtain rfl : tls = tls' := by simpa [hl₁, hl₂] using hl
  refine ⟨rfl, fun hq => ?_, fun hq => ?_, ⟨rfl, rfl, rfl, rfl, rfl, rfl, rfl⟩, rfl,
    ⟨rfl, rfl, rfl, rfl, rfl⟩⟩
  · obtain rfl : transport = .nats := hq
    obtain rfl : nats = nats' := by simpa [hn₁, hn₂] using hn rfl
    exact ⟨rfl, rfl, rfl, rfl, rfl⟩
  · obtain rfl : transport = .unixSocket := hq
    obtain rfl : unixSocket = unixSocket' := by simpa [hu₁, hu₂] using hu rfl
    exact ⟨rfl, rfl, rfl, rfl⟩

/-- The Unix-socket settings parse, where they are set. -/
structure UnixSocketParses (e : Env) : Prop where
  maxLineBytes (v : String) : e "UNIX_SOCKET_MAX_LINE_BYTES" = some v →
    ∃ n : Usize, FromStr.parse v = some n ∧ n.val ≠ 0
  allowedUid (v : String) : e "UNIX_SOCKET_ALLOWED_UID" = some v →
    ∃ n : UInt32, FromStr.parse v = some n
  allowedGid (v : String) : e "UNIX_SOCKET_ALLOWED_GID" = some v →
    ∃ n : UInt32, FromStr.parse v = some n

theorem parseOptional_isOk_iff (T : Type) [FromStr T] (key : String) :
    (Config.parseOptional T e key).isOk = true ↔
      ∀ v, e key = some v → ∃ n : T, FromStr.parse v = some n := by
  unfold Config.parseOptional
  cases e key with
  | none => simp
  | some v => cases h : FromStr.parse (T := T) v <;> simp [h]

theorem loadUnixSocketMaxLineBytes_isOk_iff :
    (Config.loadUnixSocketMaxLineBytes e).isOk = true ↔
      ∀ v, e "UNIX_SOCKET_MAX_LINE_BYTES" = some v →
        ∃ n : Usize, FromStr.parse v = some n ∧ n.val ≠ 0 := by
  have hd : FromStr.parse "65536" = some (⟨65536⟩ : Usize) := by decide +kernel
  unfold Config.loadUnixSocketMaxLineBytes Config.parseWithDefault
  cases e "UNIX_SOCKET_MAX_LINE_BYTES" with
  | none => simp [hd, isOk_bind, Config.bailIf]
  | some v =>
    cases hp : FromStr.parse (T := Usize) v with
    | none => simp [hp, isOk_bind]
    | some n => by_cases hz : n.val = 0 <;> simp [hp, hz, isOk_bind, Config.bailIf]

theorem loadUnixSocketConfig_isOk_iff :
    (Config.loadUnixSocketConfig e).isOk = true ↔ UnixSocketParses e := by
  have hm := loadUnixSocketMaxLineBytes_isOk_iff (e := e)
  have hu := parseOptional_isOk_iff (e := e) UInt32 "UNIX_SOCKET_ALLOWED_UID"
  have hg := parseOptional_isOk_iff (e := e) UInt32 "UNIX_SOCKET_ALLOWED_GID"
  constructor
  · intro h
    obtain ⟨parts, h⟩ := isOk_iff.1 h
    obtain ⟨m, h₁, h⟩ := except_bind_ok h
    obtain ⟨u, h₂, h⟩ := except_bind_ok h
    obtain ⟨g, h₃, -⟩ := except_bind_ok h
    exact ⟨hm.1 (isOk_iff.2 ⟨m, h₁⟩), hu.1 (isOk_iff.2 ⟨u, h₂⟩), hg.1 (isOk_iff.2 ⟨g, h₃⟩)⟩
  · intro h
    obtain ⟨m, h₁⟩ := isOk_iff.1 (hm.2 h.maxLineBytes)
    obtain ⟨u, h₂⟩ := isOk_iff.1 (hu.2 h.allowedUid)
    obtain ⟨g, h₃⟩ := isOk_iff.1 (hg.2 h.allowedGid)
    simp [Config.loadUnixSocketConfig, h₁, h₂, h₃, bind, Except.bind, pure, Except.pure]

/-- The NATS loader accepts everything while the Unix socket is selected. -/
theorem loadNatsConfig_unixSocket : (Config.loadNatsConfig e .unixSocket).isOk = true := rfl

theorem loadNatsConfig_nats_isOk_iff : (Config.loadNatsConfig e .nats).isOk = true ↔
    (e "NATS_STREAM").isSome = true ∧ (e "NATS_CONSUMER").isSome = true := by
  unfold Config.loadNatsConfig Config.loadNatsConsumerParts Config.required
  cases e "NATS_STREAM" <;> cases e "NATS_CONSUMER" <;> simp [bind, Except.bind, pure, Except.pure]

/-- The settings besides those of the Unix socket are accepted. -/
def OthersAccepted (e : Env) : Prop :=
  (e "NATS_STREAM").isSome = true ∧ (e "NATS_CONSUMER").isSome = true ∧
    (Config.loadServerConfig e).isOk = true ∧ (Config.loadTlsConfig e).isOk = true

theorem fromLookup_isOk_of_nats (ht : Config.loadInputTransport e = .ok .nats) :
    (Config.fromLookup e).isOk = true ↔ UnixSocketParses e ∧ OthersAccepted e := by
  rw [fromLookup_isOk_iff, OthersAccepted]
  constructor
  · rintro ⟨transport, ht', hn, hu, hs, hl⟩
    obtain rfl : InputTransport.nats = transport := by simpa [ht] using ht'
    have hn := loadNatsConfig_nats_isOk_iff.1 hn
    exact ⟨loadUnixSocketConfig_isOk_iff.1 hu, hn.1, hn.2, hs, hl⟩
  · rintro ⟨hu, h₁, h₂, hs, hl⟩
    exact ⟨.nats, ht, loadNatsConfig_nats_isOk_iff.2 ⟨h₁, h₂⟩, loadUnixSocketConfig_isOk_iff.2 hu,
      hs, hl⟩

theorem fromLookup_isOk_of_unixSocket (ht : Config.loadInputTransport e = .ok .unixSocket) :
    (Config.fromLookup e).isOk = true ↔ (Config.loadUnixSocketConfig e).isOk = true ∧
      (Config.loadServerConfig e).isOk = true ∧ (Config.loadTlsConfig e).isOk = true := by
  rw [fromLookup_isOk_iff]
  constructor
  · rintro ⟨transport, -, -, hu, hs, hl⟩
    exact ⟨hu, hs, hl⟩
  · rintro ⟨hu, hs, hl⟩
    exact ⟨.unixSocket, ht, loadNatsConfig_unixSocket, hu, hs, hl⟩

theorem unselected_subset : unselectedVariables e ⊆ natsVariables ++ unixSocketVariables := by
  unfold unselectedVariables
  split
  · exact List.subset_append_right _ _
  · exact List.subset_append_left _ _
  · exact List.Subset.refl _

theorem AgreeBut.mono {keys keys' : List String} (h : AgreeBut keys e e') (hs : keys ⊆ keys') :
    AgreeBut keys' e e' :=
  fun k hk => h k fun hk' => hk (hs hk')

end

/-- **Settings of the unselected transport.** Two environments that agree but
on variables of the transport not selected get the same verdict, unless NATS is
selected, the other settings are accepted, and the Unix-socket settings parse in
one of the environments only. -/
theorem transport_independent_iff {e e' : Env} (h : AgreeBut (unselectedVariables e) e e') :
    SameVerdict e e' ↔ (Config.loadInputTransport e = .ok .nats → OthersAccepted e →
      (UnixSocketParses e ↔ UnixSocketParses e')) := by
  have ha := h.mono unselected_subset
  have ht : Config.loadInputTransport e = Config.loadInputTransport e' :=
    loadInputTransport_congr ha (by decide)
  have hs := loadServerConfig_congr ha
  have hl := loadTlsConfig_congr ha
  -- Once both are accepted, they agree on what is in use.
  have hsame (hn : Config.loadInputTransport e = .ok .nats →
        Config.loadNatsConfig e .nats = Config.loadNatsConfig e' .nats)
      (hu : Config.loadInputTransport e = .ok .unixSocket →
        Config.loadUnixSocketConfig e = Config.loadUnixSocketConfig e') (c c' : Config)
      (hc : Config.fromLookup e = .ok c) (hc' : Config.fromLookup e' = .ok c') :
      SameSettings c c' := by
    obtain ⟨parts, hp, rfl⟩ := fromLookup_ok_iff.1 hc
    obtain ⟨parts', hp', rfl⟩ := fromLookup_ok_iff.1 hc'
    exact hp.sameSettings hp' ht (fun hq => hn (hq ▸ hp.inputTransport))
      (fun hq => hu (hq ▸ hp.inputTransport)) hs hl
  cases hm : Config.loadInputTransport e with
  | error err =>
    have hf : ¬ (Config.fromLookup e).isOk = true := by simp [fromLookup_isOk_iff, hm]
    have hf' : ¬ (Config.fromLookup e').isOk = true := by simp [fromLookup_isOk_iff, ← ht, hm]
    constructor
    · intro _ hq
      cases hq
    · intro _
      exact ⟨iff_of_false hf hf', hsame (by simp [hm]) (by simp [hm])⟩
  | ok transport =>
    cases transport with
    | unixSocket =>
      have hu : Config.loadUnixSocketConfig e = Config.loadUnixSocketConfig e' :=
        loadUnixSocketConfig_congr fun k hk => h k (by
          rw [unselectedVariables, hm]
          revert k
          decide)
      constructor
      · intro _ hq
        cases hq
      · intro _
        refine ⟨?_, hsame (by simp [hm]) fun _ => hu⟩
        rw [fromLookup_isOk_of_unixSocket hm, fromLookup_isOk_of_unixSocket (ht ▸ hm), hu, hs, hl]
    | nats =>
      have hv (k : String) (hk : k ∈ natsVariables) : e k = e' k :=
        h k (by
          rw [unselectedVariables, hm]
          revert k
          decide)
      have ho : OthersAccepted e ↔ OthersAccepted e' := by
        rw [OthersAccepted, OthersAccepted, hv "NATS_STREAM" (by decide),
          hv "NATS_CONSUMER" (by decide), hs, hl]
      have hn (_ : Config.loadInputTransport e = .ok .nats) :=
        loadNatsConfig_congr hv InputTransport.nats
      have he := fromLookup_isOk_of_nats hm
      have he' := fromLookup_isOk_of_nats (ht ▸ hm)
      constructor
      · intro hq _ hok
        have hq := hq.accepted
        rw [he, he', ← ho] at hq
        exact ⟨fun hp => (hq.1 ⟨hp, hok⟩).1, fun hp => (hq.2 ⟨hp, hok⟩).1⟩
      · intro hq
        refine ⟨?_, hsame hn (by simp [hm])⟩
        rw [he, he', ← ho]
        exact and_congr_left fun hok => hq rfl hok

/-- A bridge with NATS, and what a former Unix-socket deployment left in its environment. -/
def natsEnv (leftover : Env) : Env := fun key =>
  if key = "NATS_STREAM" then some "TELEMETRY"
  else if key = "NATS_CONSUMER" then some "iec104bridge"
  else if key ∈ unixSocketVariables then leftover key
  else none

theorem natsEnv_agree (l l' : Env) :
    AgreeBut (unselectedVariables (natsEnv l)) (natsEnv l) (natsEnv l') := by
  have hv : unselectedVariables (natsEnv l) = unixSocketVariables := rfl
  intro k hk
  simp only [natsEnv, hv ▸ hk, if_false]

theorem transport_independent_iff_sample :
    SameVerdict (natsEnv fun _ => none) (natsEnv fun key =>
      if key = "UNIX_SOCKET_PATH" then some "/run/iec104.sock" else none) := by
  refine (transport_independent_iff (natsEnv_agree _ _)).2 fun _ _ => ?_
  refine ⟨fun _ => ⟨?_, ?_, ?_⟩, fun _ => ⟨?_, ?_, ?_⟩⟩ <;> intro v hv <;> cases hv

/-- A leftover `UNIX_SOCKET_ALLOWED_UID=sensors` keeps a bridge with NATS from starting. -/
theorem leftover_rejected : ¬ ∀ e e' : Env, AgreeBut (unselectedVariables e) e e' →
    SameVerdict e e' := by
  intro h
  have hv := (h _ _ (natsEnv_agree (fun _ => none) fun key =>
    if key = "UNIX_SOCKET_ALLOWED_UID" then some "sensors" else none)).accepted
  revert hv
  decide +kernel

end Iec104Bridge
