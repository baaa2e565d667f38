import Iec104Bridge.Model.Startup
import Iec104Bridge.Proof.Configuration

/-!
# What the bridge starts, and who reaches it

No `expect` of `main` fires, since an accepted configuration has the paths that
TLS needs. rustls panics in TLS mode where it finds no provider, once the file of
the clients' certificates is loaded; and what is started fits together
(`start_sound`): in TLS mode lib60870's server is bound to loopback, at the
address the sessions connect to, and clients are verified against the
certificates of the configured file. So with a provider, along every run a
connection of another host reaches the server only through a session of its own,
once its handshake was verified (`remote_verified`).
-/

namespace Iec104Bridge

open Framework

variable {Cert Key : Type} {lib : TlsLibrary Cert Key} {get : Env} {sockets : Sockets}
  {started : Started Cert Key}

/-! ## Starting -/

section

variable {ε ε' α β : Type}

theorem mapError_ok_iff {x : Except ε α} {f : ε → ε'} {a : α} : x.mapError f = .ok a ↔ x = .ok a := by
  cases x <;> simp [Except.mapError]

theorem expect_ok_iff {message : String} {o : Option α} {a : α} :
    expect (ε := ε) message o = .ok a ↔ o = some a := by
  cases o <;> simp [expect]

/-- A panic is that of one of the two steps. -/
theorem bind_panic_iff {x : Except (Failure ε) α} {f : α → Except (Failure ε) β} {p : Panic} :
    (x >>= f) = .error (.panic p) ↔ x = .error (.panic p) ∨ ∃ a, x = .ok a ∧ f a = .error (.panic p) := by
  cases x <;> simp [bind, Except.bind]

/-- `?` does not panic. -/
theorem orFail_ne_panic {x : Except ε α} {p : Panic} : orFail x ≠ .error (.panic p) := by
  cases x <;> simp [orFail, Except.mapError]

theorem orFail_ok_iff {x : Except ε α} {a : α} : orFail x = .ok a ↔ x = .ok a := mapError_ok_iff

theorem expect_panic_iff {message : String} {o : Option α} {p : Panic} :
    expect (ε := ε) message o = .error (.panic p) ↔ o = none ∧ p = .expected message := by
  cases o <;> simp [expect, eq_comm]

theorem mapError_panic_iff {x : Except (Failure ε) α} {f : ε → ε'} {p : Panic} :
    x.mapError (Failure.map f) = .error (.panic p) ↔ x = .error (.panic p) := by
  cases x with
  | error e => cases e <;> simp [Except.mapError, Failure.map]
  | ok => simp [Except.mapError]

theorem ensure_ok_iff {message : String} {ok : Bool} {a : Unit} : ensure message ok = .ok a ↔ ok = true := by
  cases ok <;> simp [ensure]

end

theorem defaultProvider_ok_iff {provider : CryptoProvider Cert Key} :
    defaultProvider lib = .ok provider ↔ lib.provider = some provider := by
  unfold defaultProvider
  cases lib.provider <;> simp

theorem defaultProvider_panic_iff {p : Panic} :
    defaultProvider lib = .error (.panic p) ↔ p = .noProvider ∧ lib.provider = none := by
  unfold defaultProvider
  cases lib.provider <;> simp [eq_comm]

/-- What an acceptor is built of. -/
structure Built (lib : TlsLibrary Cert Key) (cfg : TlsConfig) (acceptor : TlsAcceptor Cert Key) : Prop where
  provider : lib.provider = some acceptor.provider
  roots : loadCerts lib cfg.caCertPath = .ok acceptor.roots
  chain : loadCerts lib cfg.certPath = .ok acceptor.chain
  key : loadPrivateKey lib cfg.keyPath = .ok acceptor.key

/-- An acceptor trusts the certificates of the file, and presents those of the other. -/
theorem buildAcceptor_ok {cfg : TlsConfig} {acceptor : TlsAcceptor Cert Key}
    (h : buildAcceptor lib cfg = .ok acceptor) : Built lib cfg acceptor := by
  obtain ⟨roots, hroots, h⟩ := except_bind_ok h
  obtain ⟨_, -, h⟩ := except_bind_ok h
  obtain ⟨provider, hprovider, h⟩ := except_bind_ok h
  obtain ⟨_, -, h⟩ := except_bind_ok h
  obtain ⟨chain, hchain, h⟩ := except_bind_ok h
  obtain ⟨key, hkey, h⟩ := except_bind_ok h
  obtain ⟨_, -, h⟩ := except_bind_ok h
  cases h
  exact ⟨defaultProvider_ok_iff.mp hprovider, mapError_ok_iff.mp (mapError_ok_iff.mp hroots),
    mapError_ok_iff.mp (mapError_ok_iff.mp hchain), mapError_ok_iff.mp (mapError_ok_iff.mp hkey)⟩

/-- The certificates of the file at a path are loaded, and trusted as roots. -/
def LoadsRoots (lib : TlsLibrary Cert Key) (path : String) : Prop :=
  ∃ roots, loadCerts lib path = .ok roots ∧ roots.all lib.addRoot = true

/-- rustls panics without a provider, once the roots are loaded. -/
theorem buildAcceptor_panic_iff {cfg : TlsConfig} {p : Panic} :
    buildAcceptor lib cfg = .error (.panic p) ↔
      p = .noProvider ∧ lib.provider = none ∧ LoadsRoots lib cfg.caCertPath := by
  simp only [buildAcceptor, withContext, bind_panic_iff, orFail_ne_panic, orFail_ok_iff, mapError_ok_iff,
    ensure_ok_iff, defaultProvider_panic_iff, false_or]
  constructor
  · rintro ⟨roots, hroots, -, hadd, ⟨rfl, hnone⟩ | ⟨_, -, _, -, _, -, _, -, _, -, h⟩⟩
    · exact ⟨rfl, hnone, roots, hroots, hadd⟩
    · cases h
  · rintro ⟨rfl, hnone, roots, hroots, hadd⟩
    exact ⟨roots, hroots, (), hadd, .inl ⟨rfl, hnone⟩⟩

/-- A chain of the file at a path is not empty. -/
theorem loadCerts_ne_nil {path : String} {certs : List Cert} (h : loadCerts lib path = .ok certs) :
    certs ≠ [] := by
  obtain ⟨_, -, h⟩ := except_bind_ok h
  obtain ⟨certs', -, h⟩ := except_bind_ok h
  split at h <;> cases h
  rename_i hn
  simpa using hn

/-- What is started in TLS mode. -/
structure TlsStarted (lib : TlsLibrary Cert Key) (started : Started Cert Key)
    (listener : TlsListener Cert Key) : Prop where
  /-- Only processes of this host reach the server. -/
  loopback : started.server.localAddress = "127.0.0.1"
  bind : listener.bind = ⟨started.config.iec104BindAddr, started.config.tlsPort⟩
  iec104Local : listener.iec104Local = started.server.addr
  provider : lib.provider = some listener.acceptor.provider
  roots : ∃ path, started.config.tlsCaCertPath = some path ∧
    loadCerts lib path = .ok listener.acceptor.roots ∧ listener.acceptor.roots ≠ []
  chain : ∃ path, started.config.tlsCertPath = some path ∧
    loadCerts lib path = .ok listener.acceptor.chain
  key : ∃ path, started.config.tlsKeyPath = some path ∧
    loadPrivateKey lib path = .ok listener.acceptor.key

theorem start_ok (h : start lib get sockets = .ok started) :
    Config.fromLookup get = .ok started.config ∧ buildIecServer started.config sockets = .ok started.server ∧
      spawnTlsListenerIfEnabled lib started.config sockets = .ok started.tls := by
  obtain ⟨config, hc, h⟩ := except_bind_ok h
  obtain ⟨server, hs, h⟩ := except_bind_ok h
  obtain ⟨tls, ht, h⟩ := except_bind_ok h
  cases h
  exact ⟨mapError_ok_iff.mp hc, mapError_ok_iff.mp (mapError_ok_iff.mp hs), mapError_ok_iff.mp ht⟩

theorem server_eq {config : Config} {server : IecServer} (h : buildIecServer config sockets = .ok server) :
    server = { localAddress := effectiveIec104BindAddr config, localPort := config.iec104Port,
               lowPrioQueueSize := config.iec104QueueSize, highPrioQueueSize := config.iec104QueueSize } := by
  unfold buildIecServer at h
  split at h <;> cases h
  rfl

theorem builds_of_ok {config : Config} {server : IecServer} (h : buildIecServer config sockets = .ok server) :
    sockets.builds = true := by
  unfold buildIecServer at h
  split at h <;> [assumption; cases h]

/-- In TLS mode the listener is started as configured. -/
theorem tls_started (h : start lib get sockets = .ok started) (htls : started.config.tlsEnabled = true) :
    ∃ listener, started.tls = some listener ∧ TlsStarted lib started listener := by
  obtain ⟨-, hs, ht⟩ := start_ok h
  have hs := server_eq hs
  unfold spawnTlsListenerIfEnabled at ht
  rw [if_neg (not_not.mpr htls)] at ht
  obtain ⟨certPath, hcert, ht⟩ := except_bind_ok ht
  obtain ⟨keyPath, hkey, ht⟩ := except_bind_ok ht
  obtain ⟨caCertPath, hca, ht⟩ := except_bind_ok ht
  obtain ⟨acceptor, ha, ht⟩ := except_bind_ok ht
  obtain ⟨_, -, ht⟩ := except_bind_ok ht
  have ht : some _ = started.tls := Except.ok.inj ht
  obtain ⟨hprovider, hroots, hchain, hk⟩ := buildAcceptor_ok (mapError_ok_iff.mp ha)
  have hlocal : started.server.localAddress = "127.0.0.1" := by
    rw [hs]
    exact if_pos htls
  refine ⟨_, ht.symm, hlocal, rfl, ?_, hprovider,
    ⟨_, expect_ok_iff.mp hca, hroots, loadCerts_ne_nil hroots⟩,
    ⟨_, expect_ok_iff.mp hcert, hchain⟩, ⟨_, expect_ok_iff.mp hkey, hk⟩⟩
  rw [IecServer.addr, hlocal, hs]

/-- The `expect`s do not fire for a valid configuration, so rustls's is the only panic. -/
theorem spawn_panic_iff {config : Config} (hv : config.Valid) {p : Panic} :
    spawnTlsListenerIfEnabled lib config sockets = .error (.panic p) ↔
      p = .noProvider ∧ lib.provider = none ∧ config.tlsEnabled = true ∧
        ∃ path, config.tlsCaCertPath = some path ∧ LoadsRoots lib path := by
  unfold spawnTlsListenerIfEnabled
  cases htls : config.tlsEnabled with
  | false => simp
  | true =>
    obtain ⟨hcert, hkey, hca⟩ := hv.tls htls
    obtain ⟨certPath, hcert⟩ := Option.isSome_iff_exists.mp hcert
    obtain ⟨keyPath, hkey⟩ := Option.isSome_iff_exists.mp hkey
    obtain ⟨caCertPath, hca⟩ := Option.isSome_iff_exists.mp hca
    simp [bind_panic_iff, expect_panic_iff, expect_ok_iff, mapError_panic_iff, buildAcceptor_panic_iff,
      orFail_ne_panic, hcert, hkey, hca, pure, Except.pure]

/-- **Starting.** The only panic of `main` before it supervises the source is that
of rustls without a provider, and it comes exactly when an accepted configuration
is in TLS mode, lib60870's server is built, and the clients' roots are loaded; no
`expect` fires. What `main` has started has an accepted configuration, and a
listener in TLS mode only, which is set up as configured. -/
theorem start_sound (lib : TlsLibrary Cert Key) (get : Env) (sockets : Sockets) :
    (∀ p, start lib get sockets = .error (.panic p) ↔ p = .noProvider ∧ lib.provider = none ∧
      ∃ config path, Config.fromLookup get = .ok config ∧ sockets.builds = true ∧
        config.tlsEnabled = true ∧ config.tlsCaCertPath = some path ∧ LoadsRoots lib path) ∧
    ∀ started, start lib get sockets = .ok started →
      started.config.Valid ∧
      started.server = {
        localAddress := effectiveIec104BindAddr started.config
        localPort := started.config.iec104Port
        lowPrioQueueSize := started.config.iec104QueueSize
        highPrioQueueSize := started.config.iec104QueueSize } ∧
      (started.config.tlsEnabled = false → started.tls = none) ∧
      (started.config.tlsEnabled = true →
        ∃ listener, started.tls = some listener ∧ TlsStarted lib started listener) := by
  refine ⟨fun p => ?_, fun started h => ?_⟩
  · simp only [start, bind_panic_iff, orFail_ne_panic, orFail_ok_iff, mapError_ok_iff, mapError_panic_iff,
      false_or]
    constructor
    · rintro ⟨config, hc, server, hs, hp | ⟨_, -, h⟩⟩
      · obtain ⟨rfl, hnone, htls, path, hpath, hroots⟩ := (spawn_panic_iff (valid_of_accepted hc)).mp hp
        exact ⟨rfl, hnone, config, path, hc, builds_of_ok hs, htls, hpath, hroots⟩
      · cases h
    · rintro ⟨rfl, hnone, config, path, hc, hb, htls, hpath, hroots⟩
      exact ⟨config, hc, _, if_pos hb,
        .inl ((spawn_panic_iff (valid_of_accepted hc)).mpr ⟨rfl, hnone, htls, path, hpath, hroots⟩)⟩
  · obtain ⟨hc, hs, ht⟩ := start_ok h
    refine ⟨valid_of_accepted hc, server_eq hs, fun hf => ?_, tls_started h⟩
    unfold spawnTlsListenerIfEnabled at ht
    rw [if_pos (by simp [hf])] at ht
    exact (Except.ok.inj ht).symm

/-! ## Sessions -/

section

variable {reaches : Peer → String → Bool} {s t : IngressState Cert} {o : Option (IngressEffect Cert)}
  {w : List (IngressEffect Cert)} {c : SessionId}

@[simp] theorem IngressState.setSession_self (s : IngressState Cert) (c : SessionId)
    (phase : SessionPhase Cert) : (s.setSession c phase).sessions c = phase := Function.update_self ..

theorem IngressState.setSession_of_ne (s : IngressState Cert) {c d : SessionId}
    (phase : SessionPhase Cert) (h : d ≠ c) : (s.setSession c phase).sessions d = s.sessions d :=
  Function.update_of_ne h ..

/-- What a step can do. -/
inductive IngressStep (reaches : Peer → String → Bool)
    (started : Started Cert Key) (s : IngressState Cert) :
    IngressState Cert → Option (IngressEffect Cert) → Prop
  | direct {peer : Peer} : reaches peer started.server.localAddress = true →
    IngressStep reaches started s s (some (.reached started.server.addr peer none))
  | accept {c : SessionId} {peer : Peer} : s.sessions c = .absent →
    IngressStep reaches started s (s.setSession c (.handshaking peer)) (some (.accepted c peer))
  | acceptError : IngressStep reaches started s s none
  | verify {listener : TlsListener Cert Key} {c : SessionId} {peer : Peer} {chain : List Cert} :
    started.tls = some listener → s.sessions c = .handshaking peer →
    listener.acceptor.provider.validates listener.acceptor.roots chain = true →
    IngressStep reaches started s (s.setSession c (.connecting peer chain)) (some (.verified c chain))
  | connect {listener : TlsListener Cert Key} {c : SessionId} {peer : Peer} {chain : List Cert} :
    started.tls = some listener → s.sessions c = .connecting peer chain →
    IngressStep reaches started s (s.setSession c .proxying)
      (some (.reached listener.iec104Local peer (some c)))
  | finish {c : SessionId} : s.sessions c ≠ .absent →
    IngressStep reaches started s (s.setSession c .ended) none

theorem ingressStep_cases {e : IngressEvent Cert} (h : ingressStep reaches started s e = some (t, o)) :
    IngressStep reaches started s t o := by
  cases e with
  | direct peer =>
    simp only [ingressStep] at h
    split at h <;> cases h
    exact .direct ‹_›
  | accept c peer =>
    simp only [ingressStep] at h
    split at h <;> [skip; cases h]
    split at h <;> cases h
    exact .accept ‹_›
  | acceptError =>
    simp only [ingressStep] at h
    split at h <;> cases h
    exact .acceptError
  | handshake c presented =>
    simp only [ingressStep] at h
    split at h <;> [skip; cases h]
    rename_i listener peer hl hp
    split at h
    · split at h <;> cases h
      · exact .verify hl hp ‹_›
      · exact .finish (by simp [hp])
    · cases h
      exact .finish (by simp [hp])
  | connect c ok =>
    simp only [ingressStep] at h
    split at h <;> [skip; cases h]
    rename_i listener peer chain hl hp
    split at h <;> cases h
    · exact .connect hl hp
    · exact .finish (by simp [hp])
  | close c =>
    simp only [ingressStep] at h
    split at h <;> cases h
    rename_i hp
    exact .finish (by simp [hp])

/-- The session an effect is of. -/
def IngressEffect.session : IngressEffect Cert → Option SessionId
  | .accepted c _ | .verified c _ => some c
  | .reached _ _ session => session

/-- The handshake of a session of a peer was verified. -/
def Verified (started : Started Cert Key) (w : List (IngressEffect Cert))
    (c : SessionId) (peer : Peer) (chain : List Cert) : Prop :=
  (∃ listener, started.tls = some listener ∧
    listener.acceptor.provider.validates listener.acceptor.roots chain = true) ∧
    ∃ w₁ w₂ w₃, w = w₁ ++ .accepted c peer :: (w₂ ++ .verified c chain :: w₃)

/-- What a run logged of a session, by its phase. -/
def SessionPhase.Logged (started : Started Cert Key) (w : List (IngressEffect Cert)) (c : SessionId) : SessionPhase Cert → Prop
  | .absent => ∀ e ∈ w, e.session ≠ some c
  | .handshaking peer => .accepted c peer ∈ w ∧ ∀ addr peer, .reached addr peer (some c) ∉ w
  | .connecting peer chain => Verified started w c peer chain ∧
      ∀ addr peer, .reached addr peer (some c) ∉ w
  | .proxying | .ended => True

/-- What other sessions log changes nothing. -/
theorem SessionPhase.Logged.append {phase : SessionPhase Cert} (h : phase.Logged started w c)
    (ho : ∀ e ∈ o, e.session ≠ some c) : phase.Logged started (w ++ o.toList) c := by
  have hreach (hr : ∀ addr peer, .reached addr peer (some c) ∉ w) (addr : SocketAddr) (peer : Peer) :
      .reached addr peer (some c) ∉ w ++ o.toList := by
    intro hm
    rcases List.mem_append.mp hm with hm | hm
    · exact hr addr peer hm
    · exact ho _ (Option.mem_toList.mp hm) rfl
  cases phase with
  | absent =>
    intro e he
    rcases List.mem_append.mp he with he | he
    · exact h e he
    · exact ho e (Option.mem_toList.mp he)
  | handshaking peer => exact ⟨List.mem_append_left _ h.1, hreach h.2⟩
  | connecting peer chain =>
    obtain ⟨⟨hv, w₁, w₂, w₃, rfl⟩, hr⟩ := h
    exact ⟨⟨hv, w₁, w₂, w₃ ++ o.toList, by simp⟩, hreach hr⟩
  | proxying => trivial
  | ended => trivial

theorem logged_step (h : ∀ c, (s.sessions c).Logged started w c)
    (hs : IngressStep reaches started s t o) (c : SessionId) : (t.sessions c).Logged started (w ++ o.toList) c := by
  cases hs with
  | direct => exact (h c).append fun e he => by cases he; simp [IngressEffect.session]
  | acceptError => exact (h c).append fun e he => by cases he
  | @accept d peer hp =>
    by_cases hc : c = d
    · subst hc
      have hl := h c
      rw [hp] at hl
      rw [IngressState.setSession_self]
      refine ⟨by simp, fun addr peer' hm => ?_⟩
      rcases List.mem_append.mp hm with hm | hm
      · exact hl _ hm rfl
      · cases List.mem_singleton.mp hm
    · rw [IngressState.setSession_of_ne _ _ hc]
      exact (h c).append fun e he => by cases he; simpa [IngressEffect.session] using Ne.symm hc
  | @verify listener d peer chain hl hp hv =>
    by_cases hc : c = d
    · subst hc
      have hlog := h c
      rw [hp] at hlog
      obtain ⟨hacc, hr⟩ := hlog
      obtain ⟨w₁, w₂, rfl⟩ := List.append_of_mem hacc
      rw [IngressState.setSession_self]
      refine ⟨⟨⟨listener, hl, hv⟩, w₁, w₂, [], by simp⟩, fun addr peer' hm => ?_⟩
      rcases List.mem_append.mp hm with hm | hm
      · exact hr addr peer' hm
      · cases List.mem_singleton.mp hm
    · rw [IngressState.setSession_of_ne _ _ hc]
      exact (h c).append fun e he => by cases he; simpa [IngressEffect.session] using Ne.symm hc
  | @connect listener d peer chain hl hp =>
    by_cases hc : c = d
    · subst hc
      rw [IngressState.setSession_self]
      trivial
    · rw [IngressState.setSession_of_ne _ _ hc]
      exact (h c).append fun e he => by cases he; simpa [IngressEffect.session] using Ne.symm hc
  | @finish d hp =>
    by_cases hc : c = d
    · subst hc
      rw [IngressState.setSession_self]
      trivial
    · rw [IngressState.setSession_of_ne _ _ hc]
      exact (h c).append fun e he => by cases he

theorem logged_of_run (h : (ingress reaches started).Run w s) (c : SessionId) :
    (s.sessions c).Logged started w c := by
  refine h.invariant (P := fun w s => ∀ c, (s.sessions c).Logged started w c)
    (fun c e he => absurd he List.not_mem_nil) (fun w s a t o _ ih hs => ?_) c
  exact logged_step ih (ingressStep_cases hs)

/-- **Verified masters.** In TLS mode, where rustls has a provider, a connection of
another host reaches lib60870's server only through a session of its own. The
handshake of this session was verified before, by the provider and against the
certificates of the configured file, and the session connects once, to the address
the server is bound to. -/
theorem remote_verified {provider : CryptoProvider Cert Key} {addr : SocketAddr} {host : String}
    {session : Option SessionId} {w' : List (IngressEffect Cert)}
    (hprovider : lib.provider = some provider) (hstart : start lib get sockets = .ok started)
    (htls : started.config.tlsEnabled = true)
    (hloop : reaches (.remote host) "127.0.0.1" = false)
    (h : (ingress reaches started).Run (w ++ .reached addr (.remote host) session :: w') s) :
    ∃ c chain path roots, session = some c ∧ addr = started.server.addr ∧
      started.config.tlsCaCertPath = some path ∧ loadCerts lib path = .ok roots ∧
      provider.validates roots chain = true ∧
      (∃ w₁ w₂ w₃, w = w₁ ++ .accepted c (.remote host) :: (w₂ ++ .verified c chain :: w₃)) ∧
      ∀ addr peer, .reached addr peer (some c) ∉ w := by
  obtain ⟨listener, hlistener, ht⟩ := tls_started hstart htls
  obtain ⟨t, a, t', hr, hs, -⟩ := h.split
  have hs : IngressStep reaches started t t' _ := ingressStep_cases hs
  generalize ho : some (IngressEffect.reached addr (.remote host) session : IngressEffect Cert) = o at hs
  cases hs with
  | direct hreach =>
    cases ho
    rw [ht.loopback, hloop] at hreach
    cases hreach
  | @connect listener' c peer chain hl hp =>
    cases ho
    rw [hlistener] at hl
    cases hl
    have hlog := logged_of_run hr c
    rw [hp] at hlog
    obtain ⟨⟨⟨listener', hl, hv⟩, hw⟩, hone⟩ := hlog
    rw [hlistener] at hl
    cases hl
    obtain ⟨path, hpath, hroots, -⟩ := ht.roots
    cases hprovider.symm.trans ht.provider
    exact ⟨c, chain, path, _, rfl, ht.iec104Local, hpath, hroots, hv, hw, hone⟩
  | _ => cases ho

end

/-- A provider for which a chain is valid if it ends in a root. -/
def CryptoProvider.sample : CryptoProvider UInt8 UInt8 where
  singleCert _ _ := true
  validates roots chain := chain.getLast?.any fun cert => cert ∈ roots

/-- A library in which files hold lists of numbers, once a provider was installed. -/
def TlsLibrary.sample : TlsLibrary UInt8 UInt8 where
  file path := if path = "ca" then some [1] else some [2, 1]
  certs := some
  privateKey bytes := some bytes.head?
  addRoot _ := true
  provider := some .sample
  clientVerifier _ := .ok ()

def Config.tlsSample : Config where
  inputTransport := .nats
  natsUrl := "nats://localhost:4222"
  natsStream := "sensors"
  natsConsumer := "iec104bridge"
  natsSubjectFilter := none
  natsCredentialsPath := none
  unixSocketPath := "/tmp/iec104bridge.sock"
  unixSocketAllowedUid := none
  unixSocketAllowedGid := none
  unixSocketMaxLineBytes := ⟨65536⟩
  iec104BindAddr := "0.0.0.0"
  iec104Port := 2404
  iec104DefaultCa := 1
  iec104GiOnly := false
  iec104Timestamps := true
  iec104MaxAge := none
  iec104QueueSize := 10000
  metricsPort := 9090
  tlsEnabled := true
  tlsCertPath := some "cert"
  tlsKeyPath := some "key"
  tlsCaCertPath := some "ca"
  tlsPort := 19998

def Started.tlsSample : Started UInt8 UInt8 where
  config := .tlsSample
  server := ⟨"127.0.0.1", 2404, 10000, 10000⟩
  tls := some ⟨⟨"0.0.0.0", 19998⟩, ⟨.sample, [1], [2, 1], 2⟩, ⟨"127.0.0.1", 2404⟩⟩

theorem fromLookup_tlsSample : orFail (Config.fromLookup Config.tlsSample.environ) = .ok Config.tlsSample := by
  have hv : Config.tlsSample.Valid := by
    refine ⟨by decide, by decide, fun age ha => ?_, fun ht => ?_, fun _ => ⟨rfl, rfl, rfl⟩⟩
    · cases ha
    · cases ht
  exact orFail_ok_iff.mpr (accepted_of_valid hv)

theorem start_tlsSample :
    start .sample Config.tlsSample.environ ⟨true, .ok ()⟩ = .ok Started.tlsSample := by
  rw [start, fromLookup_tlsSample]
  rfl

/-- The same files in the locked build. -/
example : start { TlsLibrary.sample with provider := none } Config.tlsSample.environ ⟨true, .ok ()⟩ =
    .error (.panic .noProvider) := by
  rw [start, fromLookup_tlsSample]
  rfl

/-- Other hosts do not reach what is bound to loopback. -/
def Peer.reachesSample (peer : Peer) (address : String) : Bool := peer = .loopback || address ≠ "127.0.0.1"

/-- A master with a certificate, and one without. -/
theorem remote_verified_sample : ∃ w s,
    (ingress Peer.reachesSample Started.tlsSample).Run
      (w ++ [.reached ⟨"127.0.0.1", 2404⟩ (.remote "10.0.0.5") (some 0)]) s ∧
    ∃ c chain path roots, some 0 = some c ∧ ⟨"127.0.0.1", 2404⟩ = Started.tlsSample.server.addr ∧
      some "ca" = some path ∧ loadCerts .sample path = .ok roots ∧
      CryptoProvider.sample.validates roots chain = true ∧
      (∃ w₁ w₂ w₃, w = w₁ ++ .accepted c (.remote "10.0.0.5") :: (w₂ ++ .verified c chain :: w₃)) ∧
      ∀ addr peer, .reached addr peer (some c) ∉ w := by
  obtain ⟨w, s, h, rfl⟩ := Machine.exists_run_of_exec
    (M := ingress Peer.reachesSample Started.tlsSample)
    [.accept 0 (.remote "10.0.0.5"), .accept 1 (.remote "10.0.0.6"), .handshake 1 none,
      .handshake 0 (some [3, 1]), .direct .loopback, .connect 0 true]
    (fun w _ => w)
    ([.accepted 0 (.remote "10.0.0.5"), .accepted 1 (.remote "10.0.0.6"), .verified 0 [3, 1],
      .reached ⟨"127.0.0.1", 2404⟩ .loopback none] ++
      [.reached ⟨"127.0.0.1", 2404⟩ (.remote "10.0.0.5") (some 0)]) (by decide +kernel)
  exact ⟨_, s, h, remote_verified rfl start_tlsSample rfl (by decide +kernel) h⟩

end Iec104Bridge
