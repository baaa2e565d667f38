import Iec104Bridge.Framework.Machine
import Iec104Bridge.Model.Config

/-!
# Starting the bridge (`main.rs`, `tls.rs`)

`main` up to the point at which the source is supervised: the configuration,
lib60870's server, and in TLS mode the listener in front of it. An error that is
shown with `{e}` is its outermost context. Then the ways into lib60870's
server: its own socket, and the tasks of `spawn_tls_proxy`, which interleave.
What the files hold, what rustls makes of them, and whether a socket binds are
not in this repository.

rustls panics without a `CryptoProvider` for the process, which is the one that
was installed, or else the only one it is built with. Nothing here installs one,
and `Cargo.lock` builds rustls with two (`aws-lc-rs` and `ring`), so that there is
none in the locked build.
-/

namespace Iec104Bridge

open Framework

/-! ## Certificates and keys -/

/-- The cryptography that rustls works with. -/
structure CryptoProvider (Cert Key : Type) where
  /-- `with_single_cert`. -/
  singleCert : List Cert → Key → Bool
  /-- A client's chain validates against the roots. -/
  validates : List Cert → List Cert → Bool

/-- The file system and rustls. -/
structure TlsLibrary (Cert Key : Type) where
  /-- `File::open`. -/
  file : String → Option (List UInt8)
  /-- `rustls_pemfile::certs`. -/
  certs : List UInt8 → Option (List Cert)
  /-- `rustls_pemfile::private_key`. -/
  privateKey : List UInt8 → Option (Option Key)
  /-- `RootCertStore::add`. -/
  addRoot : Cert → Bool
  /-- The provider of the process, if there is one. -/
  provider : Option (CryptoProvider Cert Key)
  /-- `WebPkiClientVerifier::builder(root_store).build()`, where there is a provider. -/
  clientVerifier : List Cert → Except String Unit

inductive Panic
  /-- An `expect` of this repository. -/
  | expected (message : String)
  /-- `WebPkiClientVerifier::builder`, where there is no provider. -/
  | noProvider

/-- An error is returned, or the process panics. -/
inductive Failure (ε : Type)
  | error (e : ε)
  | panic (p : Panic)

/-- `map_err`. -/
def Failure.map {ε ε' : Type} (f : ε → ε') : Failure ε → Failure ε'
  | .error e => .error (f e)
  | .panic p => .panic p

/-- `.expect(message)`. -/
def expect {ε α : Type} (message : String) : Option α → Except (Failure ε) α
  | some a => .ok a
  | none => .error (.panic (.expected message))

/-- `?`. -/
def orFail {ε α : Type} (x : Except ε α) : Except (Failure ε) α := x.mapError .error

/-- `.context(message)`, as it is shown. -/
def withContext {α : Type} (message : String) (x : Except String α) : Except String α :=
  x.mapError fun _ => message

def orError {α : Type} (message : String) : Option α → Except String α
  | some a => .ok a
  | none => .error message

/-- The error, unless `ok`. -/
def ensure (message : String) (ok : Bool) : Except String Unit := if ok then .ok () else .error message

section

variable {Cert Key : Type} (lib : TlsLibrary Cert Key)

def loadCerts (path : String) : Except String (List Cert) := do
  let file ← orError s!"Cannot open certificate file: {path}" (lib.file path)
  let certs ← orError s!"Failed to parse certificate PEM: {path}" (lib.certs file)
  if certs.isEmpty then .error s!"No certificates found in {path}" else .ok certs

def loadPrivateKey (path : String) : Except String Key := do
  let file ← orError s!"Cannot open private key file: {path}" (lib.file path)
  let key ← orError s!"Failed to parse private key PEM: {path}" (lib.privateKey file)
  orError s!"No private key found in {path}" key

structure TlsConfig where
  certPath : String
  keyPath : String
  caCertPath : String

/-- `TlsAcceptor`: what it trusts, and what it presents. -/
structure TlsAcceptor (Cert Key : Type) where
  provider : CryptoProvider Cert Key
  roots : List Cert
  chain : List Cert
  key : Key

/-- The provider that `WebPkiClientVerifier::builder` takes. -/
def defaultProvider : Except (Failure String) (CryptoProvider Cert Key) :=
  match lib.provider with
  | some provider => .ok provider
  | none => .error (.panic .noProvider)

def buildAcceptor (cfg : TlsConfig) : Except (Failure String) (TlsAcceptor Cert Key) := do
  let roots ← orFail (withContext "Loading TLS CA certificate" (loadCerts lib cfg.caCertPath))
  orFail (ensure "Adding CA certificate to root store" (roots.all lib.addRoot))
  let provider ← defaultProvider lib
  orFail ((lib.clientVerifier roots).mapError fun e => s!"Failed to build client cert verifier: {e}")
  let chain ← orFail (withContext "Loading TLS server certificate" (loadCerts lib cfg.certPath))
  let key ← orFail (withContext "Loading TLS server private key" (loadPrivateKey lib cfg.keyPath))
  orFail (ensure "Building rustls ServerConfig" (provider.singleCert chain key))
  return { provider, roots, chain, key }

end

/-! ## `main` -/

structure SocketAddr where
  host : String
  port : UInt16
  deriving DecidableEq

def SocketAddr.display (addr : SocketAddr) : String := s!"{addr.host}:{addr.port.toNat}"

/-- lib60870's server, as it is built. -/
structure IecServer where
  localAddress : String
  localPort : UInt16
  lowPrioQueueSize : UInt16
  highPrioQueueSize : UInt16

def IecServer.addr (server : IecServer) : SocketAddr := ⟨server.localAddress, server.localPort⟩

structure TlsListener (Cert Key : Type) where
  bind : SocketAddr
  acceptor : TlsAcceptor Cert Key
  iec104Local : SocketAddr

/-- What `main` has started before it supervises the source. -/
structure Started (Cert Key : Type) where
  config : Config
  server : IecServer
  tls : Option (TlsListener Cert Key)

/-- Whether lib60870's server is built, and the TLS listener binds. -/
structure Sockets where
  builds : Bool
  tlsBinds : Except String Unit

def effectiveIec104BindAddr (config : Config) : String :=
  if config.tlsEnabled then "127.0.0.1" else config.iec104BindAddr

def buildIecServer (config : Config) (sockets : Sockets) : Except String IecServer :=
  if sockets.builds then
    .ok {
      localAddress := effectiveIec104BindAddr config
      localPort := config.iec104Port
      lowPrioQueueSize := config.iec104QueueSize
      highPrioQueueSize := config.iec104QueueSize }
  else .error "Failed to build IEC-104 server"

variable {Cert Key : Type}

def spawnTlsListenerIfEnabled (lib : TlsLibrary Cert Key) (config : Config) (sockets : Sockets) :
    Except (Failure String) (Option (TlsListener Cert Key)) :=
  if ¬ config.tlsEnabled then .ok none
  else do
    let certPath ← expect "validated in Config::from_lookup" config.tlsCertPath
    let keyPath ← expect "validated in Config::from_lookup" config.tlsKeyPath
    let caCertPath ← expect "validated in Config::from_lookup" config.tlsCaCertPath
    let acceptor ← (buildAcceptor lib { certPath, keyPath, caCertPath }).mapError
      (Failure.map fun e => s!"Failed to build TLS acceptor: {e}")
    let bind : SocketAddr := ⟨config.iec104BindAddr, config.tlsPort⟩
    orFail (sockets.tlsBinds.mapError fun e => s!"Failed to bind TLS listener on {bind.display}: {e}")
    return some { bind, acceptor, iec104Local := ⟨"127.0.0.1", config.iec104Port⟩ }

/-- `main`, up to `supervise_message_source`. -/
def start (lib : TlsLibrary Cert Key) (get : Env) (sockets : Sockets) :
    Except (Failure ErrorText) (Started Cert Key) := do
  let config ← orFail (Config.fromLookup get)
  let server ← orFail ((buildIecServer config sockets).mapError .plain)
  let tls ← (spawnTlsListenerIfEnabled lib config sockets).mapError (Failure.map .plain)
  return { config, server, tls }

/-! ## The ways into lib60870's server -/

/-- A connection to the TLS listener. -/
abbrev SessionId := Nat

/-- Who connects: a process of this host, or another host. -/
inductive Peer
  | loopback
  | remote (host : String)
  deriving DecidableEq

/-- Where the task of `spawn_tls_proxy` is. -/
inductive SessionPhase (Cert : Type)
  | absent
  /-- `accept_tls`. -/
  | handshaking (peer : Peer)
  /-- `TcpStream::connect`. -/
  | connecting (peer : Peer) (chain : List Cert)
  /-- `copy_bidirectional`. -/
  | proxying
  | ended

structure IngressState (Cert : Type) where
  sessions : SessionId → SessionPhase Cert

inductive IngressEvent (Cert : Type)
  /-- A peer connects to the socket of lib60870's server. -/
  | direct (peer : Peer)
  | accept (session : SessionId) (peer : Peer)
  | acceptError
  /-- The end of a handshake: the chain the client presented, or none. -/
  | handshake (session : SessionId) (presented : Option (List Cert))
  | connect (session : SessionId) (ok : Bool)
  | close (session : SessionId)

inductive IngressEffect (Cert : Type)
  | accepted (session : SessionId) (peer : Peer)
  | verified (session : SessionId) (chain : List Cert)
  /-- lib60870's server gets a connection of a peer, through a session or directly. -/
  | reached (addr : SocketAddr) (peer : Peer) (session : Option SessionId)
  deriving DecidableEq

def IngressState.setSession (s : IngressState Cert) (c : SessionId) (phase : SessionPhase Cert) :
    IngressState Cert := { s with sessions := Function.update s.sessions c phase }

/-- A step of a peer, of the accept loop or of a session. `reaches` says which
peers a socket takes connections of, by the address it is bound to. -/
def ingressStep (reaches : Peer → String → Bool) (started : Started Cert Key) (s : IngressState Cert) :
    IngressEvent Cert → Option (IngressState Cert × Option (IngressEffect Cert))
  | .direct peer =>
    if reaches peer started.server.localAddress then
      some (s, some (.reached started.server.addr peer none))
    else none
  | .accept c peer =>
    match started.tls, s.sessions c with
    | some listener, .absent =>
      if reaches peer listener.bind.host then
        some (s.setSession c (.handshaking peer), some (.accepted c peer))
      else none
    | _, _ => none
  | .acceptError =>
    match started.tls with
    | some _ => some (s, none)
    | none => none
  | .handshake c presented =>
    match started.tls, s.sessions c with
    | some listener, .handshaking peer =>
      match presented with
      | some chain =>
        if listener.acceptor.provider.validates listener.acceptor.roots chain then
          some (s.setSession c (.connecting peer chain), some (.verified c chain))
        else some (s.setSession c .ended, none)
      | none => some (s.setSession c .ended, none)
    | _, _ => none
  | .connect c ok =>
    match started.tls, s.sessions c with
    | some listener, .connecting peer _ =>
      if ok then some (s.setSession c .proxying, some (.reached listener.iec104Local peer (some c)))
      else some (s.setSession c .ended, none)
    | _, _ => none
  | .close c =>
    match s.sessions c with
    | .proxying => some (s.setSession c .ended, none)
    | _ => none

/-- The bridge as its peers reach it. -/
def ingress (reaches : Peer → String → Bool) (started : Started Cert Key) :
    Machine (IngressState Cert) (IngressEvent Cert) (IngressEffect Cert) where
  init := ⟨fun _ => .absent⟩
  step := ingressStep reaches started

end Iec104Bridge
