import Iec104Bridge.Model.Line
import Iec104Bridge.Model.Process

/-!
# The Unix-socket input (`source.rs`)

The accept loop, one task for each client and the main loop interleave with the
clients. A client's task reads a line, writes a rejection itself, and sends an
accepted message to a channel of `UNIX_SOCKET_BACKLOG` places, from which the
main loop takes it; its acknowledgement writes `ok`. Both tasks write behind
the same mutex, which serves those who wait in order. A write completes when
the send buffer of the socket has room for the reply, and fails when the client
is gone. The source ends only with the process, since the accept loop keeps a
sender of the channel.
-/

namespace Iec104Bridge

open Framework

def UNIX_SOCKET_BACKLOG : Nat := 64

abbrev ClientId := Nat

/-- A line of a client, by its number. -/
abbrev LineId := ClientId × Nat

structure UnixSettings where
  core : Settings
  allowedUid : Option UInt32
  allowedGid : Option UInt32
  maxLineBytes : Nat
  parse : Parser
  /-- The bytes the send buffer of a socket holds. -/
  sendBuffer : Nat
  /-- An empty buffer has room for every reply. -/
  sendBuffer_room : Reply.errorUnauthorized.size ≤ sendBuffer

/-- Where the task of a client is. -/
inductive ClientPhase
  /-- The client has not been accepted. -/
  | absent
  /-- `reply_unauthorized`. -/
  | refusing
  /-- `read_unix_client_line`. -/
  | reading
  /-- `write_socket_reply`, for a line that is rejected. -/
  | rejecting (line : Nat) (reply : Reply)
  /-- `forward_unix_message`. -/
  | sending (line : Nat) (message : Iec104Message)
  | ended

/-- Who holds the mutex of a writer, or waits for it. -/
inductive Writer
  | client
  | loop
  deriving DecidableEq

structure Client where
  phase : ClientPhase := .absent
  /-- What the client sent and the bridge has not read. -/
  incoming : List UInt8 := []
  /-- The client sends no more. -/
  eof : Bool := false
  /-- The client does not read any more: a write fails. -/
  gone : Bool := false
  /-- The number of lines read. -/
  lines : Nat := 0
  /-- The holder of the mutex of the writer, then those that wait for it. -/
  writer : List Writer := []
  /-- The send buffer: replies written and not read by the client. -/
  unread : List Reply := []

/-- An item of the channel. -/
inductive Item
  | acceptError
  | message (id : LineId) (message : Iec104Message)

/-- Where `run_unix_socket_accept_loop` is. -/
inductive ListenerPhase
  | idle
  | accepting
  /-- `send_accept_error`. -/
  | reporting
  | ended

structure UnixState where
  core : State LineId
  listener : ListenerPhase
  channel : List Item
  clients : ClientId → Client

inductive UnixEvent
  /-- The client sends bytes. -/
  | clientSend (client : ClientId) (bytes : List UInt8)
  /-- The client shuts down its writing side. -/
  | clientShutdown (client : ClientId)
  | clientClose (client : ClientId)
  /-- The client reads a reply. -/
  | clientRead (client : ClientId)
  /-- A client is accepted, with the result of the credential lookup. -/
  | accept (client : ClientId) (peer : Option PeerCred)
  | acceptError
  | reportError
  | refuse (client : ClientId)
  | readLine (client : ClientId)
  /-- The task of a client asks for the mutex of its writer. -/
  | lock (client : ClientId)
  | writeReply (client : ClientId)
  | forward (client : ClientId)
  | main (event : TaskEvent LineId)
  | take (now : OffsetDateTime)
  /-- The acknowledgement asks for the mutex of the writer. -/
  | ackLock
  | ackWrite
  | gi (conn : ConnId) (event : GiEvent)

inductive UnixEffect
  | core (effect : Effect LineId)
  | accepted (client : ClientId) (peer : Option PeerCred)
  /-- A client received a reply. -/
  | delivered (client : ClientId) (reply : Reply)
  | unauthorized (client : ClientId)
  /-- A line was read, and is rejected or forwarded. -/
  | read (id : LineId) (line : List UInt8) (verdict : Except Reply Iec104Message)
  /-- The task of a client ended: at the end of its input, on a line that is
  not UTF-8, on a failed write, or because the main loop has returned. -/
  | left (client : ClientId)
  | forwarded (id : LineId)
  /-- A rejection was written. -/
  | replied (id : LineId) (reply : Reply)
  | replyFailed (id : LineId)

def UnixState.setClient (s : UnixState) (c : ClientId) (client : Client) : UnixState :=
  { s with clients := Function.update s.clients c client }

/-- The bytes in a send buffer. -/
def bufferedBytes (replies : List Reply) : Nat := (replies.map Reply.size).sum

def Client.HasRoom (client : Client) (sendBuffer : Nat) (reply : Reply) : Prop :=
  bufferedBytes client.unread + reply.size ≤ sendBuffer

instance (client : Client) (sendBuffer : Nat) (reply : Reply) :
    Decidable (client.HasRoom sendBuffer reply) := inferInstanceAs (Decidable (_ ≤ _))

/-- A step of the process that stands for a step of the bridge. -/
def UnixState.coreStep (cfg : UnixSettings) (s : UnixState) (event : Event LineId) :
    Option (UnixState × Option UnixEffect) :=
  match (process LineId cfg.core).step s.core event with
  | none => none
  | some (t, o) => some ({ s with core := t }, o.map .core)

/-- What the task of a client does next: end, wait for more, or take a line. -/
inductive ReadResult
  | pending
  | eof
  | line (line rest : List UInt8)

/-- `reader.read_line`. -/
def Client.readLine (client : Client) : ReadResult :=
  match splitLine client.incoming with
  | some (line, rest) => .line line rest
  | none =>
    if client.eof then if client.incoming = [] then .eof else .line client.incoming []
    else .pending

/-- A step of a client. -/
def clientStep (s : UnixState) (c : ClientId) : UnixEvent → Option (UnixState × Option UnixEffect)
  | .clientSend _ bytes =>
    let client := s.clients c
    if client.eof then none
    else some (s.setClient c { client with incoming := client.incoming ++ bytes }, none)
  | .clientShutdown _ => some (s.setClient c { s.clients c with eof := true }, none)
  | .clientClose _ => some (s.setClient c { s.clients c with eof := true, gone := true }, none)
  | .clientRead _ =>
    match (s.clients c).unread with
    | [] => none
    | reply :: unread =>
      if (s.clients c).gone then none
      else some (s.setClient c { s.clients c with unread }, some (.delivered c reply))
  | _ => none

/-- `handle_unix_client`, up to `forward_unix_client_lines`. -/
def handleUnixClient (cfg : UnixSettings) (peer : Option PeerCred) : ClientPhase :=
  match peer with
  | none => .ended
  | some peer =>
    match checkPeerAuthorization peer cfg.allowedUid cfg.allowedGid with
    | some _ => .refusing
    | none => .reading

/-- A step of the accept loop. -/
def listenerStep (cfg : UnixSettings) (s : UnixState) :
    UnixEvent → Option (UnixState × Option UnixEffect)
  | .accept c peer =>
    match s.listener, (s.clients c).phase with
    | .accepting, .absent =>
      some (s.setClient c { s.clients c with phase := handleUnixClient cfg peer }, some (.accepted c peer))
    | _, _ => none
  | .acceptError =>
    match s.listener with
    | .accepting => some ({ s with listener := .reporting }, none)
    | _ => none
  | .reportError =>
    match s.listener with
    | .reporting =>
      if s.core.task.isReturned then some ({ s with listener := .ended }, none)
      else if s.channel.length < UNIX_SOCKET_BACKLOG then
        some ({ s with listener := .accepting, channel := s.channel ++ [.acceptError] }, none)
      else none
    | _ => none
  | _ => none

/-- A step of the task of a client. -/
def readerStep (cfg : UnixSettings) (s : UnixState) (c : ClientId) :
    UnixEvent → Option (UnixState × Option UnixEffect)
  | .refuse _ =>
    let client := s.clients c
    match client.phase with
    | .refusing =>
      if client.gone then some (s.setClient c { client with phase := .ended }, some (.left c))
      else if client.HasRoom cfg.sendBuffer .errorUnauthorized then
        some (s.setClient c
          { client with phase := .ended, unread := client.unread ++ [.errorUnauthorized] },
          some (.unauthorized c))
      else none
    | _ => none
  | .readLine _ =>
    let client := s.clients c
    match client.phase, client.readLine with
    | .reading, .eof => some (s.setClient c { client with phase := .ended }, some (.left c))
    | .reading, .line line rest =>
      if validUtf8 line then
        let n := client.lines
        let verdict := processUnixSocketLine cfg.parse line line.length cfg.maxLineBytes
        let phase : ClientPhase :=
          match verdict with
          | .error reply => .rejecting n reply
          | .ok message => .sending n message
        some (s.setClient c { client with phase, incoming := rest, lines := n + 1 },
          some (.read (c, n) line verdict))
      else some (s.setClient c { client with phase := .ended, incoming := rest }, some (.left c))
    | _, _ => none
  | .lock _ =>
    let client := s.clients c
    match client.phase with
    | .rejecting _ _ =>
      if .client ∈ client.writer then none
      else some (s.setClient c { client with writer := client.writer ++ [.client] }, none)
    | _ => none
  | .writeReply _ =>
    let client := s.clients c
    match client.phase, client.writer with
    | .rejecting n reply, .client :: writer =>
      if client.gone then
        some (s.setClient c { client with phase := .ended, writer }, some (.replyFailed (c, n)))
      else if client.HasRoom cfg.sendBuffer reply then
        some (s.setClient c
          { client with phase := .reading, writer, unread := client.unread ++ [reply] },
          some (.replied (c, n) reply))
      else none
    | _, _ => none
  | .forward _ =>
    let client := s.clients c
    match client.phase with
    | .sending n message =>
      if s.core.task.isReturned then
        some (s.setClient c { client with phase := .ended }, some (.left c))
      else if s.channel.length < UNIX_SOCKET_BACKLOG then
        some ({ s.setClient c { client with phase := .reading } with
          channel := s.channel ++ [.message (c, n) message] }, some (.forwarded (c, n)))
      else none
    | _ => none
  | _ => none

/-- A step of the main loop. -/
def mainStep (cfg : UnixSettings) (s : UnixState) :
    UnixEvent → Option (UnixState × Option UnixEffect)
  | .main event =>
    match event, s.core.task with
    | .build true, .starting => { s with listener := .accepting }.coreStep cfg (.task event)
    | .build false, .starting | .ctrlC, _ => { s with channel := [] }.coreStep cfg (.task event)
    | .insert, _ | .dispatch, _ | .count, _ => s.coreStep cfg (.task event)
    | _, _ => none
  | .take now =>
    match s.channel with
    | [] => none
    | .acceptError :: channel => { s with channel }.coreStep cfg (.task .receiveError)
    | .message id message :: channel => { s with channel }.coreStep cfg (.task (.receive id message now))
  | .ackLock =>
    match s.core.task with
    | .acking id _ =>
      let client := s.clients id.1
      if .loop ∈ client.writer then none
      else some (s.setClient id.1 { client with writer := client.writer ++ [.loop] }, none)
    | _ => none
  | .ackWrite =>
    match s.core.task with
    | .acking id _ =>
      let client := s.clients id.1
      match client.writer with
      | .loop :: writer =>
        if client.gone then
          (s.setClient id.1 { client with writer }).coreStep cfg (.task (.ack false))
        else if client.HasRoom cfg.sendBuffer .ok then
          (s.setClient id.1 { client with writer, unread := client.unread ++ [.ok] }).coreStep cfg
            (.task (.ack true))
        else none
      | _ => none
    | _ => none
  | .gi conn event => s.coreStep cfg (.gi conn event)
  | _ => none

/-- A step of the bridge or of a client. -/
def unixStep (cfg : UnixSettings) (s : UnixState) (e : UnixEvent) :
    Option (UnixState × Option UnixEffect) :=
  match e with
  | .clientSend c _ | .clientShutdown c | .clientClose c | .clientRead c => clientStep s c e
  | .accept .. | .acceptError | .reportError => listenerStep cfg s e
  | .refuse c | .readLine c | .lock c | .writeReply c | .forward c => readerStep cfg s c e
  | .main _ | .take _ | .ackLock | .ackWrite | .gi .. => mainStep cfg s e

/-- The bridge with its Unix-socket clients. -/
def unix (cfg : UnixSettings) : Machine UnixState UnixEvent UnixEffect where
  init := ⟨.initial LineId, .idle, [], fun _ => {}⟩
  step := unixStep cfg

/-- The client that acts, when it is not the bridge. -/
def UnixEvent.client? : UnixEvent → Option ClientId
  | .clientSend c _ | .clientShutdown c | .clientClose c | .clientRead c => some c
  | _ => none

end Iec104Bridge
