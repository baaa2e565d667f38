import Iec104Bridge.Model.Validation

/-!
# Request lines of the Unix socket (`source.rs`)

What `process_unix_socket_line` makes of a line: the message it forwards, or
the reply it writes. A line is its bytes, valid UTF-8 by the time it is
processed; `serde_json::from_str` is a parameter.
-/

namespace Iec104Bridge

/-- What the bridge writes to a client. -/
inductive Reply
  | ok
  | errorParse
  | errorValidation
  | errorUnauthorized
  deriving DecidableEq

def Reply.text : Reply → String
  | .ok => "ok\n"
  | .errorParse => "error parse\n"
  | .errorValidation => "error validation\n"
  | .errorUnauthorized => "error unauthorized\n"

/-- The bytes of a reply. -/
def Reply.size (reply : Reply) : Nat := reply.text.length

/-- `serde_json::from_str::<Iec104Message>`. -/
abbrev Parser := List UInt8 → Option Iec104Message

def NEWLINE : UInt8 := 10
def CARRIAGE_RETURN : UInt8 := 13

/-- The first line with its newline, and what follows it. -/
def splitLine : List UInt8 → Option (List UInt8 × List UInt8)
  | [] => none
  | b :: rest =>
    if b = NEWLINE then some ([b], rest) else (splitLine rest).map fun r => (b :: r.1, r.2)

/-- A byte of a UTF-8 sequence after the first, from `lo` to `hi`. -/
def isContinuation (lo hi b : UInt8) : Bool := lo ≤ b && b ≤ hi

/-- `std::str::from_utf8` accepts the bytes. -/
def validUtf8 : List UInt8 → Bool
  | [] => true
  | b :: rest =>
    if b < 0x80 then validUtf8 rest
    else if 0xC2 ≤ b ∧ b ≤ 0xDF then
      match rest with
      | c :: rest => isContinuation 0x80 0xBF c && validUtf8 rest
      | _ => false
    else if 0xE0 ≤ b ∧ b ≤ 0xEF then
      match rest with
      | c :: d :: rest =>
        isContinuation (if b = 0xE0 then 0xA0 else 0x80) (if b = 0xED then 0x9F else 0xBF) c &&
          isContinuation 0x80 0xBF d && validUtf8 rest
      | _ => false
    else if 0xF0 ≤ b ∧ b ≤ 0xF4 then
      match rest with
      | c :: d :: e :: rest =>
        isContinuation (if b = 0xF0 then 0x90 else 0x80) (if b = 0xF4 then 0x8F else 0xBF) c &&
          isContinuation 0x80 0xBF d && isContinuation 0x80 0xBF e && validUtf8 rest
      | _ => false
    else false

def payloadExceedsLimit (bytes maxLineBytes : Nat) : Bool := maxLineBytes < bytes

def enforceLineSizeLimit (bytes maxLineBytes : Nat) : Except Reply Unit :=
  if payloadExceedsLimit bytes maxLineBytes then .error .errorValidation else .ok ()

/-- `line.trim_end_matches(['\r', '\n'])`. -/
def trimLineEnd (line : List UInt8) : List UInt8 :=
  (line.reverse.dropWhile fun b => b = CARRIAGE_RETURN || b = NEWLINE).reverse

def trimUnixSocketLine (line : List UInt8) : Except Reply (List UInt8) :=
  let trimmed := trimLineEnd line
  if trimmed.isEmpty then .error .errorParse else .ok trimmed

def parseUnixSocketMessage (parse : Parser) (trimmed : List UInt8) : Except Reply Iec104Message :=
  match parse trimmed with
  | some message => .ok message
  | none => .error .errorParse

def validateUnixSocketMessage (message : Iec104Message) : Except Reply Unit :=
  match validateMessage message with
  | .error _ => .error .errorValidation
  | .ok () => .ok ()

/-- The message a line is forwarded as, or the reply that rejects it. -/
def processUnixSocketLine (parse : Parser) (line : List UInt8) (bytes maxLineBytes : Nat) :
    Except Reply Iec104Message := do
  enforceLineSizeLimit bytes maxLineBytes
  let trimmed ← trimUnixSocketLine line
  let message ← parseUnixSocketMessage parse trimmed
  validateUnixSocketMessage message
  return message

/-- `SO_PEERCRED`. -/
structure PeerCred where
  uid : UInt32
  gid : UInt32
  pid : UInt32
  deriving DecidableEq

inductive AuthorizationFailure
  | uid (expected : UInt32)
  | gid (expected : UInt32)

def authorizationFailureForUid (peer : PeerCred) (allowedUid : Option UInt32) :
    Option AuthorizationFailure :=
  match allowedUid with
  | some expected => if peer.uid ≠ expected then some (.uid expected) else none
  | none => none

def authorizationFailureForGid (peer : PeerCred) (allowedGid : Option UInt32) :
    Option AuthorizationFailure :=
  match allowedGid with
  | some expected => if peer.gid ≠ expected then some (.gid expected) else none
  | none => none

def checkPeerAuthorization (peer : PeerCred) (allowedUid allowedGid : Option UInt32) :
    Option AuthorizationFailure :=
  (authorizationFailureForUid peer allowedUid).or (authorizationFailureForGid peer allowedGid)

/-! ## Verdicts -/

/-- A line is forwarded only as a valid message. -/
theorem processUnixSocketLine_valid {parse : Parser} {line : List UInt8} {bytes maxLineBytes : Nat}
    {message : Iec104Message}
    (h : processUnixSocketLine parse line bytes maxLineBytes = .ok message) : message.Valid := by
  simp only [processUnixSocketLine, bind, Except.bind] at h
  split at h <;> [cases h; skip]
  split at h <;> [cases h; skip]
  split at h <;> [cases h; skip]
  split at h <;> cases h
  rename_i hv
  simp only [validateUnixSocketMessage] at hv
  split at hv <;> cases hv
  rename_i hv
  rw [Iec104Message.Valid, hv]
  rfl

/-- No line is answered `ok` by the task that reads it. -/
theorem processUnixSocketLine_error {parse : Parser} {line : List UInt8} {bytes maxLineBytes : Nat}
    {reply : Reply} (h : processUnixSocketLine parse line bytes maxLineBytes = .error reply) :
    reply = .errorParse ∨ reply = .errorValidation := by
  simp only [processUnixSocketLine, bind, Except.bind] at h
  split at h
  · rename_i he
    cases h
    simp only [enforceLineSizeLimit] at he
    split at he <;> cases he
    exact .inr rfl
  split at h
  · rename_i he
    cases h
    simp only [trimUnixSocketLine] at he
    split at he <;> cases he
    exact .inl rfl
  split at h
  · rename_i he
    cases h
    simp only [parseUnixSocketMessage] at he
    split at he <;> cases he
    exact .inl rfl
  split at h
  · rename_i he
    cases h
    simp only [validateUnixSocketMessage] at he
    split at he <;> cases he
    exact .inr rfl
  · cases h

end Iec104Bridge
