import Iec104Bridge.Model.Unix

/-!
# Reading a line in chunks (`source.rs`)

`Client.readLine` reads a line in one step. Here `forward_unix_client_lines`
reads the stream of an authorized client as it comes: the `BufReader` fills its
buffer, of a fixed capacity, with what the socket has, and `read_line` appends
the buffer to `line`, up to a newline. `line` is handled once it is complete.
-/

namespace Iec104Bridge

open Framework

structure ReaderSettings extends UnixSettings where
  /-- The capacity of the `BufReader`. -/
  capacity : Nat
  capacity_pos : 0 < capacity

structure ReaderState where
  phase : ClientPhase := .reading
  /-- What the client sent and the socket still holds. -/
  socket : List UInt8 := []
  /-- The client sends no more. -/
  eof : Bool := false
  buffer : List UInt8 := []
  /-- The `line` of the current iteration. -/
  line : List UInt8 := []
  /-- The number of lines read. -/
  lines : Nat := 0

inductive ReaderEvent
  /-- The client sends bytes. -/
  | send (bytes : List UInt8)
  /-- The client shuts down its writing side. -/
  | shutdown
  /-- The empty buffer takes `n` bytes from the socket. -/
  | fill (n : Nat)
  /-- `read_line` appends the buffer to `line`, up to a newline. -/
  | append
  /-- `read_line` finds the end of the stream. -/
  | endOfFile
  /-- The reply is written or the message forwarded, or this fails. -/
  | finish (ok : Bool)

inductive ReaderEffect
  /-- A line was read, and is rejected or forwarded. -/
  | read (number : Nat) (line : List UInt8) (verdict : Except Reply Iec104Message)
  /-- The task of the client ended. -/
  | left

/-- The end of `read_line`, and `process_unix_socket_line`. -/
def finishLine (cfg : ReaderSettings) (s : ReaderState) : ReaderState × Option ReaderEffect :=
  if validUtf8 s.line then
    let verdict := processUnixSocketLine cfg.parse s.line s.line.length cfg.maxLineBytes
    let phase : ClientPhase :=
      match verdict with
      | .error reply => .rejecting s.lines reply
      | .ok message => .sending s.lines message
    ({ s with phase, lines := s.lines + 1 }, some (.read s.lines s.line verdict))
  else ({ s with phase := .ended }, some .left)

def readerLoopStep (cfg : ReaderSettings) (s : ReaderState) :
    ReaderEvent → Option (ReaderState × Option ReaderEffect)
  | .send bytes => if s.eof then none else some ({ s with socket := s.socket ++ bytes }, none)
  | .shutdown => some ({ s with eof := true }, none)
  | .fill n =>
    match s.phase, s.buffer with
    | .reading, [] =>
      if 0 < n ∧ n ≤ cfg.capacity ∧ n ≤ s.socket.length then
        some ({ s with buffer := s.socket.take n, socket := s.socket.drop n }, none)
      else none
    | _, _ => none
  | .append =>
    match s.phase, s.buffer with
    | .reading, b :: buffer =>
      match splitLine (b :: buffer) with
      | some (chunk, rest) => some (finishLine cfg { s with line := s.line ++ chunk, buffer := rest })
      | none => some ({ s with line := s.line ++ b :: buffer, buffer := [] }, none)
    | _, _ => none
  | .endOfFile =>
    match s.phase, s.buffer, s.socket with
    | .reading, [], [] =>
      if s.eof then
        if s.line = [] then some ({ s with phase := .ended }, some .left) else some (finishLine cfg s)
      else none
    | _, _, _ => none
  | .finish ok =>
    match s.phase with
    | .rejecting .. | .sending .. =>
      if ok then some ({ s with phase := .reading, line := [] }, none)
      else some ({ s with phase := .ended }, some .left)
    | _ => none

/-- `forward_unix_client_lines`, with its client. -/
def reader (cfg : ReaderSettings) : Machine ReaderState ReaderEvent ReaderEffect where
  init := {}
  step := readerLoopStep cfg

end Iec104Bridge
