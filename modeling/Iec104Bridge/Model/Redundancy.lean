import Iec104Bridge.Model.Link

/-!
# Redundant masters and lib60870's queues

lib60870 runs in its default mode, a single redundancy group: any number of
masters are connected, and the one that sent STARTDT last is active. The group
shares a high-priority queue, which takes what a replay sends, and a
low-priority queue, which takes what the server is handed, whether a master is
active or not. Frames leave for the active master, from the high-priority queue
first. A full queue, or a master that leaves, loses frames that wait; the oldest
ones go first. Low-priority frames that a master leaves unconfirmed are sent again
to the next one, which is left out. The front end is any machine that runs the
process.
-/

namespace Iec104Bridge

open Framework

variable {ι : Type}

/-- What the high-priority queue takes. -/
def Effect.highFrame : Effect ι → Option Frame
  | .giData _ _ asdu true => some (.data asdu)
  | .actCon _ negative true => some (.actCon negative)
  | .actTerm _ true => some .actTerm
  | _ => none

/-- What the low-priority queue takes. -/
def Effect.lowFrame : Effect ι → Option Frame
  | .handed _ _ asdu => some (.data asdu)
  | _ => none

structure GroupState (σ : Type) where
  front : σ
  active : Option ConnId
  high : List Frame
  low : List Frame
  /-- What each master was sent. -/
  received : ConnId → List Frame

inductive GroupEvent (α : Type)
  | bridge (event : α)
  /-- A master sends STARTDT. -/
  | start (conn : ConnId)
  | close (conn : ConnId)
  | deliver
  /-- The oldest frame of a queue is lost. -/
  | loseHigh
  | loseLow

inductive GroupEffect (ω : Type)
  | bridge (effect : ω)
  | started (conn : ConnId)
  | closed (conn : ConnId)
  | delivered (conn : ConnId) (frame : Frame)
  | lost (frame : Frame)
  deriving DecidableEq

variable {σ α ω : Type}

/-- The queues after a step of the front end. -/
def GroupState.queue (s : GroupState σ) (front : σ) (effect : Option (Effect ι)) : GroupState σ :=
  { s with
    front
    high := s.high ++ (effect.bind Effect.highFrame).toList
    low := s.low ++ (effect.bind Effect.lowFrame).toList }

def GroupState.receive (s : GroupState σ) (conn : ConnId) (frame : Frame) : GroupState σ :=
  { s with received := Function.update s.received conn (s.received conn ++ [frame]) }

def groupStep (M : Machine σ α ω) (g : ω → Option (Effect ι)) (s : GroupState σ) :
    GroupEvent α → Option (GroupState σ × Option (GroupEffect ω))
  | .bridge event =>
    match M.step s.front event with
    | none => none
    | some (front, o) => some (s.queue front (o.bind g), o.map .bridge)
  | .start conn => some ({ s with active := some conn }, some (.started conn))
  | .close conn =>
    some ({ s with active := if s.active = some conn then none else s.active }, some (.closed conn))
  | .deliver =>
    match s.active, s.high, s.low with
    | some conn, frame :: high, _ =>
      some ({ s with high }.receive conn frame, some (.delivered conn frame))
    | some conn, [], frame :: low =>
      some ({ s with low }.receive conn frame, some (.delivered conn frame))
    | _, _, _ => none
  | .loseHigh =>
    match s.high with
    | frame :: high => some ({ s with high }, some (.lost frame))
    | [] => none
  | .loseLow =>
    match s.low with
    | frame :: low => some ({ s with low }, some (.lost frame))
    | [] => none

/-- A front end with the masters of the group; `g` says what its effects are for
the process. -/
def group (M : Machine σ α ω) (g : ω → Option (Effect ι)) :
    Machine (GroupState σ) (GroupEvent α) (GroupEffect ω) where
  init := ⟨M.init, none, [], [], fun _ => []⟩
  step := groupStep M g

end Iec104Bridge
