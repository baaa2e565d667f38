import Iec104Bridge.Model.Process

/-!
# A master and lib60870's queues

One master is connected from the start. What a replay sends goes to the
high-priority queue of its connection, what the server is handed to the
low-priority queue; frames leave the high-priority queue first. Neither queue
overflows, so every send succeeds.
-/

namespace Iec104Bridge

open Framework

/-- What waits in a queue. -/
inductive Frame
  | data (asdu : Asdu)
  | actCon (negative : Bool)
  | actTerm
  deriving DecidableEq

structure LinkState (ι : Type) where
  state : State ι
  high : List Frame
  low : List Frame
  delivered : List Frame

inductive LinkEvent (ι : Type)
  | process (event : Event ι)
  | deliver

inductive LinkEffect (ι : Type)
  | process (effect : Effect ι)
  | delivered (frame : Frame)

variable {ι : Type}

/-- The queues after an effect of the process, if it is one this link can see. -/
def LinkState.queue (s : LinkState ι) (conn : ConnId) : Effect ι → Option (LinkState ι)
  | .handed _ _ asdu => some { s with low := s.low ++ [.data asdu] }
  | .giData c _ asdu sent =>
    if c = conn ∧ sent then some { s with high := s.high ++ [.data asdu] } else none
  | .actCon c negative sent =>
    if c = conn ∧ sent then some { s with high := s.high ++ [.actCon negative] } else none
  | .actTerm c sent => if c = conn ∧ sent then some { s with high := s.high ++ [.actTerm] } else none
  | .requested c _ => if c = conn then some s else none
  | _ => some s

/-- A step of the bridge, or the delivery of a frame. -/
def linkStep (cfg : Settings) (conn : ConnId) (s : LinkState ι) :
    LinkEvent ι → Option (LinkState ι × Option (LinkEffect ι))
  | .process event =>
    match (process ι cfg).step s.state event with
    | none => none
    | some (t, none) => some ({ s with state := t }, none)
    | some (t, some e) =>
      match { s with state := t }.queue conn e with
      | none => none
      | some s' => some (s', some (.process e))
  | .deliver =>
    match s.high, s.low with
    | frame :: high, _ =>
      some ({ s with high, delivered := s.delivered ++ [frame] }, some (.delivered frame))
    | [], frame :: low =>
      some ({ s with low, delivered := s.delivered ++ [frame] }, some (.delivered frame))
    | [], [] => none

/-- The bridge with the master on `conn`. -/
def link (ι : Type) (cfg : Settings) (conn : ConnId) :
    Machine (LinkState ι) (LinkEvent ι) (LinkEffect ι) where
  init := ⟨.initial ι, [], [], []⟩
  step := linkStep cfg conn

end Iec104Bridge
