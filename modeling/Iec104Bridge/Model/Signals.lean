import Iec104Bridge.Model.Process

/-!
# Ctrl-C (`main.rs`)

Each `select!` of the supervisor makes a new `ctrl_c()` future, polls it first
(`biased`), then its other branch, and is suspended if neither is ready. The
first poll of a `ctrl_c()` future installs the handler and registers the
future; only a signal delivered after that completes it. A signal can be
delivered at any point, also while a `select!` is being polled. Before the
handler is installed a signal ends the process.
-/

namespace Iec104Bridge

open Framework

/-- Where the `select!` the task is at, if at any, is. -/
inductive SelectPhase
  /-- Its `ctrl_c()` future has not been polled. -/
  | fresh
  /-- The future was polled, the other branch is polled next. -/
  | armed (notified : Bool)
  /-- Neither was ready. -/
  | parked (notified : Bool)
  deriving DecidableEq

/-- A signal completes the future, if it is registered. -/
def SelectPhase.notify : SelectPhase → SelectPhase
  | .fresh => .fresh
  | .armed _ => .armed true
  | .parked _ => .parked true

structure SupervisorState (ι : Type) where
  core : State ι
  select : SelectPhase
  /-- The handler of Ctrl-C is installed. -/
  installed : Bool

inductive SupervisorEvent (ι : Type)
  /-- A step of the task outside its `select!`s. -/
  | task (event : TaskEvent ι)
  /-- A `select!` polls its `ctrl_c()` future. -/
  | poll
  /-- The other branch is ready. -/
  | ready (event : TaskEvent ι)
  /-- The other branch is not ready. -/
  | park
  /-- A Ctrl-C is delivered. -/
  | signal
  | gi (conn : ConnId) (event : GiEvent)

inductive SupervisorEffect (ι : Type)
  | core (effect : Effect ι)
  /-- The task begins to wait for a message or a backoff delay. -/
  | waits
  | signal

variable {ι : Type}

def SupervisorState.coreStep (cfg : Settings) (s : SupervisorState ι) (event : Event ι) :
    Option (SupervisorState ι × Option (SupervisorEffect ι)) :=
  match (process ι cfg).step s.core event with
  | none => none
  | some (t, o) => some ({ s with core := t }, o.map .core)

/-- The task is at one of its `select!`s. -/
def TaskPhase.isSelect : TaskPhase ι → Bool
  | .selecting | .backingOff => true
  | _ => false

def supervisorStep (cfg : Settings) (s : SupervisorState ι) :
    SupervisorEvent ι → Option (SupervisorState ι × Option (SupervisorEffect ι))
  | .task event =>
    match event with
    | .build _ | .insert | .dispatch | .ack _ | .count => s.coreStep cfg (.task event)
    | _ => none
  | .poll =>
    if s.core.task.isSelect then
      match s.select with
      | .fresh => some ({ s with select := .armed false, installed := true }, some .waits)
      | .armed _ => none
      | .parked false => some ({ s with select := .armed false }, none)
      | .parked true => { s with select := .fresh }.coreStep cfg (.task .ctrlC)
    else none
  | .ready event =>
    match event, s.select with
    | .receive .., .armed _ | .receiveError, .armed _ | .endSource _, .armed _ | .sleep, .armed _ =>
      { s with select := .fresh }.coreStep cfg (.task event)
    | _, _ => none
  | .park =>
    match s.select with
    | .armed notified => some ({ s with select := .parked notified }, none)
    | _ => none
  | .signal =>
    if s.installed then some ({ s with select := s.select.notify }, some .signal) else none
  | .gi conn event => s.coreStep cfg (.gi conn event)

/-- The supervisor and the Ctrl-C signals it gets. -/
def supervisor (ι : Type) (cfg : Settings) :
    Machine (SupervisorState ι) (SupervisorEvent ι) (SupervisorEffect ι) where
  init := ⟨.initial ι, .fresh, false⟩
  step := supervisorStep cfg

end Iec104Bridge
