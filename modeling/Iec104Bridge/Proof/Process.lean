import Iec104Bridge.Framework.Worker
import Iec104Bridge.Model.Process
import Iec104Bridge.Proof.Point

/-!
# What the process does

`TaskStep` and `GiStep` say everything a step of the task, or of a callback,
can do (`process_step`); the frames they send are those of the points. The task
handles one message after another (`process_worker`).
-/

namespace Iec104Bridge

open Framework

variable {ι : Type} {cfg : Settings} {s t : State ι} {w : List (Effect ι)}

theorem pointFrame_getD (policy : OutputPolicy) (defaultCa : UInt16) (msg : Iec104Message)
    (receivedAt now : OffsetDateTime) :
    pointFrame policy (msg.ca.getD defaultCa) msg receivedAt now =
      pointFrame policy defaultCa msg receivedAt now := by
  cases h : msg.ca <;> simp [pointFrame, h]

/-- The spontaneous frame of a message that arrived at `now`. -/
def spontaneousFrame (cfg : Settings) (message : Iec104Message) (now : OffsetDateTime) : Asdu :=
  pointFrame cfg.policy cfg.defaultCa message now now

/-- The frame of a point in a replay at `now`. -/
def replayFrame (cfg : Settings) (now : OffsetDateTime) (point : CachedPoint) : Asdu :=
  pointFrame cfg.policy cfg.defaultCa { point.message with cot := .interrogated } point.receivedAt now

theorem dispatchIncoming_eq (cfg : Settings) (message : Iec104Message) (now : OffsetDateTime) :
    dispatchIncoming cfg message now =
      if cfg.giOnly then (none, false) else (some (spontaneousFrame cfg message now), true) := by
  cases h : cfg.giOnly <;>
    simp [dispatchIncoming, dispatchMessageIfEnabled, h, dispatch_live, pointFrame_getD, spontaneousFrame]

theorem replayPoint_eq (cfg : Settings) (now : OffsetDateTime) (point : CachedPoint) :
    replayPoint cfg now point = attempt (replayFrame cfg now point) := by
  simp only [replayPoint, prepareForOutput_cot, dispatch_connection, replayFrame]
  exact congrArg attempt (pointFrame_getD _ _ { point.message with cot := .interrogated } _ _)

/-! ## Steps -/

/-- What a step of the task can do. -/
inductive TaskStep (cfg : Settings) (s : State ι) : State ι → Option (Effect ι) → Prop
  | built : s.task = .starting ∨ s.task = .rebuilding →
    TaskStep cfg s { s with task := .selecting } (some (.built true))
  | buildFailed : s.task = .starting →
    TaskStep cfg s { s with task := .returned false } (some (.built false))
  | rebuildFailed : s.task = .rebuilding →
    TaskStep cfg s { s with task := .backingOff } (some (.built false))
  | receive {id : ι} {message : Iec104Message} {now : OffsetDateTime} :
    s.task = .selecting → message.Valid →
    TaskStep cfg s { s with task := .received id message now } (some (.received id message now))
  | receiveError : s.task = .selecting → TaskStep cfg s s none
  | endSource {elapsed backoff : Duration} :
    s.task = .selecting →
    backoff = (if SOURCE_STABLE_RUN.asNanos ≤ elapsed.asNanos then SOURCE_MIN_BACKOFF else s.backoff) →
    TaskStep cfg s { s with task := .backingOff, backoff } (some (.sourceEnded elapsed))
  | ctrlC : s.task = .selecting ∨ s.task = .backingOff →
    TaskStep cfg s { s with task := .returned true } (some .stopped)
  | insert {id : ι} {message : Iec104Message} {now : OffsetDateTime} :
    s.task = .received id message now → s.dataLock = none →
    TaskStep cfg s
      { s with
        cache := s.cache.insert (message.key cfg.defaultCa) ⟨message, now⟩
        task := .cached id message now }
      (some (.inserted id ⟨message, now⟩))
  | skip {id : ι} {message : Iec104Message} {now : OffsetDateTime} :
    s.task = .cached id message now → cfg.giOnly = true →
    TaskStep cfg s { s with task := .acking id false } none
  | dispatch {id : ι} {message : Iec104Message} {now : OffsetDateTime} :
    s.task = .cached id message now → cfg.giOnly = false →
    TaskStep cfg s { s with task := .acking id true }
      (some (.handed id now (spontaneousFrame cfg message now)))
  | ack {id : ι} {dispatched : Bool} : s.task = .acking id dispatched →
    TaskStep cfg s { s with task := .acked dispatched } (some (.acked id))
  | ackFailed {id : ι} {dispatched : Bool} : s.task = .acking id dispatched →
    TaskStep cfg s { s with task := .selecting } (some (.ackFailed id))
  | count : s.task = .acked true →
    TaskStep cfg s
      { s with
        metrics := { s.metrics with messagesDispatched := s.metrics.messagesDispatched + 1 }
        task := .selecting }
      (some .counted)
  | noCount : s.task = .acked false → TaskStep cfg s { s with task := .selecting } none
  | sleep : s.task = .backingOff →
    TaskStep cfg s
      { s with
        task := .rebuilding
        backoff := ⟨min (s.backoff.asNanos * 2) SOURCE_MAX_BACKOFF.asNanos⟩ }
      (some (.slept s.backoff))

theorem taskStep_cases {e : TaskEvent ι} {o : Option (Effect ι)}
    (h : taskStep cfg s e = some (t, o)) : TaskStep cfg s t o := by
  cases e with
  | build ok =>
    simp only [taskStep] at h
    split at h <;> cases h
    · exact .built (.inl ‹_›)
    · exact .built (.inr ‹_›)
    · exact .buildFailed ‹_›
    · exact .rebuildFailed ‹_›
  | receive id message now =>
    simp only [taskStep] at h
    split at h <;> [skip; cases h]
    split at h <;> cases h
    exact .receive ‹_› ‹_›
  | receiveError =>
    simp only [taskStep] at h
    split at h <;> cases h
    exact .receiveError ‹_›
  | endSource elapsed =>
    simp only [taskStep] at h
    split at h <;> cases h
    exact .endSource ‹_› rfl
  | ctrlC =>
    simp only [taskStep] at h
    split at h <;> cases h
    · exact .ctrlC (.inl ‹_›)
    · exact .ctrlC (.inr ‹_›)
  | insert =>
    simp only [taskStep] at h
    split at h <;> cases h
    exact .insert ‹_› ‹_›
  | dispatch =>
    simp only [taskStep] at h
    split at h <;> cases h
    rename_i id message now hs
    rw [dispatchIncoming_eq]
    cases hg : cfg.giOnly with
    | false => exact .dispatch hs hg
    | true => exact .skip hs hg
  | ack ok =>
    simp only [taskStep] at h
    split at h <;> [skip; cases h]
    split at h <;> cases h
    · exact .ack ‹_›
    · exact .ackFailed ‹_›
  | count =>
    simp only [taskStep] at h
    split at h <;> [skip; cases h]
    rename_i d hs
    split at h <;> cases h
    · subst d; exact .count hs
    · rename_i hd
      rw [Bool.not_eq_true] at hd
      subst d; exact .noCount hs
  | sleep =>
    simp only [taskStep] at h
    split at h <;> cases h
    exact .sleep ‹_›

/-- What a step of the callback on `conn` can do. -/
inductive GiStep (cfg : Settings) (s : State ι) (conn : ConnId) :
    State ι → Option (Effect ι) → Prop
  | request {qoi : UInt8} : s.gi conn = .idle →
    GiStep cfg s conn (s.setGi conn (.requested qoi)) (some (.requested conn qoi))
  | refuse {qoi : UInt8} {sent : Bool} : s.gi conn = .requested qoi → qoi ≠ QOI_STATION →
    GiStep cfg s conn (s.setGi conn .idle) (some (.actCon conn true sent))
  | confirm {sent : Bool} : s.gi conn = .requested QOI_STATION →
    GiStep cfg s conn (s.setGi conn .confirmed) (some (.actCon conn false sent))
  | lock {now : OffsetDateTime} {order : List CachedPoint} :
    s.gi conn = .confirmed → s.dataLock = none →
    (order : Multiset CachedPoint) = s.cache.entries.map Sigma.snd →
    GiStep cfg s conn { s.setGi conn (.replaying now order .new) with dataLock := some conn }
      (some (.locked conn now))
  | send {now : OffsetDateTime} {point : CachedPoint} {todo : List CachedPoint}
    {sink : ConnectionSink} {sent : Bool} :
    s.gi conn = .replaying now (point :: todo) sink →
    GiStep cfg s conn
      (s.setGi conn (.replaying now todo (if !sent then ⟨sink.failed + 1⟩ else sink)))
      (some (.giData conn now (replayFrame cfg now point) sent))
  | unlock {now : OffsetDateTime} {sink : ConnectionSink} : s.gi conn = .replaying now [] sink →
    GiStep cfg s conn { s.setGi conn .replayed with dataLock := none } none
  | count : s.gi conn = .replayed →
    GiStep cfg s conn
      { s.setGi conn .counted with
        metrics := { s.metrics with giResponses := s.metrics.giResponses + 1 } }
      (some (.giCounted conn))
  | terminate {sent : Bool} : s.gi conn = .counted →
    GiStep cfg s conn (s.setGi conn .idle) (some (.actTerm conn sent))

theorem giStep_cases {conn : ConnId} {e : GiEvent} {o : Option (Effect ι)}
    (h : giStep cfg s conn e = some (t, o)) : GiStep cfg s conn t o := by
  cases e with
  | request qoi =>
    simp only [giStep] at h
    split at h <;> cases h
    exact .request ‹_›
  | confirm sent =>
    simp only [giStep] at h
    split at h <;> [skip; cases h]
    rename_i qoi hs
    split at h <;> cases h
    · exact .refuse hs ‹_›
    · rename_i hq
      exact .confirm (not_not.mp hq ▸ hs)
  | lock now order =>
    simp only [giStep] at h
    split at h <;> [skip; cases h]
    split at h <;> cases h
    exact .lock ‹_› ‹_› ‹_›
  | send sent =>
    simp only [giStep, replayPoint_eq, attempt] at h
    split at h <;> cases h
    exact .send ‹_›
  | unlock =>
    simp only [giStep] at h
    split at h <;> cases h
    exact .unlock ‹_›
  | count =>
    simp only [giStep] at h
    split at h <;> cases h
    exact .count ‹_›
  | terminate sent =>
    simp only [giStep] at h
    split at h <;> cases h
    exact .terminate ‹_›

/-- A step of the process is one of the task or of a callback. -/
theorem process_step {a : Event ι} {o : Option (Effect ι)}
    (h : (process ι cfg).step s a = some (t, o)) :
    TaskStep cfg s t o ∨ ∃ conn, GiStep cfg s conn t o := by
  cases a with
  | task e => exact .inl (taskStep_cases h)
  | gi conn e => exact .inr ⟨conn, giStep_cases h⟩

/-! ## Updates of a callback -/

section

variable (conn conn' : ConnId) (phase : GiPhase)

@[simp] theorem State.setGi_cache : (s.setGi conn phase).cache = s.cache := rfl
@[simp] theorem State.setGi_metrics : (s.setGi conn phase).metrics = s.metrics := rfl
@[simp] theorem State.setGi_dataLock : (s.setGi conn phase).dataLock = s.dataLock := rfl
@[simp] theorem State.setGi_task : (s.setGi conn phase).task = s.task := rfl
@[simp] theorem State.setGi_backoff : (s.setGi conn phase).backoff = s.backoff := rfl
@[simp] theorem State.setGi_gi_self : (s.setGi conn phase).gi conn = phase := by
  simp [State.setGi]

theorem State.setGi_gi_of_ne (h : conn' ≠ conn) : (s.setGi conn phase).gi conn' = s.gi conn' := by
  simp [State.setGi, h]

end

/-- A callback changes neither the data store nor the task. -/
theorem GiStep.frame {conn : ConnId} {o : Option (Effect ι)} (h : GiStep cfg s conn t o) :
    t.cache = s.cache ∧ t.task = s.task ∧
      t.metrics.messagesDispatched = s.metrics.messagesDispatched ∧ t.backoff = s.backoff := by
  cases h <;> exact ⟨rfl, rfl, rfl, rfl⟩

/-- A callback leaves the other callbacks where they are. -/
theorem GiStep.gi_of_ne {conn conn' : ConnId} {o : Option (Effect ι)} (h : GiStep cfg s conn t o)
    (hne : conn' ≠ conn) : t.gi conn' = s.gi conn' := by
  cases h <;> exact State.setGi_gi_of_ne _ _ _ hne

/-- The task leaves the callbacks, the lock and `gi_responses` alone. -/
theorem TaskStep.frame {o : Option (Effect ι)} (h : TaskStep cfg s t o) :
    t.gi = s.gi ∧ t.dataLock = s.dataLock ∧ t.metrics.giResponses = s.metrics.giResponses := by
  cases h <;> exact ⟨rfl, rfl, rfl⟩

/-- A task that has returned does nothing. -/
theorem TaskStep.not_returned {o : Option (Effect ι)} (h : TaskStep cfg s t o) :
    s.task.isReturned = false := by
  cases h with
  | built h | ctrlC h => rcases h with h | h <;> rw [h] <;> rfl
  | _ h => rw [h]; rfl

theorem isReturned_step {a : Event ι} {o : Option (Effect ι)}
    (h : (process ι cfg).step s a = some (t, o)) (hr : s.task.isReturned = true) :
    t.task.isReturned = true := by
  rcases process_step h with h | ⟨conn, h⟩
  · rw [h.not_returned] at hr
    cases hr
  · rwa [h.frame.2.1]

/-! ## One message after another -/

/-- The message the task handles, before the end of its acknowledgement. -/
def TaskPhase.current : TaskPhase ι → Option ι
  | .received id _ _ | .cached id _ _ | .acking id _ => some id
  | _ => none

/-- What an effect is for the main loop, which handles one message at a time. -/
def Effect.toWorker : Effect ι → Option (Worker.Effect ι)
  | .received id _ _ => some (.taken id)
  | .acked id => some (.finished id)
  | .ackFailed id => some (.failed id)
  | _ => none

/-- The main loop is a worker. -/
theorem process_worker (ι : Type) (cfg : Settings) :
    Machine.Simulation (process ι cfg) (Worker.machine ι) (fun s => s.task.current)
      Effect.toWorker where
  init := rfl
  step {s t a o} h := by
    rcases process_step h with h | ⟨conn, h⟩
    · cases h with
      | @receive id message now ht =>
        refine .inl ⟨.take id, ?_⟩
        simp only [ht, TaskPhase.current]
        rfl
      | ack ht =>
        refine .inl ⟨.finish true, ?_⟩
        simp only [ht, TaskPhase.current]
        rfl
      | ackFailed ht =>
        refine .inl ⟨.finish false, ?_⟩
        simp only [ht, TaskPhase.current]
        rfl
      | receiveError => exact .inr ⟨rfl, rfl⟩
      | built ht | ctrlC ht =>
        refine .inr ⟨?_, rfl⟩
        rcases ht with ht | ht <;> rw [ht] <;> rfl
      | buildFailed ht | rebuildFailed ht | endSource ht | sleep ht | insert ht | skip ht
      | dispatch ht | count ht | noCount ht =>
        refine .inr ⟨?_, rfl⟩
        rw [ht]
        rfl
    · refine .inr ⟨by rw [h.frame.2.1], ?_⟩
      cases h <;> rfl

/-- Only `receive` takes a message. -/
theorem event_of_received {a : Event ι} {id : ι} {message : Iec104Message} {now : OffsetDateTime}
    (h : (process ι cfg).step s a = some (t, some (.received id message now))) :
    a = .task (.receive id message now) := by
  cases a with
  | gi conn e =>
    generalize ho : some (Effect.received id message now) = o at h
    cases giStep_cases h <;> cases ho
  | task e =>
    cases e with
    | receive =>
      simp only [process, taskStep] at h
      split at h <;> [skip; cases h]
      split at h <;> cases h
      rfl
    | dispatch =>
      simp only [process, taskStep, dispatchIncoming_eq] at h
      split at h <;> [skip; cases h]
      split at h <;> cases h
    | ack | count =>
      simp only [process, taskStep] at h
      split at h <;> [skip; cases h]
      split at h <;> cases h
    | _ =>
      simp only [process, taskStep] at h
      split at h <;> cases h

/-! ## Sample inputs -/

def Settings.sample : Settings := ⟨1, false, {}, .reference⟩

def Iec104Message.sample (ioa : UInt32) (on : Bool) : Iec104Message := { ioa, value := .bool on }

def OffsetDateTime.sample (secs : Nat) : OffsetDateTime := ⟨secs * 1000000000, 0⟩

/-- The events of a message from its arrival to the end of its handling. -/
def handleMessage (id : Nat) (message : Iec104Message) (now : OffsetDateTime) : List (Event Nat) :=
  [.task (.receive id message now), .task .insert, .task .dispatch, .task (.ack true), .task .count]

end Iec104Bridge
