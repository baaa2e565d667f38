import Iec104Bridge.Framework.Lane
import Iec104Bridge.Model.Unix
import Iec104Bridge.Proof.Process

/-!
# What the Unix-socket input does

`UnixStep` says everything a step can do. It runs the process
(`unix_process`), and for each client it is a lane (`unix_lane`): the task of
the client answers the lines it rejects, and the main loop is the worker.
-/

namespace Iec104Bridge

open Framework

variable {cfg : UnixSettings} {s t : UnixState} {w : List UnixEffect}

section

variable (c d : ClientId) (client : Client)

@[simp] theorem UnixState.setClient_self : (s.setClient c client).clients c = client := by
  simp [UnixState.setClient]

theorem UnixState.setClient_of_ne (h : d ≠ c) : (s.setClient c client).clients d = s.clients d := by
  simp [UnixState.setClient, h]

@[simp] theorem UnixState.setClient_core : (s.setClient c client).core = s.core := rfl
@[simp] theorem UnixState.setClient_channel : (s.setClient c client).channel = s.channel := rfl

end

/-- The steps of the process that neither take a message nor end one. -/
def Event.Internal : Event LineId → Prop
  | .task .insert | .task .dispatch | .task .count | .gi .. => True
  | _ => False

/-- What a step can do. -/
inductive UnixStep (cfg : UnixSettings) (s : UnixState) (e : UnixEvent) :
    UnixState → Option UnixEffect → Prop
  /-- A client sends, or closes. -/
  | client {c : ClientId} {incoming : List UInt8} {eof gone : Bool} : e.client? = some c →
    UnixStep cfg s e (s.setClient c { s.clients c with incoming, eof, gone }) none
  | clientRead {c : ClientId} {reply : Reply} {unread : List Reply} :
    e.client? = some c → (s.clients c).unread = reply :: unread →
    UnixStep cfg s e (s.setClient c { s.clients c with unread }) (some (.delivered c reply))
  | accept {c : ClientId} {peer : Option PeerCred} :
    s.listener = .accepting → (s.clients c).phase = .absent →
    UnixStep cfg s e (s.setClient c { s.clients c with phase := handleUnixClient cfg peer })
      (some (.accepted c peer))
  | acceptError : s.listener = .accepting → UnixStep cfg s e { s with listener := .reporting } none
  | listenEnd : s.listener = .reporting → s.core.task.isReturned = true →
    UnixStep cfg s e { s with listener := .ended } none
  | reportError : s.listener = .reporting → s.core.task.isReturned = false →
    UnixStep cfg s e { s with listener := .accepting, channel := s.channel ++ [.acceptError] } none
  | leave {c : ClientId} {incoming : List UInt8} :
    (s.clients c).phase = .refusing ∨ (s.clients c).phase = .reading →
    UnixStep cfg s e (s.setClient c { s.clients c with phase := .ended, incoming }) (some (.left c))
  | refuse {c : ClientId} : (s.clients c).phase = .refusing →
    UnixStep cfg s e
      (s.setClient c { s.clients c with
        phase := .ended, unread := (s.clients c).unread ++ [.errorUnauthorized] })
      (some (.unauthorized c))
  | read {c : ClientId} {line rest : List UInt8} {verdict : Except Reply Iec104Message} :
    (s.clients c).phase = .reading → validUtf8 line = true →
    verdict = processUnixSocketLine cfg.parse line line.length cfg.maxLineBytes →
    UnixStep cfg s e
      (s.setClient c { s.clients c with
        phase := match verdict with
          | .error reply => .rejecting (s.clients c).lines reply
          | .ok message => .sending (s.clients c).lines message
        incoming := rest
        lines := (s.clients c).lines + 1 })
      (some (.read (c, (s.clients c).lines) line verdict))
  | lock {c : ClientId} {n : Nat} {reply : Reply} :
    (s.clients c).phase = .rejecting n reply → .client ∉ (s.clients c).writer →
    UnixStep cfg s e
      (s.setClient c { s.clients c with writer := (s.clients c).writer ++ [.client] }) none
  | reply {c : ClientId} {n : Nat} {reply : Reply} {writer : List Writer} :
    (s.clients c).phase = .rejecting n reply → (s.clients c).writer = .client :: writer →
    (s.clients c).gone = false → (s.clients c).HasRoom cfg.sendBuffer reply →
    UnixStep cfg s e
      (s.setClient c { s.clients c with
        phase := .reading, writer, unread := (s.clients c).unread ++ [reply] })
      (some (.replied (c, n) reply))
  | replyFailed {c : ClientId} {n : Nat} {reply : Reply} {writer : List Writer} :
    (s.clients c).phase = .rejecting n reply → (s.clients c).writer = .client :: writer →
    (s.clients c).gone = true →
    UnixStep cfg s e (s.setClient c { s.clients c with phase := .ended, writer })
      (some (.replyFailed (c, n)))
  | forward {c : ClientId} {n : Nat} {message : Iec104Message} :
    (s.clients c).phase = .sending n message → s.core.task.isReturned = false →
    UnixStep cfg s e
      { s.setClient c { s.clients c with phase := .reading } with
        channel := s.channel ++ [.message (c, n) message] }
      (some (.forwarded (c, n)))
  | giveUp {c : ClientId} {n : Nat} {message : Iec104Message} :
    (s.clients c).phase = .sending n message → s.core.task.isReturned = true →
    UnixStep cfg s e (s.setClient c { s.clients c with phase := .ended }) (some (.left c))
  | build : s.core.task = .starting →
    UnixStep cfg s e { s with core := { s.core with task := .selecting }, listener := .accepting }
      (some (.core (.built true)))
  | core {event : Event LineId} {t : State LineId} {o : Option (Effect LineId)} :
    (process LineId cfg.core).step s.core event = some (t, o) → event.Internal →
    UnixStep cfg s e { s with core := t } (o.map .core)
  | stop {event : Event LineId} {t : State LineId} {o : Option (Effect LineId)} :
    event = .task .ctrlC ∨ event = .task (.build false) ∧ s.core.task = .starting →
    (process LineId cfg.core).step s.core event = some (t, o) →
    UnixStep cfg s e { s with core := t, channel := [] } (o.map .core)
  | takeError {channel : List Item} :
    s.channel = .acceptError :: channel → s.core.task = .selecting →
    UnixStep cfg s e { s with channel } none
  | take {id : LineId} {message : Iec104Message} {channel : List Item} {now : OffsetDateTime} :
    s.channel = .message id message :: channel → s.core.task = .selecting → message.Valid →
    UnixStep cfg s e { s with channel, core := { s.core with task := .received id message now } }
      (some (.core (.received id message now)))
  | ackLock {id : LineId} {dispatched : Bool} :
    s.core.task = .acking id dispatched → .loop ∉ (s.clients id.1).writer →
    UnixStep cfg s e
      (s.setClient id.1 { s.clients id.1 with writer := (s.clients id.1).writer ++ [.loop] }) none
  | ack {id : LineId} {dispatched : Bool} {writer : List Writer} :
    s.core.task = .acking id dispatched → (s.clients id.1).writer = .loop :: writer →
    (s.clients id.1).gone = false → (s.clients id.1).HasRoom cfg.sendBuffer .ok →
    UnixStep cfg s e
      { s.setClient id.1 { s.clients id.1 with
          writer, unread := (s.clients id.1).unread ++ [.ok] } with
        core := { s.core with task := .acked dispatched } }
      (some (.core (.acked id)))
  | ackFailed {id : LineId} {dispatched : Bool} {writer : List Writer} :
    s.core.task = .acking id dispatched → (s.clients id.1).writer = .loop :: writer →
    (s.clients id.1).gone = true →
    UnixStep cfg s e
      { s.setClient id.1 { s.clients id.1 with writer } with
        core := { s.core with task := .selecting } }
      (some (.core (.ackFailed id)))

theorem coreStep_some {event : Event LineId} {o : Option UnixEffect}
    (h : s.coreStep cfg event = some (t, o)) :
    ∃ u o', (process LineId cfg.core).step s.core event = some (u, o') ∧
      t = { s with core := u } ∧ o = o'.map .core := by
  simp only [UnixState.coreStep] at h
  split at h <;> cases h
  exact ⟨_, _, ‹_›, rfl, rfl⟩

theorem clientStep_cases {c : ClientId} {e : UnixEvent} {o : Option UnixEffect}
    (h : clientStep s c e = some (t, o)) (he : e.client? = some c) : UnixStep cfg s e t o := by
  cases e with
  | clientSend _ bytes =>
    simp only [clientStep] at h
    split at h <;> cases h
    exact .client he
  | clientShutdown | clientClose =>
    simp only [clientStep] at h
    cases h
    exact .client he
  | clientRead =>
    simp only [clientStep] at h
    split at h <;> [cases h; skip]
    split at h <;> cases h
    exact .clientRead he ‹_›
  | _ => cases h

theorem listenerStep_cases {e : UnixEvent} {o : Option UnixEffect}
    (h : listenerStep cfg s e = some (t, o)) : UnixStep cfg s e t o := by
  cases e with
  | accept c peer =>
    simp only [listenerStep] at h
    split at h <;> cases h
    exact .accept ‹_› ‹_›
  | acceptError =>
    simp only [listenerStep] at h
    split at h <;> cases h
    exact .acceptError ‹_›
  | reportError =>
    simp only [listenerStep] at h
    split at h <;> [skip; cases h]
    split at h
    · cases h
      exact .listenEnd ‹_› ‹_›
    split at h <;> cases h
    rename_i hr _
    exact .reportError ‹_› (Bool.not_eq_true _ ▸ hr)
  | _ => cases h

theorem readerStep_cases {c : ClientId} {e : UnixEvent} {o : Option UnixEffect}
    (h : readerStep cfg s c e = some (t, o)) : UnixStep cfg s e t o := by
  cases e with
  | refuse =>
    simp only [readerStep] at h
    split at h <;> [skip; cases h]
    split at h
    · cases h
      exact .leave (.inl ‹_›)
    split at h <;> cases h
    exact .refuse ‹_›
  | readLine =>
    simp only [readerStep] at h
    split at h
    · cases h
      exact .leave (.inr ‹_›)
    · split at h <;> cases h
      · exact .read ‹_› ‹_› rfl
      · exact .leave (.inr ‹_›)
    · cases h
  | lock =>
    simp only [readerStep] at h
    split at h <;> [skip; cases h]
    split at h <;> cases h
    exact .lock ‹_› ‹_›
  | writeReply =>
    simp only [readerStep] at h
    split at h <;> [skip; cases h]
    split at h
    · cases h
      exact .replyFailed ‹_› ‹_› ‹_›
    split at h <;> cases h
    rename_i hg _
    exact .reply ‹_› ‹_› (Bool.not_eq_true _ ▸ hg) ‹_›
  | forward =>
    simp only [readerStep] at h
    split at h <;> [skip; cases h]
    split at h
    · cases h
      exact .giveUp ‹_› ‹_›
    split at h <;> cases h
    rename_i hr _
    exact .forward ‹_› (Bool.not_eq_true _ ▸ hr)
  | _ => cases h

theorem mainStep_cases {e : UnixEvent} {o : Option UnixEffect}
    (h : mainStep cfg s e = some (t, o)) : UnixStep cfg s e t o := by
  cases e with
  | main event =>
    simp only [mainStep] at h
    split at h
    · obtain ⟨u, o', hs, rfl, rfl⟩ := coreStep_some h
      rename_i ht
      simp only [process, taskStep, ht] at hs
      cases hs
      exact .build ht
    · obtain ⟨u, o', hs, rfl, rfl⟩ := coreStep_some h
      exact .stop (.inr ⟨rfl, ‹_›⟩) hs
    · obtain ⟨u, o', hs, rfl, rfl⟩ := coreStep_some h
      exact .stop (.inl rfl) hs
    · obtain ⟨u, o', hs, rfl, rfl⟩ := coreStep_some h
      exact .core hs trivial
    · obtain ⟨u, o', hs, rfl, rfl⟩ := coreStep_some h
      exact .core hs trivial
    · obtain ⟨u, o', hs, rfl, rfl⟩ := coreStep_some h
      exact .core hs trivial
    · cases h
  | take now =>
    simp only [mainStep] at h
    split at h
    · cases h
    · obtain ⟨u, o', hs, rfl, rfl⟩ := coreStep_some h
      simp only [process, taskStep] at hs
      split at hs <;> cases hs
      exact .takeError ‹_› ‹_›
    · obtain ⟨u, o', hs, rfl, rfl⟩ := coreStep_some h
      simp only [process, taskStep] at hs
      split at hs <;> [skip; cases hs]
      split at hs <;> cases hs
      exact .take ‹_› ‹_› ‹_›
  | ackLock =>
    simp only [mainStep] at h
    split at h <;> [skip; cases h]
    split at h <;> cases h
    exact .ackLock ‹_› ‹_›
  | ackWrite =>
    simp only [mainStep] at h
    split at h <;> [skip; cases h]
    rename_i ht
    split at h <;> [skip; cases h]
    split at h
    · obtain ⟨u, o', hs, rfl, rfl⟩ := coreStep_some h
      simp only [process, taskStep, UnixState.setClient, ht] at hs
      cases hs
      exact .ackFailed ht ‹_› ‹_›
    split at h <;> [skip; cases h]
    obtain ⟨u, o', hs, rfl, rfl⟩ := coreStep_some h
    simp only [process, taskStep, UnixState.setClient, ht] at hs
    cases hs
    rename_i hg _
    exact .ack ht ‹_› (Bool.not_eq_true _ ▸ hg) ‹_›
  | gi conn event =>
    obtain ⟨u, o', hs, rfl, rfl⟩ := coreStep_some h
    exact .core hs trivial
  | _ => cases h

theorem unixStep_cases {e : UnixEvent} {o : Option UnixEffect}
    (h : (unix cfg).step s e = some (t, o)) : UnixStep cfg s e t o := by
  simp only [unix, unixStep] at h
  split at h
  · exact clientStep_cases h rfl
  · exact clientStep_cases h rfl
  · exact clientStep_cases h rfl
  · exact clientStep_cases h rfl
  · exact listenerStep_cases h
  · exact listenerStep_cases h
  · exact listenerStep_cases h
  · exact readerStep_cases h
  · exact readerStep_cases h
  · exact readerStep_cases h
  · exact readerStep_cases h
  · exact readerStep_cases h
  · exact mainStep_cases h
  · exact mainStep_cases h
  · exact mainStep_cases h
  · exact mainStep_cases h
  · exact mainStep_cases h

/-! ## The process inside -/

def UnixEffect.toCore : UnixEffect → Option (Effect LineId)
  | .core e => some e
  | _ => none

theorem toCore_map_core (o : Option (Effect LineId)) :
    (o.map UnixEffect.core).bind UnixEffect.toCore = o := by
  cases o <;> rfl

/-- The Unix-socket input runs the process. -/
theorem unix_process (cfg : UnixSettings) :
    Machine.Simulation (unix cfg) (process LineId cfg.core) UnixState.core UnixEffect.toCore where
  init := rfl
  step {s t a o} h := by
    cases unixStep_cases h with
    | build ht =>
      refine .inl ⟨.task (.build true), ?_⟩
      simp only [process, taskStep, ht]
      rfl
    | core hs =>
      rw [toCore_map_core]
      exact .inl ⟨_, hs⟩
    | stop _ hs =>
      rw [toCore_map_core]
      exact .inl ⟨_, hs⟩
    | @take id message channel now _ ht hv =>
      refine .inl ⟨.task (.receive id message now), ?_⟩
      simp only [process, taskStep, ht, hv, if_true]
      rfl
    | @ack id dispatched writer ht =>
      refine .inl ⟨.task (.ack true), ?_⟩
      simp only [process, taskStep, ht, if_true]
      rfl
    | @ackFailed id dispatched writer ht =>
      refine .inl ⟨.task (.ack false), ?_⟩
      simp only [process, taskStep, ht, Bool.false_eq_true, if_false]
      rfl
    | _ => exact .inr ⟨rfl, rfl⟩

/-! ## The lane of a client -/

/-- The line the task of a client is at. -/
def ClientPhase.slot : ClientPhase → Option (Nat × Except Reply Iec104Message)
  | .rejecting n reply => some (n, .error reply)
  | .sending n message => some (n, .ok message)
  | _ => none

/-- The message of the client, if the item is one. -/
def Item.of (c : ClientId) : Item → Option (Nat × Iec104Message)
  | .message id msg => if id.1 = c then some (id.2, msg) else none
  | .acceptError => none

/-- The number of a line of the client. -/
def lineOf (c : ClientId) (id : LineId) : Option Nat := if id.1 = c then some id.2 else none

def laneOf (c : ClientId) (s : UnixState) : Lane Iec104Message Reply where
  lines := (s.clients c).lines
  slot := (s.clients c).phase.slot
  queue := s.channel.filterMap (Item.of c)
  working := s.core.task.current.bind (lineOf c)
  closed := s.core.task.isReturned

abbrev LineEffect := Lane.Effect Iec104Message Reply

/-- What an effect is for a client. -/
def UnixEffect.toLine (c : ClientId) : UnixEffect → Option LineEffect
  | .read id _ verdict => (lineOf c id).map fun n => .read n verdict
  | .replied id reply => (lineOf c id).map fun n => .replied n reply
  | .replyFailed id => (lineOf c id).map .replyFailed
  | .core (.received id message _) => (lineOf c id).map fun n => .taken n message
  | .core (.acked id) => (lineOf c id).map .finished
  | .core (.ackFailed id) => (lineOf c id).map .failed
  | _ => none

theorem laneOf_setClient_of_ne {c d : ClientId} {client : Client} (h : c ≠ d) :
    laneOf c (s.setClient d client) = laneOf c s := by
  simp [laneOf, UnixState.setClient, h]

theorem laneOf_setClient {c : ClientId} {client : Client} :
    laneOf c (s.setClient c client) =
      { laneOf c s with lines := client.lines, slot := client.phase.slot } := by
  simp [laneOf, UnixState.setClient]

/-- A client's own state does not show in its lane, but for the line its task is at. -/
theorem laneOf_setClient_same {c d : ClientId} {client : Client}
    (hl : client.lines = (s.clients d).lines) (hp : client.phase.slot = (s.clients d).phase.slot) :
    laneOf c (s.setClient d client) = laneOf c s := by
  by_cases h : c = d
  · subst h
    rw [laneOf_setClient, hl, hp]
    rfl
  · exact laneOf_setClient_of_ne h

theorem laneOf_slot {c : ClientId} {phase : ClientPhase} (h : (s.clients c).phase = phase) :
    (laneOf c s).slot = phase.slot := congrArg ClientPhase.slot h

/-- An internal step of the process goes on with the message it is at. -/
theorem internal_current {cfg : Settings} {s t : State LineId} {event : Event LineId}
    {o : Option (Effect LineId)} (h : (process LineId cfg).step s event = some (t, o))
    (hi : event.Internal) :
    t.task.isReturned = s.task.isReturned ∧ ∀ c,
      t.task.current.bind (lineOf c) = s.task.current.bind (lineOf c) ∧
      (o.map UnixEffect.core).bind (UnixEffect.toLine c) = none := by
  cases event with
  | gi conn e =>
    have hg := giStep_cases h
    rw [hg.frame.2.1]
    refine ⟨rfl, fun c => ⟨rfl, ?_⟩⟩
    cases hg <;> rfl
  | task e =>
    cases e with
    | insert =>
      simp only [process, taskStep] at h
      split at h <;> cases h
      rename_i hs _
      rw [hs]
      exact ⟨rfl, fun c => ⟨rfl, rfl⟩⟩
    | dispatch =>
      simp only [process, taskStep] at h
      split at h <;> cases h
      rename_i hs
      rw [hs]
      refine ⟨rfl, fun c => ⟨rfl, ?_⟩⟩
      rw [dispatchIncoming_eq]
      split <;> rfl
    | count =>
      simp only [process, taskStep] at h
      split at h <;> [skip; cases h]
      rename_i hs
      rw [hs]
      split at h <;> cases h <;> exact ⟨rfl, fun c => ⟨rfl, rfl⟩⟩
    | _ => exact hi.elim

/-- The main loop stops between two messages. -/
theorem stop_current {cfg : Settings} {s t : State LineId} {event : Event LineId}
    {o : Option (Effect LineId)} (h : (process LineId cfg).step s event = some (t, o))
    (he : event = .task .ctrlC ∨ event = .task (.build false) ∧ s.task = .starting) :
    s.task.current = none ∧ (t.task.current = none ∧ t.task.isReturned = true) ∧
      ∀ c, (o.map UnixEffect.core).bind (UnixEffect.toLine c) = none := by
  rcases he with rfl | ⟨rfl, hs⟩
  · simp only [process, taskStep] at h
    split at h <;> cases h
    · rw [‹s.task = .selecting›]
      exact ⟨rfl, ⟨rfl, rfl⟩, fun c => rfl⟩
    · rw [‹s.task = .backingOff›]
      exact ⟨rfl, ⟨rfl, rfl⟩, fun c => rfl⟩
  · simp only [process, taskStep, hs] at h
    cases h
    rw [hs]
    exact ⟨rfl, ⟨rfl, rfl⟩, fun c => rfl⟩

@[simp] theorem lineOf_self (c : ClientId) (n : Nat) : lineOf c (c, n) = some n := if_pos rfl

theorem lineOf_of_ne {c : ClientId} {id : LineId} (h : c ≠ id.1) : lineOf c id = none :=
  if_neg (Ne.symm h)

theorem lineOf_pair_of_ne {c d : ClientId} {n : Nat} (h : c ≠ d) : lineOf c (d, n) = none :=
  lineOf_of_ne h

theorem eq_of_lineOf {c : ClientId} {id : LineId} {n : Nat} (h : lineOf c id = some n) :
    id = (c, n) := by
  simp only [lineOf] at h
  split at h <;> cases h
  exact Prod.ext ‹_› rfl

section

variable {c d : ClientId} {client : Client}

/-- A rejection is answered, or its write fails. -/
theorem lane_reply {n : Nat} {reply : Reply} (ok : Bool) (hp : (s.clients d).phase = .rejecting n reply)
    (hl : client.lines = (s.clients d).lines) (hs : client.phase.slot = none) :
    (∃ b, (Lane.machine Iec104Message Reply).step (laneOf c s) b = some (laneOf c (s.setClient d client),
      (lineOf c (d, n)).map fun n => if ok then .replied n reply else .replyFailed n)) ∨
    laneOf c (s.setClient d client) = laneOf c s ∧ (lineOf c (d, n)).map
      (fun n => if ok then Lane.Effect.replied n reply else .replyFailed n) = (none : Option LineEffect) := by
  by_cases hd : c = d
  · subst hd
    have hslot : (laneOf c s).slot = some (n, .error reply) := laneOf_slot hp
    refine .inl ⟨.reply ok, ?_⟩
    simp only [Lane.machine, Lane.step, hslot]
    rw [laneOf_setClient, hl, hs, lineOf_self]
    rfl
  · refine .inr ⟨laneOf_setClient_of_ne hd, ?_⟩
    rw [lineOf_pair_of_ne hd]
    rfl

/-- An acknowledgement ends, well or not. -/
theorem lane_finish {id : LineId} {dispatched : Bool} {task : TaskPhase LineId} (ok : Bool)
    (ht : s.core.task = .acking id dispatched) (hl : client.lines = (s.clients d).lines)
    (hp : client.phase.slot = (s.clients d).phase.slot) (hc : task.current = none)
    (hr : task.isReturned = false) :
    let u : UnixState := { s.setClient d client with core := { s.core with task } }
    (∃ b, (Lane.machine Iec104Message Reply).step (laneOf c s) b = some (laneOf c u,
      (lineOf c id).map fun n => if ok then .finished n else .failed n)) ∨
    laneOf c u = laneOf c s ∧ (lineOf c id).map
      (fun n => if ok then Lane.Effect.finished n else .failed n) = (none : Option LineEffect) := by
  intro u
  have hw : (laneOf c s).working = lineOf c id := by simp [laneOf, ht, TaskPhase.current]
  have hcl : (laneOf c s).closed = false := by simp [laneOf, ht, TaskPhase.isReturned]
  have hu : laneOf c u = { laneOf c s with working := none } := by
    show ({ laneOf c (s.setClient d client) with
      working := task.current.bind (lineOf c), closed := task.isReturned } : Lane _ _) = _
    rw [laneOf_setClient_same hl hp, hc, hr, ← hcl]
    rfl
  rw [hu]
  cases hli : lineOf c id with
  | some n =>
    refine .inl ⟨.finish ok, ?_⟩
    simp only [Lane.machine, Lane.step, hw, hli]
    rfl
  | none =>
    refine .inr ⟨?_, rfl⟩
    rw [← hli, ← hw]

end

/-- For each client the Unix-socket input is a lane. -/
theorem unix_lane (cfg : UnixSettings) (c : ClientId) :
    Machine.Simulation (unix cfg) (Lane.machine Iec104Message Reply) (laneOf c)
      (UnixEffect.toLine c) where
  init := rfl
  step {s t a o} h := by
    cases unixStep_cases h with
    | client | clientRead =>
      exact .inr ⟨laneOf_setClient_same rfl rfl, rfl⟩
    | @accept d peer _ hp =>
      refine .inr ⟨laneOf_setClient_same rfl ?_, rfl⟩
      rw [hp]
      show (handleUnixClient cfg peer).slot = none
      unfold handleUnixClient
      split
      · rfl
      · split <;> rfl
    | acceptError | listenEnd => exact .inr ⟨rfl, rfl⟩
    | reportError =>
      refine .inr ⟨?_, rfl⟩
      simp [laneOf, Item.of]
    | leave hp =>
      refine .inr ⟨laneOf_setClient_same rfl ?_, rfl⟩
      rcases hp with hp | hp <;> rw [hp] <;> rfl
    | refuse hp =>
      refine .inr ⟨laneOf_setClient_same rfl ?_, rfl⟩
      rw [hp]
      rfl
    | @read d line rest verdict hp _ _ =>
      by_cases hd : c = d
      · subst hd
        refine .inl ⟨.read verdict, ?_⟩
        have hs : (laneOf c s).slot = none := laneOf_slot hp
        simp only [Lane.machine, Lane.step, hs]
        rw [laneOf_setClient]
        simp only [Option.bind_some, UnixEffect.toLine, lineOf_self, Option.map_some]
        cases verdict <;> rfl
      · refine .inr ⟨laneOf_setClient_of_ne hd, ?_⟩
        simp [UnixEffect.toLine, lineOf_pair_of_ne hd]
    | lock => exact .inr ⟨laneOf_setClient_same rfl rfl, rfl⟩
    | reply hp => exact lane_reply true hp rfl rfl
    | replyFailed hp => exact lane_reply false hp rfl rfl
    | @forward d n message hp hr =>
      by_cases hd : c = d
      · subst hd
        refine .inl ⟨.forward, ?_⟩
        have hs : (laneOf c s).slot = some (n, .ok message) := laneOf_slot hp
        have hc : (laneOf c s).closed = false := hr
        simp only [Lane.machine, Lane.step, hs, hc]
        simp [laneOf, UnixState.setClient, ClientPhase.slot, Item.of, UnixEffect.toLine, hr]
      · refine .inr ⟨?_, rfl⟩
        simp [laneOf, UnixState.setClient, Item.of, hd, Ne.symm hd]
    | @giveUp d n message hp hr =>
      by_cases hd : c = d
      · subst hd
        refine .inl ⟨.leave, ?_⟩
        have hs : (laneOf c s).slot = some (n, .ok message) := laneOf_slot hp
        have hc : (laneOf c s).closed = true := hr
        simp only [Lane.machine, Lane.step, hs, hc]
        rw [laneOf_setClient, ← hc]
        rfl
      · exact .inr ⟨laneOf_setClient_of_ne hd, rfl⟩
    | build ht =>
      refine .inr ⟨?_, rfl⟩
      simp only [laneOf, ht]
      rfl
    | core hs hi =>
      obtain ⟨hr, hc⟩ := internal_current hs hi
      refine .inr ⟨?_, (hc c).2⟩
      simp only [laneOf, hr, (hc c).1]
    | @stop event u o hev hs =>
      obtain ⟨hw, hr, ho⟩ := stop_current hs hev
      refine .inl ⟨.close, ?_⟩
      have hw' : (laneOf c s).working = none := by simp [laneOf, hw]
      simp only [Lane.machine, Lane.step, hw']
      simp [laneOf, hr, hw, ho c]
    | takeError hc ht =>
      refine .inr ⟨?_, rfl⟩
      simp only [laneOf, hc]
      rfl
    | @take id message channel now hc ht =>
      by_cases hd : c = id.1
      · subst hd
        refine .inl ⟨.take, ?_⟩
        have hq : (laneOf id.1 s).queue = (id.2, message) :: channel.filterMap (Item.of id.1) := by
          simp [laneOf, hc, Item.of]
        have hw : (laneOf id.1 s).working = none := by simp [laneOf, ht, TaskPhase.current]
        have hr : (laneOf id.1 s).closed = false := by simp [laneOf, ht, TaskPhase.isReturned]
        simp only [Lane.machine, Lane.step, hq, hw, hr]
        simp [laneOf, TaskPhase.current, TaskPhase.isReturned, UnixEffect.toLine, lineOf]
      · refine .inr ⟨?_, ?_⟩
        · simp [laneOf, hc, ht, Item.of, Ne.symm hd, TaskPhase.current, TaskPhase.isReturned,
            lineOf_of_ne hd]
        · simp [UnixEffect.toLine, lineOf_of_ne hd]
    | ackLock => exact .inr ⟨laneOf_setClient_same rfl rfl, rfl⟩
    | ack ht => exact lane_finish true ht rfl rfl rfl rfl
    | ackFailed ht => exact lane_finish false ht rfl rfl rfl rfl

/-! ## Sample inputs -/

/-- The bytes of an ASCII text. -/
def asciiBytes (text : String) : List UInt8 := text.toList.map fun c => UInt8.ofNat c.toNat

def sampleRequest : List UInt8 := asciiBytes "\x7b\"ioa\":100,\"value\":true\x7d"

/-- A server that takes any client, with the smallest send buffer. -/
def UnixSettings.sample : UnixSettings where
  core := .sample
  allowedUid := none
  allowedGid := none
  maxLineBytes := 65536
  parse line := if line = sampleRequest then some (.sample 100 true) else none
  sendBuffer := 19
  sendBuffer_room := by decide

end Iec104Bridge
