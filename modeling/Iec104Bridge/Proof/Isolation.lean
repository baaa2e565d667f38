import Iec104Bridge.Proof.Frames
import Iec104Bridge.Proof.Unix
import Mathlib.Data.Prod.Lex

/-!
# A client that does not read its replies

While a line waits in the channel, a step of the bridge takes it or brings the
main loop closer to it (`UnixState.distance`), unless the loop acknowledges a
line of a client whose send buffer has no room for the next reply. The loop is
then stuck until this client acts (`stuck_step`), for the acknowledgement is
awaited in the main loop and has no time limit.
-/

namespace Iec104Bridge

open Framework

variable {cfg : UnixSettings} {s t : UnixState} {w : List UnixEffect} {e : UnixEvent}
  {o : Option UnixEffect} {c : ClientId}

/-! ## Who holds the mutex of a writer -/

/-- The mutex of the writer of client `c` is asked for by the task of the client
only while it rejects a line, and by the main loop only for its acknowledgement. -/
structure Client.Owned (client : Client) (task : TaskPhase LineId) (c : ClientId) : Prop where
  nodup : client.writer.Nodup
  rejecting : .client ∈ client.writer → ∃ n reply, client.phase = .rejecting n reply
  acking : .loop ∈ client.writer → ∃ n dispatched, task = .acking (c, n) dispatched

theorem Client.Owned.update {client client' : Client} {task : TaskPhase LineId}
    (h : client.Owned task c) (hw : client'.writer = client.writer)
    (hp : client'.phase = client.phase ∨ ∀ n reply, client.phase ≠ .rejecting n reply) :
    client'.Owned task c where
  nodup := by rw [hw]; exact h.nodup
  rejecting hm := by
    rw [hw] at hm
    obtain ⟨n, reply, hr⟩ := h.rejecting hm
    rcases hp with hp | hp
    · exact ⟨n, reply, hp.trans hr⟩
    · exact absurd hr (hp n reply)
  acking hm := by
    rw [hw] at hm
    exact h.acking hm

theorem Client.Owned.retask {client : Client} {task task' : TaskPhase LineId}
    (h : client.Owned task c) (ht : ∀ n dispatched, task ≠ .acking (c, n) dispatched) :
    client.Owned task' c where
  nodup := h.nodup
  rejecting := h.rejecting
  acking hm := by
    obtain ⟨n, dispatched, hn⟩ := h.acking hm
    exact absurd hn (ht n dispatched)

/-- A waiter joins the end of the queue. -/
theorem Client.Owned.push {client : Client} {task : TaskPhase LineId} {x : Writer}
    (h : client.Owned task c) (hx : x ∉ client.writer)
    (hc : x = .client → ∃ n reply, client.phase = .rejecting n reply)
    (hl : x = .loop → ∃ n dispatched, task = .acking (c, n) dispatched) :
    Client.Owned { client with writer := client.writer ++ [x] } task c where
  nodup := List.nodup_append.mpr ⟨h.nodup, List.nodup_singleton x, fun y hy z hz he => by
    rw [List.mem_singleton.mp hz] at he
    exact hx (he ▸ hy)⟩
  rejecting hm := by
    rcases List.mem_append.mp hm with hm | hm
    · exact h.rejecting hm
    · exact hc (List.mem_singleton.mp hm).symm
  acking hm := by
    rcases List.mem_append.mp hm with hm | hm
    · exact h.acking hm
    · exact hl (List.mem_singleton.mp hm).symm

/-- The holder releases the mutex. -/
theorem Client.Owned.pop {client client' : Client} {task task' : TaskPhase LineId} {x : Writer}
    (h : client.Owned task c) (hw : client.writer = x :: client'.writer)
    (hc : x ≠ .client → client'.phase = client.phase) (hl : x ≠ .loop → task' = task) :
    client'.Owned task' c := by
  have hn : (x :: client'.writer).Nodup := hw ▸ h.nodup
  refine ⟨(List.nodup_cons.mp hn).2, fun hm => ?_, fun hm => ?_⟩
  · have hx : x ≠ .client := by
      rintro rfl
      exact (List.nodup_cons.mp hn).1 hm
    rw [hc hx]
    exact h.rejecting (hw ▸ List.mem_cons_of_mem x hm)
  · have hx : x ≠ .loop := by
      rintro rfl
      exact (List.nodup_cons.mp hn).1 hm
    rw [hl hx]
    exact h.acking (hw ▸ List.mem_cons_of_mem x hm)

/-- An internal step of the process leaves an acknowledgement awaited. -/
theorem internal_acking {cfg : Settings} {s t : State LineId} {event : Event LineId}
    {o : Option (Effect LineId)} {id : LineId} {dispatched : Bool}
    (h : (process LineId cfg).step s event = some (t, o)) (hi : event.Internal)
    (hs : s.task = .acking id dispatched) : t.task = .acking id dispatched := by
  cases event with
  | gi conn e =>
    rw [(giStep_cases h).frame.2.1]
    exact hs
  | task e =>
    cases e with
    | insert | dispatch | count => simp [process, taskStep, hs] at h
    | _ => exact hi.elim

/-- A step on client `d` keeps what holds of every client, if it does so for `d`. -/
theorem forall_setClient {P : Client → ClientId → Prop} {d : ClientId} {client : Client}
    (h : ∀ c, P (s.clients c) c) (hd : P client d) (c : ClientId) :
    P ((s.setClient d client).clients c) c := by
  by_cases hc : c = d
  · subst hc
    rwa [UnixState.setClient_self]
  · rw [UnixState.setClient_of_ne _ _ _ hc]
    exact h c

theorem owned_step (h : ∀ c, (s.clients c).Owned s.core.task c) (hs : UnixStep cfg s e t o) :
    ∀ c, (t.clients c).Owned t.core.task c := by
  have hupd {d : ClientId} {client : Client} (hw : client.writer = (s.clients d).writer)
      (hp : client.phase = (s.clients d).phase ∨ ∀ n reply, (s.clients d).phase ≠ .rejecting n reply) :
      ∀ c, ((s.setClient d client).clients c).Owned s.core.task c :=
    forall_setClient (P := fun client c => client.Owned s.core.task c) h ((h d).update hw hp)
  cases hs with
  | client | clientRead => exact hupd rfl (.inl rfl)
  | accept _ hp | refuse hp | read hp | forward hp | giveUp hp =>
    exact hupd rfl (.inr fun n reply hr => by rw [hp] at hr; cases hr)
  | leave hp =>
    refine hupd rfl (.inr fun n reply hr => ?_)
    rcases hp with hp | hp <;> rw [hp] at hr <;> cases hr
  | acceptError | listenEnd | reportError => exact h
  | @lock d n reply hp hn =>
    refine forall_setClient (P := fun client c => client.Owned s.core.task c) h ?_
    exact (h d).push hn (fun _ => ⟨n, reply, hp⟩) nofun
  | @reply d _ _ _ _ hw | @replyFailed d _ _ _ _ hw =>
    refine forall_setClient (P := fun client c => client.Owned s.core.task c) h ?_
    exact (h d).pop hw (fun hx => absurd rfl hx) fun _ => rfl
  | build ht | takeError _ ht | take _ ht =>
    exact fun c => (h c).retask fun n dispatched hn => by rw [ht] at hn; cases hn
  | core hs hi =>
    intro c
    refine ⟨(h c).nodup, (h c).rejecting, fun hm => ?_⟩
    obtain ⟨n, dispatched, hn⟩ := (h c).acking hm
    exact ⟨n, dispatched, internal_acking hs hi hn⟩
  | stop he hs =>
    refine fun c => (h c).retask fun n dispatched hn => ?_
    have hc := (stop_current hs he).1
    rw [hn] at hc
    cases hc
  | @ackLock id dispatched ht hn =>
    refine forall_setClient (P := fun client c => client.Owned s.core.task c) h ?_
    exact (h id.1).push hn nofun fun _ => ⟨id.2, dispatched, ht⟩
  | @ack id dispatched writer ht hw | @ackFailed id dispatched writer ht hw =>
    intro c
    by_cases hc : c = id.1
    · subst hc
      show (((s.setClient _ _).clients id.1).Owned _ _)
      rw [UnixState.setClient_self]
      exact (h id.1).pop hw (fun _ => rfl) fun hx => absurd rfl hx
    · show (((s.setClient _ _).clients c).Owned _ _)
      rw [UnixState.setClient_of_ne _ _ _ hc]
      refine (h c).retask fun n d hn => hc ?_
      rw [ht] at hn
      cases hn
      rfl

theorem owned_of_run (h : (unix cfg).Run w s) (c : ClientId) : (s.clients c).Owned s.core.task c :=
  h.invariant (P := fun _ s => ∀ c, (s.clients c).Owned s.core.task c)
    (fun _ => ⟨List.nodup_nil, nofun, nofun⟩) (fun _ _ _ _ _ _ ih hs => owned_step ih (unixStep_cases hs)) c

/-! ## What waits in the channel -/

/-- The task is in `run_message_loop`. -/
def TaskPhase.isRunning {ι : Type} : TaskPhase ι → Bool
  | .selecting | .received .. | .cached .. | .acking .. | .acked _ => true
  | _ => false

theorem isReturned_of_isRunning {ι : Type} {task : TaskPhase ι} (h : task.isRunning = true) :
    task.isReturned = false := by
  cases task <;> first | rfl | cases h

/-- The main loop runs while something is in the channel, and the messages there
are valid. -/
structure UnixState.Served (s : UnixState) : Prop where
  starting : s.core.task = .starting → s.channel = [] ∧ s.listener = .idle ∧
    ∀ c, (s.clients c).phase = .absent
  returned : s.core.task.isReturned = true → s.channel = []
  phase : s.core.task = .starting ∨ s.core.task.isReturned = true ∨ s.core.task.isRunning = true
  sending (c : ClientId) (n : Nat) (message : Iec104Message) :
    (s.clients c).phase = .sending n message → message.Valid
  queued (id : LineId) (message : Iec104Message) : .message id message ∈ s.channel → message.Valid

/-- A step of a client, or of its task, that does not concern the channel. -/
theorem UnixState.Served.client {client : Client} (h : s.Served)
    (habs : client.phase = (s.clients c).phase ∨ s.core.task ≠ .starting)
    (hsend : ∀ n message, client.phase = .sending n message →
      (s.clients c).phase = .sending n message ∨ message.Valid) :
    (s.setClient c client).Served where
  starting ht := by
    obtain ⟨hc, hl, hp⟩ := h.starting ht
    refine ⟨hc, hl, forall_setClient (P := fun client _ => client.phase = .absent) hp ?_⟩
    rcases habs with habs | habs
    · exact habs.trans (hp c)
    · exact absurd ht habs
  returned := h.returned
  phase := h.phase
  sending d n message := by
    refine forall_setClient
      (P := fun client d => client.phase = .sending n message → message.Valid)
      (fun d => h.sending d n message) (fun hm => ?_) d
    exact (hsend n message hm).elim (h.sending c n message) id
  queued := h.queued

/-- The main loop goes on. -/
theorem UnixState.Served.run {core : State LineId} {listener : ListenerPhase} (h : s.Served)
    (ht : core.task.isRunning = true) : ({ s with core, listener } : UnixState).Served where
  starting hn := by
    rw [show core.task = .starting from hn] at ht
    cases ht
  returned hn := by
    rw [show core.task.isReturned = false from isReturned_of_isRunning ht] at hn
    cases hn
  phase := .inr (.inr ht)
  sending := h.sending
  queued := h.queued

/-- An item is taken from the channel. -/
theorem UnixState.Served.take {item : Item} {channel : List Item} (h : s.Served)
    (hc : s.channel = item :: channel) (ht : s.core.task = .selecting) :
    ({ s with channel } : UnixState).Served where
  starting hn := by cases ht.symm.trans hn
  returned hn := by
    rw [show s.core.task = .selecting from ht] at hn
    cases hn
  phase := h.phase
  sending := h.sending
  queued id message hm := h.queued id message (hc ▸ List.mem_cons_of_mem item hm)

/-- Before the bridge listens, no client has a task. -/
theorem UnixState.Served.started (h : s.Served) (hc : (s.clients c).phase ≠ .absent) :
    s.core.task ≠ .starting :=
  fun ht => hc ((h.starting ht).2.2 c)

theorem UnixState.Served.listening (h : s.Served) (hl : s.listener ≠ .idle) :
    s.core.task ≠ .starting :=
  fun ht => hl (h.starting ht).2.1

theorem handleUnixClient_not_sending (peer : Option PeerCred) (n : Nat) (message : Iec104Message) :
    handleUnixClient cfg peer ≠ .sending n message := by
  unfold handleUnixClient
  split
  · exact nofun
  · split <;> exact nofun

/-- An internal step goes on with a message, or is a step of a callback. -/
theorem internal_task {cfg : Settings} {s t : State LineId} {event : Event LineId}
    {o : Option (Effect LineId)} (h : (process LineId cfg).step s event = some (t, o))
    (hi : event.Internal) : t.task = s.task ∨ t.task.isRunning = true := by
  cases event with
  | gi conn e => exact .inl (giStep_cases h).frame.2.1
  | task e =>
    cases e with
    | insert | dispatch =>
      simp only [process, taskStep] at h
      split at h <;> cases h
      exact .inr rfl
    | count =>
      simp only [process, taskStep] at h
      split at h <;> [skip; cases h]
      split at h <;> cases h <;> exact .inr rfl
    | _ => exact hi.elim

theorem served_step (h : s.Served) (hs : UnixStep cfg s e t o) : t.Served := by
  cases hs with
  | client | clientRead => exact h.client (.inl rfl) fun _ _ hm => .inl hm
  | accept hl =>
    refine h.client (.inr (h.listening (by rw [hl]; exact nofun))) fun n message hm => ?_
    exact absurd hm (handleUnixClient_not_sending _ n message)
  | acceptError hl | listenEnd hl =>
    have hst := h.listening (by rw [hl]; exact nofun)
    exact ⟨fun ht => absurd ht hst, h.returned, h.phase, h.sending, h.queued⟩
  | reportError hl hr =>
    have hst := h.listening (by rw [hl]; exact nofun)
    refine ⟨fun ht => absurd ht hst, fun ht => ?_, h.phase, h.sending, fun id message hm => ?_⟩
    · rw [show s.core.task.isReturned = true from ht] at hr
      cases hr
    · exact h.queued id message (by simpa using hm)
  | @leave c _ hp =>
    refine h.client (.inr (h.started (c := c) ?_)) fun _ _ hm => by cases hm
    rcases hp with hp | hp <;> rw [hp] <;> exact nofun
  | refuse hp | replyFailed hp | giveUp hp | reply hp =>
    exact h.client (.inr (h.started (by rw [hp]; exact nofun))) fun _ _ hm => by cases hm
  | lock => exact h.client (.inl rfl) fun _ _ hm => .inl hm
  | @read c line rest verdict hp _ hv =>
    refine h.client (.inr (h.started (by rw [hp]; exact nofun))) fun n message hm => .inr ?_
    cases verdict with
    | error => cases hm
    | ok message' =>
      cases hm
      exact processUnixSocketLine_valid hv.symm
  | @forward c n message hp hr =>
    have hst := h.started (c := c) (by rw [hp]; exact nofun)
    have hc : (s.setClient c { s.clients c with phase := .reading }).Served :=
      h.client (.inr hst) fun _ _ hm => by cases hm
    refine ⟨fun ht => absurd ht hst, fun ht => ?_, h.phase, hc.sending, fun id m hm => ?_⟩
    · rw [show s.core.task.isReturned = true from ht] at hr
      cases hr
    · rcases List.mem_append.mp hm with hm | hm
      · exact h.queued id m hm
      · cases List.mem_singleton.mp hm
        exact h.sending c n message hp
  | build => exact h.run rfl
  | @core event u o hs hi =>
    rcases internal_task hs hi with ht | hr
    · refine ⟨fun hn => h.starting (ht.symm.trans hn), fun hn => h.returned ?_, ?_, h.sending, h.queued⟩
      · rwa [← ht]
      · show u.task = _ ∨ _
        rw [ht]
        exact h.phase
    · exact h.run hr
  | @stop event u o he hs =>
    obtain ⟨-, ⟨-, hr⟩, -⟩ := stop_current hs he
    refine ⟨fun hn => ?_, fun _ => rfl, .inr (.inl hr), h.sending,
      fun _ _ hm => absurd hm List.not_mem_nil⟩
    rw [show u.task = .starting from hn] at hr
    cases hr
  | takeError hc ht => exact h.take hc ht
  | take hc ht => exact (h.take hc ht).run rfl
  | ackLock => exact h.client (.inl rfl) fun _ _ hm => .inl hm
  | @ack id _ writer =>
    have hc : (s.setClient id.1 { s.clients id.1 with
        writer, unread := (s.clients id.1).unread ++ [.ok] }).Served :=
      h.client (.inl rfl) fun _ _ hm => .inl hm
    exact hc.run rfl
  | @ackFailed id _ writer =>
    have hc : (s.setClient id.1 { s.clients id.1 with writer }).Served :=
      h.client (.inl rfl) fun _ _ hm => .inl hm
    exact hc.run rfl

theorem served_of_run (h : (unix cfg).Run w s) : s.Served :=
  h.invariant (P := fun _ s => s.Served)
    ⟨fun _ => ⟨rfl, rfl, fun _ => rfl⟩, fun _ => rfl, .inl rfl, (fun _ _ _ hm => by cases hm),
      fun _ _ hm => absurd hm List.not_mem_nil⟩
    fun _ _ _ _ _ _ ih hs => served_step ih (unixStep_cases hs)

/-! ## The way to a line -/

/-- The line waits in the channel, behind `ahead`. -/
def UnixState.Waits (s : UnixState) (id : LineId) (message : Iec104Message) (ahead : List Item) : Prop :=
  ∃ rest, s.channel = ahead ++ .message id message :: rest

/-- The steps a callback takes before it releases the lock of the data store. -/
def lockSteps (s : State LineId) : Nat :=
  match s.dataLock with
  | none => 0
  | some conn =>
    match s.gi conn with
    | .replaying _ todo _ => todo.length + 1
    | _ => 0

/-- The steps of the main loop before it takes the next item, and the steps of
others before the next of them. -/
def UnixState.stage (s : UnixState) : Nat × Nat :=
  match s.core.task with
  | .received .. => (5, lockSteps s.core)
  | .cached .. => (4, 0)
  | .acking id _ =>
    if .loop ∈ (s.clients id.1).writer then
      (2, if (s.clients id.1).writer.head? = some .client then 1 else 0)
    else (3, 0)
  | .acked _ => (1, 0)
  | _ => (0, 0)

/-- How far the main loop is from taking a line that waits behind `ahead` items. -/
def UnixState.distance (s : UnixState) (ahead : Nat) : Nat ×ₗ Nat :=
  toLex (6 * ahead + s.stage.1, s.stage.2)

/-- Some step of the bridge takes the line, or brings the main loop closer to it. -/
def UnixState.Approached (cfg : UnixSettings) (s : UnixState) (id : LineId) (message : Iec104Message)
    (ahead : List Item) : Prop :=
  ∃ e t o, e.client? = none ∧ (unix cfg).step s e = some (t, o) ∧
    (ahead = [] ∧ (∃ now, o = some (.core (.received id message now))) ∨
      ∃ ahead', t.Waits id message ahead' ∧ t.distance ahead'.length < s.distance ahead.length)

/-- Some step of the bridge brings the main loop closer to the next item. -/
def UnixState.Advances (cfg : UnixSettings) (s : UnixState) : Prop :=
  ∃ e t o, e.client? = none ∧ (unix cfg).step s e = some (t, o) ∧ t.channel = s.channel ∧
    t.core.task.isRunning = true ∧
    (t.stage.1 < s.stage.1 ∨ t.stage.1 = s.stage.1 ∧ t.stage.2 < s.stage.2)

/-- The reply that the holder of the mutex of the writer writes. -/
def Client.pending (client : Client) : Option Reply :=
  match client.writer, client.phase with
  | .loop :: _, _ => some .ok
  | .client :: _, .rejecting _ reply => some reply
  | _, _ => none

/-- The client is there, and has left no room for the next reply. -/
structure Client.Full (client : Client) (sendBuffer : Nat) : Prop where
  here : client.gone = false
  full : ∃ reply, client.pending = some reply ∧ ¬ client.HasRoom sendBuffer reply

/-- The main loop acknowledges a line of a client that left no room for the reply. -/
structure UnixState.StuckOn (cfg : UnixSettings) (s : UnixState) (c : ClientId) : Prop where
  acking : ∃ n dispatched, s.core.task = .acking (c, n) dispatched
  client : (s.clients c).Full cfg.sendBuffer

theorem Reply.size_le (reply : Reply) : reply.size ≤ Reply.errorUnauthorized.size := by
  cases reply <;> decide

/-- A client that left no room has replies to read. -/
theorem UnixState.StuckOn.unread (h : s.StuckOn cfg c) : (s.clients c).unread ≠ [] := by
  intro hu
  obtain ⟨reply, -, hr⟩ := h.client.full
  refine hr ?_
  show bufferedBytes (s.clients c).unread + reply.size ≤ cfg.sendBuffer
  rw [hu]
  show 0 + reply.size ≤ cfg.sendBuffer
  have hle := reply.size_le
  have hroom := cfg.sendBuffer_room
  omega

theorem distance_lt {n : Nat} (h : t.stage.1 < s.stage.1 ∨ t.stage.1 = s.stage.1 ∧ t.stage.2 < s.stage.2) :
    t.distance n < s.distance n := by
  rw [UnixState.distance, UnixState.distance, Prod.Lex.toLex_lt_toLex]
  rcases h with h | ⟨h, h'⟩
  · left
    show 6 * n + t.stage.1 < 6 * n + s.stage.1
    omega
  · right
    refine ⟨?_, h'⟩
    show 6 * n + t.stage.1 = 6 * n + s.stage.1
    omega

/-- The main loop is closer to what waits in the channel, as well. -/
theorem UnixState.Advances.approached (ha : s.Advances cfg) {id : LineId} {message : Iec104Message}
    {ahead : List Item} (hw : s.Waits id message ahead) : s.Approached cfg id message ahead := by
  obtain ⟨rest, hr⟩ := hw
  obtain ⟨e, t, o, he, hs, hc, -, hd⟩ := ha
  exact ⟨e, t, o, he, hs, .inr ⟨ahead, ⟨rest, hc.trans hr⟩, distance_lt hd⟩⟩

section

variable {id : LineId} {message : Iec104Message} {ahead : List Item}

theorem step_takeError {rest : List Item} (hr : s.channel = .acceptError :: rest)
    (ht : s.core.task = .selecting) :
    (unix cfg).step s (.take ⟨0, 0⟩) = some ({ s with channel := rest }, none) := by
  simp [unix, unixStep, mainStep, hr, UnixState.coreStep, process, taskStep, ht]

theorem step_take {rest : List Item} (hr : s.channel = .message id message :: rest)
    (ht : s.core.task = .selecting) (hm : message.Valid) :
    (unix cfg).step s (.take ⟨0, 0⟩) = some
      ({ s with channel := rest, core := { s.core with task := .received id message ⟨0, 0⟩ } },
        some (.core (.received id message ⟨0, 0⟩))) := by
  simp [unix, unixStep, mainStep, hr, UnixState.coreStep, process, taskStep, ht, hm]

theorem distance_lt_of_take (n : Nat) (h : t.stage.1 ≤ 5) : t.distance n < s.distance (n + 1) := by
  rw [UnixState.distance, UnixState.distance, Prod.Lex.toLex_lt_toLex]
  left
  show 6 * n + t.stage.1 < 6 * (n + 1) + s.stage.1
  omega

/-- The main loop takes the next item. -/
theorem approached_of_selecting (hv : s.Served) (hw : s.Waits id message ahead)
    (ht : s.core.task = .selecting) : s.Approached cfg id message ahead := by
  obtain ⟨rest, hr⟩ := hw
  cases ahead with
  | nil =>
    have hm : message.Valid := hv.queued id message (by rw [hr]; exact List.mem_cons_self)
    exact ⟨_, _, _, rfl, step_take hr ht hm, .inl ⟨rfl, _, rfl⟩⟩
  | cons item ahead =>
    cases item with
    | acceptError =>
      refine ⟨_, _, _, rfl, step_takeError hr ht, .inr ⟨ahead, ⟨rest, rfl⟩, distance_lt_of_take _ ?_⟩⟩
      simp [UnixState.stage, ht]
    | message id' message' =>
      have hm : message'.Valid := hv.queued id' message' (by rw [hr]; exact List.mem_cons_self)
      refine ⟨_, _, _, rfl, step_take hr ht hm, .inr ⟨ahead, ⟨rest, rfl⟩, distance_lt_of_take _ ?_⟩⟩
      simp [UnixState.stage]

theorem coreStep_of_step {event : Event LineId} {u : State LineId} {o : Option (Effect LineId)}
    (h : (process LineId cfg.core).step s.core event = some (u, o)) :
    s.coreStep cfg event = some ({ s with core := u }, o.map .core) := by
  simp only [UnixState.coreStep, h]

theorem stage_received {id : LineId} {message : Iec104Message} {now : OffsetDateTime}
    (ht : s.core.task = .received id message now) : s.stage = (5, lockSteps s.core) := by
  simp [UnixState.stage, ht]

theorem lockSteps_replaying {s : State LineId} {conn : ConnId} {now : OffsetDateTime}
    {todo : List CachedPoint} {sink : ConnectionSink} (hl : s.dataLock = some conn)
    (hc : s.gi conn = .replaying now todo sink) : lockSteps s = todo.length + 1 := by
  simp [lockSteps, hl, hc]

/-- A message is inserted, once the callback that replays has released the lock. -/
theorem advances_of_received (h : (unix cfg).Run w s) {id' : LineId} {message' : Iec104Message}
    {now : OffsetDateTime} (ht : s.core.task = .received id' message' now) : s.Advances cfg := by
  cases hl : s.core.dataLock with
  | none =>
    have hstep : (process LineId cfg.core).step s.core (.task .insert) = some
        ({ s.core with
          cache := s.core.cache.insert (message'.key cfg.core.defaultCa) ⟨message', now⟩
          task := .cached id' message' now }, some (.inserted id' ⟨message', now⟩)) := by
      simp [process, taskStep, ht, hl]
    refine ⟨.main .insert, _, _, rfl, coreStep_of_step hstep, rfl, rfl, .inl ?_⟩
    rw [stage_received ht]
    show 4 < 5
    decide
  | some conn =>
    have hrun : s.core.task.isRunning = true := by rw [ht]; rfl
    have hgi := (dataLock_iff ((unix_process cfg).run h) conn).mp hl
    cases hc : s.core.gi conn with
    | replaying now' todo sink =>
      have hstage : s.stage = (5, todo.length + 1) := by
        rw [stage_received ht, lockSteps_replaying hl hc]
      cases todo with
      | nil =>
        have hstep : (process LineId cfg.core).step s.core (.gi conn .unlock) = some
            ({ s.core.setGi conn .replayed with dataLock := none }, none) := by
          simp [process, giStep, hc]
        refine ⟨.gi conn .unlock, _, _, rfl, coreStep_of_step hstep, rfl, hrun, .inr ?_⟩
        rw [hstage, stage_received (s := { s with core := { s.core.setGi conn .replayed with
          dataLock := none } }) ht]
        exact ⟨rfl, Nat.zero_lt_one⟩
      | cons point todo =>
        have hstep : (process LineId cfg.core).step s.core (.gi conn (.send true)) = some
            (s.core.setGi conn (.replaying now' todo sink),
              some (.giData conn now' (replayFrame cfg.core now' point) true)) := by
          simp [process, giStep, hc, replayPoint_eq, attempt]
        refine ⟨.gi conn (.send true), _, _, rfl, coreStep_of_step hstep, rfl, hrun, .inr ?_⟩
        rw [hstage, stage_received (s := { s with core := s.core.setGi conn (.replaying now' todo sink) }) ht,
          lockSteps_replaying (s := s.core.setGi conn (.replaying now' todo sink)) hl
            (State.setGi_gi_self conn _)]
        exact ⟨rfl, Nat.lt_succ_self _⟩
    | _ =>
      rw [hc] at hgi
      exact hgi.elim

/-- A message is dispatched. -/
theorem advances_of_cached {id' : LineId} {message' : Iec104Message} {now : OffsetDateTime}
    (ht : s.core.task = .cached id' message' now) : s.Advances cfg := by
  have hstep : (process LineId cfg.core).step s.core (.task .dispatch) = some
      ({ s.core with task := .acking id' (dispatchIncoming cfg.core message' now).2 },
        (dispatchIncoming cfg.core message' now).1.map (.handed id' now)) := by
    simp [process, taskStep, ht]
  refine ⟨.main .dispatch, _, _, rfl, coreStep_of_step hstep, rfl, rfl, .inl ?_⟩
  have hs : s.stage = (4, 0) := by simp [UnixState.stage, ht]
  rw [hs]
  show (UnixState.stage _).1 < 4
  simp only [UnixState.stage]
  split
  · show 2 < 4
    decide
  · show 3 < 4
    decide

/-- The metrics are updated. -/
theorem advances_of_acked {dispatched : Bool} (ht : s.core.task = .acked dispatched) :
    s.Advances cfg := by
  have hs : s.stage = (1, 0) := by simp [UnixState.stage, ht]
  cases dispatched with
  | false =>
    have hstep : (process LineId cfg.core).step s.core (.task .count) = some
        ({ s.core with task := .selecting }, none) := by
      simp [process, taskStep, ht]
    refine ⟨.main .count, _, _, rfl, coreStep_of_step hstep, rfl, rfl, .inl ?_⟩
    rw [hs]
    exact Nat.zero_lt_one
  | true =>
    have hstep : (process LineId cfg.core).step s.core (.task .count) = some
        ({ s.core with
          metrics := { s.core.metrics with messagesDispatched := s.core.metrics.messagesDispatched + 1 }
          task := .selecting }, some .counted) := by
      simp [process, taskStep, ht]
    refine ⟨.main .count, _, _, rfl, coreStep_of_step hstep, rfl, rfl, .inl ?_⟩
    rw [hs]
    exact Nat.zero_lt_one

/-! ### The acknowledgement -/

theorem stage_acking {id : LineId} {dispatched : Bool} (ht : s.core.task = .acking id dispatched) :
    s.stage = if .loop ∈ (s.clients id.1).writer then
      (2, if (s.clients id.1).writer.head? = some .client then 1 else 0) else (3, 0) := by
  simp only [UnixState.stage, ht]

/-- The main loop asks for the mutex. -/
theorem advances_of_notQueued {id' : LineId} {dispatched : Bool}
    (ht : s.core.task = .acking id' dispatched) (hl : .loop ∉ (s.clients id'.1).writer) :
    s.Advances cfg := by
  have hstep : (unix cfg).step s .ackLock = some (s.setClient id'.1 { s.clients id'.1 with
      writer := (s.clients id'.1).writer ++ [.loop] }, none) := by
    simp [unix, unixStep, mainStep, ht, hl]
  have hrun : s.core.task.isRunning = true := by rw [ht]; rfl
  refine ⟨_, _, _, rfl, hstep, rfl, hrun, .inl ?_⟩
  rw [stage_acking ht, if_neg hl, stage_acking (s := s.setClient id'.1 _) ht, UnixState.setClient_self,
    if_pos (by simp)]
  show 2 < 3
  decide

/-- The main loop holds the mutex, and writes `ok` if there is room for it. -/
theorem advances_of_loop {id' : LineId} {dispatched : Bool}
    (ht : s.core.task = .acking id' dispatched) {writer : List Writer}
    (hl : (s.clients id'.1).writer = .loop :: writer)
    (hr : (s.clients id'.1).gone = true ∨ (s.clients id'.1).HasRoom cfg.sendBuffer .ok) :
    s.Advances cfg := by
  have hs : s.stage = (2, 0) := by
    rw [stage_acking ht, hl]
    rfl
  by_cases hg : (s.clients id'.1).gone = true
  · have hstep : (unix cfg).step s .ackWrite = some
        ({ s.setClient id'.1 { s.clients id'.1 with writer } with
          core := { s.core with task := .selecting } }, some (.core (.ackFailed id'))) := by
      simp [unix, unixStep, mainStep, ht, hl, hg, UnixState.coreStep, process, taskStep]
    refine ⟨_, _, _, rfl, hstep, rfl, rfl, .inl ?_⟩
    rw [hs]
    exact Nat.zero_lt_two
  · have hroom := hr.resolve_left hg
    have hstep : (unix cfg).step s .ackWrite = some
        ({ s.setClient id'.1 { s.clients id'.1 with
            writer, unread := (s.clients id'.1).unread ++ [.ok] } with
          core := { s.core with task := .acked dispatched } }, some (.core (.acked id'))) := by
      simp [unix, unixStep, mainStep, ht, hl, hg, hroom, UnixState.coreStep, process, taskStep]
    refine ⟨_, _, _, rfl, hstep, rfl, rfl, .inl ?_⟩
    rw [hs]
    exact Nat.one_lt_two

/-- The task of the client holds the mutex, and writes its rejection if there is
room for it. -/
theorem advances_of_client {id' : LineId} {dispatched : Bool}
    (ht : s.core.task = .acking id' dispatched) {writer : List Writer}
    (hl : (s.clients id'.1).writer = .client :: writer) (hq : .loop ∈ writer)
    (hn : (s.clients id'.1).writer.Nodup) {n : Nat} {reply : Reply}
    (hp : (s.clients id'.1).phase = .rejecting n reply)
    (hr : (s.clients id'.1).gone = true ∨ (s.clients id'.1).HasRoom cfg.sendBuffer reply) :
    s.Advances cfg := by
  have hrun : s.core.task.isRunning = true := by rw [ht]; rfl
  have hs : s.stage = (2, 1) := by
    rw [stage_acking ht, hl, if_pos (List.mem_cons_of_mem _ hq)]
    rfl
  have hhead : writer.head? ≠ some .client := by
    intro hh
    rw [hl] at hn
    exact (List.nodup_cons.mp hn).1 (List.mem_of_mem_head? hh)
  have hstage {client : Client} (hc : client.writer = writer) :
      (s.setClient id'.1 client).stage = (2, 0) := by
    rw [stage_acking (s := s.setClient id'.1 client) ht, UnixState.setClient_self, hc, if_pos hq,
      if_neg hhead]
  by_cases hg : (s.clients id'.1).gone = true
  · have hstep : (unix cfg).step s (.writeReply id'.1) = some
        (s.setClient id'.1 { s.clients id'.1 with phase := .ended, writer },
          some (.replyFailed (id'.1, n))) := by
      simp [unix, unixStep, readerStep, hp, hl, hg]
    refine ⟨_, _, _, rfl, hstep, rfl, hrun, .inr ?_⟩
    rw [hs, hstage rfl]
    exact ⟨rfl, Nat.zero_lt_one⟩
  · have hroom := hr.resolve_left hg
    have hstep : (unix cfg).step s (.writeReply id'.1) = some
        (s.setClient id'.1 { s.clients id'.1 with
          phase := .reading, writer, unread := (s.clients id'.1).unread ++ [reply] },
          some (.replied (id'.1, n) reply)) := by
      simp [unix, unixStep, readerStep, hp, hl, hg, hroom]
    refine ⟨_, _, _, rfl, hstep, rfl, hrun, .inr ?_⟩
    rw [hs, hstage rfl]
    exact ⟨rfl, Nat.zero_lt_one⟩

/-- An acknowledgement goes on, unless its client left no room. -/
theorem advances_of_acking (ho : ∀ c, (s.clients c).Owned s.core.task c) {id' : LineId}
    {dispatched : Bool} (ht : s.core.task = .acking id' dispatched) :
    s.Advances cfg ∨ s.StuckOn cfg id'.1 := by
  by_cases hq : .loop ∈ (s.clients id'.1).writer
  · -- the reply of the holder of the mutex
    have hpend {reply : Reply} (hp : (s.clients id'.1).pending = some reply)
        (hr : ¬ ((s.clients id'.1).gone = true ∨ (s.clients id'.1).HasRoom cfg.sendBuffer reply)) :
        s.StuckOn cfg id'.1 := by
      rw [not_or, Bool.not_eq_true] at hr
      exact ⟨⟨id'.2, dispatched, ht⟩, hr.1, reply, hp, hr.2⟩
    cases hl : (s.clients id'.1).writer with
    | nil => simp [hl] at hq
    | cons x writer =>
      cases x with
      | loop =>
        by_cases hr : (s.clients id'.1).gone = true ∨ (s.clients id'.1).HasRoom cfg.sendBuffer .ok
        · exact .inl (advances_of_loop ht hl hr)
        · refine .inr (hpend ?_ hr)
          simp [Client.pending, hl]
      | client =>
        obtain ⟨n, reply, hp⟩ := (ho id'.1).rejecting (by simp [hl])
        by_cases hr : (s.clients id'.1).gone = true ∨ (s.clients id'.1).HasRoom cfg.sendBuffer reply
        · have hq' : .loop ∈ writer := by simpa [hl] using hq
          exact .inl (advances_of_client ht hl hq' (ho id'.1).nodup hp hr)
        · refine .inr (hpend ?_ hr)
          simp [Client.pending, hl, hp]
  · exact .inl (advances_of_notQueued ht hq)

/-- The main loop goes on with a message, or is stuck on a client. -/
theorem advances_of_running (h : (unix cfg).Run w s) (hr : s.core.task.isRunning = true)
    (hn : s.core.task ≠ .selecting) : s.Advances cfg ∨ ∃ c, s.StuckOn cfg c := by
  cases ht : s.core.task with
  | selecting => exact absurd ht hn
  | received => exact .inl (advances_of_received h ht)
  | cached => exact .inl (advances_of_cached ht)
  | acked => exact .inl (advances_of_acked ht)
  | acking id' => exact (advances_of_acking (owned_of_run h) ht).imp_right fun hs => ⟨id'.1, hs⟩
  | _ =>
    rw [ht] at hr
    cases hr

end

/-! ## A stuck main loop -/

/-- More replies in the send buffer leave no more room. -/
theorem Client.Full.update {client client' : Client} {sendBuffer : Nat} (h : client.Full sendBuffer)
    (hg : client'.gone = client.gone) (hu : ∃ l, client'.unread = client.unread ++ l)
    (hp : ∀ reply, client.pending = some reply → client'.pending = some reply) :
    client'.Full sendBuffer := by
  obtain ⟨reply, hr, hroom⟩ := h.full
  refine ⟨hg.trans h.here, reply, hp reply hr, fun hroom' => hroom ?_⟩
  obtain ⟨l, hl⟩ := hu
  simp only [Client.HasRoom, bufferedBytes, hl, List.map_append, List.sum_append] at hroom' ⊢
  omega

theorem pending_of_phase {client : Client} {phase : ClientPhase} {unread : List Reply} {lines : Nat}
    {incoming : List UInt8} (hp : ∀ n reply, client.phase ≠ .rejecting n reply) {reply : Reply}
    (h : client.pending = some reply) :
    Client.pending { client with phase, unread, lines, incoming } = some reply := by
  unfold Client.pending at h ⊢
  split at h
  · rename_i hw
    rw [show Client.writer { client with phase, unread, lines, incoming } = _ from hw]
    exact h
  · exact absurd ‹client.phase = _› (hp _ _)
  · cases h

theorem pending_push {client : Client} {x : Writer} {reply : Reply} (h : client.pending = some reply) :
    Client.pending { client with writer := client.writer ++ [x] } = some reply := by
  unfold Client.pending at h ⊢
  split at h
  · rename_i hw
    simpa [hw] using h
  · rename_i hw hp
    simpa [hw, hp] using h
  · cases h

/-- The step of a bridge stuck on `c` leaves it stuck, and takes nothing from the
channel, unless `c` acts. -/
theorem stuck_step (h : s.StuckOn cfg c) (hs : UnixStep cfg s e t o) (he : e.client? ≠ some c) :
    t.StuckOn cfg c ∧ s.channel <+: t.channel := by
  obtain ⟨⟨n, dispatched, ht⟩, hf⟩ := h
  have hset {d : ClientId} {client : Client} (hd : d = c → client.Full cfg.sendBuffer) :
      (s.setClient d client).StuckOn cfg c := by
    refine ⟨⟨n, dispatched, ht⟩, ?_⟩
    by_cases hdc : c = d
    · subst hdc
      rw [UnixState.setClient_self]
      exact hd rfl
    · rwa [UnixState.setClient_of_ne _ _ _ hdc]
  -- a task that does not reject a line does not hold the mutex
  have hmove {d : ClientId} {phase : ClientPhase} {unread : List Reply} {lines : Nat}
      {incoming : List UInt8} (hp : ∀ n reply, (s.clients d).phase ≠ .rejecting n reply)
      (hu : ∃ l, unread = (s.clients d).unread ++ l) :
      (s.setClient d { s.clients d with phase, unread, lines, incoming }).StuckOn cfg c := by
    refine hset ?_
    rintro rfl
    exact hf.update rfl hu fun reply => pending_of_phase hp
  cases hs with
  | client hc | clientRead hc =>
    refine ⟨hset fun hd => ?_, List.prefix_rfl⟩
    rw [hd] at hc
    exact absurd hc he
  | accept _ hp | giveUp hp | read hp =>
    exact ⟨hmove (by rw [hp]; exact nofun) ⟨[], (List.append_nil _).symm⟩, List.prefix_rfl⟩
  | refuse hp => exact ⟨hmove (by rw [hp]; exact nofun) ⟨_, rfl⟩, List.prefix_rfl⟩
  | leave hp =>
    refine ⟨hmove ?_ ⟨[], (List.append_nil _).symm⟩, List.prefix_rfl⟩
    rcases hp with hp | hp <;> rw [hp] <;> exact nofun
  | @forward d _ _ hp =>
    have hd : (s.setClient d { s.clients d with phase := .reading }).StuckOn cfg c :=
      hmove (by rw [hp]; exact nofun) ⟨[], (List.append_nil _).symm⟩
    exact ⟨⟨hd.acking, hd.client⟩, List.prefix_append _ _⟩
  | acceptError | listenEnd => exact ⟨⟨⟨n, dispatched, ht⟩, hf⟩, List.prefix_rfl⟩
  | reportError => exact ⟨⟨⟨n, dispatched, ht⟩, hf⟩, List.prefix_append _ _⟩
  | lock =>
    refine ⟨hset ?_, List.prefix_rfl⟩
    rintro rfl
    exact hf.update rfl ⟨[], (List.append_nil _).symm⟩ fun reply => pending_push
  | @reply d m r writer hp hw hg hr =>
    refine ⟨hset ?_, List.prefix_rfl⟩
    rintro rfl
    -- the reply that is written is the one there is no room for
    obtain ⟨reply, hpend, hroom⟩ := hf.full
    obtain rfl : r = reply := by simpa [Client.pending, hw, hp] using hpend
    exact absurd hr hroom
  | replyFailed _ _ hg =>
    refine ⟨hset ?_, List.prefix_rfl⟩
    rintro rfl
    rw [hf.here] at hg
    cases hg
  | build ht' | takeError _ ht' | take _ ht' =>
    rw [ht] at ht'
    cases ht'
  | core hs hi =>
    exact ⟨⟨⟨n, dispatched, internal_acking hs hi ht⟩, hf⟩, List.prefix_rfl⟩
  | stop hev hs =>
    have hc := (stop_current hs hev).1
    rw [ht] at hc
    cases hc
  | ackLock =>
    refine ⟨hset ?_, List.prefix_rfl⟩
    rintro rfl
    exact hf.update rfl ⟨[], (List.append_nil _).symm⟩ fun reply => pending_push
  | ack ht' hw hg hr =>
    rw [ht] at ht'
    cases ht'
    obtain ⟨reply, hpend, hroom⟩ := hf.full
    obtain rfl : Reply.ok = reply := by simpa [Client.pending, hw] using hpend
    exact absurd hr hroom
  | ackFailed ht' hw hg =>
    rw [ht] at ht'
    cases ht'
    cases hf.here.symm.trans hg

/-- A bridge stuck on `c` stays stuck as long as `c` does not act. -/
theorem stuck_steps (h : s.StuckOn cfg c)
    (hs : Machine.Steps ((unix cfg).restrict fun _ e => e.client? ≠ some c) s w t) :
    t.StuckOn cfg c ∧ s.channel <+: t.channel := by
  refine hs.induct (P := fun _ t => t.StuckOn cfg c ∧ s.channel <+: t.channel) ⟨h, List.prefix_rfl⟩
    fun w t e u o _ ⟨ht, hp⟩ hst => ?_
  obtain ⟨he, hst⟩ := Machine.restrict_step.mp hst
  obtain ⟨hu, hp'⟩ := stuck_step ht (unixStep_cases hst) he
  exact ⟨hu, hp.trans hp'⟩

/-- In a run, a step of the bridge brings the main loop closer to a line that
waits, or the loop is stuck on a client that has replies to read, until this
client acts. -/
theorem isolation (h : (unix cfg).Run w s) {id : LineId} {message : Iec104Message} {ahead : List Item}
    (hw : s.Waits id message ahead) :
    s.Approached cfg id message ahead ∨
      ∃ c, s.StuckOn cfg c ∧ (s.clients c).unread ≠ [] ∧
        ∀ w' t, Machine.Steps ((unix cfg).restrict fun _ e => e.client? ≠ some c) s w' t →
          t.StuckOn cfg c := by
  have hv := served_of_run h
  have hne : s.channel ≠ [] := by
    obtain ⟨rest, hr⟩ := hw
    rw [hr]
    simp
  have hrun : s.core.task.isRunning = true := by
    rcases hv.phase with hp | hp | hp
    · exact absurd (hv.starting hp).1 hne
    · exact absurd (hv.returned hp) hne
    · exact hp
  by_cases ht : s.core.task = .selecting
  · exact .inl (approached_of_selecting hv hw ht)
  · rcases advances_of_running h hrun ht with ha | ⟨c, hs⟩
    · exact .inl (ha.approached hw)
    · exact .inr ⟨c, hs, hs.unread, fun w' t hsteps => (stuck_steps hs hsteps).1⟩

/-- While the loop is stuck no step of the bridge brings it closer to the first
line that waits. -/
theorem UnixState.StuckOn.not_approached (h : s.StuckOn cfg c) (hs : s.stage = (2, 0)) {id : LineId}
    {message : Iec104Message} : ¬ s.Approached cfg id message [] := by
  rintro ⟨e, t, o, he, hst, ⟨-, now, rfl⟩ | ⟨ahead, -, hd⟩⟩
  · obtain ⟨n, dispatched, ht⟩ := h.acking
    rcases (unix_process cfg).step hst with ⟨b, hb⟩ | ⟨-, hn⟩
    · cases event_of_received hb
      simp [process, taskStep, ht] at hb
    · cases hn
  · have hstuck : t.StuckOn cfg c := (stuck_step h (unixStep_cases hst) (by simp [he])).1
    obtain ⟨n, dispatched, ht⟩ := hstuck.acking
    have hstage : 2 ≤ t.stage.1 := by
      rw [stage_acking ht]
      split
      · exact le_refl 2
      · show 2 ≤ 3
        decide
    rw [UnixState.distance, UnixState.distance, Prod.Lex.toLex_lt_toLex] at hd
    rcases hd with hd | ⟨-, hd⟩
    · have hd : 6 * ahead.length + t.stage.1 < 6 * 0 + s.stage.1 := hd
      rw [hs] at hd
      omega
    · have hd : t.stage.2 < s.stage.2 := hd
      rw [hs] at hd
      exact Nat.not_lt_zero _ hd

/-! ## A publisher that ignores its replies -/

/-- The line an item is, and the line the main loop acknowledges. -/
def Item.line : Item → Option (LineId × Iec104Message)
  | .message id msg => some (id, msg)
  | .acceptError => none

def TaskPhase.acknowledges : TaskPhase LineId → Option (LineId × Bool)
  | .acking id dispatched => some (id, dispatched)
  | _ => none

/-- Items that are lines. -/
theorem items_of_lines {items : List Item} {lines : List (LineId × Iec104Message)}
    (h : items.map Item.line = lines.map some) : items = lines.map fun line => .message line.1 line.2 := by
  induction lines generalizing items with
  | nil => exact List.map_eq_nil_iff.mp h
  | cons line lines ih =>
    obtain ⟨item, items, rfl, hl, hls⟩ := List.map_eq_cons_iff.mp h
    cases item with
    | message =>
      cases hl
      rw [ih hls]
      rfl
    | acceptError => cases hl

/-- Client 1 is answered while the lines of clients 2 and 0 wait. -/
theorem isolation_sample : ∃ w s, (unix .sample).Run w s ∧
    s.Waits (0, 0) (.sample 100 true) [.message (2, 0) (.sample 100 true)] ∧
    s.Approached .sample (0, 0) (.sample 100 true) [.message (2, 0) (.sample 100 true)] := by
  obtain ⟨w, s, h, hs⟩ := Machine.exists_run_of_exec (M := unix .sample)
    [.main (.build true), .accept 0 (some ⟨1000, 1000, 1⟩), .accept 1 (some ⟨1000, 1000, 2⟩),
      .accept 2 (some ⟨1000, 1000, 3⟩), .clientSend 0 (sampleRequest ++ [NEWLINE]),
      .clientSend 1 (sampleRequest ++ [NEWLINE]), .clientSend 2 (sampleRequest ++ [NEWLINE]),
      .readLine 1, .forward 1, .take (.sample 1), .main .insert, .readLine 2, .forward 2,
      .main .dispatch, .readLine 0, .forward 0, .ackLock]
    (fun _ s => decide (s.core.task.acknowledges = some ((1, 0), true) ∧ (s.clients 1).unread = [] ∧
      s.channel.map Item.line = [((2, 0), .sample 100 true), ((0, 0), .sample 100 true)].map some))
    true (by decide +kernel)
  obtain ⟨hack, hu, hc⟩ := of_decide_eq_true hs
  have hw : s.Waits (0, 0) (.sample 100 true) [.message (2, 0) (.sample 100 true)] :=
    ⟨[], items_of_lines hc⟩
  refine ⟨w, s, h, hw, (isolation h hw).resolve_right ?_⟩
  -- client 1, which is answered, has read everything
  rintro ⟨c, hstuck, -⟩
  obtain ⟨n, dispatched, ht⟩ := hstuck.acking
  rw [ht] at hack
  cases hack
  exact hstuck.unread hu

/-- The events of a line of a client, from the bridge's read to the end of its
acknowledgement. -/
def handleLine (c : ClientId) : List UnixEvent :=
  [.readLine c, .forward c, .take (.sample 1), .main .insert, .main .dispatch, .ackLock, .ackWrite,
    .main .count]

/-- Client 1 sends seven requests and reads no reply, and the line of client 2 is
not handled until client 1 acts. -/
theorem isolation_fails : ∃ w s, (unix .sample).Run w s ∧
    s.Waits (2, 0) (.sample 100 true) [] ∧ (s.clients 2).unread = [] ∧
    ¬ s.Approached .sample (2, 0) (.sample 100 true) [] ∧
    ∀ w' t, Machine.Steps ((unix .sample).restrict fun _ e => e.client? ≠ some 1) s w' t →
      t.StuckOn .sample 1 ∧ s.channel <+: t.channel := by
  obtain ⟨w, s, h, hs⟩ := Machine.exists_run_of_exec (M := unix .sample)
    ([.main (.build true), .accept 1 (some ⟨1000, 1000, 1⟩),
      .clientSend 1 (List.replicate 7 (sampleRequest ++ [NEWLINE])).flatten,
      .accept 2 (some ⟨1000, 1000, 2⟩), .clientSend 2 (sampleRequest ++ [NEWLINE])] ++
      (List.replicate 6 (handleLine 1)).flatten ++
      [.readLine 1, .forward 1, .take (.sample 1), .main .insert, .main .dispatch, .ackLock,
        .readLine 2, .forward 2])
    (fun _ s => decide (s.core.task.acknowledges = some ((1, 6), true) ∧
      s.channel.map Item.line = [((2, 0), .sample 100 true)].map some ∧ (s.clients 1).writer = [.loop] ∧
      (s.clients 1).gone = false ∧ (s.clients 1).unread = List.replicate 6 .ok ∧ (s.clients 2).unread = []))
    true (by decide +kernel)
  obtain ⟨ht, hc, hwr, hg, hu, hu₂⟩ := of_decide_eq_true hs
  have hack : s.core.task = .acking (1, 6) true := by
    cases htask : s.core.task <;> rw [htask] at ht <;> cases ht
    rfl
  have hstuck : s.StuckOn .sample 1 := by
    refine ⟨⟨6, true, hack⟩, hg, .ok, ?_, ?_⟩
    · simp [Client.pending, hwr]
    · rw [Client.HasRoom, hu]
      decide
  have hstage : s.stage = (2, 0) := by
    rw [stage_acking hack, hwr]
    rfl
  exact ⟨w, s, h, ⟨[], items_of_lines hc⟩, hu₂, hstuck.not_approached hstage,
    fun w' t => stuck_steps hstuck⟩

end Iec104Bridge
