import Iec104Bridge.Framework.Worker
import Iec104Bridge.Proof.Frames
import Iec104Bridge.Proof.Nats
import Iec104Bridge.Proof.Replies

/-!
# Acknowledgement after effect

In a run of the process that takes each message once, an acknowledged message
was inserted before its acknowledgement, and handed to the server once unless
the bridge is in GI-only mode (`ackAfterEffect_of_run`). Both transports take
each message once: a NATS delivery has its own number, and a client's lines
reach the main loop through a lane (`acks_afterEffect`).
-/

namespace Iec104Bridge

open Framework

/-! ## The process -/

section

variable {ι : Type} {cfg : Settings} {s t : State ι} {w : List (Effect ι)} {task : TaskPhase ι} {id : ι}

/-- The messages received. -/
def takenIds (w : List (Effect ι)) : List ι := Worker.taken (w.filterMap Effect.toWorker)

/-- The messages acknowledged. -/
def ackedIds (w : List (Effect ι)) : List ι := Worker.finished (w.filterMap Effect.toWorker)

theorem mem_takenIds : id ∈ takenIds w ↔ ∃ message now, .received id message now ∈ w := by
  rw [takenIds, Worker.taken, List.filterMap_filterMap, List.mem_filterMap]
  constructor
  · rintro ⟨e, he, hx⟩
    cases e with
    | received _ message now =>
      cases hx
      exact ⟨message, now, he⟩
    | _ => cases hx
  · rintro ⟨message, now, h⟩
    exact ⟨_, h, rfl⟩

theorem lossless_toWorker (h : ∀ id, .ackFailed id ∉ w) :
    Worker.Lossless (w.filterMap Effect.toWorker) := by
  intro id hm
  obtain ⟨e, he, hx⟩ := List.mem_filterMap.mp hm
  cases e with
  | ackFailed =>
    cases hx
    exact h id he
  | _ => cases hx

/-- The message an effect is about. -/
def Effect.messageId : Effect ι → Option ι
  | .received id _ _ | .inserted id _ | .handed id _ _ | .acked id | .ackFailed id => some id
  | _ => none

/-- Nothing was done for the message. -/
def Untouched (id : ι) (w : List (Effect ι)) : Prop := ∀ e ∈ w, e.messageId ≠ some id

theorem takenIds_append (w w' : List (Effect ι)) : takenIds (w ++ w') = takenIds w ++ takenIds w' := by
  rw [takenIds, List.filterMap_append, Worker.taken_append]
  rfl

/-- The task is at the message it took last, if at any. -/
theorem current_step {a : Event ι} {o : Option (Effect ι)}
    (h : (process ι cfg).step s a = some (t, o)) (hs : s.task.current ≠ some id)
    (hid : id ∉ takenIds o.toList) : t.task.current ≠ some id := by
  rcases process_step h with h | ⟨conn, h⟩
  · cases h with
    | receive =>
      rintro ⟨⟩
      exact hid List.mem_cons_self
    | insert ht | skip ht | dispatch ht => rwa [ht] at hs
    | receiveError => exact hs
    | _ => exact nofun
  · rwa [h.frame.2.1]

/-- Nothing is done for a message that is not received. -/
theorem untouched_of_steps (h : Machine.Steps (process ι cfg) s w t) (hs : s.task.current ≠ some id)
    (hid : id ∉ takenIds w) : t.task.current ≠ some id ∧ Untouched id w := by
  refine h.induct (P := fun w t => id ∉ takenIds w → t.task.current ≠ some id ∧ Untouched id w)
    (fun _ => ⟨hs, fun _ h => absurd h List.not_mem_nil⟩) (fun w t a u o _ ih hst hid => ?_) hid
  rw [takenIds_append, List.mem_append, not_or] at hid
  obtain ⟨hc, hu⟩ := ih hid.1
  refine ⟨current_step hst hc hid.2, fun e he => ?_⟩
  rcases List.mem_append.mp he with he | he
  · exact hu e he
  · obtain rfl : o = some e := by simpa using he
    intro hm
    rcases process_step hst with hst | ⟨conn, hst⟩
    · cases hst with
      | receive =>
        cases hm
        exact hid.2 List.mem_cons_self
      | insert ht | dispatch ht | ack ht | ackFailed ht =>
        cases hm
        exact hc (by rw [ht]; rfl)
      | _ => cases hm
    · cases hst <;> cases hm

/-! ### What is handed to the server -/

variable [DecidableEq ι]

def Effect.toHanded (id : ι) : Effect ι → Option (OffsetDateTime × Asdu)
  | .handed id' now asdu => if id' = id then some (now, asdu) else none
  | _ => none

/-- The spontaneous frames handed to the server for a message. -/
def handedFor (id : ι) (w : List (Effect ι)) : List (OffsetDateTime × Asdu) :=
  w.filterMap (Effect.toHanded id)

/-- What is handed to the server for a message that arrived at `now`. -/
def spontaneousFor (cfg : Settings) (message : Iec104Message) (now : OffsetDateTime) :
    List (OffsetDateTime × Asdu) :=
  if cfg.giOnly then [] else [(now, spontaneousFrame cfg message now)]

theorem handedFor_append (id : ι) (w w' : List (Effect ι)) :
    handedFor id (w ++ w') = handedFor id w ++ handedFor id w' :=
  List.filterMap_append ..

/-- Nothing is handed to the server for a message that was not received. -/
theorem handedFor_of_untouched {id : ι} (h : Untouched id w) : handedFor id w = [] := by
  refine List.filterMap_eq_nil_iff.mpr fun e he => ?_
  cases e with
  | handed id' now asdu =>
    refine if_neg ?_
    rintro rfl
    exact h _ he rfl
  | _ => rfl

/-- What the log says of the message the task is at. -/
def TaskPhase.Reached (cfg : Settings) (w : List (Effect ι)) : TaskPhase ι → Prop
  | .received id message now => .received id message now ∈ w ∧ handedFor id w = []
  | .cached id message now =>
    .received id message now ∈ w ∧ .inserted id ⟨message, now⟩ ∈ w ∧ handedFor id w = []
  | .acking id _ => ∃ message now, .received id message now ∈ w ∧ .inserted id ⟨message, now⟩ ∈ w ∧
    handedFor id w = spontaneousFor cfg message now
  | _ => True

theorem TaskPhase.Reached.append {l : List (Effect ι)} (h : task.Reached cfg w)
    (hl : ∀ id, handedFor id l = []) : task.Reached cfg (w ++ l) := by
  cases task with
  | received =>
    refine ⟨List.mem_append_left _ h.1, ?_⟩
    rw [handedFor_append, hl, h.2, List.append_nil]
  | cached =>
    refine ⟨List.mem_append_left _ h.1, List.mem_append_left _ h.2.1, ?_⟩
    rw [handedFor_append, hl, h.2.2, List.append_nil]
  | acking =>
    obtain ⟨message, now, hm, hins, hh⟩ := h
    refine ⟨message, now, List.mem_append_left _ hm, List.mem_append_left _ hins, ?_⟩
    rw [handedFor_append, hl, hh, List.append_nil]
  | _ => trivial

/-- A message is received, inserted, and handed to the server, in this order. -/
theorem reached_of_run (h : (process ι cfg).Run w s) (hn : (takenIds w).Nodup) :
    s.task.Reached cfg w := by
  refine h.invariant (P := fun w s => (takenIds w).Nodup → s.task.Reached cfg w) (fun _ => trivial)
    (fun w s a t o hr ih hs hn => ?_) hn
  rw [takenIds_append] at hn
  have hi := ih (List.nodup_append.mp hn).1
  rcases process_step hs with hs | ⟨conn, hs⟩
  · cases hs with
    | @receive id message now ht =>
      -- the message is new, so nothing was handed to the server for it
      have hnew : id ∉ takenIds w := fun hm =>
        (List.nodup_append.mp hn).2.2 id hm id List.mem_cons_self rfl
      have hc : (State.initial ι).task.current ≠ some id := nofun
      have hu := (untouched_of_steps hr hc hnew).2
      refine ⟨by simp, ?_⟩
      rw [handedFor_append, handedFor_of_untouched hu]
      rfl
    | @insert id message now ht =>
      rw [ht] at hi
      obtain ⟨hm, hh⟩ := hi
      refine ⟨List.mem_append_left _ hm, by simp, ?_⟩
      rw [handedFor_append, hh]
      rfl
    | @skip id message now ht hg =>
      rw [ht] at hi
      obtain ⟨hm, hins, hh⟩ := hi
      refine ⟨message, now, List.mem_append_left _ hm, List.mem_append_left _ hins, ?_⟩
      rw [handedFor_append, hh, spontaneousFor, if_pos hg]
      rfl
    | @dispatch id message now ht hg =>
      rw [ht] at hi
      obtain ⟨hm, hins, hh⟩ := hi
      refine ⟨message, now, List.mem_append_left _ hm, List.mem_append_left _ hins, ?_⟩
      rw [handedFor_append, hh, spontaneousFor, if_neg (by rw [hg]; exact Bool.false_ne_true)]
      simp [handedFor, Effect.toHanded]
    | receiveError => exact hi.append fun _ => rfl
    | _ => trivial
  · rw [hs.frame.2.1]
    refine hi.append fun id => ?_
    cases hs <;> rfl

/-- What the log of a run says of the messages it acknowledges. -/
structure AckAfterEffect (cfg : Settings) (w : List (Effect ι)) (s : State ι) : Prop where
  /-- An acknowledged message was inserted, and handed to the server once or, in
  GI-only mode, not at all; no more is handed to the server for it afterwards. -/
  effect (id : ι) (w₁ w₂ : List (Effect ι)) : w = w₁ ++ .acked id :: w₂ → ∃ message now,
    .received id message now ∈ w₁ ∧ .inserted id ⟨message, now⟩ ∈ w₁ ∧
      handedFor id w₁ = spontaneousFor cfg message now ∧ handedFor id w = spontaneousFor cfg message now
  once : (ackedIds w).Nodup
  inOrder : (∀ id, .ackFailed id ∉ w) → takenIds w = ackedIds w ++ s.task.current.toList
  untouched (id : ι) : id ∉ takenIds w → Untouched id w
  /-- The data store holds points of messages that were inserted, and the data
  frames are of such points. -/
  stored (k : Key) (point : CachedPoint) : s.cache.lookup k = some point →
    ∃ id, .inserted id point ∈ w
  frames (e : Effect ι) (now : OffsetDateTime) (asdu : Asdu) (w₁ w₂ : List (Effect ι)) :
    w = w₁ ++ e :: w₂ → e.frame = some (now, asdu) →
      ∃ id point, .inserted id point ∈ w₁ ∧ FrameOf cfg now asdu point

/-- In a run that receives each message once, messages are acknowledged after
their effect. -/
theorem ackAfterEffect_of_run (h : (process ι cfg).Run w s) (hn : (takenIds w).Nodup) :
    AckAfterEffect cfg w s := by
  have hacc := Worker.accounts ((process_worker ι cfg).run h)
  refine ⟨?_, ?_, fun hf => (hacc.eq (lossless_toWorker hf)).symm, fun id hid => ?_, fun k point hk => ?_, ?_⟩
  · rintro id w₁ w₂ rfl
    obtain ⟨u, a, u', hr, hs, hr₂⟩ := h.split
    rw [takenIds_append] at hn
    have hi := reached_of_run hr (List.nodup_append.mp hn).1
    generalize ho : some (Effect.acked id) = o at hs
    rcases process_step hs with hs | ⟨conn, hs⟩
    · cases hs with
      | ack ht =>
        cases ho
        rw [ht] at hi
        obtain ⟨message, now, hm, hins, hh⟩ := hi
        refine ⟨message, now, hm, hins, hh, ?_⟩
        -- the message is not received again
        have hid : id ∉ takenIds w₂ := fun h₂ => by
          have hd := (List.nodup_append.mp hn).2.2 id (mem_takenIds.mpr ⟨message, now, hm⟩) id
          exact hd h₂ rfl
        rw [handedFor_append, hh]
        show spontaneousFor cfg message now ++ handedFor id w₂ = _
        rw [handedFor_of_untouched (untouched_of_steps hr₂ (by exact nofun) hid).2, List.append_nil]
      | _ => cases ho
    · cases hs <;> cases ho
  · exact ((List.sublist_append_left ..).trans hacc.sublist).nodup hn
  · exact (untouched_of_steps h (by exact nofun) hid).2
  · rw [cache_lookup h] at hk
    exact exists_inserted (mem_of_lastAt hk)
  · rintro e now asdu w₁ w₂ rfl he
    obtain ⟨point, -, hl, hf⟩ := frame_of_run h he
    obtain ⟨id, hid⟩ := exists_inserted (mem_of_lastAt hl)
    exact ⟨id, point, hid, hf⟩

end

/-! ## NATS -/

section

variable {cfg : NatsSettings} {s : NatsState} {w : List NatsEffect}

/-- The log of the process inside. -/
def natsLog (w : List NatsEffect) : List (Effect Nat) := w.filterMap NatsEffect.toCore

/-- The deliveries acknowledged. -/
def acknowledged (w : List NatsEffect) : List Nat := Worker.finished (w.filterMap NatsEffect.toWorker)

theorem mem_acknowledged {id : Nat} :
    id ∈ acknowledged w ↔ .acked id ∈ natsLog w ∨ .rejectAcked id ∈ w := by
  rw [acknowledged, Worker.finished, List.filterMap_filterMap, List.mem_filterMap]
  constructor
  · rintro ⟨e, he, hx⟩
    cases e with
    | core e =>
      cases e with
      | acked =>
        cases hx
        exact .inl (List.mem_filterMap.mpr ⟨_, he, rfl⟩)
      | _ => cases hx
    | rejectAcked =>
      cases hx
      exact .inr he
    | _ => cases hx
  · rintro (h | h)
    · obtain ⟨e, he, hx⟩ := List.mem_filterMap.mp h
      cases e <;> cases hx
      exact ⟨_, he, rfl⟩
    · exact ⟨_, h, rfl⟩

theorem deliveries_nodup (h : (nats cfg).Run w s) : (deliveries w).Nodup := by
  rw [deliveries_eq h]
  exact List.nodup_range

theorem natsLog_nodup (h : (nats cfg).Run w s) : (takenIds (natsLog w)).Nodup := by
  refine List.Sublist.nodup ?_ (deliveries_nodup h)
  rw [takenIds, natsLog, deliveries, Worker.taken, Worker.taken, List.filterMap_filterMap,
    List.filterMap_filterMap, List.filterMap_filterMap]
  refine filterMap_sublist (fun e id he => ?_) w
  cases e <;> first | exact he | cases he

/-- A delivery is accepted with the message in its payload, and rejected if there
is none; the main loop receives a message in no other way. -/
def NatsEffect.Sound (cfg : NatsSettings) : NatsEffect → Prop
  | .accepted _ payload message _ => decodePayload cfg.parse payload = some message
  | .rejected _ payload => decodePayload cfg.parse payload = none
  | .core (.received ..) => False
  | _ => True

theorem sound_of_mem (h : (nats cfg).Run w s) {e : NatsEffect} (he : e ∈ w) : e.Sound cfg := by
  obtain ⟨t, a, t', hs⟩ := h.step_of_mem he
  generalize ho : some e = o at hs
  cases natsStep_cases hs with
  | @core event u o hp hev =>
    obtain _ | x := o
    · cases ho
    · cases ho
      cases x with
      | received id message now => exact hev id message now (event_of_received hp)
      | _ => trivial
  | accept _ _ hd | reject _ _ hd =>
    cases ho
    exact hd
  | @ackRejected id ok => cases ok <;> cases ho <;> trivial

/-- The process receives the deliveries that are accepted. -/
theorem received_accepted (h : (nats cfg).Run w s) {id : Nat} {message : Iec104Message}
    {now : OffsetDateTime} (hw : .received id message now ∈ natsLog w) :
    ∃ payload, .accepted id payload message now ∈ w := by
  obtain ⟨e, he, hx⟩ := List.mem_filterMap.mp hw
  cases e with
  | core e =>
    cases hx
    exact (sound_of_mem h he).elim
  | accepted id payload =>
    cases hx
    exact ⟨payload, he⟩
  | _ => cases hx

/-- The delivery whose acknowledgement is awaited was rejected. -/
theorem rejecting_rejected (h : (nats cfg).Run w s) :
    (∀ id, s.rejecting = some id → ∃ payload, .rejected id payload ∈ w) ∧
      ∀ id, .rejectAcked id ∈ w → ∃ payload, .rejected id payload ∈ w := by
  refine h.invariant (P := fun w s =>
    (∀ id, s.rejecting = some id → ∃ payload, .rejected id payload ∈ w) ∧
      ∀ id, .rejectAcked id ∈ w → ∃ payload, .rejected id payload ∈ w)
    ⟨nofun, fun _ h => absurd h List.not_mem_nil⟩ fun w s a t o _ ⟨ih₁, ih₂⟩ hs => ?_
  have hold (id : Nat) (h : ∃ payload, .rejected id payload ∈ w) :
      ∃ payload, .rejected id payload ∈ w ++ o.toList := by
    obtain ⟨payload, hp⟩ := h
    exact ⟨payload, List.mem_append_left _ hp⟩
  have hacked (id : Nat) (ho : o ≠ some (.rejectAcked id)) (h : .rejectAcked id ∈ w ++ o.toList) :
      ∃ payload, .rejected id payload ∈ w ++ o.toList := by
    rcases List.mem_append.mp h with h | h
    · exact hold id (ih₂ id h)
    · exact absurd (by simpa using h) ho
  cases natsStep_cases hs with
  | @core _ _ o =>
    exact ⟨fun id h => hold id (ih₁ id h), fun id => hacked id (by cases o <;> exact nofun)⟩
  | accept => exact ⟨fun id h => hold id (ih₁ id h), fun id => hacked id nofun⟩
  | @reject payload =>
    refine ⟨fun id h => ?_, fun id => hacked id nofun⟩
    obtain rfl : s.next = id := by simpa using h
    exact ⟨payload, by simp⟩
  | @ackRejected id ok _ hr =>
    refine ⟨nofun, fun id' h => ?_⟩
    by_cases hid : id' = id
    · subst hid
      exact hold id' (ih₁ id' hr)
    · refine hacked id' ?_ h
      cases ok
      · exact nofun
      · simpa using Ne.symm hid

/-- What the log of a run with NATS says of the deliveries it acknowledges. -/
structure NatsAcks (cfg : NatsSettings) (w : List NatsEffect) (s : NatsState) : Prop where
  process : AckAfterEffect cfg.core (natsLog w) s.core
  acked (id : Nat) : id ∈ acknowledged w →
    .acked id ∈ natsLog w ∨ ∃ payload, .rejected id payload ∈ w
  accepted (id : Nat) (message : Iec104Message) (now : OffsetDateTime) :
    .received id message now ∈ natsLog w →
      ∃ payload, .accepted id payload message now ∈ w ∧ decodePayload cfg.parse payload = some message
  rejected (id : Nat) (payload : List UInt8) : .rejected id payload ∈ w →
    decodePayload cfg.parse payload = none ∧ Untouched id (natsLog w)
  once : (acknowledged w).Nodup
  inOrder : (∀ id, .rejectAckFailed id ∉ w) → (∀ id, .core (.ackFailed id) ∉ w) →
    deliveries w = acknowledged w ++ s.current.toList

theorem natsAcks_of_run (h : (nats cfg).Run w s) : NatsAcks cfg w s := by
  have hcore : AckAfterEffect cfg.core (natsLog w) s.core :=
    ackAfterEffect_of_run ((nats_process cfg).run h) (natsLog_nodup h)
  have hacc := Worker.accounts ((nats_worker cfg).run h)
  refine ⟨hcore, fun id hid => ?_, fun id message now hm => ?_, fun id payload hr => ?_, ?_, ?_⟩
  · rcases mem_acknowledged.mp hid with hm | hm
    · exact .inl hm
    · exact .inr ((rejecting_rejected h).2 id hm)
  · obtain ⟨payload, hp⟩ := received_accepted h hm
    exact ⟨payload, hp, sound_of_mem h hp⟩
  · refine ⟨sound_of_mem h hr, hcore.untouched id fun hid => ?_⟩
    obtain ⟨message, now, hm⟩ := mem_takenIds.mp hid
    obtain ⟨payload', ha⟩ := received_accepted h hm
    have hn := deliveries_nodup h
    rw [deliveries, Worker.taken, List.filterMap_filterMap] at hn
    cases eq_of_filterMap_nodup (x := id) hn hr ha rfl rfl
  · exact ((List.sublist_append_left ..).trans hacc.sublist).nodup (deliveries_nodup h)
  · intro hr hf
    refine (hacc.eq fun id hm => ?_).symm
    obtain ⟨e, he, hx⟩ := List.mem_filterMap.mp hm
    cases e with
    | core e =>
      cases e with
      | ackFailed =>
        cases hx
        exact hf id he
      | _ => cases hx
    | rejectAckFailed =>
      cases hx
      exact hr id he
    | _ => cases hx

end

/-! ## The Unix socket -/

section

variable {cfg : UnixSettings} {s : UnixState} {w : List UnixEffect} {c : ClientId}

/-- The log of the process inside. -/
def unixLog (w : List UnixEffect) : List (Effect LineId) := w.filterMap UnixEffect.toCore

theorem mem_unixLog {e : Effect LineId} : e ∈ unixLog w ↔ .core e ∈ w := by
  rw [unixLog, List.mem_filterMap]
  constructor
  · rintro ⟨e', he, hx⟩
    cases e' <;> cases hx
    exact he
  · exact fun h => ⟨_, h, rfl⟩

/-- The lines of a client that the main loop takes. -/
theorem takenIds_lineOf (c : ClientId) (w : List UnixEffect) :
    (takenIds (unixLog w)).filterMap (lineOf c) = (Lane.taken (lineLog c w)).map Prod.fst := by
  rw [takenIds, unixLog, Worker.taken, Lane.taken, lineLog, List.filterMap_filterMap,
    List.filterMap_filterMap, List.filterMap_filterMap, List.filterMap_filterMap, List.map_filterMap]
  congr 1
  funext e
  cases e with
  | core e =>
    cases e with
    | received id | acked id | ackFailed id =>
      cases h : lineOf c id <;>
        simp [UnixEffect.toCore, Effect.toWorker, Worker.Effect.toTaken, UnixEffect.toLine,
          Lane.Effect.toTaken, h]
    | _ => rfl
  | read id | replied id | replyFailed id =>
    cases h : lineOf c id <;> simp [UnixEffect.toCore, UnixEffect.toLine, Lane.Effect.toTaken, h]
  | _ => rfl

theorem nodup_of_lineOf {l : List LineId} (h : ∀ c, (l.filterMap (lineOf c)).Nodup) : l.Nodup := by
  induction l with
  | nil => exact List.nodup_nil
  | cons id l ih =>
    refine List.nodup_cons.mpr ⟨fun hm => ?_, ih fun c => ?_⟩
    · have hn := h id.1
      rw [List.filterMap_cons_some (lineOf_self id.1 id.2), List.nodup_cons] at hn
      exact hn.1 (List.mem_filterMap.mpr ⟨id, hm, lineOf_self id.1 id.2⟩)
    · exact ((List.sublist_cons_self id l).filterMap _).nodup (h c)

theorem unixLog_nodup (h : (unix cfg).Run w s) : (takenIds (unixLog w)).Nodup := by
  refine nodup_of_lineOf fun c => ?_
  rw [takenIds_lineOf]
  exact (Lane.taken_sorted (Lane.inv_of_run (lineLog_run h c))).imp Nat.ne_of_lt

/-- The process receives the lines that are accepted. -/
theorem received_request (h : (unix cfg).Run w s) {n : Nat} {message : Iec104Message}
    {now : OffsetDateTime} (hw : .received (c, n) message now ∈ unixLog w) :
    (n, .ok message) ∈ Lane.reads (lineLog c w) := by
  refine Lane.taken_read (Lane.inv_of_run (lineLog_run h c)) ?_
  refine List.mem_filterMap.mpr ⟨.taken n message, ?_, rfl⟩
  refine List.mem_filterMap.mpr ⟨_, mem_unixLog.mp hw, ?_⟩
  show (lineOf c (c, n)).map _ = _
  rw [lineOf_self]
  rfl

/-- `ok` is the acknowledgement of a line. -/
theorem ok_mem_replies (h : (unix cfg).Run w s) {n : Nat} :
    (n, .ok) ∈ replies c w ↔ .acked (c, n) ∈ unixLog w := by
  rw [mem_unixLog]
  constructor
  · intro hm
    obtain ⟨e, he, hx⟩ := List.mem_filterMap.mp hm
    cases e with
    | core e =>
      cases e with
      | acked id =>
        obtain ⟨m, hl, hx⟩ := Option.map_eq_some_iff.mp hx
        cases hx
        rwa [eq_of_lineOf hl] at he
      | _ => cases hx
    | replied id reply =>
      obtain ⟨m, hl, hx⟩ := Option.map_eq_some_iff.mp hx
      cases hx
      -- a rejection is not `ok`
      refine absurd rfl (rejection_ne_ok h (c := c) (n := n) (Lane.mem_answers_some.mpr ?_))
      refine List.mem_filterMap.mpr ⟨.replied n .ok, List.mem_filterMap.mpr ⟨_, he, ?_⟩, rfl⟩
      show (lineOf c id).map _ = _
      rw [hl]
      rfl
    | _ => cases hx
  · intro hm
    refine List.mem_filterMap.mpr ⟨_, hm, ?_⟩
    show (lineOf c (c, n)).map _ = _
    rw [lineOf_self]
    rfl

/-- What the log of a run with Unix-socket clients says of the lines it answers
with `ok`. -/
structure UnixAcks (cfg : UnixSettings) (w : List UnixEffect) (s : UnixState) : Prop where
  process : AckAfterEffect cfg.core (unixLog w) s.core
  answered (c : ClientId) (n : Nat) : (n, .ok) ∈ replies c w ↔ .acked (c, n) ∈ unixLog w
  accepted (c : ClientId) (n : Nat) (message : Iec104Message) (now : OffsetDateTime) :
    .received (c, n) message now ∈ unixLog w → ∃ line, (n, line, .ok message) ∈ requests c w
  rejected (c : ClientId) (n : Nat) (line : List UInt8) (reply : Reply) :
    (n, line, .error reply) ∈ requests c w →
      (n, .ok) ∉ replies c w ∧ Untouched (c, n) (unixLog w)

theorem unixAcks_of_run (h : (unix cfg).Run w s) : UnixAcks cfg w s := by
  have hcore : AckAfterEffect cfg.core (unixLog w) s.core :=
    ackAfterEffect_of_run ((unix_process cfg).run h) (unixLog_nodup h)
  refine ⟨hcore, fun c n => ok_mem_replies h, fun c n message now hm => ?_,
    fun c n line reply hr => ?_⟩
  · exact read_request (received_request h hm)
  · have hu : Untouched (c, n) (unixLog w) := by
      refine hcore.untouched (c, n) fun hid => ?_
      obtain ⟨message, now, hm⟩ := mem_takenIds.mp hid
      have hread : (n, .error reply) ∈ Lane.reads (lineLog c w) := by
        rw [reads_eq]
        exact List.mem_map.mpr ⟨_, hr, rfl⟩
      cases Lane.read_unique (Lane.inv_of_run (lineLog_run h c)) hread (received_request h hm)
    exact ⟨fun ho => hu _ ((ok_mem_replies h).mp ho) rfl, hu⟩

end

/-- Both transports acknowledge a message after its effect. -/
theorem acks_afterEffect :
    (∀ (cfg : NatsSettings) (w : List NatsEffect) (s : NatsState), (nats cfg).Run w s →
      NatsAcks cfg w s) ∧
    ∀ (cfg : UnixSettings) (w : List UnixEffect) (s : UnixState), (unix cfg).Run w s →
      UnixAcks cfg w s :=
  ⟨fun _ _ _ h => natsAcks_of_run h, fun _ _ _ h => unixAcks_of_run h⟩

/-- A payload that parses and one that does not, and a request of a client. -/
theorem acks_afterEffect_sample :
    (∃ w s, acknowledged w = [0, 1] ∧ NatsAcks .sample w s) ∧
      ∃ w s, replies 0 w = [(0, .ok)] ∧ UnixAcks .sample w s := by
  constructor
  · have h := Machine.run_of_exec (M := nats .sample)
      [.main (.build true), .take sampleRequest (.sample 1), .main .insert, .main .dispatch,
        .main (.ack true), .main .count, .take (asciiBytes "what?") (.sample 2), .ackRejected true] rfl
    exact ⟨_, _, rfl, acks_afterEffect.1 _ _ _ h⟩
  · obtain ⟨w, s, h, hw⟩ := Machine.exists_run_of_exec (M := unix .sample)
      [.main (.build true), .accept 0 (some ⟨1000, 1000, 1⟩),
        .clientSend 0 (sampleRequest ++ [NEWLINE]), .readLine 0, .forward 0, .take (.sample 1),
        .main .insert, .main .dispatch, .ackLock, .ackWrite]
      (fun w _ => replies 0 w) [(0, .ok)] (by decide +kernel)
    exact ⟨w, s, hw, acks_afterEffect.2 _ _ _ h⟩

end Iec104Bridge
