import Iec104Bridge.Proof.Acks
import Iec104Bridge.Proof.Stream

/-!
# Unauthorized clients

A client whose credentials are not those the settings ask for, or cannot be
looked up, gets at most the one refusal, and nothing it sends is read
(`untrusted_of_trace`). No other step depends on it, so a run can do without
such clients (`unix_purge`): the main loop gets the same messages, and does the
same with them (`authorization`).
-/

namespace Iec104Bridge

open Framework

variable {cfg : UnixSettings} {s t : UnixState} {as : List UnixEvent} {w : List UnixEffect}
  {e : UnixEvent} {o : Option UnixEffect} {c : ClientId}

/-- The credentials are those the settings ask for, where they do. -/
structure UnixSettings.Authorizes (cfg : UnixSettings) (peer : PeerCred) : Prop where
  uid (uid : UInt32) : cfg.allowedUid = some uid → peer.uid = uid
  gid (gid : UInt32) : cfg.allowedGid = some gid → peer.gid = gid

/-- The check passes exactly the authorized peers. -/
theorem authorizes_iff {peer : PeerCred} :
    cfg.Authorizes peer ↔ checkPeerAuthorization peer cfg.allowedUid cfg.allowedGid = none := by
  have hu : authorizationFailureForUid peer cfg.allowedUid = none ↔
      ∀ uid, cfg.allowedUid = some uid → peer.uid = uid := by
    unfold authorizationFailureForUid
    cases cfg.allowedUid <;> simp
  have hg : authorizationFailureForGid peer cfg.allowedGid = none ↔
      ∀ gid, cfg.allowedGid = some gid → peer.gid = gid := by
    unfold authorizationFailureForGid
    cases cfg.allowedGid <;> simp
  unfold checkPeerAuthorization
  rw [Option.or_eq_none_iff, hu, hg]
  exact ⟨fun h => ⟨h.uid, h.gid⟩, fun h => ⟨h.1, h.2⟩⟩

theorem handleUnixClient_refusing {peer : PeerCred} (h : ¬ cfg.Authorizes peer) :
    handleUnixClient cfg (some peer) = .refusing := by
  rw [authorizes_iff] at h
  simp only [handleUnixClient]
  split
  · rfl
  · exact absurd ‹_› h

/-- The client was accepted with the credentials of an authorized peer. -/
def Trusted (cfg : UnixSettings) (c : ClientId) (as : List UnixEvent) : Prop :=
  ∃ peer, some peer ∈ lookups c as ∧ cfg.Authorizes peer

theorem Trusted.mono {as' : List UnixEvent} (h : Trusted cfg c as) (hs : as ⊆ as') :
    Trusted cfg c as' := by
  obtain ⟨peer, hp, ha⟩ := h
  obtain ⟨e, he, hx⟩ := List.mem_filterMap.mp hp
  exact ⟨peer, List.mem_filterMap.mpr ⟨e, hs he, hx⟩, ha⟩

/-! ## Refusals -/

/-- What becomes of a client that is not authorized, from its credential lookups
and what was written to it. -/
inductive Outcome (cfg : UnixSettings) (client : Client) : List (Option PeerCred) → List Reply → Prop
  | absent : client.phase = .absent → Outcome cfg client [] []
  | failed : client.phase = .ended → Outcome cfg client [none] []
  | refusing {peer : PeerCred} : ¬ cfg.Authorizes peer → client.phase = .refusing →
    Outcome cfg client [some peer] []
  | refused {peer : PeerCred} : ¬ cfg.Authorizes peer → client.phase = .ended →
    Outcome cfg client [some peer] [.errorUnauthorized]
  | gone {peer : PeerCred} : ¬ cfg.Authorizes peer → client.phase = .ended → client.gone = true →
    Outcome cfg client [some peer] []

theorem Outcome.phase {client : Client} {peers : List (Option PeerCred)} {replies : List Reply}
    (h : Outcome cfg client peers replies) :
    client.phase = .absent ∨ client.phase = .refusing ∨ client.phase = .ended := by
  cases h with
  | absent hp => exact .inl hp
  | refusing _ hp => exact .inr (.inl hp)
  | failed hp | refused _ hp | gone _ hp => exact .inr (.inr hp)

theorem Outcome.of_absent {client : Client} {peers : List (Option PeerCred)} {replies : List Reply}
    (h : Outcome cfg client peers replies) (hp : client.phase = .absent) : peers = [] ∧ replies = [] := by
  cases h with
  | absent => exact ⟨rfl, rfl⟩
  | refusing _ h | failed h | refused _ h | gone _ h =>
    rw [hp] at h
    cases h

theorem Outcome.of_refusing {client : Client} {peers : List (Option PeerCred)} {replies : List Reply}
    (h : Outcome cfg client peers replies) (hp : client.phase = .refusing) :
    ∃ peer, ¬ cfg.Authorizes peer ∧ peers = [some peer] ∧ replies = [] := by
  cases h with
  | refusing ha => exact ⟨_, ha, rfl, rfl⟩
  | absent h | failed h | refused _ h | gone _ h =>
    rw [hp] at h
    cases h

/-- The outcome is that of a client in the same phase, or one that is gone. -/
theorem Outcome.congr {client client' : Client} {peers : List (Option PeerCred)}
    {replies : List Reply} (h : Outcome cfg client peers replies)
    (hp : client'.phase = client.phase) (hg : client.gone = true → client'.gone = true) :
    Outcome cfg client' peers replies := by
  cases h with
  | absent h => exact .absent (hp.trans h)
  | failed h => exact .failed (hp.trans h)
  | refusing ha h => exact .refusing ha (hp.trans h)
  | refused ha h => exact .refused ha (hp.trans h)
  | gone ha h h' => exact .gone ha (hp.trans h) (hg h')

/-- A client that is not authorized: nothing it sent is read. -/
structure Untrusted (cfg : UnixSettings) (c : ClientId) (as : List UnixEvent) (w : List UnixEffect)
    (client : Client) : Prop where
  unread : client.incoming = sent c as
  unparsed : requests c w = []
  outcome : Outcome cfg client (lookups c as) (written c w)

/-- A client none of whose lines is read gets no reply to a line. -/
theorem replies_of_requests (h : (unix cfg).Run w s) (hr : requests c w = []) : replies c w = [] := by
  have hi := Lane.inv_of_run (lineLog_run h c)
  rw [replies_eq, List.map_eq_nil_iff]
  refine List.eq_nil_iff_forall_not_mem.mpr fun x hx => ?_
  obtain ⟨v, hv, -⟩ := Lane.answer_read hi hx
  rw [reads_eq, hr] at hv
  cases hv

/-- The main loop is at a line that was read. -/
theorem current_of_requests (h : (unix cfg).Run w s) (hr : requests c w = []) (n : Nat) :
    s.core.task.current ≠ some (c, n) := by
  intro hc
  have hw : (laneOf c s).working = some n := by
    show s.core.task.current.bind (lineOf c) = some n
    rw [hc]
    exact lineOf_self c n
  obtain ⟨message, hm⟩ := Lane.working_read (Lane.inv_of_run (lineLog_run h c)) hw
  rw [reads_eq, hr] at hm
  cases hm

/-- What is written to a client in a step, if none of its lines was read. -/
theorem written_of_requests (h : (unix cfg).Run (w ++ o.toList) t)
    (hr : requests c (w ++ o.toList) = []) (ho : ∀ x ∈ o, x ≠ .unauthorized c) :
    written c o.toList = [] := by
  have hu : .unauthorized c ∉ o.toList := fun hm => ho _ (Option.mem_toList.mp hm) rfl
  have hreply := replies_of_requests h hr
  rw [replies, List.filterMap_append, List.append_eq_nil_iff] at hreply
  rw [written_eq hu, replies, hreply.2, List.map_nil]

/-- A step that reads nothing, from the outcome after it. -/
theorem Untrusted.next {client client' : Client} (h : Untrusted cfg c as w client)
    (hi : client'.incoming = client.incoming ++ e.sentBy c) (hr : requests c o.toList = [])
    (hout : Outcome cfg client' (lookups c as ++ (e.lookup c).toList)
      (written c w ++ written c o.toList)) :
    Untrusted cfg c (as ++ [e]) (w ++ o.toList) client' where
  unread := by rw [hi, sent_concat, h.unread]
  unparsed := by rw [requests_append, h.unparsed, hr, List.append_nil]
  outcome := by
    rw [lookups_concat, written_append]
    exact hout

/-- A client that is still not authorized after a step. -/
theorem Untrusted.step (h : Untrusted cfg c as w (s.clients c)) (hr : (unix cfg).Run w s)
    (hs : (unix cfg).step s e = some (t, o)) (hn : ¬ Trusted cfg c (as ++ [e])) :
    Untrusted cfg c (as ++ [e]) (w ++ o.toList) (t.clients c) := by
  have hrun : (unix cfg).Run (w ++ o.toList) t := hr.tail hs
  have hi := inputStep_of_step hs c
  have hout := h.outcome
  have hphase := hout.phase
  generalize s.clients c = client at h hout hphase hi
  generalize t.clients c = client' at hi
  cases hi with
  | @send bytes he =>
    subst he
    refine h.next ?_ rfl ?_
    · rw [UnixEvent.sentBy, if_pos rfl]
    · show Outcome cfg _ (lookups c as ++ []) (written c w ++ [])
      rw [List.append_nil, List.append_nil]
      exact hout.congr rfl id
  | @close gone he =>
    have hl : e.lookup c = none := by rcases he with ⟨rfl, -⟩ | ⟨rfl, -⟩ <;> rfl
    have hb : e.sentBy c = [] := by rcases he with ⟨rfl, -⟩ | ⟨rfl, -⟩ <;> rfl
    have hg : client.gone = true → gone = true := by rcases he with ⟨-, rfl⟩ | ⟨-, rfl⟩ <;> simp
    refine h.next ?_ rfl ?_
    · rw [hb, List.append_nil]
    · rw [hl]
      show Outcome cfg _ (lookups c as ++ []) (written c w ++ [])
      rw [List.append_nil, List.append_nil]
      exact hout.congr rfl hg
  | @accept peer he hp =>
    subst he
    refine h.next (List.append_nil _).symm rfl ?_
    have hlook : UnixEvent.lookup c (.accept c peer) = some peer := if_pos rfl
    have hw : written c (some (UnixEffect.accepted c peer)).toList = [] := rfl
    rw [hlook, hw, List.append_nil]
    -- the first acceptance of the client
    obtain ⟨hpeers, hreplies⟩ := hout.of_absent hp
    rw [hpeers, hreplies]
    cases peer with
    | none => exact .failed rfl
    | some peer =>
      have ha : ¬ cfg.Authorizes peer := fun ha => hn ⟨peer, by
        rw [lookups_concat, hlook, hpeers]
        exact List.mem_singleton_self _, ha⟩
      exact .refusing ha (handleUnixClient_refusing ha)
  | refuse he hp =>
    subst he
    refine h.next (List.append_nil _).symm rfl ?_
    have hw : written c (some (UnixEffect.unauthorized c)).toList = [.errorUnauthorized] := by
      simp [written, UnixEffect.toWritten]
    obtain ⟨peer, ha, hpeers, hreplies⟩ := hout.of_refusing hp
    rw [hw, hpeers, hreplies]
    exact .refused ha rfl
  | refuseFailed he hp hg =>
    subst he
    refine h.next (List.append_nil _).symm rfl ?_
    obtain ⟨peer, ha, hpeers, hreplies⟩ := hout.of_refusing hp
    rw [hpeers, hreplies]
    exact .gone ha rfl hg
  | read _ hp | drop _ hp =>
    rw [hp] at hphase
    rcases hphase with h | h | h <;> cases h
  | quiet hb hl hq hreq hu =>
    have hw : written c o.toList = [] := by
      refine written_of_requests hrun ?_ hu
      rw [requests_append, h.unparsed, hreq, List.append_nil]
    refine h.next ?_ hreq ?_
    · rw [hb, List.append_nil, hq.incoming]
    · rw [hl, hw, List.append_nil]
      show Outcome cfg _ (lookups c as ++ []) _
      rw [List.append_nil]
      exact hout.congr (hq.still hphase) fun hg => hq.gone.trans hg

theorem untrusted_of_trace (h : (unix cfg).Trace as w s) (c : ClientId) (hn : ¬ Trusted cfg c as) :
    Untrusted cfg c as w (s.clients c) := by
  refine h.invariant (P := fun as w s => ¬ Trusted cfg c as → Untrusted cfg c as w (s.clients c))
    (fun _ => ⟨rfl, rfl, .absent rfl⟩) ?_ hn
  intro as w s e t o hr ih hs hn
  exact (ih fun ht => hn (ht.mono (List.subset_append_left _ _))).step hr.run hs hn

/-! ## Runs without them -/

section

variable {U : ClientId → Prop} [DecidablePred U]

/-- The state without the clients in `U`. -/
def UnixState.erase (U : ClientId → Prop) [DecidablePred U] (s : UnixState) : UnixState :=
  { s with clients := fun c => if U c then {} else s.clients c }

/-- About a client in `U`. -/
def Concerns (U : ClientId → Prop) : Option ClientId → Prop
  | some c => U c
  | none => False

instance (owner : Option ClientId) : Decidable (Concerns U owner) :=
  match owner with
  | some c => inferInstanceAs (Decidable (U c))
  | none => inferInstanceAs (Decidable False)

theorem erase_clients (hc : ¬ U c) : (s.erase U).clients c = s.clients c := if_neg hc

@[simp] theorem erase_core : (s.erase U).core = s.core := rfl
@[simp] theorem erase_listener : (s.erase U).listener = s.listener := rfl
@[simp] theorem erase_channel : (s.erase U).channel = s.channel := rfl

theorem erase_setClient (hc : ¬ U c) (client : Client) :
    (s.setClient c client).erase U = (s.erase U).setClient c client := by
  refine congrArg (fun clients => ({ s with clients } : UnixState)) (funext fun d => ?_)
  show (if U d then {} else Function.update s.clients c client d) =
    Function.update (fun d => if U d then {} else s.clients d) c client d
  by_cases hd : d = c
  · subst hd
    simp [hc]
  · simp [hd]

theorem erase_setClient_of_mem (hc : U c) (client : Client) :
    (s.setClient c client).erase U = s.erase U := by
  refine congrArg (fun clients => ({ s with clients } : UnixState)) (funext fun d => ?_)
  show (if U d then {} else Function.update s.clients c client d) = if U d then {} else s.clients d
  by_cases hd : d = c
  · subst hd
    simp [hc]
  · simp [hd]

theorem erase_coreStep (event : Event LineId) : (s.erase U).coreStep cfg event =
    (s.coreStep cfg event).map fun r => (r.1.erase U, r.2) := by
  simp only [UnixState.coreStep, erase_core]
  cases (process LineId cfg.core).step s.core event <;> rfl

/-- A step of another client does not depend on those in `U`. -/
theorem erase_clientStep {d : ClientId} (hd : ¬ U d) (e : UnixEvent) : clientStep (s.erase U) d e =
    (clientStep s d e).map fun r => (r.1.erase U, r.2) := by
  have hc := erase_clients (s := s) hd
  cases e with
  | clientSend =>
    simp only [clientStep, hc]
    by_cases he : (s.clients d).eof = true <;> simp [he, erase_setClient hd]
  | clientShutdown | clientClose =>
    simp only [clientStep, hc, Option.map_some, erase_setClient hd]
  | clientRead =>
    simp only [clientStep, hc]
    cases (s.clients d).unread with
    | nil => rfl
    | cons reply unread => by_cases hg : (s.clients d).gone = true <;> simp [hg, erase_setClient hd]
  | _ => rfl

theorem erase_readerStep {d : ClientId} (hd : ¬ U d) (e : UnixEvent) :
    readerStep cfg (s.erase U) d e = (readerStep cfg s d e).map fun r => (r.1.erase U, r.2) := by
  have hc := erase_clients (s := s) hd
  cases e with
  | refuse =>
    simp only [readerStep, hc]
    split
    · by_cases hg : (s.clients d).gone = true
      · simp [hg, erase_setClient hd]
      · by_cases hr : (s.clients d).HasRoom cfg.sendBuffer .errorUnauthorized <;>
          simp [hg, hr, erase_setClient hd]
    · rfl
  | readLine =>
    simp only [readerStep, hc]
    split
    · simp [erase_setClient hd]
    · split <;> simp [erase_setClient hd]
    · rfl
  | lock =>
    simp only [readerStep, hc]
    split
    · split <;> simp [erase_setClient hd]
    · rfl
  | writeReply =>
    simp only [readerStep, hc]
    split
    · split
      · simp [erase_setClient hd]
      · split <;> simp [erase_setClient hd]
    · rfl
  | forward =>
    simp only [readerStep, hc, erase_core, erase_channel]
    split
    · by_cases hr : s.core.task.isReturned = true
      · simp [hr, erase_setClient hd]
      · by_cases hl : s.channel.length < UNIX_SOCKET_BACKLOG
        · simp only [hr, hl, if_true, if_false, Bool.false_eq_true, Option.map_some, ← erase_setClient hd]
          rfl
        · simp [hr, hl]
    · rfl
  | _ => rfl

theorem erase_listenerStep (he : ¬ Concerns U e.owner) :
    listenerStep cfg (s.erase U) e = (listenerStep cfg s e).map fun r => (r.1.erase U, r.2) := by
  cases e with
  | accept d peer =>
    have hd : ¬ U d := he
    simp only [listenerStep, erase_clients hd, erase_listener]
    split
    · simp [erase_setClient hd]
    · rfl
  | acceptError =>
    simp only [listenerStep, erase_listener]
    split <;> rfl
  | reportError =>
    simp only [listenerStep, erase_listener, erase_core, erase_channel]
    split
    · by_cases hr : s.core.task.isReturned = true
      · simp only [hr, if_true]
        rfl
      · by_cases hl : s.channel.length < UNIX_SOCKET_BACKLOG
        · simp only [hr, hl, if_true, Bool.false_eq_true, if_false]
          rfl
        · simp only [hr, hl, Bool.false_eq_true, if_false]
          rfl
    · rfl
  | _ => rfl

theorem erase_mainStep (ht : ∀ id, s.core.task.current = some id → ¬ U id.1) (e : UnixEvent) :
    mainStep cfg (s.erase U) e = (mainStep cfg s e).map fun r => (r.1.erase U, r.2) := by
  have hacking {id : LineId} {dispatched : Bool} (h : s.core.task = .acking id dispatched) :
      ¬ U id.1 := ht id (by rw [h]; rfl)
  cases e with
  | main event =>
    simp only [mainStep, erase_core]
    split
    · exact erase_coreStep (s := { s with listener := .accepting }) _
    · exact erase_coreStep (s := { s with channel := [] }) _
    · exact erase_coreStep (s := { s with channel := [] }) _
    · exact erase_coreStep _
    · exact erase_coreStep _
    · exact erase_coreStep _
    · rfl
  | take now =>
    simp only [mainStep, erase_channel]
    split
    · rfl
    · exact erase_coreStep (s := { s with channel := _ }) _
    · exact erase_coreStep (s := { s with channel := _ }) _
  | ackLock =>
    simp only [mainStep, erase_core]
    split
    · rename_i id _ h
      simp only [erase_clients (hacking h)]
      split
      · rfl
      · simp [erase_setClient (hacking h)]
    · rfl
  | ackWrite =>
    simp only [mainStep, erase_core]
    split
    · rename_i id _ h
      simp only [erase_clients (hacking h)]
      split
      · split
        · rw [← erase_setClient (hacking h), erase_coreStep]
        · split
          · rw [← erase_setClient (hacking h), erase_coreStep]
          · rfl
      · rfl
    · rfl
  | gi conn event => exact erase_coreStep _
  | _ => rfl

/-- A step that is not about a client in `U` does not depend on those in `U`. -/
theorem erase_step (he : ¬ Concerns U e.owner)
    (ht : ∀ id, s.core.task.current = some id → ¬ U id.1) (hs : (unix cfg).step s e = some (t, o)) :
    (unix cfg).step (s.erase U) e = some (t.erase U, o) := by
  have hmap : (unix cfg).step (s.erase U) e =
      ((unix cfg).step s e).map fun r => (r.1.erase U, r.2) := by
    simp only [unix]
    cases e with
    | clientSend | clientShutdown | clientClose | clientRead =>
      simp only [unixStep]
      exact erase_clientStep he _
    | accept | acceptError | reportError =>
      simp only [unixStep]
      exact erase_listenerStep he
    | refuse | readLine | lock | writeReply | forward =>
      simp only [unixStep]
      exact erase_readerStep he _
    | main | take | ackLock | ackWrite | gi =>
      simp only [unixStep]
      exact erase_mainStep ht _
  rw [hmap, hs]
  rfl

/-- A step about client `d`: it logs an effect about `d`, and touches only this
client, but for the forwarding of a message. -/
structure OwnStep (s : UnixState) (d : ClientId) (t : UnixState) (o : Option UnixEffect) : Prop where
  effect : ∀ x ∈ o, x.owner = some d
  touches : (∀ n message, (s.clients d).phase ≠ .sending n message) → ∃ client, t = s.setClient d client

theorem ownStep_setClient {d : ClientId} {client : Client} (ho : ∀ x ∈ o, x.owner = some d) :
    OwnStep s d (s.setClient d client) o :=
  ⟨ho, fun _ => ⟨client, rfl⟩⟩

theorem clientStep_own {d : ClientId} (h : clientStep s d e = some (t, o)) (he : e.owner = some d) :
    OwnStep s d t o := by
  cases e with
  | clientSend =>
    simp only [clientStep] at h
    split at h <;> cases h
    exact ownStep_setClient owner_none
  | clientShutdown | clientClose =>
    cases h
    exact ownStep_setClient owner_none
  | clientRead =>
    simp only [clientStep] at h
    split at h <;> [cases h; skip]
    split at h <;> cases h
    exact ownStep_setClient (owner_some rfl)
  | _ => cases h

theorem listenerStep_own {d : ClientId} (h : listenerStep cfg s e = some (t, o))
    (he : e.owner = some d) : OwnStep s d t o := by
  cases e with
  | accept =>
    cases he
    simp only [listenerStep] at h
    split at h <;> cases h
    exact ownStep_setClient (owner_some rfl)
  | acceptError | reportError => cases he
  | _ => cases h

theorem readerStep_own {d : ClientId} (h : readerStep cfg s d e = some (t, o)) : OwnStep s d t o := by
  cases e with
  | refuse =>
    simp only [readerStep] at h
    split at h <;> [skip; cases h]
    split at h
    · cases h
      exact ownStep_setClient (owner_some rfl)
    · split at h <;> cases h
      exact ownStep_setClient (owner_some rfl)
  | readLine =>
    simp only [readerStep] at h
    split at h
    · cases h
      exact ownStep_setClient (owner_some rfl)
    · split at h <;> cases h <;> exact ownStep_setClient (owner_some rfl)
    · cases h
  | lock =>
    simp only [readerStep] at h
    split at h <;> [skip; cases h]
    split at h <;> cases h
    exact ownStep_setClient owner_none
  | writeReply =>
    simp only [readerStep] at h
    split at h <;> [skip; cases h]
    split at h
    · cases h
      exact ownStep_setClient (owner_some rfl)
    · split at h <;> cases h
      exact ownStep_setClient (owner_some rfl)
  | forward =>
    simp only [readerStep] at h
    split at h <;> [skip; cases h]
    rename_i n message hp
    split at h
    · cases h
      exact ownStep_setClient (owner_some rfl)
    · split at h <;> cases h
      exact ⟨owner_some rfl, fun hn => absurd hp (hn n message)⟩
  | _ => cases h

theorem own_step {d : ClientId} (hs : (unix cfg).step s e = some (t, o)) (he : e.owner = some d) :
    OwnStep s d t o := by
  simp only [unix] at hs
  cases e with
  | clientSend | clientShutdown | clientClose | clientRead =>
    simp only [unixStep] at hs
    cases he
    exact clientStep_own hs rfl
  | accept | acceptError | reportError =>
    simp only [unixStep] at hs
    exact listenerStep_own hs he
  | refuse | readLine | lock | writeReply | forward =>
    simp only [unixStep] at hs
    cases he
    exact readerStep_own hs
  | main | take | ackLock | ackWrite | gi => cases he

/-- A step of the main loop or of the accept loop logs nothing about a client. -/
theorem effect_of_main (hs : (unix cfg).step s e = some (t, o)) (he : e.owner = none) :
    ∀ x ∈ o, x.owner = none := by
  have hmain (h : mainStep cfg s e = some (t, o)) : ∀ x ∈ o, x.owner = none := by
    intro x hx
    have hq : (s.clients 0).Quiet true (t.clients 0) ∧ ∀ x ∈ o, ∃ y, x = .core y := mainStep_quiet h 0
    obtain ⟨y, rfl⟩ := hq.2 x hx
    rfl
  have hnone : ∀ x ∈ (none : Option UnixEffect), x.owner = none := fun x hx => by cases hx
  simp only [unix] at hs
  cases e with
  | acceptError =>
    simp only [unixStep, listenerStep] at hs
    split at hs <;> cases hs
    exact hnone
  | reportError =>
    simp only [unixStep, listenerStep] at hs
    split at hs <;> [skip; cases hs]
    split at hs
    · cases hs
      exact hnone
    · split at hs <;> cases hs
      exact hnone
  | main | take | ackLock | ackWrite | gi =>
    simp only [unixStep] at hs
    exact hmain hs
  | _ => cases he

/-- No step depends on the clients in `U`, if none of their lines is read. -/
structure Unread (U : ClientId → Prop) (s : UnixState) : Prop where
  phase (c : ClientId) : U c → (s.clients c).phase = .absent ∨ (s.clients c).phase = .refusing ∨
    (s.clients c).phase = .ended
  current (id : LineId) : s.core.task.current = some id → ¬ U id.1

theorem unix_purge (cfg : UnixSettings) (U : ClientId → Prop) [DecidablePred U] :
    Machine.Purge (unix cfg) (fun e => Concerns U e.owner) (fun x => Concerns U x.owner)
      (UnixState.erase U) (Unread U) where
  init := by
    refine congrArg (fun clients => ({ (unix cfg).init with clients } : UnixState)) (funext fun c => ?_)
    exact ite_self _
  hidden_step {s t e o} hI he hs := by
    cases hc : e.owner with
    | none =>
      rw [hc] at he
      exact he.elim
    | some c =>
      rw [hc] at he
      have hU : U c := he
      have hown := own_step hs hc
      obtain ⟨client, rfl⟩ := hown.touches fun n message hp => by
        rcases hI.phase c hU with h | h | h <;> rw [h] at hp <;> cases hp
      refine ⟨erase_setClient_of_mem hU client, fun x hx => ?_⟩
      rw [hown.effect x hx]
      exact hU
  visible_step {s t e o} hI he hs := by
    refine ⟨erase_step he hI.current hs, fun x hx => ?_⟩
    cases hc : e.owner with
    | none =>
      rw [effect_of_main hs hc x hx]
      exact id
    | some c =>
      rw [(own_step hs hc).effect x hx, ← hc]
      exact he

end

/-- Nothing in the main loop depends on clients that are not authorized. -/
theorem unread_of_trace {U : ClientId → Prop} (h : (unix cfg).Trace as w s)
    (hU : ∀ c, U c → ¬ Trusted cfg c as) : Unread U s where
  phase c hc := (untrusted_of_trace h c (hU c hc)).outcome.phase
  current id hid hc := by
    exact current_of_requests h.run (untrusted_of_trace h id.1 (hU id.1 hc)).unparsed id.2 hid

theorem unixLog_filter (U : ClientId → Prop) [DecidablePred U] (w : List UnixEffect) :
    unixLog (w.filter fun x => ¬ Concerns U x.owner) = unixLog w := by
  rw [unixLog, unixLog, List.filterMap_filter]
  refine List.filterMap_congr fun x _ => ?_
  cases x with
  | core => exact if_pos (decide_eq_true id)
  | _ => exact ite_self _

/-! ## Authorization -/

/-- What a client that is refused receives. -/
structure Refused (cfg : UnixSettings) (w : List UnixEffect) (s : UnixState) (c : ClientId) : Prop where
  received : delivered c w ++ (s.clients c).unread = written c w
  atMostOnce : written c w = [] ∨ written c w = [.errorUnauthorized]
  /-- Unless the client is gone, the line is written, or its task can write it. -/
  possible : (s.clients c).gone = false → written c w = [] →
    ∃ t, (unix cfg).step s (.refuse c) = some (t, some (.unauthorized c))

/-- Nothing of what an unauthorized client sends reaches the bridge. -/
structure Unheard (cfg : UnixSettings) (as : List UnixEvent) (w : List UnixEffect) (s : UnixState)
    (c : ClientId) : Prop where
  unread : (s.clients c).incoming = sent c as
  unparsed : requests c w = []
  unqueued (n : Nat) (message : Iec104Message) : .message (c, n) message ∉ s.channel
  untaken (n : Nat) (message : Iec104Message) (now : OffsetDateTime) :
    .received (c, n) message now ∉ unixLog w
  refused (peer : PeerCred) : some peer ∈ lookups c as → Refused cfg w s c
  /-- The credential lookup failed. -/
  failed : none ∈ lookups c as → (s.clients c).phase = .ended ∧ written c w = []

theorem refused_of_outcome (h : (unix cfg).Run w s) {peer : PeerCred} (hp : some peer ∈ lookups c as)
    (ho : Outcome cfg (s.clients c) (lookups c as) (written c w)) : Refused cfg w s c := by
  have hd := delivered_unread h c
  generalize lookups c as = peers at hp ho
  generalize hw : written c w = replies at ho
  cases ho with
  | absent | failed => simp at hp
  | refused => exact ⟨hd, .inr hw, fun _ hn => by rw [hw] at hn; cases hn⟩
  | gone _ _ hg => exact ⟨hd, .inl hw, fun hng => by rw [hg] at hng; cases hng⟩
  | refusing _ hph =>
    refine ⟨hd, .inl hw, fun hng _ => ?_⟩
    have hu : (s.clients c).unread = [] := by
      rw [hw] at hd
      exact (List.append_eq_nil_iff.mp hd).2
    -- an empty send buffer has room for the line
    have hroom : (s.clients c).HasRoom cfg.sendBuffer .errorUnauthorized := by
      show bufferedBytes (s.clients c).unread + _ ≤ _
      rw [hu]
      exact (Nat.zero_add _).le.trans cfg.sendBuffer_room
    simp [unix, unixStep, readerStep, hph, hng, hroom]

theorem unheard_of_trace (h : (unix cfg).Trace as w s) (c : ClientId) (hn : ¬ Trusted cfg c as) :
    Unheard cfg as w s c := by
  have hu := untrusted_of_trace h c hn
  have hi := Lane.inv_of_run (lineLog_run h.run c)
  have hreads : Lane.reads (lineLog c w) = [] := by rw [reads_eq, hu.unparsed, List.map_nil]
  have haccepted : Lane.accepted (lineLog c w) = [] := by rw [Lane.accepted, hreads, List.filterMap_nil]
  have hsub := hi.acceptances.sublist
  rw [haccepted, List.sublist_nil, List.append_eq_nil_iff, List.append_eq_nil_iff] at hsub
  obtain ⟨⟨htaken, hqueue⟩, -⟩ := hsub
  refine ⟨hu.unread, hu.unparsed, fun n message hm => ?_, fun n message now hm => ?_,
    fun peer hp => refused_of_outcome h.run hp hu.outcome, fun hp => ?_⟩
  · have hq : (n, message) ∈ (laneOf c s).queue :=
      List.mem_filterMap.mpr ⟨_, hm, if_pos rfl⟩
    rw [hqueue] at hq
    cases hq
  · have ht : (n, message) ∈ Lane.taken (lineLog c w) := by
      refine List.mem_filterMap.mpr ⟨.taken n message, ?_, rfl⟩
      refine List.mem_filterMap.mpr ⟨_, mem_unixLog.mp hm, ?_⟩
      simp [UnixEffect.toLine]
    rw [htaken] at ht
    cases ht
  · have ho := hu.outcome
    generalize lookups c as = peers at hp ho
    generalize written c w = replies at ho ⊢
    cases ho with
    | failed hph => exact ⟨hph, rfl⟩
    | _ => simp at hp

/-- **Authorization.** Whatever unauthorized clients do, the same run without
them has the main loop take the same messages and do the same with them. An
unauthorized client is not heard, and receives only its refusal. -/
theorem authorization (h : (unix cfg).Trace as w s) :
    (∀ (U : ClientId → Prop) [DecidablePred U], (∀ c, U c → ¬ Trusted cfg c as) →
      ∃ t, (unix cfg).Trace (as.filter fun e => ¬ Concerns U e.owner)
          (w.filter fun x => ¬ Concerns U x.owner) t ∧
        t.core = s.core ∧ t.channel = s.channel ∧ (∀ c, ¬ U c → t.clients c = s.clients c) ∧
        unixLog (w.filter fun x => ¬ Concerns U x.owner) = unixLog w) ∧
    ∀ c, ¬ Trusted cfg c as → Unheard cfg as w s c := by
  refine ⟨fun U _ hU => ?_, fun c hn => unheard_of_trace h c hn⟩
  have ht := (unix_purge cfg U).trace h fun as' w' s' hpre h' =>
    unread_of_trace h' fun c hc ht => hU c hc (ht.mono hpre.subset)
  exact ⟨s.erase U, ht, rfl, rfl, fun c hc => erase_clients hc, unixLog_filter U w⟩

/-- A server that takes clients of user 1000 only. -/
def UnixSettings.guarded : UnixSettings := { UnixSettings.sample with allowedUid := some 1000 }

/-- A client of user 1000 and one of another user send the same request. -/
def intrusion : List UnixEvent :=
  [.main (.build true), .accept 0 (some ⟨1000, 1000, 1⟩), .accept 1 (some ⟨33, 33, 2⟩),
    .clientSend 1 (sampleRequest ++ [NEWLINE]), .clientSend 0 (sampleRequest ++ [NEWLINE]),
    .refuse 1, .readLine 0, .forward 0, .clientRead 1, .take (.sample 1),
    .main .insert, .main .dispatch, .ackLock, .ackWrite]

theorem authorization_sample : ∃ w s t, (unix .guarded).Trace intrusion w s ∧
    replies 0 w = [(0, .ok)] ∧ delivered 1 w = [.errorUnauthorized] ∧
    (∃ w', (unix .guarded).Trace
      [.main (.build true), .accept 0 (some ⟨1000, 1000, 1⟩), .clientSend 0 (sampleRequest ++ [NEWLINE]),
        .readLine 0, .forward 0, .take (.sample 1), .main .insert, .main .dispatch, .ackLock,
        .ackWrite] w' t) ∧ t.core = s.core ∧ Unheard .guarded intrusion w s 1 := by
  obtain ⟨w, s, h, hw⟩ := Machine.exists_trace_of_exec (M := unix .guarded) intrusion
    (fun w _ => (replies 0 w, delivered 1 w)) ([(0, .ok)], [.errorUnauthorized]) (by decide +kernel)
  rw [Prod.mk.injEq] at hw
  have hn : ¬ Trusted .guarded 1 intrusion := by
    rintro ⟨peer, hp, ha⟩
    obtain rfl : peer = ⟨33, 33, 2⟩ := by
      have hl : lookups 1 intrusion = [some ⟨33, 33, 2⟩] := rfl
      simpa [hl] using hp
    exact absurd (ha.uid 1000 rfl) (by decide)
  obtain ⟨hpurge, hunheard⟩ := authorization h
  obtain ⟨t, ht, hc, -, -⟩ := hpurge (fun c => c = 1) fun c hc => hc ▸ hn
  exact ⟨w, s, t, h, hw.1, hw.2, ⟨_, ht⟩, hc, hunheard 1 hn⟩

end Iec104Bridge
