import Iec104Bridge.Proof.Completion
import Mathlib.Algebra.BigOperators.Group.Finset.Piecewise
import Mathlib.Algebra.Order.BigOperators.Group.Finset

/-!
# What the bridge holds

The channel has `UNIX_SOCKET_BACKLOG` places, a send buffer its bytes, and the
task of a client reads no further line before it has passed on the last one. So
what clients send is held back: however many lines they pipeline, only so many
are read and not answered (`backpressure`).
-/

namespace Iec104Bridge

open Framework

variable {cfg : UnixSettings} {s t : UnixState} {as : List UnixEvent} {w : List UnixEffect}
  {e : UnixEvent} {o : Option UnixEffect} {c : ClientId}

/-- The channel and the send buffers are as large as they may be. -/
structure UnixState.Bounded (cfg : UnixSettings) (s : UnixState) : Prop where
  channel : s.channel.length ≤ UNIX_SOCKET_BACKLOG
  unread (c : ClientId) : bufferedBytes (s.clients c).unread ≤ cfg.sendBuffer

theorem bufferedBytes_push (replies : List Reply) (reply : Reply) :
    bufferedBytes (replies ++ [reply]) = bufferedBytes replies + reply.size := by
  simp [bufferedBytes]

theorem UnixState.Bounded.setClient {client : Client} (h : s.Bounded cfg)
    (hu : bufferedBytes client.unread ≤ cfg.sendBuffer) : (s.setClient c client).Bounded cfg where
  channel := h.channel
  unread := forall_setClient (P := fun client _ => bufferedBytes client.unread ≤ cfg.sendBuffer)
    h.unread hu

/-- A reply is written when there is room for it. -/
theorem UnixState.Bounded.push {client : Client} {reply : Reply} (h : s.Bounded cfg)
    (hu : client.unread = (s.clients c).unread ++ [reply])
    (hr : (s.clients c).HasRoom cfg.sendBuffer reply) : (s.setClient c client).Bounded cfg := by
  refine h.setClient ?_
  rw [hu, bufferedBytes_push]
  exact hr

theorem UnixState.Bounded.withCore (h : s.Bounded cfg) {core : State LineId} {listener : ListenerPhase} :
    ({ s with core, listener } : UnixState).Bounded cfg :=
  ⟨h.channel, h.unread⟩

theorem UnixState.Bounded.coreStep {event : Event LineId} (h : s.Bounded cfg)
    (hs : s.coreStep cfg event = some (t, o)) : t.Bounded cfg := by
  obtain ⟨u, o', -, rfl, rfl⟩ := coreStep_some hs
  exact ⟨h.channel, h.unread⟩

theorem UnixState.Bounded.sub {channel : List Item} (h : s.Bounded cfg)
    (hc : channel.length ≤ s.channel.length) : ({ s with channel } : UnixState).Bounded cfg :=
  ⟨hc.trans h.channel, h.unread⟩

theorem UnixState.Bounded.send {item : Item} (h : s.Bounded cfg)
    (hc : s.channel.length < UNIX_SOCKET_BACKLOG) :
    ({ s with channel := s.channel ++ [item] } : UnixState).Bounded cfg where
  channel := by
    show (s.channel ++ [item]).length ≤ _
    rw [List.length_append, List.length_singleton]
    exact hc
  unread := h.unread

theorem clientStep_bounded (h : s.Bounded cfg) (hs : clientStep s c e = some (t, o)) :
    t.Bounded cfg := by
  cases e with
  | clientSend _ bytes =>
    simp only [clientStep] at hs
    split at hs <;> cases hs
    exact h.setClient (h.unread c)
  | clientShutdown | clientClose =>
    simp only [clientStep] at hs
    cases hs
    exact h.setClient (h.unread c)
  | clientRead =>
    simp only [clientStep] at hs
    split at hs <;> [cases hs; skip]
    rename_i reply unread hu
    split at hs <;> cases hs
    refine h.setClient ?_
    have := h.unread c
    rw [hu] at this
    exact (Nat.le_add_left _ reply.size).trans this
  | _ => cases hs

theorem listenerStep_bounded (h : s.Bounded cfg) (hs : listenerStep cfg s e = some (t, o)) :
    t.Bounded cfg := by
  cases e with
  | accept c peer =>
    simp only [listenerStep] at hs
    split at hs <;> cases hs
    exact h.setClient (h.unread c)
  | acceptError =>
    simp only [listenerStep] at hs
    split at hs <;> cases hs
    exact h.withCore
  | reportError =>
    simp only [listenerStep] at hs
    split at hs <;> [skip; cases hs]
    split at hs
    · cases hs
      exact h.withCore
    split at hs <;> cases hs
    exact (h.send ‹_›).withCore
  | _ => cases hs

theorem readerStep_bounded (h : s.Bounded cfg) (hs : readerStep cfg s c e = some (t, o)) :
    t.Bounded cfg := by
  have hsame {client : Client} (hu : client.unread = (s.clients c).unread) :
      (s.setClient c client).Bounded cfg := h.setClient (hu ▸ h.unread c)
  cases e with
  | refuse =>
    simp only [readerStep] at hs
    split at hs <;> [skip; cases hs]
    split at hs
    · cases hs
      exact hsame rfl
    split at hs <;> cases hs
    exact h.push rfl ‹_›
  | readLine =>
    simp only [readerStep] at hs
    split at hs
    · cases hs
      exact hsame rfl
    · split at hs <;> cases hs <;> exact hsame rfl
    · cases hs
  | lock =>
    simp only [readerStep] at hs
    split at hs <;> [skip; cases hs]
    split at hs <;> cases hs
    exact hsame rfl
  | writeReply =>
    simp only [readerStep] at hs
    split at hs <;> [skip; cases hs]
    split at hs
    · cases hs
      exact hsame rfl
    split at hs <;> cases hs
    exact h.push rfl ‹_›
  | forward =>
    simp only [readerStep] at hs
    split at hs <;> [skip; cases hs]
    split at hs
    · cases hs
      exact hsame rfl
    split at hs <;> cases hs
    exact UnixState.Bounded.send (hsame rfl) ‹_›
  | _ => cases hs

theorem mainStep_bounded (h : s.Bounded cfg) (hs : mainStep cfg s e = some (t, o)) :
    t.Bounded cfg := by
  cases e with
  | main event =>
    simp only [mainStep] at hs
    split at hs
    · exact h.withCore.coreStep hs
    · exact (h.sub (Nat.zero_le _)).coreStep hs
    · exact (h.sub (Nat.zero_le _)).coreStep hs
    · exact h.coreStep hs
    · exact h.coreStep hs
    · exact h.coreStep hs
    · cases hs
  | take now =>
    simp only [mainStep] at hs
    split at hs
    · cases hs
    · rename_i channel hc
      exact (h.sub (by rw [hc]; exact Nat.le_succ _)).coreStep hs
    · rename_i id message channel hc
      exact (h.sub (by rw [hc]; exact Nat.le_succ _)).coreStep hs
  | ackLock =>
    simp only [mainStep] at hs
    split at hs <;> [skip; cases hs]
    split at hs <;> cases hs
    exact h.setClient (h.unread _)
  | ackWrite =>
    simp only [mainStep] at hs
    split at hs <;> [skip; cases hs]
    rename_i id dispatched ht
    split at hs <;> [skip; cases hs]
    rename_i writer hl
    split at hs
    · have hb : (s.setClient id.1 { s.clients id.1 with writer }).Bounded cfg :=
        h.setClient (h.unread id.1)
      exact hb.coreStep hs
    split at hs <;> [skip; cases hs]
    rename_i hr
    exact UnixState.Bounded.coreStep (h.push rfl hr) hs
  | gi conn event => exact h.coreStep hs
  | _ => cases hs

theorem bounded_step (h : s.Bounded cfg) (hs : (unix cfg).step s e = some (t, o)) : t.Bounded cfg := by
  have hreader (c : ClientId) (hs : readerStep cfg s c e = some (t, o)) := readerStep_bounded h hs
  have hclient (c : ClientId) (hs : clientStep s c e = some (t, o)) := clientStep_bounded h hs
  have hlistener (hs : listenerStep cfg s e = some (t, o)) := listenerStep_bounded h hs
  have hmain (hs : mainStep cfg s e = some (t, o)) := mainStep_bounded h hs
  cases e with
  | clientSend c | clientShutdown c | clientClose c | clientRead c => exact hclient c hs
  | accept | acceptError | reportError => exact hlistener hs
  | refuse c | readLine c | lock c | writeReply c | forward c => exact hreader c hs
  | main | take | ackLock | ackWrite | gi => exact hmain hs

theorem bounded_of_run (h : (unix cfg).Run w s) : s.Bounded cfg :=
  h.invariant (P := fun _ s => s.Bounded cfg) ⟨Nat.zero_le _, fun _ => Nat.zero_le _⟩
    fun _ _ _ _ _ _ ih hs => bounded_step ih hs

/-! ## Lines that are held back -/

/-- The items of some clients are some of the items in the channel. -/
theorem sum_queue_le (S : Finset ClientId) (channel : List Item) :
    ∑ c ∈ S, (channel.filterMap (Item.of c)).length ≤ channel.length := by
  induction channel with
  | nil => simp
  | cons item channel ih =>
    -- an item is of one client at most
    have hone : ∑ c ∈ S, ((Item.of c item).toList).length ≤ 1 := by
      cases item with
      | acceptError => simp [Item.of]
      | message id message =>
        have hc (c : ClientId) : ((Item.of c (.message id message)).toList).length =
            if c = id.1 then 1 else 0 := by
          by_cases hc : c = id.1
          · simp [Item.of, hc]
          · simp [Item.of, hc, Ne.symm hc]
        rw [Finset.sum_congr rfl fun c _ => hc c, Finset.sum_ite_eq' S id.1 fun _ => 1]
        split <;> decide
    have hsplit (c : ClientId) : ((item :: channel).filterMap (Item.of c)).length =
        ((Item.of c item).toList).length + (channel.filterMap (Item.of c)).length := by
      cases hx : Item.of c item <;> simp [hx, Nat.add_comm]
    rw [Finset.sum_congr rfl fun c _ => hsplit c, Finset.sum_add_distrib, List.length_cons]
    omega

/-- The main loop is at a line of one client at most. -/
theorem sum_working_le (S : Finset ClientId) (task : TaskPhase LineId) :
    ∑ c ∈ S, (task.current.bind (lineOf c)).toList.length ≤ 1 := by
  cases hc : task.current with
  | none => simp
  | some id =>
    have hone (c : ClientId) : ((some id).bind (lineOf c)).toList.length = if c = id.1 then 1 else 0 := by
      by_cases hc : c = id.1
      · simp [lineOf, hc]
      · simp [lineOf, hc, Ne.symm hc]
    rw [Finset.sum_congr rfl fun c _ => hone c, Finset.sum_ite_eq' S id.1 fun _ => 1]
    split <;> decide

/-- **Backpressure.** In every reachable state the channel and the send buffers
are within their bounds. Until the main loop returns, the lines read and not
answered, of any clients that stay, are at most those the channel holds, the
one at the main loop, and one for each of the clients. -/
theorem backpressure (h : (unix cfg).Trace as w s) :
    s.Bounded cfg ∧ (s.core.task.isReturned = false →
      ∀ S : Finset ClientId, (∀ c ∈ S, .clientClose c ∉ as) →
        ∑ c ∈ S, (requests c w).length ≤
          ∑ c ∈ S, (replies c w).length + (UNIX_SOCKET_BACKLOG + 1 + S.card)) := by
  have hb := bounded_of_run h.run
  refine ⟨hb, fun hr S hS => ?_⟩
  have hone (c : ClientId) (hc : c ∈ S) : (requests c w).length ≤ (replies c w).length +
      (1 + (s.channel.filterMap (Item.of c)).length + (s.core.task.current.bind (lineOf c)).toList.length) := by
    have hlen := Lane.length_reads (Lane.inv_of_run (lineLog_run h.run c)) hr
      (fun n => (unfailed_of_stays h (hS c hc) n).1) fun n => (unfailed_of_stays h (hS c hc) n).2
    rw [reads_eq, List.length_map] at hlen
    rw [replies_eq, List.length_map, hlen]
    have hslot : (laneOf c s).slot.toList.length ≤ 1 := by
      cases (laneOf c s).slot <;> simp
    have hqueue : (laneOf c s).queue.length = (s.channel.filterMap (Item.of c)).length := rfl
    have hwork : (laneOf c s).working.toList.length =
        (s.core.task.current.bind (lineOf c)).toList.length := rfl
    omega
  have hsum := Finset.sum_le_sum hone
  simp only [Finset.sum_add_distrib, ← Finset.card_eq_sum_ones] at hsum
  have hq := (sum_queue_le S s.channel).trans hb.channel
  have hw := sum_working_le S s.core.task
  omega

/-- Client 0 pipelines, and the main loop has taken none of its lines. -/
theorem backpressure_sample : ∃ w s,
    (unix .shared).Trace (twoClients ++ [.readLine 0, .forward 0, .readLine 0]) w s ∧
    s.Bounded .shared ∧ ∑ c ∈ {0, 1}, (requests c w).length ≤ ∑ c ∈ {0, 1}, (replies c w).length + 67 := by
  obtain ⟨w, s, h, hr⟩ := Machine.exists_trace_of_exec (M := unix .shared)
    (twoClients ++ [.readLine 0, .forward 0, .readLine 0]) (fun _ s => s.core.task.isReturned) false
    (by decide +kernel)
  obtain ⟨hb, hle⟩ := backpressure h
  refine ⟨w, s, h, hb, hle hr {0, 1} fun c _ => ?_⟩
  simp [twoClients]

end Iec104Bridge
