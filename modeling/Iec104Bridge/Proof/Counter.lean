import Iec104Bridge.Model.Metrics
import Iec104Bridge.Proof.Process

/-!
# The dispatch counter

A message is counted after its acknowledgement, and handed to the server
before. So the counter and the failed acknowledgements account for what was
handed to the server (`counted_of_run`), and the counter is exact as long as
no acknowledgement fails (`dispatched_exact_iff`). In GI-only mode nothing is
handed or counted.
-/

namespace Iec104Bridge

open Framework

variable {ι : Type} {cfg : Settings} {s t : State ι} {w : List (Effect ι)}

/-- The server is handed a spontaneous frame. -/
def Effect.isHanded : Effect ι → Bool
  | .handed .. => true
  | _ => false

def Effect.isAckFailed : Effect ι → Bool
  | .ackFailed _ => true
  | _ => false

/-- The number of messages handed to the server. -/
def handedCount (w : List (Effect ι)) : Nat := w.countP Effect.isHanded

/-- The task is in `handle_incoming_message`. -/
def TaskPhase.isHandling : TaskPhase ι → Bool
  | .received .. | .cached .. | .acking .. | .acked _ => true
  | _ => false

/-- What the message at hand was handed as, before it is counted. -/
def TaskPhase.dispatched : TaskPhase ι → Option Bool
  | .acking _ dispatched | .acked dispatched => some dispatched
  | _ => none

/-- The message at hand was handed to the server, and is not counted. -/
def TaskPhase.uncounted (task : TaskPhase ι) : Nat := if task.dispatched = some true then 1 else 0

/-- What was handed to the server is counted, was not acknowledged, or is at hand. -/
structure Counted (cfg : Settings) (w : List (Effect ι)) (s : State ι) : Prop where
  dispatched (d : Bool) : s.task.dispatched = some d → d = !cfg.giOnly
  count : handedCount w = s.metrics.messagesDispatched + s.task.uncounted +
    if cfg.giOnly then 0 else w.countP Effect.isAckFailed

theorem handedCount_append (w w' : List (Effect ι)) :
    handedCount (w ++ w') = handedCount w + handedCount w' := List.countP_append

/-- A message is handed to the server unless in GI-only mode. -/
theorem TaskStep.dispatched {o : Option (Effect ι)} (h : TaskStep cfg s t o)
    (hs : ∀ d, s.task.dispatched = some d → d = !cfg.giOnly) :
    ∀ d, t.task.dispatched = some d → d = !cfg.giOnly := by
  intro d hd
  cases h with
  | skip _ hg | dispatch _ hg =>
    cases hd
    rw [hg]
    rfl
  | ack ht =>
    apply hs
    rw [ht]
    exact hd
  | receiveError => exact hs d hd
  | _ => cases hd

/-- What a step hands to the server and what it counts or gives up. -/
theorem TaskStep.account {o : Option (Effect ι)} (h : TaskStep cfg s t o)
    (hs : ∀ d, s.task.dispatched = some d → d = !cfg.giOnly) :
    s.metrics.messagesDispatched + s.task.uncounted + handedCount o.toList =
      t.metrics.messagesDispatched + t.task.uncounted +
        if cfg.giOnly then 0 else o.toList.countP Effect.isAckFailed := by
  cases h with
  | built ht | ctrlC ht =>
    rcases ht with ht | ht <;> simp [ht, TaskPhase.uncounted, TaskPhase.dispatched, handedCount,
      Effect.isHanded, Effect.isAckFailed]
  | receiveError => simp [handedCount]
  | @ackFailed id d ht =>
    have hd : d = !cfg.giOnly := hs d (by rw [ht]; rfl)
    cases hg : cfg.giOnly <;>
      simp [ht, hd, hg, TaskPhase.uncounted, TaskPhase.dispatched, handedCount, Effect.isHanded,
        Effect.isAckFailed]
  | _ ht => simp [ht, TaskPhase.uncounted, TaskPhase.dispatched, handedCount, Effect.isHanded,
      Effect.isAckFailed]

/-- A callback hands nothing to the server as a spontaneous frame. -/
theorem GiStep.account {conn : ConnId} {o : Option (Effect ι)} (h : GiStep cfg s conn t o) :
    handedCount o.toList = 0 ∧ o.toList.countP Effect.isAckFailed = 0 := by
  cases h <;> exact ⟨rfl, rfl⟩

theorem counted_of_run (h : (process ι cfg).Run w s) : Counted cfg w s := by
  have h₀ : Counted cfg [] (State.initial ι) := by
    refine ⟨fun d hd => ?_, ?_⟩
    · cases hd
    show 0 = 0 + 0 + if cfg.giOnly then 0 else 0
    simp
  refine h.invariant (P := Counted cfg) h₀ fun w s a t o _ ⟨hd, hn⟩ hs => ?_
  rcases process_step hs with hs | ⟨conn, hs⟩
  · refine ⟨hs.dispatched hd, ?_⟩
    have hc := hs.account hd
    rw [handedCount_append, List.countP_append]
    split at hn <;> simp_all
    omega
  · have hc := hs.account
    obtain ⟨-, ht, hm, -⟩ := hs.frame
    refine ⟨?_, ?_⟩
    · rw [ht]
      exact hd
    · rw [handedCount_append, List.countP_append, hc.1, hc.2, ht, hm, Nat.add_zero, Nat.add_zero]
      exact hn

/-- In GI-only mode nothing is handed to the server. -/
theorem handedCount_of_giOnly (h : (process ι cfg).Run w s) (hg : cfg.giOnly = true) :
    handedCount w = 0 := by
  refine List.countP_eq_zero.mpr fun e he hh => ?_
  obtain ⟨t, a, t', hs⟩ := h.step_of_mem he
  generalize ho : some e = o at hs
  rcases process_step hs with hs | ⟨conn, hs⟩
  · cases hs with
    | dispatch _ hg' =>
      rw [hg] at hg'
      cases hg'
    | _ => cases ho <;> cases hh
  · cases hs <;> cases ho <;> cases hh

theorem uncounted_of_not_handling {task : TaskPhase ι} (h : task.isHandling = false) :
    task.uncounted = 0 := by
  cases task <;> first | rfl | cases h

/-- Between two messages the counter is exact if and only if no acknowledgement
of a message handed to the server has failed. -/
theorem exact_iff (h : (process ι cfg).Run w s) (ht : s.task.isHandling = false) :
    s.metricsSnapshot.msgsDispatched = handedCount w ↔
      cfg.giOnly = true ∨ ∀ id, .ackFailed id ∉ w := by
  have hc := (counted_of_run h).count
  rw [uncounted_of_not_handling ht, Nat.add_zero] at hc
  show s.metrics.messagesDispatched = handedCount w ↔ _
  have hz : w.countP Effect.isAckFailed = 0 ↔ ∀ id, .ackFailed id ∉ w := by
    rw [List.countP_eq_zero]
    constructor
    · exact fun hf id hm => hf _ hm rfl
    · intro hf e he hx
      cases e with
      | ackFailed id => exact hf id he
      | _ => cases hx
  rw [← hz]
  cases hg : cfg.giOnly with
  | true => simpa [hg] using hc.symm
  | false =>
    simp only [hg, Bool.false_eq_true, if_false] at hc
    simp only [Bool.false_eq_true, false_or]
    omega

/-- Along a run, a scrape after each completed handling shows the number of
messages handed to the server if and only if no acknowledgement fails or the
bridge is in GI-only mode, in which it shows 0 and nothing is handed. -/
theorem dispatched_exact_iff (h : (process ι cfg).Run w s) :
    ((∀ w₁ w₂ t, w = w₁ ++ w₂ → (process ι cfg).Run w₁ t → t.task.isHandling = false →
        t.metricsSnapshot.msgsDispatched = handedCount w₁) ↔
      cfg.giOnly = true ∨ ∀ id, .ackFailed id ∉ w) ∧
    (cfg.giOnly = true → s.metricsSnapshot.msgsDispatched = 0 ∧ handedCount w = 0) := by
  refine ⟨⟨fun hex => ?_, ?_⟩, fun hg => ?_⟩
  · by_contra hn
    rw [not_or] at hn
    obtain ⟨hg, hf⟩ := hn
    push Not at hf
    obtain ⟨id, hid⟩ := hf
    obtain ⟨w₁, w₂, rfl⟩ := List.append_of_mem hid
    obtain ⟨t, a, t', hr, hs, -⟩ := h.split
    -- the task is between two messages right after the failure
    have hr' : (process ι cfg).Run (w₁ ++ [.ackFailed id]) t' := Machine.Steps.tail hr hs
    have ht : t'.task.isHandling = false := by
      generalize ho : some (Effect.ackFailed id) = o at hs
      rcases process_step hs with hs | ⟨conn, hs⟩
      · cases hs <;> cases ho
        rfl
      · cases hs <;> cases ho
    have hc := hex (w₁ ++ [.ackFailed id]) w₂ t' (by simp) hr' ht
    rcases (exact_iff hr' ht).mp hc with hg' | hf
    · exact hg hg'
    · exact hf id (by simp)
  · rintro hok w₁ w₂ t rfl hr ht
    exact (exact_iff hr ht).mpr (hok.imp_right fun hf id hm => hf id (List.mem_append_left _ hm))
  · have hz := handedCount_of_giOnly h hg
    have hc := (counted_of_run h).count
    refine ⟨?_, hz⟩
    show s.metrics.messagesDispatched = 0
    omega

/-- The events of a message whose acknowledgement ends with `ok`. -/
def handleAcked (id : Nat) (message : Iec104Message) (now : OffsetDateTime) (ok : Bool) :
    List (Event Nat) :=
  [.task (.receive id message now), .task .insert, .task .dispatch, .task (.ack ok)]

/-- A message, a receive error, and a message after the source was built again. -/
theorem dispatched_exact_iff_sample : ∃ w s, (process Nat .sample).Run w s ∧ handedCount w = 2 ∧
    ∀ w₁ w₂ t, w = w₁ ++ w₂ → (process Nat .sample).Run w₁ t → t.task.isHandling = false →
      t.metricsSnapshot.msgsDispatched = handedCount w₁ := by
  obtain ⟨w, s, h, hw⟩ := Machine.exists_run_of_exec (M := process Nat .sample)
    ([.task (.build true)] ++ handleAcked 0 (.sample 100 true) (.sample 1) true ++
      [.task .count, .task .receiveError, .task (.endSource ⟨0⟩), .task .sleep, .task (.build true)] ++
      handleAcked 1 (.sample 100 false) (.sample 2) true ++ [.task .count])
    (fun w _ => (handedCount w, w.countP Effect.isAckFailed)) (2, 0) (by decide +kernel)
  simp only [Prod.mk.injEq] at hw
  refine ⟨w, s, h, hw.1, (dispatched_exact_iff h).1.mpr (.inr fun id hm => ?_)⟩
  exact List.countP_eq_zero.mp hw.2 _ hm rfl

/-- A message whose acknowledgement fails is handed to the server, and not counted. -/
theorem dispatched_not_counted : ∃ w s, (process Nat .sample).Run w s ∧ s.task.isHandling = false ∧
    handedCount w = 1 ∧ s.metricsSnapshot.msgsDispatched = 0 := by
  have h := Machine.run_of_exec (M := process Nat .sample)
    (.task (.build true) :: handleAcked 0 (.sample 100 true) (.sample 1) false) rfl
  exact ⟨_, _, h, rfl, rfl, rfl⟩

end Iec104Bridge
