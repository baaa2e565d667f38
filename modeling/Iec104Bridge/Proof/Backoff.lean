import Iec104Bridge.Proof.Process

/-!
# The delays of the supervisor

The backoff is doubled before the outcome of an attempt is known, and reset
when a stable run ends. So it depends only on the number of rebuild attempts
that have begun since then (`BackoffOf`), and so does each delay (`backoff_law`).
-/

namespace Iec104Bridge

open Framework

variable {ι : Type} {cfg : Settings} {s t : State ι} {w w₁ w₂ : List (Effect ι)} {o : Option (Effect ι)}
  {delay : Duration}

/-! ## The law -/

/-- The delay of the attempt after `n` others: 200 ms, doubled with each of them, up to 5 s. -/
def backoffAfter (n : Nat) : Nat := min (SOURCE_MIN_BACKOFF.asNanos * 2 ^ n) SOURCE_MAX_BACKOFF.asNanos

theorem backoffAfter_succ (n : Nat) :
    backoffAfter (n + 1) = min (backoffAfter n * 2) SOURCE_MAX_BACKOFF.asNanos := by
  unfold backoffAfter
  rw [pow_succ, ← Nat.mul_assoc]
  omega

theorem backoffAfter_mono {m n : Nat} (h : m ≤ n) : backoffAfter m ≤ backoffAfter n :=
  min_le_min (Nat.mul_le_mul_left _ (Nat.pow_le_pow_right (by decide) h)) le_rfl

theorem backoffAfter_range (n : Nat) :
    SOURCE_MIN_BACKOFF.asNanos ≤ backoffAfter n ∧ backoffAfter n ≤ SOURCE_MAX_BACKOFF.asNanos :=
  ⟨backoffAfter_mono (Nat.zero_le n), min_le_right _ _⟩

/-! ## Attempts -/

/-- The source was built, or could not be built. -/
def Effect.isBuilt : Effect ι → Bool
  | .built _ => true
  | _ => false

/-- A source run ended that had stayed up for 30 s. -/
def Effect.endsStable : Effect ι → Bool
  | .sourceEnded elapsed => SOURCE_STABLE_RUN.asNanos ≤ elapsed.asNanos
  | _ => false

/-- The number of rebuild attempts after an effect; there is none before start-up. -/
def Effect.countRebuild (n : Option Nat) (e : Effect ι) : Option Nat :=
  if e.isBuilt then some (match n with | none => 0 | some n => n + 1)
  else if e.endsStable then some 0
  else n

/-- The rebuild attempts since start-up, or since the end of the last source
run that stayed up for 30 s. -/
def rebuilds (w : List (Effect ι)) : Option Nat := w.foldl Effect.countRebuild none

theorem countRebuild_of_built {e : Effect ι} (h : e.isBuilt = true) (n : Nat) :
    e.countRebuild (some n) = some (n + 1) := if_pos h

theorem countRebuild_of_quiet {e : Effect ι} (hb : e.isBuilt = false) (he : e.endsStable = false)
    (n : Option Nat) : e.countRebuild n = n := by
  rw [Effect.countRebuild.eq_def, if_neg (by simp [hb]), if_neg (by simp [he])]

theorem countRebuild_of_stable {e : Effect ι} (hb : e.isBuilt = false) (he : e.endsStable = true)
    (n : Option Nat) : e.countRebuild n = some 0 := by
  rw [Effect.countRebuild.eq_def, if_neg (by simp [hb]), if_pos he]

theorem rebuilds_append (w v : List (Effect ι)) :
    rebuilds (w ++ v) = v.foldl Effect.countRebuild (rebuilds w) := List.foldl_append ..

/-- Attempts add up as long as no stable run ends. -/
theorem exists_rebuilds_append {v : List (Effect ι)} (hv : ∀ e ∈ v, e.endsStable = false) {m : Nat}
    (hm : rebuilds w = some m) : ∃ n, m ≤ n ∧ rebuilds (w ++ v) = some n := by
  rw [rebuilds_append, hm]
  clear hm
  induction v generalizing m with
  | nil => exact ⟨m, le_rfl, rfl⟩
  | cons e v ih =>
    have he := hv e List.mem_cons_self
    have hv := fun e' he' => hv e' (List.mem_cons_of_mem e he')
    rw [List.foldl_cons]
    cases hb : e.isBuilt with
    | true =>
      obtain ⟨n, hle, hn⟩ := ih hv (m := m + 1)
      exact ⟨n, (Nat.le_succ m).trans hle, by rwa [countRebuild_of_built hb]⟩
    | false =>
      obtain ⟨n, hle, hn⟩ := ih hv (m := m)
      exact ⟨n, hle, by rwa [countRebuild_of_quiet hb he]⟩

/-- Where the source is not built and no stable run ends, attempts do not change. -/
theorem rebuilds_append_of_quiet {v : List (Effect ι)}
    (hv : ∀ e ∈ v, e.isBuilt = false ∧ e.endsStable = false) : rebuilds (w ++ v) = rebuilds w := by
  rw [rebuilds_append]
  generalize rebuilds w = n
  induction v with
  | nil => rfl
  | cons e v ih =>
    obtain ⟨hb, he⟩ := hv e List.mem_cons_self
    rw [List.foldl_cons, countRebuild_of_quiet hb he]
    exact ih fun e' he' => hv e' (List.mem_cons_of_mem e he')

/-- After a stable run no attempt counts but those that follow it. -/
theorem rebuilds_stable {u v : List (Effect ι)} {elapsed : Duration}
    (he : SOURCE_STABLE_RUN.asNanos ≤ elapsed.asNanos) (hv : ∀ e ∈ v, e.isBuilt = false) :
    rebuilds (u ++ .sourceEnded elapsed :: v) = some 0 := by
  have hend : (Effect.sourceEnded elapsed : Effect ι).endsStable = true := decide_eq_true he
  rw [rebuilds_append, List.foldl_cons, countRebuild_of_stable rfl hend]
  clear hend
  induction v with
  | nil => rfl
  | cons e v ih =>
    have hb := hv e List.mem_cons_self
    have hzero : e.countRebuild (some 0) = some 0 := by
      cases he : e.endsStable with
      | true => exact countRebuild_of_stable hb he _
      | false => exact countRebuild_of_quiet hb he _
    rw [List.foldl_cons, hzero]
    exact ih fun e' he' => hv e' (List.mem_cons_of_mem e he')

/-! ## The invariant -/

/-- The task supervises the source. -/
def TaskPhase.isSupervising : TaskPhase ι → Bool
  | .starting | .returned _ => false
  | _ => true

/-- The attempt that has begun and has no outcome yet. -/
def TaskPhase.pendingAttempt : TaskPhase ι → Nat
  | .rebuilding => 1
  | _ => 0

/-- The backoff is that of the next attempt. -/
structure BackoffOf (w : List (Effect ι)) (s : State ι) : Prop where
  starting : s.task = .starting → rebuilds w = none ∧ s.backoff = SOURCE_MIN_BACKOFF
  supervising : s.task.isSupervising = true →
    ∃ n, rebuilds w = some n ∧ s.backoff.asNanos = backoffAfter (n + s.task.pendingAttempt)

theorem backoffOf_of_supervising {n : Nat} (ht : s.task.isSupervising = true)
    (hn : rebuilds w = some n) (hb : s.backoff.asNanos = backoffAfter (n + s.task.pendingAttempt)) :
    BackoffOf w s := by
  refine ⟨fun he => ?_, fun _ => ⟨n, hn, hb⟩⟩
  rw [he] at ht
  cases ht

theorem BackoffOf.of_task (h : BackoffOf w s) {phase : TaskPhase ι} (ht : s.task = phase)
    (hp : phase.isSupervising = true) :
    ∃ n, rebuilds w = some n ∧ s.backoff.asNanos = backoffAfter (n + phase.pendingAttempt) := by
  subst ht
  exact h.supervising hp

/-- A step that is neither an attempt nor the end of a run. -/
theorem BackoffOf.keep (h : BackoffOf w s) (hs : s.task.isSupervising = true)
    (hp : s.task.pendingAttempt = 0) (ht : t.task.isSupervising = true)
    (hp' : t.task.pendingAttempt = 0) (hb : t.backoff = s.backoff)
    (ho : ∀ e ∈ o.toList, e.isBuilt = false ∧ e.endsStable = false) : BackoffOf (w ++ o.toList) t := by
  obtain ⟨n, hn, hd⟩ := h.supervising hs
  refine backoffOf_of_supervising ht ((rebuilds_append_of_quiet ho).trans hn) ?_
  rw [hb, hd, hp, hp']

theorem BackoffOf.step (h : BackoffOf w s) (hs : TaskStep cfg s t o) : BackoffOf (w ++ o.toList) t := by
  have hrebuilt : ∀ ok n, rebuilds w = some n → rebuilds (w ++ [.built ok]) = some (n + 1) :=
    fun ok n hn => by
      rw [rebuilds_append, hn]
      rfl
  cases hs with
  | built ht =>
    rcases ht with ht | ht
    · obtain ⟨hn, hb⟩ := h.starting ht
      refine backoffOf_of_supervising (n := 0) rfl ?_ (congrArg Duration.asNanos hb)
      rw [rebuilds_append, hn]
      rfl
    · obtain ⟨n, hn, hb⟩ := h.of_task ht rfl
      exact backoffOf_of_supervising rfl (hrebuilt true n hn) hb
  | buildFailed => exact ⟨fun he => (by cases he), fun he => by cases he⟩
  | rebuildFailed ht =>
    obtain ⟨n, hn, hb⟩ := h.of_task ht rfl
    exact backoffOf_of_supervising rfl (hrebuilt false n hn) hb
  | @endSource elapsed backoff ht hbackoff =>
    obtain ⟨n, hn, hb⟩ := h.of_task ht rfl
    by_cases he : SOURCE_STABLE_RUN.asNanos ≤ elapsed.asNanos
    · rw [if_pos he] at hbackoff
      exact backoffOf_of_supervising (n := 0) rfl (rebuilds_stable he (by simp))
        (congrArg Duration.asNanos hbackoff)
    · rw [if_neg he] at hbackoff
      refine backoffOf_of_supervising rfl ((rebuilds_append_of_quiet ?_).trans hn)
        ((congrArg Duration.asNanos hbackoff).trans hb)
      simpa [Effect.isBuilt, Effect.endsStable] using he
  | ctrlC => exact ⟨fun he => (by cases he), fun he => by cases he⟩
  | sleep ht =>
    obtain ⟨n, hn, hb⟩ := h.of_task ht rfl
    have hquiet := rebuilds_append_of_quiet (w := w) (v := [.slept s.backoff])
      (by simp [Effect.isBuilt, Effect.endsStable])
    refine backoffOf_of_supervising rfl (hquiet.trans hn) ?_
    show min (s.backoff.asNanos * 2) SOURCE_MAX_BACKOFF.asNanos = backoffAfter (n + 1)
    rw [backoffAfter_succ, hb]
    rfl
  | receiveError ht =>
    exact h.keep (by rw [ht]; rfl) (by rw [ht]; rfl) (by rw [ht]; rfl) (by rw [ht]; rfl) rfl (by simp)
  | receive ht | insert ht | skip ht | dispatch ht | ack ht | ackFailed ht | count ht | noCount ht =>
    exact h.keep (by rw [ht]; rfl) (by rw [ht]; rfl) rfl rfl rfl
      (by simp [Effect.isBuilt, Effect.endsStable])

/-- A callback neither builds the source nor sees its end. -/
theorem GiStep.quiet {conn : ConnId} (h : GiStep cfg s conn t o) :
    ∀ e ∈ o.toList, e.isBuilt = false ∧ e.endsStable = false := by
  cases h <;> simp [Effect.isBuilt, Effect.endsStable]

theorem backoffOf_of_run (h : (process ι cfg).Run w s) : BackoffOf w s := by
  refine h.invariant (P := BackoffOf) ⟨fun _ => ⟨rfl, rfl⟩, fun he => by cases he⟩ ?_
  intro w s a t o _ ih hs
  rcases process_step hs with hs | ⟨conn, hs⟩
  · exact ih.step hs
  · obtain ⟨-, htask, -, hbackoff⟩ := hs.frame
    have hrebuilds : rebuilds (w ++ o.toList) = rebuilds w := rebuilds_append_of_quiet hs.quiet
    refine ⟨fun he => ?_, fun he => ?_⟩
    · rw [hrebuilds, hbackoff]
      exact ih.starting (htask ▸ he)
    · rw [hrebuilds, hbackoff, htask]
      exact ih.supervising (htask ▸ he)

/-- A delay is the backoff of the attempt that it begins. -/
theorem delay_of_run (h : (process ι cfg).Run (w₁ ++ .slept delay :: w₂) s) :
    ∃ n, rebuilds w₁ = some n ∧ delay.asNanos = backoffAfter n := by
  obtain ⟨t, a, t', hr, hs, -⟩ := h.split
  rcases process_step hs with hs | ⟨conn, hs⟩
  · cases hs with
    | sleep ht => exact (backoffOf_of_run hr).of_task ht rfl
  · cases hs

/-! ## Attempts begin with a delay -/

/-- An effect of the supervisor. -/
def Effect.isSupervisor : Effect ι → Bool
  | .built _ | .slept _ | .sourceEnded _ => true
  | _ => false

/-- The last effect of the supervisor is the delay of the attempt at hand. -/
def Begun (w : List (Effect ι)) : Prop :=
  ∃ u delay v, w = u ++ .slept delay :: v ∧ ∀ e ∈ v, e.isSupervisor = false

theorem begun_of_run (h : (process ι cfg).Run w s) : s.task = .rebuilding → Begun w := by
  refine h.invariant (P := fun w s => s.task = .rebuilding → Begun w) (fun ht => by cases ht) ?_
  intro w s a t o _ ih hs ht
  rcases process_step hs with hs | ⟨conn, hs⟩
  · cases hs with
    | sleep => exact ⟨w, s.backoff, [], rfl, by simp⟩
    | receiveError hsel =>
      rw [hsel] at ht
      cases ht
    | _ => cases ht
  · obtain ⟨u, delay, v, rfl, hv⟩ := ih (hs.frame.2.1 ▸ ht)
    refine ⟨u, delay, v ++ o.toList, by rw [List.append_assoc]; rfl, fun e he => ?_⟩
    rcases List.mem_append.mp he with he | he
    · exact hv e he
    · cases hs <;> simp_all [Effect.isSupervisor]

/-- Each attempt but that of start-up begins with the delay of its number. -/
theorem built_of_run {ok : Bool} {n : Nat} (h : (process ι cfg).Run (w₁ ++ .built ok :: w₂) s)
    (hn : rebuilds w₁ = some n) :
    ∃ u delay v, w₁ = u ++ .slept delay :: v ∧ delay.asNanos = backoffAfter n ∧
      ∀ e ∈ v, e.isSupervisor = false := by
  obtain ⟨t, a, t', hr, hs, -⟩ := h.split
  have ht : t.task = .rebuilding := by
    have hstart : t.task ≠ .starting := fun ht => by
      rw [((backoffOf_of_run hr).starting ht).1] at hn
      cases hn
    rcases process_step hs with hs | ⟨conn, hs⟩
    · cases hs with
      | built ht => exact ht.resolve_left hstart
      | buildFailed ht => exact absurd ht hstart
      | rebuildFailed ht => exact ht
    · cases hs
  obtain ⟨u, delay, v, rfl, hv⟩ := begun_of_run hr ht
  obtain ⟨m, hm, hd⟩ := delay_of_run hr
  have hsame : rebuilds (u ++ .slept delay :: v) = rebuilds u := by
    refine rebuilds_append_of_quiet fun e he => ?_
    rcases List.mem_cons.mp he with rfl | he
    · exact ⟨rfl, rfl⟩
    · have := hv e he
      cases e <;> simp_all [Effect.isSupervisor, Effect.isBuilt, Effect.endsStable]
  rw [hsame, hm] at hn
  exact ⟨u, delay, v, rfl, Option.some.inj hn ▸ hd, hv⟩

/-! ## The law -/

/-- What is said of a delay between `before` and `after`. -/
structure DelayLaw (before : List (Effect ι)) (delay : Duration) (after : List (Effect ι)) : Prop where
  /-- `n` attempts came before this one. -/
  number : ∃ n, rebuilds before = some n ∧ delay.asNanos = backoffAfter n
  range : SOURCE_MIN_BACKOFF.asNanos ≤ delay.asNanos ∧ delay.asNanos ≤ SOURCE_MAX_BACKOFF.asNanos
  incident (v : List (Effect ι)) (delay' : Duration) (w : List (Effect ι)) :
    after = v ++ .slept delay' :: w → (∀ e ∈ v, e.endsStable = false) →
    delay.asNanos ≤ delay'.asNanos
  stable (u : List (Effect ι)) (elapsed : Duration) (v : List (Effect ι)) :
    before = u ++ .sourceEnded elapsed :: v → SOURCE_STABLE_RUN.asNanos ≤ elapsed.asNanos →
    (∀ e ∈ v, e.isBuilt = false) → delay = SOURCE_MIN_BACKOFF

theorem delayLaw_of_run (h : (process ι cfg).Run (w₁ ++ .slept delay :: w₂) s) :
    DelayLaw w₁ delay w₂ := by
  obtain ⟨n, hn, hd⟩ := delay_of_run h
  refine ⟨⟨n, hn, hd⟩, hd ▸ backoffAfter_range n, ?_, ?_⟩
  · rintro v delay' w rfl hv
    rw [← List.cons_append, ← List.append_assoc] at h
    obtain ⟨m, hm, hd'⟩ := delay_of_run h
    obtain ⟨m', hle, hm'⟩ := exists_rebuilds_append (v := .slept delay :: v)
      (fun e he => by
        rcases List.mem_cons.mp he with rfl | he
        · rfl
        · exact hv e he) hn
    obtain rfl : m = m' := Option.some.inj (hm.symm.trans hm')
    rw [hd, hd']
    exact backoffAfter_mono hle
  · rintro u elapsed v rfl he hv
    rw [rebuilds_stable he hv] at hn
    cases hn
    obtain ⟨nanos⟩ := delay
    exact congrArg Duration.mk hd

/-- **The backoff of the supervisor.** In every run, the delay before a rebuild
attempt is 200 ms, doubled for each attempt since start-up or the end of the
last stable run, up to 5 s. It never shrinks within an incident, and the first
one after a stable run is 200 ms. Every attempt but that of start-up has its delay. -/
theorem backoff_law (h : (process ι cfg).Run w s) :
    (∀ w₁ delay w₂, w = w₁ ++ .slept delay :: w₂ → DelayLaw w₁ delay w₂) ∧
    ∀ w₁ ok w₂ n, w = w₁ ++ .built ok :: w₂ → rebuilds w₁ = some n →
      ∃ u delay v, w₁ = u ++ .slept delay :: v ∧ delay.asNanos = backoffAfter n ∧
        ∀ e ∈ v, e.isSupervisor = false := by
  refine ⟨?_, ?_⟩
  · rintro w₁ delay w₂ rfl
    exact delayLaw_of_run h
  · rintro w₁ ok w₂ n rfl hn
    exact built_of_run h hn

/-- A source that lasts a second and one rebuild that fails: the second attempt waits 400 ms. -/
theorem backoff_law_sample : ∃ (before : List (Effect Nat)) (s : State Nat),
    before = [.built true, .sourceEnded ⟨1000000000⟩, .slept ⟨200000000⟩, .built false] ∧
      (process Nat .sample).Run (before ++ [.slept ⟨400000000⟩]) s ∧
      DelayLaw before ⟨400000000⟩ [] := by
  obtain ⟨w, s, h, hw⟩ := Machine.exists_run_of_exec (M := process Nat .sample)
    [.task (.build true), .task (.endSource ⟨1000000000⟩), .task .sleep, .task (.build false),
      .task .sleep]
    (fun w _ => w)
    [.built true, .sourceEnded ⟨1000000000⟩, .slept ⟨200000000⟩, .built false, .slept ⟨400000000⟩]
    (by decide +kernel)
  subst hw
  exact ⟨_, s, rfl, h, (backoff_law h).1 _ _ _ rfl⟩

end Iec104Bridge
