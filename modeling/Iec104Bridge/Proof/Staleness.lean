import Iec104Bridge.Proof.Frames

/-!
# Staleness

Each data frame carries the publisher's quality bits, and NT when its point is
stale at the time it is sent (`frameQuality_of_run`). A point only grows older:
a replay that follows another reads the clock later (`replay_now_le`), so NT
stays until the point arrives again (`staleness`).
-/

namespace Iec104Bridge

open Framework

variable {ι : Type} {cfg : Settings} {s t : State ι} {w w₁ w₂ w₃ : List (Effect ι)} {conn : ConnId}

/-! ## Quality bits -/

theorem Quality.union_good (q : Quality) : q.union .GOOD = q := by
  rcases q with ⟨bits⟩
  simp [Quality.union, Quality.GOOD]

theorem wireQuality_eq (maxAge : Option Duration) (msg : Iec104Message)
    (receivedAt now : OffsetDateTime) :
    wireQuality maxAge msg receivedAt now =
      (mapQuality msg.quality).union
        (if Stale maxAge msg receivedAt now then .NOT_TOPICAL else .GOOD) := by
  unfold wireQuality
  by_cases h : Stale maxAge msg receivedAt now
  · rw [if_pos h, if_pos h]
  · rw [if_neg h, if_neg h, Quality.union_good]

/-- NT is the publisher's or the bridge's. -/
theorem notTopical_iff (maxAge : Option Duration) (msg : Iec104Message)
    (receivedAt now : OffsetDateTime) :
    (wireQuality maxAge msg receivedAt now).Contains .NOT_TOPICAL ↔
      msg.quality = .notTopical ∨ Stale maxAge msg receivedAt now := by
  unfold wireQuality
  by_cases h : Stale maxAge msg receivedAt now
  · rw [if_pos h]
    refine iff_of_true ?_ (.inr h)
    cases msg.quality <;> decide
  · rw [if_neg h]
    simp only [h, or_false]
    cases msg.quality <;> decide

theorem wireQuality_contains (maxAge : Option Duration) (msg : Iec104Message)
    (receivedAt now : OffsetDateTime) :
    (wireQuality maxAge msg receivedAt now).Contains (mapQuality msg.quality) := by
  unfold wireQuality
  by_cases h : Stale maxAge msg receivedAt now
  · rw [if_pos h]
    cases msg.quality <;> decide
  · rw [if_neg h]
    cases msg.quality <;> decide

/-- A stale message stays stale. -/
theorem Stale.mono {maxAge : Option Duration} {msg : Iec104Message}
    {receivedAt now later : OffsetDateTime} (h : Stale maxAge msg receivedAt now)
    (hl : now.unixTimestampNanos ≤ later.unixTimestampNanos) :
    Stale maxAge msg receivedAt later := by
  obtain ⟨a, ha, hq, h | ⟨t, ht, h⟩⟩ := h
  · refine ⟨a, ha, hq, .inl ?_⟩
    simp only [OffsetDateTime.sub] at h ⊢
    omega
  · refine ⟨a, ha, hq, .inr ⟨t, ht, ?_⟩⟩
    simp only [OffsetDateTime.sub] at h ⊢
    omega

/-- The quality of the frame of `point` sent at `now`. -/
structure FrameQuality (cfg : Settings) (now : OffsetDateTime) (asdu : Asdu) (point : CachedPoint) :
    Prop where
  /-- The publisher's bits, and NT if and only if the point is stale. -/
  bits : asdu.object.quality = (mapQuality point.message.quality).union
    (if Stale cfg.policy.maxAge point.message point.receivedAt now then .NOT_TOPICAL else .GOOD)
  kept : asdu.object.quality.Contains (mapQuality point.message.quality)
  /-- A stale arrival shows, whatever the source time. -/
  arrival (a : Duration) : cfg.policy.maxAge = some a → point.message.quality ≠ .invalid →
    (a.asNanos : Int) < now.sub point.receivedAt → asdu.object.quality.Contains .NOT_TOPICAL
  /-- Whether source times are sent makes no difference. -/
  timestamps (sendTimestamps : Bool) :
    (pointFrame { cfg.policy with sendTimestamps } cfg.defaultCa point.message point.receivedAt
      now).object.quality = asdu.object.quality

theorem FrameOf.quality {now : OffsetDateTime} {asdu : Asdu} {point : CachedPoint}
    (h : FrameOf cfg now asdu point) :
    asdu.object.quality = wireQuality cfg.policy.maxAge point.message point.receivedAt now := by
  obtain ⟨cot, -, rfl⟩ := h
  rfl

theorem FrameOf.frameQuality {now : OffsetDateTime} {asdu : Asdu} {point : CachedPoint}
    (h : FrameOf cfg now asdu point) : FrameQuality cfg now asdu point where
  bits := by rw [h.quality, wireQuality_eq]
  kept := by
    rw [h.quality]
    exact wireQuality_contains _ _ _ _
  arrival a ha hq hlt := by
    rw [h.quality, notTopical_iff]
    exact .inr ⟨a, ha, hq, .inl hlt⟩
  timestamps sendTimestamps := by
    rw [h.quality]
    rfl

/-! ## The clock -/

/-- What a step reads from the clock. -/
def Effect.reading : Effect ι → Option OffsetDateTime
  | .received _ _ now => some now
  | .locked _ now => some now
  | _ => none

/-- What a replay reads from the clock. -/
def Effect.lockReading : Effect ι → Option OffsetDateTime
  | .locked _ now => some now
  | _ => none

/-- The clock never goes back. -/
def ClockSorted (w : List (Effect ι)) : Prop :=
  (w.filterMap Effect.reading).Pairwise fun a b => a.unixTimestampNanos ≤ b.unixTimestampNanos

theorem reading_of_lockReading {now : OffsetDateTime} (h : now ∈ w.filterMap Effect.lockReading) :
    now ∈ w.filterMap Effect.reading := by
  obtain ⟨e, he, hn⟩ := List.mem_filterMap.mp h
  refine List.mem_filterMap.mpr ⟨e, he, ?_⟩
  cases e with
  | locked => exact hn
  | _ => cases hn

theorem TaskStep.lockReading {o : Option (Effect ι)} (h : TaskStep cfg s t o) :
    o.toList.filterMap Effect.lockReading = [] := by
  cases h <;> rfl

/-- The time of a replay is what the last one to take the lock read. -/
theorem replaying_now (h : (process ι cfg).Run w s) {now : OffsetDateTime}
    {todo : List CachedPoint} {sink : ConnectionSink} (hgi : s.gi conn = .replaying now todo sink) :
    (w.filterMap Effect.lockReading).getLast? = some now := by
  refine h.invariant
    (P := fun w s => ∀ c now todo sink, s.gi c = .replaying now todo sink →
      (w.filterMap Effect.lockReading).getLast? = some now)
    (fun c now todo sink hc => by simp [process, State.initial] at hc)
    (fun w s a t o hr ih hs => ?_) conn now todo sink hgi
  intro c now todo sink hc
  rw [List.filterMap_append]
  rcases process_step hs with hs | ⟨conn, hs⟩
  · rw [hs.lockReading, List.append_nil]
    rw [hs.frame.1] at hc
    exact ih c now todo sink hc
  · by_cases hcc : c = conn
    · subst hcc
      cases hs with
      | lock =>
        simp only [State.setGi_gi_self, GiPhase.replaying.injEq] at hc
        obtain ⟨rfl, -⟩ := hc
        exact List.getLast?_concat
      | send hp =>
        simp only [State.setGi_gi_self, GiPhase.replaying.injEq] at hc
        obtain ⟨rfl, -⟩ := hc
        show (_ ++ []).getLast? = _
        rw [List.append_nil]
        exact ih c _ _ _ hp
      | _ => simp at hc
    · rw [hs.gi_of_ne hcc] at hc
      have hl : s.dataLock = some c := (dataLock_iff hr c).mpr (by rw [hc]; trivial)
      have ho : o.toList.filterMap Effect.lockReading = [] := by
        cases hs with
        | lock _ hn => exact absurd (hn.symm.trans hl) (by simp)
        | _ => rfl
      rw [ho, List.append_nil]
      exact ih c now todo sink hc

theorem giData_now {now : OffsetDateTime} {asdu : Asdu} {sent : Bool}
    (h : (process ι cfg).Run (w₁ ++ .giData conn now asdu sent :: w₂) s) :
    (w₁.filterMap Effect.lockReading).getLast? = some now := by
  obtain ⟨t, a, t', hr, hs, -⟩ := h.split
  rcases process_step hs with hs | ⟨conn, hs⟩
  · cases hs
  · cases hs with
    | send hgi => exact replaying_now hr hgi

/-- Of two frames of replays, the second is sent at a later time. -/
theorem replay_now_le {conn₁ conn₂ : ConnId} {now₁ now₂ : OffsetDateTime} {asdu₁ asdu₂ : Asdu}
    {sent₁ sent₂ : Bool}
    (h : (process ι cfg).Run
      (w₁ ++ .giData conn₁ now₁ asdu₁ sent₁ :: w₂ ++ .giData conn₂ now₂ asdu₂ sent₂ :: w₃) s)
    (hc : ClockSorted (w₁ ++ .giData conn₁ now₁ asdu₁ sent₁ :: w₂)) :
    now₁.unixTimestampNanos ≤ now₂.unixTimestampNanos := by
  have h₂ := giData_now h
  rw [List.append_assoc] at h
  have h₁ := giData_now h
  rw [List.filterMap_append] at h₂
  change (_ ++ w₂.filterMap Effect.lockReading).getLast? = _ at h₂
  rcases hw : w₂.filterMap Effect.lockReading with _ | ⟨x, l⟩
  · rw [hw, List.append_nil, h₁] at h₂
    exact le_of_eq (congrArg _ (Option.some.inj h₂))
  · -- another replay took the lock in between
    have hm : now₂ ∈ w₂.filterMap Effect.lockReading := by
      rw [List.getLast?_append, hw, List.getLast?_cons, Option.some_or] at h₂
      rw [hw]
      exact List.mem_of_getLast? (by rw [List.getLast?_cons]; exact h₂)
    have hs : ClockSorted w₁ ∧ _ ∧ _ := List.pairwise_append.mp (by
      rw [ClockSorted, List.filterMap_append] at hc
      exact hc)
    exact hs.2.2 now₁ (reading_of_lockReading (List.mem_of_getLast? h₁)) now₂
      (reading_of_lockReading (w := w₂) hm)

/-! ## Whole runs -/

/-- The ASDU is addressed to the point at `k`. -/
def Asdu.At (asdu : Asdu) (k : Key) : Prop :=
  asdu.ca = u16AsI32 k.1 ∧ asdu.object.ioa = u32AsI32 k.2

theorem FrameOf.at_iff {now : OffsetDateTime} {asdu : Asdu} {point : CachedPoint} {k : Key}
    (h : FrameOf cfg now asdu point) : asdu.At k ↔ point.key cfg.defaultCa = k := by
  obtain ⟨cot, -, rfl⟩ := h
  constructor
  · rintro ⟨hca, hioa⟩
    exact Prod.ext (u16AsI32_inj hca) (u32AsI32_inj hioa)
  · rintro rfl
    exact ⟨rfl, rfl⟩

/-- Each data frame of a run is that of the last point to arrive at its
address, with the quality of its age. -/
theorem frameQuality_of_run {e : Effect ι} {now : OffsetDateTime} {asdu : Asdu}
    (h : (process ι cfg).Run (w₁ ++ e :: w₂) s) (he : e.frame = some (now, asdu)) :
    ∃ k point, asdu.At k ∧ lastAt (CachedPoint.key cfg.defaultCa) k (writes w₁) = some point ∧
      FrameOf cfg now asdu point ∧ FrameQuality cfg now asdu point := by
  obtain ⟨point, -, hl, hf⟩ := frame_of_run h he
  exact ⟨_, point, hf.at_iff.mpr rfl, hl, hf, hf.frameQuality⟩

/-- NT in a replay stays in the next replay of a point that did not arrive in between. -/
theorem notTopical_stays {conn₁ conn₂ : ConnId} {now₁ now₂ : OffsetDateTime} {asdu₁ asdu₂ : Asdu}
    {sent₁ sent₂ : Bool} {k : Key}
    (h : (process ι cfg).Run
      (w₁ ++ .giData conn₁ now₁ asdu₁ sent₁ :: w₂ ++ .giData conn₂ now₂ asdu₂ sent₂ :: w₃) s)
    (hc : ClockSorted (w₁ ++ .giData conn₁ now₁ asdu₁ sent₁ :: w₂))
    (h₁ : asdu₁.At k) (h₂ : asdu₂.At k)
    (hw : ∀ point ∈ writes w₂, point.key cfg.defaultCa ≠ k)
    (hn : asdu₁.object.quality.Contains .NOT_TOPICAL) :
    asdu₂.object.quality.Contains .NOT_TOPICAL := by
  have hle := replay_now_le h hc
  obtain ⟨p₂, -, hl₂, hf₂⟩ := frame_of_run h rfl
  rw [List.append_assoc] at h
  obtain ⟨p₁, -, hl₁, hf₁⟩ := frame_of_run h rfl
  -- both frames are of the last point written before the first
  rw [hf₂.at_iff.mp h₂, writes_append, lastAt_append] at hl₂
  rw [hf₁.at_iff.mp h₁] at hl₁
  change (lastAt _ k (writes w₂)).or _ = _ at hl₂
  rw [lastAt_eq_none_iff.mpr hw, hl₁] at hl₂
  obtain rfl : p₁ = p₂ := Option.some.inj hl₂
  rw [hf₁.quality, notTopical_iff] at hn
  rw [hf₂.quality, notTopical_iff]
  exact hn.imp_right fun hs => hs.mono hle

/-- In a run with a clock that never goes back, each data frame has the
publisher's quality bits, and NT if and only if the last arrival at its
address, or its source time, is older than the limit; and NT in a replay stays
until the point arrives again. -/
theorem staleness (h : (process ι cfg).Run w s) (hc : ClockSorted w) :
    (∀ w₁ e w₂ now asdu, w = w₁ ++ e :: w₂ → e.frame = some (now, asdu) →
      ∃ k point, asdu.At k ∧ lastAt (CachedPoint.key cfg.defaultCa) k (writes w₁) = some point ∧
        FrameOf cfg now asdu point ∧ FrameQuality cfg now asdu point) ∧
    ∀ w₁ w₂ w₃ conn₁ conn₂ now₁ now₂ asdu₁ asdu₂ sent₁ sent₂ k,
      w = w₁ ++ .giData conn₁ now₁ asdu₁ sent₁ :: w₂ ++ .giData conn₂ now₂ asdu₂ sent₂ :: w₃ →
      asdu₁.At k → asdu₂.At k → (∀ point ∈ writes w₂, point.key cfg.defaultCa ≠ k) →
      asdu₁.object.quality.Contains .NOT_TOPICAL → asdu₂.object.quality.Contains .NOT_TOPICAL := by
  constructor
  · rintro w₁ e w₂ now asdu rfl he
    exact frameQuality_of_run h he
  · rintro w₁ w₂ w₃ conn₁ conn₂ now₁ now₂ asdu₁ asdu₂ sent₁ sent₂ k rfl h₁ h₂ hw hn
    refine notTopical_stays h ?_ h₁ h₂ hw hn
    rw [ClockSorted, List.filterMap_append] at hc
    exact (List.pairwise_append.mp hc).1

/-- A point that arrived at 1 s, replayed at 10 s and at 20 s with a limit of 5 s. -/
theorem staleness_sample : ∃ w s now asdu,
    (process Nat { Settings.sample with policy := { maxAge := some (.fromSecs 5) } }).Run w s ∧
      w.getLast? = some (.giData 0 now asdu true) ∧ asdu.object.quality.Contains .NOT_TOPICAL := by
  have h := Machine.run_of_exec
    (M := process Nat { Settings.sample with policy := { maxAge := some (.fromSecs 5) } })
    [.task (.build true), .task (.receive 0 (.sample 100 true) (.sample 1)), .task .insert,
      .gi 0 (.request QOI_STATION), .gi 0 (.confirm true),
      .gi 0 (.lock (.sample 10) [⟨.sample 100 true, .sample 1⟩]), .gi 0 (.send true), .gi 0 .unlock,
      .gi 0 .count, .gi 0 (.terminate true), .gi 0 (.request QOI_STATION), .gi 0 (.confirm true),
      .gi 0 (.lock (.sample 20) [⟨.sample 100 true, .sample 1⟩]), .gi 0 (.send true)] rfl
  have hs := staleness h (by unfold ClockSorted; decide)
  refine ⟨_, _, .sample 20, _, h, rfl, ?_⟩
  exact hs.2 [.built true, .received 0 (.sample 100 true) (.sample 1),
      .inserted 0 ⟨.sample 100 true, .sample 1⟩, .requested 0 QOI_STATION, .actCon 0 false true,
      .locked 0 (.sample 10)]
    [.giCounted 0, .actTerm 0 true, .requested 0 QOI_STATION, .actCon 0 false true,
      .locked 0 (.sample 20)] [] 0 0 (.sample 10) _ _ _ true true (1, 100) rfl ⟨rfl, rfl⟩ ⟨rfl, rfl⟩
    (by decide) (by decide)

end Iec104Bridge
