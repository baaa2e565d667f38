import Iec104Bridge.Proof.Cache

/-!
# The data frames of a run

A replay holds the lock of the data store from its first frame to its last
(`dataLock_iff`), so the points it still has to send stay those in the data
store (`replaying_points`), and so does the message between its insert and its
dispatch (`cached_lookup`). Each data frame is therefore the frame of the last
point written at its key (`frame_of_run`).
-/

namespace Iec104Bridge

open Framework

variable {ι : Type} {cfg : Settings} {s t : State ι} {w w₁ w₂ : List (Effect ι)} {conn : ConnId}

/-- The callback holds the lock of the data store. -/
def GiPhase.Holds : GiPhase → Prop
  | .replaying .. => True
  | _ => False

theorem GiStep.dataLock {o : Option (Effect ι)} (h : GiStep cfg s conn t o)
    (hs : ∀ c, s.dataLock = some c ↔ (s.gi c).Holds) (c : ConnId) :
    t.dataLock = some c ↔ (t.gi c).Holds := by
  by_cases hc : c = conn
  · subst hc
    have hsc := hs c
    cases h with
    | lock => simp [GiPhase.Holds, State.setGi]
    | unlock => simp [GiPhase.Holds, State.setGi]
    | send h =>
      rw [h] at hsc
      simpa [GiPhase.Holds] using hsc
    | request h | refuse h | confirm h | count h | terminate h =>
      rw [h] at hsc
      simpa [GiPhase.Holds] using hsc
  · rw [h.gi_of_ne hc, ← hs c]
    cases h with
    | lock _ hl =>
      show some conn = some c ↔ _
      rw [hl]
      simp [Ne.symm hc]
    | unlock h =>
      -- the lock goes from `conn` to nobody
      have hl : s.dataLock = some conn := (hs conn).mpr (by rw [h]; trivial)
      rw [hl]
      simp [Ne.symm hc]
    | _ => rfl

/-- The lock is held by the callback that replays. -/
theorem dataLock_iff (h : (process ι cfg).Run w s) (c : ConnId) :
    s.dataLock = some c ↔ (s.gi c).Holds := by
  refine h.invariant (P := fun _ s => ∀ c, s.dataLock = some c ↔ (s.gi c).Holds)
    (fun c => by simp [process, State.initial, GiPhase.Holds]) (fun w s a t o _ ih hs => ?_) c
  intro c
  rcases process_step hs with hs | ⟨conn, hs⟩
  · rw [hs.frame.1, hs.frame.2.1]
    exact ih c
  · exact hs.dataLock ih c

/-- The points of the data store. -/
def DataStore.points (store : DataStore) : Multiset CachedPoint := store.entries.map Sigma.snd

theorem mem_points_iff {store : DataStore} {point : CachedPoint} :
    point ∈ store.points ↔ ∃ k, store.lookup k = some point := by
  simp only [DataStore.points, Multiset.mem_map, Sigma.exists, exists_eq_right]
  exact exists_congr fun k => Finmap.mem_lookup_iff.symm

/-- The task does not write to the data store while a replay holds its lock. -/
theorem TaskStep.cache_of_locked {o : Option (Effect ι)} (h : TaskStep cfg s t o)
    (hl : s.dataLock = some conn) : t.cache = s.cache := by
  cases h with
  | insert _ hn => exact absurd (hn.symm.trans hl) (by simp)
  | _ => rfl

/-- The points a replay still has to send are in the data store. -/
theorem replaying_points (h : (process ι cfg).Run w s) {now : OffsetDateTime}
    {todo : List CachedPoint} {sink : ConnectionSink}
    (hgi : s.gi conn = .replaying now todo sink) : (todo : Multiset CachedPoint) ≤ s.cache.points := by
  refine h.invariant
    (P := fun _ s => ∀ c now (todo : List CachedPoint) sink, s.gi c = .replaying now todo sink →
      (todo : Multiset CachedPoint) ≤ s.cache.points)
    (fun c now todo sink hc => by simp [process, State.initial] at hc)
    (fun w s a t o hr ih hs => ?_) conn now todo sink hgi
  intro c now todo sink hc
  rcases process_step hs with hs | ⟨conn, hs⟩
  · rw [hs.frame.1] at hc
    have hl : s.dataLock = some c := (dataLock_iff hr c).mpr (by rw [hc]; trivial)
    rw [hs.cache_of_locked hl]
    exact ih c now todo sink hc
  · rw [hs.frame.1]
    by_cases hcc : c = conn
    · subst hcc
      cases hs with
      | lock _ _ ho =>
        simp only [State.setGi_gi_self, GiPhase.replaying.injEq] at hc
        obtain ⟨rfl, rfl, rfl⟩ := hc
        exact ho.le
      | @send _ point _ _ _ hp =>
        simp only [State.setGi_gi_self, GiPhase.replaying.injEq] at hc
        obtain ⟨rfl, rfl, rfl⟩ := hc
        exact le_trans (Multiset.le_cons_self _ point) (ih c _ _ _ hp)
      | _ => simp at hc
    · rw [hs.gi_of_ne hcc] at hc
      exact ih c now todo sink hc

theorem replaying_lookup (h : (process ι cfg).Run w s) {now : OffsetDateTime}
    {todo : List CachedPoint} {sink : ConnectionSink} {point : CachedPoint}
    (hgi : s.gi conn = .replaying now todo sink) (hp : point ∈ todo) :
    s.cache.lookup (point.key cfg.defaultCa) = some point := by
  have hm : point ∈ s.cache.points := Multiset.mem_of_le (replaying_points h hgi) hp
  obtain ⟨k, hk⟩ := mem_points_iff.mp hm
  rwa [cache_key h hk]

/-- Between its insert and its dispatch a message stays in the data store. -/
theorem cached_lookup (h : (process ι cfg).Run w s) {id : ι} {message : Iec104Message}
    {now : OffsetDateTime} (ht : s.task = .cached id message now) :
    s.cache.lookup (message.key cfg.defaultCa) = some ⟨message, now⟩ := by
  refine h.invariant
    (P := fun _ s => ∀ id message now, s.task = .cached id message now →
      s.cache.lookup (message.key cfg.defaultCa) = some ⟨message, now⟩)
    (fun id message now h => by simp [process, State.initial] at h)
    (fun w s a t o _ ih hs => ?_) id message now ht
  intro id message now ht
  rcases process_step hs with hs | ⟨conn, hs⟩
  · cases hs with
    | insert =>
      obtain ⟨rfl, rfl, rfl⟩ : _ ∧ _ ∧ _ := by simpa using ht
      exact Finmap.lookup_insert _
    | receiveError => exact ih id message now ht
    | _ => simp at ht
  · rw [hs.frame.1]
    rw [hs.frame.2.1] at ht
    exact ih id message now ht

/-- Every message written is valid. -/
theorem writes_valid (h : (process ι cfg).Run w s) : ∀ point ∈ writes w, point.message.Valid := by
  have h₂ : (∀ id message now, s.task = .received id message now → message.Valid) ∧
      ∀ point ∈ writes w, point.message.Valid := by
    refine h.invariant
      (P := fun w s => (∀ id message now, s.task = .received id message now → message.Valid) ∧
        ∀ point ∈ writes w, point.message.Valid)
      ⟨fun id message now h => by simp [process, State.initial] at h, fun _ h => by cases h⟩
      fun w s a t o _ ⟨ih₁, ih₂⟩ hs => ?_
    rcases process_step hs with hs | ⟨conn, hs⟩
    · refine ⟨fun id message now ht => ?_, fun point hp => ?_⟩
      · cases hs with
        | receive _ hv =>
          obtain ⟨rfl, rfl, rfl⟩ : _ ∧ _ ∧ _ := by simpa using ht
          exact hv
        | receiveError => exact ih₁ id message now ht
        | _ => simp at ht
      · rw [writes_append] at hp
        rcases List.mem_append.mp hp with hp | hp
        · exact ih₂ point hp
        · cases hs with
          | @insert id message now h _ =>
            obtain rfl : point = ⟨message, now⟩ := by simpa [writes, Effect.write] using hp
            exact ih₁ id message now h
          | _ => simp [writes, Effect.write] at hp
    · rw [writes_append, hs.writes, List.append_nil, hs.frame.2.1]
      exact ⟨ih₁, ih₂⟩
  exact h₂.2

/-- The data frame an effect sends, with the time it is sent at. -/
def Effect.frame : Effect ι → Option (OffsetDateTime × Asdu)
  | .handed _ now asdu => some (now, asdu)
  | .giData _ now asdu _ => some (now, asdu)
  | _ => none

/-- The frame is that of `point`, or that of `point` as a replay sends it. -/
def FrameOf (cfg : Settings) (now : OffsetDateTime) (asdu : Asdu) (point : CachedPoint) : Prop :=
  ∃ cot, (cot = point.message.cot ∨ cot = .interrogated) ∧
    asdu = pointFrame cfg.policy cfg.defaultCa { point.message with cot } point.receivedAt now

/-- Each data frame is that of the last point written at its key. -/
theorem frame_of_run {e : Effect ι} {now : OffsetDateTime} {asdu : Asdu}
    (h : (process ι cfg).Run (w₁ ++ e :: w₂) s) (he : e.frame = some (now, asdu)) :
    ∃ point, point.message.Valid ∧
      lastAt (CachedPoint.key cfg.defaultCa) (point.key cfg.defaultCa) (writes w₁) = some point ∧
      FrameOf cfg now asdu point := by
  obtain ⟨t, a, t', hr, hs, -⟩ := h.split
  have hlast : ∀ point, t.cache.lookup (point.key cfg.defaultCa) = some point →
      point.message.Valid ∧
        lastAt (CachedPoint.key cfg.defaultCa) (point.key cfg.defaultCa) (writes w₁) = some point := by
    intro point hp
    rw [cache_lookup hr] at hp
    obtain ⟨l₁, l₂, hw, -⟩ := lastAt_eq_some_iff.mp hp
    exact ⟨writes_valid hr point (by rw [hw]; simp), hp⟩
  rcases process_step hs with hs | ⟨conn, hs⟩
  · cases hs with
    | @dispatch id message now' ht _ =>
      obtain ⟨rfl, rfl⟩ : _ ∧ _ := by simpa [Effect.frame] using he
      obtain ⟨hv, hl⟩ := hlast ⟨message, now'⟩ (cached_lookup hr ht)
      exact ⟨⟨message, now'⟩, hv, hl, message.cot, .inl rfl, rfl⟩
    | _ => simp [Effect.frame] at he
  · cases hs with
    | @send now' point _ _ _ hgi =>
      obtain ⟨rfl, rfl⟩ : _ ∧ _ := by simpa [Effect.frame] using he
      obtain ⟨hv, hl⟩ := hlast point (replaying_lookup hr hgi (by simp))
      exact ⟨point, hv, hl, .interrogated, .inr rfl, rfl⟩
    | _ => simp [Effect.frame] at he

/-- Each data frame is that of a message that arrived. -/
theorem arrival_of_frame {e : Effect ι} {now : OffsetDateTime} {asdu : Asdu}
    (h : (process ι cfg).Run w s) (he : e ∈ w) (hf : e.frame = some (now, asdu)) :
    ∃ point ∈ arrivals w, point.message.Valid ∧ FrameOf cfg now asdu point := by
  obtain ⟨w₁, w₂, rfl⟩ := List.append_of_mem he
  obtain ⟨point, hv, hl, hframe⟩ := frame_of_run h hf
  refine ⟨point, ?_, hv, hframe⟩
  obtain ⟨t, hr, -⟩ := h.cut
  rw [arrivals_append, arrivals_eq hr]
  exact List.mem_append_left _ (List.mem_append_left _ (mem_of_lastAt hl))

end Iec104Bridge
