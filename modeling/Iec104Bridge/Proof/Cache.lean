import Iec104Bridge.Framework.Last
import Iec104Bridge.Proof.Process

/-!
# The data store is last-write-wins

`cache_lookup` says what a run leaves in the data store: at each key, the last
of the points it wrote. The points written are the messages that arrived, with
the times they arrived, but for the one between its arrival and its insert
(`arrivals_eq`). No other step changes the data store (`cache_step`).
-/

namespace Iec104Bridge

open Framework

variable {ι : Type} {cfg : Settings} {s t : State ι} {w : List (Effect ι)}

/-- The key of a point. -/
def CachedPoint.key (defaultCa : UInt16) (point : CachedPoint) : Key := point.message.key defaultCa

/-- The point of a message that arrives. -/
def Effect.arrival : Effect ι → Option CachedPoint
  | .received _ message now => some ⟨message, now⟩
  | _ => none

/-- The point an insert writes. -/
def Effect.write : Effect ι → Option CachedPoint
  | .inserted _ point => some point
  | _ => none

def arrivals (w : List (Effect ι)) : List CachedPoint := w.filterMap Effect.arrival

def writes (w : List (Effect ι)) : List CachedPoint := w.filterMap Effect.write

theorem arrivals_append (w w' : List (Effect ι)) : arrivals (w ++ w') = arrivals w ++ arrivals w' :=
  List.filterMap_append ..

theorem writes_append (w w' : List (Effect ι)) : writes (w ++ w') = writes w ++ writes w' :=
  List.filterMap_append ..

theorem exists_inserted {point : CachedPoint} (h : point ∈ writes w) : ∃ id, .inserted id point ∈ w := by
  obtain ⟨e, he, hx⟩ := List.mem_filterMap.mp h
  cases e with
  | inserted id =>
    cases hx
    exact ⟨id, he⟩
  | _ => cases hx

/-- The message between its arrival and its insert. -/
def TaskPhase.arriving : TaskPhase ι → List CachedPoint
  | .received _ message now => [⟨message, now⟩]
  | _ => []

theorem GiStep.arrivals {conn : ConnId} {o : Option (Effect ι)} (h : GiStep cfg s conn t o) :
    arrivals o.toList = [] := by
  cases h <;> rfl

theorem GiStep.writes {conn : ConnId} {o : Option (Effect ι)} (h : GiStep cfg s conn t o) :
    writes o.toList = [] := by
  cases h <;> rfl

theorem TaskStep.arrivals {o : Option (Effect ι)} (h : TaskStep cfg s t o) :
    s.task.arriving ++ arrivals o.toList = writes o.toList ++ t.task.arriving := by
  cases h with
  | built h | ctrlC h => rcases h with h | h <;> rw [h] <;> rfl
  | receiveError => exact List.append_nil _
  | _ h => rw [h]; rfl

/-- What an insert does to the data store, and nothing else does. -/
theorem TaskStep.cache {o : Option (Effect ι)} (h : TaskStep cfg s t o) :
    t.cache = s.cache ∧ Iec104Bridge.writes o.toList = [] ∨
      ∃ id message now, s.task = .received id message now ∧ o = some (.inserted id ⟨message, now⟩) ∧
        t.cache = s.cache.insert (message.key cfg.defaultCa) ⟨message, now⟩ := by
  cases h with
  | @insert id message now h _ => exact .inr ⟨id, message, now, h, rfl, rfl⟩
  | _ => exact .inl ⟨rfl, rfl⟩

/-- Handling a message is the only step that changes the data store. -/
theorem cache_step {a : Event ι} {o : Option (Effect ι)}
    (h : (process ι cfg).step s a = some (t, o)) :
    t.cache = s.cache ∧ writes o.toList = [] ∨
      ∃ id message now, s.task = .received id message now ∧ o = some (.inserted id ⟨message, now⟩) ∧
        t.cache = s.cache.insert (message.key cfg.defaultCa) ⟨message, now⟩ := by
  rcases process_step h with h | ⟨conn, h⟩
  · exact h.cache
  · exact .inl ⟨h.frame.1, h.writes⟩

/-- The messages that arrived are those that were inserted, and the one that arrives. -/
theorem arrivals_eq (h : (process ι cfg).Run w s) : arrivals w = writes w ++ s.task.arriving := by
  refine h.invariant (P := fun w s => arrivals w = writes w ++ s.task.arriving) rfl
    fun w s a t o _ ih hs => ?_
  rw [arrivals_append, writes_append, ih, List.append_assoc, List.append_assoc]
  congr 1
  rcases process_step hs with hs | ⟨conn, hs⟩
  · exact hs.arrivals
  · rw [hs.arrivals, hs.writes, hs.frame.2.1, List.append_nil, List.nil_append]

/-- The data store holds the last point written at each key. -/
theorem cache_lookup (h : (process ι cfg).Run w s) (k : Key) :
    s.cache.lookup k = lastAt (CachedPoint.key cfg.defaultCa) k (writes w) := by
  refine h.invariant
    (P := fun w s => s.cache.lookup k = lastAt (CachedPoint.key cfg.defaultCa) k (writes w)) rfl
    fun w s a t o _ ih hs => ?_
  rw [writes_append]
  rcases cache_step hs with ⟨hc, hw⟩ | ⟨id, message, now, -, rfl, hc⟩
  · rw [hc, hw, List.append_nil, ih]
  · show t.cache.lookup k = lastAt _ k (writes w ++ [⟨message, now⟩])
    rw [hc, lastAt_concat]
    by_cases hk : message.key cfg.defaultCa = k
    · rw [← hk, Finmap.lookup_insert]
      exact (if_pos rfl).symm
    · rw [Finmap.lookup_insert_of_ne _ (Ne.symm hk), ih]
      exact (if_neg hk).symm

/-- A point is stored under its own key. -/
theorem cache_key (h : (process ι cfg).Run w s) {k : Key} {point : CachedPoint}
    (hk : s.cache.lookup k = some point) : point.key cfg.defaultCa = k := by
  rw [cache_lookup h] at hk
  exact lastAt_key hk

/-- No key disappears. -/
theorem cache_mono {w' : List (Effect ι)} (h : (process ι cfg).Steps s w' t) {k : Key}
    (hk : k ∈ s.cache) : k ∈ t.cache := by
  refine h.induct (P := fun _ t => k ∈ t.cache) hk fun w t a u o _ ih hs => ?_
  rcases cache_step hs with ⟨hc, -⟩ | ⟨id, message, now, -, -, hc⟩
  · rwa [hc]
  · rw [hc, Finmap.mem_insert]
    exact .inr ih

/-- The data store after a run that logged `w`. -/
structure LastWriteWins (cfg : Settings) (w : List (Effect ι)) (s : State ι) : Prop where
  handled : arrivals w = writes w ++ s.task.arriving
  mem_iff (k : Key) : k ∈ s.cache ↔ ∃ point ∈ writes w, point.key cfg.defaultCa = k
  lookup_iff (k : Key) (point : CachedPoint) : s.cache.lookup k = some point ↔
    ∃ before after, writes w = before ++ point :: after ∧ point.key cfg.defaultCa = k ∧
      ∀ later ∈ after, later.key cfg.defaultCa ≠ k
  key_eq (k : Key) (point : CachedPoint) : s.cache.lookup k = some point →
    k = (point.message.ca.getD cfg.defaultCa, point.message.ioa)

theorem lastWriteWins_of_run (h : (process ι cfg).Run w s) : LastWriteWins cfg w s where
  handled := arrivals_eq h
  mem_iff k := by
    rw [← Finmap.lookup_isSome, cache_lookup h, lastAt_isSome_iff]
  lookup_iff k point := by
    rw [cache_lookup h, lastAt_eq_some_iff]
  key_eq k point hk := (cache_key h hk).symm

/-- Along every run the data store is last-write-wins, only the insert of a
message that arrived changes it, and no key disappears. -/
theorem cache_lastWriteWins (h : (process ι cfg).Run w s) :
    LastWriteWins cfg w s ∧
      (∀ a t o, (process ι cfg).step s a = some (t, o) → t.cache ≠ s.cache →
        ∃ id message now, s.task = .received id message now ∧
          o = some (.inserted id ⟨message, now⟩) ∧
          t.cache = s.cache.insert (message.key cfg.defaultCa) ⟨message, now⟩) ∧
      ∀ w' t, (process ι cfg).Steps s w' t → ∀ k ∈ s.cache, k ∈ t.cache := by
  refine ⟨lastWriteWins_of_run h, fun a t o hs hne => ?_, fun w' t hs k hk => cache_mono hs hk⟩
  rcases cache_step hs with ⟨hc, -⟩ | hc
  · exact absurd hc hne
  · exact hc

/-- An update without a Common Address after one with the default, whose ack failed. -/
theorem cache_lastWriteWins_sample : ∃ w s,
    s.cache.lookup (1, 100) = some ⟨.sample 100 false, .sample 2⟩ ∧
      LastWriteWins .sample w s ∧
      (∀ a t o, (process Nat .sample).step s a = some (t, o) → t.cache ≠ s.cache →
        ∃ id message now, s.task = .received id message now ∧
          o = some (.inserted id ⟨message, now⟩) ∧
          t.cache = s.cache.insert (message.key 1) ⟨message, now⟩) ∧
      ∀ w' t, (process Nat .sample).Steps s w' t → ∀ k ∈ s.cache, k ∈ t.cache := by
  have h := Machine.run_of_exec (M := process Nat .sample)
    [.task (.build true), .task (.receive 0 { Iec104Message.sample 100 true with ca := some 1 } (.sample 1)),
      .task .insert, .task .dispatch, .task (.ack false),
      .task (.receive 1 (.sample 100 false) (.sample 2)), .task .insert] rfl
  exact ⟨_, _, by decide, cache_lastWriteWins h⟩

end Iec104Bridge
