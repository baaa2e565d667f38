import Mathlib.Data.Fintype.Defs
import Mathlib.Data.List.Perm.Basic
import Mathlib.Logic.Function.Basic

/-!
# Records read from named values

A `Schema` says what a record is read from: the name of each field, how its
value is read, and what stands for a field that is missing, if anything.
`Schema.readMap` reads named values in one pass, ignores the names it does not
know and refuses a field that comes twice; `Schema.readSeq` reads the values of
the fields by their position. `readMap_iff` says what is accepted without the
pass: the fields do not depend on each other (`collect_iff`), so neither their
order nor the other names matter.
-/

namespace Framework

structure Schema (ι κ V : Type*) (T : ι → Type*) where
  name : ι → κ
  /-- The field with a name. -/
  ofName : κ → Option ι
  ofName_iff {k : κ} {i : ι} : ofName k = some i ↔ name i = k
  read (i : ι) : V → Option (T i)
  missing (i : ι) : Option (T i)
  /-- What stands for a value that is missing at the end of a sequence. -/
  missingSeq (i : ι) : Option (T i)

namespace Schema

variable {ι κ V : Type*} {T : ι → Type*}

/-- What was read of the fields. -/
abbrev Slots (T : ι → Type*) := (i : ι) → Option (T i)

/-- The record, if no slot is empty. -/
def build [Fintype ι] (slots : Slots T) : Option ((i : ι) → T i) :=
  if h : ∀ i, (slots i).isSome then some fun i => (slots i).get (h i) else none

variable {S : Schema ι κ V T} {slots slots' : Slots T} {fields : List (κ × V)} {r : (i : ι) → T i}

theorem build_eq_some_iff [Fintype ι] : build slots = some r ↔ ∀ i, slots i = some (r i) := by
  unfold build
  constructor
  · intro h i
    split at h <;> cases h
    exact (Option.some_get _).symm
  · intro h
    have hs : ∀ i, (slots i).isSome := fun i => by rw [h i]; rfl
    rw [dif_pos hs]
    refine congrArg some (funext fun i => ?_)
    exact Option.get_of_eq_some (hs i) (h i)

/-! ## One field -/

/-- The pass, for one field. -/
def slot (S : Schema ι κ V T) (i : ι) : Option (T i) → List V → Option (Option (T i))
  | s, [] => some s
  | some _, _ :: _ => none
  | none, value :: values => (S.read i value).bind fun v => S.slot i (some v) values

theorem slot_none_iff {i : ι} {values : List V} {s : Option (T i)} :
    S.slot i none values = some s ↔
      (values = [] ∧ s = none) ∨ ∃ value v, values = [value] ∧ S.read i value = some v ∧ s = some v := by
  cases values with
  | nil => simp [slot, eq_comm]
  | cons value values =>
    cases values with
    | nil =>
      simp only [slot, Option.bind_eq_some_iff, Option.some.injEq, List.cons.injEq, and_true, reduceCtorEq,
        false_and, false_or]
      constructor
      · rintro ⟨v, hv, rfl⟩
        exact ⟨value, v, rfl, hv, rfl⟩
      · rintro ⟨_, v, rfl, hv, rfl⟩
        exact ⟨v, hv, rfl⟩
    | cons => simp [slot]

section

variable [DecidableEq κ]

/-- The values under the name of a field. -/
def valuesOf (S : Schema ι κ V T) (i : ι) (fields : List (κ × V)) : List V :=
  (fields.filter fun field => field.1 = S.name i).map Prod.snd

theorem valuesOf_cons_self {i : ι} {field : κ × V} (h : S.name i = field.1) :
    S.valuesOf i (field :: fields) = field.2 :: S.valuesOf i fields := by
  simp [valuesOf, h]

theorem valuesOf_cons_of_ne {i : ι} {field : κ × V} (h : S.name i ≠ field.1) :
    S.valuesOf i (field :: fields) = S.valuesOf i fields := by
  simp [valuesOf, Ne.symm h]

end

/-! ## Maps and sequences -/

variable [DecidableEq ι]

/-- Reads one named value. -/
def insert (S : Schema ι κ V T) (slots : Slots T) (field : κ × V) : Option (Slots T) :=
  match S.ofName field.1 with
  | none => some slots
  | some i =>
    match slots i with
    | some _ => none
    | none => (S.read i field.2).map fun v => Function.update slots i (some v)

def collect (S : Schema ι κ V T) : Slots T → List (κ × V) → Option (Slots T)
  | slots, [] => some slots
  | slots, field :: fields => (S.insert slots field).bind fun slots => S.collect slots fields

def readMap [Fintype ι] (S : Schema ι κ V T) (fields : List (κ × V)) : Option ((i : ι) → T i) :=
  (S.collect (fun _ => none) fields).bind fun slots => build fun i => (slots i).or (S.missing i)

/-- Reads the values of the fields `order`. -/
def collectSeq (S : Schema ι κ V T) : List ι → List V → Slots T → Option (Slots T)
  | [], [], slots => some slots
  | [], _ :: _, _ => none
  | i :: order, [], slots =>
    (S.missingSeq i).bind fun v => S.collectSeq order [] (Function.update slots i (some v))
  | i :: order, value :: values, slots =>
    (S.read i value).bind fun v => S.collectSeq order values (Function.update slots i (some v))

def readSeq [Fintype ι] (S : Schema ι κ V T) (order : List ι) (values : List V) :
    Option ((i : ι) → T i) := (S.collectSeq order values fun _ => none).bind build

/-! ## Sequences -/

/-- What stands for what is missing, once it is known that nothing else follows. -/
theorem build_or_of_some [Fintype ι] {i : ι} {v : T i} (hs : slots i = none) (hm : S.missing i = some v) :
    (build fun j => (Function.update slots i (some v) j).or (S.missing j)) =
      build fun j => (slots j).or (S.missing j) := by
  refine congrArg build (funext fun j => ?_)
  by_cases hj : j = i
  · subst hj
    rw [Function.update_self, hs, hm]
    rfl
  · rw [Function.update_of_ne hj]

/-- The fields `order` are left to read, and the others are read. -/
theorem collectSeq_eq [Fintype ι] {order : List ι} {values : List V} (hnd : order.Nodup)
    (hnone : ∀ i ∈ order, slots i = none) (hsome : ∀ i ∉ order, (slots i).isSome)
    (hlen : values.length ≤ order.length)
    (hm : ∀ i ∈ order.drop values.length, S.missingSeq i = S.missing i) :
    (S.collectSeq order values slots).bind build =
      (S.collect slots ((order.map S.name).zip values)).bind fun slots =>
        build fun i => (slots i).or (S.missing i) := by
  induction order generalizing values slots with
  | nil =>
    obtain rfl : values = [] := List.length_eq_zero_iff.mp (Nat.le_zero.mp hlen)
    show build slots = build fun i => (slots i).or (S.missing i)
    refine congrArg build (funext fun i => ?_)
    obtain ⟨v, hv⟩ := Option.isSome_iff_exists.mp (hsome i List.not_mem_nil)
    rw [hv, Option.some_or]
  | cons i order ih =>
    obtain ⟨hi, hnd⟩ := List.nodup_cons.mp hnd
    have hs : slots i = none := hnone i List.mem_cons_self
    have hnone' (v : T i) : ∀ j ∈ order, Function.update slots i (some v) j = none := fun j hj => by
      have hne : j ≠ i := fun h => hi (h ▸ hj)
      rw [Function.update_of_ne hne, hnone j (List.mem_cons_of_mem _ hj)]
    have hsome' (v : T i) : ∀ j ∉ order, (Function.update slots i (some v) j).isSome := fun j hj => by
      by_cases hji : j = i
      · subst hji
        rw [Function.update_self]
        rfl
      · rw [Function.update_of_ne hji]
        exact hsome j fun h => (List.mem_cons.mp h).elim hji hj
    cases values with
    | nil =>
      have hmi := hm i List.mem_cons_self
      cases hv : S.missing i with
      | none =>
        have hbuild : (build fun j => (slots j).or (S.missing j)) = none := by
          refine Option.eq_none_iff_forall_ne_some.mpr fun r hr => ?_
          have := build_eq_some_iff.mp hr i
          rw [hs, hv] at this
          cases this
        rw [collectSeq, hmi, hv]
        exact hbuild.symm
      | some v =>
        have hrest := ih hnd (hnone' v) (hsome' v)
          (show ([] : List V).length ≤ order.length from Nat.zero_le _)
          fun j hj => hm j (List.mem_cons_of_mem _ hj)
        rw [collectSeq, hmi, hv, Option.bind_some, hrest, List.zip_nil_right, List.zip_nil_right]
        exact build_or_of_some hs hv
    | cons value values =>
      have hinsert : S.insert slots (S.name i, value) =
          (S.read i value).map fun v => Function.update slots i (some v) := by
        simp [insert, S.ofName_iff.mpr rfl, hs]
      rw [collectSeq, List.map_cons, List.zip_cons_cons, collect, hinsert]
      cases S.read i value with
      | none => rfl
      | some v =>
        exact ih hnd (hnone' v) (hsome' v) (Nat.le_of_succ_le_succ hlen) hm

/-- A sequence is read as the map from the names of the fields to its values. -/
theorem readSeq_eq [Fintype ι] {order : List ι} {values : List V} (hnd : order.Nodup)
    (hall : ∀ i, i ∈ order) (hlen : values.length ≤ order.length)
    (hm : ∀ i ∈ order.drop values.length, S.missingSeq i = S.missing i) :
    S.readSeq order values = S.readMap ((order.map S.name).zip values) :=
  collectSeq_eq hnd (fun _ _ => rfl) (fun i hi => absurd (hall i) hi) hlen hm

/-- Nothing is read from a sequence that is too long, or ends before a field
that must be there. -/
theorem readSeq_eq_none [Fintype ι] {order : List ι} {values : List V}
    (h : order.length < values.length ∨ ∃ i ∈ order.drop values.length, S.missingSeq i = none) :
    S.readSeq order values = none := by
  have hnone : ∀ slots, S.collectSeq order values slots = none := by
    induction order generalizing values with
    | nil =>
      cases values with
      | nil => simp at h
      | cons => exact fun _ => rfl
    | cons i order ih =>
      intro slots
      cases values with
      | nil =>
        obtain h | ⟨j, hj, hm⟩ := h
        · cases h
        rw [collectSeq]
        rcases List.mem_cons.mp hj with rfl | hj
        · rw [hm]
          rfl
        · have hlast : ∃ i ∈ order.drop ([] : List V).length, S.missingSeq i = none := ⟨j, hj, hm⟩
          exact Option.bind_eq_none_iff.mpr fun v _ => ih (.inr hlast) _
      | cons value values =>
        rw [collectSeq]
        exact Option.bind_eq_none_iff.mpr fun v _ => ih (h.imp_left Nat.lt_of_succ_lt_succ) _
  rw [readSeq, hnone]
  rfl

/-! ## Maps -/

variable [DecidableEq κ]

/-- The pass is that of each field by itself. -/
theorem collect_iff : S.collect slots fields = some slots' ↔
    ∀ i, S.slot i (slots i) (S.valuesOf i fields) = some (slots' i) := by
  induction fields generalizing slots with
  | nil => simp [collect, valuesOf, slot, funext_iff]
  | cons field fields ih =>
    rw [collect]
    cases hk : S.ofName field.1 with
    | none =>
      -- no field has this name
      have hne (i : ι) : S.name i ≠ field.1 := fun h => by simp [S.ofName_iff.mpr h] at hk
      have hinsert : S.insert slots field = some slots := by simp [insert, hk]
      rw [hinsert, Option.bind_some, ih]
      exact forall_congr' fun i => by rw [valuesOf_cons_of_ne (hne i)]
    | some i =>
      have hi : S.name i = field.1 := S.ofName_iff.mp hk
      have hne (j : ι) (hj : j ≠ i) : S.name j ≠ field.1 := fun h => by
        rw [S.ofName_iff.mpr h] at hk
        exact hj (Option.some.inj hk)
      cases hs : slots i with
      | some v =>
        have hinsert : S.insert slots field = none := by simp [insert, hk, hs]
        rw [hinsert]
        refine iff_of_false (by simp) fun h => ?_
        have := h i
        rw [hs, valuesOf_cons_self hi] at this
        cases this
      | none =>
        cases hv : S.read i field.2 with
        | none =>
          have hinsert : S.insert slots field = none := by simp [insert, hk, hs, hv]
          rw [hinsert]
          refine iff_of_false (by simp) fun h => ?_
          have := h i
          rw [hs, valuesOf_cons_self hi, slot, hv] at this
          cases this
        | some v =>
          have hinsert : S.insert slots field = some (Function.update slots i (some v)) := by
            simp [insert, hk, hs, hv]
          rw [hinsert, Option.bind_some, ih]
          refine forall_congr' fun j => ?_
          by_cases hj : j = i
          · subst hj
            rw [Function.update_self, valuesOf_cons_self hi, hs, slot, hv, Option.bind_some]
          · rw [Function.update_of_ne hj, valuesOf_cons_of_ne (hne j hj)]

/-- What a record is read from: each field has one value, which is read, or none and may be
missing. -/
def Describes (S : Schema ι κ V T) (fields : List (κ × V)) (r : (i : ι) → T i) : Prop :=
  ∀ i, (∃ value, S.valuesOf i fields = [value] ∧ S.read i value = some (r i)) ∨
    (S.valuesOf i fields = [] ∧ S.missing i = some (r i))

theorem readMap_iff [Fintype ι] : S.readMap fields = some r ↔ S.Describes fields r := by
  rw [readMap, Option.bind_eq_some_iff]
  constructor
  · rintro ⟨slots, hc, hb⟩ i
    have hc := slot_none_iff.mp (collect_iff.mp hc i)
    have hb := build_eq_some_iff.mp hb i
    rcases hc with ⟨hn, hs⟩ | ⟨value, v, hn, hv, hs⟩
    · rw [hs, Option.none_or] at hb
      exact .inr ⟨hn, hb⟩
    · rw [hs, Option.some_or] at hb
      exact .inl ⟨value, hn, hv.trans hb⟩
  · intro h
    refine ⟨fun i => if S.valuesOf i fields = [] then none else some (r i),
      collect_iff.mpr fun i => slot_none_iff.mpr ?_, build_eq_some_iff.mpr fun i => ?_⟩
    · rcases h i with ⟨value, hn, hv⟩ | ⟨hn, -⟩
      · exact .inr ⟨value, r i, hn, hv, by simp [hn]⟩
      · exact .inl ⟨hn, if_pos hn⟩
    · rcases h i with ⟨value, hn, -⟩ | ⟨hn, hm⟩
      · simp [hn]
      · simp [hn, hm]

/-- The order of the fields does not matter, nor do other names. -/
theorem readMap_perm [Fintype ι] {fields' : List (κ × V)}
    (h : ∀ i, (S.valuesOf i fields).Perm (S.valuesOf i fields')) : S.readMap fields = S.readMap fields' := by
  refine Option.ext fun r => ?_
  rw [readMap_iff, readMap_iff]
  refine forall_congr' fun i => or_congr (exists_congr fun value => and_congr_left' ?_) (and_congr_left' ?_)
  · rw [← List.perm_singleton, ← List.perm_singleton, (h i).congr_left]
  · rw [← List.perm_nil, ← List.perm_nil, (h i).congr_left]

end Schema

end Framework
