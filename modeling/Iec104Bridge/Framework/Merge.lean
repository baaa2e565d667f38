import Iec104Bridge.Framework.Last

/-!
# Merged streams

A list whose elements are tagged with their sources merges one stream for each
source, `ofSource`. Where no two sources have a key in common, the last element
for a key does not depend on how the streams are merged (`lastAt_merge`).
-/

namespace Framework

variable {ι α κ : Type*} [DecidableEq ι]

/-- What comes from source `c`, in order. -/
def ofSource (c : ι) (l : List (ι × α)) : List α :=
  l.filterMap fun x => if x.1 = c then some x.2 else none

theorem mem_ofSource {c : ι} {l : List (ι × α)} {a : α} : a ∈ ofSource c l ↔ (c, a) ∈ l := by
  rw [ofSource, List.mem_filterMap]
  constructor
  · rintro ⟨⟨d, b⟩, hm, hx⟩
    split at hx <;> cases hx
    rename_i hd
    obtain rfl : d = c := hd
    exact hm
  · exact fun h => ⟨_, h, if_pos rfl⟩

/-- The streams say which elements there are. -/
theorem mem_of_merge {l l' : List (ι × α)} (h : ∀ c, ofSource c l = ofSource c l') {x : ι × α}
    (hx : x ∈ l) : x ∈ l' := by
  rw [← mem_ofSource, ← h]
  exact mem_ofSource.mpr hx

variable [DecidableEq κ] {key : α → κ}

/-- The elements of a key come from its source, in the order of the stream. -/
theorem filter_ofSource {c : ι} {k : κ} {l : List (ι × α)} (h : ∀ x ∈ l, key x.2 = k → x.1 = c) :
    (l.map Prod.snd).filter (fun a => key a = k) = (ofSource c l).filter fun a => key a = k := by
  induction l with
  | nil => rfl
  | cons x l ih =>
    have ih := ih fun y hy => h y (List.mem_cons_of_mem x hy)
    rw [List.map_cons, ofSource, List.filterMap_cons]
    by_cases hk : key x.2 = k
    · rw [if_pos (h x List.mem_cons_self hk), List.filter_cons_of_pos (by simpa using hk),
        List.filter_cons_of_pos (by simpa using hk), ih]
      rfl
    · rw [List.filter_cons_of_neg (by simpa using hk), ih]
      by_cases hc : x.1 = c
      · rw [if_pos hc]
        show _ = (x.2 :: ofSource c l).filter fun a => key a = k
        rw [List.filter_cons_of_neg (by simpa using hk)]
      · rw [if_neg hc]
        rfl

/-- Two merges of the same streams have the same last element for each key, if
no two sources have a key in common. -/
theorem lastAt_merge {l l' : List (ι × α)} (h : ∀ c, ofSource c l = ofSource c l')
    (hk : ∀ x ∈ l, ∀ y ∈ l, key x.2 = key y.2 → x.1 = y.1) (k : κ) :
    lastAt key k (l.map Prod.snd) = lastAt key k (l'.map Prod.snd) := by
  by_cases hx : ∃ x ∈ l, key x.2 = k
  · obtain ⟨x, hm, rfl⟩ := hx
    have hl : ∀ y ∈ l, key y.2 = key x.2 → y.1 = x.1 := fun y hy => hk y hy x hm
    have hl' : ∀ y ∈ l', key y.2 = key x.2 → y.1 = x.1 := fun y hy =>
      hl y (mem_of_merge (fun c => (h c).symm) hy)
    rw [lastAt, lastAt, filter_ofSource hl, filter_ofSource hl', h]
  · -- neither list has the key
    have hnone {m : List (ι × α)} (hm : ∀ x ∈ m, x ∈ l) : lastAt key k (m.map Prod.snd) = none := by
      refine lastAt_eq_none_iff.mpr fun a ha he => hx ?_
      obtain ⟨x, hxm, rfl⟩ := List.mem_map.mp ha
      exact ⟨x, hm x hxm, he⟩
    rw [hnone fun x hx => hx, hnone fun x hx => mem_of_merge (fun c => (h c).symm) hx]

end Framework
