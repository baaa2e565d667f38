import Iec104Bridge.Framework.Machine
import Mathlib.Data.List.Nodup

/-!
# One job at a time

A worker takes a job and finishes it, or fails, before it takes the next one.
Unless it fails, the jobs taken are those finished, in the same order, and the
one it is at (`Worker.accounts`).
-/

namespace Framework

/-- `l` accounts for `l'`, but for what is lost. -/
structure Accounts {β : Type*} (lossless : Prop) (l l' : List β) : Prop where
  sublist : l.Sublist l'
  eq : lossless → l = l'

theorem Accounts.append {β : Type*} {p q : Prop} {l l' : List β} (h : Accounts p l l') (hq : q → p)
    (x : List β) : Accounts q (l ++ x) (l' ++ x) where
  sublist := h.sublist.append_right x
  eq hq' := by rw [h.eq (hq hq')]

theorem Accounts.weaken {β : Type*} {p q : Prop} {l l' : List β} (h : Accounts p l l') (hq : q → p) :
    Accounts q l l' where
  sublist := h.sublist
  eq hq' := h.eq (hq hq')

theorem Accounts.lose {β : Type*} {p q : Prop} {l l' m : List β} (h : Accounts p l l')
    (hm : m.Sublist l) (hq : ¬ q) : Accounts q m l' where
  sublist := hm.trans h.sublist
  eq hq' := absurd hq' hq

/-- A projection that keeps less of a log. -/
theorem filterMap_sublist {α β : Type*} {f g : α → Option β} (h : ∀ a b, f a = some b → g a = some b)
    (l : List α) : (l.filterMap f).Sublist (l.filterMap g) := by
  induction l with
  | nil => exact List.Sublist.refl _
  | cons a l ih =>
    rw [List.filterMap_cons, List.filterMap_cons]
    cases hf : f a with
    | none =>
      show (l.filterMap f).Sublist _
      split
      · exact ih
      · exact ih.cons _
    | some b =>
      rw [h a b hf]
      exact ih.cons_cons b

/-- In a log that mentions each value once, what mentions a value is unique. -/
theorem eq_of_filterMap_nodup {α β : Type*} {f : α → Option β} {l : List α} {a b : α} {x : β}
    (h : (l.filterMap f).Nodup) (ha : a ∈ l) (hb : b ∈ l) (hfa : f a = some x) (hfb : f b = some x) :
    a = b := by
  obtain ⟨l₁, l₂, rfl⟩ := List.append_of_mem ha
  rw [List.filterMap_append, List.filterMap_cons_some hfa, List.nodup_middle, List.nodup_cons,
    ← List.filterMap_append] at h
  rcases List.mem_append.mp hb with hb | hb
  · exact absurd (List.mem_filterMap.mpr ⟨b, List.mem_append_left _ hb, hfb⟩) h.1
  rcases List.mem_cons.mp hb with rfl | hb
  · rfl
  · exact absurd (List.mem_filterMap.mpr ⟨b, List.mem_append_right _ hb, hfb⟩) h.1

namespace Worker

inductive Event (ι : Type*)
  | take (id : ι)
  | finish (ok : Bool)

inductive Effect (ι : Type*)
  | taken (id : ι)
  | finished (id : ι)
  | failed (id : ι)

variable {ι : Type*}

def step : Option ι → Event ι → Option (Option ι × Option (Effect ι))
  | none, .take id => some (some id, some (.taken id))
  | some id, .finish ok => some (none, some (if ok then .finished id else .failed id))
  | _, _ => none

/-- A worker, whose state is the job it is at. -/
def machine (ι : Type*) : Machine (Option ι) (Event ι) (Effect ι) where
  init := none
  step := step

def Effect.toTaken : Effect ι → Option ι
  | .taken id => some id
  | _ => none

def Effect.toFinished : Effect ι → Option ι
  | .finished id => some id
  | _ => none

def taken (w : List (Effect ι)) : List ι := w.filterMap Effect.toTaken
def finished (w : List (Effect ι)) : List ι := w.filterMap Effect.toFinished

variable {w : List (Effect ι)} {s : Option ι}

theorem taken_append (w w' : List (Effect ι)) : taken (w ++ w') = taken w ++ taken w' :=
  List.filterMap_append ..

theorem finished_append (w w' : List (Effect ι)) : finished (w ++ w') = finished w ++ finished w' :=
  List.filterMap_append ..

/-- No job failed. -/
def Lossless (w : List (Effect ι)) : Prop := ∀ id, .failed id ∉ w

theorem Lossless.left {w' : List (Effect ι)} (h : Lossless (w ++ w')) : Lossless w :=
  fun id hm => h id (List.mem_append_left _ hm)

/-- The jobs finished and the one the worker is at are those it took, but for
the ones that failed. -/
theorem accounts (h : (machine ι).Run w s) :
    Accounts (Lossless w) (finished w ++ s.toList) (taken w) := by
  refine h.invariant (P := fun w s => Accounts (Lossless w) (finished w ++ s.toList) (taken w))
    ⟨List.Sublist.refl _, fun _ => rfl⟩ fun w s a t o _ ih hs => ?_
  cases s with
  | none =>
    cases a with
    | take id =>
      cases hs
      rw [finished_append, taken_append]
      show Accounts _ (finished w ++ [] ++ [id]) (taken w ++ [id])
      rw [List.append_nil]
      have ha := ih.append (q := Lossless (w ++ [.taken id])) Lossless.left [id]
      rwa [Option.toList_none, List.append_nil] at ha
    | finish => cases hs
  | some id =>
    cases a with
    | take => cases hs
    | finish ok =>
      cases hs
      rw [finished_append, taken_append]
      cases ok with
      | true =>
        show Accounts _ (finished w ++ [id] ++ []) (taken w ++ [])
        rw [List.append_nil, List.append_nil]
        exact ih.weaken Lossless.left
      | false =>
        show Accounts _ (finished w ++ [] ++ []) (taken w ++ [])
        rw [List.append_nil, List.append_nil, List.append_nil]
        exact ih.lose (List.sublist_append_left _ _) fun h => h id (by simp)

end Worker

end Framework
