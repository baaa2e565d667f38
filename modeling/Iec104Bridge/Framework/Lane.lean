import Iec104Bridge.Framework.Worker
import Mathlib.Data.List.Sublists
import Mathlib.Data.List.Perm.Subperm
import Mathlib.Data.List.Range

/-!
# Requests answered at once or by a worker

A reader numbers the requests of a stream. It answers a rejected request
itself, before it reads the next one, and puts an accepted one in a queue, from
which a worker takes and finishes one at a time. `Lane.Inv` keeps account of
every request. The answers of each kind come in the order of the requests, and
an answer comes before that of an earlier request only if it is a rejection
(`answers_pairwise`); they all come in order if and only if no rejection does
(`answers_inOrder_iff`).
-/

namespace Framework

/-- A stream of requests, accepted with an `α` or rejected with a `ρ`. -/
structure Lane (α ρ : Type*) where
  /-- The number of requests read. -/
  lines : Nat
  /-- The request the reader is at. -/
  slot : Option (Nat × Except ρ α)
  queue : List (Nat × α)
  /-- The request the worker is at. -/
  working : Option Nat
  /-- The worker is gone, and the queue with it. -/
  closed : Bool

namespace Lane

variable {α ρ : Type*}

inductive Event (α ρ : Type*)
  | read (verdict : Except ρ α)
  | reply (ok : Bool)
  | forward
  /-- The reader gives up a request that it cannot forward. -/
  | leave
  | take
  | finish (ok : Bool)
  | close

inductive Effect (α ρ : Type*)
  | read (n : Nat) (verdict : Except ρ α)
  | replied (n : Nat) (reply : ρ)
  | replyFailed (n : Nat)
  | taken (n : Nat) (request : α)
  | finished (n : Nat)
  | failed (n : Nat)

def step (s : Lane α ρ) : Event α ρ → Option (Lane α ρ × Option (Effect α ρ))
  | .read verdict =>
    match s.slot with
    | none =>
      some ({ s with lines := s.lines + 1, slot := some (s.lines, verdict) }, some (.read s.lines verdict))
    | some _ => none
  | .reply ok =>
    match s.slot with
    | some (n, .error r) =>
      some ({ s with slot := none }, some (if ok then .replied n r else .replyFailed n))
    | _ => none
  | .forward =>
    match s.slot, s.closed with
    | some (n, .ok a), false => some ({ s with slot := none, queue := s.queue ++ [(n, a)] }, none)
    | _, _ => none
  | .leave =>
    match s.slot, s.closed with
    | some (_, .ok _), true => some ({ s with slot := none }, none)
    | _, _ => none
  | .take =>
    match s.queue, s.working, s.closed with
    | (n, a) :: queue, none, false => some ({ s with queue, working := some n }, some (.taken n a))
    | _, _, _ => none
  | .finish ok =>
    match s.working with
    | some n => some ({ s with working := none }, some (if ok then .finished n else .failed n))
    | none => none
  | .close =>
    match s.working with
    | none => some ({ s with queue := [], closed := true }, none)
    | some _ => none

/-- A lane, from before its first request. -/
def machine (α ρ : Type*) : Machine (Lane α ρ) (Event α ρ) (Effect α ρ) where
  init := ⟨0, none, [], none, false⟩
  step := step

/-! ## What a log says -/

def Effect.toRead : Effect α ρ → Option (Nat × Except ρ α)
  | .read n verdict => some (n, verdict)
  | _ => none

def Effect.toTaken : Effect α ρ → Option (Nat × α)
  | .taken n a => some (n, a)
  | _ => none

def Effect.toReplied : Effect α ρ → Option (Nat × ρ)
  | .replied n r => some (n, r)
  | _ => none

def Effect.toFinished : Effect α ρ → Option Nat
  | .finished n => some n
  | _ => none

/-- The number of a request that is answered, and its rejection. -/
def Effect.toAnswer : Effect α ρ → Option (Nat × Option ρ)
  | .replied n r => some (n, some r)
  | .finished n => some (n, none)
  | _ => none

def reads (w : List (Effect α ρ)) : List (Nat × Except ρ α) := w.filterMap Effect.toRead
def taken (w : List (Effect α ρ)) : List (Nat × α) := w.filterMap Effect.toTaken
def replied (w : List (Effect α ρ)) : List (Nat × ρ) := w.filterMap Effect.toReplied
def finished (w : List (Effect α ρ)) : List Nat := w.filterMap Effect.toFinished
def answers (w : List (Effect α ρ)) : List (Nat × Option ρ) := w.filterMap Effect.toAnswer

/-- The accepted part of a verdict. -/
def acceptance : Nat × Except ρ α → Option (Nat × α)
  | (n, .ok a) => some (n, a)
  | (_, .error _) => none

def rejection : Nat × Except ρ α → Option (Nat × ρ)
  | (n, .error r) => some (n, r)
  | (_, .ok _) => none

def accepted (w : List (Effect α ρ)) : List (Nat × α) := (reads w).filterMap acceptance
def rejected (w : List (Effect α ρ)) : List (Nat × ρ) := (reads w).filterMap rejection

/-- The accepted request the reader is at. -/
def slotAccepted (s : Lane α ρ) : List (Nat × α) := s.slot.toList.filterMap acceptance

def slotRejected (s : Lane α ρ) : List (Nat × ρ) := s.slot.toList.filterMap rejection

section

variable (w w' : List (Effect α ρ))

theorem reads_append : reads (w ++ w') = reads w ++ reads w' := List.filterMap_append ..
theorem taken_append : taken (w ++ w') = taken w ++ taken w' := List.filterMap_append ..
theorem replied_append : replied (w ++ w') = replied w ++ replied w' := List.filterMap_append ..
theorem finished_append : finished (w ++ w') = finished w ++ finished w' := List.filterMap_append ..
theorem answers_append : answers (w ++ w') = answers w ++ answers w' := List.filterMap_append ..
theorem accepted_append : accepted (w ++ w') = accepted w ++ accepted w' := by
  rw [accepted, reads_append, List.filterMap_append]
  rfl
theorem rejected_append : rejected (w ++ w') = rejected w ++ rejected w' := by
  rw [rejected, reads_append, List.filterMap_append]
  rfl

end

/-! ## Numbered lists -/

section

variable {β γ : Type*} {l : List (Nat × β)}

theorem fst_of_numbered (hl : l.map Prod.fst = List.range l.length) {i : Nat} (hi : i < l.length) :
    l[i].1 = i := by
  have hn : (l.map Prod.fst)[i]? = (List.range l.length)[i]? := by rw [hl]
  rw [List.getElem?_map, List.getElem?_eq_getElem hi, List.getElem?_range hi] at hn
  exact Option.some.inj hn

/-- Each element stands at its number. -/
theorem getElem?_of_numbered (hl : l.map Prod.fst = List.range l.length) {x : Nat × β} (hx : x ∈ l) :
    l[x.1]? = some x := by
  obtain ⟨i, hi, rfl⟩ := List.getElem_of_mem hx
  rw [fst_of_numbered hl hi, List.getElem?_eq_getElem hi]

/-- The elements are images of the first ones of another list, in order. -/
theorem prefix_of_numbered {m : List γ} {f : γ → β} (hl : l.map Prod.fst = List.range l.length)
    (h : ∀ x ∈ l, m[x.1]?.map f = some x.2) : l.map Prod.snd <+: m.map f := by
  rw [List.prefix_iff_getElem?]
  intro i hi
  rw [List.length_map] at hi
  have hm := h l[i] (List.getElem_mem hi)
  rw [fst_of_numbered hl hi] at hm
  rw [List.getElem?_map, hm, List.getElem_map]

end

/-! ## The account of a lane -/

/-- What a log and the state after it say of each other. -/
structure Inv (w : List (Effect α ρ)) (s : Lane α ρ) : Prop where
  numbered : (reads w).map Prod.fst = List.range s.lines
  slot (x : Nat × Except ρ α) : s.slot = some x → x.1 + 1 = s.lines ∧ x ∈ reads w
  /-- An accepted request was taken, waits, or was lost with the queue. -/
  acceptances : Accounts (s.closed = false) (taken w ++ s.queue ++ s.slotAccepted) (accepted w)
  rejections : Accounts (∀ n, .replyFailed n ∉ w) (replied w ++ s.slotRejected) (rejected w)
  finishes : Accounts (∀ n, .failed n ∉ w) (finished w ++ s.working.toList) ((taken w).map Prod.fst)
  working_open : s.working.isSome → s.closed = false

/-- The account after a step that reads nothing, from what the step moves. -/
theorem Inv.next {w : List (Effect α ρ)} {s t : Lane α ρ} {o : Option (Effect α ρ)} (hi : Inv w s)
    (ts : List (Nat × α)) (ps : List (Nat × ρ)) (fs : List Nat)
    (hr : reads o.toList = []) (ht : taken o.toList = ts) (hp : replied o.toList = ps)
    (hf : finished o.toList = fs) (hl : t.lines = s.lines)
    (hs : ∀ x, t.slot = some x → s.slot = some x)
    (ha : Accounts (t.closed = false) (taken w ++ (ts ++ t.queue) ++ t.slotAccepted) (accepted w))
    (hj : Accounts (∀ n, .replyFailed n ∉ w ++ o.toList) (replied w ++ (ps ++ t.slotRejected))
      (rejected w))
    (hd : Accounts (∀ n, .failed n ∉ w ++ o.toList) (finished w ++ (fs ++ t.working.toList))
      ((taken w).map Prod.fst ++ ts.map Prod.fst))
    (ho : t.working.isSome → t.closed = false) : Inv (w ++ o.toList) t where
  numbered := by rw [reads_append, hr, List.append_nil, hi.numbered, hl]
  slot x hx := by
    rw [reads_append, hr, List.append_nil, hl]
    exact hi.slot x (hs x hx)
  acceptances := by
    rw [taken_append, accepted, reads_append, hr, ht, List.append_nil, List.append_assoc (taken w)]
    exact ha
  rejections := by
    rw [replied_append, rejected, reads_append, hr, hp, List.append_nil, List.append_assoc (replied w)]
    exact hj
  finishes := by
    rw [finished_append, taken_append, hf, ht, List.append_assoc, List.map_append]
    exact hd
  working_open := ho

theorem forall_notMem_append {w w' : List (Effect α ρ)} {f : Nat → Effect α ρ}
    (h : ∀ n, f n ∉ w ++ w') : ∀ n, f n ∉ w :=
  fun n hn => h n (List.mem_append_left _ hn)

theorem Inv.read {w : List (Effect α ρ)} {s : Lane α ρ} (hi : Inv w s) (verdict : Except ρ α)
    (hs : s.slot = none) :
    Inv (w ++ [.read s.lines verdict])
      { s with lines := s.lines + 1, slot := some (s.lines, verdict) } where
  numbered := by
    rw [reads_append, List.map_append, hi.numbered, List.range_succ]
    rfl
  slot x hx := by
    obtain rfl : (s.lines, verdict) = x := Option.some.inj hx
    refine ⟨rfl, ?_⟩
    rw [reads_append]
    exact List.mem_append_right _ (List.mem_singleton_self _)
  acceptances := by
    have ha := hi.acceptances.append id ([(s.lines, verdict)].filterMap acceptance)
    rw [slotAccepted, hs, Option.toList_none, List.filterMap_nil, List.append_nil] at ha
    rw [accepted_append, taken_append]
    show Accounts _ (taken w ++ [] ++ s.queue ++ _) _
    rw [List.append_nil]
    exact ha
  rejections := by
    have hj := hi.rejections.append (q := ∀ n, .replyFailed n ∉ w ++ [.read s.lines verdict])
      forall_notMem_append ([(s.lines, verdict)].filterMap rejection)
    rw [slotRejected, hs, Option.toList_none, List.filterMap_nil, List.append_nil] at hj
    rw [rejected_append, replied_append]
    show Accounts _ (replied w ++ [] ++ _) _
    rw [List.append_nil]
    exact hj
  finishes := by
    rw [taken_append, finished_append]
    show Accounts _ (finished w ++ [] ++ s.working.toList) ((taken w ++ []).map Prod.fst)
    rw [List.append_nil, List.append_nil]
    exact hi.finishes.weaken forall_notMem_append
  working_open := hi.working_open

theorem inv_step {w : List (Effect α ρ)} {s t : Lane α ρ} {e : Event α ρ} {o : Option (Effect α ρ)}
    (hi : Inv w s) (h : step s e = some (t, o)) : Inv (w ++ o.toList) t := by
  have ha := hi.acceptances
  have hj := hi.rejections
  have hd := hi.finishes
  cases e with
  | read verdict =>
    simp only [step] at h
    split at h <;> cases h
    exact hi.read verdict ‹_›
  | reply ok =>
    simp only [step] at h
    split at h <;> cases h
    rename_i n r hs
    rw [slotAccepted, hs] at ha
    rw [slotRejected, hs] at hj
    have hd' : Accounts (∀ n', .failed n' ∉ w ++ [if ok then .replied n r else .replyFailed n])
        (finished w ++ s.working.toList) ((taken w).map Prod.fst ++ []) := by
      rw [List.append_nil]
      exact hd.weaken forall_notMem_append
    cases ok with
    | true =>
      exact hi.next [] [(n, r)] [] rfl rfl rfl rfl rfl (fun x hx => by cases hx) ha
        (hj.weaken forall_notMem_append) hd' hi.working_open
    | false =>
      refine hi.next [] [] [] rfl rfl rfl rfl rfl (fun x hx => by cases hx) ha ?_ hd' hi.working_open
      exact hj.lose (by simp [slotRejected]) fun h => h n (by simp)
  | forward =>
    simp only [step] at h
    split at h <;> cases h
    rename_i n a hs hc
    rw [slotAccepted, hs] at ha
    rw [slotRejected, hs] at hj
    refine hi.next [] [] [] rfl rfl rfl rfl rfl (fun x hx => by cases hx) ?_
      (hj.weaken forall_notMem_append) ?_ hi.working_open
    · show Accounts _ (taken w ++ (s.queue ++ [(n, a)]) ++ []) _
      rw [List.append_nil, ← List.append_assoc]
      exact ha
    · rw [List.map_nil, List.append_nil]
      exact hd.weaken forall_notMem_append
  | leave =>
    simp only [step] at h
    split at h <;> cases h
    rename_i n a hs hc
    rw [slotRejected, hs] at hj
    refine hi.next [] [] [] rfl rfl rfl rfl rfl (fun x hx => by cases hx) ?_
      (hj.weaken forall_notMem_append) ?_ hi.working_open
    · refine ha.lose ?_ (by simp [hc])
      exact (List.Sublist.refl _).append (List.nil_sublist _)
    · rw [List.map_nil, List.append_nil]
      exact hd.weaken forall_notMem_append
  | take =>
    simp only [step] at h
    split at h <;> cases h
    rename_i n a queue hq hw hc
    rw [hq] at ha
    rw [hw, Option.toList_none, List.append_nil] at hd
    refine hi.next [(n, a)] [] [] rfl rfl rfl rfl rfl (fun x hx => hx) ha
      (hj.weaken forall_notMem_append) ?_ fun _ => hc
    exact hd.append forall_notMem_append [n]
  | finish ok =>
    simp only [step] at h
    split at h <;> cases h
    rename_i n hw
    rw [hw] at hd
    cases ok with
    | true =>
      refine hi.next [] [] [n] rfl rfl rfl rfl rfl (fun x hx => hx) ha
        (hj.weaken forall_notMem_append) ?_ fun h => by cases h
      rw [List.map_nil, List.append_nil]
      exact hd.weaken forall_notMem_append
    | false =>
      refine hi.next [] [] [] rfl rfl rfl rfl rfl (fun x hx => hx) ha
        (hj.weaken forall_notMem_append) ?_ fun h => by cases h
      rw [List.map_nil, List.append_nil]
      refine hd.lose ?_ fun h => h n (by simp)
      exact (List.Sublist.refl _).append (List.nil_sublist _)
  | close =>
    simp only [step] at h
    split at h <;> cases h
    rename_i hw
    refine hi.next [] [] [] rfl rfl rfl rfl rfl (fun x hx => hx) ?_
      (hj.weaken forall_notMem_append) ?_ fun h => by rw [hw] at h; cases h
    · refine ha.lose ?_ (by simp)
      exact ((List.Sublist.refl _).append (List.nil_sublist _)).append (List.Sublist.refl _)
    · rw [List.map_nil, List.append_nil]
      exact hd.weaken forall_notMem_append

/-- An accepted request stays at the reader until it is in the queue, or the queue is closed. -/
theorem slot_step {s t : Lane α ρ} {e : Event α ρ} {o : Option (Effect α ρ)}
    (h : step s e = some (t, o)) {n : Nat} {a : α} (hs : s.slot = some (n, .ok a)) :
    t.slot = some (n, .ok a) ∨ t.queue = s.queue ++ [(n, a)] ∨ t.closed = true := by
  cases e with
  | read => simp [step, hs] at h
  | reply => simp [step, hs] at h
  | forward =>
    simp only [step] at h
    split at h <;> cases h
    rename_i hs' _
    cases hs.symm.trans hs'
    exact .inr (.inl rfl)
  | leave =>
    simp only [step] at h
    split at h <;> cases h
    exact .inr (.inr ‹_›)
  | take | finish | close =>
    simp only [step] at h
    split at h <;> cases h
    exact .inl hs

/-- The worker stays at a request until it finishes it or fails. -/
theorem working_step {s t : Lane α ρ} {e : Event α ρ} {o : Option (Effect α ρ)}
    (h : step s e = some (t, o)) {n : Nat} (hw : s.working = some n) :
    t.working = some n ∨ o = some (.finished n) ∨ o = some (.failed n) := by
  cases e with
  | take => simp [step, hw] at h
  | close => simp [step, hw] at h
  | finish ok =>
    simp only [step, hw] at h
    cases h
    cases ok with
    | true => exact .inr (.inl rfl)
    | false => exact .inr (.inr rfl)
  | _ =>
    simp only [step] at h
    split at h <;> cases h
    exact .inl hw

theorem inv_of_run {w : List (Effect α ρ)} {s : Lane α ρ} (h : (machine α ρ).Run w s) : Inv w s := by
  have h₀ : Inv ([] : List (Effect α ρ)) (machine α ρ).init :=
    { numbered := rfl
      slot := fun x hx => by cases hx
      acceptances := ⟨List.Sublist.refl _, fun _ => rfl⟩
      rejections := ⟨List.Sublist.refl _, fun _ => rfl⟩
      finishes := ⟨List.Sublist.refl _, fun _ => rfl⟩
      working_open := fun _ => rfl }
  exact h.invariant (P := Inv) h₀ fun w s a t o _ hi hs => inv_step hi hs

/-! ## Numbers -/

section

variable {w : List (Effect α ρ)} {s t : Lane α ρ}

theorem mem_accepted {n : Nat} {a : α} : (n, a) ∈ accepted w ↔ (n, .ok a) ∈ reads w := by
  simp only [accepted, List.mem_filterMap, Prod.exists]
  constructor
  · rintro ⟨m, v, hm, hv⟩
    cases v with
    | ok b =>
      cases hv
      exact hm
    | error => cases hv
  · intro h
    exact ⟨n, .ok a, h, rfl⟩

theorem mem_rejected {n : Nat} {r : ρ} : (n, r) ∈ rejected w ↔ (n, .error r) ∈ reads w := by
  simp only [rejected, List.mem_filterMap, Prod.exists]
  constructor
  · rintro ⟨m, v, hm, hv⟩
    cases v with
    | error b =>
      cases hv
      exact hm
    | ok => cases hv
  · intro h
    exact ⟨n, .error r, h, rfl⟩

theorem reads_sorted (hi : Inv w s) : (reads w).Pairwise fun a b => a.1 < b.1 := by
  have h := List.pairwise_lt_range (n := s.lines)
  rw [← hi.numbered, List.pairwise_map] at h
  exact h

/-- What is picked from the requests keeps their order. -/
theorem filterMap_sorted {β : Type*} {f : Nat × Except ρ α → Option (Nat × β)} (hi : Inv w s)
    (hf : ∀ x y, f x = some y → y.1 = x.1) :
    ((reads w).filterMap f).Pairwise fun a b => a.1 < b.1 := by
  refine List.pairwise_filterMap.mpr ((reads_sorted hi).imp fun hlt a ha b hb => ?_)
  rw [hf _ _ ha, hf _ _ hb]
  exact hlt

theorem accepted_sorted (hi : Inv w s) : (accepted w).Pairwise fun a b => a.1 < b.1 := by
  refine filterMap_sorted hi ?_
  rintro ⟨n, v⟩ y h
  cases v <;> cases h
  rfl

theorem rejected_sorted (hi : Inv w s) : (rejected w).Pairwise fun a b => a.1 < b.1 := by
  refine filterMap_sorted hi ?_
  rintro ⟨n, v⟩ y h
  cases v <;> cases h
  rfl

/-- A request has one verdict. -/
theorem read_unique (hi : Inv w s) {n : Nat} {v v' : Except ρ α} (h : (n, v) ∈ reads w)
    (h' : (n, v') ∈ reads w) : v = v' := by
  have hn : ((reads w).map Prod.fst).Nodup := by
    rw [hi.numbered]
    exact List.nodup_range
  exact congrArg Prod.snd (List.inj_on_of_nodup_map hn h h' rfl)

theorem read_lt (hi : Inv w s) {n : Nat} {v : Except ρ α} (h : (n, v) ∈ reads w) : n < s.lines := by
  have := List.mem_map_of_mem (f := Prod.fst) h
  rw [hi.numbered] at this
  exact List.mem_range.mp this

/-! ## Answers -/

/-- Each answer is a rejection or a request finished. -/
theorem length_answers (w : List (Effect α ρ)) :
    (answers w).length = (replied w).length + (finished w).length := by
  induction w with
  | nil => rfl
  | cons e w ih =>
    simp only [answers, replied, finished] at ih ⊢
    cases e with
    | replied | finished =>
      simp only [List.filterMap_cons, Effect.toAnswer, Effect.toReplied, Effect.toFinished,
        List.length_cons]
      omega
    | _ => exact ih

/-- Each request is accepted or rejected. -/
theorem length_verdicts (l : List (Nat × Except ρ α)) :
    l.length = (l.filterMap acceptance).length + (l.filterMap rejection).length := by
  induction l with
  | nil => rfl
  | cons x l ih =>
    obtain ⟨n, _ | a⟩ := x
    · simp only [List.filterMap_cons, acceptance, rejection, List.length_cons]
      omega
    · simp only [List.filterMap_cons, acceptance, rejection, List.length_cons]
      omega

/-- Each request is answered, or at the reader, in the queue or at the worker. -/
theorem length_reads (hi : Inv w s) (hc : s.closed = false) (hf : ∀ n, .failed n ∉ w)
    (hr : ∀ n, .replyFailed n ∉ w) : (reads w).length =
      (answers w).length + (s.slot.toList.length + s.queue.length + s.working.toList.length) := by
  have ha := congrArg List.length (hi.acceptances.eq hc)
  have hj := congrArg List.length (hi.rejections.eq hr)
  have hd := congrArg List.length (hi.finishes.eq hf)
  have hs := length_verdicts s.slot.toList
  have hl := length_verdicts (reads w)
  rw [List.length_append, List.length_append] at ha
  rw [List.length_append] at hj
  rw [List.length_append, List.length_map] at hd
  simp only [slotAccepted, accepted] at ha
  simp only [slotRejected, rejected] at hj
  have hw := length_answers w
  omega

theorem mem_answers_some {n : Nat} {r : ρ} : (n, some r) ∈ answers w ↔ (n, r) ∈ replied w := by
  simp only [answers, replied, List.mem_filterMap]
  constructor <;> rintro ⟨e, he, h⟩ <;> refine ⟨e, he, ?_⟩ <;> cases e <;> simp_all [Effect.toAnswer, Effect.toReplied]

theorem mem_answers_none {n : Nat} : (n, none) ∈ answers w ↔ n ∈ finished w := by
  simp only [answers, finished, List.mem_filterMap]
  constructor <;> rintro ⟨e, he, h⟩ <;> refine ⟨e, he, ?_⟩ <;> cases e <;> simp_all [Effect.toAnswer, Effect.toFinished]

theorem replied_read (hi : Inv w s) {n : Nat} {r : ρ} (h : (n, r) ∈ replied w) :
    (n, .error r) ∈ reads w :=
  mem_rejected.mp (hi.rejections.sublist.subset (List.mem_append_left _ h))

theorem taken_read (hi : Inv w s) {n : Nat} {a : α} (h : (n, a) ∈ taken w) : (n, .ok a) ∈ reads w :=
  mem_accepted.mp (hi.acceptances.sublist.subset
    (List.mem_append_left _ (List.mem_append_left _ h)))

theorem exists_of_mem_taken (hi : Inv w s) {n : Nat} (h : n ∈ (taken w).map Prod.fst) :
    ∃ a, (n, .ok a) ∈ reads w := by
  obtain ⟨⟨m, a⟩, hm, rfl⟩ := List.mem_map.mp h
  exact ⟨a, taken_read hi hm⟩

theorem finished_read (hi : Inv w s) {n : Nat} (h : n ∈ finished w) : ∃ a, (n, .ok a) ∈ reads w :=
  exists_of_mem_taken hi (hi.finishes.sublist.subset (List.mem_append_left _ h))

/-- The answer, a rejection or none, is that of the verdict. -/
def Answers (v : Except ρ α) : Option ρ → Prop
  | some r => v = .error r
  | none => ∃ a, v = .ok a

/-- Each answer is the answer to its request. -/
theorem answer_read (hi : Inv w s) {x : Nat × Option ρ} (h : x ∈ answers w) :
    ∃ v, (x.1, v) ∈ reads w ∧ Answers v x.2 := by
  obtain ⟨n, _ | r⟩ := x
  · obtain ⟨a, ha⟩ := finished_read hi (mem_answers_none.mp h)
    exact ⟨_, ha, a, rfl⟩
  · exact ⟨_, replied_read hi (mem_answers_some.mp h), rfl⟩

/-- What a step answers: the rejected request the reader is at, or the request
the worker is at. -/
theorem answers_step {e : Event α ρ} {o : Option (Effect α ρ)} (h : step s e = some (t, o)) :
    answers o.toList = [] ∨
      (∃ n r, s.slot = some (n, .error r) ∧ o = some (.replied n r)) ∨
      ∃ n, s.working = some n ∧ o = some (.finished n) := by
  cases e with
  | reply ok =>
    simp only [step] at h
    split at h <;> cases h
    rename_i n r hs
    cases ok with
    | true => exact .inr (.inl ⟨n, r, hs, rfl⟩)
    | false => exact .inl rfl
  | finish ok =>
    simp only [step] at h
    split at h <;> cases h
    rename_i n hw
    cases ok with
    | true => exact .inr (.inr ⟨n, hw, rfl⟩)
    | false => exact .inl rfl
  | _ =>
    simp only [step] at h
    split at h <;> cases h
    exact .inl rfl

theorem lt_of_ne_slot (hi : Inv w s) {n m : Nat} {v v' : Except ρ α} (hs : s.slot = some (n, v))
    (hm : (m, v') ∈ reads w) (hne : m ≠ n) : m < n := by
  have h := (hi.slot _ hs).1
  have := read_lt hi hm
  omega

/-- A rejection is answered after every request read before it, but for those
the worker has not answered. -/
theorem answers_lt_of_slot (hi : Inv w s) {n : Nat} {r : ρ} (hs : s.slot = some (n, .error r))
    {x : Nat × Option ρ} (hx : x ∈ answers w) : x.1 < n := by
  obtain ⟨v, hv, ha⟩ := answer_read hi hx
  refine lt_of_ne_slot hi hs hv ?_
  rintro rfl
  obtain rfl := read_unique hi hv (hi.slot _ hs).2
  obtain ⟨n, _ | r'⟩ := x
  · obtain ⟨a, ha⟩ := ha
    cases ha
  · -- the log has the rejection once
    cases ha
    have hp := ((rejected_sorted hi).sublist hi.rejections.sublist)
    rw [slotRejected, hs] at hp
    have := (List.pairwise_append.mp hp).2.2 _ (mem_answers_some.mp hx) (n, r)
      (List.mem_singleton_self _)
    exact lt_irrefl _ this

/-- The worker takes requests in order, each once. -/
theorem taken_sorted (hi : Inv w s) : ((taken w).map Prod.fst).Pairwise (· < ·) := by
  refine List.pairwise_map.mpr ((accepted_sorted hi).sublist ?_)
  exact (List.sublist_append_left _ _).trans
    ((List.sublist_append_left _ _).trans hi.acceptances.sublist)

theorem finished_lt_of_working (hi : Inv w s) {n m : Nat} (hw : s.working = some n)
    (hm : m ∈ finished w) : m < n := by
  have hd := (taken_sorted hi).sublist hi.finishes.sublist
  rw [hw] at hd
  exact (List.pairwise_append.mp hd).2.2 m hm n (List.mem_singleton_self _)

theorem working_read (hi : Inv w s) {n : Nat} (hw : s.working = some n) :
    ∃ a, (n, .ok a) ∈ reads w := by
  refine exists_of_mem_taken hi (hi.finishes.sublist.subset (List.mem_append_right _ ?_))
  rw [hw]
  exact List.mem_singleton_self n

/-- `b` may be answered after `a`: it is the later request, or `a` is a
rejection and `b` is accepted. -/
def MayFollow (a b : Nat × Option ρ) : Prop := a.1 < b.1 ∨ b.1 < a.1 ∧ a.2.isSome ∧ b.2 = none

/-- Answers come in order, but that a rejection may overtake accepted requests. -/
theorem answers_pairwise (h : (machine α ρ).Run w s) : (answers w).Pairwise MayFollow := by
  refine h.invariant (P := fun w _ => (answers w).Pairwise MayFollow) List.Pairwise.nil
    fun w s a t o hr ih hs => ?_
  have hi := inv_of_run hr
  rw [answers_append]
  rcases answers_step hs with ho | ⟨n, r, hsl, rfl⟩ | ⟨n, hw, rfl⟩
  · rw [ho, List.append_nil]
    exact ih
  · refine List.pairwise_append.mpr ⟨ih, List.pairwise_singleton _ _, fun x hx y hy => ?_⟩
    obtain rfl : y = (n, some r) := List.mem_singleton.mp hy
    exact .inl (answers_lt_of_slot hi hsl hx)
  · refine List.pairwise_append.mpr ⟨ih, List.pairwise_singleton _ _, fun x hx y hy => ?_⟩
    obtain rfl : y = (n, none) := List.mem_singleton.mp hy
    obtain ⟨m, _ | r⟩ := x
    · exact .inl (finished_lt_of_working hi hw (mem_answers_none.mp hx))
    · rcases lt_trichotomy m n with hlt | rfl | hgt
      · exact .inl hlt
      · obtain ⟨a, ha⟩ := working_read hi hw
        have := read_unique hi (replied_read hi (mem_answers_some.mp hx)) ha
        cases this
      · exact .inr ⟨hgt, rfl, rfl⟩

/-- No request is answered twice. -/
theorem answers_nodup (h : (machine α ρ).Run w s) : ((answers w).map Prod.fst).Nodup := by
  refine List.pairwise_map.mpr ((answers_pairwise h).imp ?_)
  rintro a b (hlt | ⟨hgt, -⟩)
  · exact Nat.ne_of_lt hlt
  · exact Nat.ne_of_gt hgt

/-- A request that is answered was read. -/
theorem answer_lt (hi : Inv w s) {x : Nat × Option ρ} (h : x ∈ answers w) : x.1 < (reads w).length := by
  obtain ⟨v, hv, -⟩ := answer_read hi h
  have hlen := congrArg List.length hi.numbered
  rw [List.length_map, List.length_range] at hlen
  rw [hlen]
  exact read_lt hi hv

theorem length_answers_le (h : (machine α ρ).Run w s) : (answers w).length ≤ (reads w).length := by
  have hsub : (answers w).map Prod.fst ⊆ List.range (reads w).length := by
    intro n hn
    obtain ⟨x, hx, rfl⟩ := List.mem_map.mp hn
    exact List.mem_range.mpr (answer_lt (inv_of_run h) hx)
  have hle := ((answers_nodup h).subperm hsub).length_le
  rwa [List.length_map, List.length_range] at hle

/-- The answers so far are those of the first requests, in order. -/
def InOrder (l : List (Nat × Option ρ)) : Prop := l.map Prod.fst = List.range l.length

/-- Every rejection is answered after all requests before it. -/
def NoOvertaking (l : List (Nat × Option ρ)) : Prop :=
  ∀ l₁ n r l₂, l = l₁ ++ (n, some r) :: l₂ → ∀ m < n, m ∈ l₁.map Prod.fst

theorem inOrder_concat (l : List (Nat × Option ρ)) (x : Nat × Option ρ) :
    InOrder (l ++ [x]) ↔ InOrder l ∧ x.1 = l.length := by
  rw [InOrder, List.map_append, List.length_append, List.length_singleton, List.range_succ]
  constructor
  · intro h
    obtain ⟨h₁, h₂⟩ := List.append_inj' h rfl
    exact ⟨h₁, by simpa using h₂⟩
  · rintro ⟨h₁, h₂⟩
    rw [h₁, List.map_singleton, h₂]

theorem noOvertaking_concat (l : List (Nat × Option ρ)) (x : Nat × Option ρ) :
    NoOvertaking (l ++ [x]) ↔
      NoOvertaking l ∧ (x.2.isSome → ∀ m < x.1, m ∈ l.map Prod.fst) := by
  constructor
  · intro h
    refine ⟨fun l₁ n r l₂ hl => h l₁ n r (l₂ ++ [x]) (by rw [hl]; simp), fun hx => ?_⟩
    obtain ⟨n, _ | r⟩ := x
    · cases hx
    · exact h l n r [] rfl
  · rintro ⟨h, hx⟩ l₁ n r l₂ hl
    rcases List.eq_nil_or_concat l₂ with rfl | ⟨l₂, y, rfl⟩
    · obtain ⟨rfl, he⟩ := List.append_inj' hl rfl
      obtain rfl : x = (n, some r) := by simpa using he
      exact hx rfl
    · have hl' : l ++ [x] = (l₁ ++ (n, some r) :: l₂) ++ [y] := by simpa using hl
      exact h l₁ n r l₂ (List.append_inj' hl' rfl).1

/-- Distinct numbers below `n` are `n` numbers if and only if they are all of them. -/
theorem length_eq_iff {l : List Nat} {n : Nat} (hl : l.Nodup) (hn : ∀ m ∈ l, m < n) :
    n = l.length ↔ ∀ m < n, m ∈ l := by
  have hs : l.Subperm (List.range n) :=
    List.subperm_of_subset hl fun m hm => List.mem_range.mpr (hn m hm)
  constructor
  · intro h m hm
    have hp : l.Perm (List.range n) := hs.perm_of_length_le (by simp [← h])
    exact hp.mem_iff.mpr (List.mem_range.mpr hm)
  · intro h
    have hs' : (List.range n).Subperm l :=
      List.subperm_of_subset List.nodup_range fun m hm => h m (List.mem_range.mp hm)
    have h₁ := hs.length_le
    have h₂ := hs'.length_le
    rw [List.length_range] at h₁ h₂
    omega

/-- Without failures, all requests before the one the worker is at have been
answered, but for those it overtook. -/
theorem answered_of_working (hi : Inv w s) (hf : ∀ n, .failed n ∉ w) (hr : ∀ n, .replyFailed n ∉ w)
    {n m : Nat} (hw : s.working = some n) (hm : m < n) : m ∈ (answers w).map Prod.fst := by
  obtain ⟨a, ha⟩ := working_read hi hw
  have hn := read_lt hi ha
  have hc : s.closed = false := hi.working_open (by rw [hw]; rfl)
  have hmr : m ∈ (reads w).map Prod.fst := by
    rw [hi.numbered, List.mem_range]
    omega
  obtain ⟨⟨m', v⟩, hv, rfl⟩ := List.mem_map.mp hmr
  cases v with
  | error r =>
    have hj := mem_rejected.mpr hv
    rw [← hi.rejections.eq hr] at hj
    rcases List.mem_append.mp hj with hj | hj
    · exact List.mem_map_of_mem (mem_answers_some.mpr hj)
    · -- the reader is at the last request read
      obtain ⟨x, hx, hxr⟩ := List.mem_filterMap.mp hj
      obtain ⟨k, _ | b⟩ := x <;> cases hxr
      have := (hi.slot _ (Option.mem_toList.mp hx)).1
      omega
  | ok b =>
    have hj := mem_accepted.mpr hv
    have hs := accepted_sorted hi
    have ht : (taken w).map Prod.fst = finished w ++ [n] := by
      rw [← hi.finishes.eq hf, hw]
      rfl
    have hnt : n ∈ (taken w).map Prod.fst := by rw [ht]; simp
    rw [← hi.acceptances.eq hc, List.append_assoc] at hj hs
    rcases List.mem_append.mp hj with hj | hj
    · have := List.mem_map_of_mem (f := Prod.fst) hj
      rw [ht] at this
      rcases List.mem_append.mp this with h | h
      · exact List.mem_map_of_mem (f := Prod.fst) (mem_answers_none.mpr h)
      · have := List.mem_singleton.mp h
        omega
    · obtain ⟨⟨n', c⟩, hn', rfl⟩ := List.mem_map.mp hnt
      have : n' < m' := (List.pairwise_append.mp hs).2.2 _ hn' _ hj
      omega

/-- Without failures, the answers come in the order of the requests if and only
if no rejection overtakes a request. -/
theorem answers_inOrder_iff (h : (machine α ρ).Run w s) (hf : ∀ n, .failed n ∉ w)
    (hr : ∀ n, .replyFailed n ∉ w) : InOrder (answers w) ↔ NoOvertaking (answers w) := by
  refine h.invariant
    (P := fun w _ => (∀ n, .failed n ∉ w) → (∀ n, .replyFailed n ∉ w) →
      (InOrder (answers w) ↔ NoOvertaking (answers w)))
    (fun _ _ => iff_of_true rfl fun l₁ n r l₂ hl => by simp [answers] at hl)
    (fun w s a t o hrun ih hs hf hr => ?_) hf hr
  have hi := inv_of_run hrun
  have ih := ih (forall_notMem_append hf) (forall_notMem_append hr)
  rw [answers_append]
  rcases answers_step hs with ho | ⟨n, r, hsl, rfl⟩ | ⟨n, hw, rfl⟩
  · rw [ho, List.append_nil]
    exact ih
  · show InOrder (answers w ++ [(n, some r)]) ↔ NoOvertaking (answers w ++ [(n, some r)])
    rw [inOrder_concat, noOvertaking_concat, ih]
    have hl := length_eq_iff (n := n) (answers_nodup hrun) fun m hm => by
      obtain ⟨x, hx, rfl⟩ := List.mem_map.mp hm
      exact answers_lt_of_slot hi hsl hx
    rw [List.length_map] at hl
    exact and_congr_right fun _ => hl.trans ⟨fun h _ => h, fun h => h rfl⟩
  · show InOrder (answers w ++ [(n, none)]) ↔ NoOvertaking (answers w ++ [(n, none)])
    rw [inOrder_concat, noOvertaking_concat, ← ih]
    refine and_congr_right fun hin => iff_of_true ?_ (fun h => by cases h)
    -- all before `n` are answered, and `n` is not
    have hall : ∀ m < n, m ∈ (answers w).map Prod.fst := fun m hm =>
      answered_of_working hi (forall_notMem_append hf) (forall_notMem_append hr) hw hm
    have hn : n ∉ (answers w).map Prod.fst := by
      intro hn
      obtain ⟨⟨m, x⟩, hx, rfl⟩ := List.mem_map.mp hn
      obtain ⟨a, ha⟩ := working_read hi hw
      obtain ⟨v, hv, hva⟩ := answer_read hi hx
      obtain rfl := read_unique hi hv ha
      cases x with
      | none => exact lt_irrefl _ (finished_lt_of_working hi hw (mem_answers_none.mp hx))
      | some r => cases hva
    rw [InOrder] at hin
    rw [hin] at hall hn
    simp only [List.mem_range] at hall hn
    show n = (answers w).length
    have : ¬ (answers w).length < n := fun hlt => lt_irrefl _ (hall _ hlt)
    omega

end

end Lane

end Framework
