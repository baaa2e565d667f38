import Iec104Bridge.Proof.Dialogue
import Iec104Bridge.Proof.Isolation

/-!
# Every line is answered

A line of a client that waits for its replies is to be read, at the task of the
client, in the channel or at the main loop, and steps of the bridge lead to its
reply, while the other clients read theirs (`answerable`).
Its reply is the documented one (`documented_answers`), if all the client sends
is UTF-8: on a line that is not, the task of the client ends, and the client is
never answered again (`dropped_unanswered`).
-/

namespace Iec104Bridge

open Framework

variable {cfg : UnixSettings} {s t : UnixState} {as : List UnixEvent} {w : List UnixEffect}
  {e : UnixEvent} {o : Option UnixEffect} {c : ClientId}

/-! ## Where a line is -/

/-- Where a line of the client is, and how far from its reply. -/
inductive Located (s : UnixState) (c : ClientId) : ℕ ×ₗ ℕ → Prop
  | unread {line rest : List UInt8} : (s.clients c).phase = .reading →
    (s.clients c).readLine = .line line rest →
    Located s c (toLex (6 * (s.channel.length + 1) + s.stage.1 + 2, 0))
  | rejecting {n : Nat} {reply : Reply} : (s.clients c).phase = .rejecting n reply →
    Located s c (toLex (0, if .client ∈ (s.clients c).writer then 0 else 1))
  | sending {n : Nat} {message : Iec104Message} : (s.clients c).phase = .sending n message →
    Located s c (toLex (6 * (s.channel.length + 1) + s.stage.1 + 1, s.stage.2))
  | waiting {n : Nat} {message : Iec104Message} {ahead : List Item} : s.Waits (c, n) message ahead →
    Located s c (toLex (6 * (ahead.length + 1) + s.stage.1, s.stage.2))
  | working {n : Nat} : s.core.task.current = some (c, n) → Located s c (toLex s.stage)

/-- A step of the bridge answers a line of the client, or brings it closer to its reply. -/
def Nears (cfg : UnixSettings) (s : UnixState) (c : ClientId) (x : ℕ ×ₗ ℕ) : Prop :=
  ∃ e t o, e.client? = none ∧ (unix cfg).step s e = some (t, o) ∧ t.core.task.isReturned = false ∧
    (written c o.toList ≠ [] ∨ ∃ y < x, Located t c y)

theorem phase_of_slot {phase : ClientPhase} {n : Nat} {message : Iec104Message}
    (h : phase.slot = some (n, .ok message)) : phase = .sending n message := by
  cases phase <;> cases h
  rfl

/-- A message stays at the task of the client until it is in the channel. -/
theorem sending_of_channel (hs : (unix cfg).step s e = some (t, o)) (hc : t.channel = s.channel)
    (hr : t.core.task.isReturned = false) {n : Nat} {message : Iec104Message}
    (hp : (s.clients c).phase = .sending n message) : (t.clients c).phase = .sending n message := by
  have hslot : (laneOf c s).slot = some (n, .ok message) := laneOf_slot hp
  refine phase_of_slot (?_ : (laneOf c t).slot = _)
  rcases (unix_lane cfg c).step hs with ⟨b, hb⟩ | ⟨hl, -⟩
  · rcases Lane.slot_step hb hslot with h | h | h
    · exact h
    · have hq : (laneOf c t).queue = (laneOf c s).queue := by simp only [laneOf, hc]
      simp [hq] at h
    · rw [show (laneOf c t).closed = false from hr] at h
      cases h
  · rw [hl, hslot]

theorem working_iff {n : Nat} : (laneOf c s).working = some n ↔ s.core.task.current = some (c, n) := by
  show s.core.task.current.bind (lineOf c) = some n ↔ _
  constructor
  · intro h
    obtain ⟨id, hid, hl⟩ := Option.bind_eq_some_iff.mp h
    rw [hid, eq_of_lineOf hl]
  · intro h
    rw [h]
    exact lineOf_self c n

/-- The main loop stays at a line of the client until it answers it. -/
theorem working_or_answered (hs : (unix cfg).step s e = some (t, o)) (hg : (s.clients c).gone = false)
    {n : Nat} (hw : s.core.task.current = some (c, n)) :
    t.core.task.current = some (c, n) ∨ written c o.toList ≠ [] := by
  rcases (unix_lane cfg c).step hs with ⟨b, hb⟩ | ⟨hl, -⟩
  · rcases Lane.working_step hb (working_iff.mpr hw) with h | h | h
    · exact .inl (working_iff.mp h)
    · obtain ⟨x, rfl, hx⟩ := Option.bind_eq_some_iff.mp h
      obtain rfl : x = .core (.acked (c, n)) := toLine_cases hx
      right
      simp [written, UnixEffect.toWritten]
    · rw [gone_of_failed (unixStep_cases hs) (.inl h)] at hg
      cases hg
  · left
    rw [← working_iff, hl, working_iff, hw]

/-- An unanswered line is somewhere on its way. -/
theorem located_of_unanswered (h : (unix cfg).Trace as w s) (hd : Dialogue cfg c as s)
    (ha : lookups c as ≠ []) (hr : s.core.task.isReturned = false)
    (hl : (written c w).length < (s.linesSent as c).length) : ∃ x, Located s c x := by
  have hh := hosted_of_trace h hd
  -- all lines are read, and the task is at none of them
  have hrest (hn : linesOf (s.clients c).eof (s.clients c).incoming = [])
      (hs : (s.clients c).phase.slot = none) : ∃ x, Located s c x := by
    have hcount := length_requests h hd hr
    rw [show (laneOf c s).slot = none from hs] at hcount
    rw [linesSent_eq h hd, hn, List.append_nil] at hl
    cases hw : (laneOf c s).working with
    | some n => exact ⟨_, .working (working_iff.mp hw)⟩
    | none =>
      cases hq : (laneOf c s).queue with
      | nil =>
        rw [hq, hw] at hcount
        exact absurd hl (by simp [hcount])
      | cons x queue =>
        have hx : x ∈ (laneOf c s).queue := by rw [hq]; exact List.mem_cons_self
        obtain ⟨item, hm, hi⟩ := List.mem_filterMap.mp hx
        cases item with
        | acceptError => cases hi
        | message id message =>
          obtain ⟨hid, -⟩ := Option.ite_none_right_eq_some.mp hi
          obtain ⟨ahead, rest, hc⟩ := List.append_of_mem hm
          have hid : id = (c, id.2) := Prod.ext hid rfl
          rw [hid] at hc
          exact ⟨_, .waiting ⟨rest, hc⟩⟩
  cases hp : (s.clients c).phase with
  | absent => exact absurd hp (hh.accepted ha)
  | refusing => exact absurd hp hh.admitted
  | rejecting n reply => exact ⟨_, .rejecting hp⟩
  | sending n message => exact ⟨_, .sending hp⟩
  | reading =>
    by_cases hx : ∃ line rest, (s.clients c).readLine = .line line rest
    · obtain ⟨line, rest, hx⟩ := hx
      exact ⟨_, .unread hp hx⟩
    · push Not at hx
      exact hrest (linesOf_of_not_line hx) (by rw [hp]; rfl)
  | ended =>
    rcases hh.ended hp with ⟨-, hi⟩ | hret
    · refine hrest ?_ (by rw [hp]; rfl)
      rw [hi]
      simp [linesOf, splitLines]
    · rw [hr] at hret
      cases hret

/-- A client with an unanswered line has read all its replies. -/
theorem unread_of_unanswered (h : (unix cfg).Trace as w s) (hd : Dialogue cfg c as s)
    (hl : (written c w).length < (s.linesSent as c).length) : (s.clients c).unread = [] := by
  have hle := linesSent_le h hd.patient
  have hdel := congrArg List.length (delivered_unread h.run c)
  rw [List.length_append] at hdel
  refine List.length_eq_zero_iff.mp ?_
  omega

/-! ## Every step brings it closer -/

theorem stage_setClient {client : Client} (hw : client.writer = (s.clients c).writer) :
    (s.setClient c client).stage = s.stage := by
  have hwr (d : ClientId) : ((s.setClient c client).clients d).writer = (s.clients d).writer := by
    by_cases hd : d = c
    · subst hd
      rw [UnixState.setClient_self, hw]
    · rw [UnixState.setClient_of_ne _ _ _ hd]
  simp only [UnixState.stage, UnixState.setClient_core, hwr]

theorem rank_lt (m n : Nat)
    (h : t.stage.1 < s.stage.1 ∨ t.stage.1 = s.stage.1 ∧ t.stage.2 < s.stage.2) :
    toLex (m + t.stage.1 + n, t.stage.2) < toLex (m + s.stage.1 + n, s.stage.2) := by
  rw [Prod.Lex.toLex_lt_toLex]
  rcases h with h | ⟨h, h'⟩
  · left
    show m + t.stage.1 + n < m + s.stage.1 + n
    omega
  · right
    exact ⟨by rw [h], h'⟩

theorem phase_setClient {client : Client} {phase : ClientPhase} (h : client.phase = phase) :
    ((s.setClient c client).clients c).phase = phase := by
  rw [UnixState.setClient_self, h]

/-- The main loop takes the first item of the channel. -/
theorem take_head (cfg : UnixSettings) (hv : s.Served) {item : Item} {rest : List Item}
    (hc : s.channel = item :: rest) (ht : s.core.task = .selecting) :
    ∃ e t o, e.client? = none ∧ (unix cfg).step s e = some (t, o) ∧
      t.channel = rest ∧ t.clients = s.clients ∧ t.core.task.isReturned = false ∧ t.stage.1 ≤ 5 ∧
      ∀ id message, item = .message id message → t.core.task.current = some id := by
  cases item with
  | acceptError =>
    have hr : s.core.task.isReturned = false := by rw [ht]; rfl
    refine ⟨_, _, _, rfl, step_takeError hc ht, rfl, rfl, hr, ?_, fun id message h => by cases h⟩
    simp [UnixState.stage, ht]
  | message id message =>
    have hm : message.Valid := hv.queued id message (by rw [hc]; exact List.mem_cons_self)
    refine ⟨_, _, _, rfl, step_take hc ht hm, rfl, rfl, rfl, ?_, fun id' message' h => ?_⟩
    · simp [UnixState.stage]
    · cases h
      rfl

/-- The main loop runs while a message is before it. -/
theorem running_of_message (hv : s.Served) (h : s.channel ≠ [] ∨ s.core.task.current.isSome = true) :
    s.core.task.isRunning = true := by
  rcases hv.phase with hp | hp | hp
  · rcases h with h | h
    · exact absurd (hv.starting hp).1 h
    · rw [hp] at h
      cases h
  · rcases h with h | h
    · exact absurd (hv.returned hp) h
    · cases ht : s.core.task <;> simp [ht, TaskPhase.isReturned, TaskPhase.current] at hp h
  · exact hp

theorem nears_of_unread (h : (unix cfg).Trace as w s) (hd : Dialogue cfg c as s)
    (hr : s.core.task.isReturned = false) {line rest : List UInt8}
    (hp : (s.clients c).phase = .reading) (hl : (s.clients c).readLine = .line line rest) :
    Nears cfg s c (toLex (6 * (s.channel.length + 1) + s.stage.1 + 2, 0)) := by
  have hu := utf8_of_readLine h hd hl
  cases hv : processUnixSocketLine cfg.parse line line.length cfg.maxLineBytes with
  | error reply =>
    have hstep : (unix cfg).step s (.readLine c) = some
        (s.setClient c { s.clients c with
          phase := .rejecting (s.clients c).lines reply, incoming := rest
          lines := (s.clients c).lines + 1 }, some (.read (c, (s.clients c).lines) line (.error reply))) := by
      simp [unix, unixStep, readerStep, hp, hl, hu, hv]
    refine ⟨_, _, _, rfl, hstep, hr, .inr ⟨_, ?_, .rejecting (phase_setClient rfl)⟩⟩
    exact Prod.Lex.toLex_lt_toLex.mpr (.inl (Nat.succ_pos _))
  | ok message =>
    have hstep : (unix cfg).step s (.readLine c) = some
        (s.setClient c { s.clients c with
          phase := .sending (s.clients c).lines message, incoming := rest
          lines := (s.clients c).lines + 1 }, some (.read (c, (s.clients c).lines) line (.ok message))) := by
      simp [unix, unixStep, readerStep, hp, hl, hu, hv]
    refine ⟨_, _, _, rfl, hstep, hr, .inr ⟨_, ?_, .sending (phase_setClient rfl)⟩⟩
    rw [stage_setClient]
    · exact Prod.Lex.toLex_lt_toLex.mpr (.inl (Nat.lt_succ_self _))
    · rfl

/-- The task writes its rejection: it has the mutex of the writer for itself. -/
theorem nears_of_rejecting (hr : s.core.task.isReturned = false) (hg : (s.clients c).gone = false)
    (hu : (s.clients c).unread = []) (hl : .loop ∉ (s.clients c).writer) {n : Nat} {reply : Reply}
    (hp : (s.clients c).phase = .rejecting n reply) :
    Nears cfg s c (toLex (0, if .client ∈ (s.clients c).writer then 0 else 1)) := by
  by_cases hc : .client ∈ (s.clients c).writer
  · cases hw : (s.clients c).writer with
    | nil => simp [hw] at hc
    | cons x writer =>
      obtain rfl : x = .client := by
        cases x with
        | client => rfl
        | loop => simp [hw] at hl
      have hroom : (s.clients c).HasRoom cfg.sendBuffer reply := by
        have hle := reply.size_le.trans cfg.sendBuffer_room
        rw [Client.HasRoom, hu]
        exact (Nat.zero_add _).le.trans hle
      have hstep : (unix cfg).step s (.writeReply c) = some
          (s.setClient c { s.clients c with
            phase := .reading, writer, unread := (s.clients c).unread ++ [reply] },
            some (.replied (c, n) reply)) := by
        simp [unix, unixStep, readerStep, hp, hw, hg, hroom]
      refine ⟨_, _, _, rfl, hstep, hr, .inl ?_⟩
      simp [written, UnixEffect.toWritten]
  · have hstep : (unix cfg).step s (.lock c) = some
        (s.setClient c { s.clients c with writer := (s.clients c).writer ++ [.client] }, none) := by
      simp [unix, unixStep, readerStep, hp, hc]
    rw [if_neg hc]
    refine ⟨_, _, _, rfl, hstep, hr, .inr ⟨_, ?_, .rejecting (phase_setClient hp)⟩⟩
    rw [UnixState.setClient_self, if_pos (by simp)]
    exact Prod.Lex.toLex_lt_toLex.mpr (.inr ⟨rfl, Nat.zero_lt_one⟩)

/-- The main loop goes on with what it is at, unless it is stuck. -/
theorem nears_of_running (h : (unix cfg).Run w s) (hrun : s.core.task.isRunning = true)
    (ht : s.core.task ≠ .selecting) {x : ℕ ×ₗ ℕ}
    (hnear : ∀ e t o, (unix cfg).step s e = some (t, o) → t.channel = s.channel →
      t.core.task.isReturned = false →
      (t.stage.1 < s.stage.1 ∨ t.stage.1 = s.stage.1 ∧ t.stage.2 < s.stage.2) →
      written c o.toList ≠ [] ∨ ∃ y < x, Located t c y) :
    Nears cfg s c x ∨ ∃ d, s.StuckOn cfg d := by
  rcases advances_of_running h hrun ht with ⟨e, t, o, he, hs, hct, hrt, hd⟩ | hstuck
  · have hrt := isReturned_of_isRunning hrt
    exact .inl ⟨e, t, o, he, hs, hrt, hnear e t o hs hct hrt hd⟩
  · exact .inr hstuck

/-- The message is put in the channel, or the main loop makes room for it. -/
theorem nears_of_sending (h : (unix cfg).Run w s) (hr : s.core.task.isReturned = false) {n : Nat}
    {message : Iec104Message} (hp : (s.clients c).phase = .sending n message) :
    Nears cfg s c (toLex (6 * (s.channel.length + 1) + s.stage.1 + 1, s.stage.2)) ∨
      ∃ d, s.StuckOn cfg d := by
  by_cases hroom : s.channel.length < UNIX_SOCKET_BACKLOG
  · left
    have hstep : (unix cfg).step s (.forward c) = some
        ({ s.setClient c { s.clients c with phase := .reading } with
          channel := s.channel ++ [.message (c, n) message] }, some (.forwarded (c, n))) := by
      simp [unix, unixStep, readerStep, hp, hr, hroom]
    refine ⟨_, _, _, rfl, hstep, hr, .inr ⟨_, ?_, .waiting ⟨[], rfl⟩⟩⟩
    have hstage : (s.setClient c { s.clients c with phase := .reading }).stage = s.stage :=
      stage_setClient rfl
    have hstage' : (UnixState.stage { s.setClient c { s.clients c with phase := .reading } with
        channel := s.channel ++ [.message (c, n) message] }) = s.stage := hstage
    rw [hstage']
    exact Prod.Lex.toLex_lt_toLex.mpr (.inl (Nat.lt_succ_self _))
  · have hne : s.channel ≠ [] := by
      rintro hc
      rw [hc] at hroom
      exact hroom (by decide)
    have hv := served_of_run h
    have hrun := running_of_message hv (.inl hne)
    by_cases ht : s.core.task = .selecting
    · left
      obtain ⟨item, rest, hc⟩ := List.exists_cons_of_ne_nil hne
      obtain ⟨e, t, o, he, hs, hct, hcl, hrt, hst, -⟩ := take_head cfg hv hc ht
      refine ⟨e, t, o, he, hs, hrt, .inr ⟨_, ?_, .sending (hcl ▸ hp)⟩⟩
      rw [hct, hc]
      refine Prod.Lex.toLex_lt_toLex.mpr (.inl ?_)
      rw [List.length_cons]
      omega
    · refine nears_of_running h hrun ht fun e t o hs hct hrt hd => ?_
      refine .inr ⟨_, ?_, .sending (sending_of_channel hs hct hrt hp)⟩
      rw [hct]
      exact rank_lt _ 1 hd

/-- The main loop takes the line, or comes closer to it. -/
theorem nears_of_waiting (h : (unix cfg).Run w s) {n : Nat} {message : Iec104Message}
    {ahead : List Item} (hw : s.Waits (c, n) message ahead) :
    Nears cfg s c (toLex (6 * (ahead.length + 1) + s.stage.1, s.stage.2)) ∨ ∃ d, s.StuckOn cfg d := by
  obtain ⟨rest, hc⟩ := hw
  have hv := served_of_run h
  have hrun := running_of_message hv (.inl (by rw [hc]; simp))
  by_cases ht : s.core.task = .selecting
  · left
    cases ahead with
    | nil =>
      obtain ⟨e, t, o, he, hs, -, -, hrt, hst, hcur⟩ := take_head cfg hv hc ht
      refine ⟨e, t, o, he, hs, hrt, .inr ⟨_, ?_, .working (hcur _ _ rfl)⟩⟩
      refine Prod.Lex.toLex_lt_toLex.mpr (.inl ?_)
      show t.stage.1 < 6 * (0 + 1) + s.stage.1
      omega
    | cons item ahead =>
      obtain ⟨e, t, o, he, hs, hct, -, hrt, hst, -⟩ := take_head cfg hv hc ht
      refine ⟨e, t, o, he, hs, hrt, .inr ⟨_, ?_, .waiting ⟨rest, hct⟩⟩⟩
      refine Prod.Lex.toLex_lt_toLex.mpr (.inl ?_)
      rw [List.length_cons]
      show 6 * (ahead.length + 1) + t.stage.1 < 6 * (ahead.length + 1 + 1) + s.stage.1
      omega
  · refine nears_of_running h hrun ht fun e t o hs hct hrt hd => ?_
    exact .inr ⟨_, rank_lt _ 0 hd, .waiting ⟨rest, hct.trans hc⟩⟩

/-- The main loop goes on with the line, and answers it at the end. -/
theorem nears_of_working (h : (unix cfg).Run w s) (hg : (s.clients c).gone = false) {n : Nat}
    (hw : s.core.task.current = some (c, n)) :
    Nears cfg s c (toLex s.stage) ∨ ∃ d, s.StuckOn cfg d := by
  have hrun := running_of_message (served_of_run h) (.inr (by rw [hw]; rfl))
  have ht : s.core.task ≠ .selecting := by
    intro ht
    rw [ht] at hw
    cases hw
  refine nears_of_running h hrun ht fun e t o hs hct hrt hd => ?_
  rcases working_or_answered hs hg hw with hw | hw
  · exact .inr ⟨_, Prod.Lex.toLex_lt_toLex.mpr hd, .working hw⟩
  · exact .inl hw

/-- Wherever an unanswered line is, a step of the bridge brings it closer to its
reply, unless the main loop is stuck. -/
theorem nears_of_located (h : (unix cfg).Trace as w s) (hd : Dialogue cfg c as s)
    (hr : s.core.task.isReturned = false) (hl : (written c w).length < (s.linesSent as c).length)
    {x : ℕ ×ₗ ℕ} (hx : Located s c x) : Nears cfg s c x ∨ ∃ d, s.StuckOn cfg d := by
  have hg := (hosted_of_trace h hd).here
  cases hx with
  | unread hp hline => exact .inl (nears_of_unread h hd hr hp hline)
  | @rejecting n reply hp =>
    refine .inl (nears_of_rejecting hr hg (unread_of_unanswered h hd hl) ?_ hp)
    -- the main loop is at no line of the client
    intro hm
    obtain ⟨m, dispatched, ht⟩ := (owned_of_run h.run c).acking hm
    have hcount := length_requests h hd hr
    have hslot : (laneOf c s).slot = some (n, .error reply) := laneOf_slot hp
    have hw : (laneOf c s).working = some m := working_iff.mpr (by rw [ht]; rfl)
    have hle := reads_le h hd
    rw [← length_readLines, ← length_written h hd] at hle
    rw [hslot, hw] at hcount
    simp only [Option.toList_some, List.length_singleton] at hcount
    omega
  | sending hp => exact nears_of_sending h.run hr hp
  | waiting hw => exact nears_of_waiting h.run hw
  | working hw => exact nears_of_working h.run hg hw

/-! ## Answers -/

theorem all_answered (h : (unix cfg).Trace as w s) (hd : Dialogue cfg c as s)
    (hl : ¬ (written c w).length < (s.linesSent as c).length) :
    written c w = (s.linesSent as c).map (documentedReply cfg) := by
  refine (written_linesSent h hd).eq_of_length_le ?_
  rw [List.length_map]
  exact Nat.le_of_not_lt hl

/-- A step of the bridge, or another client reads a reply. -/
def Helps (c : ClientId) (e : UnixEvent) : Prop := e.client? = none ∨ ∃ d, d ≠ c ∧ e = .clientRead d

theorem Helps.ne (h : Helps c e) : e.client? ≠ some c := by
  rcases h with h | ⟨d, hd, rfl⟩
  · rw [h]
    exact fun h => by cases h
  · exact fun h => hd (Option.some.inj h)

/-- The replies to read of the client whose line is acknowledged. -/
def UnixState.backlog (s : UnixState) : Nat :=
  match s.core.task with
  | .acking id _ => (s.clients id.1).unread.length
  | _ => 0

/-- A client on which the main loop is stuck reads a reply. -/
theorem read_of_stuck {d : ClientId} (hstuck : s.StuckOn cfg d) (hdc : d ≠ c) {x : ℕ ×ₗ ℕ}
    (hx : Located s c x) : ∃ t o, (unix cfg).step s (.clientRead d) = some (t, o) ∧
      t.core.task = s.core.task ∧ t.backlog < s.backlog ∧ Located t c x := by
  obtain ⟨reply, unread, hu⟩ := List.exists_cons_of_ne_nil hstuck.unread
  obtain ⟨n, dispatched, ht⟩ := hstuck.acking
  have hstep : (unix cfg).step s (.clientRead d) = some
      (s.setClient d { s.clients d with unread }, some (.delivered d reply)) := by
    simp [unix, unixStep, clientStep, hu, hstuck.client.here]
  refine ⟨_, _, hstep, rfl, ?_, ?_⟩
  · simp [UnixState.backlog, ht, hu]
  · have hc : (s.setClient d { s.clients d with unread }).clients c = s.clients c :=
      UnixState.setClient_of_ne _ _ _ hdc.symm
    have hstage : (s.setClient d { s.clients d with unread }).stage = s.stage := stage_setClient rfl
    generalize ht' : s.setClient d { s.clients d with unread } = t at hc hstage
    have hchan : t.channel = s.channel := by rw [← ht']; rfl
    have hcore : t.core = s.core := by rw [← ht']; rfl
    cases hx with
    | unread hp hl =>
      rw [← hchan, ← hstage]
      exact .unread (by rw [hc, hp]) (by rw [hc, hl])
    | rejecting hp =>
      rw [← hc]
      exact .rejecting (by rw [hc, hp])
    | sending hp =>
      rw [← hchan, ← hstage]
      exact .sending (by rw [hc, hp])
    | waiting hw =>
      rw [← hstage]
      exact .waiting (by rwa [UnixState.Waits, hchan])
    | working hw =>
      rw [← hstage]
      exact .working (by rw [hcore, hw])

/-- The steps of the bridge lead to the answer of every line, while the other
clients read their replies. -/
theorem answerable (h : (unix cfg).Trace as w s) (hd : Dialogue cfg c as s)
    (ha : lookups c as ≠ []) (hr : s.core.task.isReturned = false) : ∃ es w' t,
      (∀ e ∈ es, Helps c e) ∧ (unix cfg).Trace (as ++ es) (w ++ w') t ∧
        written c (w ++ w') = (s.linesSent as c).map (documentedReply cfg) := by
  by_cases hpend : (written c w).length < (s.linesSent as c).length
  · -- a step brings the line closer, or lets the main loop go on
    generalize hlines : s.linesSent as c = lines at hpend ⊢
    obtain ⟨x, hx⟩ := located_of_unanswered h hd ha hr (by rwa [hlines])
    refine h.reach (r := toLex (x, s.backlog)) (K := Helps c)
      (P := fun r as w s => Dialogue cfg c as s ∧ lookups c as ≠ [] ∧
        s.core.task.isReturned = false ∧ s.linesSent as c = lines ∧
        (written c w).length < lines.length ∧ ∃ x, r = toLex (x, s.backlog) ∧ Located s c x)
      (G := fun _ w _ => written c w = lines.map (documentedReply cfg)) ?_
      ⟨hd, ha, hr, hlines, hpend, x, rfl, hx⟩
    rintro _ as w s h ⟨hd, ha, hr, rfl, hl, x, rfl, hx⟩
    right
    have hnext {e : UnixEvent} {t : UnixState} {o : Option UnixEffect} (hs : (unix cfg).step s e = some (t, o))
        (he : Helps c e) (hrt : t.core.task.isReturned = false)
        (hor : written c o.toList ≠ [] ∨ ∃ y, toLex (y, t.backlog) < toLex (x, s.backlog) ∧ Located t c y) :
        ∃ e t o, Helps c e ∧ (unix cfg).step s e = some (t, o) ∧
          (written c (w ++ o.toList) = (s.linesSent as c).map (documentedReply cfg) ∨
            ∃ r < toLex (x, s.backlog), Dialogue cfg c (as ++ [e]) t ∧ lookups c (as ++ [e]) ≠ [] ∧
              t.core.task.isReturned = false ∧ t.linesSent (as ++ [e]) c = s.linesSent as c ∧
              (written c (w ++ o.toList)).length < (s.linesSent as c).length ∧
              ∃ y, r = toLex (y, t.backlog) ∧ Located t c y) := by
      obtain ⟨hd', ha', hl'⟩ := hd.next h ha hs he.ne
      refine ⟨e, t, o, he, hs, ?_⟩
      by_cases hdone : (written c (w ++ o.toList)).length < (s.linesSent as c).length
      · right
        -- with one more reply every line is answered
        have hnone : written c o.toList = [] := by
          by_contra hne
          have hpos := List.length_pos_iff.mpr hne
          have hle := linesSent_le h hd.patient
          have hdel := delivered_le h.run (c := c)
          rw [written_append, List.length_append] at hdone
          omega
        obtain ⟨y, hy, hyl⟩ := hor.resolve_left fun hne => hne hnone
        exact ⟨_, hy, hd', ha'.symm ▸ ha, hrt, hl', hdone, y, rfl, hyl⟩
      · left
        rw [← hl'] at hdone ⊢
        exact all_answered (h.snoc hs) hd' hdone
    rcases nears_of_located h hd hr hl hx with ⟨e, t, o, he, hs, hrt, hor⟩ | ⟨d, hstuck⟩
    · refine hnext hs (.inl he) hrt (hor.imp_right fun ⟨y, hy, hyl⟩ => ⟨y, ?_, hyl⟩)
      exact Prod.Lex.toLex_lt_toLex.mpr (.inl hy)
    · -- the client has read all its replies, so it is not the one that blocks
      have hdc : d ≠ c := by
        rintro rfl
        exact hstuck.unread (unread_of_unanswered h hd hl)
      obtain ⟨t, o, hs, ht, hb, hxt⟩ := read_of_stuck hstuck hdc hx
      refine hnext hs (.inr ⟨d, hdc, rfl⟩) (by rwa [ht]) (.inr ⟨x, ?_, hxt⟩)
      exact Prod.Lex.toLex_lt_toLex.mpr (.inr ⟨rfl, hb⟩)
  · exact ⟨[], [], s, fun e he => absurd he List.not_mem_nil, by simpa using h,
      by simpa using all_answered h hd hpend⟩

/-- What a client that waits for its replies gets. -/
structure Answered (cfg : UnixSettings) (c : ClientId) (as : List UnixEvent) (w : List UnixEffect)
    (s : UnixState) : Prop where
  /-- Its lines, whole and in order, are its requests. -/
  requests : readLines c w <+: s.linesSent as c
  documented : written c w <+: (s.linesSent as c).map (documentedReply cfg)
  /-- At most the last line has no reply yet. -/
  waiting : (s.linesSent as c).length ≤ (written c w).length + 1
  received : delivered c w ++ (s.clients c).unread = written c w
  /-- The bridge answers each line, while the other clients read their replies. -/
  answerable : s.core.task.isReturned = false → ∃ es w' t, (∀ e ∈ es, Helps c e) ∧
    (unix cfg).Trace (as ++ es) (w ++ w') t ∧
      written c (w ++ w') = (s.linesSent as c).map (documentedReply cfg)
  /-- The task waits for the next line when every line is answered. -/
  usable : s.core.task.isReturned = false → (s.clients c).eof = false →
    (written c w).length = (s.linesSent as c).length → (s.clients c).phase = .reading
  ok_iff (n : Nat) : (written c w)[n]? = some .ok ↔ .acked (c, n) ∈ unixLog w
  /-- The message of a line is cached and dispatched before its `ok`. -/
  effect (n : Nat) (w₁ w₂ : List (Effect LineId)) : unixLog w = w₁ ++ .acked (c, n) :: w₂ →
    ∃ line message now, (s.linesSent as c)[n]? = some line ∧
      documentedVerdict cfg line = .ok message ∧ .inserted (c, n) ⟨message, now⟩ ∈ w₁ ∧
      handedFor (c, n) w₁ = spontaneousFor cfg.core message now
  rejected (n : Nat) (line : List UInt8) (reply : Reply) : (s.linesSent as c)[n]? = some line →
    documentedVerdict cfg line = .error reply → Untouched (c, n) (unixLog w)

/-- What is taken of a client is one of its lines. -/
theorem line_of_received (h : (unix cfg).Trace as w s) (hd : Dialogue cfg c as s) {n : Nat}
    {message : Iec104Message} {now : OffsetDateTime} (hm : .received (c, n) message now ∈ unixLog w) :
    ∃ line, (s.linesSent as c)[n]? = some line ∧ documentedVerdict cfg line = .ok message := by
  obtain ⟨line, hr⟩ := (unixAcks_of_run h.run).accepted c n message now hm
  obtain ⟨hl, hv⟩ := requests_of_trace h hr
  refine ⟨line, ?_, hv.symm⟩
  rw [linesSent_eq h hd, List.getElem?_append_left (List.getElem?_eq_some_iff.mp hl).1, hl]

theorem replies_numbered (h : (unix cfg).Trace as w s) (hd : Dialogue cfg c as s) :
    (replies c w).map Prod.fst = List.range (replies c w).length := by
  rw [replies_eq, List.map_map, List.length_map]
  exact inOrder_of_trace h hd

theorem reading_of_answered (h : (unix cfg).Trace as w s) (hd : Dialogue cfg c as s)
    (ha : lookups c as ≠ []) (hr : s.core.task.isReturned = false) (he : (s.clients c).eof = false)
    (hl : (written c w).length = (s.linesSent as c).length) : (s.clients c).phase = .reading := by
  have hh := hosted_of_trace h hd
  have hcount := length_requests h hd hr
  have hslot : (laneOf c s).slot = none := by
    rw [linesSent_eq h hd, List.length_append] at hl
    refine Option.toList_eq_nil_iff.mp (List.length_eq_zero_iff.mp ?_)
    omega
  cases hp : (s.clients c).phase with
  | absent => exact absurd hp (hh.accepted ha)
  | refusing => exact absurd hp hh.admitted
  | reading => rfl
  | rejecting | sending =>
    rw [laneOf_slot hp] at hslot
    cases hslot
  | ended =>
    rcases hh.ended hp with ⟨hf, -⟩ | hret
    · rw [he] at hf
      cases hf
    · rw [hr] at hret
      cases hret

theorem answered_of_dialogue (h : (unix cfg).Trace as w s) (hd : Dialogue cfg c as s)
    (ha : lookups c as ≠ []) : Answered cfg c as w s := by
  have hacks := unixAcks_of_run h.run
  have hnum := replies_numbered h hd
  refine ⟨?_, written_linesSent h hd, ?_, delivered_unread h.run c, answerable h hd ha,
    reading_of_answered h hd ha, fun n => ?_, fun n w₁ w₂ hw => ?_, fun n line reply hl hv => ?_⟩
  · rw [linesSent_eq h hd]
    exact List.prefix_append _ _
  · exact (linesSent_le h hd.patient).trans (Nat.succ_le_succ (delivered_le h.run))
  · rw [← hacks.answered c n, written_eq (hosted_of_trace h hd).unrefused, List.getElem?_map]
    constructor
    · intro hr
      obtain ⟨x, hx, hok⟩ := Option.map_eq_some_iff.mp hr
      obtain ⟨hn, rfl⟩ := List.getElem?_eq_some_iff.mp hx
      have hfst := Lane.fst_of_numbered hnum hn
      have : (n, Reply.ok) = (replies c w)[n] := Prod.ext hfst.symm hok.symm
      rw [this]
      exact List.getElem_mem hn
    · intro hm
      rw [Lane.getElem?_of_numbered hnum hm]
      rfl
  · obtain ⟨message, now, hm, hins, hh, -⟩ := hacks.process.effect (c, n) w₁ w₂ hw
    have hmem : .received (c, n) message now ∈ unixLog w := by
      rw [hw]
      exact List.mem_append_left _ hm
    obtain ⟨line, hl, hv⟩ := line_of_received h hd hmem
    exact ⟨line, message, now, hl, hv, hins, hh⟩
  · refine hacks.process.untouched (c, n) fun hid => ?_
    obtain ⟨message, now, hm⟩ := mem_takenIds.mp hid
    obtain ⟨line', hl', hv'⟩ := line_of_received h hd hm
    obtain rfl : line = line' := Option.some.inj (hl.symm.trans hl')
    rw [hv] at hv'
    cases hv'

/-- A client with credentials of an authorized peer was accepted as this peer only. -/
theorem admitted_of_trusted (h : (unix cfg).Trace as w s) (ht : Trusted cfg c as) :
    lookups c as ≠ [] ∧ ∀ peer ∈ lookups c as, ∃ p, peer = some p ∧ cfg.Authorizes p := by
  obtain ⟨p, hp, ha⟩ := ht
  rcases lookups_of_trace h c with hn | ⟨⟨peer, hl⟩, -⟩
  · rw [hn] at hp
    cases hp
  · rw [hl, List.mem_singleton] at hp
    subst hp
    rw [hl]
    refine ⟨by simp, fun peer hm => ⟨p, List.mem_singleton.mp hm, ha⟩⟩

theorem documentedReply_ne (cfg : UnixSettings) (line : List UInt8) :
    documentedReply cfg line ≠ .errorUnauthorized := by
  unfold documentedReply documentedVerdict
  split
  · decide
  split
  · decide
  split
  · decide
  split <;> exact fun h => by cases h

/-- If every line can be answered, every line is read, so it is UTF-8. -/
theorem utf8_of_answered (h : (unix cfg).Trace as w s) (hr : s.core.task.isReturned = false)
    (ha : Answered cfg c as w s) : ∀ line ∈ s.linesSent as c, validUtf8 line = true := by
  obtain ⟨es, w', t, hes, ht, hwr⟩ := ha.answerable hr
  have hlines : t.linesSent (as ++ es) c = s.linesSent as c := by
    refine h.keeps (P := fun as' _ s' => s'.linesSent as' c = s.linesSent as c) ht hes rfl ?_
    intro as' _ s' e u o he hl hs
    exact (linesSent_of_others hs he.ne).trans hl
  obtain ⟨taken, hread⟩ := streamRead_of_trace ht c
  have hnow : t.linesSent (as ++ es) c = taken ++ linesOf (t.clients c).eof (t.clients c).incoming :=
    hread.now
  have hn : .unauthorized c ∉ w ++ w' := by
    intro hm
    have hw : .errorUnauthorized ∈ written c (w ++ w') := List.mem_filterMap.mpr ⟨_, hm, if_pos rfl⟩
    rw [hwr] at hw
    obtain ⟨line, -, hl⟩ := List.mem_map.mp hw
    exact documentedReply_ne cfg line hl
  -- there are as many replies as lines, and no more than lines that are UTF-8
  have hle : (s.linesSent as c).length ≤ (readLines c (w ++ w')).length := by
    have hlen := congrArg List.length hwr
    rw [written_eq hn, replies_eq, List.length_map, List.length_map, List.length_map] at hlen
    rw [← hlen, length_readLines]
    exact Lane.length_answers_le (lineLog_run ht.run c)
  have hfilter : (s.linesSent as c).filter validUtf8 = s.linesSent as c := by
    refine List.filter_sublist.eq_of_length_le (hle.trans ?_)
    rw [← hread.read, ← hlines, hnow, List.filter_append, List.length_append]
    exact Nat.le_add_right _ _
  exact List.filter_eq_self.mp hfilter

/-- **Every line is answered.** An authorized client that waits for its replies
gets the documented reply to each of its lines, and its task reads on, if its
lines are UTF-8, and only then. -/
theorem documented_answers (h : (unix cfg).Trace as w s) (hp : Patient cfg c as)
    (ht : Trusted cfg c as) :
    ((∀ line ∈ s.linesSent as c, validUtf8 line = true) → Answered cfg c as w s) ∧
      (s.core.task.isReturned = false → Answered cfg c as w s →
        ∀ line ∈ s.linesSent as c, validUtf8 line = true) := by
  obtain ⟨ha, hadm⟩ := admitted_of_trusted h ht
  exact ⟨fun hu => answered_of_dialogue h ⟨hp, hadm, hu⟩ ha, utf8_of_answered h⟩

/-! ## A line that is not UTF-8 -/

/-- A task that has ended reads no more. -/
theorem ended_stays (h : Machine.Steps (unix cfg) s w t) (hp : (s.clients c).phase = .ended) :
    (t.clients c).phase = .ended ∧ requests c w = [] ∧ .unauthorized c ∉ w := by
  refine h.induct (P := fun w t => (t.clients c).phase = .ended ∧ requests c w = [] ∧
    .unauthorized c ∉ w) ⟨hp, rfl, List.not_mem_nil⟩ ?_
  rintro w t e u o - ⟨hp, hr, hn⟩ hs
  have hi := inputStep_of_step hs c
  generalize t.clients c = client at hi hp
  generalize u.clients c = client' at hi
  have hnext (hp' : client'.phase = .ended) (hreq : requests c o.toList = [])
      (hu : ∀ x ∈ o, x ≠ .unauthorized c) :
      client'.phase = .ended ∧ requests c (w ++ o.toList) = [] ∧ .unauthorized c ∉ w ++ o.toList := by
    refine ⟨hp', by rw [requests_append, hr, hreq]; rfl, fun hm => ?_⟩
    rcases List.mem_append.mp hm with hm | hm
    · exact hn hm
    · exact hu _ (Option.mem_toList.mp hm) rfl
  cases hi with
  | send | close => exact hnext hp rfl fun x hx => by cases hx
  | accept _ hp' | refuse _ hp' | refuseFailed _ hp' | read _ hp' | drop _ hp' =>
    rw [hp] at hp'
    cases hp'
  | quiet _ _ hq hreq hu => exact hnext ((hq.still (.inr (.inr hp))).trans hp) hreq hu

def ClientPhase.isEnded : ClientPhase → Bool
  | .ended => true
  | _ => false

theorem ended_of_isEnded {phase : ClientPhase} (h : phase.isEnded = true) : phase = .ended := by
  cases phase <;> first | rfl | cases h

/-- An authorized client sends a line that is not UTF-8. -/
def malformed : List UnixEvent :=
  [.main (.build true), .accept 0 (some ⟨1000, 1000, 1⟩), .clientSend 0 [0xFF, NEWLINE], .readLine 0]

/-- The line gets no reply, whatever happens later: the task of the client has ended. -/
theorem dropped_unanswered : ∃ w s, (unix .sample).Trace malformed w s ∧
    Patient .sample 0 malformed ∧ Trusted .sample 0 malformed ∧
    s.linesSent malformed 0 = [[0xFF, NEWLINE]] ∧
    documentedReply .sample [0xFF, NEWLINE] = .errorParse ∧
    (∀ w' t, Machine.Steps (unix .sample) s w' t →
      written 0 (w ++ w') = [] ∧ (t.clients 0).phase = .ended) ∧
    ¬ Answered .sample 0 malformed w s := by
  obtain ⟨w₁, s₁, h₁, hw₁⟩ := Machine.exists_trace_of_exec (M := unix .sample) (malformed.take 2)
    (fun w _ => (delivered 0 w).length) 0 (by decide +kernel)
  obtain ⟨w, s, h, hw⟩ := Machine.exists_trace_of_exec (M := unix .sample) malformed
    (fun w s => ((s.clients 0).eof, (s.clients 0).phase.isEnded, s.core.task.isReturned,
      (requests 0 w).isEmpty, written 0 w))
    (false, true, false, true, []) (by decide +kernel)
  simp only [Prod.mk.injEq, List.isEmpty_iff] at hw
  obtain ⟨hf, hp, hret, hr, hw⟩ := hw
  have hpat : Patient .sample 0 malformed := by
    have p₁ : Patient .sample 0 (malformed.take 2) := Patient.nil.append rfl
    have p₂ : Patient .sample 0 (malformed.take 3) := p₁.send h₁ (by decide) hw₁
    exact p₂.silent rfl
  have ht : Trusted .sample 0 malformed :=
    ⟨⟨1000, 1000, 1⟩, List.mem_singleton_self _, fun _ h => (by cases h), fun _ h => by cases h⟩
  have hn : .unauthorized 0 ∉ w := fun hm => by
    have : .errorUnauthorized ∈ written 0 w := List.mem_filterMap.mpr ⟨_, hm, rfl⟩
    rw [hw] at this
    cases this
  have hlines : s.linesSent malformed 0 = [[0xFF, NEWLINE]] := by
    rw [UnixState.linesSent, hf]
    rfl
  have hnever (w' : List UnixEffect) (t : UnixState) (hs : Machine.Steps (unix .sample) s w' t) :
      written 0 (w ++ w') = [] ∧ (t.clients 0).phase = .ended := by
    obtain ⟨hp', hr', hn'⟩ := ended_stays hs (ended_of_isEnded hp)
    have hrun : (unix .sample).Run (w ++ w') t := Machine.Steps.trans h.run hs
    have hreq : requests 0 (w ++ w') = [] := by rw [requests_append, hr, hr']; rfl
    refine ⟨?_, hp'⟩
    rw [written_eq fun hm => (List.mem_append.mp hm).elim hn hn', replies_of_requests hrun hreq]
    rfl
  refine ⟨w, s, h, hpat, ht, hlines, by decide +kernel, hnever, fun ha => ?_⟩
  have hu := utf8_of_answered h hret ha [0xFF, NEWLINE] (by rw [hlines]; exact List.mem_singleton_self _)
  revert hu
  decide

/-- A client that sends a request, and then a line that does not parse. -/
def conversation : List UnixEvent :=
  [.main (.build true), .accept 0 (some ⟨1000, 1000, 1⟩), .clientSend 0 sampleRequest,
    .clientSend 0 [NEWLINE]] ++ handleLine 0 ++
    [.clientRead 0, .clientSend 0 (asciiBytes "what?" ++ [NEWLINE]), .readLine 0, .lock 0,
      .writeReply 0, .clientRead 0]

theorem documented_answers_sample : ∃ w s, (unix .sample).Trace conversation w s ∧
    written 0 w = [.ok, .errorParse] ∧ delivered 0 w = [.ok, .errorParse] ∧
    Answered .sample 0 conversation w s := by
  obtain ⟨w₁, s₁, h₁, hw₁⟩ := Machine.exists_trace_of_exec (M := unix .sample) (conversation.take 2)
    (fun w _ => (delivered 0 w).length) 0 (by decide +kernel)
  obtain ⟨w₂, s₂, h₂, hw₂⟩ := Machine.exists_trace_of_exec (M := unix .sample) (conversation.take 3)
    (fun w _ => (delivered 0 w).length) 0 (by decide +kernel)
  obtain ⟨w₃, s₃, h₃, hw₃⟩ := Machine.exists_trace_of_exec (M := unix .sample) (conversation.take 13)
    (fun w _ => (delivered 0 w).length) 1 (by decide +kernel)
  obtain ⟨w, s, h, hw⟩ := Machine.exists_trace_of_exec (M := unix .sample) conversation
    (fun w s => ((s.clients 0).eof, written 0 w, delivered 0 w))
    (false, [.ok, .errorParse], [.ok, .errorParse]) (by decide +kernel)
  simp only [Prod.mk.injEq] at hw
  obtain ⟨hf, hw, hd⟩ := hw
  have hpat : Patient .sample 0 conversation := by
    have p₁ : Patient .sample 0 (conversation.take 2) := Patient.nil.append rfl
    have p₂ : Patient .sample 0 (conversation.take 3) :=
      p₁.send h₁ (by decide +kernel) (hw₁.trans (by decide +kernel))
    have p₃ : Patient .sample 0 (conversation.take 4) :=
      p₂.send h₂ (by decide +kernel) (hw₂.trans (by decide +kernel))
    have p₄ : Patient .sample 0 (conversation.take 4 ++ (handleLine 0 ++ [.clientRead 0])) :=
      p₃.append (by decide +kernel)
    have p₅ : Patient .sample 0 (conversation.take 14) :=
      Patient.send p₄ h₃ (by decide +kernel) (hw₃.trans (by decide +kernel))
    have p₆ : Patient .sample 0 (conversation.take 14 ++ [.readLine 0, .lock 0, .writeReply 0, .clientRead 0]) :=
      p₅.append (by decide +kernel)
    exact p₆
  have ht : Trusted .sample 0 conversation :=
    ⟨⟨1000, 1000, 1⟩, List.mem_singleton_self _, fun _ h => (by cases h), fun _ h => by cases h⟩
  refine ⟨w, s, h, hw, hd, (documented_answers h hpat ht).1 ?_⟩
  rw [UnixState.linesSent, hf]
  decide +kernel

end Iec104Bridge
