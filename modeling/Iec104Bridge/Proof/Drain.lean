import Iec104Bridge.Framework.Termination
import Iec104Bridge.Proof.Isolation
import Iec104Bridge.Proof.Stream

/-!
# When nothing more comes in

Once the clients send no more and the masters ask no more, the bridge and the
clients that read their replies run out of steps, whatever their order
(`terminates_of_run`), for each step lowers `UnixState.work`. They are out of
steps only when nothing is left to do (`drained_of_idle`): no callback runs, no
task holds a line, and the channel is empty.
-/

namespace Iec104Bridge

open Framework

variable {cfg : UnixSettings} {s t : UnixState} {w : List UnixEffect} {e : UnixEvent}
  {o : Option UnixEffect} {c : ClientId} {n m : Nat}

/-- A step that needs nothing from outside: of the bridge, or a client reads a reply. -/
def UnixEvent.Working : UnixEvent → Prop
  | .clientRead _ | .reportError | .refuse _ | .readLine _ | .lock _ | .writeReply _ | .forward _ => True
  | .main .insert | .main .dispatch | .main .count | .take _ | .ackLock | .ackWrite => True
  | .gi _ (.request _) => False
  | .gi _ _ => True
  | _ => False

/-! ## What is left to do -/

/-- The steps a client and its task have left, those its lines make for others included. -/
def Client.work (client : Client) : Nat :=
  client.unread.length +
    match client.phase with
    | .absent | .ended => 0
    | .refusing => 2
    | .reading => 10 * client.incoming.length + 1
    | .rejecting .. => 10 * client.incoming.length + if .client ∈ client.writer then 3 else 4
    | .sending .. => 10 * client.incoming.length + 10

def ListenerPhase.work : ListenerPhase → Nat
  | .reporting => 9
  | _ => 0

def UnixState.taskWork (s : UnixState) : Nat :=
  match s.core.task with
  | .received .. => 7
  | .cached .. => 6
  | .acking id _ => if .loop ∈ (s.clients id.1).writer then 4 else 5
  | .acked _ => 2
  | _ => 0

/-- The steps a callback has left, with `size` points in the data store. -/
def GiPhase.work (size : Nat) : GiPhase → Nat
  | .idle => 0
  | .requested _ => size + 6
  | .confirmed => size + 5
  | .replaying _ todo _ => todo.length + 4
  | .replayed => 3
  | .counted => 2

/-- What is left to do for the lines of the clients below `n`. -/
def UnixState.lineWork (n : Nat) (s : UnixState) : Nat :=
  ∑ c ∈ Finset.range n, (s.clients c).work + 8 * s.channel.length + s.taskWork + s.listener.work

/-- What is left to do for the masters below `m`. -/
def State.giWork (m : Nat) (s : State LineId) : Nat :=
  ∑ conn ∈ Finset.range m, (s.gi conn).work s.cache.entries.card

def UnixState.work (n m : Nat) (s : UnixState) : ℕ ×ₗ ℕ := toLex (s.lineWork n, s.core.giWork m)

/-- The clients from `n` on and the masters from `m` on have not been heard of. -/
structure UnixState.Within (n m : Nat) (s : UnixState) : Prop where
  clients (c : ClientId) : n ≤ c → s.clients c = {}
  gi (conn : ConnId) : m ≤ conn → s.core.gi conn = .idle

theorem UnixState.Within.mono {n' m' : Nat} (h : s.Within n m) (hn : n ≤ n') (hm : m ≤ m') :
    s.Within n' m' where
  clients c hc := h.clients c (hn.trans hc)
  gi conn hc := h.gi conn (hm.trans hc)

/-- A step of the process concerns one callback at most. -/
theorem process_gi {cfg : Settings} {s t : State LineId} {a : Event LineId}
    {o : Option (Effect LineId)} (h : (process LineId cfg).step s a = some (t, o)) :
    ∃ d, ∀ conn, conn ≠ d → t.gi conn = s.gi conn := by
  rcases process_step h with h | ⟨d, h⟩
  · exact ⟨0, fun conn _ => by rw [h.frame.1]⟩
  · exact ⟨d, fun conn hc => h.gi_of_ne hc⟩

/-- A step concerns one client and one master at most. -/
theorem concerns_one (hs : UnixStep cfg s e t o) :
    (∃ d, ∀ c, c ≠ d → t.clients c = s.clients c) ∧
      ∃ d, ∀ conn, conn ≠ d → t.core.gi conn = s.core.gi conn := by
  cases hs with
  | client | clientRead | accept | leave | refuse | read | lock | reply | replyFailed | forward
  | giveUp | ackLock | ack | ackFailed =>
    exact ⟨⟨_, fun _ hc => UnixState.setClient_of_ne _ _ _ hc⟩, 0, fun _ _ => rfl⟩
  | acceptError | listenEnd | reportError | build | takeError | take =>
    exact ⟨⟨0, fun _ _ => rfl⟩, 0, fun _ _ => rfl⟩
  | core hs => exact ⟨⟨0, fun _ _ => rfl⟩, process_gi hs⟩
  | stop _ hs => exact ⟨⟨0, fun _ _ => rfl⟩, process_gi hs⟩

theorem within_of_run (h : (unix cfg).Run w s) : ∃ n m, s.Within n m := by
  refine h.invariant (P := fun _ s => ∃ n m, s.Within n m) ⟨0, 0, fun _ _ => rfl, fun _ _ => rfl⟩ ?_
  rintro w s e t o - ⟨n, m, hw⟩ hs
  obtain ⟨⟨c, hc⟩, conn, hconn⟩ := concerns_one (unixStep_cases hs)
  refine ⟨max n (c + 1), max m (conn + 1), fun d hd => ?_, fun d hd => ?_⟩
  · rw [hc d (Nat.ne_of_gt ((le_max_right _ _).trans hd))]
    exact hw.clients d ((le_max_left _ _).trans hd)
  · rw [hconn d (Nat.ne_of_gt ((le_max_right _ _).trans hd))]
    exact hw.gi d ((le_max_left _ _).trans hd)

/-! ## Steps of a client and its task -/

/-- A step of client `c` or its task, which has less left to do. -/
structure Lowers (c : ClientId) (s t : UnixState) : Prop where
  known : s.clients c ≠ {}
  others (d : ClientId) : d ≠ c → t.clients d = s.clients d
  core : t.core = s.core
  listener : t.listener = s.listener
  loop : .loop ∈ (t.clients c).writer ↔ .loop ∈ (s.clients c).writer
  work : (t.clients c).work + 8 * t.channel.length < (s.clients c).work + 8 * s.channel.length

/-- A client that is known changes, and the channel stays. -/
theorem Lowers.of_setClient {client : Client} (hk : s.clients c ≠ {})
    (hl : .loop ∈ client.writer ↔ .loop ∈ (s.clients c).writer)
    (hw : client.work < (s.clients c).work) : Lowers c s (s.setClient c client) where
  known := hk
  others _ hd := UnixState.setClient_of_ne _ _ _ hd
  core := rfl
  listener := rfl
  loop := by rw [UnixState.setClient_self, hl]
  work := by
    rw [UnixState.setClient_self, UnixState.setClient_channel]
    omega

theorem known_of_phase {phase : ClientPhase} (h : (s.clients c).phase = phase) (hp : phase ≠ .absent) :
    s.clients c ≠ {} := by
  rintro hc
  rw [hc] at h
  exact hp h.symm

/-- A line that is read is not empty. -/
theorem readLine_shorter {client : Client} {line rest : List UInt8}
    (h : client.readLine = .line line rest) : rest.length < client.incoming.length := by
  unfold Client.readLine at h
  split at h
  · rename_i hs
    cases h
    obtain ⟨hi, init, hl, -⟩ := splitLine_eq_some hs
    rw [hi, hl, List.length_append, List.length_append, List.length_singleton]
    omega
  · split at h <;> [skip; cases h]
    split at h <;> cases h
    exact List.length_pos_iff.mpr ‹_›

theorem clientRead_lowers (h : clientStep s c (.clientRead c) = some (t, o)) : Lowers c s t := by
  simp only [clientStep] at h
  split at h <;> [cases h; skip]
  rename_i reply unread hu
  split at h <;> cases h
  refine .of_setClient (fun hc => ?_) Iff.rfl ?_
  · rw [hc] at hu
    cases hu
  · show unread.length + _ < (s.clients c).unread.length + _
    rw [hu, List.length_cons]
    exact Nat.add_lt_add_right (Nat.lt_succ_self _) _

theorem readerStep_lowers (h : readerStep cfg s c e = some (t, o)) : Lowers c s t := by
  cases e with
  | refuse =>
    simp only [readerStep] at h
    split at h <;> [skip; cases h]
    rename_i hp
    have hk := known_of_phase hp (by simp)
    split at h
    · cases h
      refine .of_setClient hk Iff.rfl ?_
      simp only [Client.work, hp]
      omega
    split at h <;> cases h
    refine .of_setClient hk Iff.rfl ?_
    simp only [Client.work, hp, List.length_append, List.length_singleton]
    omega
  | readLine =>
    simp only [readerStep] at h
    split at h
    · cases h
      rename_i hp _
      refine .of_setClient (known_of_phase hp (by simp)) Iff.rfl ?_
      simp only [Client.work, hp]
      omega
    · rename_i line rest hp hl
      have hk := known_of_phase hp (by simp)
      have hlt := readLine_shorter hl
      split at h <;> cases h
      · refine .of_setClient hk Iff.rfl ?_
        cases processUnixSocketLine cfg.parse line line.length cfg.maxLineBytes with
        | error reply =>
          simp only [Client.work, hp]
          split <;> omega
        | ok message =>
          simp only [Client.work, hp]
          omega
      · refine .of_setClient hk Iff.rfl ?_
        simp only [Client.work, hp]
        omega
    · cases h
  | lock =>
    simp only [readerStep] at h
    split at h <;> [skip; cases h]
    rename_i hp
    split at h <;> cases h
    rename_i hn
    refine .of_setClient (known_of_phase hp (by simp)) (by simp) ?_
    simp only [Client.work, hp, if_neg hn, List.mem_append, List.mem_singleton, or_true, if_true]
    omega
  | writeReply =>
    simp only [readerStep] at h
    split at h <;> [skip; cases h]
    rename_i n reply writer hp hw
    have hk := known_of_phase hp (by simp)
    have hl : .loop ∈ writer ↔ .loop ∈ (s.clients c).writer := by simp [hw]
    have hmem : .client ∈ (s.clients c).writer := by simp [hw]
    split at h
    · cases h
      refine .of_setClient hk hl ?_
      simp only [Client.work, hp, if_pos hmem]
      omega
    split at h <;> cases h
    refine .of_setClient hk hl ?_
    simp only [Client.work, hp, if_pos hmem, List.length_append, List.length_singleton]
    omega
  | forward =>
    simp only [readerStep] at h
    split at h <;> [skip; cases h]
    rename_i n message hp
    have hk := known_of_phase hp (by simp)
    split at h
    · cases h
      refine .of_setClient hk Iff.rfl ?_
      simp only [Client.work, hp]
      omega
    split at h <;> cases h
    refine ⟨hk, fun d hd => UnixState.setClient_of_ne _ _ _ hd, rfl, rfl, ?_, ?_⟩
    · show .loop ∈ ((s.setClient c _).clients c).writer ↔ _
      rw [UnixState.setClient_self]
    · show ((s.setClient c _).clients c).work + 8 * (s.channel ++ _).length < _
      rw [UnixState.setClient_self, List.length_append, List.length_singleton]
      simp only [Client.work, hp]
      omega
  | _ => cases h

theorem known_lt (hw : s.Within n m) (hk : s.clients c ≠ {}) : c < n :=
  Nat.lt_of_not_le fun hc => hk (hw.clients c hc)

/-- The callbacks and the store are the same, and the clients have less to do. -/
theorem work_lt_of_lineWork (hl : t.lineWork n < s.lineWork n) : t.work n m < s.work n m :=
  Prod.Lex.toLex_lt_toLex.mpr (.inl hl)

theorem Lowers.taskWork (h : Lowers c s t) : t.taskWork = s.taskWork := by
  unfold UnixState.taskWork
  rw [h.core]
  split <;> [rfl; rfl; skip; rfl; rfl]
  rename_i id dispatched ht
  by_cases hc : id.1 = c
  · rw [hc]
    simp only [h.loop]
  · rw [h.others _ hc]

theorem Lowers.within (h : Lowers c s t) (hw : s.Within n m) : t.Within n m where
  clients d hd := by
    rw [h.others d (Nat.ne_of_gt ((known_lt hw h.known).trans_le hd))]
    exact hw.clients d hd
  gi conn hc := by
    rw [h.core]
    exact hw.gi conn hc

theorem Lowers.lineWork_lt (h : Lowers c s t) (hw : s.Within n m) : t.lineWork n < s.lineWork n := by
  have hsum := sum_range_change (f := fun d => (t.clients d).work) (g := fun d => (s.clients d).work)
    (known_lt hw h.known) fun d hd => congrArg Client.work (h.others d hd)
  have hlt := h.work
  simp only [UnixState.lineWork, h.taskWork, h.listener]
  omega

/-! ## Steps of the main loop -/

/-- The line that the main loop is at was read. -/
theorem known_of_current (h : (unix cfg).Run w s) {id : LineId} (hc : s.core.task.current = some id) :
    s.clients id.1 ≠ {} := by
  have hi := Lane.inv_of_run (lineLog_run h id.1)
  have hw : (laneOf id.1 s).working = some id.2 := by
    show s.core.task.current.bind (lineOf id.1) = some id.2
    rw [hc]
    exact lineOf_self id.1 id.2
  obtain ⟨message, hm⟩ := Lane.working_read hi hw
  have hlt : id.2 < (s.clients id.1).lines := Lane.read_lt hi hm
  intro hn
  rw [hn] at hlt
  exact absurd hlt (Nat.not_lt_zero _)

/-- A step that leaves the clients alone. -/
theorem lineWork_lt_of_clients (hc : t.clients = s.clients)
    (h : 8 * t.channel.length + t.taskWork + t.listener.work <
      8 * s.channel.length + s.taskWork + s.listener.work) : t.lineWork n < s.lineWork n := by
  simp only [UnixState.lineWork, hc]
  omega

theorem reportError_lineWork (h : listenerStep cfg s .reportError = some (t, o)) :
    t.clients = s.clients ∧ t.core = s.core ∧ t.lineWork n < s.lineWork n := by
  simp only [listenerStep] at h
  split at h <;> [skip; cases h]
  rename_i hl
  split at h
  · cases h
    refine ⟨rfl, rfl, lineWork_lt_of_clients rfl ?_⟩
    show 8 * s.channel.length + s.taskWork + 0 < _
    rw [hl]
    exact Nat.lt_add_of_pos_right (by decide)
  split at h <;> cases h
  refine ⟨rfl, rfl, lineWork_lt_of_clients rfl ?_⟩
  show 8 * (s.channel ++ [Item.acceptError]).length + s.taskWork + 0 < _
  rw [hl, List.length_append, List.length_singleton, ListenerPhase.work]
  omega

theorem UnixState.Within.congr (hw : s.Within n m) (hc : t.clients = s.clients)
    (hg : t.core.gi = s.core.gi) : t.Within n m where
  clients c h := by rw [hc]; exact hw.clients c h
  gi conn h := by rw [hg]; exact hw.gi conn h

/-- A step of the task that goes on with a message has less left to do. -/
theorem task_lineWork {event : TaskEvent LineId} {u : State LineId} {o : Option (Effect LineId)}
    (h : taskStep cfg.core s.core event = some (u, o)) (he : (Event.task event).Internal) :
    ({ s with core := u } : UnixState).lineWork n < s.lineWork n := by
  refine lineWork_lt_of_clients rfl ?_
  have hlt (hu : ({ s with core := u } : UnixState).taskWork < s.taskWork) :
      8 * s.channel.length + ({ s with core := u } : UnixState).taskWork + s.listener.work <
        8 * s.channel.length + s.taskWork + s.listener.work := by
    omega
  refine hlt ?_
  cases event with
  | insert =>
    simp only [taskStep] at h
    split at h <;> cases h
    rename_i ht _
    simp [UnixState.taskWork, ht]
  | dispatch =>
    simp only [taskStep] at h
    split at h <;> cases h
    rename_i ht
    simp only [UnixState.taskWork, ht]
    split <;> decide
  | count =>
    simp only [taskStep] at h
    split at h <;> [skip; cases h]
    rename_i ht
    split at h <;> cases h <;> simp [UnixState.taskWork, ht]
  | _ => exact he.elim

/-- An item is taken. -/
theorem take_lineWork {now : OffsetDateTime} (h : mainStep cfg s (.take now) = some (t, o)) :
    t.clients = s.clients ∧ t.core.gi = s.core.gi ∧ t.core.task.isRunning = true ∧
      t.lineWork n < s.lineWork n := by
  simp only [mainStep] at h
  split at h
  · cases h
  · rename_i channel hc
    obtain ⟨u, o', hs, rfl, rfl⟩ := coreStep_some h
    simp only [process, taskStep] at hs
    split at hs <;> cases hs
    rename_i ht
    refine ⟨rfl, rfl, ?_, lineWork_lt_of_clients rfl ?_⟩
    · show s.core.task.isRunning = true
      rw [show s.core.task = .selecting from ht]
      rfl
    show 8 * channel.length + s.taskWork + s.listener.work < _
    rw [hc, List.length_cons]
    omega
  · rename_i id message channel hc
    obtain ⟨u, o', hs, rfl, rfl⟩ := coreStep_some h
    simp only [process, taskStep] at hs
    split at hs <;> [skip; cases hs]
    split at hs <;> cases hs
    refine ⟨rfl, rfl, rfl, lineWork_lt_of_clients rfl ?_⟩
    show 8 * channel.length + 7 + s.listener.work < _
    rw [hc, List.length_cons]
    omega

/-- The client whose line is acknowledged gets its mutex asked for, or its reply. -/
structure AckStep (id : LineId) (s t : UnixState) : Prop where
  others (d : ClientId) : d ≠ id.1 → t.clients d = s.clients d
  gi : t.core.gi = s.core.gi
  running : t.core.task.isRunning = true
  channel : t.channel = s.channel
  listener : t.listener = s.listener
  work : (t.clients id.1).work + t.taskWork < (s.clients id.1).work + s.taskWork

theorem AckStep.lineWork_lt {id : LineId} (h : AckStep id s t) (hc : id.1 < n) :
    t.lineWork n < s.lineWork n := by
  have hsum := sum_range_change (f := fun d => (t.clients d).work) (g := fun d => (s.clients d).work) hc
    fun d hd => congrArg Client.work (h.others d hd)
  have hlt := h.work
  simp only [UnixState.lineWork, h.channel, h.listener]
  omega

theorem AckStep.within {id : LineId} (h : AckStep id s t) (hc : id.1 < n) (hw : s.Within n m) :
    t.Within n m where
  clients d hd := by
    rw [h.others d (Nat.ne_of_gt (hc.trans_le hd))]
    exact hw.clients d hd
  gi conn hconn := by
    rw [h.gi]
    exact hw.gi conn hconn

theorem ack_step (he : e = .ackLock ∨ e = .ackWrite) (h : mainStep cfg s e = some (t, o)) :
    ∃ id, s.core.task.current = some id ∧ AckStep id s t := by
  rcases he with rfl | rfl
  · simp only [mainStep] at h
    split at h <;> [skip; cases h]
    rename_i id dispatched ht
    split at h <;> cases h
    rename_i hn
    have hrun : s.core.task.isRunning = true := by rw [ht]; rfl
    refine ⟨id, by rw [ht]; rfl, fun d hd => UnixState.setClient_of_ne _ _ _ hd, rfl, hrun, rfl, rfl, ?_⟩
    simp only [UnixState.taskWork, UnixState.setClient_core, ht, UnixState.setClient_self, if_neg hn,
      Client.work, List.mem_append, List.mem_singleton, or_true, if_true]
    simp
  · simp only [mainStep] at h
    split at h <;> [skip; cases h]
    rename_i id dispatched ht
    split at h <;> [skip; cases h]
    rename_i writer hl
    split at h
    · obtain ⟨u, o', hs, rfl, rfl⟩ := coreStep_some h
      simp only [process, taskStep, UnixState.setClient, ht] at hs
      cases hs
      refine ⟨id, by rw [ht]; rfl, fun d hd => UnixState.setClient_of_ne _ _ _ hd, rfl, rfl, rfl, rfl, ?_⟩
      show ((s.setClient id.1 _).clients id.1).work + 0 < _
      simp only [UnixState.setClient_self, UnixState.taskWork, ht, Client.work, hl]
      simp
    split at h <;> [skip; cases h]
    obtain ⟨u, o', hs, rfl, rfl⟩ := coreStep_some h
    simp only [process, taskStep, UnixState.setClient, ht] at hs
    cases hs
    refine ⟨id, by rw [ht]; rfl, fun d hd => UnixState.setClient_of_ne _ _ _ hd, rfl, rfl, rfl, rfl, ?_⟩
    show ((s.setClient id.1 _).clients id.1).work + 2 < _
    simp only [UnixState.setClient_self, UnixState.taskWork, ht, Client.work, hl,
      List.length_append, List.length_singleton]
    simp
    omega

/-! ## Steps of a callback -/

/-- A callback that was asked something has less left to do. -/
theorem gi_work {cfg : Settings} {s t : State LineId} {conn : ConnId} {o : Option (Effect LineId)}
    {event : GiEvent} (h : giStep cfg s conn event = some (t, o)) (he : ∀ qoi, event ≠ .request qoi) :
    s.gi conn ≠ .idle ∧
      (t.gi conn).work s.cache.entries.card < (s.gi conn).work s.cache.entries.card := by
  have hidle : s.gi conn ≠ .idle := by
    intro hi
    cases event with
    | request qoi => exact he qoi rfl
    | _ => simp [giStep, hi] at h
  refine ⟨hidle, ?_⟩
  cases giStep_cases h with
  | request hi => exact absurd hi hidle
  | refuse hp | confirm hp | send hp | terminate hp =>
    rw [hp, State.setGi_gi_self]
    simp [GiPhase.work]
  | unlock hp | count hp =>
    rw [hp]
    show ((s.setGi conn _).gi conn).work _ < _
    rw [State.setGi_gi_self]
    simp [GiPhase.work]
  | @lock now order hp _ horder =>
    -- the callback visits each point of the store
    have hlen : order.length = s.cache.entries.card := by
      rw [← Multiset.coe_card, horder, Multiset.card_map]
    rw [hp]
    show ((s.setGi conn _).gi conn).work _ < _
    rw [State.setGi_gi_self, GiPhase.work, GiPhase.work, hlen]
    exact Nat.lt_succ_self _

/-- A step of a callback leaves the lines alone, and the callback has less left to do. -/
theorem gi_work_lt {conn : ConnId} {event : GiEvent} (h : mainStep cfg s (.gi conn event) = some (t, o))
    (he : ∀ qoi, event ≠ .request qoi) (hw : s.Within n m) : t.Within n m ∧ t.work n m < s.work n m := by
  obtain ⟨u, o', hs, rfl, rfl⟩ := coreStep_some h
  have hg := giStep_cases hs
  obtain ⟨hidle, hlt⟩ := gi_work hs he
  have hconn : conn < m := Nat.lt_of_not_le fun hc => hidle (hw.gi conn hc)
  refine ⟨⟨hw.clients, fun d hd => ?_⟩, Prod.Lex.toLex_lt_toLex.mpr (.inr ⟨?_, ?_⟩)⟩
  · show u.gi d = .idle
    rw [hg.gi_of_ne (Nat.ne_of_gt (hconn.trans_le hd))]
    exact hw.gi d hd
  · show UnixState.lineWork n _ = _
    simp only [UnixState.lineWork, UnixState.taskWork, hg.frame.2.1]
  · show u.giWork m < s.core.giWork m
    have hsum := sum_range_change (f := fun d => (u.gi d).work s.core.cache.entries.card)
      (g := fun d => (s.core.gi d).work s.core.cache.entries.card) hconn
      fun d hd => congrArg (GiPhase.work _) (hg.gi_of_ne hd)
    rw [State.giWork, State.giWork, hg.frame.1]
    omega

/-! ## The steps end -/

theorem work_lt (h : (unix cfg).Run w s) (hw : s.Within n m) (he : e.Working)
    (hs : (unix cfg).step s e = some (t, o)) : t.Within n m ∧ t.work n m < s.work n m := by
  have hown {c : ClientId} (hl : Lowers c s t) : t.Within n m ∧ t.work n m < s.work n m :=
    ⟨hl.within hw, work_lt_of_lineWork (hl.lineWork_lt hw)⟩
  have hreader (c : ClientId) (hs : readerStep cfg s c e = some (t, o)) :
      t.Within n m ∧ t.work n m < s.work n m := hown (readerStep_lowers hs)
  have hack (he : e = .ackLock ∨ e = .ackWrite) (hs : mainStep cfg s e = some (t, o)) :
      t.Within n m ∧ t.work n m < s.work n m := by
    obtain ⟨id, hc, ha⟩ := ack_step he hs
    have hlt := known_lt hw (known_of_current h hc)
    exact ⟨ha.within hlt hw, work_lt_of_lineWork (ha.lineWork_lt hlt)⟩
  have htask (event : TaskEvent LineId) (hi : (Event.task event).Internal)
      (hs : s.coreStep cfg (.task event) = some (t, o)) : t.Within n m ∧ t.work n m < s.work n m := by
    obtain ⟨u, o', hp, rfl, rfl⟩ := coreStep_some hs
    exact ⟨hw.congr rfl (taskStep_cases hp).frame.1, work_lt_of_lineWork (task_lineWork hp hi)⟩
  cases e with
  | clientRead c => exact hown (clientRead_lowers hs)
  | refuse c | readLine c | lock c | writeReply c | forward c => exact hreader c hs
  | reportError =>
    have hs : listenerStep cfg s .reportError = some (t, o) := hs
    obtain ⟨hc, hcore, hl⟩ := reportError_lineWork hs
    exact ⟨hw.congr hc (by rw [hcore]), work_lt_of_lineWork hl⟩
  | take now =>
    obtain ⟨hc, hg, -, hl⟩ := take_lineWork hs
    exact ⟨hw.congr hc hg, work_lt_of_lineWork hl⟩
  | ackLock => exact hack (.inl rfl) hs
  | ackWrite => exact hack (.inr rfl) hs
  | main event =>
    cases event with
    | insert => exact htask .insert trivial hs
    | dispatch => exact htask .dispatch trivial hs
    | count => exact htask .count trivial hs
    | _ => exact he.elim
  | gi conn event =>
    refine gi_work_lt hs (fun qoi hq => ?_) hw
    subst hq
    exact he
  | _ => exact he.elim

/-- Steps that need nothing from outside end, in whatever order they are taken. -/
theorem terminates_of_run (h : (unix cfg).Run w s) : (unix cfg).Terminates UnixEvent.Working s := by
  obtain ⟨n, m, hw⟩ := within_of_run h
  refine Machine.Terminates.of_rank (UnixState.work n m)
    (I := fun s => (∃ w, (unix cfg).Run w s) ∧ s.Within n m) ?_ ⟨⟨w, h⟩, hw⟩
  rintro s e t o ⟨⟨w, h⟩, hw⟩ he hs
  obtain ⟨hw', hlt⟩ := work_lt h hw he hs
  exact ⟨⟨⟨_, h.tail hs⟩, hw'⟩, hlt⟩

/-! ## What is left when they have ended -/

/-- Nothing is under way. -/
structure UnixState.Drained (s : UnixState) : Prop where
  gi (conn : ConnId) : s.core.gi conn = .idle
  task : s.core.task = .starting ∨ s.core.task = .selecting ∨ s.core.task.isReturned = true
  channel : s.channel = []
  listener : s.listener ≠ .reporting
  client (c : ClientId) : (s.clients c).phase = .absent ∨ (s.clients c).phase = .ended ∨
    (s.clients c).phase = .reading ∧ (s.clients c).readLine = .pending
  unread (c : ClientId) : (s.clients c).unread = [] ∨ (s.clients c).gone = true

/-- A callback goes on, but for the lock, and the one that holds the lock goes on. -/
theorem gi_of_idle (hi : (unix cfg).Idle UnixEvent.Working s) (h : (unix cfg).Run w s) :
    s.core.dataLock = none ∧ ∀ conn, s.core.gi conn = .idle := by
  have hstep (conn : ConnId) (event : GiEvent) (he : ∀ qoi, event ≠ .request qoi) :
      giStep cfg.core s.core conn event = none := by
    have hw : (UnixEvent.gi conn event).Working := by
      cases event with
      | request qoi => exact absurd rfl (he qoi)
      | _ => trivial
    have hn := hi _ hw
    simp only [unix, unixStep, mainStep, UnixState.coreStep, process] at hn
    split at hn
    · assumption
    · cases hn
  have hlock (conn : ConnId) (now : OffsetDateTime) (todo : List CachedPoint) (sink : ConnectionSink) :
      s.core.gi conn ≠ .replaying now todo sink := by
    intro hp
    cases todo with
    | nil =>
      have := hstep conn .unlock (by simp)
      simp [giStep, hp] at this
    | cons point todo =>
      have := hstep conn (.send true) (by simp)
      simp [giStep, hp] at this
  have hnone : s.core.dataLock = none := by
    refine Option.eq_none_iff_forall_ne_some.mpr fun conn hl => ?_
    have hgi := (dataLock_iff ((unix_process cfg).run h) conn).mp hl
    cases hp : s.core.gi conn with
    | replaying now todo sink => exact hlock conn now todo sink hp
    | _ =>
      rw [hp] at hgi
      exact hgi
  refine ⟨hnone, fun conn => ?_⟩
  cases hp : s.core.gi conn with
  | idle => rfl
  | requested qoi =>
    have := hstep conn (.confirm true) (by simp)
    simp only [giStep, hp] at this
    split at this <;> cases this
  | confirmed =>
    have := hstep conn (.lock ⟨0, 0⟩ (s.core.cache.entries.map Sigma.snd).toList) (by simp)
    simp [giStep, hp, hnone] at this
  | replaying now todo sink => exact absurd hp (hlock conn now todo sink)
  | replayed =>
    have := hstep conn .count (by simp)
    simp [giStep, hp] at this
  | counted =>
    have := hstep conn (.terminate true) (by simp)
    simp [giStep, hp] at this

/-- The clients have read what was written to them. -/
theorem unread_of_idle (hi : (unix cfg).Idle UnixEvent.Working s) (c : ClientId) :
    (s.clients c).unread = [] ∨ (s.clients c).gone = true := by
  have hn := hi (.clientRead c) trivial
  simp only [unix, unixStep, clientStep] at hn
  split at hn
  · exact .inl ‹_›
  · split at hn
    · exact .inr ‹_›
    · cases hn

/-- No write waits. -/
theorem room_of_idle (hi : (unix cfg).Idle UnixEvent.Working s) (c : ClientId) (reply : Reply) :
    (s.clients c).gone = true ∨ (s.clients c).HasRoom cfg.sendBuffer reply := by
  refine (unread_of_idle hi c).symm.imp_right fun hu => ?_
  have hle := reply.size_le
  have hroom := cfg.sendBuffer_room
  show bufferedBytes (s.clients c).unread + reply.size ≤ cfg.sendBuffer
  rw [hu]
  show 0 + reply.size ≤ cfg.sendBuffer
  omega

/-- A task that holds the mutex of its writer writes. -/
theorem head_of_idle (hi : (unix cfg).Idle UnixEvent.Working s) (h : (unix cfg).Run w s)
    (c : ClientId) : (s.clients c).writer.head? ≠ some .client := by
  intro hh
  obtain ⟨writer, hw⟩ := List.head?_eq_some_iff.mp hh
  obtain ⟨n, reply, hp⟩ := (owned_of_run h c).rejecting (by simp [hw])
  have hn := hi (.writeReply c) trivial
  simp only [unix, unixStep, readerStep, hp, hw] at hn
  rcases room_of_idle hi c reply with hg | hr
  · simp [hg] at hn
  · by_cases hg : (s.clients c).gone = true <;> simp [hg, hr] at hn

/-- The main loop is at no message, since the mutex it waits for is released. -/
theorem task_of_idle (hi : (unix cfg).Idle UnixEvent.Working s) (h : (unix cfg).Run w s) :
    s.core.task = .starting ∨ s.core.task = .selecting ∨ s.core.task.isReturned = true := by
  rcases (served_of_run h).phase with hp | hp | hp
  · exact .inl hp
  · exact .inr (.inr hp)
  have hlock := (gi_of_idle hi h).1
  cases ht : s.core.task with
  | selecting => exact .inr (.inl rfl)
  | received id message now =>
    have hn := hi (.main .insert) trivial
    simp [unix, unixStep, mainStep, UnixState.coreStep, process, taskStep, ht, hlock] at hn
  | cached id message now =>
    have hn := hi (.main .dispatch) trivial
    simp [unix, unixStep, mainStep, UnixState.coreStep, process, taskStep, ht] at hn
  | acked dispatched =>
    have hn := hi (.main .count) trivial
    cases dispatched <;>
      simp [unix, unixStep, mainStep, UnixState.coreStep, process, taskStep, ht] at hn
  | acking id dispatched =>
    have hmem : .loop ∈ (s.clients id.1).writer := by
      by_contra hl
      have hn := hi .ackLock trivial
      simp [unix, unixStep, mainStep, ht, hl] at hn
    cases hw : (s.clients id.1).writer with
    | nil => simp [hw] at hmem
    | cons x writer =>
      cases x with
      | client => exact absurd (by rw [hw]; rfl) (head_of_idle hi h id.1)
      | loop =>
        have hn := hi .ackWrite trivial
        rcases room_of_idle hi id.1 .ok with hg | hr
        · simp [unix, unixStep, mainStep, ht, hw, hg, UnixState.coreStep, process, taskStep] at hn
        · by_cases hg : (s.clients id.1).gone = true <;>
            simp [unix, unixStep, mainStep, ht, hw, hg, hr, UnixState.coreStep, process, taskStep] at hn
  | _ =>
    rw [ht] at hp
    cases hp

/-- The channel is empty, since the main loop takes from it. -/
theorem channel_of_idle (hi : (unix cfg).Idle UnixEvent.Working s) (h : (unix cfg).Run w s) :
    s.channel = [] := by
  have hv := served_of_run h
  rcases task_of_idle hi h with ht | ht | ht
  · exact (hv.starting ht).1
  · cases hc : s.channel with
    | nil => rfl
    | cons item rest =>
      have hn := hi (.take ⟨0, 0⟩) trivial
      cases item with
      | acceptError =>
        rw [step_takeError hc ht] at hn
        cases hn
      | message id message =>
        have hm : message.Valid := hv.queued id message (by rw [hc]; exact List.mem_cons_self)
        rw [step_take hc ht hm] at hn
        cases hn
  · exact hv.returned ht

/-- A task waits for more of a line. -/
theorem client_of_idle (hi : (unix cfg).Idle UnixEvent.Working s) (h : (unix cfg).Run w s)
    (c : ClientId) : (s.clients c).phase = .absent ∨ (s.clients c).phase = .ended ∨
      (s.clients c).phase = .reading ∧ (s.clients c).readLine = .pending := by
  cases hp : (s.clients c).phase with
  | absent => exact .inl rfl
  | ended => exact .inr (.inl rfl)
  | refusing =>
    have hn := hi (.refuse c) trivial
    simp only [unix, unixStep, readerStep, hp] at hn
    rcases room_of_idle hi c .errorUnauthorized with hg | hr
    · simp [hg] at hn
    · by_cases hg : (s.clients c).gone = true <;> simp [hg, hr] at hn
  | reading =>
    refine .inr (.inr ⟨rfl, ?_⟩)
    have hn := hi (.readLine c) trivial
    simp only [unix, unixStep, readerStep, hp] at hn
    cases hl : (s.clients c).readLine with
    | pending => rfl
    | eof => simp [hl] at hn
    | line line rest =>
      simp only [hl] at hn
      split at hn <;> cases hn
  | rejecting n reply =>
    have hmem : .client ∈ (s.clients c).writer := by
      by_contra hl
      have hn := hi (.lock c) trivial
      simp [unix, unixStep, readerStep, hp, hl] at hn
    cases hw : (s.clients c).writer with
    | nil => simp [hw] at hmem
    | cons x writer =>
      cases x with
      | client => exact absurd (by rw [hw]; rfl) (head_of_idle hi h c)
      | loop =>
        -- the main loop holds the mutex for an acknowledgement only
        obtain ⟨m, dispatched, ht⟩ := (owned_of_run h c).acking (by simp [hw])
        rcases task_of_idle hi h with hs | hs | hs <;> rw [ht] at hs <;> cases hs
  | sending n message =>
    have hn := hi (.forward c) trivial
    have hc := channel_of_idle hi h
    by_cases hr : s.core.task.isReturned = true <;>
      simp [unix, unixStep, readerStep, hp, hr, hc, UNIX_SOCKET_BACKLOG] at hn

/-- When no step is left that needs nothing from outside, nothing is under way. -/
theorem drained_of_idle (hi : (unix cfg).Idle UnixEvent.Working s) (h : (unix cfg).Run w s) :
    s.Drained where
  gi := (gi_of_idle hi h).2
  task := task_of_idle hi h
  channel := channel_of_idle hi h
  listener hl := by
    have hn := hi .reportError trivial
    have hc := channel_of_idle hi h
    by_cases hr : s.core.task.isReturned = true <;>
      simp [unix, unixStep, listenerStep, hl, hr, hc, UNIX_SOCKET_BACKLOG] at hn
  client := client_of_idle hi h
  unread := unread_of_idle hi

end Iec104Bridge
