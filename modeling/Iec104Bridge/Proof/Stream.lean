import Iec104Bridge.Framework.Trace
import Iec104Bridge.Proof.Replies

/-!
# What clients send and what is read of it

`InputStep` says what a step does to what a client sent: only the task of an
authorized client reads it, line by line, and nothing else changes it. So the
lines taken off the stream of a client, and those of what is still to be read,
are the lines the client sent (`streamRead_of_trace`).
-/

namespace Iec104Bridge

open Framework

variable {cfg : UnixSettings} {s t : UnixState} {as : List UnixEvent} {w : List UnixEffect}
  {e : UnixEvent} {o : Option UnixEffect} {c : ClientId}

theorem eof_of_readLine {client : Client} (h : client.readLine = .eof) :
    client.eof = true ∧ client.incoming = [] := by
  unfold Client.readLine at h
  split at h
  · cases h
  · split at h
    · split at h
      · exact ⟨‹_›, ‹_›⟩
      · cases h
    · cases h

/-! ## Inputs -/

/-- What a step has client `c` send. -/
def UnixEvent.sentBy (c : ClientId) : UnixEvent → List UInt8
  | .clientSend d bytes => if d = c then bytes else []
  | _ => []

/-- The stream of a client. -/
def sent (c : ClientId) (as : List UnixEvent) : List UInt8 := as.flatMap (UnixEvent.sentBy c)

/-- The credential lookup of client `c`, when it is accepted. -/
def UnixEvent.lookup (c : ClientId) : UnixEvent → Option (Option PeerCred)
  | .accept d peer => if d = c then some peer else none
  | _ => none

/-- The credential lookups of a client: one, once it is accepted. -/
def lookups (c : ClientId) (as : List UnixEvent) : List (Option PeerCred) :=
  as.filterMap (UnixEvent.lookup c)

theorem sent_concat (c : ClientId) (as : List UnixEvent) (e : UnixEvent) :
    sent c (as ++ [e]) = sent c as ++ e.sentBy c := by
  simp [sent]

theorem lookups_concat (c : ClientId) (as : List UnixEvent) (e : UnixEvent) :
    lookups c (as ++ [e]) = lookups c as ++ (e.lookup c).toList := by
  cases h : e.lookup c <;> simp [lookups, h]

theorem requests_append (c : ClientId) (w w' : List UnixEffect) :
    requests c (w ++ w') = requests c w ++ requests c w' := List.filterMap_append ..

theorem written_append (c : ClientId) (w w' : List UnixEffect) :
    written c (w ++ w') = written c w ++ written c w' := List.filterMap_append ..

/-- A step that leaves alone what a client sent. -/
structure Client.Quiet (returned : Bool) (client client' : Client) : Prop where
  incoming : client'.incoming = client.incoming
  eof : client'.eof = client.eof
  gone : client'.gone = client.gone
  lines : client'.lines = client.lines
  still : client.phase = .absent ∨ client.phase = .refusing ∨ client.phase = .ended →
    client'.phase = client.phase
  started : client'.phase = .absent ∨ client'.phase = .refusing → client'.phase = client.phase
  /-- A task ends at the end of its input, after a failed write, or with the main loop. -/
  ended : client'.phase = .ended →
    client.phase = .ended ∨ (client.eof = true ∧ client.incoming = []) ∨ client.gone = true ∨
      returned = true

theorem Client.Quiet.refl (returned : Bool) (client : Client) : client.Quiet returned client :=
  ⟨rfl, rfl, rfl, rfl, fun _ => rfl, fun _ => rfl, fun h => .inl h⟩

/-- A task that reads goes on to read, or ends. -/
theorem Client.Quiet.move {returned : Bool} {client : Client} {phase : ClientPhase}
    {writer : List Writer} {unread : List Reply}
    (hp : client.phase = .reading ∨ client.phase.slot.isSome = true)
    (hn : phase = .reading ∨ phase = .ended ∧
      ((client.eof = true ∧ client.incoming = []) ∨ client.gone = true ∨ returned = true)) :
    client.Quiet returned { client with phase, writer, unread } where
  incoming := rfl
  eof := rfl
  gone := rfl
  lines := rfl
  still hs := by rcases hs with hs | hs | hs <;> rw [hs] at hp <;> simp [ClientPhase.slot] at hp
  started hs := by
    rcases hn with rfl | ⟨rfl, -⟩
    · rcases hs with hs | hs <;> cases hs
    · rcases hs with hs | hs <;> cases hs
  ended he := by
    rcases hn with rfl | ⟨rfl, hn⟩
    · cases he
    · exact .inr hn

theorem Client.Quiet.same {returned : Bool} {client : Client} {writer : List Writer}
    {unread : List Reply} : client.Quiet returned { client with writer, unread } :=
  ⟨rfl, rfl, rfl, rfl, fun _ => rfl, fun _ => rfl, fun h => .inl h⟩

/-- What a step can do to what client `c` sent. -/
inductive InputStep (cfg : UnixSettings) (c : ClientId) (returned : Bool) (client : Client)
    (e : UnixEvent) : Client → Option UnixEffect → Prop
  | send {bytes : List UInt8} : e = .clientSend c bytes → client.eof = false →
    InputStep cfg c returned client e { client with incoming := client.incoming ++ bytes } none
  | close {gone : Bool} :
    e = .clientShutdown c ∧ gone = client.gone ∨ e = .clientClose c ∧ gone = true →
    InputStep cfg c returned client e { client with eof := true, gone } none
  | accept {peer : Option PeerCred} : e = .accept c peer → client.phase = .absent →
    InputStep cfg c returned client e { client with phase := handleUnixClient cfg peer }
      (some (.accepted c peer))
  | refuse : e = .refuse c → client.phase = .refusing →
    InputStep cfg c returned client e
      { client with phase := .ended, unread := client.unread ++ [.errorUnauthorized] }
      (some (.unauthorized c))
  | refuseFailed : e = .refuse c → client.phase = .refusing → client.gone = true →
    InputStep cfg c returned client e { client with phase := .ended } (some (.left c))
  | read {line rest : List UInt8} {verdict : Except Reply Iec104Message} : e = .readLine c →
    client.phase = .reading → client.readLine = .line line rest → validUtf8 line = true →
    verdict = processUnixSocketLine cfg.parse line line.length cfg.maxLineBytes →
    InputStep cfg c returned client e
      { client with
        phase := match verdict with
          | .error reply => .rejecting client.lines reply
          | .ok message => .sending client.lines message
        incoming := rest
        lines := client.lines + 1 }
      (some (.read (c, client.lines) line verdict))
  | drop {line rest : List UInt8} : e = .readLine c → client.phase = .reading →
    client.readLine = .line line rest → validUtf8 line = false →
    InputStep cfg c returned client e { client with phase := .ended, incoming := rest } (some (.left c))
  | quiet {client' : Client} {o : Option UnixEffect} : e.sentBy c = [] → e.lookup c = none →
    client.Quiet returned client' → requests c o.toList = [] →
    (∀ x ∈ o, x ≠ .unauthorized c) → InputStep cfg c returned client e client' o

/-- The client an event is about, but for those of the main loop. -/
def UnixEvent.owner : UnixEvent → Option ClientId
  | .clientSend c _ | .clientShutdown c | .clientClose c | .clientRead c => some c
  | .accept c _ | .refuse c | .readLine c | .lock c | .writeReply c | .forward c => some c
  | _ => none

/-- The client an effect is about, but for those of the main loop. -/
def UnixEffect.owner : UnixEffect → Option ClientId
  | .core _ => none
  | .accepted c _ | .delivered c _ | .unauthorized c | .left c => some c
  | .read id _ _ | .forwarded id | .replied id _ | .replyFailed id => some id.1

theorem sentBy_of_owner {d : ClientId} (h : e.owner = some d) (hd : c ≠ d) : e.sentBy c = [] := by
  cases e with
  | clientSend =>
    cases h
    exact if_neg (Ne.symm hd)
  | _ => rfl

theorem lookup_of_owner {d : ClientId} (h : e.owner = some d) (hd : c ≠ d) : e.lookup c = none := by
  cases e with
  | accept =>
    cases h
    exact if_neg (Ne.symm hd)
  | _ => rfl

theorem requests_of_owner {d : ClientId} (h : ∀ x ∈ o, x.owner = some d) (hd : c ≠ d) :
    requests c o.toList = [] ∧ ∀ x ∈ o, x ≠ .unauthorized c := by
  cases o with
  | none => exact ⟨rfl, fun x hx => by cases hx⟩
  | some x =>
    have hx := h x rfl
    constructor
    · cases x with
      | read id =>
        cases hx
        simp [requests, UnixEffect.toRequest, lineOf_of_ne hd]
      | _ => rfl
    · rintro y hy rfl
      cases hy
      cases hx
      exact hd rfl

/-- A step on client `d`, from what it does to this client. -/
theorem InputStep.of_setClient {d : ClientId} {client' : Client} {returned : Bool}
    (h : InputStep cfg d returned (s.clients d) e client' o)
    (ht : t.clients = (s.setClient d client').clients) (he : e.owner = some d)
    (ho : ∀ x ∈ o, x.owner = some d) (c : ClientId) :
    InputStep cfg c returned (s.clients c) e (t.clients c) o := by
  rw [ht]
  by_cases hd : c = d
  · subst hd
    rwa [UnixState.setClient_self]
  · rw [UnixState.setClient_of_ne _ _ _ hd]
    obtain ⟨hr, hu⟩ := requests_of_owner ho hd
    exact .quiet (sentBy_of_owner he hd) (lookup_of_owner he hd) (.refl _ _) hr hu

/-- A step of the process touches no client. -/
theorem coreStep_clients {event : Event LineId} (h : s.coreStep cfg event = some (t, o)) :
    t.clients = s.clients ∧ ∀ x ∈ o, ∃ y, x = .core y := by
  obtain ⟨u, o', -, rfl, rfl⟩ := coreStep_some h
  refine ⟨rfl, fun x hx => ?_⟩
  obtain ⟨y, -, rfl⟩ := Option.map_eq_some_iff.mp hx
  exact ⟨y, rfl⟩

/-- The acknowledgement touches the writer of a client. -/
theorem quiet_setClient {returned : Bool} {d : ClientId} {writer : List Writer} {unread : List Reply} :
    (s.clients c).Quiet returned ((s.setClient d { s.clients d with writer, unread }).clients c) := by
  by_cases hd : c = d
  · subst hd
    rw [UnixState.setClient_self]
    exact .same
  · rw [UnixState.setClient_of_ne _ _ _ hd]
    exact .refl _ _

/-- The main loop reads nothing of what a client sent. -/
theorem mainStep_quiet {returned : Bool} (h : mainStep cfg s e = some (t, o)) (c : ClientId) :
    (s.clients c).Quiet returned (t.clients c) ∧ ∀ x ∈ o, ∃ y, x = .core y := by
  have hcore {s' : UnixState} {event : Event LineId} (h : s'.coreStep cfg event = some (t, o))
      (hc : s'.clients = s.clients) :
      (s.clients c).Quiet returned (t.clients c) ∧ ∀ x ∈ o, ∃ y, x = .core y := by
    obtain ⟨ht, ho⟩ := coreStep_clients h
    rw [ht, hc]
    exact ⟨.refl _ _, ho⟩
  cases e with
  | main event =>
    simp only [mainStep] at h
    split at h <;> first | exact hcore h rfl | cases h
  | take now =>
    simp only [mainStep] at h
    split at h <;> first | exact hcore h rfl | cases h
  | ackLock =>
    simp only [mainStep] at h
    split at h <;> [skip; cases h]
    split at h <;> cases h
    exact ⟨quiet_setClient, fun x hx => by cases hx⟩
  | ackWrite =>
    simp only [mainStep] at h
    split at h <;> [skip; cases h]
    split at h <;> [skip; cases h]
    split at h
    · obtain ⟨ht, ho⟩ := coreStep_clients h
      rw [ht]
      exact ⟨quiet_setClient, ho⟩
    · split at h <;> [skip; cases h]
      obtain ⟨ht, ho⟩ := coreStep_clients h
      rw [ht]
      exact ⟨quiet_setClient, ho⟩
  | gi conn event => exact hcore h rfl
  | _ => cases h

theorem requests_core (ho : ∀ x ∈ o, ∃ y, x = .core y) (c : ClientId) :
    requests c o.toList = [] ∧ ∀ x ∈ o, x ≠ .unauthorized c := by
  cases o with
  | none => exact ⟨rfl, fun x hx => by cases hx⟩
  | some x =>
    obtain ⟨y, rfl⟩ := ho x rfl
    exact ⟨rfl, fun x hx => by cases hx; exact fun he => by cases he⟩

theorem InputStep.quiet_self {returned : Bool} {client client' : Client} {x : UnixEffect}
    (hs : e.sentBy c = []) (hl : e.lookup c = none) (hr : x.toRequest c = none)
    (hu : x ≠ .unauthorized c) (hq : client.Quiet returned client') :
    InputStep cfg c returned client e client' (some x) := by
  refine .quiet hs hl hq (by simp [requests, hr]) ?_
  rintro y hy
  cases hy
  exact hu

theorem owner_some {x : UnixEffect} {d : ClientId} (h : x.owner = some d) : ∀ y ∈ some x, y.owner = some d := by
  rintro y hy
  cases hy
  exact h

theorem owner_none {d : ClientId} : ∀ y ∈ (none : Option UnixEffect), y.owner = some d := by
  rintro y hy
  cases hy

/-- The task of a client reads what the client sent. -/
theorem readerStep_input {d : ClientId} (h : readerStep cfg s d e = some (t, o))
    (he : e = .refuse d ∨ e = .readLine d ∨ e = .lock d ∨ e = .writeReply d ∨ e = .forward d)
    (c : ClientId) : InputStep cfg c s.core.task.isReturned (s.clients c) e (t.clients c) o := by
  rcases he with rfl | rfl | rfl | rfl | rfl
  · -- `refuse`
    simp only [readerStep] at h
    split at h <;> [skip; cases h]
    rename_i hp
    split at h
    · cases h
      exact .of_setClient (.refuseFailed rfl hp ‹_›) rfl rfl (owner_some rfl) c
    · split at h <;> cases h
      exact .of_setClient (.refuse rfl hp) rfl rfl (owner_some rfl) c
  · -- `readLine`
    simp only [readerStep] at h
    split at h
    · cases h
      rename_i hp hr
      refine .of_setClient ?_ rfl rfl (owner_some rfl) c
      exact .quiet_self rfl rfl rfl (fun h => by cases h)
        (.move (.inl hp) (.inr ⟨rfl, .inl (eof_of_readLine hr)⟩))
    · rename_i line rest hp hr
      split at h <;> cases h
      · exact .of_setClient (.read rfl hp hr ‹_› rfl) rfl rfl (owner_some rfl) c
      · exact .of_setClient (.drop rfl hp hr (Bool.not_eq_true _ ▸ ‹_›)) rfl rfl (owner_some rfl) c
    · cases h
  · -- `lock`
    simp only [readerStep] at h
    split at h <;> [skip; cases h]
    split at h <;> cases h
    refine .of_setClient ?_ rfl rfl owner_none c
    exact .quiet rfl rfl .same rfl fun x hx => by cases hx
  · -- `writeReply`
    simp only [readerStep] at h
    split at h <;> [skip; cases h]
    rename_i n reply writer hp hw
    have hslot : (s.clients d).phase.slot.isSome = true := by rw [hp]; rfl
    split at h
    · cases h
      refine .of_setClient ?_ rfl rfl (owner_some rfl) c
      exact .quiet_self rfl rfl rfl (fun h => by cases h)
        (.move (.inr hslot) (.inr ⟨rfl, .inr (.inl ‹_›)⟩))
    · split at h <;> cases h
      refine .of_setClient ?_ rfl rfl (owner_some rfl) c
      exact .quiet_self rfl rfl rfl (fun h => by cases h) (.move (.inr hslot) (.inl rfl))
  · -- `forward`
    simp only [readerStep] at h
    split at h <;> [skip; cases h]
    rename_i n message hp
    have hslot : (s.clients d).phase.slot.isSome = true := by rw [hp]; rfl
    split at h
    · cases h
      refine .of_setClient ?_ rfl rfl (owner_some rfl) c
      exact .quiet_self rfl rfl rfl (fun h => by cases h)
        (.move (.inr hslot) (.inr ⟨rfl, .inr (.inr ‹_›)⟩))
    · split at h <;> cases h
      refine .of_setClient ?_ rfl rfl (owner_some rfl) c
      exact .quiet_self rfl rfl rfl (fun h => by cases h) (.move (.inr hslot) (.inl rfl))

theorem clientStep_input {d : ClientId} (h : clientStep s d e = some (t, o))
    (he : e = .clientShutdown d ∨ e = .clientClose d ∨ e = .clientRead d ∨
      ∃ bytes, e = .clientSend d bytes) (c : ClientId) :
    InputStep cfg c s.core.task.isReturned (s.clients c) e (t.clients c) o := by
  rcases he with rfl | rfl | rfl | ⟨bytes, rfl⟩
  · cases h
    exact .of_setClient (.close (.inl ⟨rfl, rfl⟩)) rfl rfl owner_none c
  · cases h
    exact .of_setClient (.close (.inr ⟨rfl, rfl⟩)) rfl rfl owner_none c
  · simp only [clientStep] at h
    split at h <;> [cases h; skip]
    split at h <;> cases h
    refine .of_setClient ?_ rfl rfl (owner_some rfl) c
    exact .quiet_self rfl rfl rfl (fun h => by cases h) .same
  · simp only [clientStep] at h
    split at h <;> cases h
    exact .of_setClient (.send rfl (Bool.not_eq_true _ ▸ ‹_›)) rfl rfl owner_none c

theorem listenerStep_input (h : listenerStep cfg s e = some (t, o)) (c : ClientId) :
    InputStep cfg c s.core.task.isReturned (s.clients c) e (t.clients c) o := by
  have hno (x : UnixEffect) (hx : x ∈ (none : Option UnixEffect)) : x ≠ .unauthorized c := by
    cases hx
  cases e with
  | accept d peer =>
    simp only [listenerStep] at h
    split at h <;> cases h
    exact .of_setClient (.accept rfl ‹_›) rfl rfl (owner_some rfl) c
  | acceptError =>
    simp only [listenerStep] at h
    split at h <;> cases h
    exact .quiet rfl rfl (.refl _ _) rfl hno
  | reportError =>
    simp only [listenerStep] at h
    split at h <;> [skip; cases h]
    split at h
    · cases h
      exact .quiet rfl rfl (.refl _ _) rfl hno
    · split at h <;> cases h
      exact .quiet rfl rfl (.refl _ _) rfl hno
  | _ => cases h

/-- Every step is a step of each client's input. -/
theorem inputStep_of_step (h : (unix cfg).step s e = some (t, o)) (c : ClientId) :
    InputStep cfg c s.core.task.isReturned (s.clients c) e (t.clients c) o := by
  have hmain (hs : e.sentBy c = []) (hl : e.lookup c = none) (h : mainStep cfg s e = some (t, o)) :
      InputStep cfg c s.core.task.isReturned (s.clients c) e (t.clients c) o := by
    obtain ⟨hq, ho⟩ := mainStep_quiet h c
    obtain ⟨hr, hu⟩ := requests_core ho c
    exact .quiet hs hl hq hr hu
  cases e with
  | clientSend d | clientShutdown d | clientClose d | clientRead d =>
    refine clientStep_input (d := d) ?_ (by simp) c
    exact h
  | accept | acceptError | reportError =>
    refine listenerStep_input ?_ c
    exact h
  | refuse d | readLine d | lock d | writeReply d | forward d =>
    refine readerStep_input (d := d) ?_ (by simp) c
    exact h
  | main | take | ackLock | ackWrite | gi =>
    refine hmain rfl rfl ?_
    exact h

/-! ## Lines -/

/-- The lines of a stream with their newlines, and what follows the last of them. -/
def splitLines : List UInt8 → List (List UInt8) × List UInt8
  | [] => ([], [])
  | b :: rest =>
    let r := splitLines rest
    if b = NEWLINE then ([b] :: r.1, r.2)
    else
      match r.1 with
      | [] => ([], b :: r.2)
      | line :: lines => ((b :: line) :: lines, r.2)

/-- The lines a client sent: at the end of the stream the last one needs no newline. -/
def linesOf (eof : Bool) (bytes : List UInt8) : List (List UInt8) :=
  (splitLines bytes).1 ++ if eof = true ∧ (splitLines bytes).2 ≠ [] then [(splitLines bytes).2] else []

theorem splitLines_of_none {bytes : List UInt8} (h : splitLine bytes = none) :
    splitLines bytes = ([], bytes) := by
  induction bytes with
  | nil => rfl
  | cons b rest ih =>
    simp only [splitLine] at h
    split at h
    · cases h
    · have hr := ih (Option.map_eq_none_iff.mp h)
      simp only [splitLines, hr, if_neg ‹_›]

theorem splitLines_of_some {bytes line rest : List UInt8} (h : splitLine bytes = some (line, rest)) :
    splitLines bytes = (line :: (splitLines rest).1, (splitLines rest).2) := by
  induction bytes generalizing line with
  | nil => cases h
  | cons b bytes ih =>
    simp only [splitLine] at h
    split at h
    · rename_i hb
      cases h
      simp [splitLines, hb]
    · obtain ⟨⟨l, r⟩, hr, he⟩ := Option.map_eq_some_iff.mp h
      cases he
      simp only [splitLines, ih hr, if_neg ‹_›]

/-- What follows a line does not change it. -/
theorem splitLine_append {bytes line rest : List UInt8} (h : splitLine bytes = some (line, rest))
    (more : List UInt8) : splitLine (bytes ++ more) = some (line, rest ++ more) := by
  induction bytes generalizing line with
  | nil => cases h
  | cons b bytes ih =>
    simp only [splitLine, List.cons_append] at h ⊢
    split at h
    · cases h
      rw [if_pos ‹_›]
    · obtain ⟨⟨l, r⟩, hr, he⟩ := Option.map_eq_some_iff.mp h
      cases he
      rw [if_neg ‹_›, ih hr]
      rfl

/-- A line ends at its first newline. -/
theorem splitLine_eq_some {bytes chunk rest : List UInt8} (h : splitLine bytes = some (chunk, rest)) :
    bytes = chunk ++ rest ∧ ∃ init, chunk = init ++ [NEWLINE] ∧ NEWLINE ∉ init := by
  induction bytes generalizing chunk with
  | nil => cases h
  | cons b bytes ih =>
    simp only [splitLine] at h
    split at h
    · rename_i hb
      cases h
      exact ⟨rfl, [], by rw [hb]; rfl, by simp⟩
    · rename_i hb
      obtain ⟨⟨l, r⟩, hr, he⟩ := Option.map_eq_some_iff.mp h
      cases he
      obtain ⟨hbytes, init, hl, hn⟩ := ih hr
      exact ⟨congrArg (b :: ·) hbytes, b :: init, congrArg (b :: ·) hl, by simp [hn, Ne.symm hb]⟩

theorem splitLine_eq_none {bytes : List UInt8} : splitLine bytes = none ↔ NEWLINE ∉ bytes := by
  induction bytes with
  | nil => exact iff_of_true rfl (by simp)
  | cons b bytes ih =>
    simp only [splitLine]
    split
    · rename_i hb
      exact iff_of_false (by simp) (by simp [hb])
    · rename_i hb
      rw [Option.map_eq_none_iff, ih, List.mem_cons, not_or]
      exact ⟨fun h => ⟨Ne.symm hb, h⟩, fun h => h.2⟩

theorem splitLine_newline {init : List UInt8} (h : NEWLINE ∉ init) (rest : List UInt8) :
    splitLine (init ++ NEWLINE :: rest) = some (init ++ [NEWLINE], rest) := by
  induction init with
  | nil => simp [splitLine]
  | cons b init ih =>
    rw [List.mem_cons, not_or] at h
    rw [List.cons_append, splitLine, if_neg (Ne.symm h.1), ih h.2]
    rfl

theorem linesOf_of_some {bytes line rest : List UInt8} (eof : Bool)
    (h : splitLine bytes = some (line, rest)) : linesOf eof bytes = line :: linesOf eof rest := by
  unfold linesOf
  rw [splitLines_of_some h]
  rfl

/-- The line that is read is the first one. -/
theorem linesOf_readLine {client : Client} {line rest : List UInt8}
    (h : client.readLine = .line line rest) :
    linesOf client.eof client.incoming = line :: linesOf client.eof rest ∧
      (client.eof = false → ∀ more eof, linesOf eof (client.incoming ++ more) =
        line :: linesOf eof (rest ++ more)) := by
  unfold Client.readLine at h
  split at h
  · rename_i hs
    cases h
    exact ⟨linesOf_of_some _ hs, fun _ more eof => linesOf_of_some eof (splitLine_append hs more)⟩
  · rename_i hs
    split at h
    · rename_i he
      split at h
      · cases h
      · rename_i hne
        cases h
        refine ⟨?_, fun hf => by rw [he] at hf; cases hf⟩
        simp [linesOf, splitLines_of_none hs, he, hne, splitLines]
    · cases h

/-- Nothing is left to read. -/
theorem linesOf_of_not_line {client : Client} (h : ∀ line rest, client.readLine ≠ .line line rest) :
    linesOf client.eof client.incoming = [] := by
  unfold Client.readLine at h
  split at h
  · exact absurd rfl (h _ _)
  · rename_i hs
    unfold linesOf
    rw [splitLines_of_none hs]
    split at h
    · split at h
      · rename_i hn
        simp [hn]
      · exact absurd rfl (h _ _)
    · rename_i he
      simp [he]

/-- A line for each newline. -/
theorem length_splitLines (bytes : List UInt8) :
    (splitLines bytes).1.length = bytes.count NEWLINE := by
  induction bytes with
  | nil => rfl
  | cons b rest ih =>
    simp only [splitLines]
    by_cases hb : b = NEWLINE
    · rw [if_pos hb, hb, List.count_cons_self, List.length_cons, ih]
    · rw [if_neg hb, List.count_cons_of_ne hb, ← ih]
      split
      · rename_i hr
        rw [hr]
      · rename_i hr
        rw [hr]
        rfl

/-- Nothing follows a newline at the end. -/
theorem splitLines_newline (bytes : List UInt8) : (splitLines (bytes ++ [NEWLINE])).2 = [] := by
  induction bytes with
  | nil => rfl
  | cons b rest ih =>
    have hlen := length_splitLines (rest ++ [NEWLINE])
    rw [List.cons_append]
    simp only [splitLines]
    split
    · exact ih
    · split
      · rename_i hr
        simp [hr] at hlen
      · exact ih

/-- What follows the lines does not change them. -/
theorem splitLines_mono (bytes more : List UInt8) :
    (splitLines bytes).1 <+: (splitLines (bytes ++ more)).1 := by
  induction bytes with
  | nil => exact List.nil_prefix
  | cons b rest ih =>
    rw [List.cons_append]
    simp only [splitLines]
    split
    · exact (List.prefix_cons_inj _).mpr ih
    · split
      · exact List.nil_prefix
      · rename_i line lines hr
        rw [hr] at ih
        obtain ⟨lines', hl⟩ := ih
        rw [← hl]
        exact ⟨lines', rfl⟩

theorem linesOf_subset (bytes more : List UInt8) (eof : Bool) :
    linesOf false bytes ⊆ linesOf eof (bytes ++ more) := by
  intro line hl
  rw [linesOf, if_neg (by simp), List.append_nil] at hl
  exact List.mem_append_left _ ((splitLines_mono bytes more).subset hl)

theorem linesOf_eof_subset (bytes : List UInt8) (eof : Bool) : linesOf eof bytes ⊆ linesOf true bytes := by
  cases eof with
  | true => exact List.Subset.refl _
  | false =>
    have h := linesOf_subset bytes [] true
    rwa [List.append_nil] at h

/-- A client with a line to send: what it sends ends its line or has no newline. -/
theorem splitLines_single (bytes : List UInt8) {more : List UInt8} (h : NEWLINE ∉ more.dropLast) :
    (splitLines (bytes ++ more)).1.length ≤ (splitLines bytes).1.length ∨
      (splitLines (bytes ++ more)).1.length ≤ (splitLines bytes).1.length + 1 ∧
        (splitLines (bytes ++ more)).2 = [] := by
  rcases List.eq_nil_or_concat more with rfl | ⟨init, b, rfl⟩
  · left
    rw [List.append_nil]
  rw [List.concat_eq_append, List.dropLast_concat] at h
  rw [List.concat_eq_append, length_splitLines, length_splitLines, List.count_append, List.count_append,
    List.count_eq_zero.mpr h]
  by_cases hb : b = NEWLINE
  · right
    subst hb
    rw [← List.append_assoc]
    exact ⟨by simp, splitLines_newline _⟩
  · left
    simp [hb]

/-! ## What is read -/

/-- The lines read from a client. -/
def readLines (c : ClientId) (w : List UnixEffect) : List (List UInt8) :=
  (requests c w).map fun x => x.2.1

theorem readLines_append (c : ClientId) (w w' : List UnixEffect) :
    readLines c (w ++ w') = readLines c w ++ readLines c w' := by
  rw [readLines, requests_append, List.map_append]
  rfl

/-- The lines client `c` sent. -/
def UnixState.linesSent (s : UnixState) (as : List UnixEvent) (c : ClientId) : List (List UInt8) :=
  linesOf (s.clients c).eof (sent c as)

/-- The lines of the stream of a client: those taken off it, of which the task
reads those that are UTF-8, and those still to be taken. -/
structure StreamRead (c : ClientId) (as : List UnixEvent) (w : List UnixEffect) (client : Client)
    (taken : List (List UInt8)) : Prop where
  read : taken.filter validUtf8 = readLines c w
  now : linesOf client.eof (sent c as) = taken ++ linesOf client.eof client.incoming
  /-- Whatever the client will send. -/
  later : client.eof = false → ∀ more eof,
    linesOf eof (sent c as ++ more) = taken ++ linesOf eof (client.incoming ++ more)

/-- A step that neither sends nor reads. -/
theorem StreamRead.keep {client client' : Client} {taken : List (List UInt8)}
    (h : StreamRead c as w client taken) (hs : e.sentBy c = []) (hr : requests c o.toList = [])
    (hi : client'.incoming = client.incoming) (he : client'.eof = client.eof) :
    StreamRead c (as ++ [e]) (w ++ o.toList) client' taken := by
  have hread : readLines c (w ++ o.toList) = readLines c w := by
    rw [readLines_append, readLines, readLines, hr, List.map_nil, List.append_nil]
  have hsent : sent c (as ++ [e]) = sent c as := by rw [sent_concat, hs, List.append_nil]
  constructor
  · rw [hread]
    exact h.read
  · rw [hsent, hi, he]
    exact h.now
  · rw [hsent, hi, he]
    exact h.later

/-- A line is taken off the stream. -/
theorem StreamRead.take {client client' : Client} {line rest : List UInt8}
    {taken : List (List UInt8)} (h : StreamRead c as w client taken) (hs : e.sentBy c = [])
    (hl : client.readLine = .line line rest) (hr : readLines c o.toList = [line].filter validUtf8)
    (hi : client'.incoming = rest) (he : client'.eof = client.eof) :
    StreamRead c (as ++ [e]) (w ++ o.toList) client' (taken ++ [line]) := by
  obtain ⟨hnow, hlater⟩ := linesOf_readLine hl
  have hsent : sent c (as ++ [e]) = sent c as := by rw [sent_concat, hs, List.append_nil]
  constructor
  · rw [readLines_append, hr, List.filter_append, h.read]
  · rw [hsent, hi, he, h.now, hnow, List.append_assoc]
    rfl
  · intro hf more eof
    rw [he] at hf
    rw [hsent, hi, h.later hf, hlater hf, List.append_assoc]
    rfl

/-- Each line is taken whole and in its turn. -/
theorem streamRead_of_trace (h : (unix cfg).Trace as w s) (c : ClientId) :
    ∃ taken, StreamRead c as w (s.clients c) taken := by
  refine h.invariant (P := fun as w s => ∃ taken, StreamRead c as w (s.clients c) taken)
    ⟨[], rfl, rfl, fun _ _ _ => rfl⟩ ?_
  rintro as w s e t o - ⟨taken, ih⟩ hs
  have hi := inputStep_of_step hs c
  generalize s.clients c = client at ih hi
  generalize t.clients c = client' at hi
  cases hi with
  | @send bytes he hf =>
    subst he
    have hsent : sent c (as ++ [.clientSend c bytes]) = sent c as ++ bytes := by
      rw [sent_concat, UnixEvent.sentBy, if_pos rfl]
    refine ⟨taken, ?_, ?_, fun _ more eof => ?_⟩
    · show _ = readLines c (w ++ [])
      rw [List.append_nil]
      exact ih.read
    · rw [hsent]
      exact ih.later hf bytes client.eof
    · rw [hsent, List.append_assoc, ih.later hf, List.append_assoc]
  | @close gone he =>
    have hsent : sent c (as ++ [e]) = sent c as := by
      rcases he with ⟨rfl, -⟩ | ⟨rfl, -⟩ <;> rw [sent_concat] <;> exact List.append_nil _
    refine ⟨taken, ?_, ?_, fun hf => by cases hf⟩
    · show _ = readLines c (w ++ [])
      rw [List.append_nil]
      exact ih.read
    · show linesOf true _ = taken ++ linesOf true client.incoming
      rw [hsent]
      cases hf : client.eof with
      | true =>
        have hnow := ih.now
        rwa [hf] at hnow
      | false =>
        have hnow := ih.later hf [] true
        rwa [List.append_nil, List.append_nil] at hnow
  | accept he =>
    subst he
    exact ⟨taken, ih.keep rfl rfl rfl rfl⟩
  | refuse he | refuseFailed he =>
    subst he
    exact ⟨taken, ih.keep rfl rfl rfl rfl⟩
  | @read line rest verdict he _ hl hu =>
    subst he
    refine ⟨taken ++ [line], ih.take rfl hl ?_ rfl rfl⟩
    simp [readLines, requests, UnixEffect.toRequest, hu]
  | @drop line rest he _ hl hu =>
    subst he
    refine ⟨taken ++ [line], ih.take rfl hl ?_ rfl rfl⟩
    simp [readLines, requests, UnixEffect.toRequest, hu]
  | quiet hsent _ hq hr => exact ⟨taken, ih.keep hsent hr hq.incoming hq.eof⟩

end Iec104Bridge
