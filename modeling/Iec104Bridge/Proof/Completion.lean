import Iec104Bridge.Proof.Drain
import Iec104Bridge.Proof.Answers
import Iec104Bridge.Proof.Shuffle

/-!
# What has happened when nothing is under way

A client that is authorized, stays, and sends UTF-8 (`Steady`) has its task
until the end of its input (`stopped_of_trace`). So when the bridge has run out
of steps, each of its lines was read and handled, and has the documented reply,
also when it did not wait for the replies (`nothing_left`).
-/

namespace Iec104Bridge

open Framework

variable {cfg : UnixSettings} {s t : UnixState} {as : List UnixEvent} {w : List UnixEffect}
  {e : UnixEvent} {o : Option UnixEffect} {c : ClientId}

/-- The client is authorized, it does not go, and its lines are UTF-8. -/
structure Steady (cfg : UnixSettings) (c : ClientId) (as : List UnixEvent) (s : UnixState) : Prop where
  trusted : Trusted cfg c as
  stays : .clientClose c ∉ as
  utf8 (line : List UInt8) : line ∈ s.linesSent as c → validUtf8 line = true

/-! ## Why a task ends -/

/-- What ends the task of a client. -/
def Stopped (cfg : UnixSettings) (c : ClientId) (as : List UnixEvent) (s : UnixState) : Prop :=
  (∃ peer ∈ lookups c as, ∀ p, peer = some p → ¬ cfg.Authorizes p) ∨ (s.clients c).gone = true ∨
    ((s.clients c).eof = true ∧ (s.clients c).incoming = []) ∨ s.core.task.isReturned = true ∨
    ∃ line ∈ s.linesSent as c, validUtf8 line = false

theorem Stopped.mono (h : Stopped cfg c as s) (hs : (unix cfg).step s e = some (t, o))
    (hg : (s.clients c).gone = true → (t.clients c).gone = true)
    (he : (s.clients c).eof = true → (s.clients c).incoming = [] →
      (t.clients c).eof = true ∧ (t.clients c).incoming = []) : Stopped cfg c (as ++ [e]) t := by
  rcases h with ⟨peer, hp, ha⟩ | h | h | h | ⟨line, hl, hu⟩
  · refine .inl ⟨peer, ?_, ha⟩
    rw [lookups_concat]
    exact List.mem_append_left _ hp
  · exact .inr (.inl (hg h))
  · exact .inr (.inr (.inl (he h.1 h.2)))
  · exact .inr (.inr (.inr (.inl (isReturned_mono hs h))))
  · exact .inr (.inr (.inr (.inr ⟨line, linesSent_subset hs hl, hu⟩)))

/-- The next line was sent. -/
theorem mem_linesSent_of_readLine (h : (unix cfg).Trace as w s) {line rest : List UInt8}
    (hl : (s.clients c).readLine = .line line rest) : line ∈ s.linesSent as c := by
  obtain ⟨taken, hr⟩ := streamRead_of_trace h c
  have hnow : s.linesSent as c = taken ++ linesOf (s.clients c).eof (s.clients c).incoming := hr.now
  rw [hnow, (linesOf_readLine hl).1]
  exact List.mem_append_right _ List.mem_cons_self

theorem not_authorized_of_handled {peer : Option PeerCred}
    (h : handleUnixClient cfg peer = .ended ∨ handleUnixClient cfg peer = .refusing) :
    ∀ p, peer = some p → ¬ cfg.Authorizes p := by
  rintro p rfl ha
  rw [handleUnixClient_reading ha] at h
  rcases h with h | h <;> cases h

/-- A task that has ended, or refuses, has a reason. -/
theorem stopped_of_trace (h : (unix cfg).Trace as w s)
    (hp : (s.clients c).phase = .ended ∨ (s.clients c).phase = .refusing) : Stopped cfg c as s := by
  refine h.invariant (P := fun as _ s =>
    (s.clients c).phase = .ended ∨ (s.clients c).phase = .refusing → Stopped cfg c as s)
    (fun hp => by rcases hp with hp | hp <;> cases hp) ?_ hp
  intro as w s e t o h ih hs hp
  have hi := inputStep_of_step hs c
  have hmono (hstop : Stopped cfg c as s) := hstop.mono hs
  have hline {line rest : List UInt8} (hl : (s.clients c).readLine = .line line rest) :
      line ∈ t.linesSent (as ++ [e]) c := linesSent_subset hs (mem_linesSent_of_readLine h hl)
  have hpeer {peer : Option PeerCred} (hl : e.lookup c = some peer)
      (ha : ∀ p, peer = some p → ¬ cfg.Authorizes p) : Stopped cfg c (as ++ [e]) t := by
    refine .inl ⟨peer, ?_, ha⟩
    rw [lookups_concat, hl]
    exact List.mem_append_right _ (List.mem_singleton_self _)
  have hgone (hg : (t.clients c).gone = true) : Stopped cfg c (as ++ [e]) t := .inr (.inl hg)
  have heof (hf : (t.clients c).eof = true) (hn : (t.clients c).incoming = []) :
      Stopped cfg c (as ++ [e]) t := .inr (.inr (.inl ⟨hf, hn⟩))
  have hret (hr : s.core.task.isReturned = true) : Stopped cfg c (as ++ [e]) t :=
    .inr (.inr (.inr (.inl (isReturned_mono hs hr))))
  have hutf {line : List UInt8} (hl : line ∈ t.linesSent (as ++ [e]) c)
      (hu : validUtf8 line = false) : Stopped cfg c (as ++ [e]) t :=
    .inr (.inr (.inr (.inr ⟨line, hl, hu⟩)))
  generalize s.clients c = client at hi ih hmono hline
  generalize t.clients c = client' at hi hp hmono hgone heof
  cases hi with
  | send _ hf => exact hmono (ih hp) id fun hf' => absurd hf' (by rw [hf]; decide)
  | close he =>
    refine hmono (ih hp) (fun hg => ?_) fun _ hn => ⟨rfl, hn⟩
    rcases he with ⟨-, hg'⟩ | ⟨-, hg'⟩
    · exact hg'.trans hg
    · exact hg'
  | accept he =>
    subst he
    exact hpeer (if_pos rfl) (not_authorized_of_handled hp)
  | refuse _ hr => exact hmono (ih (.inr hr)) id fun hf hn => ⟨hf, hn⟩
  | refuseFailed _ hr => exact hmono (ih (.inr hr)) id fun hf hn => ⟨hf, hn⟩
  | @read _ _ verdict =>
    cases verdict <;> rcases hp with hp | hp <;> cases hp
  | drop _ _ hl hu => exact hutf (hline hl) hu
  | quiet _ _ hq =>
    rcases hp with hp | hp
    · rcases hq.ended hp with hp' | ⟨hf, hn⟩ | hg | hr
      · exact hmono (ih (.inl hp')) (fun hg => hq.gone.trans hg)
          fun hf hn => ⟨hq.eof.trans hf, hq.incoming.trans hn⟩
      · exact heof (hq.eof.trans hf) (hq.incoming.trans hn)
      · exact hgone (hq.gone.trans hg)
      · exact hret hr
    · have hp' := (hq.started (.inr hp)).symm.trans hp
      exact hmono (ih (.inr hp')) (fun hg => hq.gone.trans hg)
        fun hf hn => ⟨hq.eof.trans hf, hq.incoming.trans hn⟩

/-- Only a client accepted as an unauthorized peer is refused. -/
theorem unrefused_of_admitted (h : (unix cfg).Trace as w s)
    (ha : ∀ peer ∈ lookups c as, ∃ p, peer = some p ∧ cfg.Authorizes p) :
    .unauthorized c ∉ w ∧ (s.clients c).phase ≠ .refusing := by
  refine h.invariant (P := fun as w s =>
    (∀ peer ∈ lookups c as, ∃ p, peer = some p ∧ cfg.Authorizes p) →
      .unauthorized c ∉ w ∧ (s.clients c).phase ≠ .refusing)
    (fun _ => ⟨List.not_mem_nil, fun h => by cases h⟩) ?_ ha
  intro as w s e t o _ ih hs ha
  rw [lookups_concat] at ha
  obtain ⟨hn, hp⟩ := ih fun peer hm => ha peer (List.mem_append_left _ hm)
  have hi := inputStep_of_step hs c
  generalize s.clients c = client at hi hp
  generalize t.clients c = client' at hi
  have hnew (ho : ∀ x ∈ o, x ≠ .unauthorized c) : .unauthorized c ∉ w ++ o.toList := by
    intro hm
    exact (List.mem_append.mp hm).elim hn fun hm => ho _ (Option.mem_toList.mp hm) rfl
  cases hi with
  | send | close => exact ⟨hnew (by simp), hp⟩
  | @accept peer he =>
    subst he
    obtain ⟨p, rfl, hauth⟩ := ha peer (List.mem_append_right _ (by simp [UnixEvent.lookup]))
    refine ⟨hnew (by simp), ?_⟩
    rw [handleUnixClient_reading hauth]
    exact fun h => by cases h
  | refuse _ hr | refuseFailed _ hr => exact absurd hr hp
  | @read _ _ verdict => exact ⟨hnew (by simp), by cases verdict <;> exact fun h => by cases h⟩
  | drop => exact ⟨hnew (by simp), fun h => by cases h⟩
  | quiet _ _ hq _ ho => exact ⟨hnew ho, fun hr => hp ((hq.started (.inr hr)).symm.trans hr)⟩

/-- A client that does not close stays. -/
theorem here_of_stays (h : (unix cfg).Trace as w s) (hn : .clientClose c ∉ as) :
    (s.clients c).gone = false := by
  refine h.invariant (P := fun as _ s => .clientClose c ∉ as → (s.clients c).gone = false)
    (fun _ => rfl) ?_ hn
  intro as w s e t o _ ih hs hn
  rw [List.mem_append, not_or] at hn
  have hi := inputStep_of_step hs c
  have ih := ih hn.1
  generalize s.clients c = client at hi ih
  generalize t.clients c = client' at hi
  cases hi with
  | close he =>
    rcases he with ⟨-, hg⟩ | ⟨rfl, -⟩
    · exact hg.trans ih
    · exact absurd (List.mem_singleton_self _) hn.2
  | quiet _ _ hq => exact hq.gone.trans ih
  | _ => exact ih

/-- No write to a client that stays fails. -/
theorem unfailed_of_stays (h : (unix cfg).Trace as w s) (hn : .clientClose c ∉ as) (n : Nat) :
    .failed n ∉ lineLog c w ∧ .replyFailed n ∉ lineLog c w := by
  refine h.invariant (P := fun as w _ => .clientClose c ∉ as →
    .failed n ∉ lineLog c w ∧ .replyFailed n ∉ lineLog c w)
    (fun _ => ⟨List.not_mem_nil, List.not_mem_nil⟩) ?_ hn
  intro as w s e t o h ih hs hn
  rw [List.mem_append, not_or] at hn
  have hg := here_of_stays h hn.1
  have hnew (ho : o.bind (UnixEffect.toLine c) = some (.failed n) ∨
      o.bind (UnixEffect.toLine c) = some (.replyFailed n)) : False := by
    rw [gone_of_failed (unixStep_cases hs) ho] at hg
    cases hg
  rw [lineLog_concat, List.mem_append, List.mem_append, not_or, not_or, Option.mem_toList,
    Option.mem_toList]
  exact ⟨⟨(ih hn.1).1, fun h => hnew (.inl h)⟩, (ih hn.1).2, fun h => hnew (.inr h)⟩

/-! ## The lines and the replies of a client -/

/-- Nothing is left to read of a steady client. -/
theorem read_of_drained (h : (unix cfg).Trace as w s) (hd : s.Drained)
    (hr : s.core.task.isReturned = false) (hc : Steady cfg c as s) :
    (s.clients c).phase.slot = none ∧ ∀ line rest, (s.clients c).readLine ≠ .line line rest := by
  obtain ⟨hl, hadm⟩ := admitted_of_trusted h hc.trusted
  rcases hd.client c with hp | hp | ⟨hp, hread⟩
  · rcases lookups_of_trace h c with hn | ⟨-, hn⟩
    · exact absurd hn hl
    · exact absurd hp hn
  · refine ⟨by rw [hp]; rfl, fun line rest hread => ?_⟩
    rcases stopped_of_trace h (.inl hp) with ⟨peer, hm, ha⟩ | hg | ⟨hf, hn⟩ | hret | ⟨line, hm, hu⟩
    · obtain ⟨p, rfl, hauth⟩ := hadm peer hm
      exact ha p rfl hauth
    · rw [here_of_stays h hc.stays] at hg
      cases hg
    · have hlt := readLine_shorter hread
      rw [hn] at hlt
      exact absurd hlt (Nat.not_lt_zero _)
    · rw [hr] at hret
      cases hret
    · rw [hc.utf8 line hm] at hu
      cases hu
  · refine ⟨by rw [hp]; rfl, fun line rest hl => ?_⟩
    rw [hread] at hl
    cases hl

/-- The documented reply to each line, by the number of the line. -/
def repliesDue (cfg : UnixSettings) (lines : List (List UInt8)) : List (Nat × Reply) :=
  lines.zipIdx.map fun x => (x.2, documentedReply cfg x.1)

/-- Each line of a steady client was read. -/
theorem readLines_of_drained (h : (unix cfg).Trace as w s) (hd : s.Drained)
    (hr : s.core.task.isReturned = false) (hc : Steady cfg c as s) :
    readLines c w = s.linesSent as c := by
  obtain ⟨taken, hs⟩ := streamRead_of_trace h c
  have hnow : s.linesSent as c = taken ++ linesOf (s.clients c).eof (s.clients c).incoming := hs.now
  rw [linesOf_of_not_line (read_of_drained h hd hr hc).2, List.append_nil] at hnow
  rw [← hs.read, ← hnow]
  exact List.filter_eq_self.mpr hc.utf8

/-- The main loop took the valid lines of a steady client, in order. -/
theorem processed_of_drained (h : (unix cfg).Trace as w s) (hd : s.Drained)
    (hr : s.core.task.isReturned = false) (hc : Steady cfg c as s) :
    ofSource c (processed w) = validRequests cfg (s.linesSent as c) := by
  obtain ⟨hslot, hread⟩ := read_of_drained h hd hr hc
  have hq : (laneOf c s).queue = [] := by
    show s.channel.filterMap (Item.of c) = []
    rw [hd.channel]
    rfl
  have hs : (laneOf c s).slotAccepted = [] := by
    rw [Lane.slotAccepted, show (laneOf c s).slot = none from hslot]
    rfl
  rw [accepted_account h hr, hq, hs, linesOf_of_not_line hread]
  simp [validRequests]

/-- There are as many replies as lines. -/
theorem length_replies_of_drained (h : (unix cfg).Trace as w s) (hd : s.Drained)
    (ht : s.core.task = .selecting) (hc : Steady cfg c as s) :
    (replies c w).length = (s.linesSent as c).length := by
  have hr : s.core.task.isReturned = false := by rw [ht]; rfl
  have hlen := Lane.length_reads (Lane.inv_of_run (lineLog_run h.run c)) hr
    (fun n => (unfailed_of_stays h hc.stays n).1) fun n => (unfailed_of_stays h hc.stays n).2
  have hslot : (laneOf c s).slot = none := (read_of_drained h hd hr hc).1
  have hq : (laneOf c s).queue = [] := by
    show s.channel.filterMap (Item.of c) = []
    rw [hd.channel]
    rfl
  have hw : (laneOf c s).working = none := by
    show s.core.task.current.bind (lineOf c) = none
    rw [ht]
    rfl
  rw [hslot, hq, hw] at hlen
  rw [replies_eq, List.length_map, ← readLines_of_drained h hd hr hc, length_readLines, hlen]
  rfl

/-- Each line has the documented reply, once. -/
theorem replies_of_drained (h : (unix cfg).Trace as w s) (hd : s.Drained)
    (ht : s.core.task = .selecting) (hc : Steady cfg c as s) :
    (replies c w).Perm (repliesDue cfg (s.linesSent as c)) := by
  have hr : s.core.task.isReturned = false := by rw [ht]; rfl
  have hnodup : (replies c w).Nodup := by
    refine List.Nodup.of_map Prod.fst ?_
    rw [replies_eq, List.map_map]
    exact Lane.answers_nodup (lineLog_run h.run c)
  have hsub : replies c w ⊆ repliesDue cfg (s.linesSent as c) := by
    rintro ⟨n, reply⟩ hm
    obtain ⟨line, verdict, hreq, rfl⟩ := request_of_reply h.run hm
    obtain ⟨hl, rfl⟩ := requests_of_trace h hreq
    rw [readLines_of_drained h hd hr hc] at hl
    exact List.mem_map.mpr ⟨(line, n), List.mem_zipIdx_iff_getElem?.mpr hl, rfl⟩
  refine (List.subperm_of_subset hnodup hsub).perm_of_length_le ?_
  rw [repliesDue, List.length_map, List.length_zipIdx, length_replies_of_drained h hd ht hc]

/-- A steady client received the replies to its lines, and nothing else. -/
theorem delivered_of_drained (h : (unix cfg).Trace as w s) (hd : s.Drained) (hc : Steady cfg c as s) :
    delivered c w = (replies c w).map Prod.snd := by
  have hall := delivered_unread h.run c
  have hu := (unrefused_of_admitted h (admitted_of_trusted h hc.trusted).2).1
  have hn : (s.clients c).unread = [] := by
    refine (hd.unread c).resolve_right fun hg => ?_
    rw [here_of_stays h hc.stays] at hg
    cases hg
  rw [hn, List.append_nil] at hall
  rw [hall, written_eq hu]

/-! ## Steps that need nothing from outside -/

theorem linesSent_of_working (he : e.Working) (hs : (unix cfg).step s e = some (t, o)) (c : ClientId) :
    t.linesSent (as ++ [e]) c = s.linesSent as c := by
  have hi := inputStep_of_step hs c
  rw [UnixState.linesSent, UnixState.linesSent, sent_concat]
  generalize s.clients c = client at hi
  generalize t.clients c = client' at hi
  cases hi with
  | send h =>
    subst h
    exact he.elim
  | close h => rcases h with ⟨rfl, -⟩ | ⟨rfl, -⟩ <;> exact he.elim
  | accept h | refuse h | refuseFailed h | read h | drop h =>
    subst h
    exact congrArg _ (List.append_nil _)
  | quiet hb _ hq => rw [hb, List.append_nil, hq.eof]

/-- The main loop runs on. -/
theorem running_of_working (he : e.Working) (hs : (unix cfg).step s e = some (t, o))
    (hr : s.core.task.isRunning = true) : t.core.task.isRunning = true := by
  have hint (event : Event LineId) (hi : event.Internal) (hs : s.coreStep cfg event = some (t, o)) :
      t.core.task.isRunning = true := by
    obtain ⟨u, o', hp, rfl, rfl⟩ := coreStep_some hs
    rcases internal_task hp hi with ht | ht
    · show u.task.isRunning = true
      rwa [ht]
    · exact ht
  have hreader (c : ClientId) (hs : readerStep cfg s c e = some (t, o)) :
      t.core.task.isRunning = true := by rwa [(readerStep_lowers hs).core]
  cases e with
  | clientRead c => rwa [(clientRead_lowers hs).core]
  | refuse c | readLine c | lock c | writeReply c | forward c => exact hreader c hs
  | reportError =>
    have hs : listenerStep cfg s .reportError = some (t, o) := hs
    rwa [(reportError_lineWork (n := 0) hs).2.1]
  | take now =>
    have hs : mainStep cfg s (.take now) = some (t, o) := hs
    exact (take_lineWork (n := 0) hs).2.2.1
  | ackLock =>
    have hs : mainStep cfg s .ackLock = some (t, o) := hs
    obtain ⟨id, -, ha⟩ := ack_step (.inl rfl) hs
    exact ha.running
  | ackWrite =>
    have hs : mainStep cfg s .ackWrite = some (t, o) := hs
    obtain ⟨id, -, ha⟩ := ack_step (.inr rfl) hs
    exact ha.running
  | main event =>
    cases event with
    | insert => exact hint (.task .insert) trivial hs
    | dispatch => exact hint (.task .dispatch) trivial hs
    | count => exact hint (.task .count) trivial hs
    | _ => exact he.elim
  | gi conn event => exact hint (.gi conn event) trivial hs
  | _ => exact he.elim

/-- A steady client stays so, and sends nothing new. -/
theorem Steady.append {bs : List UnixEvent} {w' : List UnixEffect} (hc : Steady cfg c as s)
    (h : (unix cfg).Trace as w s) (hb : ∀ b ∈ bs, b.Working)
    (ht : (unix cfg).Trace (as ++ bs) w' t) :
    Steady cfg c (as ++ bs) t ∧ t.linesSent (as ++ bs) c = s.linesSent as c := by
  have hlines : t.linesSent (as ++ bs) c = s.linesSent as c := by
    refine h.keeps (P := fun as' _ s' => s'.linesSent as' c = s.linesSent as c) ht hb rfl ?_
    exact fun as' _ s' e u o he hl hs => (linesSent_of_working he hs c).trans hl
  refine ⟨⟨hc.trusted.mono (List.subset_append_left _ _), fun hm => ?_, ?_⟩, hlines⟩
  · rcases List.mem_append.mp hm with hm | hm
    · exact hc.stays hm
    · exact hb _ hm
  · rw [hlines]
    exact hc.utf8

/-- What a client got, when nothing is under way. -/
structure Attended (cfg : UnixSettings) (lines : List (List UInt8)) (c : ClientId) (w : List UnixEffect) :
    Prop where
  processed : ofSource c (processed w) = validRequests cfg lines
  /-- Each line has its reply, though a rejection may come early. -/
  replies : (replies c w).Perm (repliesDue cfg lines)
  delivered : delivered c w = (Iec104Bridge.replies c w).map Prod.snd

/-- **Nothing is left.** When nothing more comes in while the main loop runs, the
bridge and the clients that read run out of steps, whatever their order. Then no
callback, task or message is under way, and of a client that is authorized, stays
and sends UTF-8 every valid line has had its effect, in order, and every line its
reply. -/
theorem nothing_left (h : (unix cfg).Trace as w s) (hr : s.core.task.isRunning = true) :
    (unix cfg).Terminates UnixEvent.Working s ∧
    ∀ bs w' t, (∀ b ∈ bs, b.Working) → (unix cfg).Trace (as ++ bs) (w ++ w') t →
      (unix cfg).Idle UnixEvent.Working t →
      t.Drained ∧ t.core.task = .selecting ∧
      (∀ k, (t.core.cache.lookup k).map CachedPoint.message =
        lastAt (Iec104Message.key cfg.core.defaultCa) k ((processed (w ++ w')).map Prod.snd)) ∧
      ∀ c, Steady cfg c as s → Attended cfg (s.linesSent as c) c (w ++ w') := by
  refine ⟨terminates_of_run h.run, fun bs w' t hb ht hi => ?_⟩
  have hd := drained_of_idle hi ht.run
  have hrun : t.core.task.isRunning = true :=
    h.keeps (P := fun _ _ s => s.core.task.isRunning = true) ht hb hr
      fun _ _ _ _ _ _ he hr hs => running_of_working he hs hr
  have hsel : t.core.task = .selecting := by
    rcases hd.task with hp | hp | hp
    · rw [hp] at hrun
      cases hrun
    · exact hp
    · rw [isReturned_of_isRunning hrun] at hp
      cases hp
  have hret : t.core.task.isReturned = false := isReturned_of_isRunning hrun
  refine ⟨hd, hsel, lookup_processed ht.run hsel, fun c hc => ?_⟩
  obtain ⟨hc', hl⟩ := hc.append h hb ht
  rw [← hl]
  exact ⟨processed_of_drained ht hd hret hc', replies_of_drained ht hd hsel hc',
    delivered_of_drained ht hd hc'⟩

/-- Two clients have sent their lines, and a master interrogates. -/
def sentAndAsked : List UnixEvent := twoClients ++ [.gi 1 (.request 20)]

theorem steady_twoClients {s : UnixState}
    (hf : ((s.clients 0).eof, (s.clients 1).eof) = (false, false)) {c : ClientId} (hc : c = 0 ∨ c = 1) :
    Steady .shared c sentAndAsked s := by
  obtain ⟨h₀, h₁⟩ := Prod.mk.inj hf
  refine ⟨(trusted_twoClients (fun _ => rfl) c).mpr hc, ?_, ?_⟩
  · simp [sentAndAsked, twoClients]
  · rw [UnixState.linesSent]
    rcases hc with rfl | rfl
    · rw [h₀]
      decide +kernel
    · rw [h₁]
      decide +kernel

theorem nothing_left_sample : ∃ w s, (unix .shared).Trace sentAndAsked w s ∧
    ∃ bs w' t, (∀ b ∈ bs, b.Working) ∧ (unix .shared).Trace (sentAndAsked ++ bs) (w ++ w') t ∧
      t.Drained ∧ (delivered 0 (w ++ w')).Perm [.ok, .errorParse] ∧ delivered 1 (w ++ w') = [.ok] := by
  obtain ⟨w, s, h, hw⟩ := Machine.exists_trace_of_exec (M := unix .shared) sentAndAsked
    (fun _ s => ((s.clients 0).eof, (s.clients 1).eof, s.core.task.isRunning)) (false, false, true)
    (by decide +kernel)
  simp only [Prod.mk.injEq] at hw
  obtain ⟨h₀, h₁, hr⟩ := hw
  obtain ⟨hterm, hleft⟩ := nothing_left h hr
  obtain ⟨bs, w', t, hb, hx, hi⟩ := hterm.exec_idle
  have ht := h.append_of_exec hx
  obtain ⟨hd, -, -, hserved⟩ := hleft bs w' t hb ht hi
  have hdue (c : ClientId) (hc : c = 0 ∨ c = 1) :
      (delivered c (w ++ w')).Perm ((repliesDue .shared (s.linesSent sentAndAsked c)).map Prod.snd) := by
    have hs := hserved c (steady_twoClients (by rw [h₀, h₁]) hc)
    rw [hs.delivered]
    exact hs.replies.map Prod.snd
  have hzero : (repliesDue .shared (s.linesSent sentAndAsked 0)).map Prod.snd = [.ok, .errorParse] := by
    rw [UnixState.linesSent, h₀]
    decide +kernel
  have hone : (repliesDue .shared (s.linesSent sentAndAsked 1)).map Prod.snd = [.ok] := by
    rw [UnixState.linesSent, h₁]
    decide +kernel
  refine ⟨w, s, h, bs, w', t, hb, ht, hd, ?_, ?_⟩
  · rw [← hzero]
    exact hdue 0 (.inl rfl)
  · have := hdue 1 (.inr rfl)
    rw [hone] at this
    exact List.perm_singleton.mp this

end Iec104Bridge
