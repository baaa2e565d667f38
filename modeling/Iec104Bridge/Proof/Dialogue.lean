import Iec104Bridge.Proof.Authorization

/-!
# A client that waits for its replies

An authorized client that sends a line only when every line before it was
answered, and only UTF-8, has at most one line without a reply
(`linesSent_le`). So nothing overtakes: its replies are those the documentation
promises for its lines, in order (`written_documented`), and its task reads on
(`hosted_of_trace`).
-/

namespace Iec104Bridge

open Framework

variable {cfg : UnixSettings} {s t : UnixState} {as : List UnixEvent} {w : List UnixEffect}
  {e : UnixEvent} {o : Option UnixEffect} {c : ClientId}

/-- The reply the documentation promises for a line. -/
def documentedReply (cfg : UnixSettings) (line : List UInt8) : Reply :=
  answerOf (documentedVerdict cfg line)

/-- A client that stays, and sends a line when every line before it was answered. -/
structure Patient (cfg : UnixSettings) (c : ClientId) (as : List UnixEvent) : Prop where
  stays : .clientClose c ∉ as
  /-- It sends the newline of a line last. -/
  single (bytes : List UInt8) : .clientSend c bytes ∈ as → NEWLINE ∉ bytes.dropLast
  /-- It has received a reply for each line it completed. -/
  waits (as₁ as₂ : List UnixEvent) (bytes : List UInt8) (w : List UnixEffect) (s : UnixState) :
    as = as₁ ++ .clientSend c bytes :: as₂ → (unix cfg).Trace as₁ w s →
      (delivered c w).length = (splitLines (sent c as₁)).1.length

/-- The client is patient, and every line it sent is UTF-8; the peers it was
accepted as are authorized. -/
structure Dialogue (cfg : UnixSettings) (c : ClientId) (as : List UnixEvent) (s : UnixState) :
    Prop where
  patient : Patient cfg c as
  admitted (peer : Option PeerCred) : peer ∈ lookups c as → ∃ p, peer = some p ∧ cfg.Authorizes p
  utf8 (line : List UInt8) : line ∈ s.linesSent as c → validUtf8 line = true

theorem Patient.prev (h : Patient cfg c (as ++ [e])) : Patient cfg c as where
  stays hm := h.stays (List.mem_append_left _ hm)
  single bytes hm := h.single bytes (List.mem_append_left _ hm)
  waits as₁ as₂ bytes w s ha ht :=
    h.waits as₁ (as₂ ++ [e]) bytes w s (by rw [ha, List.append_assoc, List.cons_append]) ht

theorem Patient.nil : Patient cfg c [] where
  stays := List.not_mem_nil
  single bytes hm := absurd hm List.not_mem_nil
  waits as₁ as₂ bytes w s ha := by simp at ha

/-- The client neither sends nor goes. -/
def UnixEvent.isSilent (c : ClientId) : UnixEvent → Bool
  | .clientSend d _ | .clientClose d => d ≠ c
  | _ => true

theorem Patient.silent (h : Patient cfg c as) (he : e.isSilent c = true) : Patient cfg c (as ++ [e]) where
  stays hm := by
    rcases List.mem_append.mp hm with hm | hm
    · exact h.stays hm
    · cases List.mem_singleton.mp hm
      simp [UnixEvent.isSilent] at he
  single bytes hm := by
    rcases List.mem_append.mp hm with hm | hm
    · exact h.single bytes hm
    · cases List.mem_singleton.mp hm
      simp [UnixEvent.isSilent] at he
  waits as₁ as₂ bytes w s ha ht := by
    rcases List.eq_nil_or_concat as₂ with rfl | ⟨as₂, e', rfl⟩
    · obtain ⟨-, hl⟩ := List.append_inj' ha rfl
      obtain rfl : e = .clientSend c bytes := (List.cons.inj hl).1
      simp [UnixEvent.isSilent] at he
    · have ha' : as ++ [e] = (as₁ ++ .clientSend c bytes :: as₂) ++ [e'] := by simpa using ha
      exact h.waits as₁ as₂ bytes w s (List.append_inj' ha' rfl).1 ht

theorem Patient.append (h : Patient cfg c as) {es : List UnixEvent}
    (he : (es.all fun e => e.isSilent c) = true) : Patient cfg c (as ++ es) := by
  induction es generalizing as with
  | nil => rwa [List.append_nil]
  | cons e es ih =>
    rw [List.all_cons, Bool.and_eq_true] at he
    have := ih (h.silent he.1) he.2
    rwa [List.append_assoc] at this

/-- The client has all its replies, and sends. -/
theorem Patient.send (h : Patient cfg c as) (ht : (unix cfg).Trace as w s) {bytes : List UInt8}
    (hb : NEWLINE ∉ bytes.dropLast)
    (hw : (delivered c w).length = (splitLines (sent c as)).1.length) :
    Patient cfg c (as ++ [.clientSend c bytes]) where
  stays hm := by
    rcases List.mem_append.mp hm with hm | hm
    · exact h.stays hm
    · cases List.mem_singleton.mp hm
  single bytes' hm := by
    rcases List.mem_append.mp hm with hm | hm
    · exact h.single bytes' hm
    · cases List.mem_singleton.mp hm
      exact hb
  waits as₁ as₂ bytes' w' s' ha ht' := by
    rcases List.eq_nil_or_concat as₂ with rfl | ⟨as₂, e', rfl⟩
    · obtain ⟨rfl, -⟩ := List.append_inj' ha rfl
      obtain ⟨rfl, -⟩ := ht.unique ht'
      exact hw
    · have ha' : as ++ [.clientSend c bytes] = (as₁ ++ .clientSend c bytes' :: as₂) ++ [e'] := by
        simpa using ha
      exact h.waits as₁ as₂ bytes' w' s' (List.append_inj' ha' rfl).1 ht'

/-- What a client sent remains sent. -/
theorem linesSent_subset (hs : (unix cfg).step s e = some (t, o)) :
    s.linesSent as c ⊆ t.linesSent (as ++ [e]) c := by
  have hi := inputStep_of_step hs c
  unfold UnixState.linesSent
  rw [sent_concat]
  generalize s.clients c = client at hi
  generalize t.clients c = client' at hi
  cases hi with
  | send he hf =>
    rw [hf]
    exact linesOf_subset _ _ _
  | close he =>
    have hb : e.sentBy c = [] := by rcases he with ⟨rfl, -⟩ | ⟨rfl, -⟩ <;> rfl
    rw [hb, List.append_nil]
    exact linesOf_eof_subset _ _
  | accept he | refuse he | refuseFailed he | read he | drop he =>
    subst he
    show linesOf _ (sent c as) ⊆ linesOf _ (sent c as ++ [])
    rw [List.append_nil]
    exact List.Subset.refl _
  | quiet hb _ hq =>
    rw [hb, List.append_nil, hq.eof]
    exact List.Subset.refl _

theorem Dialogue.prev (h : Dialogue cfg c (as ++ [e]) t) (hs : (unix cfg).step s e = some (t, o)) :
    Dialogue cfg c as s where
  patient := h.patient.prev
  admitted peer hp := h.admitted peer (by rw [lookups_concat]; exact List.mem_append_left _ hp)
  utf8 line hl := h.utf8 line (linesSent_subset hs hl)

/-! ## The task of the client -/

theorem handleUnixClient_reading {peer : PeerCred} (h : cfg.Authorizes peer) :
    handleUnixClient cfg (some peer) = .reading := by
  simp only [handleUnixClient, authorizes_iff.mp h]

theorem handleUnixClient_ne_absent (peer : Option PeerCred) : handleUnixClient cfg peer ≠ .absent := by
  unfold handleUnixClient
  split
  · exact fun h => by cases h
  · split <;> exact fun h => by cases h

/-- A client is accepted once. -/
theorem lookups_of_trace (h : (unix cfg).Trace as w s) (c : ClientId) :
    lookups c as = [] ∨ (∃ peer, lookups c as = [peer]) ∧ (s.clients c).phase ≠ .absent := by
  refine h.invariant (P := fun as _ s =>
    lookups c as = [] ∨ (∃ peer, lookups c as = [peer]) ∧ (s.clients c).phase ≠ .absent) (.inl rfl) ?_
  intro as w s e t o _ ih hs
  have hi := inputStep_of_step hs c
  generalize s.clients c = client at hi ih
  generalize t.clients c = client' at hi
  have hkeep (hl : e.lookup c = none) (hp : client.phase ≠ .absent → client'.phase ≠ .absent) :
      lookups c (as ++ [e]) = [] ∨ (∃ peer, lookups c (as ++ [e]) = [peer]) ∧ client'.phase ≠ .absent := by
    rw [lookups_concat, hl, Option.toList_none, List.append_nil]
    exact ih.imp_right fun h => ⟨h.1, hp h.2⟩
  cases hi with
  | send he =>
    subst he
    exact hkeep rfl id
  | close he => exact hkeep (by rcases he with ⟨rfl, -⟩ | ⟨rfl, -⟩ <;> rfl) id
  | @accept peer he hp =>
    subst he
    right
    have hl : lookups c as = [] := ih.resolve_right fun h => h.2 hp
    refine ⟨⟨peer, ?_⟩, handleUnixClient_ne_absent peer⟩
    rw [lookups_concat, hl, UnixEvent.lookup, if_pos rfl]
    rfl
  | refuse he | refuseFailed he | drop he =>
    subst he
    exact hkeep rfl fun _ h => by cases h
  | @read _ _ verdict he =>
    subst he
    exact hkeep rfl fun _ => by cases verdict <;> exact fun h => by cases h
  | quiet _ hl hq => exact hkeep hl fun hp ha => hp ((hq.started (.inl ha)).symm.trans ha)

/-- The task of the client reads its lines. -/
structure Hosted (c : ClientId) (as : List UnixEvent) (w : List UnixEffect) (client : Client)
    (returned : Bool) : Prop where
  here : client.gone = false
  admitted : client.phase ≠ .refusing
  unrefused : .unauthorized c ∉ w
  accepted : lookups c as ≠ [] → client.phase ≠ .absent
  ended : client.phase = .ended → (client.eof = true ∧ client.incoming = []) ∨ returned = true

/-- The lines of the client, as its task reads them. -/
theorem linesSent_eq (h : (unix cfg).Trace as w s) (hd : Dialogue cfg c as s) :
    s.linesSent as c = readLines c w ++ linesOf (s.clients c).eof (s.clients c).incoming := by
  obtain ⟨taken, hr⟩ := streamRead_of_trace h c
  have hlines : s.linesSent as c = taken ++ linesOf (s.clients c).eof (s.clients c).incoming := hr.now
  have hf : taken.filter validUtf8 = taken := by
    refine List.filter_eq_self.mpr fun line hl => hd.utf8 line ?_
    rw [hlines]
    exact List.mem_append_left _ hl
  rw [hlines, ← hr.read, hf]

/-- The line that is read next is UTF-8. -/
theorem utf8_of_readLine (h : (unix cfg).Trace as w s) (hd : Dialogue cfg c as s)
    {line rest : List UInt8} (hl : (s.clients c).readLine = .line line rest) :
    validUtf8 line = true := by
  refine hd.utf8 line ?_
  rw [linesSent_eq h hd, (linesOf_readLine hl).1]
  exact List.mem_append_right _ List.mem_cons_self

theorem isReturned_mono (hs : (unix cfg).step s e = some (t, o))
    (hr : s.core.task.isReturned = true) : t.core.task.isReturned = true := by
  rcases (unix_process cfg).step hs with ⟨b, hb⟩ | ⟨hb, -⟩
  · exact isReturned_step hb hr
  · rwa [hb]

theorem hosted_of_trace (h : (unix cfg).Trace as w s) (hd : Dialogue cfg c as s) :
    Hosted c as w (s.clients c) s.core.task.isReturned := by
  refine h.invariant
    (P := fun as w s => Dialogue cfg c as s → Hosted c as w (s.clients c) s.core.task.isReturned)
    (fun _ => ⟨rfl, (fun h => by cases h), List.not_mem_nil, fun h => absurd rfl h, fun h => by cases h⟩)
    ?_ hd
  intro as w s e t o h ih hs hd
  have hd' := hd.prev hs
  have hh := ih hd'
  have hi := inputStep_of_step hs c
  have hret := isReturned_mono hs
  have hutf {line rest : List UInt8} (hl : (s.clients c).readLine = .line line rest) :
      validUtf8 line = true := utf8_of_readLine h hd' hl
  generalize s.clients c = client at hh hi hutf
  generalize t.clients c = client' at hi
  have hun (ho : ∀ x ∈ o, x ≠ .unauthorized c) : .unauthorized c ∉ w ++ o.toList := by
    intro hm
    rcases List.mem_append.mp hm with hm | hm
    · exact hh.unrefused hm
    · exact ho _ (Option.mem_toList.mp hm) rfl
  have hacc (hl : e.lookup c = none) (hp : client'.phase = .absent → client.phase = .absent)
      (hne : lookups c (as ++ [e]) ≠ []) : client'.phase ≠ .absent := by
    rw [lookups_concat, hl, Option.toList_none, List.append_nil] at hne
    exact fun ha => hh.accepted hne (hp ha)
  cases hi with
  | send he hf =>
    subst he
    refine ⟨hh.here, hh.admitted, hun fun x hx => (by cases hx), hacc rfl id, fun hp => ?_⟩
    rcases hh.ended hp with ⟨hf', -⟩ | hr
    · rw [hf] at hf'
      cases hf'
    · exact .inr (hret hr)
  | @close gone he =>
    have hl : e.lookup c = none := by rcases he with ⟨rfl, -⟩ | ⟨rfl, -⟩ <;> rfl
    have hg : gone = client.gone := by
      rcases he with ⟨-, hg⟩ | ⟨rfl, -⟩
      · exact hg
      · exact absurd (List.mem_append_right _ (List.mem_singleton_self _)) hd.patient.stays
    refine ⟨hg.trans hh.here, hh.admitted, hun fun x hx => (by cases hx), hacc hl id, fun hp => ?_⟩
    exact (hh.ended hp).imp (fun h => ⟨rfl, h.2⟩) hret
  | @accept peer he hp =>
    subst he
    have hm : peer ∈ lookups c (as ++ [.accept c peer]) := by
      rw [lookups_concat, UnixEvent.lookup, if_pos rfl]
      exact List.mem_append_right _ (List.mem_singleton_self _)
    obtain ⟨p, rfl, ha⟩ := hd.admitted peer hm
    rw [handleUnixClient_reading ha]
    refine ⟨hh.here, fun h => (by cases h), hun fun x hx => ?_, fun _ h => (by cases h), fun h => by cases h⟩
    cases hx
    exact fun h => by cases h
  | refuse he hp | refuseFailed he hp => exact absurd hp hh.admitted
  | @read line rest verdict he =>
    subst he
    refine ⟨hh.here, ?_, hun fun x hx => ?_, hacc rfl ?_, ?_⟩
    · cases verdict <;> exact fun h => by cases h
    · cases hx
      exact fun h => by cases h
    · cases verdict <;> exact fun h => by cases h
    · cases verdict <;> exact fun h => by cases h
  | drop he _ hl hu =>
    rw [hutf hl] at hu
    cases hu
  | quiet hb hl hq _ hu =>
    refine ⟨hq.gone.trans hh.here, fun hp => ?_, hun hu, hacc hl fun hp => ?_, fun hp => ?_⟩
    · exact hh.admitted ((hq.started (.inr hp)).symm.trans hp)
    · exact (hq.started (.inl hp)).symm.trans hp
    · rw [hq.eof, hq.incoming]
      rcases hq.ended hp with hp | hp | hp | hp
      · exact (hh.ended hp).imp_right hret
      · exact .inl hp
      · rw [hh.here] at hp
        cases hp
      · exact .inr (hret hp)

/-! ## At most one line without a reply -/

/-- The lines a patient client completed, and what follows them. -/
theorem splitLines_sent (h : (unix cfg).Trace as w s) (hp : Patient cfg c as) :
    (splitLines (sent c as)).1.length ≤ (delivered c w).length ∨
      (splitLines (sent c as)).1.length ≤ (delivered c w).length + 1 ∧ (splitLines (sent c as)).2 = [] := by
  refine h.invariant (P := fun as w _ => Patient cfg c as →
    (splitLines (sent c as)).1.length ≤ (delivered c w).length ∨
      (splitLines (sent c as)).1.length ≤ (delivered c w).length + 1 ∧ (splitLines (sent c as)).2 = [])
    (fun _ => .inl (Nat.zero_le _)) ?_ hp
  intro as w s e t o h ih _ hp
  have hle : (delivered c w).length ≤ (delivered c (w ++ o.toList)).length := by
    rw [delivered, delivered, List.filterMap_append, List.length_append]
    exact Nat.le_add_right _ _
  rw [sent_concat]
  by_cases hb : e.sentBy c = []
  · rw [hb, List.append_nil]
    exact (ih hp.prev).imp (fun h => h.trans hle) fun h => ⟨h.1.trans (Nat.succ_le_succ hle), h.2⟩
  · -- the client sends, so it has its replies
    cases e with
    | clientSend d bytes =>
      have hd : d = c := by
        by_contra hd
        exact hb (if_neg hd)
      subst hd
      have hw := hp.waits as [] bytes w s rfl h
      have hs := splitLines_single (sent d as)
        (hp.single bytes (List.mem_append_right _ (List.mem_singleton_self _)))
      rw [UnixEvent.sentBy, if_pos rfl]
      rw [← hw] at hs
      exact hs.imp (fun h => h.trans hle) fun h => ⟨h.1.trans (Nat.succ_le_succ hle), h.2⟩
    | _ => exact absurd rfl hb

theorem linesSent_le (h : (unix cfg).Trace as w s) (hp : Patient cfg c as) :
    (s.linesSent as c).length ≤ (delivered c w).length + 1 := by
  rw [UnixState.linesSent, linesOf, List.length_append]
  rcases splitLines_sent h hp with hl | ⟨hl, hn⟩
  · split
    · exact Nat.succ_le_succ hl
    · exact hl.trans (Nat.le_succ _)
  · rw [if_neg fun h => h.2 hn]
    exact hl

theorem delivered_le (h : (unix cfg).Run w s) : (delivered c w).length ≤ (written c w).length := by
  rw [← delivered_unread h c, List.length_append]
  exact Nat.le_add_right _ _

theorem length_written (h : (unix cfg).Trace as w s) (hd : Dialogue cfg c as s) :
    (written c w).length = (Lane.answers (lineLog c w)).length := by
  rw [written_eq (hosted_of_trace h hd).unrefused, List.length_map, replies_eq, List.length_map]

theorem length_readLines (c : ClientId) (w : List UnixEffect) :
    (readLines c w).length = (Lane.reads (lineLog c w)).length := by
  rw [readLines, reads_eq, List.length_map, List.length_map]

/-- The task reads a line when every line before it is answered. -/
theorem reads_le (h : (unix cfg).Trace as w s) (hd : Dialogue cfg c as s) :
    (Lane.reads (lineLog c w)).length ≤ (Lane.answers (lineLog c w)).length + 1 := by
  have hl := linesSent_le h hd.patient
  have hle := delivered_le h.run (c := c)
  rw [linesSent_eq h hd, List.length_append] at hl
  rw [← length_readLines, ← length_written h hd]
  omega

theorem lineLog_concat (c : ClientId) (w : List UnixEffect) (o : Option UnixEffect) :
    lineLog c (w ++ o.toList) = lineLog c w ++ (o.bind (UnixEffect.toLine c)).toList := by
  have ho : lineLog c o.toList = (o.bind (UnixEffect.toLine c)).toList := by
    cases o with
    | none => rfl
    | some x => cases h : x.toLine c <;> simp [lineLog, h]
  rw [← ho]
  exact List.filterMap_append ..

/-- What a step of a lane answers. -/
theorem answers_toList (x : Option LineEffect) : Lane.answers x.toList = [] ∨
    (∃ y, Lane.answers x.toList = [y]) ∧ Lane.reads x.toList = [] := by
  cases x with
  | none => exact .inl rfl
  | some x =>
    cases x with
    | replied | finished => exact .inr ⟨⟨_, rfl⟩, rfl⟩
    | _ => exact .inl rfl

/-- The replies are those to the first lines, in order. -/
theorem inOrder_of_trace (h : (unix cfg).Trace as w s) (hd : Dialogue cfg c as s) :
    Lane.InOrder (Lane.answers (lineLog c w)) := by
  refine h.invariant
    (P := fun as w s => Dialogue cfg c as s → Lane.InOrder (Lane.answers (lineLog c w)))
    (fun _ => rfl) ?_ hd
  intro as w s e t o h ih hs hd
  have hd' := hd.prev hs
  have hin := ih hd'
  have hrun : (unix cfg).Run (w ++ o.toList) t := h.run.tail hs
  have hnodup := Lane.answers_nodup (lineLog_run hrun c)
  have hread (x : Nat × Option Reply) (hx : x ∈ Lane.answers (lineLog c (w ++ o.toList))) :
      x.1 < (Lane.reads (lineLog c (w ++ o.toList))).length :=
    Lane.answer_lt (Lane.inv_of_run (lineLog_run hrun c)) hx
  rw [lineLog_concat, Lane.answers_append] at hnodup hread ⊢
  rcases answers_toList (o.bind (UnixEffect.toLine c)) with ho | ⟨⟨x, hx⟩, ho⟩
  · rw [ho, List.append_nil]
    exact hin
  · rw [Lane.reads_append, ho, List.append_nil] at hread
    rw [hx] at hnodup hread ⊢
    refine (Lane.inOrder_concat _ x).mpr ⟨hin, ?_⟩
    -- the line is read, the lines before it are answered, and it is not
    have hlt := hread x (List.mem_append_right _ (List.mem_singleton_self x))
    have hle := reads_le h hd'
    have hnew : x.1 ∉ List.range (Lane.answers (lineLog c w)).length := by
      rw [← show _ = _ from hin]
      rw [List.map_append, List.nodup_append] at hnodup
      exact fun hm => hnodup.2.2 x.1 hm x.1 (List.mem_singleton_self _) rfl
    rw [List.mem_range] at hnew
    omega

/-! ## The replies -/

theorem requests_numbered (h : (unix cfg).Run w s) (c : ClientId) :
    (requests c w).map Prod.fst = List.range (requests c w).length := by
  have hn := (Lane.inv_of_run (lineLog_run h c)).numbered
  rw [reads_eq, List.map_map] at hn
  have hl := congrArg List.length hn
  rw [List.length_map, List.length_range] at hl
  rw [hl]
  exact hn

/-- A reply answers a line that was read. -/
theorem request_of_reply (h : (unix cfg).Run w s) {n : Nat} {reply : Reply}
    (hr : (n, reply) ∈ replies c w) :
    ∃ line verdict, (n, line, verdict) ∈ requests c w ∧ reply = answerOf verdict := by
  rw [replies_eq] at hr
  obtain ⟨⟨n, answer⟩, hx, he⟩ := List.mem_map.mp hr
  cases he
  obtain ⟨verdict, hv, ha⟩ := Lane.answer_read (Lane.inv_of_run (lineLog_run h c)) hx
  obtain ⟨line, hl⟩ := read_request hv
  refine ⟨line, verdict, hl, ?_⟩
  cases answer with
  | none =>
    obtain ⟨message, rfl⟩ := ha
    rfl
  | some reply =>
    rw [show verdict = .error reply from ha]
    rfl

/-- What is read of the lines of the client. -/
theorem requests_of_trace (h : (unix cfg).Trace as w s) {n : Nat} {line : List UInt8}
    {verdict : Except Reply Iec104Message} (hr : (n, line, verdict) ∈ requests c w) :
    (readLines c w)[n]? = some line ∧ verdict = documentedVerdict cfg line := by
  have hnum := requests_numbered h.run c
  constructor
  · rw [readLines, List.getElem?_map, Lane.getElem?_of_numbered hnum hr]
    rfl
  · obtain ⟨taken, hs⟩ := streamRead_of_trace h c
    have hl : line ∈ readLines c w := List.mem_map_of_mem (f := fun x => x.2.1) hr
    rw [← hs.read] at hl
    rw [mem_requests h.run hr, processUnixSocketLine_documented (List.mem_filter.mp hl).2]

/-- The replies are those documented for the lines, in order. -/
theorem written_documented (h : (unix cfg).Trace as w s) (hd : Dialogue cfg c as s) :
    written c w <+: (readLines c w).map (documentedReply cfg) := by
  rw [written_eq (hosted_of_trace h hd).unrefused]
  have hin := inOrder_of_trace h hd
  refine Lane.prefix_of_numbered ?_ fun x hx => ?_
  · rw [replies_eq, List.map_map, List.length_map]
    exact hin
  · obtain ⟨line, verdict, hr, ha⟩ := request_of_reply h.run hx
    obtain ⟨hl, rfl⟩ := requests_of_trace h hr
    rw [hl, ha]
    rfl

/-- Only the write to a client that is gone fails. -/
theorem gone_of_failed (hs : UnixStep cfg s e t o) {n : Nat}
    (ho : o.bind (UnixEffect.toLine c) = some (.failed n) ∨
      o.bind (UnixEffect.toLine c) = some (.replyFailed n)) : (s.clients c).gone = true := by
  have hid {id : LineId} {f : Nat → LineEffect}
      (h : (lineOf c id).map f = some (.failed n) ∨ (lineOf c id).map f = some (.replyFailed n)) :
      id.1 = c := by
    by_contra hne
    rw [lineOf_of_ne (Ne.symm hne)] at h
    rcases h with h | h <;> cases h
  cases hs with
  | replyFailed _ _ hg | ackFailed _ _ hg =>
    obtain rfl := hid ho
    exact hg
  | core hs hi =>
    rw [((internal_current hs hi).2 c).2] at ho
    rcases ho with ho | ho <;> cases ho
  | stop hev hs =>
    rw [(stop_current hs hev).2.2 c] at ho
    rcases ho with ho | ho <;> cases ho
  | read | reply | take | ack => simp [UnixEffect.toLine] at ho
  | _ => rcases ho with ho | ho <;> cases ho

/-- No write to the client fails. -/
theorem kept_of_trace (h : (unix cfg).Trace as w s) (hd : Dialogue cfg c as s) (n : Nat) :
    .failed n ∉ lineLog c w ∧ .replyFailed n ∉ lineLog c w := by
  refine h.invariant (P := fun as w s => Dialogue cfg c as s →
    .failed n ∉ lineLog c w ∧ .replyFailed n ∉ lineLog c w)
    (fun _ => ⟨List.not_mem_nil, List.not_mem_nil⟩) ?_ hd
  intro as w s e t o h ih hs hd
  have hd' := hd.prev hs
  have hgone := (hosted_of_trace h hd').here
  have hnew (ho : o.bind (UnixEffect.toLine c) = some (.failed n) ∨
      o.bind (UnixEffect.toLine c) = some (.replyFailed n)) : False := by
    rw [gone_of_failed (unixStep_cases hs) ho] at hgone
    cases hgone
  rw [lineLog_concat, List.mem_append, List.mem_append, not_or, not_or, Option.mem_toList, Option.mem_toList]
  exact ⟨⟨(ih hd').1, fun h => hnew (.inl h)⟩, (ih hd').2, fun h => hnew (.inr h)⟩

/-- Each line that is read is answered, at the task, in the channel or at the main loop. -/
theorem length_requests (h : (unix cfg).Trace as w s) (hd : Dialogue cfg c as s)
    (hr : s.core.task.isReturned = false) : (readLines c w).length = (written c w).length +
      ((laneOf c s).slot.toList.length + (laneOf c s).queue.length + (laneOf c s).working.toList.length) := by
  rw [length_readLines, length_written h hd]
  exact Lane.length_reads (Lane.inv_of_run (lineLog_run h.run c)) hr
    (fun n => (kept_of_trace h hd n).1) fun n => (kept_of_trace h hd n).2

/-- The lines of a client are read as its requests, one after the other. -/
theorem written_linesSent (h : (unix cfg).Trace as w s) (hd : Dialogue cfg c as s) :
    written c w <+: (s.linesSent as c).map (documentedReply cfg) := by
  rw [linesSent_eq h hd, List.map_append]
  exact (written_documented h hd).trans (List.prefix_append _ _)

/-- What others do does not change what the client sent. -/
theorem linesSent_of_others (hs : (unix cfg).step s e = some (t, o)) (he : e.client? ≠ some c) :
    t.linesSent (as ++ [e]) c = s.linesSent as c := by
  have hi := inputStep_of_step hs c
  rw [UnixState.linesSent, UnixState.linesSent, sent_concat]
  generalize s.clients c = client at hi
  generalize t.clients c = client' at hi
  cases hi with
  | send h =>
    subst h
    exact absurd rfl he
  | close h => rcases h with ⟨rfl, -⟩ | ⟨rfl, -⟩ <;> exact absurd rfl he
  | accept h | refuse h | refuseFailed h | read h | drop h =>
    subst h
    exact congrArg _ (List.append_nil _)
  | quiet hb _ hq => rw [hb, List.append_nil, hq.eof]

theorem Dialogue.next (h : (unix cfg).Trace as w s) (hd : Dialogue cfg c as s)
    (ha : lookups c as ≠ []) (hs : (unix cfg).step s e = some (t, o)) (he : e.client? ≠ some c) :
    Dialogue cfg c (as ++ [e]) t ∧ lookups c (as ++ [e]) = lookups c as ∧
      t.linesSent (as ++ [e]) c = s.linesSent as c := by
  have hsilent : e.isSilent c = true := by
    cases e with
    | clientSend d | clientClose d => simpa [UnixEvent.isSilent, UnixEvent.client?] using he
    | _ => rfl
  have hp : Patient cfg c (as ++ [e]) := hd.patient.silent hsilent
  have hi := inputStep_of_step hs c
  have hlines : t.linesSent (as ++ [e]) c = s.linesSent as c := linesSent_of_others hs he
  have hsame (hl : e.lookup c = none) : Dialogue cfg c (as ++ [e]) t ∧
      lookups c (as ++ [e]) = lookups c as ∧ t.linesSent (as ++ [e]) c = s.linesSent as c := by
    have hlook : lookups c (as ++ [e]) = lookups c as := by
      rw [lookups_concat, hl, Option.toList_none, List.append_nil]
    refine ⟨⟨hp, fun peer hm => ?_, fun line hm => ?_⟩, hlook, hlines⟩
    · rw [hlook] at hm
      exact hd.admitted peer hm
    · rw [hlines] at hm
      exact hd.utf8 line hm
  generalize t.clients c = client' at hi
  cases hi with
  | accept _ hph => exact absurd hph ((lookups_of_trace h c).resolve_left ha).2
  | send h | refuse h | refuseFailed h | read h | drop h =>
    subst h
    exact hsame rfl
  | close h => rcases h with ⟨rfl, -⟩ | ⟨rfl, -⟩ <;> exact hsame rfl
  | quiet _ hl => exact hsame hl

end Iec104Bridge
