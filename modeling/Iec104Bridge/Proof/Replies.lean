import Iec104Bridge.Proof.Unix

/-!
# The replies to a client

Each reply is the answer to a line of the client, no line is answered twice,
and a rejection may overtake the `ok` of an earlier line, but nothing else
(`replies_ordered`). The client receives the replies in the order they
are written (`delivered_unread`).
-/

namespace Iec104Bridge

open Framework

variable {cfg : UnixSettings} {s t : UnixState} {w w₁ w₂ : List UnixEffect} {c : ClientId}

/-- A reply to a line of the client. -/
def UnixEffect.toReply (c : ClientId) : UnixEffect → Option (Nat × Reply)
  | .replied id reply => (lineOf c id).map fun n => (n, reply)
  | .core (.acked id) => (lineOf c id).map fun n => (n, .ok)
  | _ => none

/-- The replies to the lines of the client, in the order written. -/
def replies (c : ClientId) (w : List UnixEffect) : List (Nat × Reply) :=
  w.filterMap (UnixEffect.toReply c)

def UnixEffect.toRequest (c : ClientId) :
    UnixEffect → Option (Nat × List UInt8 × Except Reply Iec104Message)
  | .read id line verdict => (lineOf c id).map fun n => (n, line, verdict)
  | _ => none

/-- The lines read from the client, with what they are answered or forwarded as. -/
def requests (c : ClientId) (w : List UnixEffect) :
    List (Nat × List UInt8 × Except Reply Iec104Message) :=
  w.filterMap (UnixEffect.toRequest c)

def UnixEffect.toDelivered (c : ClientId) : UnixEffect → Option Reply
  | .delivered d reply => if d = c then some reply else none
  | _ => none

/-- The replies the client received. -/
def delivered (c : ClientId) (w : List UnixEffect) : List Reply :=
  w.filterMap (UnixEffect.toDelivered c)

/-- The log of the lane of the client. -/
def lineLog (c : ClientId) (w : List UnixEffect) : List LineEffect := w.filterMap (UnixEffect.toLine c)

theorem lineLog_run (h : (unix cfg).Run w s) (c : ClientId) :
    (Lane.machine Iec104Message Reply).Run (lineLog c w) (laneOf c s) :=
  (unix_lane cfg c).run h

theorem replies_eq (c : ClientId) (w : List UnixEffect) :
    replies c w = (Lane.answers (lineLog c w)).map fun x => (x.1, x.2.getD .ok) := by
  rw [replies, Lane.answers, lineLog, List.filterMap_filterMap, List.map_filterMap]
  congr 1
  funext e
  cases e with
  | read id | replied id | replyFailed id =>
    cases h : lineOf c id <;> simp [UnixEffect.toReply, UnixEffect.toLine, Lane.Effect.toAnswer, h]
  | core e =>
    cases e with
    | received id | acked id | ackFailed id =>
      cases h : lineOf c id <;> simp [UnixEffect.toReply, UnixEffect.toLine, Lane.Effect.toAnswer, h]
    | _ => rfl
  | _ => rfl

theorem reads_eq (c : ClientId) (w : List UnixEffect) :
    Lane.reads (lineLog c w) = (requests c w).map fun x => (x.1, x.2.2) := by
  rw [requests, Lane.reads, lineLog, List.filterMap_filterMap, List.map_filterMap]
  congr 1
  funext e
  cases e with
  | read id | replied id | replyFailed id =>
    cases h : lineOf c id <;> simp [UnixEffect.toRequest, UnixEffect.toLine, Lane.Effect.toRead, h]
  | core e =>
    cases e with
    | received id | acked id | ackFailed id =>
      cases h : lineOf c id <;> simp [UnixEffect.toRequest, UnixEffect.toLine, Lane.Effect.toRead, h]
    | _ => rfl
  | _ => rfl

/-- A line gets the verdict of `process_unix_socket_line`. -/
theorem read_verdict (h : (unix cfg).Run w s) {id : LineId} {line : List UInt8}
    {verdict : Except Reply Iec104Message} (hw : .read id line verdict ∈ w) :
    verdict = processUnixSocketLine cfg.parse line line.length cfg.maxLineBytes := by
  obtain ⟨t, a, t', hs⟩ := h.step_of_mem hw
  generalize ho : some (UnixEffect.read id line verdict) = o at hs
  cases unixStep_cases hs with
  | read _ _ hv =>
    cases ho
    exact hv
  | core | stop => simp at ho
  | _ => cases ho

/-- The reply a line deserves. -/
def answerOf : Except Reply Iec104Message → Reply
  | .error reply => reply
  | .ok _ => .ok

/-- What the documentation promises for a line: its message, or the reply that rejects it. -/
def documentedVerdict (cfg : UnixSettings) (line : List UInt8) : Except Reply Iec104Message :=
  if cfg.maxLineBytes < line.length then .error .errorValidation
  else if validUtf8 line = false ∨ trimLineEnd line = [] then .error .errorParse
  else
    match cfg.parse (trimLineEnd line) with
    | none => .error .errorParse
    | some message => if message.Valid then .ok message else .error .errorValidation

/-- A line that is UTF-8 gets the documented verdict. -/
theorem processUnixSocketLine_documented {line : List UInt8} (h : validUtf8 line = true) :
    processUnixSocketLine cfg.parse line line.length cfg.maxLineBytes = documentedVerdict cfg line := by
  simp only [processUnixSocketLine, documentedVerdict, enforceLineSizeLimit, payloadExceedsLimit,
    decide_eq_true_eq, h, bind, Except.bind]
  by_cases hl : cfg.maxLineBytes < line.length
  · rw [if_pos hl, if_pos hl]
  rw [if_neg hl, if_neg hl]
  by_cases ht : trimLineEnd line = []
  · simp [trimUnixSocketLine, ht]
  rw [if_neg (by simp [ht]), trimUnixSocketLine, if_neg (by simpa using ht)]
  simp only [parseUnixSocketMessage]
  cases cfg.parse (trimLineEnd line) with
  | none => rfl
  | some message =>
    cases hv : validateMessage message with
    | error => simp [validateUnixSocketMessage, Iec104Message.Valid, hv]
    | ok => simp [validateUnixSocketMessage, Iec104Message.Valid, hv, pure, Except.pure]

/-! ## What the client receives -/

def UnixEffect.toWritten (c : ClientId) : UnixEffect → Option Reply
  | .replied id reply => (lineOf c id).map fun _ => reply
  | .core (.acked id) => (lineOf c id).map fun _ => .ok
  | .unauthorized d => if d = c then some .errorUnauthorized else none
  | _ => none

/-- Everything written to the client. -/
def written (c : ClientId) (w : List UnixEffect) : List Reply := w.filterMap (UnixEffect.toWritten c)

/-- A step of the process that does not end a line of the client writes nothing to it. -/
theorem quiet_written {o : Option (Effect LineId)}
    (ho : (o.map UnixEffect.core).bind (UnixEffect.toLine c) = none) :
    written c (o.map UnixEffect.core).toList = [] ∧ delivered c (o.map UnixEffect.core).toList = [] := by
  cases o with
  | none => exact ⟨rfl, rfl⟩
  | some e =>
    cases e with
    | acked id =>
      cases hl : lineOf c id with
      | none => simp [written, delivered, UnixEffect.toWritten, UnixEffect.toDelivered, hl]
      | some n => simp [UnixEffect.toLine, hl] at ho
    | _ => exact ⟨rfl, rfl⟩

theorem unread_setClient {d : ClientId} {client : Client}
    (h : client.unread = (s.clients d).unread) :
    ((s.setClient d client).clients c).unread = (s.clients c).unread := by
  by_cases hd : c = d
  · subst hd
    rw [UnixState.setClient_self, h]
  · rw [UnixState.setClient_of_ne _ _ _ hd]

theorem unread_push {d : ClientId} {client : Client} (reply : Reply)
    (h : client.unread = (s.clients d).unread ++ [reply]) :
    ((s.setClient d client).clients c).unread =
      (s.clients c).unread ++ if d = c then [reply] else [] := by
  by_cases hd : c = d
  · subst hd
    rw [UnixState.setClient_self, h, if_pos rfl]
  · rw [UnixState.setClient_of_ne _ _ _ hd, if_neg (Ne.symm hd), List.append_nil]

/-- A write puts its reply at the end of the send buffer, and a read takes one
from its front. -/
theorem unread_step {e : UnixEvent} {o : Option UnixEffect} (h : UnixStep cfg s e t o) (c : ClientId) :
    delivered c o.toList ++ (t.clients c).unread = (s.clients c).unread ++ written c o.toList := by
  cases h with
  | client | lock | ackLock | giveUp | read | accept | leave | replyFailed =>
    rw [unread_setClient]
    · exact (List.append_nil _).symm
    · rfl
  | forward | ackFailed =>
    show [] ++ ((s.setClient _ _).clients c).unread = _
    rw [unread_setClient]
    · exact (List.append_nil _).symm
    · rfl
  | @clientRead d reply unread _ hu =>
    by_cases hd : c = d
    · subst hd
      simp [delivered, written, UnixEffect.toDelivered, UnixEffect.toWritten, hu]
    · rw [UnixState.setClient_of_ne _ _ _ hd]
      simp [delivered, written, UnixEffect.toDelivered, UnixEffect.toWritten, Ne.symm hd]
  | acceptError | listenEnd | reportError | build | takeError | take => exact (List.append_nil _).symm
  | @refuse d =>
    rw [unread_push .errorUnauthorized]
    · by_cases hd : d = c <;>
        simp [written, delivered, UnixEffect.toWritten, UnixEffect.toDelivered, List.filterMap_cons, hd]
    · rfl
  | @reply d n reply =>
    rw [unread_push reply]
    · by_cases hd : d = c <;>
        simp [written, delivered, UnixEffect.toWritten, UnixEffect.toDelivered, List.filterMap_cons,
          lineOf, hd]
    · rfl
  | @ack id =>
    show [] ++ ((s.setClient _ _).clients c).unread = _
    rw [unread_push .ok]
    · by_cases hd : id.1 = c <;> simp [written, UnixEffect.toWritten, lineOf, hd]
    · rfl
  | core hs hi =>
    obtain ⟨hw, hd⟩ := quiet_written ((internal_current hs hi).2 c).2
    rw [hw, hd, List.append_nil]
    rfl
  | stop hev hs =>
    obtain ⟨hw, hd⟩ := quiet_written ((stop_current hs hev).2.2 c)
    rw [hw, hd, List.append_nil]
    rfl

/-- The client receives what is written, in order. -/
theorem delivered_unread (h : (unix cfg).Run w s) (c : ClientId) :
    delivered c w ++ (s.clients c).unread = written c w := by
  refine h.invariant (P := fun w s => delivered c w ++ (s.clients c).unread = written c w) rfl
    fun w s a t o _ ih hs => ?_
  rw [delivered, List.filterMap_append, written, List.filterMap_append]
  change delivered c w ++ delivered c o.toList ++ _ = written c w ++ written c o.toList
  rw [← ih, List.append_assoc, List.append_assoc, unread_step (unixStep_cases hs) c]

theorem written_eq (h : .unauthorized c ∉ w) : written c w = (replies c w).map Prod.snd := by
  rw [written, replies, List.map_filterMap]
  refine List.filterMap_congr fun e he => ?_
  cases e with
  | replied id => cases h : lineOf c id <;> simp [UnixEffect.toWritten, UnixEffect.toReply, h]
  | core e =>
    cases e with
    | acked id => cases h : lineOf c id <;> simp [UnixEffect.toWritten, UnixEffect.toReply, h]
    | _ => rfl
  | unauthorized d =>
    refine if_neg ?_
    rintro rfl
    exact h he
  | _ => rfl

/-! ## Order -/

theorem mem_requests (h : (unix cfg).Run w s) {n : Nat} {line : List UInt8}
    {verdict : Except Reply Iec104Message} (hr : (n, line, verdict) ∈ requests c w) :
    verdict = processUnixSocketLine cfg.parse line line.length cfg.maxLineBytes := by
  obtain ⟨e, he, hx⟩ := List.mem_filterMap.mp hr
  cases e with
  | read id line' verdict' =>
    obtain ⟨m, -, hm⟩ := Option.map_eq_some_iff.mp hx
    cases hm
    exact read_verdict h he
  | _ => cases hx

theorem read_request {n : Nat} {verdict : Except Reply Iec104Message}
    (h : (n, verdict) ∈ Lane.reads (lineLog c w)) : ∃ line, (n, line, verdict) ∈ requests c w := by
  rw [reads_eq] at h
  obtain ⟨⟨m, line, v⟩, hm, hx⟩ := List.mem_map.mp h
  cases hx
  exact ⟨line, hm⟩

/-- A rejection is not `ok`. -/
theorem rejection_ne_ok (h : (unix cfg).Run w s) {n : Nat} {reply : Reply}
    (hr : (n, some reply) ∈ Lane.answers (lineLog c w)) : reply ≠ .ok := by
  have hi := Lane.inv_of_run (lineLog_run h c)
  obtain ⟨line, hl⟩ := read_request (Lane.replied_read hi (Lane.mem_answers_some.mp hr))
  rcases processUnixSocketLine_error (mem_requests h hl).symm with rfl | rfl <;> decide

theorem noOvertaking_iff (h : (unix cfg).Run w s) :
    Lane.NoOvertaking (Lane.answers (lineLog c w)) ↔
      ∀ l₁ n reply l₂, replies c w = l₁ ++ (n, reply) :: l₂ → reply ≠ .ok →
        ∀ m < n, m ∈ l₁.map Prod.fst := by
  constructor
  · intro hno l₁ n reply l₂ hl hne m hm
    rw [replies_eq] at hl
    obtain ⟨a₁, a, ha, rfl, hal⟩ := List.map_eq_append_iff.mp hl
    obtain ⟨x, a₂, rfl, hx, -⟩ := List.map_eq_cons_iff.mp hal
    obtain ⟨n', _ | r⟩ := x
    · cases hx
      exact absurd rfl hne
    · cases hx
      rw [List.map_map]
      exact hno a₁ n' r a₂ ha m hm
  · intro hno l₁ n r l₂ hl m hm
    have hr : replies c w =
        l₁.map (fun x => (x.1, x.2.getD .ok)) ++ (n, r) :: l₂.map fun x => (x.1, x.2.getD .ok) := by
      rw [replies_eq, hl, List.map_append]
      rfl
    have hx : (n, some r) ∈ Lane.answers (lineLog c w) := by rw [hl]; simp
    have := hno _ n r _ hr (rejection_ne_ok h hx) m hm
    rwa [List.map_map] at this

/-- What an effect is that the lane of the client logs. -/
theorem toLine_cases {e : UnixEffect} {x : LineEffect} (h : e.toLine c = some x) :
    match x with
    | .read n verdict => ∃ line, e = .read (c, n) line verdict
    | .replied n reply => e = .replied (c, n) reply
    | .replyFailed n => e = .replyFailed (c, n)
    | .taken n message => ∃ now, e = .core (.received (c, n) message now)
    | .finished n => e = .core (.acked (c, n))
    | .failed n => e = .core (.ackFailed (c, n)) := by
  have hid {α : Type} {id : LineId} {f : Nat → α} {y : α} (h : (lineOf c id).map f = some y) :
      ∃ n, id = (c, n) ∧ f n = y := by
    obtain ⟨n, hn, hy⟩ := Option.map_eq_some_iff.mp h
    exact ⟨n, eq_of_lineOf hn, hy⟩
  cases e with
  | read id line =>
    obtain ⟨n, rfl, rfl⟩ := hid h
    exact ⟨line, rfl⟩
  | replied | replyFailed =>
    obtain ⟨n, rfl, rfl⟩ := hid h
    rfl
  | core e =>
    cases e with
    | received id message now =>
      obtain ⟨n, rfl, rfl⟩ := hid h
      exact ⟨now, rfl⟩
    | acked | ackFailed =>
      obtain ⟨n, rfl, rfl⟩ := hid h
      rfl
    | _ => cases h
  | _ => cases h

theorem failed_of_lineLog {n : Nat} (h : .failed n ∈ lineLog c w) : .core (.ackFailed (c, n)) ∈ w := by
  obtain ⟨e, he, hx⟩ := List.mem_filterMap.mp h
  rwa [show e = _ from toLine_cases hx] at he

theorem replyFailed_of_lineLog {n : Nat} (h : .replyFailed n ∈ lineLog c w) :
    .replyFailed (c, n) ∈ w := by
  obtain ⟨e, he, hx⟩ := List.mem_filterMap.mp h
  rwa [show e = _ from toLine_cases hx] at he

/-- What the replies to a client say of its requests. -/
structure RepliesOrdered (cfg : UnixSettings) (w : List UnixEffect) (c : ClientId) : Prop where
  numbered : (requests c w).map Prod.fst = List.range (requests c w).length
  verdict (n : Nat) (line : List UInt8) (verdict : Except Reply Iec104Message) :
    (n, line, verdict) ∈ requests c w →
      verdict = processUnixSocketLine cfg.parse line line.length cfg.maxLineBytes
  /-- A reply is the answer to its line. -/
  answer (n : Nat) (reply : Reply) : (n, reply) ∈ replies c w →
    ∃ line verdict, (n, line, verdict) ∈ requests c w ∧ reply = answerOf verdict
  /-- A reply precedes that to an earlier line only if it is a rejection and the other `ok`. -/
  order : (replies c w).Pairwise fun a b => a.1 < b.1 ∨ b.1 < a.1 ∧ a.2 ≠ .ok ∧ b.2 = .ok
  received : .unauthorized c ∉ w → delivered c w <+: (replies c w).map Prod.snd
  /-- If no write fails, the replies come in order if and only if no rejection
  is written while an earlier line is unanswered. -/
  inOrder_iff : (∀ n, .replyFailed (c, n) ∉ w) → (∀ n, .core (.ackFailed (c, n)) ∉ w) →
    ((replies c w).map Prod.fst = List.range (replies c w).length ↔
      ∀ l₁ n reply l₂, replies c w = l₁ ++ (n, reply) :: l₂ → reply ≠ .ok →
        ∀ m < n, m ∈ l₁.map Prod.fst)

/-- The replies to the lines of a client come in the order of the lines, but
that a rejection may overtake the `ok` of lines still to be acknowledged. -/
theorem replies_ordered (h : (unix cfg).Run w s) (c : ClientId) : RepliesOrdered cfg w c := by
  have hr := lineLog_run h c
  have hi := Lane.inv_of_run hr
  refine ⟨?_, fun n line verdict hm => mem_requests h hm, fun n reply hm => ?_, ?_, fun hu => ?_,
    fun hrf haf => ?_⟩
  · have hn := hi.numbered
    rw [reads_eq, List.map_map] at hn
    have hl := congrArg List.length hn
    rw [List.length_map, List.length_range] at hl
    rw [hl]
    exact hn
  · rw [replies_eq] at hm
    obtain ⟨x, hx, he⟩ := List.mem_map.mp hm
    cases he
    obtain ⟨v, hv, ha⟩ := Lane.answer_read hi hx
    obtain ⟨line, hl⟩ := read_request hv
    refine ⟨line, v, hl, ?_⟩
    obtain ⟨n, _ | r⟩ := x
    · obtain ⟨message, rfl⟩ := ha
      rfl
    · rw [show v = .error r from ha]
      rfl
  · rw [replies_eq, List.pairwise_map]
    refine (Lane.answers_pairwise hr).imp_of_mem fun {a b} ha _ hab => ?_
    rcases hab with hlt | ⟨hgt, hs, hn⟩
    · exact .inl hlt
    · obtain ⟨n, _ | r⟩ := a
      · cases hs
      · refine .inr ⟨hgt, rejection_ne_ok h ha, ?_⟩
        rw [hn]
        rfl
  · have := delivered_unread h c
    rw [written_eq hu] at this
    exact ⟨_, this⟩
  · have hio := Lane.answers_inOrder_iff hr (fun n hn => haf n (failed_of_lineLog hn))
      fun n hn => hrf n (replyFailed_of_lineLog hn)
    rw [noOvertaking_iff h] at hio
    rw [← hio, Lane.InOrder, replies_eq, List.map_map, List.length_map]
    rfl

/-- A client sends a request and a line that does not parse, and is answered
in the other order. -/
def overtaken : List UnixEvent :=
  [.main (.build true), .accept 0 (some ⟨1000, 1000, 1⟩),
    .clientSend 0 (sampleRequest ++ [NEWLINE] ++ asciiBytes "what?" ++ [NEWLINE]),
    .readLine 0, .forward 0, .readLine 0, .lock 0, .writeReply 0, .take (.sample 1),
    .main .insert, .main .dispatch, .ackLock, .ackWrite, .clientRead 0, .clientRead 0]

theorem replies_ordered_sample : ∃ w, replies 0 w = [(1, .errorParse), (0, .ok)] ∧
    RepliesOrdered .sample w 0 := by
  obtain ⟨w, s, h, hw⟩ := Machine.exists_run_of_exec (M := unix .sample) overtaken
    (fun w _ => replies 0 w) [(1, .errorParse), (0, .ok)] (by decide +kernel)
  exact ⟨w, hw, replies_ordered h 0⟩

theorem rejection_overtakes : ∃ w s, (unix .sample).Run w s ∧
    (requests 0 w).map (fun x => answerOf x.2.2) = [.ok, .errorParse] ∧
    replies 0 w = [(1, .errorParse), (0, .ok)] ∧ delivered 0 w = [.errorParse, .ok] := by
  obtain ⟨w, s, h, hw⟩ := Machine.exists_run_of_exec (M := unix .sample) overtaken
    (fun w _ => ((requests 0 w).map fun x => answerOf x.2.2, replies 0 w, delivered 0 w))
    ([.ok, .errorParse], [(1, .errorParse), (0, .ok)], [.errorParse, .ok]) (by decide +kernel)
  simp only [Prod.mk.injEq] at hw
  exact ⟨w, s, h, hw⟩

end Iec104Bridge
