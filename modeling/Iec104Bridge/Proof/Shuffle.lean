import Iec104Bridge.Framework.Merge
import Iec104Bridge.Proof.Authorization
import Iec104Bridge.Proof.Cache
import Iec104Bridge.Proof.Isolation

/-!
# Several clients

A line of a client is to be read, at its task, in the channel, or was taken by
the main loop (`accepted_account`). Once nothing is left before the main loop,
the messages it took merge the valid lines of the clients, so the messages in
the data store do not depend on the interleaving where no two clients write the
same key (`requests_shuffled`).
-/

namespace Iec104Bridge

open Framework

variable {cfg : UnixSettings} {s t : UnixState} {as : List UnixEvent} {w : List UnixEffect}
  {c : ClientId}

/-- The messages of valid lines. -/
def validRequests (cfg : UnixSettings) (lines : List (List UInt8)) : List Iec104Message :=
  lines.filterMap fun line => (documentedVerdict cfg line).toOption

def UnixEffect.toProcessed : UnixEffect → Option (ClientId × Iec104Message)
  | .core (.received id message _) => some (id.1, message)
  | _ => none

/-- The messages the main loop took, with their clients. -/
def processed (w : List UnixEffect) : List (ClientId × Iec104Message) :=
  w.filterMap UnixEffect.toProcessed

/-- A line that is not UTF-8 is not valid. -/
theorem validRequests_filter (lines : List (List UInt8)) :
    validRequests cfg (lines.filter validUtf8) = validRequests cfg lines := by
  rw [validRequests, validRequests, List.filterMap_filter]
  refine List.filterMap_congr fun line _ => ?_
  split
  · rfl
  · rename_i h
    unfold documentedVerdict
    split
    · rfl
    · rw [if_pos (.inl (Bool.not_eq_true _ ▸ h))]
      rfl

theorem validRequests_append (lines lines' : List (List UInt8)) :
    validRequests cfg (lines ++ lines') = validRequests cfg lines ++ validRequests cfg lines' :=
  List.filterMap_append ..

/-- The messages of a client that the main loop took, as its lane has them. -/
theorem processed_ofSource (c : ClientId) (w : List UnixEffect) :
    ofSource c (processed w) = (Lane.taken (lineLog c w)).map Prod.snd := by
  rw [ofSource, processed, Lane.taken, lineLog, List.filterMap_filterMap, List.filterMap_filterMap,
    List.map_filterMap]
  refine List.filterMap_congr fun e _ => ?_
  cases e with
  | core e =>
    cases e with
    | received id | acked id | ackFailed id =>
      by_cases h : id.1 = c <;>
        simp [UnixEffect.toProcessed, UnixEffect.toLine, Lane.Effect.toTaken, lineOf, h]
    | _ => rfl
  | read id | replied id | replyFailed id =>
    by_cases h : id.1 = c <;>
      simp [UnixEffect.toProcessed, UnixEffect.toLine, Lane.Effect.toTaken, lineOf, h]
  | _ => rfl

/-- The lines that are read are UTF-8. -/
theorem validUtf8_of_readLines (h : (unix cfg).Trace as w s) {line : List UInt8}
    (hl : line ∈ readLines c w) : validUtf8 line = true := by
  obtain ⟨taken, hr⟩ := streamRead_of_trace h c
  rw [← hr.read] at hl
  exact (List.mem_filter.mp hl).2

/-- The messages accepted are those of the lines that are read. -/
theorem accepted_eq (h : (unix cfg).Trace as w s) (c : ClientId) :
    (Lane.accepted (lineLog c w)).map Prod.snd = validRequests cfg (readLines c w) := by
  rw [Lane.accepted, reads_eq, validRequests, readLines, List.filterMap_map, List.filterMap_map,
    List.map_filterMap]
  refine List.filterMap_congr fun x hx => ?_
  obtain ⟨n, line, verdict⟩ := x
  have hu := validUtf8_of_readLines h (List.mem_map_of_mem (f := fun x => x.2.1) hx)
  have hv : verdict = documentedVerdict cfg line :=
    (mem_requests h.run hx).trans (processUnixSocketLine_documented hu)
  subst hv
  show (Lane.acceptance (n, documentedVerdict cfg line)).map Prod.snd = (documentedVerdict cfg line).toOption
  cases documentedVerdict cfg line <;> rfl

/-- Until the main loop returns, each valid line of a client was taken, or is on its way. -/
theorem accepted_account (h : (unix cfg).Trace as w s) (hr : s.core.task.isReturned = false)
    (c : ClientId) :
    validRequests cfg (s.linesSent as c) =
      ofSource c (processed w) ++ (laneOf c s).queue.map Prod.snd ++
        (laneOf c s).slotAccepted.map Prod.snd ++
        validRequests cfg (linesOf (s.clients c).eof (s.clients c).incoming) := by
  obtain ⟨taken, hs⟩ := streamRead_of_trace h c
  have hacc := (Lane.inv_of_run (lineLog_run h.run c)).acceptances.eq hr
  rw [UnixState.linesSent, hs.now, validRequests_append, ← validRequests_filter taken, hs.read,
    ← accepted_eq h c, ← hacc, List.map_append, List.map_append, processed_ofSource]

/-- Nothing is left before the main loop: no authorized client has a line to
read or at its task, and no message is in the channel. -/
structure Handled (cfg : UnixSettings) (as : List UnixEvent) (s : UnixState) : Prop where
  waiting : s.core.task = .selecting
  channel (id : LineId) (message : Iec104Message) : .message id message ∉ s.channel
  slot (c : ClientId) : Trusted cfg c as → (s.clients c).phase.slot = none
  read (c : ClientId) : Trusted cfg c as → ∀ line rest, (s.clients c).readLine ≠ .line line rest

/-- The main loop took the valid lines of each authorized client, in order. -/
theorem processed_of_handled (h : (unix cfg).Trace as w s) (hd : Handled cfg as s)
    (hc : Trusted cfg c as) : ofSource c (processed w) = validRequests cfg (s.linesSent as c) := by
  have hr : s.core.task.isReturned = false := by rw [hd.waiting]; rfl
  have hq : (laneOf c s).queue = [] := by
    refine List.filterMap_eq_nil_iff.mpr fun item hi => ?_
    cases item with
    | message id message => exact absurd hi (hd.channel id message)
    | acceptError => rfl
  have hs : (laneOf c s).slotAccepted = [] := by
    rw [Lane.slotAccepted, show (laneOf c s).slot = none from hd.slot c hc]
    rfl
  rw [accepted_account h hr, hq, hs, linesOf_of_not_line (hd.read c hc)]
  simp [validRequests]

/-- The main loop takes nothing from other clients. -/
theorem trusted_of_processed (h : (unix cfg).Trace as w s) {x : ClientId × Iec104Message}
    (hx : x ∈ processed w) : Trusted cfg x.1 as := by
  by_contra hn
  obtain ⟨e, he, hp⟩ := List.mem_filterMap.mp hx
  cases e with
  | core e =>
    cases e with
    | received id message now =>
      cases hp
      exact (unheard_of_trace h id.1 hn).untaken id.2 message now (mem_unixLog.mpr he)
    | _ => cases hp
  | _ => cases hp

/-- What the main loop took was inserted, but for the message it is at. -/
theorem processed_writes (h : (unix cfg).Run w s) (hw : s.core.task = .selecting) :
    (processed w).map Prod.snd = (writes (unixLog w)).map CachedPoint.message := by
  have ha := arrivals_eq ((unix_process cfg).run h)
  rw [hw] at ha
  have hwr : arrivals (unixLog w) = writes (unixLog w) := ha.trans (List.append_nil _)
  rw [← hwr, processed, arrivals, unixLog, List.filterMap_filterMap, List.map_filterMap,
    List.map_filterMap]
  refine List.filterMap_congr fun e _ => ?_
  cases e with
  | core e => cases e <;> rfl
  | _ => rfl

/-- The messages in the data store, from those the main loop took. -/
theorem lookup_processed (h : (unix cfg).Run w s) (hw : s.core.task = .selecting) (k : Key) :
    (s.core.cache.lookup k).map CachedPoint.message =
      lastAt (Iec104Message.key cfg.core.defaultCa) k ((processed w).map Prod.snd) := by
  rw [processed_writes h hw, lastAt_map, cache_lookup ((unix_process cfg).run h)]
  rfl

/-- **Several clients.** When nothing is left before the main loop, it has
taken the valid lines of the authorized clients, each once and those of a client
in order, and nothing else, and inserted them in the order taken. In any other
run in which the clients sent the same lines, the data store has the same
messages, if no two clients write the same key. -/
theorem requests_shuffled (h : (unix cfg).Trace as w s) (hd : Handled cfg as s) :
    (∀ c, Trusted cfg c as → ofSource c (processed w) = validRequests cfg (s.linesSent as c)) ∧
    (∀ x ∈ processed w, Trusted cfg x.1 as) ∧
    (processed w).map Prod.snd = (writes (unixLog w)).map CachedPoint.message ∧
    ∀ as' w' s', (unix cfg).Trace as' w' s' → Handled cfg as' s' →
      (∀ c, Trusted cfg c as ↔ Trusted cfg c as') →
      (∀ c, Trusted cfg c as → s.linesSent as c = s'.linesSent as' c) →
      (∀ c d, Trusted cfg c as → Trusted cfg d as → c ≠ d →
        ∀ m ∈ validRequests cfg (s.linesSent as c), ∀ m' ∈ validRequests cfg (s.linesSent as d),
          m.key cfg.core.defaultCa ≠ m'.key cfg.core.defaultCa) →
      ∀ k, (s.core.cache.lookup k).map CachedPoint.message =
        (s'.core.cache.lookup k).map CachedPoint.message := by
  refine ⟨fun c hc => processed_of_handled h hd hc, fun x hx => trusted_of_processed h hx,
    processed_writes h.run hd.waiting, ?_⟩
  intro as' w' s' h' hd' ht hl hk k
  rw [lookup_processed h.run hd.waiting, lookup_processed h'.run hd'.waiting]
  have hmerge (c : ClientId) : ofSource c (processed w) = ofSource c (processed w') := by
    by_cases hc : Trusted cfg c as
    · rw [processed_of_handled h hd hc, processed_of_handled h' hd' ((ht c).mp hc), hl c hc]
    · -- nothing is taken from an unauthorized client
      have hnil {as₁ w₁ s₁} (h₁ : (unix cfg).Trace as₁ w₁ s₁) (hc₁ : ¬ Trusted cfg c as₁) :
          ofSource c (processed w₁) = [] :=
        List.eq_nil_iff_forall_not_mem.mpr fun m hm => hc₁ (trusted_of_processed h₁ (mem_ofSource.mp hm))
      rw [hnil h hc, hnil h' fun hc' => hc ((ht c).mpr hc')]
  refine lastAt_merge hmerge (fun x hx y hy hxy => ?_) k
  by_contra hne
  have hmem {x : ClientId × Iec104Message} (hx : x ∈ processed w) :
      x.2 ∈ validRequests cfg (s.linesSent as x.1) := by
    rw [← processed_of_handled h hd (trusted_of_processed h hx)]
    exact mem_ofSource.mpr hx
  exact hk x.1 y.1 (trusted_of_processed h hx) (trusted_of_processed h hy) hne x.2 (hmem hx) y.2
    (hmem hy) hxy

/-! ## Two clients -/

def otherRequest : List UInt8 := asciiBytes "\x7b\"ca\":2,\"ioa\":100,\"value\":false\x7d"

/-- A server that knows two requests, for the same IOA of two Common Addresses. -/
def UnixSettings.shared : UnixSettings :=
  { UnixSettings.sample with
    parse line :=
      if line = sampleRequest then some (.sample 100 true)
      else if line = otherRequest then some { Iec104Message.sample 100 false with ca := some 2 }
      else none }

/-- Two clients are accepted and send; client 0 sends a line that does not parse. -/
def twoClients : List UnixEvent :=
  [.main (.build true), .accept 0 (some ⟨1000, 1000, 1⟩), .accept 1 (some ⟨1000, 1000, 2⟩),
    .clientSend 0 (sampleRequest ++ [NEWLINE] ++ asciiBytes "what?" ++ [NEWLINE]),
    .clientSend 1 (otherRequest ++ [NEWLINE])]

/-- The lines of client 0 come first. -/
def inTurn : List UnixEvent :=
  twoClients ++ (handleLine 0 ++ [.readLine 0, .lock 0, .writeReply 0] ++ handleLine 1)

/-- The line of client 1 overtakes those of client 0. -/
def interleaved : List UnixEvent :=
  twoClients ++ [.readLine 0, .readLine 1, .forward 1, .forward 0, .readLine 0, .take (.sample 1),
    .main .insert, .main .dispatch, .ackLock, .lock 0, .ackWrite, .writeReply 0, .main .count,
    .take (.sample 2), .main .insert, .main .dispatch, .ackLock, .ackWrite, .main .count]

/-- Nothing is left of what the client sent. -/
def Client.idle (client : Client) : Bool :=
  client.phase.slot.isNone && client.incoming.isEmpty && !client.eof

/-- The main loop waits, and nothing is left of the lines of clients 0 and 1. -/
def UnixState.idle (s : UnixState) : Bool :=
  match s.core.task with
  | .selecting => s.channel.isEmpty && (s.clients 0).idle && (s.clients 1).idle
  | _ => false

theorem trusted_twoClients {rest : List UnixEvent} (h : ∀ c, lookups c rest = []) (c : ClientId) :
    Trusted .shared c (twoClients ++ rest) ↔ c = 0 ∨ c = 1 := by
  have hl : lookups c (twoClients ++ rest) = lookups c twoClients := by
    rw [lookups, List.filterMap_append]
    exact (congrArg _ (h c)).trans (List.append_nil _)
  rw [Trusted, hl]
  constructor
  · rintro ⟨peer, hp, -⟩
    obtain ⟨e, he, hx⟩ := List.mem_filterMap.mp hp
    simp only [twoClients, List.mem_cons, List.not_mem_nil, or_false] at he
    rcases he with rfl | rfl | rfl | rfl | rfl
    · cases hx
    · exact .inl (Option.ite_none_right_eq_some.mp hx).1.symm
    · exact .inr (Option.ite_none_right_eq_some.mp hx).1.symm
    · cases hx
    · cases hx
  · have hany (peer : PeerCred) : UnixSettings.shared.Authorizes peer :=
      ⟨fun _ h => (by cases h), fun _ h => by cases h⟩
    rintro (rfl | rfl)
    · exact ⟨⟨1000, 1000, 1⟩, List.mem_singleton_self _, hany _⟩
    · exact ⟨⟨1000, 1000, 2⟩, List.mem_singleton_self _, hany _⟩

theorem readLine_of_idle {client : Client} (h : client.idle = true) (line rest : List UInt8) :
    client.readLine ≠ .line line rest := by
  simp only [Client.idle, Bool.and_eq_true, List.isEmpty_iff] at h
  unfold Client.readLine
  rw [h.1.2]
  show (if client.eof = true then _ else ReadResult.pending) ≠ _
  split
  · exact fun h => by cases h
  · exact fun h => by cases h

theorem handled_of_idle {rest : List UnixEvent} (h : ∀ c, lookups c rest = []) (hs : s.idle = true) :
    Handled .shared (twoClients ++ rest) s := by
  unfold UnixState.idle at hs
  split at hs <;> [skip; cases hs]
  rename_i hw
  simp only [Bool.and_eq_true, List.isEmpty_iff] at hs
  obtain ⟨⟨hc, h₀⟩, h₁⟩ := hs
  have hidle (c : ClientId) (ht : Trusted .shared c (twoClients ++ rest)) : (s.clients c).idle = true := by
    rcases (trusted_twoClients h c).mp ht with rfl | rfl
    · exact h₀
    · exact h₁
  refine ⟨hw, fun id message hm => ?_, fun c ht => ?_, fun c ht => readLine_of_idle (hidle c ht)⟩
  · rw [hc] at hm
    cases hm
  · have := hidle c ht
    simp only [Client.idle, Bool.and_eq_true, Option.isNone_iff_eq_none] at this
    exact this.1.1

/-- What clients 0 and 1 sent. -/
theorem linesSent_of_idle {rest : List UnixEvent} (h : ∀ c, sent c rest = []) (hs : s.idle = true) :
    s.linesSent (twoClients ++ rest) 0 = [sampleRequest ++ [NEWLINE], asciiBytes "what?" ++ [NEWLINE]] ∧
      s.linesSent (twoClients ++ rest) 1 = [otherRequest ++ [NEWLINE]] := by
  unfold UnixState.idle at hs
  split at hs <;> [skip; cases hs]
  simp only [Bool.and_eq_true, Client.idle, Bool.not_eq_true'] at hs
  have hsent (c : ClientId) : sent c (twoClients ++ rest) = sent c twoClients := by
    rw [sent, List.flatMap_append]
    exact (congrArg _ (h c)).trans (List.append_nil _)
  rw [UnixState.linesSent, UnixState.linesSent, hs.1.2.2, hs.2.2, hsent, hsent]
  decide +kernel

theorem requests_shuffled_sample : ∃ w s w' s', (unix .shared).Trace inTurn w s ∧
    (unix .shared).Trace interleaved w' s' ∧
    (processed w).map Prod.fst = [0, 1] ∧ (processed w').map Prod.fst = [1, 0] ∧
    ofSource 0 (processed w) = [.sample 100 true] ∧
    ∀ k, (s.core.cache.lookup k).map CachedPoint.message =
      (s'.core.cache.lookup k).map CachedPoint.message := by
  obtain ⟨w, s, h, hs⟩ := Machine.exists_trace_of_exec (M := unix .shared) inTurn
    (fun w s => ((processed w).map Prod.fst, s.idle)) ([0, 1], true) (by decide +kernel)
  obtain ⟨w', s', h', hs'⟩ := Machine.exists_trace_of_exec (M := unix .shared) interleaved
    (fun w s => ((processed w).map Prod.fst, s.idle)) ([1, 0], true) (by decide +kernel)
  rw [Prod.mk.injEq] at hs hs'
  have ht (c : ClientId) : Trusted .shared c inTurn ↔ c = 0 ∨ c = 1 :=
    trusted_twoClients (fun _ => rfl) c
  have ht' (c : ClientId) : Trusted .shared c interleaved ↔ c = 0 ∨ c = 1 :=
    trusted_twoClients (fun _ => rfl) c
  obtain ⟨hl₀, hl₁⟩ : s.linesSent inTurn 0 = _ ∧ s.linesSent inTurn 1 = _ :=
    linesSent_of_idle (fun _ => rfl) hs.2
  obtain ⟨hl₀', hl₁'⟩ : s'.linesSent interleaved 0 = _ ∧ s'.linesSent interleaved 1 = _ :=
    linesSent_of_idle (fun _ => rfl) hs'.2
  have hv₀ : validRequests .shared (s.linesSent inTurn 0) = [.sample 100 true] := by
    rw [hl₀]
    decide +kernel
  have hv₁ : validRequests .shared (s.linesSent inTurn 1) =
      [{ Iec104Message.sample 100 false with ca := some 2 }] := by
    rw [hl₁]
    decide +kernel
  obtain ⟨hm, -, -, hcache⟩ := requests_shuffled h (handled_of_idle (fun _ => rfl) hs.2)
  refine ⟨w, s, w', s', h, h', hs.1, hs'.1, (hm 0 ((ht 0).mpr (.inl rfl))).trans hv₀, ?_⟩
  refine hcache interleaved w' s' h' (handled_of_idle (fun _ => rfl) hs'.2)
    (fun c => (ht c).trans (ht' c).symm) (fun c hc => ?_) fun c d hc hd hne m hm m' hm' => ?_
  · rcases (ht c).mp hc with rfl | rfl
    · rw [hl₀, hl₀']
    · rw [hl₁, hl₁']
  · -- the default Common Address is 1, not 2
    rcases (ht c).mp hc with rfl | rfl <;> rcases (ht d).mp hd with rfl | rfl
    · exact absurd rfl hne
    · rw [hv₀, List.mem_singleton] at hm
      rw [hv₁, List.mem_singleton] at hm'
      subst hm hm'
      decide
    · rw [hv₁, List.mem_singleton] at hm
      rw [hv₀, List.mem_singleton] at hm'
      subst hm hm'
      decide
    · exact absurd rfl hne

end Iec104Bridge
