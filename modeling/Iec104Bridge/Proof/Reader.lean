import Iec104Bridge.Model.Reader
import Iec104Bridge.Proof.Stream

/-!
# What the reader of a client holds

The limit on a line is tested on complete lines: `line` holds what was read of
the current request, whatever its length (`line_held`), and a request that
never ends is never rejected (`line_not_bounded`). Chunk by chunk, the reader
does what `Client.readLine` does in one step (`reader_refines`).
-/

namespace Iec104Bridge

open Framework

variable {cfg : ReaderSettings} {s t : ReaderState} {a : ReaderEvent} {o : Option ReaderEffect}
  {as : List ReaderEvent} {w : List ReaderEffect}

/-- What a step of the reader can do. -/
inductive LoopStep (cfg : ReaderSettings) (s : ReaderState) :
    ReaderEvent → ReaderState → Option ReaderEffect → Prop
  | send {bytes : List UInt8} : s.eof = false →
    LoopStep cfg s (.send bytes) { s with socket := s.socket ++ bytes } none
  | shutdown : LoopStep cfg s .shutdown { s with eof := true } none
  | fill {n : Nat} : s.phase = .reading → s.buffer = [] → n ≤ cfg.capacity →
    LoopStep cfg s (.fill n) { s with buffer := s.socket.take n, socket := s.socket.drop n } none
  | append : s.phase = .reading → NEWLINE ∉ s.buffer →
    LoopStep cfg s .append { s with line := s.line ++ s.buffer, buffer := [] } none
  | complete {init rest : List UInt8} : s.phase = .reading → s.buffer = init ++ NEWLINE :: rest →
    NEWLINE ∉ init →
    LoopStep cfg s .append
      (finishLine cfg { s with line := s.line ++ (init ++ [NEWLINE]), buffer := rest }).1
      (finishLine cfg { s with line := s.line ++ (init ++ [NEWLINE]), buffer := rest }).2
  | last : s.phase = .reading → s.buffer = [] → s.socket = [] → s.eof = true → s.line ≠ [] →
    LoopStep cfg s .endOfFile (finishLine cfg s).1 (finishLine cfg s).2
  | leave : s.phase = .reading → s.buffer = [] → s.socket = [] → s.eof = true → s.line = [] →
    LoopStep cfg s .endOfFile { s with phase := .ended } (some .left)
  | resume : s.phase.slot.isSome = true →
    LoopStep cfg s (.finish true) { s with phase := .reading, line := [] } none
  | abort : s.phase.slot.isSome = true →
    LoopStep cfg s (.finish false) { s with phase := .ended } (some .left)

theorem loopStep_of_step (h : (reader cfg).step s a = some (t, o)) : LoopStep cfg s a t o := by
  cases a with
  | send bytes =>
    simp only [reader, readerLoopStep] at h
    split at h <;> cases h
    exact .send (by simpa using ‹¬ s.eof = true›)
  | shutdown =>
    cases h
    exact .shutdown
  | fill n =>
    simp only [reader, readerLoopStep] at h
    split at h <;> [skip; cases h]
    rename_i hp hb
    split at h <;> cases h
    exact .fill hp hb (‹_ ∧ _ ∧ _› : _).2.1
  | append =>
    simp only [reader, readerLoopStep] at h
    split at h <;> [skip; cases h]
    rename_i b buffer hp hb
    rw [← hb] at h
    split at h
    · rename_i chunk rest hs
      have hf := Option.some.inj h
      obtain ⟨hbytes, init, rfl, hn⟩ := splitLine_eq_some hs
      obtain rfl := congrArg Prod.fst hf
      obtain rfl := congrArg Prod.snd hf
      exact .complete hp (by rw [hbytes, List.append_assoc]; rfl) hn
    · rename_i hs
      cases h
      exact .append hp (splitLine_eq_none.mp hs)
  | endOfFile =>
    simp only [reader, readerLoopStep] at h
    split at h <;> [skip; cases h]
    rename_i hp hb hsock
    split at h <;> [skip; cases h]
    rename_i he
    split at h
    · cases h
      exact .leave hp hb hsock he ‹_›
    · have hf := Option.some.inj h
      obtain rfl := congrArg Prod.fst hf
      obtain rfl := congrArg Prod.snd hf
      exact .last hp hb hsock he ‹_›
  | finish ok =>
    simp only [reader, readerLoopStep] at h
    split at h <;> [rename_i hp; rename_i hp; cases h] <;>
    · have hslot : s.phase.slot.isSome = true := by
        rw [hp]
        rfl
      cases ok with
      | false =>
        cases h
        exact .abort hslot
      | true =>
        cases h
        exact .resume hslot

/-! ## What `line` holds -/

/-- The stream of the client. -/
def ReaderEvent.sent : ReaderEvent → List UInt8
  | .send bytes => bytes
  | _ => []

def sentBytes (as : List ReaderEvent) : List UInt8 := as.flatMap ReaderEvent.sent

theorem sentBytes_concat (as : List ReaderEvent) (a : ReaderEvent) :
    sentBytes (as ++ [a]) = sentBytes as ++ a.sent := by
  simp [sentBytes]

/-- The bytes that are held follow complete lines, unless there are none. -/
def Follows (sent : List UInt8) (s : ReaderState) : Prop :=
  ∃ before, sent = before ++ (s.line ++ (s.buffer ++ s.socket)) ∧
    (before = [] ∨ before.getLast? = some NEWLINE ∨
      s.eof = true ∧ s.line ++ (s.buffer ++ s.socket) = [])

/-- A complete line. -/
def Complete (s : ReaderState) : Prop :=
  s.line.getLast? = some NEWLINE ∨ s.eof = true ∧ s.buffer ++ s.socket = []

/-- `line` is what was read of the current request. -/
structure LineHeld (cfg : ReaderSettings) (sent : List UInt8) (s : ReaderState) : Prop where
  follows : Follows sent s
  reading : s.phase = .reading → NEWLINE ∉ s.line
  complete : s.phase.slot.isSome = true → Complete s
  one : NEWLINE ∉ s.line.dropLast
  capacity : s.buffer.length ≤ cfg.capacity

theorem finishLine_held {sent : List UInt8} (hf : Follows sent s) (hc : Complete s)
    (hone : NEWLINE ∉ s.line.dropLast) (hcap : s.buffer.length ≤ cfg.capacity) :
    LineHeld cfg sent (finishLine cfg s).1 := by
  unfold finishLine
  split
  · refine ⟨hf, fun h => ?_, fun _ => hc, hone, hcap⟩
    simp only at h
    split at h <;> cases h
  · exact ⟨hf, fun h => (by cases h), fun _ => hc, hone, hcap⟩

/-- Bytes that the reader moves stay in their order. -/
theorem Follows.moved {sent : List UInt8} (h : Follows sent s)
    (hbytes : t.line ++ (t.buffer ++ t.socket) = s.line ++ (s.buffer ++ s.socket))
    (heof : s.eof = true → t.eof = true) : Follows sent t := by
  obtain ⟨before, hsent, hbefore⟩ := h
  refine ⟨before, by rw [hbytes, hsent], ?_⟩
  rw [hbytes]
  exact hbefore.imp_right (Or.imp_right fun hb => ⟨heof hb.1, hb.2⟩)

/-- What the client sends comes last. -/
theorem Follows.send {sent : List UInt8} (h : Follows sent s) (he : s.eof = false) (bytes : List UInt8) :
    Follows (sent ++ bytes) { s with socket := s.socket ++ bytes } := by
  obtain ⟨before, hsent, hbefore⟩ := h
  refine ⟨before, ?_, ?_⟩
  · show sent ++ bytes = before ++ (s.line ++ (s.buffer ++ (s.socket ++ bytes)))
    rw [hsent]
    simp only [List.append_assoc]
  · rcases hbefore with hb | hb | hb
    · exact .inl hb
    · exact .inr (.inl hb)
    · simp [he] at hb

/-- A line that was handled comes before what is held. -/
theorem Follows.resume {sent : List UInt8} (h : Follows sent s) (hc : Complete s) :
    Follows sent { s with phase := .reading, line := [] } := by
  obtain ⟨before, hsent, -⟩ := h
  refine ⟨before ++ s.line, ?_, ?_⟩
  · rw [hsent, List.append_assoc]
    rfl
  · rcases hc with hl | hl
    · exact .inr (.inl (by rw [List.getLast?_append, hl]; rfl))
    · exact .inr (.inr hl)

theorem slot_reading (hp : s.phase = .reading) : ¬ s.phase.slot.isSome = true := by
  rw [hp]
  nofun

theorem LineHeld.step {sent : List UInt8} (h : LineHeld cfg sent s)
    (hs : LoopStep cfg s a t o) : LineHeld cfg (sent ++ a.sent) t := by
  obtain ⟨hfollows, hreading, hcomplete, hone, hcap⟩ := h
  cases hs with
  | @send bytes he =>
    refine ⟨hfollows.send he bytes, hreading, fun hp => ?_, hone, hcap⟩
    rcases hcomplete hp with hl | hl
    · exact .inl hl
    · simp [he] at hl
  | shutdown =>
    simp only [ReaderEvent.sent, List.append_nil]
    exact ⟨hfollows.moved rfl fun _ => rfl, hreading,
      fun hp => (hcomplete hp).imp_right fun hl => ⟨rfl, hl.2⟩, hone, hcap⟩
  | @fill n hp hb hn =>
    simp only [ReaderEvent.sent, List.append_nil]
    refine ⟨hfollows.moved ?_ id, hreading, fun hslot => absurd hslot (slot_reading hp), hone,
      (List.length_take_le _ _).trans hn⟩
    rw [hb, List.take_append_drop, List.nil_append]
  | append hp hn =>
    simp only [ReaderEvent.sent, List.append_nil]
    have hline : NEWLINE ∉ s.line ++ s.buffer := by
      rw [List.mem_append, not_or]
      exact ⟨hreading hp, hn⟩
    refine ⟨hfollows.moved ?_ id, fun _ => hline, fun hslot => absurd hslot (slot_reading hp),
      fun hm => hline (List.dropLast_subset _ hm), Nat.zero_le _⟩
    rw [List.nil_append, List.append_assoc]
  | @complete init rest hp hb hn =>
    simp only [ReaderEvent.sent, List.append_nil]
    refine finishLine_held (hfollows.moved ?_ id) (.inl ?_) ?_ ?_
    · rw [hb]
      simp
    · rw [← List.append_assoc, List.getLast?_concat]
    · rw [← List.append_assoc, List.dropLast_concat, List.mem_append, not_or]
      exact ⟨hreading hp, hn⟩
    · rw [hb, List.length_append, List.length_cons] at hcap
      show rest.length ≤ _
      omega
  | last hp hb hsock he hne =>
    simp only [ReaderEvent.sent, List.append_nil]
    exact finishLine_held hfollows (.inr ⟨he, by rw [hb, hsock]; rfl⟩) hone hcap
  | leave | abort =>
    simp only [ReaderEvent.sent, List.append_nil]
    exact ⟨hfollows.moved rfl id, fun h => (by cases h), fun h => (by cases h), hone, hcap⟩
  | resume hslot =>
    simp only [ReaderEvent.sent, List.append_nil]
    exact ⟨hfollows.resume (hcomplete hslot), fun _ => by simp, fun h => (by cases h), by simp, hcap⟩

theorem lineHeld_of_trace (h : (reader cfg).Trace as w s) : LineHeld cfg (sentBytes as) s := by
  refine h.invariant (P := fun as _ s => LineHeld cfg (sentBytes as) s)
    ⟨⟨[], rfl, .inl rfl⟩, fun _ => by simp [reader], fun h => (by cases h), by simp [reader],
      Nat.zero_le _⟩ ?_
  intro as w s a t o _ ih hs
  rw [sentBytes_concat]
  exact ih.step (loopStep_of_step hs)

/-! ## Requests -/

/-- Complete lines do not change what follows them. -/
theorem splitLines_append {bytes : List UInt8} (h : (splitLines bytes).2 = []) (more : List UInt8) :
    splitLines (bytes ++ more) = ((splitLines bytes).1 ++ (splitLines more).1, (splitLines more).2) := by
  induction bytes with
  | nil => rfl
  | cons b rest ih =>
    rw [List.cons_append]
    simp only [splitLines] at h ⊢
    by_cases hb : b = NEWLINE
    · rw [if_pos hb] at h
      rw [if_pos hb, if_pos hb, ih h]
      rfl
    · rw [if_neg hb] at h
      rw [if_neg hb, if_neg hb]
      split at h
      · cases h
      · rename_i line lines hr
        rw [ih h, hr]
        rfl

theorem linesOf_append {bytes : List UInt8} (h : (splitLines bytes).2 = []) (eof : Bool)
    (more : List UInt8) : linesOf eof (bytes ++ more) = (splitLines bytes).1 ++ linesOf eof more := by
  rw [linesOf, splitLines_append h, List.append_assoc]
  rfl

/-- What begins a stream, with no newline before its end, begins its first line. -/
theorem exists_line_of_append {line : List UInt8} (hne : line ≠ []) (hn : NEWLINE ∉ line.dropLast)
    (more : List UInt8) : ∃ request ∈ linesOf true (line ++ more), line <+: request := by
  cases hs : splitLine (line ++ more) with
  | none =>
    have hx : line ++ more ≠ [] := List.append_ne_nil_of_left_ne_nil hne more
    refine ⟨line ++ more, ?_, List.prefix_append _ _⟩
    rw [linesOf, splitLines_of_none hs, if_pos ⟨rfl, hx⟩]
    exact List.mem_cons_self
  | some r =>
    obtain ⟨chunk, rest⟩ := r
    obtain ⟨hbytes, init, rfl, -⟩ := splitLine_eq_some hs
    refine ⟨init ++ [NEWLINE], ?_, ?_⟩
    · rw [linesOf_of_some true hs]
      exact List.mem_cons_self
    · rcases List.prefix_or_prefix_of_prefix (List.prefix_append line more)
        (hbytes ▸ List.prefix_append (init ++ [NEWLINE]) rest) with h | ⟨tail, h⟩
      · exact h
      · -- the newline would not be the last byte
        rcases List.eq_nil_or_concat tail with rfl | ⟨tail, b, rfl⟩
        · rw [List.append_nil] at h
          rw [h]
        · refine absurd ?_ hn
          rw [← h, List.concat_eq_append, ← List.append_assoc, List.dropLast_concat]
          simp

/-- `line` begins a request of the client. -/
theorem LineHeld.request {sent : List UInt8} (h : LineHeld cfg sent s) (hne : s.line ≠ []) :
    ∃ request ∈ linesOf true sent, s.line <+: request := by
  obtain ⟨before, rfl, hbefore⟩ := h.follows
  obtain ⟨request, hmem, hpre⟩ := exists_line_of_append hne h.one (s.buffer ++ s.socket)
  have hlines : (splitLines before).2 = [] := by
    rcases hbefore with rfl | hb | ⟨-, hb⟩
    · rfl
    · obtain ⟨init, rfl⟩ := List.getLast?_eq_some_iff.mp hb
      exact splitLines_newline init
    · exact absurd (List.append_eq_nil_iff.mp hb).1 hne
  rw [linesOf_append hlines]
  exact ⟨request, List.mem_append_right _ hmem, hpre⟩

/-! ## The limit -/

theorem finishLine_line (cfg : ReaderSettings) (s : ReaderState) : (finishLine cfg s).1.line = s.line := by
  unfold finishLine
  split <;> rfl

/-- A step appends at most one buffer. -/
theorem LoopStep.line_le (h : LoopStep cfg s a t o) (hcap : s.buffer.length ≤ cfg.capacity) :
    t.line.length ≤ s.line.length + cfg.capacity := by
  cases h with
  | append =>
    rw [List.length_append]
    omega
  | @complete init rest hp hb hn =>
    rw [hb, List.length_append, List.length_cons] at hcap
    rw [finishLine_line]
    simp only [List.length_append, List.length_singleton]
    omega
  | last =>
    rw [finishLine_line]
    omega
  | resume => exact Nat.zero_le _
  | _ => exact Nat.le_add_right _ _

/-- What is done with a line that is too long, and with one that is not. -/
theorem processUnixSocketLine_limit (parse : Parser) (line : List UInt8) (bytes maxLineBytes : Nat) :
    (maxLineBytes < bytes →
      processUnixSocketLine parse line bytes maxLineBytes = .error .errorValidation) ∧
    ∀ message, processUnixSocketLine parse line bytes maxLineBytes = .ok message →
      bytes ≤ maxLineBytes := by
  have h : maxLineBytes < bytes →
      processUnixSocketLine parse line bytes maxLineBytes = .error .errorValidation := fun hlt => by
    simp only [processUnixSocketLine, enforceLineSizeLimit, payloadExceedsLimit, hlt, decide_true,
      if_true]
    rfl
  refine ⟨h, fun message hm => not_lt.mp fun hlt => ?_⟩
  rw [h hlt] at hm
  cases hm

/-- A line is processed when it is complete, and held in full. -/
structure Processed (cfg : ReaderSettings) (s t : ReaderState) (line : List UInt8)
    (verdict : Except Reply Iec104Message) : Prop where
  held : t.line = line
  complete : line.getLast? = some NEWLINE ∨ s.eof = true ∧ s.line = line
  rejected : cfg.maxLineBytes < line.length → verdict = .error .errorValidation
  accepted : ∀ message, verdict = .ok message → line.length ≤ cfg.maxLineBytes

theorem finishLine_processed {n : Nat} {line : List UInt8} {verdict : Except Reply Iec104Message}
    (h : (finishLine cfg s).2 = some (.read n line verdict)) :
    s.line = line ∧
      verdict = processUnixSocketLine cfg.parse line line.length cfg.maxLineBytes := by
  unfold finishLine at h
  split at h
  · cases h
    exact ⟨rfl, rfl⟩
  · cases h

theorem LoopStep.processed {n : Nat} {line : List UInt8} {verdict : Except Reply Iec104Message}
    (h : LoopStep cfg s a t (some (.read n line verdict))) : Processed cfg s t line verdict := by
  generalize ho : some (ReaderEffect.read n line verdict) = o at h
  cases h with
  | @complete init rest hp hb hn =>
    obtain ⟨hline, hverdict⟩ := finishLine_processed ho.symm
    subst hverdict
    obtain ⟨hrejected, haccepted⟩ := processUnixSocketLine_limit cfg.parse line line.length cfg.maxLineBytes
    refine ⟨(finishLine_line _ _).trans hline, .inl ?_, hrejected, haccepted⟩
    rw [← hline, ← List.append_assoc, List.getLast?_concat]
  | last hp hb hsock he hne =>
    obtain ⟨hline, hverdict⟩ := finishLine_processed ho.symm
    subst hverdict
    obtain ⟨hrejected, haccepted⟩ := processUnixSocketLine_limit cfg.parse line line.length cfg.maxLineBytes
    exact ⟨(finishLine_line _ _).trans hline, .inr ⟨he, hline⟩, hrejected, haccepted⟩
  | _ => cases ho

/-- **The line limit.** In every reachable state, however the stream is cut,
`line` begins a request of the client, so that it is as long as that request at
most; the buffer has its capacity, and a step appends no more than that. A line
of UTF-8 is tested against the limit when it is complete and held in full: it is
rejected with `error validation` if it is longer, and only forwarded if it is not. -/
theorem line_held (h : (reader cfg).Trace as w s) :
    (s.line ≠ [] → ∃ request ∈ linesOf true (sentBytes as), s.line <+: request) ∧
    (∀ bound, (∀ request ∈ linesOf true (sentBytes as), request.length ≤ bound) →
      s.line.length ≤ bound) ∧
    s.buffer.length ≤ cfg.capacity ∧
    ∀ a t o, (reader cfg).step s a = some (t, o) → t.line.length ≤ s.line.length + cfg.capacity ∧
      ∀ n line verdict, o = some (.read n line verdict) → Processed cfg s t line verdict := by
  have hheld := lineHeld_of_trace h
  refine ⟨hheld.request, fun bound hb => ?_, hheld.capacity, fun a t o hs => ?_⟩
  · by_cases hne : s.line = []
    · rw [hne]
      exact Nat.zero_le _
    · obtain ⟨request, hmem, hpre⟩ := hheld.request hne
      exact hpre.length_le.trans (hb request hmem)
  · have hstep := loopStep_of_step hs
    refine ⟨hstep.line_le hheld.capacity, fun n line verdict ho => ?_⟩
    subst ho
    exact hstep.processed

/-! ## A request that does not end -/

theorem step_fill (hp : s.phase = .reading) (hb : s.buffer = []) {n : Nat} (h₀ : 0 < n)
    (h₁ : n ≤ cfg.capacity) (h₂ : n ≤ s.socket.length) :
    (reader cfg).step s (.fill n) =
      some ({ s with buffer := s.socket.take n, socket := s.socket.drop n }, none) := by
  simp only [reader, readerLoopStep, hp, hb]
  rw [if_pos ⟨h₀, h₁, h₂⟩]

theorem step_append (hp : s.phase = .reading) (hb : s.buffer ≠ []) (hn : NEWLINE ∉ s.buffer) :
    (reader cfg).step s .append = some ({ s with line := s.line ++ s.buffer, buffer := [] }, none) := by
  obtain ⟨b, rest, hbuf⟩ := List.exists_cons_of_ne_nil hb
  rw [hbuf] at hn ⊢
  simp only [reader, readerLoopStep, hp, hbuf, splitLine_eq_none.mpr hn]

/-- What has no newline is read byte by byte. -/
theorem steps_append (cfg : ReaderSettings) {bytes : List UInt8} (hn : NEWLINE ∉ bytes) :
    ∀ {s : ReaderState}, s.phase = .reading → s.buffer = [] → s.socket = bytes →
      Machine.Steps (reader cfg) s [] { s with line := s.line ++ bytes, socket := [] } := by
  induction bytes with
  | nil =>
    intro s hp hb hs
    rw [List.append_nil, ← hs]
    exact .refl s
  | cons b rest ih =>
    intro s hp hb hs
    rw [List.mem_cons, not_or] at hn
    have hfill : (reader cfg).step s (.fill 1) = some ({ s with buffer := [b], socket := rest }, none) := by
      rw [step_fill hp hb one_pos cfg.capacity_pos (by rw [hs]; exact Nat.succ_pos _), hs]
      rfl
    have happend : (reader cfg).step { s with buffer := [b], socket := rest } .append =
        some ({ s with line := s.line ++ [b], buffer := [], socket := rest }, none) :=
      step_append hp (List.cons_ne_nil _ _) (by simpa using hn.1)
    have hrest := ih hn.2 (s := { s with line := s.line ++ [b], buffer := [], socket := rest }) hp rfl rfl
    have hsteps := ((Machine.Steps.single hfill).trans (.single happend)).trans hrest
    obtain ⟨phase, socket, eof, buffer, line, lines⟩ := s
    subst hb
    rw [List.append_cons]
    exact hsteps

/-- A `line` of any length is held, and nothing is rejected. -/
theorem exists_line (cfg : ReaderSettings) (n : Nat) :
    ∃ s, (reader cfg).Run [] s ∧ s.line.length = n := by
  have hsend : (reader cfg).step {} (.send (List.replicate n 97)) =
      some ({ socket := List.replicate n 97 }, none) := rfl
  have hn : NEWLINE ∉ List.replicate n (97 : UInt8) := fun h => by
    have := List.eq_of_mem_replicate h
    revert this
    decide
  have hsteps := (Machine.Steps.single hsend).trans
    (steps_append cfg hn (s := { socket := List.replicate n 97 }) rfl rfl rfl)
  exact ⟨_, hsteps, List.length_replicate⟩

def ReaderSettings.sample : ReaderSettings := { UnixSettings.sample with
  capacity := 8192, capacity_pos := by decide }

/-- While a client sends no newline, no bound holds of `line`, and the reader
rejects nothing. -/
theorem line_not_bounded :
    (∃ s, (reader .sample).Run [] s ∧
      ReaderSettings.sample.maxLineBytes + ReaderSettings.sample.capacity < s.line.length) ∧
    ¬ ∃ bound, ∀ w s, (reader .sample).Run w s → s.line.length ≤ bound := by
  constructor
  · obtain ⟨s, h, hl⟩ := exists_line .sample
      (ReaderSettings.sample.maxLineBytes + ReaderSettings.sample.capacity + 1)
    exact ⟨s, h, hl ▸ Nat.lt_succ_self _⟩
  · rintro ⟨bound, hbound⟩
    obtain ⟨s, h, hl⟩ := exists_line .sample (bound + 1)
    have := hbound _ s h
    omega

/-- A request is read in two chunks, and forwarded. -/
theorem line_held_sample : ∃ as w s, (reader .sample).Trace as w s ∧ s.line = sampleRequest ++ [NEWLINE] ∧
    ∃ request ∈ linesOf true (sentBytes as), s.line <+: request := by
  obtain ⟨w, s, h, hw⟩ := Machine.exists_trace_of_exec (M := reader .sample)
    [.send (sampleRequest.take 9), .fill 9, .append, .send (sampleRequest.drop 9 ++ [NEWLINE]),
      .fill (sampleRequest.length - 8), .append]
    (fun _ s => s.line) (sampleRequest ++ [NEWLINE]) (by decide +kernel)
  exact ⟨_, w, s, h, hw, (line_held h).1 (by rw [hw]; decide)⟩

/-! ## Chunks and lines -/

/-- What the client sent and no complete line was taken of. -/
def ReaderState.pending (s : ReaderState) : List UInt8 :=
  match s.phase with
  | .reading => s.line ++ (s.buffer ++ s.socket)
  | _ => s.buffer ++ s.socket

/-- The client of the bridge that is read in chunks. -/
def ReaderState.toClient (s : ReaderState) (client : Client) : Client :=
  { client with phase := s.phase, incoming := s.pending, eof := s.eof, lines := s.lines }

/-- What the bridge logs of it. -/
def ReaderEffect.toUnix (c : ClientId) : ReaderEffect → UnixEffect
  | .read n line verdict => .read (c, n) line verdict
  | .left => .left c

theorem pending_of_reading (hp : s.phase = .reading) : s.pending = s.line ++ (s.buffer ++ s.socket) := by
  rw [ReaderState.pending, hp]

/-- A complete line is no longer pending. -/
theorem pending_finishLine (cfg : ReaderSettings) (s : ReaderState) :
    (finishLine cfg s).1.pending = s.buffer ++ s.socket := by
  unfold finishLine
  split
  · simp only [ReaderState.pending]
    split
    · rename_i h
      split at h <;> cases h
    · rfl
  · rfl

variable {u : UnixState} {c : ClientId}

/-- `readLine` of the bridge takes the line that `finishLine` processes. -/
theorem readLine_finishLine {client : Client} (hc : u.clients c = client) (hp : client.phase = .reading)
    (hl : client.readLine = .line s.line (s.buffer ++ s.socket)) (hlines : client.lines = s.lines)
    (heof : client.eof = s.eof) :
    (unix cfg.toUnixSettings).step u (.readLine c) =
      some (u.setClient c ((finishLine cfg s).1.toClient client),
        (finishLine cfg s).2.map (ReaderEffect.toUnix c)) := by
  show readerStep cfg.toUnixSettings u c (.readLine c) = _
  rw [ReaderState.toClient, pending_finishLine]
  simp only [readerStep, hc, hp, hl]
  unfold finishLine
  split
  · simp only [hlines, ← heof]
    rfl
  · simp only [← heof, ← hlines]
    rfl

/-- **Chunks and lines.** A step of the reader is a step of the bridge, or
changes nothing there. -/
theorem reader_refines {sent : List UInt8} (hheld : LineHeld cfg sent s)
    (hu : u.clients c = s.toClient (u.clients c)) (ha : ∀ ok, a ≠ .finish ok)
    (h : (reader cfg).step s a = some (t, o)) :
    t.toClient (u.clients c) = u.clients c ∧ o = none ∨
      ∃ e, (unix cfg.toUnixSettings).step u e =
        some (u.setClient c (t.toClient (u.clients c)), o.map (ReaderEffect.toUnix c)) := by
  generalize hc : u.clients c = client at hu ⊢
  have hphase : client.phase = s.phase := by rw [hu]; rfl
  have hincoming : client.incoming = s.pending := by rw [hu]; rfl
  have heof : client.eof = s.eof := by rw [hu]; rfl
  have hlines : client.lines = s.lines := by rw [hu]; rfl
  have hsame : t.phase = s.phase → t.pending = s.pending → t.eof = s.eof → t.lines = s.lines →
      t.toClient client = client := by
    intro h₁ h₂ h₃ h₄
    rw [ReaderState.toClient, h₁, h₂, h₃, h₄, ← hphase, ← hincoming, ← heof, ← hlines]
  cases loopStep_of_step h with
  | @send bytes he =>
    refine .inr ⟨.clientSend c bytes, ?_⟩
    have hpending : ({ s with socket := s.socket ++ bytes } : ReaderState).pending =
        client.incoming ++ bytes := by
      rw [hincoming]
      unfold ReaderState.pending
      cases s.phase <;> simp
    show clientStep u c (.clientSend c bytes) = _
    rw [ReaderState.toClient, hpending]
    simp only [clientStep, hc, heof, he, hphase, ← hlines]
    rfl
  | shutdown =>
    refine .inr ⟨.clientShutdown c, ?_⟩
    have hpending : ({ s with eof := true } : ReaderState).pending = client.incoming := hincoming.symm
    show clientStep u c (.clientShutdown c) = _
    rw [ReaderState.toClient, hpending]
    simp only [clientStep, hc, hphase, ← hlines]
    rfl
  | @fill n hp hb hn =>
    refine .inl ⟨hsame rfl ?_ rfl rfl, rfl⟩
    simp only [ReaderState.pending, hp, hb, List.nil_append, List.take_append_drop]
  | append hp hn =>
    refine .inl ⟨hsame rfl ?_ rfl rfl, rfl⟩
    simp only [ReaderState.pending, hp, List.nil_append, List.append_assoc]
  | @complete init rest hp hb hn =>
    refine .inr ⟨.readLine c, readLine_finishLine hc (hphase.trans hp) ?_ hlines heof⟩
    have hline : NEWLINE ∉ s.line ++ init := by
      rw [List.mem_append, not_or]
      exact ⟨hheld.reading hp, hn⟩
    have hsplit : client.incoming = (s.line ++ init) ++ NEWLINE :: (rest ++ s.socket) := by
      rw [hincoming, pending_of_reading hp, hb]
      simp
    rw [Client.readLine, hsplit, splitLine_newline hline]
    simp
  | last hp hb hsock he hne =>
    refine .inr ⟨.readLine c, readLine_finishLine hc (hphase.trans hp) ?_ hlines heof⟩
    have hall : client.incoming = s.line := by
      rw [hincoming, pending_of_reading hp, hb, hsock, List.append_nil, List.append_nil]
    rw [Client.readLine, hall, splitLine_eq_none.mpr (hheld.reading hp), heof, he]
    simp [hne, hb, hsock]
  | leave hp hb hsock he hl =>
    refine .inr ⟨.readLine c, ?_⟩
    have hall : client.incoming = [] := by
      rw [hincoming, pending_of_reading hp, hb, hsock, hl]
      rfl
    have hread : client.readLine = .eof := by
      rw [Client.readLine, hall, heof, he]
      rfl
    have hpending : ({ s with phase := .ended } : ReaderState).pending = client.incoming := by
      rw [hall]
      show s.buffer ++ s.socket = []
      rw [hb, hsock]
      rfl
    show readerStep cfg.toUnixSettings u c (.readLine c) = _
    rw [ReaderState.toClient, hpending]
    simp only [readerStep, hc, hphase.trans hp, hread, ← heof, ← hlines]
    rfl
  | resume => exact absurd rfl (ha true)
  | abort => exact absurd rfl (ha false)

/-- The end of the handling of a line changes the phase of the client. -/
theorem toClient_finish (cfg : ReaderSettings) {client : Client} (hu : client = s.toClient client)
    (hslot : s.phase.slot.isSome = true) (ok : Bool) :
    ∃ t o, (reader cfg).step s (.finish ok) = some (t, o) ∧ ∀ writer unread,
      t.toClient { client with writer, unread } =
        { client with phase := if ok then .reading else .ended, writer, unread } := by
  have hpending : s.pending = s.buffer ++ s.socket := by
    unfold ReaderState.pending
    split
    · rename_i hp
      rw [hp] at hslot
      cases hslot
    · rfl
  have hstep : (reader cfg).step s (.finish ok) =
      if ok then some ({ s with phase := .reading, line := [] }, none)
      else some ({ s with phase := .ended }, some .left) := by
    simp only [reader, readerLoopStep]
    split
    · rfl
    · rfl
    · rename_i hr hs
      cases hp : s.phase with
      | rejecting n reply => exact absurd hp (hr n reply)
      | sending n message => exact absurd hp (hs n message)
      | _ => simp [hp, ClientPhase.slot] at hslot
  rw [hu]
  cases ok with
  | true =>
    refine ⟨_, _, hstep, fun writer unread => ?_⟩
    simp only [ReaderState.toClient, hpending]
    rfl
  | false =>
    refine ⟨_, _, hstep, fun writer unread => ?_⟩
    simp only [ReaderState.toClient, hpending]
    rfl

/-- The reader goes on, or ends, when the bridge has written its reply or
forwarded its message, or could not. -/
theorem reader_finish {u' : UnixState} {e : UnixEvent} {x : Option UnixEffect}
    (he : e = .writeReply c ∨ e = .forward c) (hu : u.clients c = s.toClient (u.clients c))
    (h : (unix cfg.toUnixSettings).step u e = some (u', x)) :
    ∃ ok t o, (reader cfg).step s (.finish ok) = some (t, o) ∧
      ∃ writer unread, u'.clients c = t.toClient { u.clients c with writer, unread } := by
  generalize hc : u.clients c = client at hu ⊢
  have hphase : s.phase = client.phase := by rw [hu]; rfl
  have hset : ∀ next : Client, (u.setClient c next).clients c = next := fun next =>
    Function.update_self ..
  rcases he with rfl | rfl
  · have h : readerStep cfg.toUnixSettings u c (.writeReply c) = some (u', x) := h
    simp only [readerStep, hc] at h
    split at h <;> [skip; cases h]
    rename_i n reply writer hp hw
    have hslot : s.phase.slot.isSome = true := by
      rw [hphase, hp]
      rfl
    split at h
    · cases h
      obtain ⟨t, o, hs, hnext⟩ := toClient_finish cfg hu hslot false
      exact ⟨false, t, o, hs, writer, client.unread, by rw [hset, hnext]; rfl⟩
    · split at h <;> cases h
      obtain ⟨t, o, hs, hnext⟩ := toClient_finish cfg hu hslot true
      exact ⟨true, t, o, hs, writer, client.unread ++ [reply], by rw [hset, hnext]; rfl⟩
  · have h : readerStep cfg.toUnixSettings u c (.forward c) = some (u', x) := h
    simp only [readerStep, hc] at h
    split at h <;> [skip; cases h]
    rename_i n message hp
    have hslot : s.phase.slot.isSome = true := by
      rw [hphase, hp]
      rfl
    split at h
    · cases h
      obtain ⟨t, o, hs, hnext⟩ := toClient_finish cfg hu hslot false
      exact ⟨false, t, o, hs, client.writer, client.unread, by rw [hset, hnext]; rfl⟩
    · split at h <;> cases h
      obtain ⟨t, o, hs, hnext⟩ := toClient_finish cfg hu hslot true
      exact ⟨true, t, o, hs, client.writer, client.unread, by rw [hnext]; exact hset _⟩

end Iec104Bridge
