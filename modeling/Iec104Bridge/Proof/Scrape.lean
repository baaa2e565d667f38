import Iec104Bridge.Framework.Readers
import Iec104Bridge.Model.Scrape
import Iec104Bridge.Proof.Cache
import Iec104Bridge.Proof.Counter
import Iec104Bridge.Proof.Interrogation

/-!
# What a scrape shows

The metrics server is a machine of readers (`scrape_simulation`). So the three
numbers of a response are those of three points between its acceptance and the
response, in the order they are read (`scrape_reads`). They need not be those of
one point; but no later scrape shows a smaller number, and since the size of
the data store is read first, it is at most one more than the messages
dispatched and the acknowledgements that failed (`scrapes_ordered`).
-/

namespace Iec104Bridge

open Framework

variable {ι : Type} {cfg : Settings} {s t : State ι} {w : List (Effect ι)}

/-! ## The numbers of a run -/

/-- The keys written in a run. -/
def cachedKeys (cfg : Settings) (w : List (Effect ι)) : Finset Key :=
  ((writes w).map (CachedPoint.key cfg.defaultCa)).toFinset

def Effect.isCounted : Effect ι → Bool
  | .counted => true
  | _ => false

def dispatchedCount (w : List (Effect ι)) : Nat := w.countP Effect.isCounted

def giCount (w : List (Effect ι)) : Nat := w.countP Effect.isGiCounted

theorem keys_eq (h : (process ι cfg).Run w s) : s.cache.keys = cachedKeys cfg w := by
  ext k
  rw [Finmap.mem_keys, (lastWriteWins_of_run h).mem_iff]
  simp [cachedKeys]

theorem messagesDispatched_eq (h : (process ι cfg).Run w s) :
    s.metrics.messagesDispatched = dispatchedCount w := by
  refine h.invariant (P := fun w s => s.metrics.messagesDispatched = dispatchedCount w) rfl
    fun w s a t o _ ih hs => ?_
  rw [dispatchedCount, List.countP_append, ← dispatchedCount, ← ih]
  rcases process_step hs with hs | ⟨conn, hs⟩
  · cases hs <;> rfl
  · rw [hs.frame.2.2.1]
    cases hs <;> rfl

/-- The message at hand is inserted, and neither counted nor given up. -/
def TaskPhase.inserted (task : TaskPhase ι) : Nat :=
  match task with
  | .cached .. | .acking .. | .acked _ => 1
  | _ => 0

/-- What is inserted is dispatched and counted, not acknowledged, or at hand. -/
theorem writes_length (h : (process ι cfg).Run w s) (hg : cfg.giOnly = false) :
    (writes w).length = s.metrics.messagesDispatched + w.countP Effect.isAckFailed + s.task.inserted := by
  refine h.invariant (P := fun w s => (writes w).length =
    s.metrics.messagesDispatched + w.countP Effect.isAckFailed + s.task.inserted) rfl
    fun w s a t o hr ih hs => ?_
  rw [writes_append, List.length_append, List.countP_append, ih]
  rcases process_step hs with hs | ⟨conn, hs⟩
  · cases hs with
    | noCount ht =>
      -- outside GI-only mode the message was dispatched
      have hd := (counted_of_run hr).dispatched false (by rw [ht]; rfl)
      rw [hg] at hd
      cases hd
    | built ht | ctrlC ht =>
      rcases ht with ht | ht <;> simp [ht, TaskPhase.inserted, writes, Effect.write, Effect.isAckFailed]
    | receiveError ht => simp [writes]
    | count ht | ackFailed ht =>
      simp [ht, TaskPhase.inserted, writes, Effect.write, Effect.isAckFailed, List.filterMap_cons]
      omega
    | _ ht => simp [ht, TaskPhase.inserted, writes, Effect.write, Effect.isAckFailed]
  · obtain ⟨-, ht, hm, -⟩ := hs.frame
    rw [hs.writes, hs.account.2, ht, hm]
    rfl

/-- There are no more cached keys than messages dispatched, failed
acknowledgements, and the message at hand. -/
theorem cachedKeys_le (h : (process ι cfg).Run w s) (hg : cfg.giOnly = false) :
    (cachedKeys cfg w).card ≤ dispatchedCount w + w.countP Effect.isAckFailed + 1 := by
  have hcard : (cachedKeys cfg w).card ≤ (writes w).length := by
    rw [cachedKeys, ← List.length_map (CachedPoint.key cfg.defaultCa)]
    exact List.toFinset_card_le _
  have hlen := writes_length h hg
  have hhand : s.task.inserted ≤ 1 := by
    unfold TaskPhase.inserted
    split <;> omega
  rw [messagesDispatched_eq h] at hlen
  omega

/-! ## The readers -/

/-- What `serve_metrics_connection` reads, in this order. -/
def scrapeParts (ι : Type) : List (State ι → Option Nat) :=
  [fun s => if s.dataLock = none then some s.cache.keys.card else none,
    fun s => some s.metrics.messagesDispatched, fun s => some s.metrics.giResponses]

/-- What was read of the numbers. -/
def ScrapePhase.reader : ScrapePhase → Machine.ReaderPhase Nat
  | .absent => .absent
  | .accepted => .reading []
  | .sized cacheSize => .reading [cacheSize]
  | .loaded cacheSize msgsDispatched => .reading [cacheSize, msgsDispatched]
  | .writing m => .reading [m.cacheSize, m.msgsDispatched, m.giResponses]
  | .ended => .ended

def ServerState.readers (s : ServerState ι) : Machine.WithReaders (State ι) ScrapeId Nat :=
  ⟨s.core, ScrapePhase.reader ∘ s.scrapes⟩

def ServerEffect.reader : ServerEffect ι → Option (Machine.ReaderEffect (Effect ι) ScrapeId Nat)
  | .core e => some (.base e)
  | .accepted c => some (.started c)
  | .responded c m _ => some (.finished c [m.cacheSize, m.msgsDispatched, m.giResponses])

theorem ServerState.setScrape_readers (s : ServerState ι) (c : ScrapeId) (phase : ScrapePhase) :
    (s.setScrape c phase).readers = s.readers.setPhase c phase.reader := by
  simp only [setScrape, readers, Machine.WithReaders.setPhase, Function.comp_update]

theorem ServerState.readers_phase {s : ServerState ι} {c : ScrapeId} {phase : ScrapePhase}
    (h : s.scrapes c = phase) : s.readers.phase c = phase.reader :=
  congrArg ScrapePhase.reader h

/-- What `serve_metrics_connection` does is reading. -/
theorem serveStep_reads {s t : ServerState ι} {e : ServerEvent ι} {o : Option (ServerEffect ι)}
    {c : ScrapeId} (h : serveStep s c e = some (t, o)) :
    Machine.ReaderStep (process ι cfg) (scrapeParts ι) s.readers t.readers (o.bind ServerEffect.reader) := by
  cases e with
  | readCacheSize =>
    simp only [serveStep] at h
    split at h <;> cases h
    rename_i hp hl
    rw [ServerState.setScrape_readers]
    exact .read (ServerState.readers_phase hp) rfl (if_pos hl)
  | loadMsgsDispatched | loadGiResponses =>
    simp only [serveStep] at h
    split at h <;> cases h
    rename_i hp
    rw [ServerState.setScrape_readers]
    exact .read (ServerState.readers_phase hp) rfl rfl
  | write =>
    simp only [serveStep] at h
    split at h <;> cases h
    rename_i hp
    rw [ServerState.setScrape_readers]
    exact .finish (ServerState.readers_phase hp) rfl
  | _ => cases h

/-- The metrics server reads the parts of the process, one after the other. -/
theorem scrape_simulation (ι : Type) (cfg : Settings) :
    Machine.Simulation (metricsServer ι cfg) (Machine.readers (process ι cfg) ScrapeId (scrapeParts ι))
      ServerState.readers ServerEffect.reader where
  init := rfl
  step {s t a o} hs := by
    cases a with
    | core event =>
      obtain ⟨⟨core, e⟩, hc, he⟩ := Option.map_eq_some_iff.mp hs
      cases he
      refine .inl (Machine.step_of_readerStep ?_)
      rw [show (e.map ServerEffect.core).bind ServerEffect.reader = e.map .base by cases e <;> rfl]
      exact .base hc
    | bind ok | acceptError =>
      simp only [metricsServer, listenStep] at hs
      split at hs <;> cases hs
      exact .inr ⟨rfl, rfl⟩
    | accept c =>
      simp only [metricsServer, listenStep] at hs
      split at hs <;> cases hs
      rename_i hp
      refine .inl (Machine.step_of_readerStep ?_)
      rw [ServerState.setScrape_readers]
      exact .start (ServerState.readers_phase hp)
    | readCacheSize c | loadMsgsDispatched c | loadGiResponses c | write c =>
      simp only [metricsServer] at hs
      exact .inl (Machine.step_of_readerStep (serveStep_reads hs))

/-! ## The text -/

/-- The samples that lines of text show, by name and value: the comments are
left out. -/
def lineSamples (text : List Char) : List (List Char × Nat) :=
  ((text.splitOn '\n').filter fun line => line ≠ [] ∧ line.head? ≠ some '#').map fun line =>
    (line.takeWhile (· ≠ ' '), Nat.ofDigitChars 10 (line.dropWhile (· ≠ ' ')).tail 0)

theorem splitOn_line {line : List Char} (h : '\n' ∉ line) (rest : List Char) :
    (line ++ '\n' :: rest).splitOn '\n' = line :: rest.splitOn '\n' := by
  refine List.splitOnP_append_cons_of_forall_mem (fun c hc => ?_) _ (by simp) _
  have : c ≠ '\n' := fun he => h (he ▸ hc)
  simpa using this

theorem lineSamples_comment {line : List Char} (h : '\n' ∉ line) (rest : List Char) :
    lineSamples ('#' :: line ++ '\n' :: rest) = lineSamples rest := by
  have h' : '\n' ∉ '#' :: line := by simpa using h
  rw [lineSamples, splitOn_line h', List.filter_cons_of_neg (by simp)]
  rfl

theorem lineSamples_sample {name : List Char} (n : Nat) (hn : '\n' ∉ name) (hb : ' ' ∉ name)
    (hname : ∃ c, name.head? = some c ∧ c ≠ '#') (rest : List Char) :
    lineSamples (name ++ ' ' :: Nat.toDigits 10 n ++ '\n' :: rest) = (name, n) :: lineSamples rest := by
  have hdigits : '\n' ∉ Nat.toDigits 10 n := fun hc =>
    absurd (Nat.isDigit_of_mem_toDigits (by decide) (by decide) hc) (by decide)
  have hline : '\n' ∉ name ++ ' ' :: Nat.toDigits 10 n := by
    simp only [List.mem_append, List.mem_cons, not_or]
    exact ⟨hn, by decide, hdigits⟩
  have hne : ∀ c ∈ name, decide (c ≠ ' ') = true := fun c hc => decide_eq_true fun he => hb (he ▸ hc)
  obtain ⟨c, hc, hsharp⟩ := hname
  rw [lineSamples, splitOn_line hline, List.filter_cons_of_pos (by simp [hc, hsharp]), List.map_cons,
    List.takeWhile_append_of_pos hne, List.dropWhile_append_of_pos hne]
  simp [Nat.ofDigitChars_ten_toDigits, lineSamples]

/-- A comment and its newline. -/
def IsComment (line : String) : Prop :=
  '\n' ∉ line.toList.tail.dropLast ∧ line.toList = '#' :: line.toList.tail.dropLast ++ ['\n']

-- `toList` of a literal is slow in the kernel, so the facts are about its characters
theorem IsComment.of_chars {line : String} {chars : List Char} (hl : line = String.ofList chars)
    (h : '\n' ∉ chars.tail.dropLast ∧ chars = '#' :: chars.tail.dropLast ++ ['\n']) : IsComment line := by
  rwa [IsComment, hl, String.toList_ofList]

/-- What stands before a value: a name and a blank. -/
def IsLabel (name label : String) : Prop :=
  '\n' ∉ name.toList ∧ ' ' ∉ name.toList ∧ name.toList.head? = some 'i' ∧
    label.toList = name.toList ++ [' ']

theorem IsLabel.of_chars {name label : String} {chars : List Char} (hn : name = String.ofList chars)
    (hl : label = String.ofList (chars ++ [' ']))
    (h : '\n' ∉ chars ∧ ' ' ∉ chars ∧ chars.head? = some 'i') : IsLabel name label := by
  rw [IsLabel, hn, hl, String.toList_ofList, String.toList_ofList]
  exact ⟨h.1, h.2.1, h.2.2, rfl⟩

/-- A metric with its comments. -/
def metricText (help type label : String) (n : Nat) : String := help ++ type ++ (label ++ n.repr ++ "\n")

theorem lineSamples_metric {help type label : String} (name : String) (n : Nat) (hh : IsComment help)
    (ht : IsComment type) (hl : IsLabel name label) (rest : String) :
    lineSamples (metricText help type label n ++ rest).toList =
      (name.toList, n) :: lineSamples rest.toList := by
  obtain ⟨hh, hhelp⟩ := hh
  obtain ⟨ht, htype⟩ := ht
  obtain ⟨hn, hb, hi, hlabel⟩ := hl
  have htext : (metricText help type label n ++ rest).toList =
      '#' :: help.toList.tail.dropLast ++ '\n' :: ('#' :: type.toList.tail.dropLast ++ '\n' ::
        (name.toList ++ ' ' :: Nat.toDigits 10 n ++ '\n' :: rest.toList)) := by
    rw [metricText]
    simp only [String.toList_append, Nat.toList_repr]
    rw [hhelp, htype, hlabel]
    simp
  rw [htext, lineSamples_comment hh, lineSamples_comment ht, lineSamples_sample n hn hb ⟨'i', hi, by decide⟩]

theorem body_eq (m : MetricsSnapshot) : m.body =
    metricText "# HELP iec104bridge_cache_size Number of data points currently cached\n"
      "# TYPE iec104bridge_cache_size gauge\n" "iec104bridge_cache_size " m.cacheSize ++
    (metricText "# HELP iec104bridge_messages_dispatched_total Total IEC-104 messages dispatched\n"
      "# TYPE iec104bridge_messages_dispatched_total counter\n"
      "iec104bridge_messages_dispatched_total " m.msgsDispatched ++
    (metricText "# HELP iec104bridge_gi_responses_total Total General Interrogation responses\n"
      "# TYPE iec104bridge_gi_responses_total counter\n"
      "iec104bridge_gi_responses_total " m.giResponses ++ "")) := by
  unfold MetricsSnapshot.body metricText
  simp only [toString, String.append_assoc, String.append_empty]

/-- What a scraper reads in a body. -/
def samples (body : String) : List (String × Nat) :=
  (lineSamples body.toList).map fun sample => (String.ofList sample.1, sample.2)

theorem samples_body (m : MetricsSnapshot) : samples m.body =
    [("iec104bridge_cache_size", m.cacheSize),
      ("iec104bridge_messages_dispatched_total", m.msgsDispatched),
      ("iec104bridge_gi_responses_total", m.giResponses)] := by
  rw [samples, body_eq,
    lineSamples_metric "iec104bridge_cache_size" _ (by apply IsComment.of_chars rfl; simp)
      (by apply IsComment.of_chars rfl; simp) (by apply IsLabel.of_chars rfl rfl; simp),
    lineSamples_metric "iec104bridge_messages_dispatched_total" _ (by apply IsComment.of_chars rfl; simp)
      (by apply IsComment.of_chars rfl; simp) (by apply IsLabel.of_chars rfl rfl; simp),
    lineSamples_metric "iec104bridge_gi_responses_total" _ (by apply IsComment.of_chars rfl; simp)
      (by apply IsComment.of_chars rfl; simp) (by apply IsLabel.of_chars rfl rfl; simp)]
  simp only [List.map_cons, String.ofList_toList]
  rfl

/-! ## Responses -/

def ServerEffect.core? : ServerEffect ι → Option (Effect ι)
  | .core e => some e
  | _ => none

/-- What the process logged. -/
def coreLog (w : List (ServerEffect ι)) : List (Effect ι) := w.filterMap ServerEffect.core?

theorem coreLog_eq (w : List (ServerEffect ι)) :
    Machine.baseLog (w.filterMap ServerEffect.reader) = coreLog w := by
  rw [Machine.baseLog, List.filterMap_filterMap]
  refine List.filterMap_congr fun e _ => ?_
  cases e <;> rfl

section

variable {v w₁ w₂ w₃ : List (ServerEffect ι)} {r : ServerState ι} {c : ScrapeId}
  {m : MetricsSnapshot} {text : String}

/-- What is written is the response to what was read. -/
theorem responded_text (h : (metricsServer ι cfg).Run v r) (he : .responded c m text ∈ v) :
    text = m.response := by
  obtain ⟨t, a, t', hs⟩ := h.step_of_mem he
  have hserve (d : ScrapeId) (hs : serveStep t d a = some (t', some (.responded c m text))) :
      text = m.response := by
    cases a with
    | write =>
      simp only [serveStep] at hs
      split at hs <;> cases hs
      rfl
    | _ =>
      simp only [serveStep] at hs
      try split at hs
      all_goals cases hs
  cases a with
  | core event =>
    obtain ⟨⟨core, e⟩, -, he⟩ := Option.map_eq_some_iff.mp hs
    cases e <;> cases he
  | bind | accept | acceptError =>
    simp only [metricsServer, listenStep] at hs
    split at hs <;> cases hs
  | readCacheSize d | loadMsgsDispatched d | loadGiResponses d | write d => exact hserve d hs

/-- A response follows an acceptance. -/
theorem accepted_of_responded (h : (metricsServer ι cfg).Run (v ++ .responded c m text :: w₃) r) :
    ∃ w₁ w₂, v = w₁ ++ .accepted c :: w₂ := by
  have hr : (Machine.readers (process ι cfg) ScrapeId (scrapeParts ι)).Run
      (v.filterMap ServerEffect.reader ++
        .finished c [m.cacheSize, m.msgsDispatched, m.giResponses] :: w₃.filterMap ServerEffect.reader)
      r.readers := by
    simpa [ServerEffect.reader] using (scrape_simulation ι cfg).run h
  obtain ⟨e, he, hc⟩ := List.mem_filterMap.mp (Machine.started_of_finished hr)
  cases e with
  | accepted => cases hc; exact List.append_of_mem he
  | _ => cases hc

/-- What the readers log of a scrape. -/
theorem reader_log (w₁ w₂ w₃ : List (ServerEffect ι)) (c : ScrapeId) (m : MetricsSnapshot) (text : String) :
    (w₁ ++ .accepted c :: (w₂ ++ .responded c m text :: w₃)).filterMap ServerEffect.reader =
      w₁.filterMap ServerEffect.reader ++ .started c :: (w₂.filterMap ServerEffect.reader ++
        .finished c [m.cacheSize, m.msgsDispatched, m.giResponses] ::
          w₃.filterMap ServerEffect.reader) := by
  simp [ServerEffect.reader]

/-- The run up to the acceptance, and the parts read in the run from there to the response. -/
theorem reads_of_responded
    (h : (metricsServer ι cfg).Run (w₁ ++ .accepted c :: (w₂ ++ .responded c m text :: w₃)) r) :
    ∃ s₀ s₁, (process ι cfg).Run (coreLog w₁) s₀ ∧ Machine.Reads (process ι cfg) s₀ (coreLog w₂)
      (scrapeParts ι) [m.cacheSize, m.msgsDispatched, m.giResponses] s₁ := by
  have hr := (scrape_simulation ι cfg).run h
  rw [reader_log] at hr
  obtain ⟨s₀, s₁, hrun, hreads, -⟩ := Machine.finished_reads hr
  rw [coreLog_eq] at hrun hreads
  exact ⟨s₀, s₁, hrun, hreads⟩

/-- The numbers of a response to a scrape that was accepted after the process
logged `before`, and answered after it also logged `during`: each is that of a
point in between, in the order in which they are read. -/
structure Scraped (cfg : Settings) (m : MetricsSnapshot) (before during : List (Effect ι)) : Prop where
  points : ∃ v₁ v₂ v₃ v₄, during = v₁ ++ v₂ ++ v₃ ++ v₄ ∧
    (∃ u, (process ι cfg).Run (before ++ v₁) u ∧ u.dataLock = none) ∧
    m.cacheSize = (cachedKeys cfg (before ++ v₁)).card ∧
    m.msgsDispatched = dispatchedCount (before ++ v₁ ++ v₂) ∧
    m.giResponses = giCount (before ++ v₁ ++ v₂ ++ v₃)
  /-- The size of the data store is read first, and stays close to the counter. -/
  cacheSize_le : cfg.giOnly = false →
    m.cacheSize ≤ m.msgsDispatched + (before ++ during).countP Effect.isAckFailed + 1

theorem scraped_of_reads {before during : List (Effect ι)} {s₀ s₁ : State ι}
    (hr : (process ι cfg).Run before s₀) (hreads : Machine.Reads (process ι cfg) s₀ during
      (scrapeParts ι) [m.cacheSize, m.msgsDispatched, m.giResponses] s₁) : Scraped cfg m before during := by
  obtain ⟨n, values, u₁, v₁, w₁, hvalues, rfl, hs₁, hn, h₁⟩ := hreads.first
  obtain ⟨rfl, rfl⟩ := List.cons_eq_cons.mp hvalues
  obtain ⟨d, values, u₂, v₂, w₂, hvalues, rfl, hs₂, hd, h₂⟩ := h₁.first
  obtain ⟨rfl, rfl⟩ := List.cons_eq_cons.mp hvalues
  obtain ⟨g, values, u₃, v₃, w₃, hvalues, rfl, hs₃, hg, h₃⟩ := h₂.first
  obtain ⟨rfl, rfl⟩ := List.cons_eq_cons.mp hvalues
  have hr₁ : (process ι cfg).Run (before ++ v₁) u₁ := hr.trans hs₁
  have hr₂ : (process ι cfg).Run (before ++ v₁ ++ v₂) u₂ := hr₁.trans hs₂
  have hr₃ : (process ι cfg).Run (before ++ v₁ ++ v₂ ++ v₃) u₃ := hr₂.trans hs₃
  obtain ⟨hl, hn⟩ := Option.ite_none_right_eq_some.mp hn
  have hsize : m.cacheSize = (cachedKeys cfg (before ++ v₁)).card := by
    rw [← keys_eq hr₁]
    exact (Option.some.inj hn).symm
  have hcount : m.msgsDispatched = dispatchedCount (before ++ v₁ ++ v₂) := by
    rw [← messagesDispatched_eq hr₂]
    exact (Option.some.inj hd).symm
  have hgi : m.giResponses = giCount (before ++ v₁ ++ v₂ ++ v₃) := by
    rw [giCount, ← giResponses_eq hr₃]
    exact (Option.some.inj hg).symm
  refine ⟨⟨v₁, v₂, v₃, w₃, by simp, ⟨u₁, hr₁, hl⟩, hsize, hcount, hgi⟩, fun hgo => ?_⟩
  have hle := cachedKeys_le hr₁ hgo
  have hmono : dispatchedCount (before ++ v₁) ≤ dispatchedCount (before ++ v₁ ++ v₂) :=
    (List.sublist_append_left (before ++ v₁) v₂).countP_le
  rw [hsize, hcount]
  simp only [List.countP_append] at hle ⊢
  omega

/-- **A scrape.** A response follows the acceptance of its connection. Its text
shows three numbers, which are the number of keys stored, of messages counted
and of interrogations counted at three points in between, one after the other. -/
theorem scrape_reads (h : (metricsServer ι cfg).Run (v ++ .responded c m text :: w₃) r) :
    text = m.response ∧
      samples m.body = [("iec104bridge_cache_size", m.cacheSize),
        ("iec104bridge_messages_dispatched_total", m.msgsDispatched),
        ("iec104bridge_gi_responses_total", m.giResponses)] ∧
      ∃ w₁ w₂, v = w₁ ++ .accepted c :: w₂ ∧ Scraped cfg m (coreLog w₁) (coreLog w₂) := by
  have he : .responded c m text ∈ v ++ .responded c m text :: w₃ :=
    List.mem_append_right v List.mem_cons_self
  refine ⟨responded_text h he, samples_body m, ?_⟩
  obtain ⟨w₁, w₂, rfl⟩ := accepted_of_responded h
  obtain ⟨s₀, s₁, hrun, hreads⟩ := reads_of_responded (by simpa using h)
  exact ⟨w₁, w₂, rfl, scraped_of_reads hrun hreads⟩

end

/-- What is observed of an effect of the metrics server. -/
def ServerEffect.observed : ServerEffect ι → Option (ScrapeId × Option MetricsSnapshot)
  | .core _ => none
  | .accepted c => some (c, none)
  | .responded c m _ => some (c, some m)

/-- A scrape while a replay holds the lock is served after it, and a second one
after the next message. -/
def scrapedTwice : List (ServerEvent Nat) :=
  [.bind true, .core (.task (.build true)), .core (.task (.receive 0 (.sample 7 true) (.sample 1))),
    .core (.task .insert), .core (.gi 1 (.request 20)), .core (.gi 1 (.confirm true)), .accept 0,
    .core (.gi 1 (.lock (.sample 2) [⟨.sample 7 true, .sample 1⟩])), .core (.gi 1 (.send true)),
    .core (.gi 1 .unlock), .readCacheSize 0, .core (.task .dispatch), .core (.gi 1 .count),
    .core (.task (.ack true)), .loadMsgsDispatched 0, .core (.task .count), .loadGiResponses 0, .write 0,
    .accept 1, .core (.task (.receive 1 (.sample 8 true) (.sample 3))), .readCacheSize 1,
    .core (.task .insert), .loadMsgsDispatched 1, .loadGiResponses 1, .write 1]

theorem scrapedTwice_run : ∃ v w₃ w₄ w₅ text text' r, (metricsServer Nat .sample).Run
    (v ++ .responded 0 ⟨1, 0, 1⟩ text ::
      (w₃ ++ .accepted 1 :: (w₄ ++ .responded 1 ⟨1, 1, 1⟩ text' :: w₅))) r := by
  obtain ⟨w, r, h, hw⟩ := Machine.exists_run_of_exec (M := metricsServer Nat .sample) scrapedTwice
    (fun w _ => w.map ServerEffect.observed)
    ([none, none, none, none, none, some (0, none), none, none, none, none, none, none] ++
      some (0, some ⟨1, 0, 1⟩) :: ([] ++ some (1, none) :: ([none, none] ++ some (1, some ⟨1, 1, 1⟩) :: [])))
    (by decide +kernel)
  obtain ⟨v, w₁, rfl, -, hw⟩ := List.map_eq_append_iff.mp hw
  obtain ⟨e, w₁, rfl, he, hw⟩ := List.map_eq_cons_iff.mp hw
  obtain ⟨w₃, w₂, rfl, -, hw⟩ := List.map_eq_append_iff.mp hw
  obtain ⟨e', w₂, rfl, he', hw⟩ := List.map_eq_cons_iff.mp hw
  obtain ⟨w₄, w₅, rfl, -, hw⟩ := List.map_eq_append_iff.mp hw
  obtain ⟨e'', w₅, rfl, he'', hw⟩ := List.map_eq_cons_iff.mp hw
  cases e <;> cases he
  cases e' <;> cases he'
  cases e'' <;> cases he''
  exact ⟨v, w₃, w₄, w₅, _, _, r, h⟩

/-- The first scrape shows a message as cached that it does not show as dispatched. -/
theorem scrape_reads_sample : ∃ v w₃ text r,
    (metricsServer Nat .sample).Run (v ++ .responded 0 ⟨1, 0, 1⟩ text :: w₃) r ∧
      text = MetricsSnapshot.response ⟨1, 0, 1⟩ ∧
      samples (MetricsSnapshot.body ⟨1, 0, 1⟩) = [("iec104bridge_cache_size", 1),
        ("iec104bridge_messages_dispatched_total", 0), ("iec104bridge_gi_responses_total", 1)] ∧
      ∃ w₁ w₂, v = w₁ ++ .accepted 0 :: w₂ ∧ Scraped .sample ⟨1, 0, 1⟩ (coreLog w₁) (coreLog w₂) := by
  obtain ⟨v, w₃, w₄, w₅, text, text', r, h⟩ := scrapedTwice_run
  exact ⟨v, _, text, r, h, scrape_reads h⟩

/-! ## Scrapes one after the other -/

section

variable {v w₃ w₄ w₅ : List (ServerEffect ι)} {r : ServerState ι} {c c' : ScrapeId}
  {m m' : MetricsSnapshot} {text text' : String}

theorem cacheSize_mono {w' : List (Effect ι)} (h : (process ι cfg).Steps s w' t) :
    s.cache.keys.card ≤ t.cache.keys.card :=
  Finset.card_le_card fun _ hk => Finmap.mem_keys.mpr (cache_mono h (Finmap.mem_keys.mp hk))

theorem metrics_mono {w' : List (Effect ι)} (h : (process ι cfg).Steps s w' t) :
    s.metrics.messagesDispatched ≤ t.metrics.messagesDispatched ∧
      s.metrics.giResponses ≤ t.metrics.giResponses := by
  refine h.induct (P := fun _ t => s.metrics.messagesDispatched ≤ t.metrics.messagesDispatched ∧
    s.metrics.giResponses ≤ t.metrics.giResponses) ⟨Nat.le_refl _, Nat.le_refl _⟩
    fun w t a u o _ ih hs => ?_
  rcases process_step hs with hs | ⟨conn, hs⟩
  · cases hs with
    | count => exact ⟨ih.1.trans (Nat.le_succ _), ih.2⟩
    | _ => exact ih
  · cases hs with
    | count => exact ⟨ih.1, ih.2.trans (Nat.le_succ _)⟩
    | _ => exact ih

theorem parts_grow : ∀ part ∈ scrapeParts ι, Machine.Grows (process ι cfg) part := by
  intro part hp s t w n n' hs hn hn'
  simp only [scrapeParts, List.mem_cons, List.not_mem_nil, or_false] at hp
  rcases hp with rfl | rfl | rfl
  · obtain ⟨-, hn⟩ := Option.ite_none_right_eq_some.mp hn
    obtain ⟨-, hn'⟩ := Option.ite_none_right_eq_some.mp hn'
    cases hn
    cases hn'
    exact cacheSize_mono hs
  · cases hn
    cases hn'
    exact (metrics_mono hs).1
  · cases hn
    cases hn'
    exact (metrics_mono hs).2

/-- **Scrapes in order.** A scrape that is accepted after another one got its
response shows no smaller number. -/
theorem scrapes_ordered (h : (metricsServer ι cfg).Run
    (v ++ .responded c m text :: (w₃ ++ .accepted c' :: (w₄ ++ .responded c' m' text' :: w₅))) r) :
    m.cacheSize ≤ m'.cacheSize ∧ m.msgsDispatched ≤ m'.msgsDispatched ∧
      m.giResponses ≤ m'.giResponses := by
  obtain ⟨w₁, w₂, rfl⟩ := accepted_of_responded h
  let values (m : MetricsSnapshot) : List Nat := [m.cacheSize, m.msgsDispatched, m.giResponses]
  let log (w : List (ServerEffect ι)) := w.filterMap ServerEffect.reader
  have hr : (Machine.readers (process ι cfg) ScrapeId (scrapeParts ι)).Run
      ((log w₁ ++ .started c :: (log w₂ ++ .finished c (values m) :: log w₃)) ++
        .started c' :: (log w₄ ++ .finished c' (values m') :: log w₅)) r.readers := by
    simpa [values, log, ServerEffect.reader] using (scrape_simulation ι cfg).run h
  simpa [values] using Machine.finished_le hr parts_grow

end

theorem scrapes_ordered_sample : ∃ v w₃ w₄ w₅ text text' r,
    (metricsServer Nat .sample).Run (v ++ .responded 0 ⟨1, 0, 1⟩ text ::
      (w₃ ++ .accepted 1 :: (w₄ ++ .responded 1 ⟨1, 1, 1⟩ text' :: w₅))) r ∧ 1 ≤ 1 ∧ 0 ≤ 1 ∧ 1 ≤ 1 := by
  obtain ⟨v, w₃, w₄, w₅, text, text', r, h⟩ := scrapedTwice_run
  exact ⟨v, w₃, w₄, w₅, text, text', r, h, scrapes_ordered h⟩

end Iec104Bridge
