import Iec104Bridge.Model.SocketPath

/-!
# Preparing the path of the socket

Directories are only added at ancestors of the path (`Grown`), and the entry at
the path is the only one that is removed, at the very end and only if it is a
socket or a file (`prepareSocketPath_safe`).
-/

namespace Iec104Bridge

open Framework Filesystem

variable {path parent : SocketPath} {s t : Host String}

/-- What `create_directory_if_missing` does: directories are added, and what it
returns says whether there was nothing at the path. -/
structure Ensured (path : SocketPath) (s t : Host String) (result : Except String Bool) : Prop where
  grown : Grown path s.files t.files
  ok (created : Bool) : result = .ok created →
    t.files.entry path ≠ none ∧ (created = true ↔ s.files.entry path = none)

theorem ensured_of_error (h : Grown path s.files t.files) (message : String) :
    Ensured path s t (.error message) := ⟨h, fun _ he => by cases he⟩

theorem ensured_of_created (h : Host.createDir path s = (.ok (), t)) : Ensured path s t (.ok true) := by
  refine ⟨Host.grown_createDir h, fun created he => ?_⟩
  cases he
  obtain ⟨name, parent, rfl, hn, ht⟩ := Host.createDir_ok h
  rw [ht, entry_add_self]
  exact ⟨by simp, by simp [hn]⟩

theorem ensured_of_existing (ht : t.files = s.files) (h : s.files.entry path ≠ none) :
    Ensured path s t (.ok false) := by
  refine ⟨by rw [ht]; exact .refl _ _, fun created he => ?_⟩
  cases he
  rw [ht]
  exact ⟨h, by simp [h]⟩

/-- The second attempt comes after the parent has been created, and there was
nothing at the path before. -/
theorem ensured_retry {name : String} {u v : Host String} (hu : u.files = s.files)
    (hn : s.files.entry (name :: parent) = none) (hp : Grown parent u.files v.files) :
    (∀ t, Host.createDir (name :: parent) v = (.ok (), t) → Ensured (name :: parent) s t (.ok true)) ∧
    ∀ err t, Host.createDir (name :: parent) v = (.error err, t) →
      err.kind ≠ .alreadyExists ∧ Grown (name :: parent) s.files t.files := by
  have hgrown : Grown (name :: parent) s.files v.files := hu ▸ hp.mono (List.suffix_cons _ _)
  have hv : v.files.entry (name :: parent) = none :=
    hp.entry_none (not_suffix_parent name parent) (hu ▸ hn)
  refine ⟨fun t h => ⟨hgrown.trans (Host.grown_createDir h), fun created he => ?_⟩, fun err t h => ?_⟩
  · cases he
    have := (ensured_of_created h).ok true rfl
    exact ⟨this.1, by simp [hn]⟩
  · obtain ⟨ht, -, he⟩ := Host.createDir_error h
    exact ⟨fun hk => he hk hv, by rw [ht]; exact hgrown⟩

theorem createDirectoryIfMissing_spec {result : Except String Bool}
    (h : createDirectoryIfMissing path s = (result, t)) : Ensured path s t result := by
  induction path generalizing s t result with
  | nil =>
    unfold createDirectoryIfMissing at h
    split at h
    · rename_i u hc
      cases h
      exact ensured_of_created hc
    · rename_i e u hc
      obtain ⟨hu, -, hexists⟩ := Host.createDir_error hc
      split at h
      · cases h
        exact ensured_of_error (by rw [hu]; exact .refl _ _) _
      · cases h
        exact ensured_of_existing hu (hexists ‹_›)
      · cases h
        exact ensured_of_error (by rw [hu]; exact .refl _ _) _
  | cons name parent ih =>
    unfold createDirectoryIfMissing at h
    split at h
    · rename_i u hc
      cases h
      exact ensured_of_created hc
    · rename_i e u hc
      obtain ⟨hu, hmissing, hexists⟩ := Host.createDir_error hc
      split at h
      · rename_i hk
        simp only at h
        split at h
        · rename_i e' v hr
          cases h
          exact ensured_of_error (hu ▸ (ih hr).grown.mono (List.suffix_cons _ _)) _
        · rename_i v hr
          obtain ⟨hok, herror⟩ := ensured_retry hu (hmissing hk) (ih hr).grown
          split at h
          · rename_i hd
            cases h
            exact hok _ hd
          · rename_i e' x hd
            obtain ⟨hk', hgrown⟩ := herror _ _ hd
            split at h
            · exact absurd ‹_› hk'
            · cases h
              exact ensured_of_error hgrown _
      · cases h
        exact ensured_of_existing hu (hexists ‹_›)
      · cases h
        exact ensured_of_error (by rw [hu]; exact .refl _ _) _

/-- The parent is a directory once it has been inspected. -/
theorem ensureSocketParentDir_spec {result : Except String Bool}
    (h : ensureSocketParentDir parent s = (result, t)) :
    Grown parent s.files t.files ∧ ∀ created, result = .ok created →
      t.files.IsDirectory parent ∧ (created = true ↔ s.files.entry parent = none) := by
  unfold ensureSocketParentDir at h
  split at h
  · rename_i message u hc
    cases h
    exact ⟨(createDirectoryIfMissing_spec hc).grown, fun _ he => by cases he⟩
  · rename_i created u hc
    obtain ⟨hgrown, hok⟩ := createDirectoryIfMissing_spec hc
    rcases Host.symlinkMetadata_cases parent u with ⟨message, hm⟩ | ⟨-, hm⟩ | ⟨e, hp, hm⟩
    · rw [hm] at h
      cases h
      exact ⟨hgrown, fun _ he => by cases he⟩
    · rw [hm] at h
      cases h
      exact ⟨hgrown, fun _ he => by cases he⟩
    · rw [hm] at h
      simp only at h
      split at h
      · cases h
        exact ⟨hgrown, fun _ he => by cases he⟩
      · rename_i hk
        cases h
        refine ⟨hgrown, fun created' he => ?_⟩
        cases he
        refine ⟨⟨e.mode, ?_⟩, (hok _ rfl).2⟩
        obtain ⟨kind, mode⟩ := e
        obtain rfl : kind = .directory := not_not.mp hk
        exact hp

/-- What becomes of the entry at the path: a failure changes nothing, and
nothing is left after a success. -/
structure Cleared (path : SocketPath) (s t : Host String) (result : Except String Unit) : Prop where
  error (message : String) : result = .error message → t.files = s.files
  ok : result = .ok () → s.files.entry path = none ∧ t.files = s.files ∨
    ∃ name parent e, path = name :: parent ∧ s.files.entry path = some e ∧
      (e.kind = .file ∨ e.kind = .socket) ∧ t.files = s.files.remove name parent

theorem cleared_of_error (h : t.files = s.files) (message : String) : Cleared path s t (.error message) :=
  ⟨fun _ _ => h, fun he => by cases he⟩

theorem cleared_of_removeFile {e : Entry} {u : Host String} (hu : u.files = s.files)
    (hp : s.files.entry path = some e) (hk : e.kind = .file ∨ e.kind = .socket) :
    (∀ err v message, Host.removeFile path u = (.error err, v) → Cleared path s v (.error message)) ∧
      ∀ v, Host.removeFile path u = (.ok (), v) → Cleared path s v (.ok ()) := by
  rcases Host.removeFile_cases path u with ⟨err, hc⟩ | ⟨name, parent, hpath, hc⟩
  · refine ⟨fun err v message hr => ?_, fun v hr => by cases hc.symm.trans hr⟩
    cases hc.symm.trans hr
    exact cleared_of_error ((Host.files_next u).trans hu) _
  · refine ⟨fun err v message hr => (by cases hc.symm.trans hr), fun v hr => ?_⟩
    cases hc.symm.trans hr
    refine ⟨fun _ he => (by cases he), fun _ => .inr ?_⟩
    exact ⟨name, parent, e, hpath, hp, hk, by rw [← hu]⟩

theorem removeExistingSocketEntry_spec {e : Entry} {u : Host String} {result : Except String Unit}
    (hu : u.files = s.files) (hp : s.files.entry path = some e)
    (h : removeExistingSocketEntry path e u = (result, t)) : Cleared path s t result := by
  unfold removeExistingSocketEntry at h
  split at h
  · cases h
    exact cleared_of_error hu _
  · rename_i hk
    obtain ⟨herror, hok⟩ := cleared_of_removeFile hu hp (.inr hk)
    split at h <;> cases h
    · exact herror _ _ _ ‹_›
    · exact hok _ ‹_›
  · rename_i hk
    obtain ⟨herror, hok⟩ := cleared_of_removeFile hu hp (.inl hk)
    split at h <;> cases h
    · exact herror _ _ _ ‹_›
    · exact hok _ ‹_›
  · cases h
    exact cleared_of_error hu _

theorem removeExistingSocketPath_spec {result : Except String Unit}
    (h : removeExistingSocketPath path s = (result, t)) : Cleared path s t result := by
  unfold removeExistingSocketPath at h
  rcases Host.symlinkMetadata_cases path s with ⟨message, hm⟩ | ⟨hn, hm⟩ | ⟨e, hp, hm⟩
  · rw [hm] at h
    cases h
    exact cleared_of_error (Host.files_next s) _
  · rw [hm] at h
    cases h
    exact ⟨fun _ he => (by cases he), fun _ => .inl ⟨hn, rfl⟩⟩
  · rw [hm] at h
    exact removeExistingSocketEntry_spec (Host.files_next s) hp h

/-! ## The preparation -/

/-- What `prepare_socket_path` does to a filesystem. -/
structure Prepared (path : SocketPath) (fs fs' : Filesystem String) (result : Except String Bool) :
    Prop where
  added (p : SocketPath) (e : Entry) : fs.entry p = none → fs'.entry p = some e →
    p <:+ path ∧ p ≠ path ∧ e.kind = .directory
  kept (p : SocketPath) (e : Entry) : fs.entry p = some e → fs'.entry p = some e ∨
    p = path ∧ (e.kind = .file ∨ e.kind = .socket) ∧ fs'.entry p = none
  error (message : String) : result = .error message →
    ∀ p e, fs.entry p = some e → fs'.entry p = some e
  ok (created : Bool) : result = .ok created → ∃ name parent, path = name :: parent ∧
    fs'.IsDirectory parent ∧ fs'.entry path = none ∧ (created = true ↔ fs.entry parent = none)

theorem prepared_of_error {name : String} {fs fs' : Filesystem String} (h : Grown parent fs fs')
    (message : String) : Prepared (name :: parent) fs fs' (.error message) where
  added p e hn hs := by
    obtain ⟨hsuffix, hk⟩ := h.new p e hn hs
    exact ⟨hsuffix.trans (List.suffix_cons _ _), fun hp => not_suffix_parent name parent (hp ▸ hsuffix), hk⟩
  kept p e hp := .inl (h.keep p e hp)
  error _ _ := h.keep
  ok _ he := by cases he

theorem prepared_of_absent {name : String} {fs fs' : Filesystem String} {created : Bool}
    (h : Grown parent fs fs') (hdir : fs'.IsDirectory parent) (hn : fs'.entry (name :: parent) = none)
    (hcreated : created = true ↔ fs.entry parent = none) :
    Prepared (name :: parent) fs fs' (.ok created) := by
  have hbase : Prepared (name :: parent) fs fs' (.error "") := prepared_of_error h _
  refine ⟨hbase.added, hbase.kept, fun _ he => (by cases he), fun created' he => ?_⟩
  cases he
  exact ⟨name, parent, rfl, hdir, hn, hcreated⟩

/-- The old entry at the path is removed last. -/
theorem prepared_of_removed {name : String} {fs fs' : Filesystem String} {created : Bool} {e : Entry}
    (h : Grown parent fs fs') (hdir : fs'.IsDirectory parent)
    (he : fs'.entry (name :: parent) = some e) (hk : e.kind = .file ∨ e.kind = .socket)
    (hcreated : created = true ↔ fs.entry parent = none) :
    Prepared (name :: parent) fs (fs'.remove name parent) (.ok created) := by
  have hbase : Prepared (name :: parent) fs fs' (.error "") := prepared_of_error h _
  have hne : parent ≠ name :: parent := (List.cons_ne_self name parent).symm
  refine ⟨fun p e' hn hs => ?_, fun p e' hp => ?_, fun _ he => (by cases he), fun created' hc => ?_⟩
  · by_cases hp : p = name :: parent
    · rw [hp, entry_remove_self] at hs
      cases hs
    · rw [entry_remove_of_ne _ hp] at hs
      exact hbase.added p e' hn hs
  · by_cases hpe : p = name :: parent
    · subst hpe
      obtain rfl : e' = e := Option.some.inj ((h.keep _ _ hp).symm.trans he)
      exact .inr ⟨rfl, hk, entry_remove_self _ _ _⟩
    · exact .inl ((entry_remove_of_ne _ hpe).trans (h.keep _ _ hp))
  · cases hc
    obtain ⟨mode, hm⟩ := hdir
    exact ⟨name, parent, rfl, ⟨mode, (entry_remove_of_ne _ hne).trans hm⟩, entry_remove_self _ _ _,
      hcreated⟩

theorem prepareSocketPath_spec {result : Except String Bool}
    (h : prepareSocketPath path s = (result, t)) : Prepared path s.files t.files result := by
  unfold prepareSocketPath at h
  cases path with
  | nil =>
    cases h
    exact ⟨fun p e hn hs => (by rw [hn] at hs; cases hs), fun p e hp => .inl hp, fun _ _ _ _ hp => hp,
      fun _ he => by cases he⟩
  | cons name parent =>
    simp only [socketParent, SocketPath.parent] at h
    split at h
    · rename_i hparent
      cases h
      exact prepared_of_error (ensureSocketParentDir_spec hparent).1 _
    · rename_i created u hparent
      obtain ⟨hgrown, hok⟩ := ensureSocketParentDir_spec hparent
      obtain ⟨hdir, hcreated⟩ := hok _ rfl
      split at h
      · rename_i hr
        cases h
        rw [(removeExistingSocketPath_spec hr).error _ rfl]
        exact prepared_of_error hgrown _
      · rename_i hr
        cases h
        rcases (removeExistingSocketPath_spec hr).ok rfl with ⟨hn, ht⟩ | ⟨_, _, e, hpath, he, hk, ht⟩
        · rw [ht]
          exact prepared_of_absent hgrown hdir hn hcreated
        · cases hpath
          rw [ht]
          exact prepared_of_removed hgrown hdir he hk hcreated

/-! ## Success -/

/-- Each ancestor of the path is a directory or missing. -/
def Clear (fs : Filesystem String) (path : SocketPath) : Prop :=
  ∀ p, p <:+ path → fs.entry p = none ∨ fs.IsDirectory p

theorem createDirectoryIfMissing_existing (h : s.Allowed) (hdir : s.files.IsDirectory path) :
    createDirectoryIfMissing path s = (.ok false, s.next) := by
  obtain ⟨mode, hm⟩ := hdir
  unfold createDirectoryIfMissing
  rw [Host.createDir_existing h hm]
  rfl

theorem createDirectoryIfMissing_allowed (h : s.Allowed) (hc : Clear s.files path) :
    ∃ created t, createDirectoryIfMissing path s = (.ok created, t) ∧ t.Allowed ∧
      t.files.IsDirectory path := by
  induction path generalizing s with
  | nil => exact ⟨false, s.next, createDirectoryIfMissing_existing h s.files.root, h.next, s.files.root⟩
  | cons name parent ih =>
    rcases hc _ (List.suffix_refl _) with hn | hdir
    · rcases hc parent (List.suffix_cons _ _) with hp | hp
      · -- the parent is created first
        obtain ⟨created, u, hr, hu, hdir⟩ :=
          ih (s := s.next) h.next fun p hs => hc p (hs.trans (List.suffix_cons _ _))
        have hn' : u.files.entry (name :: parent) = none :=
          (createDirectoryIfMissing_spec hr).grown.entry_none (not_suffix_parent name parent) hn
        refine ⟨true, { u.next with
          files := u.files.add name parent ⟨.directory, 0o777 &&& ~~~u.umask⟩ }, ?_, hu.next, _,
          entry_add_self _ _ _ _⟩
        unfold createDirectoryIfMissing
        rw [Host.createDir_missing h hn hp]
        simp only [IoError.notFound, hr, Host.createDir_allowed hu hn' hdir]
      · refine ⟨true, { s.next with
          files := s.files.add name parent ⟨.directory, 0o777 &&& ~~~s.umask⟩ }, ?_, h.next, _,
          entry_add_self _ _ _ _⟩
        unfold createDirectoryIfMissing
        rw [Host.createDir_allowed h hn hp]
    · exact ⟨false, s.next, createDirectoryIfMissing_existing h hdir, h.next, hdir⟩

theorem ensureSocketParentDir_allowed (h : s.Allowed) (hc : Clear s.files parent) :
    ∃ created t, ensureSocketParentDir parent s = (.ok created, t) ∧ t.Allowed := by
  obtain ⟨created, u, hr, hu, mode, hm⟩ := createDirectoryIfMissing_allowed h hc
  refine ⟨created, u.next, ?_, hu.next⟩
  simp only [ensureSocketParentDir, hr, Host.symlinkMetadata_allowed hu, hm]
  rfl

theorem removeExistingSocketPath_allowed (h : s.Allowed)
    (hp : ∀ e, s.files.entry path = some e → e.kind = .file ∨ e.kind = .socket) :
    (removeExistingSocketPath path s).1 = .ok () := by
  unfold removeExistingSocketPath
  rw [Host.symlinkMetadata_allowed h]
  cases he : s.files.entry path with
  | none => rfl
  | some e =>
    have hk := hp e he
    cases path with
    | nil =>
      -- the root is a directory
      obtain ⟨mode, hm⟩ := s.files.root
      cases he.symm.trans hm
      rcases hk with hk | hk <;> cases hk
    | cons name parent =>
      have hne : e.kind ≠ .directory := fun hd => by
        rw [hd] at hk
        rcases hk with hk | hk <;> cases hk
      have hr := Host.removeFile_allowed (s := s.next) h.next he hne
      rcases hk with hk | hk <;> simp only [removeExistingSocketEntry, hk, hr]

/-- **Success.** -/
theorem prepareSocketPath_allowed (h : s.Allowed)
    (hc : ∀ p, p <:+ path → p ≠ path → s.files.entry p = none ∨ s.files.IsDirectory p)
    (hp : ∀ e, s.files.entry path = some e → e.kind = .file ∨ e.kind = .socket) :
    ∃ created, (prepareSocketPath path s).1 = .ok created := by
  cases path with
  | nil =>
    obtain ⟨mode, hm⟩ := s.files.root
    rcases hp _ hm with hk | hk <;> cases hk
  | cons name parent =>
    have hclear : Clear s.files parent := fun p hs =>
      hc p (hs.trans (List.suffix_cons _ _)) fun he => not_suffix_parent name parent (he ▸ hs)
    obtain ⟨created, u, hr, hu⟩ := ensureSocketParentDir_allowed h hclear
    have hgrown := (ensureSocketParentDir_spec hr).1
    have hentry : ∀ e, u.files.entry (name :: parent) = some e → e.kind = .file ∨ e.kind = .socket := by
      intro e he
      refine hp e ?_
      cases hs : s.files.entry (name :: parent) with
      | none => exact absurd (hgrown.entry_none (not_suffix_parent name parent) hs) (by rw [he]; simp)
      | some e' => exact (hgrown.keep _ _ hs).symm.trans he
    have hremove := removeExistingSocketPath_allowed hu hentry
    rcases hx : removeExistingSocketPath (name :: parent) u with ⟨r, v⟩
    rw [hx] at hremove
    obtain rfl : r = .ok () := hremove
    refine ⟨created, ?_⟩
    simp only [prepareSocketPath, socketParent, SocketPath.parent, hr, hx]

/-! ## Modes -/

theorem setPermissions_entry {result : Except String Unit} {mode : UInt32}
    (h : setPermissions path mode s = (result, t)) {p : SocketPath} (hp : p ≠ path) :
    t.files.entry p = s.files.entry p := by
  unfold setPermissions at h
  split at h
  · rename_i hr
    cases h
    exact Host.setPermissions_entry hr hp
  · rename_i hr
    cases h
    exact Host.setPermissions_entry hr hp

/-- The mode of the parent is set only if it was created. -/
theorem setSocketPermissions_entry {created : Bool} {result : Except String Unit}
    (h : setSocketPermissions path created s = (result, t)) {p : SocketPath} (hp : p ≠ path)
    (hparent : created = true → path.parent ≠ some p) : t.files.entry p = s.files.entry p := by
  unfold setSocketPermissions at h
  split at h
  · cases h
    rfl
  · rename_i parent hpath
    split at h
    · rename_i hc
      have hne : p ≠ parent := fun he => hparent hc (he ▸ hpath)
      split at h
      · rename_i hr
        cases h
        exact setPermissions_entry hr hne
      · rename_i hr
        rw [setPermissions_entry h hp, setPermissions_entry hr hne]
    · exact setPermissions_entry h hp

/-- A directory that is there before the bind keeps its entry, and its mode. -/
theorem bindSocketSource_directory {result : Except String Unit}
    (h : bindSocketSource path s = (result, t)) {p : SocketPath} {e : Entry}
    (hp : s.files.entry p = some e) (hk : e.kind = .directory) : t.files.entry p = some e := by
  unfold bindSocketSource at h
  split at h
  · rename_i hr
    cases h
    exact (prepareSocketPath_spec hr).error _ rfl p e hp
  · rename_i created u hr
    have hprepared := prepareSocketPath_spec hr
    obtain ⟨name, parent, hpath, -, hgone, hcreated⟩ := hprepared.ok _ rfl
    have hu : u.files.entry p = some e := by
      rcases hprepared.kept p e hp with hs | ⟨-, hf | hf, -⟩
      · exact hs
      · cases hk.symm.trans hf
      · cases hk.symm.trans hf
    have hne : p ≠ path := by
      rintro rfl
      cases hu.symm.trans hgone
    split at h
    · rename_i hb
      cases h
      rw [Host.bindSocket_entry hb hne, hu]
    · rename_i hb
      rw [setSocketPermissions_entry h hne, Host.bindSocket_entry hb hne, hu]
      rintro hc
      rw [hpath]
      rintro hparent
      -- the parent was missing
      cases Option.some.inj hparent
      cases hp.symm.trans (hcreated.mp hc)

/-- **Preparing the socket path.** For every path and every host,
`prepare_socket_path` adds only directories at missing ancestors, removes at
most the file or socket at the path, and nothing if it fails; what it returns
says whether the parent was missing. It succeeds if no call is denied, no
ancestor is anything but a directory, and the path has a file, a socket or
nothing. The bind leaves alone each directory that was there, with its mode. -/
theorem prepareSocketPath_safe (path : SocketPath) (s : Host String) :
    Prepared path s.files (prepareSocketPath path s).2.files (prepareSocketPath path s).1 ∧
    (s.Allowed →
      (∀ p, p <:+ path → p ≠ path → s.files.entry p = none ∨ s.files.IsDirectory p) →
      (∀ e, s.files.entry path = some e → e.kind = .file ∨ e.kind = .socket) →
      ∃ created, (prepareSocketPath path s).1 = .ok created) ∧
    ∀ p e, s.files.entry p = some e → e.kind = .directory →
      (bindSocketSource path s).2.files.entry p = some e :=
  ⟨prepareSocketPath_spec rfl, fun h hc hp => prepareSocketPath_allowed h hc hp,
    fun _ _ hp hk => bindSocketSource_directory rfl hp hk⟩

/-- A host with the directory `/run`, and a socket at a path. -/
def sampleHost (path : SocketPath) : Host String where
  files :=
    { entry := fun p =>
        if p = [] ∨ p = ["run"] then some ⟨.directory, 0o755⟩
        else if p = path then some ⟨.socket, 0o660⟩
        else none
      root := ⟨0o755, rfl⟩ }
  target _ := .missing
  umask := 0o022
  denials := []

/-- A stale socket in `/run`, and the path of a socket in a directory that is missing. -/
theorem prepareSocketPath_safe_sample :
    (∃ created, (prepareSocketPath ["input.sock", "run"] (sampleHost ["input.sock", "run"])).1 =
      .ok created) ∧
    ∃ created, (prepareSocketPath ["input.sock", "bridge", "run"] (sampleHost ["other.sock", "run"])).1 =
      .ok created := by
  have hancestor : ∀ path p : SocketPath, p ≠ path →
      (sampleHost path).files.entry p = none ∨ (sampleHost path).files.IsDirectory p := by
    intro path p hp
    by_cases hd : p = [] ∨ p = ["run"]
    · exact .inr ⟨0o755, if_pos hd⟩
    · exact .inl ((if_neg hd).trans (if_neg hp))
  constructor
  · refine (prepareSocketPath_safe _ _).2.1 (fun _ hd => by cases hd) (fun p _ hp => hancestor _ p hp) ?_
    intro e he
    cases he
    exact .inr rfl
  · refine (prepareSocketPath_safe _ _).2.1 (fun _ hd => by cases hd) (fun p hs _ => ?_) ?_
    · refine hancestor _ p fun he => ?_
      subst he
      revert hs
      decide
    · intro e he
      cases he

end Iec104Bridge
