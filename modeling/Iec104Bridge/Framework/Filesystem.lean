import Mathlib.Data.List.Infix
import Mathlib.Logic.Function.Basic
import Mathlib.Tactic.Common

/-!
# A filesystem and its system calls

A `Filesystem` maps absolute paths to entries, and its root is a directory. A
path is the list of its names, the last one first, so that the parent of
`name :: parent` is `parent` and the ancestors of a path are its suffixes. A
symlink at a path is not followed, but it may stand for the parent of another
path: `target` says what it leads to. Any system call may be denied, with an
error of kind `other`, and then does nothing.

`Grown path` relates the filesystems before and after calls that create
directories: no entry changes, and the new ones are directories at ancestors of
`path`.
-/

namespace Framework

inductive EntryKind
  | directory
  | file
  | socket
  | symlink
  | other
  deriving DecidableEq

structure Entry where
  kind : EntryKind
  mode : UInt32
  deriving DecidableEq

inductive IoErrorKind
  | notFound
  | alreadyExists
  | other
  deriving DecidableEq

structure IoError where
  kind : IoErrorKind
  message : String

def IoError.notFound : IoError := ⟨.notFound, "No such file or directory (os error 2)"⟩
def IoError.fileExists : IoError := ⟨.alreadyExists, "File exists (os error 17)"⟩
def IoError.notADirectory : IoError := ⟨.other, "Not a directory (os error 20)"⟩
def IoError.isADirectory : IoError := ⟨.other, "Is a directory (os error 21)"⟩
def IoError.addressInUse : IoError := ⟨.other, "Address already in use (os error 98)"⟩

/-- What a path leads to as the parent of another. -/
inductive LinkTarget
  | directory
  | missing
  | other
  deriving DecidableEq

structure Filesystem (κ : Type*) where
  entry : List κ → Option Entry
  root : ∃ mode, entry [] = some ⟨.directory, mode⟩

variable {κ α : Type*}

namespace Filesystem

/-- There is a directory at the path. -/
def IsDirectory (fs : Filesystem κ) (path : List κ) : Prop :=
  ∃ mode, fs.entry path = some ⟨.directory, mode⟩

/-- What a path leads to as a parent. -/
def resolve (fs : Filesystem κ) (target : List κ → LinkTarget) (path : List κ) : LinkTarget :=
  match fs.entry path with
  | none => .missing
  | some e =>
    match e.kind with
    | .directory => .directory
    | .symlink => target path
    | _ => .other

/-- A path is no ancestor of its parent. -/
theorem not_suffix_parent (name : κ) (parent : List κ) : ¬ name :: parent <:+ parent := fun h => by
  have := h.length_le
  rw [List.length_cons] at this
  omega

/-- `fs'` has the entries of `fs`, and new directories at ancestors of `path`. -/
structure Grown (path : List κ) (fs fs' : Filesystem κ) : Prop where
  keep (p : List κ) (e : Entry) : fs.entry p = some e → fs'.entry p = some e
  new (p : List κ) (e : Entry) : fs.entry p = none → fs'.entry p = some e →
    p <:+ path ∧ e.kind = .directory

variable {fs fs' fs'' : Filesystem κ} {path p q : List κ}

theorem Grown.refl (path : List κ) (fs : Filesystem κ) : Grown path fs fs :=
  ⟨fun _ _ h => h, fun p e hn hs => by rw [hn] at hs; cases hs⟩

theorem Grown.trans (h : Grown path fs fs') (h' : Grown path fs' fs'') : Grown path fs fs'' := by
  refine ⟨fun p e hp => h'.keep p e (h.keep p e hp), fun p e hn hs => ?_⟩
  cases hp : fs'.entry p with
  | none => exact h'.new p e hp hs
  | some e' =>
    obtain rfl : e' = e := Option.some.inj ((h'.keep p e' hp).symm.trans hs)
    exact h.new p e' hn hp

theorem Grown.mono (hq : q <:+ path) (h : Grown q fs fs') : Grown path fs fs' :=
  ⟨h.keep, fun p e hn hs => ⟨(h.new p e hn hs).1.trans hq, (h.new p e hn hs).2⟩⟩

/-- What is not an ancestor of the path stays missing. -/
theorem Grown.entry_none (h : Grown path fs fs') (hp : ¬ p <:+ path) (hn : fs.entry p = none) :
    fs'.entry p = none := by
  rw [Option.eq_none_iff_forall_not_mem]
  exact fun e he => hp (h.new p e hn he).1

end Filesystem

/-- A filesystem, and what decides the results of the system calls. -/
structure Host (κ : Type*) where
  files : Filesystem κ
  target : List κ → LinkTarget
  umask : UInt32
  /-- The next system calls that are denied, with the message. -/
  denials : List (Option String)

namespace Host

/-- The system call after this one. -/
def next (s : Host κ) : Host κ := { s with denials := s.denials.tail }

theorem files_next (s : Host κ) : s.next.files = s.files := rfl

/-- A system call, on the filesystem. -/
def call (s : Host κ) (f : Filesystem κ → Except IoError (α × Filesystem κ)) :
    Except IoError α × Host κ :=
  match s.denials.head?.join with
  | some message => (.error ⟨.other, message⟩, s.next)
  | none =>
    match f s.files with
    | .error e => (.error e, s.next)
    | .ok (a, files) => (.ok a, { s.next with files })

/-- `std::fs::symlink_metadata`. -/
def symlinkMetadata (path : List κ) (s : Host κ) : Except IoError Entry × Host κ :=
  s.call fun fs =>
    match fs.entry path with
    | none => .error .notFound
    | some e => .ok (e, fs)

/-- No system call is denied. -/
def Allowed (s : Host κ) : Prop := ∀ d ∈ s.denials, d = none

variable {s t : Host κ} {path : List κ} {e : Entry}

theorem call_cases (s : Host κ) (f : Filesystem κ → Except IoError (α × Filesystem κ)) :
    (∃ message, s.call f = (.error ⟨.other, message⟩, s.next)) ∨
      (∃ err, f s.files = .error err ∧ s.call f = (.error err, s.next)) ∨
      ∃ a files, f s.files = .ok (a, files) ∧ s.call f = (.ok a, { s.next with files }) := by
  unfold Host.call
  split
  · exact .inl ⟨_, rfl⟩
  · split
    · exact .inr (.inl ⟨_, ‹_›, rfl⟩)
    · exact .inr (.inr ⟨_, _, ‹_›, rfl⟩)

theorem Allowed.next (h : s.Allowed) : s.next.Allowed := fun d hd => h d (List.mem_of_mem_tail hd)

theorem Allowed.call (h : s.Allowed) (f : Filesystem κ → Except IoError (α × Filesystem κ)) :
    s.call f =
      match f s.files with
      | .error err => (.error err, s.next)
      | .ok (a, files) => (.ok a, { s.next with files }) := by
  have hd : s.denials.head?.join = none := by
    cases hs : s.denials with
    | nil => rfl
    | cons d rest => exact h d (by rw [hs]; exact List.mem_cons_self)
  unfold Host.call
  rw [hd]

theorem symlinkMetadata_cases (path : List κ) (s : Host κ) :
    (∃ message, symlinkMetadata path s = (.error ⟨.other, message⟩, s.next)) ∨
      (s.files.entry path = none ∧ symlinkMetadata path s = (.error .notFound, s.next)) ∨
      ∃ e, s.files.entry path = some e ∧ symlinkMetadata path s = (.ok e, s.next) := by
  rcases s.call_cases fun fs =>
    match fs.entry path with
    | none => .error .notFound
    | some e => .ok (e, fs) with
    ⟨message, hc⟩ | ⟨_, hf, hc⟩ | ⟨e, files, hf, hc⟩
  · exact .inl ⟨message, hc⟩
  · split at hf <;> cases hf
    exact .inr (.inl ⟨‹_›, hc⟩)
  · split at hf <;> cases hf
    exact .inr (.inr ⟨_, ‹_›, hc⟩)

theorem symlinkMetadata_allowed (h : s.Allowed) :
    symlinkMetadata path s =
      match s.files.entry path with
      | none => (.error .notFound, s.next)
      | some e => (.ok e, s.next) := by
  rw [symlinkMetadata, h.call]
  cases s.files.entry path <;> rfl

end Host

/-! ## Calls that change the filesystem -/

variable [DecidableEq κ]

namespace Filesystem

def add (fs : Filesystem κ) (name : κ) (parent : List κ) (e : Entry) : Filesystem κ where
  entry := Function.update fs.entry (name :: parent) (some e)
  root := by
    rw [Function.update_of_ne (List.cons_ne_nil _ _).symm]
    exact fs.root

def remove (fs : Filesystem κ) (name : κ) (parent : List κ) : Filesystem κ where
  entry := Function.update fs.entry (name :: parent) none
  root := by
    rw [Function.update_of_ne (List.cons_ne_nil _ _).symm]
    exact fs.root

def setMode (fs : Filesystem κ) (path : List κ) (mode : UInt32) : Filesystem κ where
  entry := Function.update fs.entry path ((fs.entry path).map fun e => { e with mode })
  root := by
    obtain ⟨m, hm⟩ := fs.root
    by_cases h : path = []
    · subst h
      exact ⟨mode, by rw [Function.update_self, hm]; rfl⟩
    · exact ⟨m, by rw [Function.update_of_ne (Ne.symm h), hm]⟩

/-- Creates an entry, where there is none, in a directory. -/
def create (fs : Filesystem κ) (target : List κ → LinkTarget) (e : Entry) (existing : IoError) :
    List κ → Except IoError (Unit × Filesystem κ)
  | [] => .error existing
  | name :: parent =>
    match fs.entry (name :: parent) with
    | some _ => .error existing
    | none =>
      match fs.resolve target parent with
      | .directory => .ok ((), fs.add name parent e)
      | .missing => .error .notFound
      | .other => .error .notADirectory

/-- Removes an entry that is not a directory. -/
def unlink (fs : Filesystem κ) : List κ → Except IoError (Unit × Filesystem κ)
  | [] => .error .isADirectory
  | name :: parent =>
    match fs.entry (name :: parent) with
    | none => .error .notFound
    | some e => if e.kind = .directory then .error .isADirectory else .ok ((), fs.remove name parent)

/-- Sets the mode of an entry. A symlink is followed, and what it leads to is not modelled. -/
def chmod (fs : Filesystem κ) (path : List κ) (mode : UInt32) : Except IoError (Unit × Filesystem κ) :=
  match fs.entry path with
  | none => .error .notFound
  | some e => if e.kind = .symlink then .ok ((), fs) else .ok ((), fs.setMode path mode)

variable {fs : Filesystem κ} {path p : List κ}

theorem entry_add_self (fs : Filesystem κ) (name : κ) (parent : List κ) (e : Entry) :
    (fs.add name parent e).entry (name :: parent) = some e := Function.update_self ..

theorem entry_add_of_ne (fs : Filesystem κ) {name : κ} {parent : List κ} (h : p ≠ name :: parent)
    (e : Entry) : (fs.add name parent e).entry p = fs.entry p := Function.update_of_ne h ..

theorem entry_remove_self (fs : Filesystem κ) (name : κ) (parent : List κ) :
    (fs.remove name parent).entry (name :: parent) = none := Function.update_self ..

theorem entry_remove_of_ne (fs : Filesystem κ) {name : κ} {parent : List κ} (h : p ≠ name :: parent) :
    (fs.remove name parent).entry p = fs.entry p := Function.update_of_ne h ..

theorem entry_setMode_of_ne (fs : Filesystem κ) (h : p ≠ path) (mode : UInt32) :
    (fs.setMode path mode).entry p = fs.entry p := Function.update_of_ne h ..

theorem grown_add (name : κ) (parent : List κ) (mode : UInt32) (hn : fs.entry (name :: parent) = none) :
    Grown (name :: parent) fs (fs.add name parent ⟨.directory, mode⟩) := by
  refine ⟨fun p e hp => ?_, fun p e hp hs => ?_⟩
  · rw [entry_add_of_ne]
    · exact hp
    · rintro rfl
      rw [hn] at hp
      cases hp
  · by_cases h : p = name :: parent
    · subst h
      rw [entry_add_self] at hs
      cases hs
      exact ⟨List.suffix_refl _, rfl⟩
    · rw [entry_add_of_ne _ h, hp] at hs
      cases hs

end Filesystem

namespace Host

/-- `std::fs::create_dir`. -/
def createDir (path : List κ) (s : Host κ) : Except IoError Unit × Host κ :=
  s.call fun fs => fs.create s.target ⟨.directory, 0o777 &&& ~~~s.umask⟩ .fileExists path

/-- `std::fs::remove_file`. -/
def removeFile (path : List κ) (s : Host κ) : Except IoError Unit × Host κ :=
  s.call fun fs => fs.unlink path

/-- `std::fs::set_permissions`. -/
def setPermissions (path : List κ) (mode : UInt32) (s : Host κ) : Except IoError Unit × Host κ :=
  s.call fun fs => fs.chmod path mode

/-- `UnixListener::bind`. -/
def bindSocket (path : List κ) (s : Host κ) : Except IoError Unit × Host κ :=
  s.call fun fs => fs.create s.target ⟨.socket, 0o777 &&& ~~~s.umask⟩ .addressInUse path

variable {s t : Host κ} {path : List κ} {e : Entry}

theorem createDir_ok (h : createDir path s = (.ok (), t)) :
    ∃ name parent, path = name :: parent ∧ s.files.entry path = none ∧
      t.files = s.files.add name parent ⟨.directory, 0o777 &&& ~~~s.umask⟩ := by
  rcases s.call_cases fun fs =>
    fs.create s.target ⟨.directory, 0o777 &&& ~~~s.umask⟩ .fileExists path with
    ⟨_, hc⟩ | ⟨_, -, hc⟩ | ⟨a, files, hf, hc⟩
  · cases hc.symm.trans h
  · cases hc.symm.trans h
  · cases hc.symm.trans h
    cases path with
    | nil => cases hf
    | cons name parent =>
      simp only [Filesystem.create] at hf
      split at hf <;> [cases hf; skip]
      split at hf <;> cases hf
      exact ⟨name, parent, rfl, ‹_›, rfl⟩

theorem createDir_error {err : IoError} (h : createDir path s = (.error err, t)) :
    t.files = s.files ∧ (err.kind = .notFound → s.files.entry path = none) ∧
      (err.kind = .alreadyExists → s.files.entry path ≠ none) := by
  rcases s.call_cases fun fs =>
    fs.create s.target ⟨.directory, 0o777 &&& ~~~s.umask⟩ .fileExists path with
    ⟨_, hc⟩ | ⟨_, hf, hc⟩ | ⟨a, files, -, hc⟩
  · cases hc.symm.trans h
    exact ⟨rfl, by simp, by simp⟩
  · cases hc.symm.trans h
    cases path with
    | nil =>
      cases hf
      obtain ⟨mode, hm⟩ := s.files.root
      exact ⟨rfl, by simp [IoError.fileExists], by simp [hm]⟩
    | cons name parent =>
      simp only [Filesystem.create] at hf
      split at hf
      · rename_i hp
        cases hf
        exact ⟨rfl, by simp [IoError.fileExists], by simp [hp]⟩
      · rename_i hp
        split at hf <;> cases hf
        · exact ⟨rfl, fun _ => hp, by simp [IoError.notFound]⟩
        · exact ⟨rfl, fun _ => hp, by simp [IoError.notADirectory]⟩
  · cases hc.symm.trans h

theorem grown_createDir {result : Except IoError Unit} (h : createDir path s = (result, t)) :
    Filesystem.Grown path s.files t.files := by
  cases result with
  | error err =>
    rw [(createDir_error h).1]
    exact .refl _ _
  | ok _ =>
    obtain ⟨name, parent, rfl, hn, ht⟩ := createDir_ok h
    rw [ht]
    exact Filesystem.grown_add name parent _ hn

theorem removeFile_cases (path : List κ) (s : Host κ) :
    (∃ err, removeFile path s = (.error err, s.next)) ∨
      ∃ name parent, path = name :: parent ∧
        removeFile path s = (.ok (), { s.next with files := s.files.remove name parent }) := by
  rcases s.call_cases fun fs => fs.unlink path with ⟨_, hc⟩ | ⟨_, -, hc⟩ | ⟨a, files, hf, hc⟩
  · exact .inl ⟨_, hc⟩
  · exact .inl ⟨_, hc⟩
  · cases path with
    | nil => cases hf
    | cons name parent =>
      simp only [Filesystem.unlink] at hf
      split at hf <;> [cases hf; skip]
      split at hf <;> cases hf
      exact .inr ⟨name, parent, rfl, hc⟩

/-- A bound socket is the only entry that changes. -/
theorem bindSocket_entry {result : Except IoError Unit} {p : List κ}
    (h : bindSocket path s = (result, t)) (hp : p ≠ path) : t.files.entry p = s.files.entry p := by
  rcases s.call_cases fun fs =>
    fs.create s.target ⟨.socket, 0o777 &&& ~~~s.umask⟩ .addressInUse path with
    ⟨_, hc⟩ | ⟨_, -, hc⟩ | ⟨a, files, hf, hc⟩
  · cases hc.symm.trans h
    rfl
  · cases hc.symm.trans h
    rfl
  · cases hc.symm.trans h
    cases path with
    | nil => cases hf
    | cons name parent =>
      simp only [Filesystem.create] at hf
      split at hf <;> [cases hf; skip]
      split at hf <;> cases hf
      exact Filesystem.entry_add_of_ne _ hp _

theorem setPermissions_entry {result : Except IoError Unit} {p : List κ} {mode : UInt32}
    (h : setPermissions path mode s = (result, t)) (hp : p ≠ path) :
    t.files.entry p = s.files.entry p := by
  rcases s.call_cases fun fs => fs.chmod path mode with
    ⟨_, hc⟩ | ⟨_, -, hc⟩ | ⟨a, files, hf, hc⟩
  · cases hc.symm.trans h
    rfl
  · cases hc.symm.trans h
    rfl
  · cases hc.symm.trans h
    simp only [Filesystem.chmod] at hf
    split at hf <;> [cases hf; skip]
    split at hf <;> cases hf
    · rfl
    · exact Filesystem.entry_setMode_of_ne _ hp _

/-! ## Calls that are not denied -/

theorem createDir_existing (h : s.Allowed) (hp : s.files.entry path = some e) :
    createDir path s = (.error .fileExists, s.next) := by
  rw [createDir, h.call]
  cases path with
  | nil => rfl
  | cons name parent => simp only [Filesystem.create, hp]

theorem createDir_missing {name : κ} {parent : List κ} (h : s.Allowed)
    (hp : s.files.entry (name :: parent) = none) (hq : s.files.entry parent = none) :
    createDir (name :: parent) s = (.error .notFound, s.next) := by
  rw [createDir, h.call]
  simp only [Filesystem.create, hp, Filesystem.resolve, hq]

theorem createDir_allowed {name : κ} {parent : List κ} (h : s.Allowed)
    (hp : s.files.entry (name :: parent) = none) (hq : s.files.IsDirectory parent) :
    createDir (name :: parent) s = (.ok (),
      { s.next with files := s.files.add name parent ⟨.directory, 0o777 &&& ~~~s.umask⟩ }) := by
  obtain ⟨mode, hm⟩ := hq
  rw [createDir, h.call]
  simp only [Filesystem.create, hp, Filesystem.resolve, hm]

theorem removeFile_allowed {name : κ} {parent : List κ} (h : s.Allowed)
    (hp : s.files.entry (name :: parent) = some e) (hk : e.kind ≠ .directory) :
    removeFile (name :: parent) s = (.ok (), { s.next with files := s.files.remove name parent }) := by
  rw [removeFile, h.call]
  simp only [Filesystem.unlink, hp, if_neg hk]

end Host

end Framework
