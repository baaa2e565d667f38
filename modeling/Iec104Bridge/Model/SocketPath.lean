import Iec104Bridge.Framework.Filesystem

/-!
# The path of the Unix socket (`source.rs`)

`UnixSocketSource::bind` prepares the path, binds the listener and sets
permissions. A path is absolute and given by its names, the last one first.
-/

namespace Iec104Bridge

open Framework

/-- An absolute path. -/
abbrev SocketPath := List String

/-- `path.parent()`. -/
def SocketPath.parent : SocketPath → Option SocketPath
  | [] => none
  | _ :: parent => some parent

/-- `path.display()`. -/
def SocketPath.display : SocketPath → String
  | [] => "/"
  | [name] => "/" ++ name
  | name :: parent => SocketPath.display parent ++ "/" ++ name

example : SocketPath.display ["input.sock", "iec104bridge", "run"] = "/run/iec104bridge/input.sock" := by
  decide +kernel

def noParent (path : SocketPath) : String :=
  "Unix socket path '" ++ path.display ++ "' must have a parent directory"

/-- What an operation returns, and the host afterwards. -/
abbrev HostResult (α : Type) := Except String α × Host String

def createFailed (path : SocketPath) (e : IoError) : String :=
  "Failed to create Unix socket directory '" ++ path.display ++ "': " ++ e.message

def createDirectoryIfMissing (path : SocketPath) (s : Host String) : HostResult Bool :=
  match Host.createDir path s with
  | (.ok (), s) => (.ok true, s)
  | (.error e, s) =>
    match e.kind with
    | .notFound =>
      match path with
      | [] => (.error (noParent []), s)
      | name :: parent =>
        match createDirectoryIfMissing parent s with
        | (.error e, s) => (.error e, s)
        | (.ok _, s) =>
          match Host.createDir (name :: parent) s with
          | (.ok (), s) => (.ok true, s)
          | (.error e, s) =>
            match e.kind with
            | .alreadyExists => (.ok false, s)
            | _ => (.error (createFailed (name :: parent) e), s)
    | .alreadyExists => (.ok false, s)
    | .other => (.error (createFailed path e), s)

def ensureSocketParentDir (parent : SocketPath) (s : Host String) : HostResult Bool :=
  match createDirectoryIfMissing parent s with
  | (.error e, s) => (.error e, s)
  | (.ok createdParentDir, s) =>
    match Host.symlinkMetadata parent s with
    | (.error e, s) =>
      (.error ("Failed to inspect Unix socket directory '" ++ parent.display ++ "': " ++ e.message), s)
    | (.ok metadata, s) =>
      if metadata.kind ≠ .directory then
        (.error ("Unix socket parent '" ++ parent.display ++ "' is not a directory"), s)
      else (.ok createdParentDir, s)

def removeExistingSocketEntry (path : SocketPath) (existing : Entry) (s : Host String) :
    HostResult Unit :=
  match existing.kind with
  | .symlink =>
    (.error ("Refusing to replace symlink at Unix socket path '" ++ path.display ++ "'"), s)
  | .socket | .file =>
    match Host.removeFile path s with
    | (.error e, s) =>
      (.error ("Failed to remove stale Unix socket '" ++ path.display ++ "': " ++ e.message), s)
    | (.ok (), s) => (.ok (), s)
  | _ =>
    (.error ("Unix socket path '" ++ path.display ++ "' already exists and is not removable"), s)

def removeExistingSocketPath (path : SocketPath) (s : Host String) : HostResult Unit :=
  match Host.symlinkMetadata path s with
  | (.ok existing, s) => removeExistingSocketEntry path existing s
  | (.error e, s) =>
    match e.kind with
    | .notFound => (.ok (), s)
    | _ => (.error ("Failed to inspect Unix socket path '" ++ path.display ++ "': " ++ e.message), s)

def socketParent (path : SocketPath) : Except String SocketPath :=
  match path.parent with
  | some parent => .ok parent
  | none => .error (noParent path)

/-- Whether the parent directory was created. -/
def prepareSocketPath (path : SocketPath) (s : Host String) : HostResult Bool :=
  match socketParent path with
  | .error e => (.error e, s)
  | .ok parent =>
    match ensureSocketParentDir parent s with
    | (.error e, s) => (.error e, s)
    | (.ok createdParentDir, s) =>
      match removeExistingSocketPath path s with
      | (.error e, s) => (.error e, s)
      | (.ok (), s) => (.ok createdParentDir, s)

def setPermissions (path : SocketPath) (mode : UInt32) (s : Host String) : HostResult Unit :=
  match Host.setPermissions path mode s with
  | (.error e, s) =>
    (.error ("Failed to set permissions on '" ++ path.display ++ "': " ++ e.message), s)
  | (.ok (), s) => (.ok (), s)

def setSocketPermissions (path : SocketPath) (createdParentDir : Bool) (s : Host String) :
    HostResult Unit :=
  match path.parent with
  -- `expect("validated parent exists")`
  | none => (.error "validated parent exists", s)
  | some parent =>
    if createdParentDir then
      match setPermissions parent 0o750 s with
      | (.error e, s) => (.error e, s)
      | (.ok (), s) => setPermissions path 0o660 s
    else setPermissions path 0o660 s

/-- `UnixSocketSource::bind`. -/
def bindSocketSource (path : SocketPath) (s : Host String) : HostResult Unit :=
  match prepareSocketPath path s with
  | (.error e, s) => (.error e, s)
  | (.ok createdParentDir, s) =>
    match Host.bindSocket path s with
    | (.error e, s) =>
      (.error ("Failed to bind Unix socket '" ++ path.display ++ "': " ++ e.message), s)
    | (.ok (), s) => setSocketPermissions path createdParentDir s

end Iec104Bridge
