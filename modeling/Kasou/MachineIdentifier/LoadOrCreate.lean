import Kasou.Error
import Kasou.Library.CrashFs
import Kasou.Library.TransitionSystem

/-!
# Loading or creating the machine identifier

`load_or_create_machine_identifier` is written as the sequence of its file
system steps, in source order, each of which succeeds or fails with an error
text.  A `System` is a file system on which such calls are made one after
another for one path, with processes killed and crashes at any point.

A path names one directory entry, so two paths name one file only when they
are equal.  A path that does not end in a file name (`/`, `..`, the empty path)
always names a directory.
-/

namespace Kasou

open CrashFs

/-- Paths as the names of a file system. -/
instance : DirTree Path where
  dir p :=
    match p.fileName with
    | none => none
    | some _ => p.parent

/-- The paths that need not stand for a directory are those that end in a file
name. -/
theorem Path.dir_ne_none_iff {p : Path} :
    DirTree.dir p ≠ none ↔ p.fileName ≠ none := by
  simp only [DirTree.dir]
  cases hname : p.fileName with
  | none => simp
  | some name =>
      obtain ⟨dir, rfl⟩ := Path.fileName_eq_some_iff.mp hname
      simp

/-- The framework's machine identifiers, with the assumption that restoring
an identifier undoes taking its data representation. -/
structure VZGenericMachineIdentifier (ι : Type) where
  dataRepresentation : ι → List UInt8
  /-- Nil for malformed bytes. -/
  initWithDataRepresentation : List UInt8 → Option ι
  init_dataRepresentation :
    ∀ id, initWithDataRepresentation (dataRepresentation id) = some id

theorem VZGenericMachineIdentifier.dataRepresentation_injective {ι : Type}
    (V : VZGenericMachineIdentifier ι) :
    Function.Injective V.dataRepresentation := by
  intro id id' hsame
  have hid := V.init_dataRepresentation id
  rw [hsame, V.init_dataRepresentation] at hid
  exact (Option.some.inj hid).symm

namespace MachineIdentifier

variable {ι : Type}

/-! ## Names and error texts -/

/-- The scratch file of a call. -/
def tmp (path : Path) : Path :=
  path.withExtension (OsStr.ofText "bin.tmp".toList)

def readError (path : Path) (e : Text) : KasouError :=
  .validation ("read machine identifier from ".toList ++ path.display ++
    ": ".toList ++ e)

def corruptError (path : Path) : KasouError :=
  .validation ("machine identifier at ".toList ++ path.display ++
    " is corrupt or wrong format".toList)

def mkdirError (path : Path) (e : Text) : KasouError :=
  .validation ("mkdir -p ".toList ++ (path.parent.getD []).display ++
    ": ".toList ++ e)

def createError (path : Path) (e : Text) : KasouError :=
  .validation ("create ".toList ++ (tmp path).display ++ ": ".toList ++ e)

def writeError (path : Path) (e : Text) : KasouError :=
  .validation ("write ".toList ++ (tmp path).display ++ ": ".toList ++ e)

def fsyncError (path : Path) (e : Text) : KasouError :=
  .validation ("fsync ".toList ++ (tmp path).display ++ ": ".toList ++ e)

def renameError (path : Path) (e : Text) : KasouError :=
  .validation ("rename ".toList ++ (tmp path).display ++ " → ".toList ++
    path.display ++ ": ".toList ++ e)

/-! ## One call -/

/-- Where a call is: what it does next, with the identifier it is about to
persist. -/
inductive Call (ι : Type) where
  /-- `path.exists()`; the platform of the call came with `fresh`. -/
  | probe (fresh : ι)
  /-- `std::fs::read(path)`. -/
  | read
  /-- `create_dir_all`: make the directory `d`, then those in `rest`. -/
  | mkdir (id : ι) (d : Path) (rest : List Path)
  /-- `File::create(&tmp)`. -/
  | create (id : ι)
  /-- `write_all`, with `off` bytes written to the open file. -/
  | write (id : ι) (ino off : Nat)
  /-- `sync_all` on the open file. -/
  | sync (id : ι) (ino : Nat)
  /-- `std::fs::rename(&tmp, path)`. -/
  | rename (id : ι)
  /-- The call is about to return. -/
  | done (result : Except KasouError ι)
  deriving DecidableEq

/-- What the operating system answers to a step. -/
inductive IoResult where
  | ok
  /-- `write` accepted the next `n` bytes. -/
  | wrote (n : Nat)
  | failed (e : Text)

/-- `create_dir_all` on the directories, outermost first, then the rest of
the call. -/
def createDirAll (id : ι) : List Path → Call ι
  | [] => .create id
  | d :: ds => .mkdir id d ds

/-- The directories that are to hold `path`, outermost first; none if its
parent is the empty path. -/
def directories (path : Path) : List Path :=
  match path.parent with
  | none => []
  | some parent =>
      if parent.asOsStr.isEmpty then [] else parent.inits.tail

/-- Persist the platform's own identifier. -/
def persist (path : Path) (fresh : ι) : Call ι :=
  createDirAll fresh (directories path)

/-- `write_all` from offset `off` on; it is done when nothing is left. -/
def writeAll (V : VZGenericMachineIdentifier ι) (id : ι) (ino off : Nat) :
    Call ι :=
  if off < (V.dataRepresentation id).length then .write id ino off
  else .sync id ino

/-- The result of a call that has read `bytes`. -/
def restore (V : VZGenericMachineIdentifier ι) (path : Path)
    (bytes : List UInt8) : Except KasouError ι :=
  match V.initWithDataRepresentation bytes with
  | some id => .ok id
  | none => .error (corruptError path)

/-- The error that a call returns when its next step fails; none for steps
whose failure it does not see as one. -/
def Call.failure (path : Path) (e : Text) : Call ι → Option KasouError
  | .probe _ => none
  | .read => some (readError path e)
  | .mkdir _ _ _ => some (mkdirError path e)
  | .create _ => some (createError path e)
  | .write _ _ _ => some (writeError path e)
  | .sync _ _ => some (fsyncError path e)
  | .rename _ => some (renameError path e)
  | .done _ => none

/-- The next step of a call, with the answer that the operating system gives
to it. -/
def Call.step (V : VZGenericMachineIdentifier ι) (path : Path)
    (fs : Fs Path) : Call ι → IoResult → Option (Fs Path × Call ι)
  | .probe fresh, .ok =>
      some (fs, if (fs.lookup path).isSome then .read else persist path fresh)
  | .probe fresh, .failed _ =>
      -- `exists()` is false when the metadata cannot be read
      some (fs, persist path fresh)
  | .read, .ok =>
      (fs.read path).map fun bytes => (fs, .done (restore V path bytes))
  | .mkdir id d rest, .ok =>
      (fs.mkdir d).map fun fs' => (fs', createDirAll id rest)
  | .create id, .ok =>
      (fs.create (tmp path)).map fun (fs', ino) => (fs', writeAll V id ino 0)
  | .write id ino off, .wrote n =>
      if n = 0 then
        some (fs, .done (.error
          (writeError path "failed to write whole buffer".toList)))
      else if off + n ≤ (V.dataRepresentation id).length then
        some (fs.pwrite ino off (((V.dataRepresentation id).drop off).take n),
          writeAll V id ino (off + n))
      else none
  | .sync id ino, .ok => some (fs.fsync ino, .rename id)
  | .rename id, .ok =>
      (fs.rename (tmp path) path).map fun fs' => (fs', .done (.ok id))
  | call, .failed e =>
      (call.failure path e).map fun error => (fs, .done (.error error))
  | _, _ => none

/-! ## Calls one after another -/

/-- A file system, with the call that is in flight, the identifiers that the
platforms of the calls so far came with, and the results returned so far. -/
structure System (ι : Type) where
  fs : Fs Path
  call : Option (Call ι)
  generated : List ι
  results : List (Except KasouError ι)

/-- The steps of the system. -/
inductive Action (ι : Type) where
  /-- Call the function with a new platform, which comes with `fresh`. -/
  | call (fresh : ι)
  /-- The call in flight takes its next step. -/
  | io (result : IoResult)
  /-- The call in flight returns. -/
  | finish
  /-- The process is killed. -/
  | kill
  /-- The whole system crashes and comes back. -/
  | crash (kept : List Bool) (lost : Nat → List UInt8)

namespace System

/-- Before the first call. -/
def boot (fs : Fs Path) : System ι := ⟨fs, none, [], []⟩

/-- The step function of the system. -/
def step (V : VZGenericMachineIdentifier ι) (path : Path) (s : System ι) :
    Action ι → Option (System ι)
  | .call fresh =>
      match s.call with
      | none =>
          some { s with
            call := some (.probe fresh)
            generated := s.generated ++ [fresh] }
      | some _ => none
  | .io result =>
      match s.call with
      | none => none
      | some call =>
          (call.step V path s.fs result).map fun (fs', call') =>
            { s with fs := fs', call := some call' }
  | .finish =>
      match s.call with
      | some (.done result) =>
          some { s with call := none, results := s.results ++ [result] }
      | _ => none
  | .kill => some { s with call := none }
  | .crash kept lost =>
      some { s with fs := s.fs.crash kept lost, call := none }

end System
end MachineIdentifier
end Kasou
