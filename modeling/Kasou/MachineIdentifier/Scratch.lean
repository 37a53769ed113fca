import Kasou.Library.AtomicReplace
import Kasou.MachineIdentifier.Step
import Mathlib.Data.List.Infix

/-!
# The scratch file of a call

A call fills its scratch file with the data representation of the identifier
it is about to persist, syncs it, and only then renames it.  `Call.Prepared`
says what the scratch file holds at each point of the call, and the target
stays guarded against everything that the call does before the rename.
-/

namespace Kasou.MachineIdentifier

open CrashFs

variable {ι : Type} {V : VZGenericMachineIdentifier ι} {path : Path}

/-! ## The names that a call uses -/

theorem length_tmp (path : Path) : (tmp path).length = path.length :=
  path.length_withExtension _

/-- The scratch name of a path with a file name is another name. -/
theorem tmp_ne (hfile : path.fileName ≠ none) : tmp path ≠ path :=
  Path.withExtension_ne hfile (by decide)

/-- A scratch name that may stand for a file is another name. -/
theorem tmp_ne_of_dir (hdir : DirTree.dir (tmp path) ≠ none) :
    tmp path ≠ path := by
  refine tmp_ne fun hname => hdir ?_
  have hsame : tmp path = path := by
    rw [tmp, Path.withExtension, hname]
  rw [hsame]
  simp only [DirTree.dir, hname]

theorem tmp_ne_of_lookup {fs : Fs Path} {ino : Nat}
    (h : fs.lookup (tmp path) = some (.file ino)) : tmp path ≠ path :=
  tmp_ne_of_dir (Namespace.dir_ne_none_of_lookup h)

/-- A scratch name that may stand for a file is in the directory of the
path. -/
theorem dir_tmp (hdir : DirTree.dir (tmp path) ≠ none) :
    DirTree.dir (tmp path) = DirTree.dir path := by
  cases hname : path.fileName with
  | none => rw [tmp, Path.withExtension, hname]
  | some name =>
      obtain ⟨dir, rfl⟩ := Path.fileName_eq_some_iff.mp hname
      rw [tmp, Path.withExtension_concat] at hdir ⊢
      have hlast : Path.replaceExtension name
          (OsStr.ofText "bin.tmp".toList) ≠ .parentDir := by
        intro hparent
        rw [hparent] at hdir
        exact hdir (by simp [DirTree.dir, Path.fileName])
      rw [Path.replaceExtension_of_ne hlast]
      simp [DirTree.dir]

theorem holds_tmp (hdir : DirTree.dir (tmp path) ≠ none)
    (ns : Namespace Path) : ns.holds (tmp path) = ns.holds path := by
  rw [Namespace.holds, Namespace.holds, dir_tmp hdir]

/-- The directories that a call makes have shorter names than its files. -/
theorem length_lt_of_mem_directories {d : Path}
    (hd : d ∈ directories path) : d.length < path.length := by
  rw [directories] at hd
  split at hd
  · cases hd
  next parent hparent =>
    split at hd
    · cases hd
    · have hprefix : d <+: parent :=
        (List.mem_inits _ _).mp (List.mem_of_mem_tail hd)
      exact hprefix.length_le.trans_lt (Path.length_parent hparent)

theorem ne_of_mem_directories {d : Path} (hd : d ∈ directories path) :
    path ≠ d ∧ tmp path ≠ d := by
  have hlength := length_lt_of_mem_directories hd
  constructor
  · rintro rfl
    exact lt_irrefl _ hlength
  · rintro rfl
    rw [length_tmp] at hlength
    exact lt_irrefl _ hlength

/-- With one more directory made, one more is in place. -/
theorem inPlace_of_mkdir {fs fs' : Fs Path} {before : List Path} {d : Path}
    (hmkdir : fs.mkdir d = some fs')
    (hbefore : ∀ d' ∈ before, fs.lookup d' = some .dir) :
    ∀ d' ∈ before ++ [d], fs'.lookup d' = some .dir := by
  intro d' hd'
  by_cases hsame : d' = d
  · rw [hsame]
    exact Fs.lookup_mkdir_self hmkdir
  · rcases List.mem_append.mp hd' with hold | hnew
    · exact (Fs.lookup_mkdir_of_ne hmkdir hsame).trans (hbefore d' hold)
    · exact absurd (List.mem_singleton.mp hnew) hsame

/-! ## What the scratch file holds -/

/-- What is known of the scratch file at each point of a call that persists
an identifier satisfying `P`. -/
def Call.Prepared (V : VZGenericMachineIdentifier ι) (path : Path)
    (P : ι → Prop) (fs : Fs Path) : Call ι → Prop
  | .probe fresh => P fresh
  | .read => True
  | .mkdir id d rest => P id ∧ ∀ d' ∈ d :: rest, d' ∈ directories path
  | .create id => P id
  | .write id ino off =>
      P id ∧ fs.lookup (tmp path) = some (.file ino) ∧
        fs.data ino = (V.dataRepresentation id).take off ∧
        off < (V.dataRepresentation id).length
  | .sync id ino =>
      P id ∧ fs.lookup (tmp path) = some (.file ino) ∧
        fs.data ino = V.dataRepresentation id
  | .rename id =>
      P id ∧ ∃ ino, fs.lookup (tmp path) = some (.file ino) ∧
        fs.data ino = V.dataRepresentation id ∧ fs.synced ino = true
  | .done _ => True

variable {P : ι → Prop} {fs fs' : Fs Path} {call call' : Call ι}
  {result : IoResult}

/-- What is known of the scratch file depends on the scratch file only. -/
theorem Call.Prepared.frame (hprepared : call.Prepared V path P fs)
    (hlookup : fs'.lookup (tmp path) = fs.lookup (tmp path))
    (hfile : ∀ ino, fs.lookup (tmp path) = some (.file ino) →
      fs'.data ino = fs.data ino ∧ fs'.synced ino = fs.synced ino) :
    call.Prepared V path P fs' := by
  cases call with
  | probe fresh => exact hprepared
  | read => trivial
  | mkdir id d rest => exact hprepared
  | create id => exact hprepared
  | write id ino off =>
      obtain ⟨hid, hino, hdata, hroom⟩ := hprepared
      exact ⟨hid, hlookup.trans hino, (hfile ino hino).1.trans hdata, hroom⟩
  | sync id ino =>
      obtain ⟨hid, hino, hdata⟩ := hprepared
      exact ⟨hid, hlookup.trans hino, (hfile ino hino).1.trans hdata⟩
  | rename id =>
      obtain ⟨hid, ino, hino, hdata, hsynced⟩ := hprepared
      exact ⟨hid, ino, hlookup.trans hino, (hfile ino hino).1.trans hdata,
        (hfile ino hino).2.trans hsynced⟩
  | done result => trivial

theorem prepared_createDirAll {id : ι} (hid : P id) {ds : List Path}
    (hds : ∀ d ∈ ds, d ∈ directories path) :
    (createDirAll id ds).Prepared V path P fs := by
  cases ds with
  | nil => exact hid
  | cons d rest => exact ⟨hid, hds⟩

theorem prepared_persist {id : ι} (hid : P id) :
    (persist path id).Prepared V path P fs :=
  prepared_createDirAll hid fun _ hd => hd

theorem prepared_writeAll {id : ι} {ino off : Nat} (hid : P id)
    (hino : fs.lookup (tmp path) = some (.file ino))
    (hdata : fs.data ino = (V.dataRepresentation id).take off) :
    (writeAll V id ino off).Prepared V path P fs := by
  rw [writeAll]
  split
  next hroom => exact ⟨hid, hino, hdata, hroom⟩
  next hdone =>
    exact ⟨hid, hino, hdata.trans (List.take_of_length_le (not_lt.mp hdone))⟩

/-- Every step of a call leaves the scratch file as the rest of the call
needs it. -/
theorem Call.Step.prepared
    (hstep : Call.Step V path fs call result fs' call')
    (hprepared : call.Prepared V path P fs) :
    call'.Prepared V path P fs' := by
  cases hstep with
  | found fresh hfound => trivial
  | missing fresh hmissing => exact prepared_persist hprepared
  | unseen fresh e => exact prepared_persist hprepared
  | load bytes hread => trivial
  | mkdir id d rest fs' hmkdir =>
      exact prepared_createDirAll hprepared.1
        (List.forall_mem_cons.mp hprepared.2).2
  | create id fs' ino hcreate =>
      refine prepared_writeAll hprepared (Fs.lookup_create_self hcreate) ?_
      rw [Fs.data_create_self hcreate, List.take_zero]
  | write id ino off n hpos hbound =>
      obtain ⟨hid, hino, hdata, -⟩ := hprepared
      refine prepared_writeAll hid hino ?_
      rw [Fs.pwrite, Fs.data_setData_self, hdata, Fs.splice_take _ hbound]
  | writeZero id ino off => trivial
  | sync id ino =>
      obtain ⟨hid, hino, hdata⟩ := hprepared
      exact ⟨hid, ino, hino, hdata, fs.synced_fsync_self ino⟩
  | rename id fs' hrename => trivial
  | fail call e error herror => trivial

/-- Every step of a call keeps the target guarded, if what the call renames
to it is good. -/
theorem Call.Step.guards {good : List UInt8 → Prop}
    (hstep : Call.Step V path fs call result fs' call')
    (hprepared : call.Prepared V path P fs)
    (hgood : ∀ id, P id → good (V.dataRepresentation id))
    (hguards : Guards good path (tmp path) fs) :
    Guards good path (tmp path) fs' := by
  cases hstep with
  | found fresh hfound => exact hguards
  | missing fresh hmissing => exact hguards
  | unseen fresh e => exact hguards
  | load bytes hread => exact hguards
  | mkdir id d rest fs' hmkdir =>
      obtain ⟨htarget, hscratch⟩ :=
        ne_of_mem_directories (hprepared.2 d (List.mem_cons_self ..))
      exact hguards.mkdir htarget hscratch hmkdir
  | create id fs' ino hcreate =>
      have hino := Fs.lookup_create_self hcreate
      exact hguards.create (tmp_ne_of_lookup hino).symm hcreate
  | write id ino off n hpos hbound => exact hguards.pwrite hprepared.2.1
  | writeZero id ino off => exact hguards
  | sync id ino => exact hguards.fsync
  | rename id fs' hrename =>
      obtain ⟨hid, ino, hino, hdata, hsynced⟩ := hprepared
      refine hguards.rename (tmp_ne_of_lookup hino) hino ⟨hsynced, ?_⟩ hrename
      exact hdata ▸ hgood id hid
  | fail call e error herror => exact hguards

end Kasou.MachineIdentifier
