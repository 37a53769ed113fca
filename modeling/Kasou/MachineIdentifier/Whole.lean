import Kasou.Config
import Kasou.MachineIdentifier.Scratch

/-!
# The identifier file is never torn

Whatever steps fail and whenever the process is killed or the system crashes,
the file at the path is absent or holds the complete data representation of
an identifier that one of the calls came with.  So no call finds it corrupt.
-/

namespace Kasou.MachineIdentifier

open CrashFs TransitionSystem

variable {ι : Type} {V : VZGenericMachineIdentifier ι} {path : Path}

/-- The data representation of one of the identifiers. -/
def Represents (V : VZGenericMachineIdentifier ι) (ids : List ι)
    (bytes : List UInt8) : Prop :=
  ∃ id ∈ ids, bytes = V.dataRepresentation id

theorem restore_of_represents (path : Path) {ids : List ι} {bytes : List UInt8}
    (h : Represents V ids bytes) : ∃ id, restore V path bytes = .ok id := by
  obtain ⟨id, -, rfl⟩ := h
  exact ⟨id, by rw [restore, V.init_dataRepresentation]⟩

/-- The invariant: the target is guarded, and nothing has been found
corrupt. -/
structure Whole (V : VZGenericMachineIdentifier ι) (path : Path)
    (s : System ι) : Prop where
  guards : Guards (Represents V s.generated) path (tmp path) s.fs
  prepared : ∀ call, s.call = some call →
    call.Prepared V path (· ∈ s.generated) s.fs
  returning : s.call ≠ some (.done (.error (corruptError path)))
  results : .error (corruptError path) ∉ s.results

theorem whole_boot {fs : Fs Path} (habsent : fs.Absent path) :
    Whole V path (System.boot fs) where
  guards := .of_absent habsent
  prepared := nofun
  returning := nofun
  results := nofun

/-- A step of a call does not find the file corrupt. -/
theorem Call.Step.not_corrupt {fs fs' : Fs Path} {call call' : Call ι}
    {result : IoResult} {ids : List ι}
    (hstep : Call.Step V path fs call result fs' call')
    (hguards : Guards (Represents V ids) path (tmp path) fs) :
    call' ≠ .done (.error (corruptError path)) := by
  rintro rfl
  rcases hstep.of_done with ⟨bytes, hread, -, hload⟩ | ⟨id, -, -, hok⟩ |
    ⟨error, herror, hne⟩
  · obtain ⟨id, hid⟩ := restore_of_represents path
      (hguards.read_good hread)
    rw [hid] at hload
    cases hload
  · cases hok
  · exact hne (Except.error.inj herror).symm

/-- Every step keeps the invariant. -/
theorem System.Step.whole {s s' : System ι} {a : Action ι}
    (hstep : System.Step V path s a s') (hwhole : Whole V path s) :
    Whole V path s' := by
  cases hstep with
  | call fresh hcall =>
      exact {
        guards := hwhole.guards.mono fun bytes ⟨id, hid, hbytes⟩ =>
          ⟨id, List.mem_append_left _ hid, hbytes⟩
        prepared := fun call h => by
          obtain rfl := Option.some.inj h
          exact List.mem_append_right _ (List.mem_singleton_self fresh)
        returning := nofun
        results := hwhole.results }
  | io result call call' fs' hcall hio =>
      have hprepared := hwhole.prepared call hcall
      exact {
        guards := hio.guards hprepared (fun id hid => ⟨id, hid, rfl⟩)
          hwhole.guards
        prepared := fun c h => by
          obtain rfl := Option.some.inj h
          exact hio.prepared hprepared
        returning := fun h =>
          hio.not_corrupt hwhole.guards (Option.some.inj h)
        results := hwhole.results }
  | finish result hcall =>
      exact {
        guards := hwhole.guards
        prepared := nofun
        returning := nofun
        results := fun h => by
          rcases List.mem_append.mp h with hold | hnew
          · exact hwhole.results hold
          · rw [List.mem_singleton] at hnew
            exact hwhole.returning (hnew ▸ hcall) }
  | kill =>
      exact {
        guards := hwhole.guards
        prepared := nofun
        returning := nofun
        results := hwhole.results }
  | crash kept lost =>
      exact {
        guards := hwhole.guards.crash
        prepared := nofun
        returning := nofun
        results := hwhole.results }

/-- **The identifier file is never torn.**  When there was no file at the
path, then after every run of calls, with any failures, kills and crashes, and
whatever stands under the scratch name, the file at the path is absent or
holds the complete data representation of an identifier that one of the calls
came with, and no call has returned the error for a corrupt file. -/
theorem file_whole {fs : Fs Path} {schedule : List (Action ι)} {s : System ι}
    (habsent : fs.Absent path)
    (hrun : run (System.step V path) (System.boot fs) schedule = some s) :
    (s.fs.read path = none ∨ ∃ id ∈ s.generated,
      s.fs.read path = some (V.dataRepresentation id)) ∧
      .error (corruptError path) ∉ s.results := by
  have hwhole : Whole V path s :=
    run_invariant (fun _ _ _ hwhole hstep =>
      (System.step_sound hstep).whole hwhole)
      (whole_boot habsent) hrun
  refine ⟨?_, hwhole.results⟩
  cases hread : s.fs.read path with
  | none => exact Or.inl rfl
  | some bytes =>
      obtain ⟨id, hid, rfl⟩ := hwhole.guards.read_good hread
      exact Or.inr ⟨id, hid, rfl⟩

/-! ## A concrete run -/

/-- Identifiers of one byte, stored behind a tag. -/
def byteIdentifier : VZGenericMachineIdentifier UInt8 where
  dataRepresentation id := [0x6d, id]
  initWithDataRepresentation
    | [0x6d, id] => some id
    | _ => none
  init_dataRepresentation _ := rfl

/-- A file system with nothing but its root directory. -/
def emptyFs : Fs Path := Fs.ofDirectories fun _ => false

/-- A file in the directory of a virtual machine. -/
def vmFile (name : String) : Path :=
  rootFile "vm" ++ [.normal (OsStr.ofText name.toList)]

/-- A call that finds no file and persists `id`, up to its rename. -/
def persisting (id : UInt8) : List (Action UInt8) :=
  [.call id, .io .ok, .io .ok, .io .ok, .io .ok, .io (.wrote 1),
    .io (.wrote 1), .io .ok]

/-- A crash leaves a scratch file with other contents, and the next call
persists its own identifier through it. -/
def persistingTwice : List (Action UInt8) :=
  persisting 1 ++ [.crash [true, true] fun _ => [9]] ++ persisting 2 ++
    [.io .ok, .finish]

theorem file_whole_after_crash :
    ∃ s, run (System.step byteIdentifier (vmFile "machine-identifier.bin"))
        (System.boot emptyFs) persistingTwice = some s ∧
      (s.fs.read (vmFile "machine-identifier.bin") = none ∨
        ∃ id ∈ s.generated, s.fs.read (vmFile "machine-identifier.bin") =
          some (byteIdentifier.dataRepresentation id)) := by
  obtain ⟨s, hrun⟩ := Option.isSome_iff_exists.mp
    (by decide : (run (System.step byteIdentifier
      (vmFile "machine-identifier.bin")) (System.boot emptyFs)
        persistingTwice).isSome = true)
  exact ⟨s, hrun, (file_whole (Fs.absent_ofDirectories _ _) hrun).1⟩

end Kasou.MachineIdentifier
