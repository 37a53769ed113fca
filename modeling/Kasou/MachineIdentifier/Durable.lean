import Kasou.MachineIdentifier.WriteOnce

/-!
# Durability of an identifier that was handed out

The contents of the identifier file are synced before the rename, so they
survive every crash.  The rename itself is not: the directory is not synced.
What has been handed out is durable exactly as far as each crash keeps the
entry of the path.
-/

namespace Kasou.MachineIdentifier

open CrashFs TransitionSystem

variable {ι : Type} {V : VZGenericMachineIdentifier ι} {path : Path}

/-- Whatever file a crash leaves at the path has its contents, and it is not
the scratch file. -/
def Synced (path : Path) (fs : Fs Path) : Prop :=
  Guards (fun _ => True) path (tmp path) fs

/-- Every step keeps the contents of the identifier file synced. -/
theorem System.Step.synced {s s' : System ι} {a : Action ι}
    (hstep : System.Step V path s a s')
    (hprepared : ∀ call, s.call = some call →
      call.Prepared V path (fun _ => True) s.fs)
    (hsynced : Synced path s.fs) : Synced path s'.fs := by
  cases hstep with
  | call fresh hcall => exact hsynced
  | io result call call' fs' hcall hio =>
      exact hio.guards (hprepared call hcall) (fun _ _ => trivial) hsynced
  | finish result hcall => exact hsynced
  | kill => exact hsynced
  | crash kept lost => exact hsynced.crash

/-- A crash that keeps the entry of the path keeps the identifier. -/
theorem Holds.crash {fs : Fs Path} {id : ι} {kept : List Bool}
    {lost : Nat → List UInt8} (hholds : Holds V path fs id)
    (hsynced : Synced path fs)
    (hkept : (fs.crash kept lost).lookup path = fs.lookup path) :
    Holds V path (fs.crash kept lost) id := by
  obtain ⟨bytes, hread, hid⟩ := hholds
  obtain ⟨ino, hino, rfl⟩ := Fs.read_eq_some_iff.mp hread
  have hdata := Fs.data_crash_of_synced (hsynced.sealed_current hino).1
    kept lost
  exact ⟨_, by rw [Fs.read_of_lookup (hkept.trans hino), hdata], hid⟩

theorem System.Step.steady_of_keepsEntry {s s' : System ι} {a : Action ι}
    (hstep : System.Step V path s a s') (hsteady : Steady V path s)
    (hsynced : Synced path s.fs) (htruly : s.probesTruly path a = true)
    (hkeeps : s.keepsEntry path a = true) : Steady V path s' := by
  cases hcrash : a.isCrash with
  | false => exact hstep.steady hsteady htruly hcrash
  | true =>
      cases hstep with
      | crash kept lost =>
          refine ⟨nofun, nofun, nofun, fun id hid => ?_⟩
          have hok : s.returnedOk = true :=
            System.returnedOk_eq_true_iff.mpr ⟨id, hid⟩
          have hkept : (s.fs.crash kept lost).lookup path =
              s.fs.lookup path := by
            simpa [System.keepsEntry, hok] using hkeeps
          exact (hsteady.returned id hid).crash hsynced hkept
      | call fresh hcall => cases hcrash
      | io result call call' fs' hcall hio => cases hcrash
      | finish result hcall => cases hcrash
      | kill => cases hcrash

/-- **An identifier that was handed out is durable** in every run, with any
number of crashes, in which, once a call has returned an identifier, each
crash keeps the path's entry and the existence probe does not fail on the
file that is there: all calls that return an identifier return the same
bytes.  A file that was at the path before the first call must be synced. -/
theorem same_bytes_of_keepsEntry {fs : Fs Path} {schedule : List (Action ι)}
    {s : System ι} {id id' : ι}
    (hsynced : Synced path fs)
    (hkept : Guarded (System.step V path)
      (fun s a => s.probesTruly path a = true ∧ s.keepsEntry path a = true)
      (System.boot fs) schedule)
    (hrun : run (System.step V path) (System.boot fs) schedule = some s)
    (hid : .ok id ∈ s.results) (hid' : .ok id' ∈ s.results) :
    V.dataRepresentation id = V.dataRepresentation id' := by
  have hinv : Steady V path s ∧ Synced path s.fs := by
    refine guarded_invariant
      (P := fun s : System ι => Steady V path s ∧ Synced path s.fs) ?_
      ⟨steady_boot fs, hsynced⟩ hkept hrun
    rintro s a s' ⟨hsteady, hsynced⟩ ⟨htruly, hkeeps⟩ hstep
    have hstep := System.step_sound hstep
    exact ⟨hstep.steady_of_keepsEntry hsteady hsynced htruly hkeeps,
      hstep.synced hsteady.prepared hsynced⟩
  rw [(hinv.1.returned id hid).unique (hinv.1.returned id' hid')]

/-- A crash after the call has returned, then a second call. -/
def persistedThenCrash (kept : List Bool) : List (Action UInt8) :=
  persisting 1 ++ [.io .ok, .finish, .crash kept fun _ => []]

/-- The crash keeps all that was pending: the second call loads what the first
returned. -/
theorem same_bytes_after_crash :
    ∃ s, run (System.step byteIdentifier (vmFile "machine-identifier.bin"))
        (System.boot emptyFs)
        (persistedThenCrash [true, true, true] ++
          [.call 2, .io .ok, .io .ok, .finish]) = some s ∧
      ∀ id, .ok id ∈ s.results →
        byteIdentifier.dataRepresentation id = [0x6d, 1] :=
  ⟨_, rfl, fun id hid => @same_bytes_of_keepsEntry UInt8 byteIdentifier
    (vmFile "machine-identifier.bin") emptyFs
    (persistedThenCrash [true, true, true] ++
      [.call 2, .io .ok, .io .ok, .finish]) _ id 1
    (.of_absent (Fs.absent_ofDirectories _ _)) (by decide) rfl hid
    (List.mem_cons_self ..)⟩

/-- The crash loses the rename: the second call regenerates. -/
theorem other_bytes_after_crash :
    ∃ s, run (System.step byteIdentifier (vmFile "machine-identifier.bin"))
        (System.boot emptyFs)
        (persistedThenCrash [true, true, false] ++ persisting 2 ++
          [.io .ok, .finish]) = some s ∧
      s.results = [.ok 1, .ok 2] ∧
      byteIdentifier.dataRepresentation 1 ≠
        byteIdentifier.dataRepresentation 2 :=
  ⟨_, rfl, rfl, by decide⟩

end Kasou.MachineIdentifier
