import Kasou.MachineIdentifier.Durable
import Kasou.Vm.Step

/-!
# Resuming a machine in another process

A snapshot is to be restored by a process that comes after the one that took
it.  The framework may refuse a restore for many reasons.  One of them is that
the platform has another identifier than the one that was active when the
snapshot was taken, and a platform comes with an identifier of its own unless
one is set on it.  So `VmConfig` can name a file that keeps the identifier
between processes.

A `World` is the file system with that file, at most one running process with
its platform and its handle, and the snapshot files.  Processes come and go,
and they are killed and crash with the whole system at any point.
-/

namespace Kasou.Resume

open CrashFs TransitionSystem
open MachineIdentifier (System)

variable {ι : Type}

/-- A running process, by the number of processes that have run before it. -/
structure Process (ι : Type) where
  number : Nat
  platform : ι
  handle : VmHandle

/-- What a snapshot file says about its origin. -/
structure Snapshot (ι : Type) where
  takenBy : Nat
  platform : ι
  deriving DecidableEq

/-- The processes of one machine, one after another. -/
structure World (ι : Type) where
  boot : System ι
  launched : Nat
  process : Option (Process ι)
  snapshots : Path → Option (Snapshot ι)

/-- The steps of the world. -/
inductive Action (ι : Type) where
  /-- `VmHandle::create` loads or creates the identifier, or fails. -/
  | identifier (a : MachineIdentifier.Action ι)
  /-- `VmHandle::create` returns a handle, with the loaded or created
  identifier set on its platform. -/
  | launch
  /-- `VmHandle::create` returns a handle, on a platform that keeps the
  identifier it came with. -/
  | launchVolatile (fresh : ι)
  /-- The process or its machine takes a step. -/
  | vm (a : Kasou.Action)
  /-- The handle is dropped and the process ends. -/
  | exit
  | kill
  /-- The whole system crashes; the snapshots at the paths in `torn` are
  lost. -/
  | crash (kept : List Bool) (lost : Nat → List UInt8) (torn : Path → Bool)

/-- The step as one of the identifier file. -/
def Action.onIdentifier : Action ι → Option (MachineIdentifier.Action ι)
  | .identifier a => some a
  | .launch => some .finish
  | .kill => some .kill
  | .crash kept lost _ => some (.crash kept lost)
  | .launchVolatile _ | .vm _ | .exit => none

/-- The call whose operation completes without error in a step. -/
def completes (h : VmHandle) : Kasou.Action → Option HostCall
  | .complete .success =>
      match h.thread with
      | .waiting call _ _ => some call
      | _ => none
  | _ => none

namespace World

/-- Before the first process. -/
def start (fs : Fs Path) : World ι where
  boot := .boot fs
  launched := 0
  process := none
  snapshots _ := none

/-- A handle has been created on a platform. -/
def launch (w : World ι) (config : VmConfig) (boot : System ι)
    (platform : ι) : World ι :=
  { w with
    boot := boot
    launched := w.launched + 1
    process := some ⟨w.launched, platform, .create config⟩ }

/-- The process has gone on to another state of its handle. -/
def setHandle (w : World ι) (p : Process ι) (h : VmHandle) : World ι :=
  { w with process := some { p with handle := h } }

/-- The process has saved its machine to a file. -/
def save (w : World ι) (p : Process ι) (file : Path) : World ι :=
  { w with
    snapshots :=
      Function.update w.snapshots file (some ⟨p.number, p.platform⟩) }

/-- The whole system has crashed, and the snapshots in `torn` are lost. -/
def crash (w : World ι) (kept : List Bool) (lost : Nat → List UInt8)
    (torn : Path → Bool) : World ι where
  boot := { w.boot with fs := w.boot.fs.crash kept lost, call := none }
  launched := w.launched
  process := none
  snapshots file := if torn file then none else w.snapshots file

end World

/-- Which snapshot files the framework restores on a platform, with the
assumption that it rejects a platform whose identifier differs from the one
that was active when the snapshot was taken. -/
structure VZRestore (ι : Type) where
  agrees : World ι → ι → Path → Bool
  platform_of_agrees : ∀ w platform file, agrees w platform file = true →
    ∃ snapshot, w.snapshots file = some snapshot ∧
      snapshot.platform = platform

namespace World

/-- The step function of the world. -/
def step (R : VZRestore ι) (V : VZGenericMachineIdentifier ι)
    (config : VmConfig) (w : World ι) : Action ι → Option (World ι)
  | .identifier a =>
      match w.process, config.machineIdentifierPath with
      | none, some path =>
          (w.boot.step V path a).map fun boot => { w with boot := boot }
      | _, _ => none
  | .launch =>
      match w.process, w.boot.call with
      | none, some (.done (.ok id)) =>
          some (w.launch config
            { w.boot with
              call := none
              results := w.boot.results ++ [.ok id] } id)
      | _, _ => none
  | .launchVolatile fresh =>
      match w.process, config.machineIdentifierPath with
      | none, none =>
          some (w.launch config
            { w.boot with generated := w.boot.generated ++ [fresh] } fresh)
      | _, _ => none
  | .vm a =>
      match w.process with
      | none => none
      | some p =>
          match completes p.handle a with
          | some (.saveState file) =>
              (p.handle.step a).map fun h => (w.setHandle p h).save p file
          | some (.restoreState file) =>
              if R.agrees w p.platform file then
                (p.handle.step a).map (w.setHandle p)
              else none
          | _ => (p.handle.step a).map (w.setHandle p)
  | .exit =>
      match w.process with
      | none => none
      | some _ => some { w with process := none }
  | .kill => some { w with boot := { w.boot with call := none }, process := none }
  | .crash kept lost torn => some (w.crash kept lost torn)

end World

/-! ## What one step can do -/

/-- The steps of the world, each with its effect on the identifier file, the
process and the snapshots. -/
inductive World.Step (V : VZGenericMachineIdentifier ι) (config : VmConfig)
    (w : World ι) : Action ι → World ι → Prop where
  | identifier (a : MachineIdentifier.Action ι) (path : Path)
      (boot : System ι) (hpath : config.machineIdentifierPath = some path)
      (hprocess : w.process = none)
      (hstep : System.Step V path w.boot a boot) :
      Step V config w (.identifier a) { w with boot := boot }
  | launch (id : ι) (hprocess : w.process = none)
      (hcall : w.boot.call = some (.done (.ok id))) :
      Step V config w .launch (w.launch config
        { w.boot with
          call := none
          results := w.boot.results ++ [.ok id] } id)
  | launchVolatile (fresh : ι)
      (hpath : config.machineIdentifierPath = none)
      (hprocess : w.process = none) :
      Step V config w (.launchVolatile fresh) (w.launch config
        { w.boot with generated := w.boot.generated ++ [fresh] } fresh)
  /-- A step of the handle that saves nothing. -/
  | vm (a : Kasou.Action) (p : Process ι) (h : VmHandle)
      (hprocess : w.process = some p) (hstep : p.handle.step a = some h) :
      Step V config w (.vm a) (w.setHandle p h)
  | save (a : Kasou.Action) (p : Process ι) (h : VmHandle) (file : Path)
      (hprocess : w.process = some p) (hstep : p.handle.step a = some h) :
      Step V config w (.vm a) ((w.setHandle p h).save p file)
  | exit : Step V config w .exit { w with process := none }
  | kill : Step V config w .kill
      { w with boot := { w.boot with call := none }, process := none }
  | crash (kept : List Bool) (lost : Nat → List UInt8)
      (torn : Path → Bool) :
      Step V config w (.crash kept lost torn) (w.crash kept lost torn)

variable {R : VZRestore ι} {V : VZGenericMachineIdentifier ι}
  {config : VmConfig}

@[simp] theorem World.save_snapshots (w : World ι) (p : Process ι)
    (file file' : Path) : (w.save p file).snapshots file' =
      if file' = file then some ⟨p.number, p.platform⟩
      else w.snapshots file' :=
  Function.update_apply ..

theorem World.of_crash_snapshots {w : World ι} {kept : List Bool}
    {lost : Nat → List UInt8} {torn : Path → Bool} {file : Path}
    {snapshot : Snapshot ι}
    (hsnapshot : (w.crash kept lost torn).snapshots file = some snapshot) :
    w.snapshots file = some snapshot := by
  have hite : (if torn file = true then none else w.snapshots file) =
      some snapshot := hsnapshot
  exact (Option.ite_none_left_eq_some.mp hite).2

theorem World.step_sound {w w' : World ι} {a : Action ι}
    (hstep : w.step R V config a = some w') : World.Step V config w a w' := by
  cases a with
  | identifier a =>
      rw [step] at hstep
      split at hstep
      next path hprocess hpath =>
        obtain ⟨boot, hboot, rfl⟩ := Option.map_eq_some_iff.mp hstep
        exact .identifier a path boot hpath hprocess
          (System.step_sound hboot)
      · cases hstep
  | launch =>
      rw [step] at hstep
      split at hstep
      next id hprocess hcall =>
        obtain rfl := Option.some.inj hstep
        exact .launch id hprocess hcall
      · cases hstep
  | launchVolatile fresh =>
      rw [step] at hstep
      split at hstep
      next hprocess hpath =>
        obtain rfl := Option.some.inj hstep
        exact .launchVolatile fresh hpath hprocess
      · cases hstep
  | vm a =>
      rw [step] at hstep
      split at hstep
      · cases hstep
      next p hprocess =>
        split at hstep
        next file hcall =>
          obtain ⟨h, hh, rfl⟩ := Option.map_eq_some_iff.mp hstep
          exact .save a p h file hprocess hh
        next file hcall =>
          split at hstep
          · obtain ⟨h, hh, rfl⟩ := Option.map_eq_some_iff.mp hstep
            exact .vm a p h hprocess hh
          · cases hstep
        next =>
          obtain ⟨h, hh, rfl⟩ := Option.map_eq_some_iff.mp hstep
          exact .vm a p h hprocess hh
  | exit =>
      rw [step] at hstep
      split at hstep
      · cases hstep
      · obtain rfl := Option.some.inj hstep
        exact .exit
  | kill =>
      obtain rfl := Option.some.inj hstep
      exact .kill
  | crash kept lost torn =>
      obtain rfl := Option.some.inj hstep
      exact .crash kept lost torn

/-- A restore that completes without error is one that the framework agrees
to. -/
theorem World.agrees_of_step {w w' : World ι} {p : Process ι} {file : Path}
    {rest : Body} (hprocess : w.process = some p)
    (hwaiting : p.handle.thread =
      .waiting (.restoreState file) .restore rest)
    (hstep : w.step R V config (.vm (.complete .success)) = some w') :
    R.agrees w p.platform file = true := by
  have hcompletes : completes p.handle (.complete .success) =
      some (.restoreState file) := by
    rw [completes, hwaiting]
  simp only [World.step, hprocess, hcompletes] at hstep
  exact (Option.ite_none_right_eq_some.mp hstep).1

/-! ## With an identifier file -/

/-- The step does not shake the identifier file: its existence probe does not
fail on a file that is there, and a crash keeps the entry of the path, once an
identifier has been returned. -/
def World.keepsIdentifier (path : Path) (w : World ι) (a : Action ι) : Bool :=
  match a.onIdentifier with
  | none => true
  | some a => w.boot.probesTruly path a && w.boot.keepsEntry path a

theorem World.keepsIdentifier_sound {path : Path} {w : World ι}
    {a : Action ι} {a' : MachineIdentifier.Action ι}
    (ha : a.onIdentifier = some a')
    (hkeeps : w.keepsIdentifier path a = true) :
    w.boot.probesTruly path a' = true ∧ w.boot.keepsEntry path a' = true := by
  rw [keepsIdentifier, ha] at hkeeps
  exact Bool.and_eq_true_iff.mp hkeeps

/-- The invariant: the running process and every snapshot are on a platform
with an identifier that a call has returned. -/
structure World.Kept (V : VZGenericMachineIdentifier ι) (path : Path)
    (w : World ι) : Prop where
  steady : MachineIdentifier.Steady V path w.boot
  synced : MachineIdentifier.Synced path w.boot.fs
  process : ∀ p, w.process = some p → .ok p.platform ∈ w.boot.results
  snapshots : ∀ file snapshot, w.snapshots file = some snapshot →
    .ok snapshot.platform ∈ w.boot.results

theorem World.kept_start {path : Path} {fs : Fs Path}
    (hsynced : MachineIdentifier.Synced path fs) :
    World.Kept V path (World.start fs) where
  steady := MachineIdentifier.steady_boot fs
  synced := hsynced
  process p hprocess := by cases hprocess
  snapshots file snapshot hsnapshot := by cases hsnapshot

/-- A step of the identifier file that does not shake it keeps the invariant,
if the process and the snapshots after it were there before it. -/
theorem World.Kept.onIdentifier {path : Path} {w w' : World ι}
    {a : MachineIdentifier.Action ι} (hkept : w.Kept V path)
    (hstep : System.Step V path w.boot a w'.boot)
    (htruly : w.boot.probesTruly path a = true)
    (hkeeps : w.boot.keepsEntry path a = true)
    (hprocess : ∀ p, w'.process = some p →
      .ok p.platform ∈ w'.boot.results)
    (hsnapshots : ∀ file snapshot, w'.snapshots file = some snapshot →
      w.snapshots file = some snapshot) : w'.Kept V path where
  steady := hstep.steady_of_keepsEntry hkept.steady hkept.synced htruly hkeeps
  synced := hstep.synced hkept.steady.prepared hkept.synced
  process := hprocess
  snapshots file snapshot hsnapshot :=
    hstep.mem_results
      (hkept.snapshots file snapshot (hsnapshots file snapshot hsnapshot))

/-- Every step that does not shake the identifier file keeps the invariant. -/
theorem World.Step.kept {path : Path} {w w' : World ι} {a : Action ι}
    (hpath : config.machineIdentifierPath = some path)
    (hstep : World.Step V config w a w') (hkept : w.Kept V path)
    (hkeeps : w.keepsIdentifier path a = true) : w'.Kept V path := by
  cases hstep with
  | identifier a path' boot hpath' hprocess hboot =>
      obtain rfl := Option.some.inj (hpath'.symm.trans hpath)
      obtain ⟨htruly, hentry⟩ := World.keepsIdentifier_sound rfl hkeeps
      refine hkept.onIdentifier hboot htruly hentry ?_ fun _ _ h => h
      intro p hp
      rw [hprocess] at hp
      cases hp
  | launch id hprocess hcall =>
      obtain ⟨htruly, hentry⟩ := World.keepsIdentifier_sound rfl hkeeps
      refine hkept.onIdentifier (.finish (.ok id) hcall) htruly hentry ?_
        fun _ _ h => h
      intro p hp
      obtain rfl := Option.some.inj hp
      exact List.mem_append_right _ (List.mem_singleton_self _)
  | launchVolatile fresh hnone hprocess =>
      rw [hpath] at hnone
      cases hnone
  | vm a p h hprocess hh =>
      refine ⟨hkept.steady, hkept.synced, ?_, hkept.snapshots⟩
      intro q hq
      obtain rfl := Option.some.inj hq
      exact hkept.process p hprocess
  | save a p h file hprocess hh =>
      refine ⟨hkept.steady, hkept.synced, ?_, ?_⟩
      · intro q hq
        obtain rfl := Option.some.inj hq
        exact hkept.process p hprocess
      · intro file' snapshot hsnapshot
        rw [World.save_snapshots] at hsnapshot
        by_cases heq : file' = file
        · rw [if_pos heq] at hsnapshot
          obtain rfl := Option.some.inj hsnapshot
          exact hkept.process p hprocess
        · rw [if_neg heq] at hsnapshot
          exact hkept.snapshots file' snapshot hsnapshot
  | exit =>
      refine ⟨hkept.steady, hkept.synced, ?_, hkept.snapshots⟩
      intro p hp
      cases hp
  | kill =>
      obtain ⟨htruly, hentry⟩ := World.keepsIdentifier_sound rfl hkeeps
      refine hkept.onIdentifier .kill htruly hentry ?_ fun _ _ h => h
      intro p hp
      cases hp
  | crash kept lost torn =>
      obtain ⟨htruly, hentry⟩ := World.keepsIdentifier_sound rfl hkeeps
      refine hkept.onIdentifier (.crash kept lost) htruly hentry ?_
        fun _ _ => World.of_crash_snapshots
      intro p hp
      cases hp

theorem World.Kept.platform_eq {path : Path} {w : World ι} {p : Process ι}
    {file : Path} {snapshot : Snapshot ι} (hkept : w.Kept V path)
    (hprocess : w.process = some p)
    (hsnapshot : w.snapshots file = some snapshot) :
    snapshot.platform = p.platform :=
  (hkept.steady.returned _ (hkept.snapshots file snapshot hsnapshot)).unique
    (hkept.steady.returned _ (hkept.process p hprocess))

/-- **No snapshot is rejected for its identifier** by a machine with an
identifier file, over any number of processes, kills and crashes, as long as
no step shakes the file: whatever process runs, its platform has the
identifier that was active when any of the snapshots was taken.  A file that
was at the path before the first process must be synced. -/
theorem platform_eq_of_keepsIdentifier {path : Path} {fs : Fs Path}
    {schedule : List (Action ι)} {w : World ι} {p : Process ι} {file : Path}
    {snapshot : Snapshot ι}
    (hpath : config.machineIdentifierPath = some path)
    (hsynced : MachineIdentifier.Synced path fs)
    (hkeeps : Guarded (World.step R V config)
      (fun w a => w.keepsIdentifier path a = true) (World.start fs) schedule)
    (hrun : run (World.step R V config) (World.start fs) schedule = some w)
    (hprocess : w.process = some p)
    (hsnapshot : w.snapshots file = some snapshot) :
    snapshot.platform = p.platform := by
  have hkept : w.Kept V path := by
    refine guarded_invariant ?_ (World.kept_start hsynced) hkeeps hrun
    intro w a w' hkept hkeeps hstep
    exact (World.step_sound hstep).kept hpath hkept hkeeps
  exact hkept.platform_eq hprocess hsnapshot

/-! ## Without an identifier file -/

/-- The invariant: processes are numbered in the order of their platforms'
identifiers, and the running process and every snapshot know theirs. -/
structure World.Numbered (w : World ι) : Prop where
  call : w.boot.call = none
  launched : w.boot.generated.length = w.launched
  process : ∀ p, w.process = some p →
    w.boot.generated[p.number]? = some p.platform
  snapshots : ∀ file snapshot, w.snapshots file = some snapshot →
    w.boot.generated[snapshot.takenBy]? = some snapshot.platform

theorem World.numbered_start (fs : Fs Path) :
    (World.start fs : World ι).Numbered where
  call := rfl
  launched := rfl
  process p hprocess := by cases hprocess
  snapshots file snapshot hsnapshot := by cases hsnapshot

/-- Every step of a machine without an identifier file keeps the invariant. -/
theorem World.Step.numbered {w w' : World ι} {a : Action ι}
    (hpath : config.machineIdentifierPath = none)
    (hstep : World.Step V config w a w') (hnumbered : w.Numbered) :
    w'.Numbered := by
  cases hstep with
  | identifier a path boot hpath' hprocess hboot =>
      rw [hpath] at hpath'
      cases hpath'
  | launch id hprocess hcall =>
      rw [hnumbered.call] at hcall
      cases hcall
  | launchVolatile fresh hnone hprocess =>
      refine ⟨hnumbered.call, ?_, ?_, ?_⟩
      · have hlength := hnumbered.launched
        simpa [World.launch] using hlength
      · intro p hp
        obtain rfl := Option.some.inj hp
        have hlength := hnumbered.launched
        exact List.getElem?_eq_some_iff.mpr
          ⟨by simp [World.launch, hlength], by simp [World.launch, ← hlength]⟩
      · intro file snapshot hsnapshot
        have hget := hnumbered.snapshots file snapshot hsnapshot
        have hlt := (List.getElem?_eq_some_iff.mp hget).1
        exact (List.getElem?_append_left hlt).trans hget
  | vm a p h hprocess hh =>
      refine ⟨hnumbered.call, hnumbered.launched, ?_, hnumbered.snapshots⟩
      intro q hq
      obtain rfl := Option.some.inj hq
      exact hnumbered.process p hprocess
  | save a p h file hprocess hh =>
      refine ⟨hnumbered.call, hnumbered.launched, ?_, ?_⟩
      · intro q hq
        obtain rfl := Option.some.inj hq
        exact hnumbered.process p hprocess
      · intro file' snapshot hsnapshot
        rw [World.save_snapshots] at hsnapshot
        by_cases heq : file' = file
        · rw [if_pos heq] at hsnapshot
          obtain rfl := Option.some.inj hsnapshot
          exact hnumbered.process p hprocess
        · rw [if_neg heq] at hsnapshot
          exact hnumbered.snapshots file' snapshot hsnapshot
  | exit =>
      refine ⟨hnumbered.call, hnumbered.launched, ?_, hnumbered.snapshots⟩
      intro p hp
      cases hp
  | kill =>
      refine ⟨rfl, hnumbered.launched, ?_, hnumbered.snapshots⟩
      intro p hp
      cases hp
  | crash kept lost torn =>
      refine ⟨rfl, hnumbered.launched, ?_, ?_⟩
      · intro p hp
        cases hp
      · intro file snapshot hsnapshot
        exact hnumbered.snapshots file snapshot
          (World.of_crash_snapshots hsnapshot)

theorem World.Numbered.platform_eq_iff {w : World ι} {p : Process ι}
    {file : Path} {snapshot : Snapshot ι} (hnumbered : w.Numbered)
    (hfresh : w.boot.generated.Nodup) (hprocess : w.process = some p)
    (hsnapshot : w.snapshots file = some snapshot) :
    snapshot.platform = p.platform ↔ snapshot.takenBy = p.number := by
  have htaken := hnumbered.snapshots file snapshot hsnapshot
  have hrunning := hnumbered.process p hprocess
  constructor
  · intro hplatform
    have hlt := (List.getElem?_eq_some_iff.mp htaken).1
    rw [hplatform, ← hrunning] at htaken
    exact (List.getElem?_inj hlt hfresh).mp htaken
  · intro hnumber
    rw [hnumber, hrunning] at htaken
    exact (Option.some.inj htaken).symm

/-- **No process restores another one's snapshot** of a machine without an
identifier file, if its platforms come with distinct identifiers: in every
run, the running process's platform has the identifier of a snapshot exactly
if the process has taken it, and so a restore that completes without error is
of such a snapshot. -/
theorem restored_takenBy {fs : Fs Path} {schedule : List (Action ι)}
    {w : World ι} {p : Process ι}
    (hpath : config.machineIdentifierPath = none)
    (hrun : run (World.step R V config) (World.start fs) schedule = some w)
    (hfresh : w.boot.generated.Nodup) (hprocess : w.process = some p) :
    (∀ file snapshot, w.snapshots file = some snapshot →
      (snapshot.platform = p.platform ↔ snapshot.takenBy = p.number)) ∧
    ∀ file rest w', p.handle.thread =
        .waiting (.restoreState file) .restore rest →
      w.step R V config (.vm (.complete .success)) = some w' →
        ∃ snapshot, w.snapshots file = some snapshot ∧
          snapshot.takenBy = p.number := by
  have hnumbered : w.Numbered := by
    refine run_invariant ?_ (World.numbered_start fs) hrun
    intro w a w' hnumbered hstep
    exact (World.step_sound hstep).numbered hpath hnumbered
  have hiff : ∀ file snapshot, w.snapshots file = some snapshot →
      (snapshot.platform = p.platform ↔ snapshot.takenBy = p.number) :=
    fun _ _ => hnumbered.platform_eq_iff hfresh hprocess
  refine ⟨hiff, fun file rest w' hwaiting hstep => ?_⟩
  obtain ⟨snapshot, hsnapshot, hplatform⟩ := R.platform_of_agrees _ _ _
    (World.agrees_of_step hprocess hwaiting hstep)
  exact ⟨snapshot, hsnapshot, (hiff file snapshot hsnapshot).mp hplatform⟩

/-- A framework that has no other reason to refuse a restore. -/
def byPlatform : VZRestore UInt8 where
  agrees w platform file :=
    (w.snapshots file).any fun snapshot => snapshot.platform == platform
  platform_of_agrees w platform file h := by
    obtain ⟨snapshot, hsnapshot, hsame⟩ := (Option.any_eq_true ..).mp h
    exact ⟨snapshot, hsnapshot, beq_iff_eq.mp hsame⟩

/-- The running process saves its machine. -/
def saving : List (Action UInt8) :=
  [.vm (.invoke (.saveState (rootFile "vm.snapshot"))), .vm (.host 0),
    .vm (.complete .success), .vm (.host 0), .vm (.sync .synced),
    .vm (.host 0), .vm (.host 0)]

/-- The running process asks the framework to restore that file. -/
def restoring : List (Action UInt8) :=
  [.vm (.invoke (.restoreState (rootFile "vm.snapshot"))), .vm (.host 0),
    .vm (.host 0)]

/-- A machine that keeps its identifier in a file. -/
def keepingConfig : VmConfig :=
  { smokeConfig with
    machineIdentifierPath := some (MachineIdentifier.vmFile "id.bin") }

/-- A process persists the identifier and saves its machine; the system
crashes, and the next process loads the identifier. -/
def savedThenCrashed : List (Action UInt8) :=
  (MachineIdentifier.persisting 1 ++
    [MachineIdentifier.Action.io .ok]).map .identifier ++
    [.launch] ++ saving ++
    [.crash [true, true, true] (fun _ => []) fun _ => false] ++
    [.identifier (.call 2), .identifier (.io .ok), .identifier (.io .ok),
      .launch]

theorem platform_eq_savedThenCrashed :
    ∃ w p snapshot,
      run (World.step byPlatform MachineIdentifier.byteIdentifier
          keepingConfig) (World.start MachineIdentifier.emptyFs)
        savedThenCrashed = some w ∧
      w.process = some p ∧ p.number = 1 ∧
      w.snapshots (rootFile "vm.snapshot") = some snapshot ∧
      snapshot.takenBy = 0 ∧ snapshot.platform = p.platform :=
  ⟨_, _, _, rfl, rfl, rfl, rfl, rfl,
    @platform_eq_of_keepsIdentifier UInt8 byPlatform
      MachineIdentifier.byteIdentifier keepingConfig
      (MachineIdentifier.vmFile "id.bin") MachineIdentifier.emptyFs
      savedThenCrashed _ _ (rootFile "vm.snapshot") _ rfl
      (.of_absent (Fs.absent_ofDirectories _ _)) (by decide) rfl rfl rfl⟩

/-- Two processes of a machine without an identifier file, of which the first
saves its machine, and the second does so too and asks for a restore. -/
def savedByBoth : List (Action UInt8) :=
  [.launchVolatile 1] ++ saving ++ [.exit, .launchVolatile 2] ++ saving ++
    restoring

theorem restored_takenBy_savedByBoth :
    ∃ w w', run (World.step byPlatform MachineIdentifier.byteIdentifier
          smokeConfig) (World.start MachineIdentifier.emptyFs) savedByBoth =
        some w ∧
      w.step byPlatform MachineIdentifier.byteIdentifier smokeConfig
          (.vm (.complete .success)) = some w' ∧
      ∃ snapshot, w.snapshots (rootFile "vm.snapshot") = some snapshot ∧
        snapshot.takenBy = 1 :=
  ⟨_, _, rfl, rfl, (@restored_takenBy UInt8 byPlatform
    MachineIdentifier.byteIdentifier smokeConfig MachineIdentifier.emptyFs
    savedByBoth _ _ rfl rfl (by decide) rfl).2 (rootFile "vm.snapshot") _ _
    rfl rfl⟩

end Kasou.Resume
