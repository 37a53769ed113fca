import Kasou.Builder

/-!
# The builder misses no configuration

Every configuration is what some sequence of setter calls configures.
-/

namespace Kasou

open Checks

/-- The calls that select a boot source. -/
def BootConfig.calls : BootConfig → List BootCall
  | .linux kernel initrd cmdline =>
      [.boot kernel, .initrd initrd, .cmdline cmdline]
  | .efi none => [.efiBoot]
  | .efi (some store) => [.efiVariableStore store]

/-- The call that adds a disk. -/
def DiskConfig.call (disk : DiskConfig) : BuilderCall :=
  if disk.readOnly then .diskReadonly disk.path else .disk disk.path

/-- The call that adds a shared directory. -/
def SharedDirConfig.call (dir : SharedDirConfig) : BuilderCall :=
  .sharedDir dir.tag dir.hostPath dir.readOnly

/-- The calls that concern neither disks nor shared directories nor the boot
source. -/
def VmConfig.plainCalls (config : VmConfig) : List BuilderCall :=
  [.cpus config.cpus, .memoryMib config.memoryMib] ++
    (config.network.macAddress.map BuilderCall.mac).toList ++
    (config.serial.map fun serial => .serialFile serial.logPath).toList ++
    (config.machineIdentifierPath.map
      BuilderCall.machineIdentifierPath).toList

/-- Calls that configure everything in a configuration but its
identifier. -/
def VmConfig.calls (config : VmConfig) : List BuilderCall :=
  config.plainCalls ++ config.boot.calls.map .bootRelated ++
    config.disks.map DiskConfig.call ++
    config.sharedDirs.map SharedDirConfig.call

namespace VmConfigBuilder

variable (hasher : Text → Text → UInt64) (b : VmConfigBuilder)

/-- The builder after the calls that select a boot source. -/
theorem foldl_bootCalls_new (id : VmId) (config : VmConfig)
    (boot : BootConfig) :
    ∃ mode, buildBoot mode = .ok boot ∧
      (boot.calls.map BuilderCall.bootRelated).foldl (apply hasher)
          (config.plainCalls.foldl (apply hasher) (new id)) =
        { new id with
          cpus := config.cpus
          memoryMib := config.memoryMib
          bootMode := mode
          mac := config.network.macAddress
          serial := config.serial
          machineIdentifierPath := config.machineIdentifierPath } := by
  have hplain : config.plainCalls.foldl (apply hasher) (new id) =
      { new id with
        cpus := config.cpus
        memoryMib := config.memoryMib
        mac := config.network.macAddress
        serial := config.serial
        machineIdentifierPath := config.machineIdentifierPath } := by
    rw [VmConfig.plainCalls]
    cases config.network.macAddress <;> cases config.serial <;>
      cases config.machineIdentifierPath <;> rfl
  rw [hplain]
  match boot with
  | .linux kernel initrd cmdline =>
      exact ⟨.linux (some kernel) (some initrd) (some cmdline), rfl, rfl⟩
  | .efi none => exact ⟨.efi none, rfl, rfl⟩
  | .efi (some store) => exact ⟨.efi (some store), rfl, rfl⟩

theorem apply_diskCall (disk : DiskConfig) :
    b.apply hasher disk.call = { b with disks := b.disks ++ [disk] } := by
  obtain ⟨path, readOnly⟩ := disk
  cases readOnly <;> rfl

theorem foldl_diskCalls (disks : List DiskConfig) :
    (disks.map DiskConfig.call).foldl (apply hasher) b =
      { b with disks := b.disks ++ disks } := by
  induction disks generalizing b with
  | nil => simp
  | cons disk disks ih =>
      rw [List.map_cons, List.foldl_cons, apply_diskCall, ih]
      simp

theorem foldl_sharedDirCalls (dirs : List SharedDirConfig) :
    (dirs.map SharedDirConfig.call).foldl (apply hasher) b =
      { b with sharedDirs := b.sharedDirs ++ dirs } := by
  induction dirs generalizing b with
  | nil => simp
  | cons dir dirs ih =>
      rw [List.map_cons, List.foldl_cons, ih]
      simp [SharedDirConfig.call, apply, sharedDir]

/-- **The builder is complete.**  For every configuration there are calls
that, on every file system, build exactly this configuration if it is valid,
and fail with the error of its validation otherwise. -/
theorem build_calls (config : VmConfig) (present : Path → Bool) :
    (ofCalls hasher config.id config.calls).build present =
      (config.validate present).map fun _ => config := by
  obtain ⟨mode, hmode, hboot⟩ :=
    foldl_bootCalls_new hasher config.id config config.boot
  have hcalls : ofCalls hasher config.id config.calls =
      { new config.id with
        cpus := config.cpus
        memoryMib := config.memoryMib
        bootMode := mode
        disks := config.disks
        mac := config.network.macAddress
        serial := config.serial
        sharedDirs := config.sharedDirs
        machineIdentifierPath := config.machineIdentifierPath } := by
    rw [ofCalls, VmConfig.calls, List.foldl_append, List.foldl_append,
      List.foldl_append, hboot, foldl_diskCalls, foldl_sharedDirCalls]
    rfl
  rw [hcalls, build, hmode]
  show (config.validate present >>= fun _ => .ok config) = _
  cases config.validate present <;> rfl

end VmConfigBuilder

end Kasou
