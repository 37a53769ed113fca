import Kasou.Config
import Kasou.Library.Checks

/-!
# Validation of a configuration

`VmConfig.validate` looks at the file system only through `Path::exists`,
which is a parameter here.
-/

namespace Kasou

open Checks

variable (present : Path → Bool)

/-- A store whose parent directory is named and missing. -/
def parentMissing (store : Path) : Bool :=
  match store.parent with
  | none => false
  | some parent => !parent.asOsStr.isEmpty && !present parent

/-- The boot source part of `VmConfig::validate`. -/
def BootConfig.validate : BootConfig → Except KasouError Unit
  | .linux kernel initrd _ => do
      ensure (present kernel)
        (.bootFilesNotFound ("kernel: ".toList ++ kernel.display))
      ensure (present initrd)
        (.bootFilesNotFound ("initrd: ".toList ++ initrd.display))
  | .efi none => .ok ()
  | .efi (some store) =>
      ensure (!parentMissing present store)
        (.validation ("EFI variable store parent directory missing: ".toList ++
          (store.parent.getD []).display))

/-- Validate the configuration without building framework objects. -/
def VmConfig.validate (config : VmConfig) : Except KasouError Unit := do
  ensure (config.cpus != 0) (.validation "cpus must be >= 1".toList)
  ensure (config.memoryMib != 0)
    (.validation "memory_mib must be >= 1".toList)
  ensure (!config.disks.isEmpty)
    (.validation "at least one disk is required".toList)
  config.boot.validate present
  forEach (fun disk => ensure (present disk.path) (.diskNotFound disk.path))
    config.disks

/-- What validation checks of the boot source. -/
def BootConfig.FilesPresent : BootConfig → Prop
  | .linux kernel initrd _ => present kernel = true ∧ present initrd = true
  | .efi none => True
  | .efi (some store) => parentMissing present store = false

variable {present}

theorem BootConfig.validate_eq_ok_iff {boot : BootConfig} :
    boot.validate present = .ok () ↔ boot.FilesPresent present := by
  cases boot with
  | linux kernel initrd _ =>
      simp [BootConfig.validate, FilesPresent]
  | efi store =>
      cases store <;> simp [BootConfig.validate, FilesPresent]

/-- A configuration is valid when it has a processor, memory and a disk, and
all files that its boot source and its disks name are there. -/
theorem VmConfig.validate_eq_ok_iff {config : VmConfig} :
    config.validate present = .ok () ↔
      config.cpus ≠ 0 ∧ config.memoryMib ≠ 0 ∧ config.disks ≠ [] ∧
        config.boot.FilesPresent present ∧
        ∀ disk ∈ config.disks, present disk.path = true := by
  rw [VmConfig.validate]
  simp [BootConfig.validate_eq_ok_iff]

end Kasou
