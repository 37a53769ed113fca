import Kasou.Builder.Slots

/-!
# Mixing boot families

A call of the other boot family discards what the builder holds of the first,
so `build` sees only the fields of the last phase.  Whether it fails depends
on its other checks alone.
-/

namespace Kasou

open Command Checks

/-- A boot source with all required paths, each of them there. -/
def BootMode.Available (present : Path → Bool) : BootMode → Prop
  | .linux (some kernel) (some initrd) _ =>
      present kernel = true ∧ present initrd = true
  | .linux _ _ _ => False
  | .efi (some store) => parentMissing present store = false
  | .efi none => True

/-- The checks of `build` find nothing wrong with a sequence of calls: it asks
for a processor and for memory, names disks that are there, and selects a boot
source that is available. -/
def Buildable (present : Path → Bool) (calls : List BuilderCall) : Prop :=
  lastValue BuilderCall.cpusValue calls ≠ some 0 ∧
    lastValue BuilderCall.memoryMibValue calls ≠ some 0 ∧
    calls.filterMap BuilderCall.diskValue ≠ [] ∧
    (∀ disk ∈ calls.filterMap BuilderCall.diskValue,
      present disk.path = true) ∧
    (selectedBoot (calls.filterMap BuilderCall.bootCall)).Available present

/-- A mode is available when it builds a boot source whose files are there. -/
theorem BootMode.available_iff {present : Path → Bool} {mode : BootMode} :
    mode.Available present ↔
      ∃ boot, VmConfigBuilder.buildBoot mode = .ok boot ∧
        boot.FilesPresent present := by
  match mode with
  | .linux none _ _ => simp [Available, VmConfigBuilder.buildBoot]
  | .linux (some _) none _ => simp [Available, VmConfigBuilder.buildBoot]
  | .linux (some _) (some _) _ =>
      simp [Available, VmConfigBuilder.buildBoot, BootConfig.FilesPresent]
  | .efi none =>
      simp [Available, VmConfigBuilder.buildBoot, BootConfig.FilesPresent]
  | .efi (some _) =>
      simp [Available, VmConfigBuilder.buildBoot, BootConfig.FilesPresent]

theorem VmConfigBuilder.exists_build_iff {present : Path → Bool}
    {b : VmConfigBuilder} :
    (∃ config, b.build present = .ok config) ↔
      b.cpus ≠ 0 ∧ b.memoryMib ≠ 0 ∧ b.disks ≠ [] ∧
        (∀ disk ∈ b.disks, present disk.path = true) ∧
        b.bootMode.Available present := by
  simp only [build_eq_ok_iff, VmConfig.validate_eq_ok_iff,
    BootMode.available_iff]
  constructor
  · rintro ⟨config, boot, hboot, rfl, hcpus, hmemory, hdisks, hfiles, hall⟩
    exact ⟨hcpus, hmemory, hdisks, hall, boot, hboot, hfiles⟩
  · rintro ⟨hcpus, hmemory, hdisks, hall, boot, hboot, hfiles⟩
    exact ⟨_, boot, hboot, rfl, hcpus, hmemory, hdisks, hfiles, hall⟩

theorem getD_ne_zero_iff {α : Type} [Zero α] {initial : α}
    (hinitial : initial ≠ 0) (value : Option α) :
    value.getD initial ≠ 0 ↔ value ≠ some 0 := by
  cases value <;> simp [hinitial]

/-- A build succeeds exactly on the sequences that its checks find nothing
wrong with. -/
theorem exists_build_ofCalls_iff (hasher : Text → Text → UInt64) (id : VmId)
    (present : Path → Bool) (calls : List BuilderCall) :
    (∃ config, (VmConfigBuilder.ofCalls hasher id calls).build present =
      .ok config) ↔ Buildable present calls := by
  rw [VmConfigBuilder.exists_build_iff, ofCalls_eq_slots, Buildable]
  simp only [slots, getD_ne_zero_iff (show (2 : UInt32) ≠ 0 by decide),
    getD_ne_zero_iff (show (2048 : UInt64) ≠ 0 by decide)]

/-! ## Mixed sequences -/

/-- The calls set a kernel and an EFI variable store. -/
def MixesFamilies (calls : List BuilderCall) : Prop :=
  (∃ kernel, .bootRelated (.boot kernel) ∈ calls) ∧
    ∃ path, .bootRelated (.efiVariableStore path) ∈ calls

/-- The configuration leaves out the caller's kernel, or the caller's EFI
variable store. -/
def Discards (calls : List BuilderCall) (config : VmConfig) : Prop :=
  match config.boot with
  | .linux _ _ _ => ∃ path, .bootRelated (.efiVariableStore path) ∈ calls
  | .efi _ => ∃ kernel, .bootRelated (.boot kernel) ∈ calls

theorem discards_of_mixesFamilies {calls : List BuilderCall}
    (h : MixesFamilies calls) (config : VmConfig) :
    Discards calls config := by
  rw [Discards]
  cases config.boot with
  | linux _ _ _ => exact h.2
  | efi _ => exact h.1

/-- A sequence that mixes boot families is rejected, and discards nothing,
exactly when another check of `build` fails. -/
theorem mixed_families_rejected_iff (hasher : Text → Text → UInt64)
    (id : VmId) (present : Path → Bool) (calls : List BuilderCall)
    (hmix : MixesFamilies calls) :
    (Fails ((VmConfigBuilder.ofCalls hasher id calls).build present) ↔
      ¬Buildable present calls) ∧
    ((∀ config, (VmConfigBuilder.ofCalls hasher id calls).build present =
      .ok config → ¬Discards calls config) ↔ ¬Buildable present calls) := by
  rw [← exists_build_ofCalls_iff hasher id, fails_iff_ne_ok, not_exists]
  refine ⟨Iff.rfl, forall_congr' fun config => ?_⟩
  have hdiscards := discards_of_mixesFamilies hmix config
  constructor
  · exact fun h hok => h hok hdiscards
  · exact fun h hok => absurd hok h

/-- The kernel of a Linux boot, then a variable store. -/
def mixedCalls : List BuilderCall :=
  [.bootRelated (.boot (rootFile "kernel")),
    .bootRelated (.efiVariableStore (rootFile "efi.vars")),
    .disk (rootFile "disk.img")]

theorem mixedCalls_mixesFamilies : MixesFamilies mixedCalls :=
  ⟨⟨rootFile "kernel", by simp [mixedCalls]⟩,
    ⟨rootFile "efi.vars", by simp [mixedCalls]⟩⟩

theorem mixed_families_rejected_iff_mixedCalls :
    (Fails ((VmConfigBuilder.ofCalls (fun _ _ => 0) [] mixedCalls).build
      fun _ => true) ↔ ¬Buildable (fun _ => true) mixedCalls) ∧
    ((∀ config, (VmConfigBuilder.ofCalls (fun _ _ => 0) [] mixedCalls).build
      (fun _ => true) = .ok config → ¬Discards mixedCalls config) ↔
        ¬Buildable (fun _ => true) mixedCalls) :=
  mixed_families_rejected_iff _ _ _ _ mixedCalls_mixesFamilies

/-- With every file there, the mixed calls build an EFI configuration without
the kernel. -/
theorem mixedCalls_not_rejected :
    MixesFamilies mixedCalls ∧
      (VmConfigBuilder.ofCalls (fun _ _ => 0) [] mixedCalls).build
        (fun _ => true) =
        .ok
          { id := []
            cpus := 2
            memoryMib := 2048
            boot := .efi (some (rootFile "efi.vars"))
            disks := [{ path := rootFile "disk.img", readOnly := false }]
            network := { macAddress := none }
            serial := none
            sharedDirs := []
            machineIdentifierPath := none } :=
  ⟨mixedCalls_mixesFamilies, rfl⟩

end Kasou
