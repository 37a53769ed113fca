import Kasou.Config.Coverage

/-!
# The memory size of a configuration

`build_vz_config_inner` turns mebibytes into bytes by two multiplications of a
`u64`.  Validation keeps out zero and has no upper bound, so the byte count is
right below `2^44` MiB and wraps from there on.
-/

namespace Kasou

open Checks MachineIdentifier

/-! ## Valid configurations -/

/-- A configuration that validation accepts. -/
structure ValidConfig (present : Path → Bool) extends VmConfig where
  /-- Validation accepts it. -/
  valid : toVmConfig.validate present = .ok ()

/-- Any other memory size than zero leaves a valid configuration valid. -/
def ValidConfig.withMemory {present : Path → Bool}
    (config : ValidConfig present) (mib : UInt64) (hmib : mib ≠ 0) :
    ValidConfig present where
  toVmConfig := { config.toVmConfig with memoryMib := mib }
  valid := by
    obtain ⟨hcpus, -, hfiles⟩ := VmConfig.validate_eq_ok_iff.mp config.valid
    exact VmConfig.validate_eq_ok_iff.mpr ⟨hcpus, hmib, hfiles⟩

/-! ## The byte count -/

/-- The argument of `setMemorySize`, as a release build computes it. -/
def VmConfig.memorySize (config : VmConfig) : UInt64 :=
  config.memoryMib * 1024 * 1024

/-- Neither of the two multiplications overflows. -/
def VmConfig.MemoryFits (config : VmConfig) : Prop :=
  config.memoryMib.toNat * 1024 < UInt64.size ∧
    (config.memoryMib * 1024).toNat * 1024 < UInt64.size

/-- The first number of mebibytes whose bytes a `u64` cannot count, `2^44`. -/
def memoryMibLimit : Nat := 0x100000000000

theorem toNat_mul_1024_of_lt {x : UInt64}
    (h : x.toNat * 1024 < UInt64.size) : (x * 1024).toNat = x.toNat * 1024 :=
  (UInt64.toNat_mul x 1024).trans (Nat.mod_eq_of_lt h)

section ByteCount

variable {config : VmConfig}

theorem VmConfig.memoryFits_iff :
    config.MemoryFits ↔ config.memoryMib.toNat < memoryMibLimit := by
  rw [MemoryFits, memoryMibLimit]
  by_cases hfirst : config.memoryMib.toNat * 1024 < UInt64.size
  · rw [toNat_mul_1024_of_lt hfirst]
    simp only [UInt64.size] at hfirst ⊢
    omega
  · simp only [UInt64.size] at hfirst ⊢
    omega

/-- Without overflow the byte count is exact. -/
theorem VmConfig.MemoryFits.toNat_memorySize (h : config.MemoryFits) :
    config.memorySize.toNat = config.memoryMib.toNat * (1024 * 1024) := by
  rw [memorySize, toNat_mul_1024_of_lt h.2, toNat_mul_1024_of_lt h.1,
    Nat.mul_assoc]

/-- The framework's configuration has the byte count that was set. -/
theorem memorySize_of_build {ι : Type} {F : VZFramework ι}
    {V : VZGenericMachineIdentifier ι} {host : Host} {fresh : ι}
    {vzConfig : VZVirtualMachineConfiguration ι}
    (h : buildVzConfigInner F V host fresh config = .ok vzConfig) :
    vzConfig.memorySize = config.memorySize := by
  rw [buildVzConfigInner] at h
  obtain ⟨_, -, h⟩ := bind_eq_ok_iff.mp h
  obtain ⟨_, -, h⟩ := bind_eq_ok_iff.mp h
  obtain ⟨_, -, h⟩ := bind_eq_ok_iff.mp h
  obtain ⟨_, -, h⟩ := bind_eq_ok_iff.mp h
  obtain ⟨_, -, h⟩ := bind_eq_ok_iff.mp h
  obtain ⟨_, -, h⟩ := bind_eq_ok_iff.mp h
  obtain ⟨_, -, h⟩ := bind_eq_ok_iff.mp h
  rw [← Except.ok.inj h]
  rfl

end ByteCount

/-- **Memory sizes of valid configurations**: the byte count is computed
without overflow, and is the exact one in every configuration built, when less
than `2^44` MiB are asked for and only then. -/
theorem memorySize_exact_iff (present : Path → Bool)
    (config : ValidConfig present) :
    (config.MemoryFits ∧
        config.memorySize.toNat = config.memoryMib.toNat * (1024 * 1024) ∧
        ∀ (ι : Type) (F : VZFramework ι) (V : VZGenericMachineIdentifier ι)
          (host : Host) (fresh : ι)
          (vzConfig : VZVirtualMachineConfiguration ι),
          buildVzConfigInner F V host fresh config.toVmConfig = .ok vzConfig →
            vzConfig.memorySize.toNat =
              config.memoryMib.toNat * (1024 * 1024)) ↔
      config.memoryMib.toNat < memoryMibLimit := by
  rw [← VmConfig.memoryFits_iff]
  constructor
  · rintro ⟨hfits, -⟩
    exact hfits
  · intro hfits
    refine ⟨hfits, hfits.toNat_memorySize, ?_⟩
    intro ι F V host fresh vzConfig hbuild
    rw [memorySize_of_build hbuild]
    exact hfits.toNat_memorySize

/-- The smoke configuration, asking for `2^44 + 1` MiB. -/
def hugeConfig : ValidConfig hostWithoutShare.present :=
  ValidConfig.withMemory ⟨smokeConfig, rfl⟩ 0x100000000001 (by decide)

/-- The request is granted with one mebibyte. -/
theorem hugeConfig_wraps :
    ¬hugeConfig.MemoryFits ∧
      hugeConfig.memorySize.toNat ≠
        hugeConfig.memoryMib.toNat * (1024 * 1024) ∧
      ∃ vzConfig, buildVzConfigInner (.silent UInt8) byteIdentifier
        hostWithoutShare 0 hugeConfig.toVmConfig = .ok vzConfig ∧
          vzConfig.memorySize = 1024 * 1024 := by
  refine ⟨?_, by decide, _, rfl, by decide⟩
  rw [VmConfig.memoryFits_iff]
  decide

end Kasou
