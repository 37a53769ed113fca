import Kasou.Config.Validate

/-!
# The configuration builder

The setters of `VmConfigBuilder` and `build`, in source order, and sequences
of setter calls.  The standard hasher behind `deterministic_mac` is a
parameter.
-/

namespace Kasou

open Checks

/-- The builder's boot source: Linux direct boot, the default, or EFI. -/
inductive BootMode where
  | linux (kernel initrd : Option Path) (cmdline : Option Text)
  | efi (variableStore : Option Path)
  deriving DecidableEq

instance : Inhabited BootMode where
  default := .linux none none none

/-- Builder of a `VmConfig`. -/
structure VmConfigBuilder where
  id : VmId
  cpus : UInt32
  memoryMib : UInt64
  bootMode : BootMode
  disks : List DiskConfig
  mac : Option Text
  serial : Option SerialConfig
  sharedDirs : List SharedDirConfig
  machineIdentifierPath : Option Path
  deriving DecidableEq

namespace VmConfigBuilder

/-- A new builder for the given identifier. -/
def new (id : VmId) : VmConfigBuilder where
  id := id
  cpus := 2
  memoryMib := 2048
  bootMode := default
  disks := []
  mac := none
  serial := none
  sharedDirs := []
  machineIdentifierPath := none

/-! ## Setters -/

def setMachineIdentifierPath (b : VmConfigBuilder) (path : Path) :
    VmConfigBuilder :=
  { b with machineIdentifierPath := some path }

def setCpus (b : VmConfigBuilder) (count : UInt32) : VmConfigBuilder :=
  { b with cpus := count }

def setMemoryMib (b : VmConfigBuilder) (size : UInt64) : VmConfigBuilder :=
  { b with memoryMib := size }

/-- Set the kernel for direct Linux boot. -/
def boot (b : VmConfigBuilder) (kernel : Path) : VmConfigBuilder :=
  { b with
    bootMode :=
      match b.bootMode with
      | .linux _ initrd cmdline => .linux (some kernel) initrd cmdline
      | .efi _ => .linux (some kernel) none none }

def initrd (b : VmConfigBuilder) (initrd : Path) : VmConfigBuilder :=
  { b with
    bootMode :=
      match b.bootMode with
      | .linux kernel _ cmdline => .linux kernel (some initrd) cmdline
      | .efi _ => .linux none (some initrd) none }

def cmdline (b : VmConfigBuilder) (cmdline : Text) : VmConfigBuilder :=
  { b with
    bootMode :=
      match b.bootMode with
      | .linux kernel initrd _ => .linux kernel initrd (some cmdline)
      | .efi _ => .linux none none (some cmdline) }

/-- Switch the builder into EFI boot mode. -/
def efiBoot (b : VmConfigBuilder) : VmConfigBuilder :=
  { b with
    bootMode :=
      match b.bootMode with
      | .efi variableStore => .efi variableStore
      | .linux _ _ _ => .efi none }

/-- Persist EFI variables; implies EFI boot mode. -/
def efiVariableStore (b : VmConfigBuilder) (path : Path) : VmConfigBuilder :=
  { b with bootMode := .efi (some path) }

/-- Add a read-write disk. -/
def disk (b : VmConfigBuilder) (path : Path) : VmConfigBuilder :=
  { b with disks := b.disks ++ [{ path := path, readOnly := false }] }

/-- Add a read-only disk. -/
def diskReadonly (b : VmConfigBuilder) (path : Path) : VmConfigBuilder :=
  { b with disks := b.disks ++ [{ path := path, readOnly := true }] }

/-- NAT is the default: nothing changes. -/
def natNetwork (b : VmConfigBuilder) : VmConfigBuilder := b

def setMac (b : VmConfigBuilder) (mac : Text) : VmConfigBuilder :=
  { b with mac := some mac }

/-- Set the address that belongs to a seed and the builder's identifier. -/
def deterministicMac (hasher : Text → Text → UInt64) (b : VmConfigBuilder)
    (seed : Text) : VmConfigBuilder :=
  { b with mac := some (MacAddress.deterministic hasher seed b.id).display }

def serialFile (b : VmConfigBuilder) (path : Path) : VmConfigBuilder :=
  { b with serial := some { logPath := path } }

/-- Add a shared directory. -/
def sharedDir (b : VmConfigBuilder) (tag : Text) (hostPath : Path)
    (readOnly : Bool) : VmConfigBuilder :=
  { b with sharedDirs := b.sharedDirs ++ [{ tag, hostPath, readOnly }] }

/-! ## Building -/

/-- The boot configuration of a builder, if no required path is missing. -/
def buildBoot : BootMode → Except KasouError BootConfig
  | .linux none _ _ =>
      .error (.validation "kernel path is required (call .boot())".toList)
  | .linux (some _) none _ =>
      .error (.validation "initrd path is required (call .initrd())".toList)
  | .linux (some kernel) (some initrd) cmdline =>
      .ok (.linux kernel initrd (cmdline.getD []))
  | .efi variableStore => .ok (.efi variableStore)

/-- The configuration that a builder describes with a given boot source. -/
def toConfig (b : VmConfigBuilder) (boot : BootConfig) : VmConfig where
  id := b.id
  cpus := b.cpus
  memoryMib := b.memoryMib
  boot := boot
  disks := b.disks
  network := { macAddress := b.mac }
  serial := b.serial
  sharedDirs := b.sharedDirs
  machineIdentifierPath := b.machineIdentifierPath

/-- Build the configuration and validate it. -/
def build (present : Path → Bool) (b : VmConfigBuilder) :
    Except KasouError VmConfig := do
  let boot ← buildBoot b.bootMode
  let config := b.toConfig boot
  config.validate present
  .ok config

/-- A build succeeds with the configuration described, when it is valid. -/
theorem build_eq_ok_iff {present : Path → Bool} {b : VmConfigBuilder}
    {config : VmConfig} :
    b.build present = .ok config ↔
      ∃ boot, buildBoot b.bootMode = .ok boot ∧ config = b.toConfig boot ∧
        config.validate present = .ok () := by
  rw [build, bind_eq_ok_iff]
  refine exists_congr fun boot => and_congr_right fun _ => ?_
  rw [seq_eq_ok_iff, Except.ok.injEq]
  constructor
  · rintro ⟨hvalid, rfl⟩
    exact ⟨rfl, hvalid⟩
  · rintro ⟨rfl, hvalid⟩
    exact ⟨hvalid, rfl⟩

end VmConfigBuilder

/-! ## Sequences of calls -/

/-- A call of a setter that concerns the boot source. -/
inductive BootCall where
  | boot (kernel : Path)
  | initrd (initrd : Path)
  | cmdline (cmdline : Text)
  | efiBoot
  | efiVariableStore (path : Path)
  deriving DecidableEq

/-- A call of a setter. -/
inductive BuilderCall where
  | machineIdentifierPath (path : Path)
  | cpus (count : UInt32)
  | memoryMib (size : UInt64)
  | bootRelated (call : BootCall)
  | disk (path : Path)
  | diskReadonly (path : Path)
  | natNetwork
  | mac (mac : Text)
  | deterministicMac (seed : Text)
  | serialFile (path : Path)
  | sharedDir (tag : Text) (hostPath : Path) (readOnly : Bool)
  deriving DecidableEq

namespace VmConfigBuilder

/-- The effect of a call that concerns the boot source. -/
def applyBoot (b : VmConfigBuilder) : BootCall → VmConfigBuilder
  | .boot kernel => b.boot kernel
  | .initrd initrd => b.initrd initrd
  | .cmdline cmdline => b.cmdline cmdline
  | .efiBoot => b.efiBoot
  | .efiVariableStore path => b.efiVariableStore path

variable (hasher : Text → Text → UInt64)

/-- The effect of a call. -/
def apply (b : VmConfigBuilder) : BuilderCall → VmConfigBuilder
  | .machineIdentifierPath path => b.setMachineIdentifierPath path
  | .cpus count => b.setCpus count
  | .memoryMib size => b.setMemoryMib size
  | .bootRelated call => b.applyBoot call
  | .disk path => b.disk path
  | .diskReadonly path => b.diskReadonly path
  | .natNetwork => b.natNetwork
  | .mac mac => b.setMac mac
  | .deterministicMac seed => b.deterministicMac hasher seed
  | .serialFile path => b.serialFile path
  | .sharedDir tag hostPath readOnly => b.sharedDir tag hostPath readOnly

/-- A new builder after a sequence of calls. -/
def ofCalls (id : VmId) (calls : List BuilderCall) : VmConfigBuilder :=
  calls.foldl (apply hasher) (new id)

end VmConfigBuilder

end Kasou
