import Kasou.Types

/-!
# Configuration data

The pure-data description of a virtual machine, field for field.
-/

namespace Kasou

/-- Boot loader configuration. -/
inductive BootConfig where
  /-- Direct Linux kernel boot. -/
  | linux (kernel initrd : Path) (cmdline : Text)
  /-- UEFI firmware boot. -/
  | efi (variableStore : Option Path)
  deriving DecidableEq

/-- A virtio block device backed by a disk image. -/
structure DiskConfig where
  path : Path
  readOnly : Bool
  deriving DecidableEq

/-- The network interface: NAT, with an optional MAC address. -/
structure NetworkConfig where
  macAddress : Option Text
  deriving DecidableEq

/-- A serial console that logs to a file. -/
structure SerialConfig where
  logPath : Path
  deriving DecidableEq

/-- A host directory shared with the guest. -/
structure SharedDirConfig where
  tag : Text
  hostPath : Path
  readOnly : Bool
  deriving DecidableEq

/-- Complete configuration of a virtual machine. -/
structure VmConfig where
  id : VmId
  cpus : UInt32
  memoryMib : UInt64
  boot : BootConfig
  disks : List DiskConfig
  network : NetworkConfig
  serial : Option SerialConfig
  sharedDirs : List SharedDirConfig
  machineIdentifierPath : Option Path
  deriving DecidableEq

/-- A file in the root directory. -/
def rootFile (name : String) : Path :=
  [.rootDir, .normal (OsStr.ofText name.toList)]

/-- The configuration of `examples/smoke.rs`, with its arguments filled in. -/
def smokeConfig : VmConfig where
  id := "smoke-test".toList
  cpus := 2
  memoryMib := 2048
  boot := .linux (rootFile "kernel") (rootFile "initrd")
    "console=hvc0".toList
  disks := [{ path := rootFile "disk.raw", readOnly := false }]
  network := { macAddress := some "52:55:55:aa:bb:cc".toList }
  serial := some { logPath := rootFile "console.log" }
  sharedDirs := []
  machineIdentifierPath := none

end Kasou
